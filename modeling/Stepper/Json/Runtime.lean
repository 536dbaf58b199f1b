import Stepper.Host
import Stepper.Json.Syntax

/-! # Runtime data as JSON -/

namespace Stepper

mutual

/-- A value: whole numbers within the bound are integers, numbers that are not finite are null, and
functions and classes are their text. -/
def Value.toJson : Value → Json
  | .null => .null
  | .bool b => .bool b
  | .number x =>
    match plainInteger? x with
    | some n => .int n
    | none => if x.isFinite then .float x else .null
  | .string text => .string text
  | .array items => .array (valuesJson items)
  | .object fields => .object (fieldsJson fields)
  | .function decl frame => .string (Value.function decl frame).text
  | .classDef decl frame => .string (Value.classDef decl frame).text

def valuesJson : List Value → List Json
  | [] => []
  | first :: rest => first.toJson :: valuesJson rest

def fieldsJson : List (String × Value) → List (String × Json)
  | [] => []
  | (name, value) :: rest => (name, value.toJson) :: fieldsJson rest

end

def Dictionary.toJson (values : Dictionary Value) : Json := .object (fieldsJson values)

def DebugState.name : DebugState → String
  | .idle => "idle"
  | .running => "running"
  | .paused => "paused"
  | .completed => "completed"
  | .errored => "errored"

def Notice.toJson : Notice → Json
  | .started debug step timeout =>
    .object [("debug", .bool debug), ("step", .bool step), ("timeout_ms", .nat timeout)]
  | .output text line => .object [("text", .string text), ("line", .nat line)]
  | .logged text line =>
    .object [("text", .string text), ("logpoint", .bool true), ("line", .nat line)]
  | .failed d =>
    .object
      [("kind", .string d.kind.name), ("message", .string d.message), ("line", .nat d.location.line),
       ("column", .nat d.location.column)]
  | .inputRejected request reason =>
    .object
      [("kind", .string "input"), ("request_id", .nat request), ("message", .string reason)]
  | .completed success duration outputs error =>
    .object
      [("success", .bool success), ("duration_ms", .nat duration), ("outputs", .nat outputs),
       ("error", .ofOption .string error)]
  | .inputRequested request prompt =>
    .object [("request_id", .nat request), ("prompt", .string prompt)]
  | .inputAnswered request text => .object [("request_id", .nat request), ("text", .string text)]
  | .breakpointHit id line hits =>
    .object [("id", .nat id), ("line", .nat line), ("hit_count", .nat hits)]
  | .stepCompleted mode line => .object [("mode", .string mode.text), ("line", .nat line)]
  | .paused reason line column depth =>
    .object
      [("reason", .string reason.text), ("line", .nat line), ("column", .nat column),
       ("depth", .nat depth)]
  | .scope bindings watches =>
    .object [("variables", bindings.toJson), ("watches", watches.toJson)]
  | .resumed command => .object [("command", .string command.text)]
  | .sessionOpened id degraded lines =>
    .object
      [("session_id", .string id), ("degraded", .bool degraded), ("lines", .ofList .nat lines)]
  | .sessionClosed id state pathLength =>
    .object
      [("session_id", .string id), ("state", .string state.name), ("path_length", .nat pathLength)]

def Event.toJson {α : Type} (payload : α → Json) (event : Event α) : Json :=
  .object
    [("id", .nat event.id), ("kind", .string event.kind.name), ("payload", payload event.payload)]

def Breakpoint.toJson (b : Breakpoint) : Json :=
  .object
    [("id", .nat b.id), ("line", .nat b.line), ("enabled", .bool b.enabled),
     ("condition", .ofOption (fun c => .string c.source) b.condition),
     ("log_message", .ofOption (fun l => .string l.source) b.log), ("hit_count", .nat b.hits),
     ("verified", .bool b.verified)]

def Session.toJson (session : Session) : Json :=
  .object
    [("id", .string session.id), ("degraded", .bool session.target.isSketch),
     ("lines", .ofList .nat session.lines),
     ("execution_path", .ofList .nat session.path.toList)]

def Config.toJson (config : Config) : Json :=
  .object
    [("max_loop_iterations", .nat config.maxLoopIterations),
     ("max_call_depth", .nat config.maxCallDepth), ("default_timeout_ms", .nat config.defaultTimeout),
     ("input_timeout_ms", .ofOption .nat config.inputTimeout),
     ("event_history", .nat config.eventHistory), ("yield_interval", .nat config.yieldInterval)]

def ExecutionOutcome.toJson (result : ExecutionOutcome) : Json :=
  .object
    [("success", .bool result.success), ("outputs", .ofList .string result.outputs),
     ("variables", result.bindings.toJson), ("error", .ofOption Diagnostic.toJson result.error),
     ("diagnostics", .ofList Diagnostic.toJson result.diagnostics),
     ("duration_ms", .nat result.duration)]

end Stepper
