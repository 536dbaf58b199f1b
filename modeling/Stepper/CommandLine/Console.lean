import Stepper.CommandLine.Excerpt
import Stepper.Json.Runtime

/-! # Running at a terminal -/

namespace Stepper

inductive Chunk where
  | out (text : String)
  | err (text : String)
deriving DecidableEq, Repr

structure Console where
  host : Host
  file : String
  source : String
  color : Bool

inductive ConsoleState where
  | working
  | listening
  | finished (result : ExecutionOutcome)

namespace Console

def showValues (color : Bool) (values : Dictionary Value) : List Chunk :=
  values.map fun (name, value) =>
    .err ("  " ++ Style.emphasis.paint color name ++ " = " ++
      Style.faint.paint color value.toJson.compact ++ "\n")

def showNotice (c : Console) : Notice → List Chunk
  | .output text _ => [.out (text ++ "\n")]
  | .logged text line =>
    [.out (Style.hint.paint c.color ("[log " ++ toString line ++ "]") ++ " " ++ text ++ "\n")]
  | .inputRequested _ prompt => [.out prompt]
  | .sessionOpened _ degraded _ =>
    if degraded then
      [.err (Style.warningLabel.paint c.color "warn:" ++
        " source does not parse; debugging line by line\n")]
    else []
  | .paused reason line _ _ =>
    [.err (Style.noticeLabel.paint c.color ("paused (" ++ reason.text ++ ")") ++ " " ++
      Style.faint.paint c.color (padLeft 4 (toString line) ++ " |") ++ " " ++
      Text.trim (sourceLine c.source line) ++ "\n")]
  | .scope bindings watches => showValues c.color bindings ++ showValues c.color watches
  | _ => []

def work (c : Console) (rounds : Nat) : Console × List Chunk × ConsoleState :=
  let host := c.host.settleWithin rounds
  let (bus, events) := host.engine.bus.drain 0 host.engine.bus.published
  let (host, answers) := ({ host with engine := { host.engine with bus } }).collect
  let chunks := events.flatMap fun event => c.showNotice event.payload
  let state :=
    match answers with
    | (_, .execution (.ok result)) :: _ => .finished result
    | _ => if host.isReady then .working else .listening
  ({ c with host }, chunks, state)

def typedCommand (e : Engine) (line : String) : Option (Except SessionError Engine) :=
  let word := String.ofList (line.toList.takeWhile (· ≠ ' '))
  let rest := Text.trim (String.ofList ((line.toList.dropWhile (· ≠ ' ')).drop 1))
  if word = "c" || word = "continue" then some (e.command .resume)
  else if word = "n" || word = "next" then some (e.command (.step .over))
  else if word = "s" || word = "step" then some (e.command (.step .into))
  else if word = "o" || word = "out" then some (e.command (.step .out))
  else if (word = "w" || word = "watch") && !rest.isEmpty then some (e.setWatch rest)
  else if word = "q" || word = "quit" then some (e.stop.map Prod.fst)
  else none

def withEngine (c : Console) (engine : Engine) : Console :=
  { c with host := { c.host with engine } }

def atTime (c : Console) (now : Nat) : Console := c.withEngine { c.host.engine with now }

def take (c : Console) (line : Option String) : Console × List Chunk :=
  let e := c.host.engine
  let isPaused := e.debugger.state = .paused
  match line.map Text.trimEnd with
  | none =>
    if isPaused then
      match e.command .resume with
      | .ok e => (c.withEngine e, [])
      | .error _ => (c, [])
    else (c.withEngine e.abort.1, [])
  | some line =>
    if isPaused then
      match typedCommand e line with
      | none =>
        (c, [.err (Style.notice.paint c.color "debug:" ++
          " c(ontinue) n(ext) s(tep) o(ut) w EXPR q(uit)\n")])
      | some (.ok e) => (c.withEngine e, [])
      | some (.error error) =>
        (c, [.err (Style.error.paint c.color "debug:" ++ " " ++ error.message ++ "\n")])
    else
      match e.answerInput line with
      | (e, .ok ()) => (c.withEngine e, [])
      | (e, .error error) =>
        (c.withEngine e,
         [.err (Style.error.paint c.color "input:" ++ " " ++ error.message ++ "\n")])

def conclude (c : Console) (result : ExecutionOutcome) : List Chunk :=
  result.diagnostics.map (fun d => .err (d.excerpt c.color c.file c.source)) ++
    if result.success then []
    else
      [.err (Style.error.paint c.color "✗" ++ " " ++ c.file ++ " failed after " ++
        toString result.duration ++ "ms\n")]

def converse : Nat → List String → Console → List Chunk × Bool
  | 0, _, _ => ([], false)
  | turns + 1, lines, c =>
    let (c, shown, state) := c.work Host.roundBound
    match state with
    | .finished result => (shown ++ c.conclude result, result.success)
    | .working =>
      let (later, success) := converse turns lines c
      (shown ++ later, success)
    | .listening =>
      let (c, replied) := c.take lines.head?
      let (later, success) := converse turns lines.tail c
      (shown ++ replied ++ later, success)

end Console

end Stepper
