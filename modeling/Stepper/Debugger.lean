import Stepper.Analysis
import Stepper.Notice
import Stepper.Sketch

/-! # Debugger -/

namespace Stepper

def maxPath : Nat := 10000

structure DebugExpr where
  source : String
  value : Expr

structure LogTemplate where
  source : String
  parts : List StringPart

structure Breakpoint where
  id : Nat
  line : Nat
  enabled : Bool
  condition : Option DebugExpr
  log : Option LogTemplate
  hits : Nat
  verified : Bool

structure StepRequest where
  mode : StepMode
  depth : Nat
deriving DecidableEq, Repr

def StepRequest.endsAt (request : StepRequest) (depth : Nat) : Bool :=
  match request.mode with
  | .into => true
  | .over => depth ≤ request.depth
  | .out => depth < request.depth

structure Position where
  line : Nat
  column : Nat
  depth : Nat
deriving DecidableEq, Repr

/-- Why a run stops at a statement: a breakpoint with its number and hits, a step, or both. -/
structure Stop where
  breakpoint : Option (Nat × Nat)
  step : Option StepMode
deriving DecidableEq, Repr

inductive Target where
  | program (program : Program)
  | sketch (lines : List SketchLine)

def insertLine (line : Nat) : List Nat → List Nat
  | [] => [line]
  | first :: rest =>
    if line < first then line :: first :: rest
    else if line = first then first :: rest
    else first :: insertLine line rest

namespace Target

def isSketch : Target → Bool
  | .program _ => false
  | .sketch _ => true

def lines : Target → List Nat
  | .program p => (p.allStatements.map Stmt.line).foldl (fun lines line => insertLine line lines) []
  | .sketch s => (s.map SketchLine.number).foldl (fun lines line => insertLine line lines) []

def ofAnalysis (source : String) (analysis : Analysis) : Target :=
  match analysis.program with
  | some p => .program p
  | none => .sketch (Stepper.sketch source)

end Target

structure Session where
  number : Nat
  source : String
  target : Target
  lines : List Nat
  path : Array Nat

def Session.id (session : Session) : String := "session-" ++ toString session.number

def Session.visit (session : Session) (line : Nat) : Session :=
  if session.path.size < maxPath then { session with path := session.path.push line } else session

structure Debugger where
  state : DebugState := .idle
  session : Option Session := none
  sessions : Nat := 0
  breakpoints : List Breakpoint := []
  issued : Nat := 0
  watches : List DebugExpr := []
  pendingStep : Option StepRequest := none
  current : Option Position := none

/-- How a paused run is woken: a wake-up that was sent and not yet used, at most one, and the command
that was given with it. -/
structure Wakeup where
  sent : Bool := false
  command : Option Command := none
deriving DecidableEq, Repr

namespace Wakeup

/-- A turn of the loop in which a run waits: it goes on once the debugger is not paused any more, and
uses up a wake-up that it finds before it sleeps. -/
def look (w : Wakeup) (state : DebugState) : Wakeup × Bool :=
  if state = .paused then ({ w with sent := false }, false) else ({ w with command := none }, true)

/-- A turn of a run that sleeps: only a wake-up, which it uses up, makes it look again. -/
def rouse (w : Wakeup) (state : DebugState) : Wakeup × Bool :=
  if w.sent then ({ w with sent := false }).look state else (w, false)

def forget (w : Wakeup) : Wakeup := { w with command := none }

/-- The wake-up that closing a session sends to a run that is paused in it. -/
def onClose (w : Wakeup) (state : DebugState) : Wakeup :=
  if state = .paused then { w with sent := true } else w

/-- The wake-up that a command sends to a paused run. -/
def onCommand (w : Wakeup) (state : DebugState) (command : Command) : Wakeup :=
  if state = .paused then { sent := true, command := some command } else w

end Wakeup

def DebugExpr.parse (source : String) : Except SessionError DebugExpr :=
  match parseExpression source with
  | .error errors =>
    .error (.invalidExpression source ((errors.head?.map Diagnostic.message).getD ""))
  | .ok value =>
    if value.assigns then
      .error (.invalidExpression source "Assignment is not allowed in a debugger expression")
    else .ok ⟨source, value⟩

def LogTemplate.parse (source : String) : Except SessionError LogTemplate :=
  match parseTemplate source with
  | .error errors =>
    .error (.invalidExpression source ((errors.head?.map Diagnostic.message).getD ""))
  | .ok parts =>
    if partsAssign parts then
      .error (.invalidExpression source "Assignment is not allowed in a debugger expression")
    else .ok ⟨source, parts⟩

def parseOptional {α : Type} (parse : String → Except SessionError α) :
    Option String → Except SessionError (Option α)
  | none => .ok none
  | some source => (parse source).map some

namespace Debugger

def opened (d : Debugger) (source : String) (target : Target) : Debugger × Session × List Notice :=
  let session : Session :=
    { number := d.sessions + 1, source, target, lines := target.lines, path := #[] }
  ({ d with
      state := .idle
      session := some session
      sessions := d.sessions + 1
      breakpoints := d.breakpoints.map fun b =>
        { b with verified := session.lines.contains b.line }
      pendingStep := none },
   session, [.sessionOpened session.id target.isSketch session.lines])

def closed (d : Debugger) (session : Session) : Debugger × List Notice :=
  ({ d with
      state := .idle
      session := none
      breakpoints := d.breakpoints.map fun b => { b with verified := false }
      pendingStep := none
      current := none },
   [.sessionClosed session.id d.state session.path.size])

def openSession (d : Debugger) (source : String) (target : Target) :
    Except SessionError (Debugger × Session × List Notice) :=
  match d.session with
  | some _ => .error .sessionActive
  | none => .ok (d.opened source target)

def closeSession (d : Debugger) : Except SessionError (Debugger × Session × List Notice) :=
  match d.session with
  | none => .error .noActiveSession
  | some session =>
    let (d, notices) := d.closed session
    .ok (d, session, notices)

def startRun (d : Debugger) (stepOnEntry : Bool) : Debugger :=
  { d with
    state := .running
    session := d.session.map fun session => { session with path := #[] }
    pendingStep := if stepOnEntry then some ⟨.into, 0⟩ else none
    current := none }

def endRun (d : Debugger) (success : Bool) : Debugger :=
  { d with
    state := if success then .completed else .errored
    pendingStep := none
    current := none }

def reach (d : Debugger) (position : Position) : Debugger × Option StepMode :=
  let d : Debugger :=
    { d with
      current := some position
      session := d.session.map fun session => session.visit position.line }
  match d.pendingStep with
  | some request =>
    if request.endsAt position.depth then ({ d with pendingStep := none }, some request.mode)
    else (d, none)
  | none => (d, none)

def breakpointOn? (d : Debugger) (line : Nat) : Option Breakpoint :=
  d.breakpoints.find? fun b => b.line == line

def effectiveOn? (d : Debugger) (line : Nat) : Option Breakpoint :=
  (d.breakpointOn? line).filter fun b => b.enabled

def countHit (d : Debugger) (id : Nat) : Debugger × Nat :=
  match d.breakpoints.find? fun b => b.id == id with
  | none => (d, 0)
  | some hit =>
    ({ d with
        breakpoints := d.breakpoints.map fun b =>
          if b.id = id then { b with hits := b.hits + 1 } else b },
     hit.hits + 1)

def pause (d : Debugger) (position : Position) (stop : Stop)
    (bindings watches : Dictionary Value) : Debugger × List Notice :=
  let hit :=
    match stop.breakpoint with
    | some (id, hits) => [Notice.breakpointHit id position.line hits]
    | none => []
  let stepped :=
    match stop.step with
    | some mode => [Notice.stepCompleted mode position.line]
    | none => []
  let reason := if stop.breakpoint.isSome then PauseReason.breakpoint else .step
  ({ d with state := .paused, pendingStep := none },
   hit ++ stepped ++
     [.paused reason position.line position.column position.depth, .scope bindings watches])

def stepFor (d : Debugger) : Command → Option StepRequest
  | .resume => none
  | .step mode => some ⟨mode, (d.current.map Position.depth).getD 0⟩

def command (d : Debugger) (command : Command) : Except SessionError (Debugger × List Notice) :=
  if d.session.isNone then .error .noActiveSession
  else
    match d.state with
    | .paused =>
      .ok ({ d with pendingStep := d.stepFor command, state := .running }, [.resumed command])
    | .running => .ok ({ d with pendingStep := d.stepFor command }, [])
    | .idle | .completed | .errored => .error .notRunning

def insertBreakpoint (b : Breakpoint) : List Breakpoint → List Breakpoint
  | [] => [b]
  | first :: rest =>
    if b.line < first.line then b :: first :: rest
    else if b.line = first.line then b :: rest
    else first :: insertBreakpoint b rest

def setBreakpoint (d : Debugger) (line : Nat) (condition log : Option String) :
    Except SessionError (Debugger × Breakpoint) :=
  match parseOptional DebugExpr.parse condition with
  | .error error => .error error
  | .ok condition =>
    match parseOptional LogTemplate.parse log with
    | .error error => .error error
    | .ok log =>
      let verified := (d.session.map fun session => session.lines.contains line).getD false
      let (id, hits, issued) :=
        match d.breakpointOn? line with
        | some old => (old.id, old.hits, d.issued)
        | none => (d.issued + 1, 0, d.issued + 1)
      let b : Breakpoint := { id, line, enabled := true, condition, log, hits, verified }
      .ok ({ d with breakpoints := insertBreakpoint b d.breakpoints, issued }, b)

def clearBreakpoint (d : Debugger) (line : Nat) : Except SessionError (Debugger × Breakpoint) :=
  match d.breakpointOn? line with
  | none => .error (.noBreakpoint line)
  | some b => .ok ({ d with breakpoints := d.breakpoints.filter fun b => b.line != line }, b)

def switchBreakpoint (d : Debugger) (line : Nat) : Except SessionError (Debugger × Bool) :=
  match d.breakpointOn? line with
  | none => .error (.noBreakpoint line)
  | some b =>
    .ok
      ({ d with
          breakpoints := d.breakpoints.map fun b =>
            if b.line = line then { b with enabled := !b.enabled } else b },
       !b.enabled)

def setWatch (d : Debugger) (source : String) : Except SessionError Debugger :=
  match DebugExpr.parse source with
  | .error error => .error error
  | .ok watch =>
    if d.watches.any fun w => w.source == source then .ok d
    else .ok { d with watches := d.watches ++ [watch] }

def clearWatch (d : Debugger) (source : String) : Debugger × Bool :=
  ({ d with watches := d.watches.filter fun w => w.source != source },
   d.watches.any fun w => w.source == source)

end Debugger

end Stepper
