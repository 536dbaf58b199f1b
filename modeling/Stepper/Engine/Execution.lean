import Stepper.Machine.Step

/-! # Executions -/

namespace Stepper

structure ExecutionOptions where
  timeout : Option Nat := none
  debug : Bool := false
  step : Bool := false

structure ExecutionOutcome where
  success : Bool
  outputs : List String
  bindings : Dictionary Value
  error : Option Diagnostic
  diagnostics : List Diagnostic
  duration : Nat

structure Execution where
  analysis : Analysis
  debug : Bool
  degraded : Bool
  started : Nat
  machine : Option Machine

namespace Engine

/-- The session of a debug run: the open one if it is on the same source text, else a new one in its
place. -/
def sessionFor (e : Engine) (source : String) (analysis : Analysis) : Engine × Target :=
  let replace (e : Engine) : Engine × Target :=
    let target := Target.ofAnalysis source analysis
    let (debugger, _, notices) := e.debugger.opened source target
    (({ e with debugger, wakeup := e.wakeup.forget }).announce notices, target)
  match e.debugger.session with
  | none => replace e
  | some session =>
    if session.source = source then (e, session.target)
    else
      let (debugger, notices) := e.debugger.closed session
      let wakeup := e.wakeup.onClose e.debugger.state
      replace (({ e with debugger, wakeup }).announce notices)

def beginExecution (e : Engine) (source : String) (options : ExecutionOptions) :
    Except SessionError (Engine × Execution) :=
  if e.running then .error .alreadyRunning
  else
    let e := { e with running := true, aborting := false }
    let debug := options.debug || options.step
    let analysis := analyze source
    let (e, target) :=
      if debug then
        let (e, target) := e.sessionFor source analysis
        (e, some target)
      else (e, analysis.program.map Target.program)
    let timeout := options.timeout.getD e.config.defaultTimeout
    let e := e.announce [.started debug options.step timeout]
    let e :=
      if debug then
        { e with debugger := e.debugger.startRun options.step, wakeup := e.wakeup.forget }
      else e
    let limit := if timeout = 0 then none else some timeout
    .ok
      (e,
       { analysis, debug
         degraded := (target.map Target.isSketch).getD false
         started := e.now
         machine := target.map fun target => Machine.ofTarget target e.now limit debug })

def endExecution (e : Engine) (x : Execution) (outputs : List String)
    (bindings : Dictionary Value) (runtimeError : Option RuntimeError) :
    Engine × ExecutionOutcome :=
  let raised := runtimeError.map RuntimeError.toDiagnostic
  let diagnostics := x.analysis.diagnostics ++ raised.toList
  let error := raised <|> x.analysis.errors.head?
  let success := error.isNone && !x.degraded
  let e := e.announce ((diagnostics.filter Diagnostic.isError).map Notice.failed)
  let e := e.cancelInputs.1
  let e :=
    if x.debug then
      let d := e.debugger.endRun success
      match d.session with
      | some session =>
        let (debugger, notices) := d.closed session
        ({ e with debugger, wakeup := e.wakeup.onClose d.state }).announce notices
      | none => { e with debugger := d }
    else e
  let duration := e.now - x.started
  let e := e.announce [.completed success duration outputs.length (error.map Diagnostic.text)]
  ({ e with running := false }, { success, outputs, bindings, error, diagnostics, duration })

def runExecution (e : Engine) (x : Execution) : Engine × (Execution ⊕ ExecutionOutcome) :=
  match x.machine with
  | none =>
    let (e, result) := e.endExecution x [] [] none
    (e, .inr result)
  | some m =>
    let (e, m) := m.slice e
    match m.control with
    | .finished error =>
      let (e, result) :=
        e.endExecution x m.outputs.toList (m.environment.locals .global) error
      (e, .inr result)
    | _ => (e, .inl { x with machine := some m })

end Engine

namespace Execution

def isReady (e : Engine) (x : Execution) : Bool :=
  match x.machine with
  | none => true
  | some m => m.isReady e

end Execution

end Stepper
