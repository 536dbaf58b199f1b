import Stepper.Config
import Stepper.Debugger
import Stepper.InputQueue

/-! # Engine -/

namespace Stepper

structure Engine where
  config : Config
  bus : Bus Notice
  inputs : InputQueue
  debugger : Debugger
  wakeup : Wakeup
  running : Bool
  aborting : Bool
  now : Nat

namespace Engine

def ofConfig (config : Config) : Engine :=
  { config, bus := .empty config.eventHistory, inputs := {}, debugger := {}, wakeup := {},
    running := false, aborting := false, now := 0 }

def announce (e : Engine) (notices : List Notice) : Engine :=
  { e with bus := e.bus.announce notices }

def advance (e : Engine) (duration : Nat) : Engine := { e with now := e.now + duration }

def cancelInputs (e : Engine) : Engine × Nat :=
  let (inputs, count) := e.inputs.cancelAll
  ({ e with inputs }, count)

/-- Asks the active execution to stop and releases those who wait for input. -/
def abort (e : Engine) : Engine × Bool :=
  (({ e with aborting := e.aborting || e.running }).cancelInputs.1, e.running)

def openSession (e : Engine) (source : String) : Except SessionError (Engine × Session) :=
  match e.debugger.openSession source (.ofAnalysis source (analyze source)) with
  | .error error => .error error
  | .ok (debugger, session, notices) =>
    .ok (({ e with debugger, wakeup := e.wakeup.forget }).announce notices, session)

/-- Closes the debug session, asks its run to stop and releases those who wait for input. -/
def stop (e : Engine) : Except SessionError (Engine × Session) :=
  match e.debugger.closeSession with
  | .error error => .error error
  | .ok (debugger, session, notices) =>
    let wakeup := e.wakeup.onClose e.debugger.state
    let e := ({ e with aborting := e.aborting || e.running, debugger, wakeup }).announce notices
    .ok (e.cancelInputs.1, session)

def command (e : Engine) (command : Command) : Except SessionError Engine :=
  match e.debugger.command command with
  | .error error => .error error
  | .ok (debugger, notices) =>
    let wakeup := e.wakeup.onCommand e.debugger.state command
    .ok (({ e with debugger, wakeup }).announce notices)

def setBreakpoint (e : Engine) (line : Nat) (condition log : Option String) :
    Except SessionError (Engine × Breakpoint) :=
  (e.debugger.setBreakpoint line condition log).map fun (debugger, b) => ({ e with debugger }, b)

def clearBreakpoint (e : Engine) (line : Nat) : Except SessionError (Engine × Breakpoint) :=
  (e.debugger.clearBreakpoint line).map fun (debugger, b) => ({ e with debugger }, b)

def switchBreakpoint (e : Engine) (line : Nat) : Except SessionError (Engine × Bool) :=
  (e.debugger.switchBreakpoint line).map fun (debugger, enabled) => ({ e with debugger }, enabled)

def setWatch (e : Engine) (source : String) : Except SessionError Engine :=
  (e.debugger.setWatch source).map fun debugger => { e with debugger }

def clearWatch (e : Engine) (source : String) : Engine × Bool :=
  let (debugger, removed) := e.debugger.clearWatch source
  ({ e with debugger }, removed)

def askInput (e : Engine) (prompt : String) (validator : Option Validator) : Engine × Nat :=
  let (inputs, id, notices) := e.inputs.request prompt validator
  (({ e with inputs }).announce notices, id)

def answerInput (e : Engine) (text : String) : Engine × Except InputError Unit :=
  let (inputs, result, notices) := e.inputs.submit text
  (({ e with inputs }).announce notices, result)

end Engine

end Stepper
