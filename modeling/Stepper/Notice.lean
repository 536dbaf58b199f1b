import Stepper.Bus
import Stepper.Failure

/-! # Notices -/

namespace Stepper

inductive DebugState where
  | idle
  | running
  | paused
  | completed
  | errored
deriving DecidableEq, Repr

inductive StepMode where
  | over
  | into
  | out
deriving DecidableEq, Repr

def StepMode.text : StepMode → String
  | .over => "over"
  | .into => "into"
  | .out => "out"

inductive Command where
  | resume
  | step (mode : StepMode)
deriving DecidableEq, Repr

def Command.text : Command → String
  | .resume => "continue"
  | .step mode => "step_" ++ mode.text

inductive PauseReason where
  | breakpoint
  | step
deriving DecidableEq, Repr

def PauseReason.text : PauseReason → String
  | .breakpoint => "breakpoint"
  | .step => "step"

inductive Notice where
  | started (debug step : Bool) (timeout : Nat)
  | output (text : String) (line : Nat)
  | logged (text : String) (line : Nat)
  | failed (diagnostic : Diagnostic)
  | inputRejected (request : Nat) (reason : String)
  | completed (success : Bool) (duration outputs : Nat) (error : Option String)
  | inputRequested (request : Nat) (prompt : String)
  | inputAnswered (request : Nat) (text : String)
  | breakpointHit (id line hits : Nat)
  | stepCompleted (mode : StepMode) (line : Nat)
  | paused (reason : PauseReason) (line column depth : Nat)
  | scope (bindings watches : Dictionary Value)
  | resumed (command : Command)
  | sessionOpened (id : String) (degraded : Bool) (lines : List Nat)
  | sessionClosed (id : String) (state : DebugState) (pathLength : Nat)

def Notice.kind : Notice → EventKind
  | .started _ _ _ => .executionStart
  | .output _ _ | .logged _ _ => .executionOutput
  | .failed _ | .inputRejected _ _ => .executionError
  | .completed _ _ _ _ => .executionComplete
  | .inputRequested _ _ => .inputRequest
  | .inputAnswered _ _ => .inputResponse
  | .breakpointHit _ _ _ => .breakpointHit
  | .stepCompleted _ _ => .stepComplete
  | .paused _ _ _ _ => .executionPaused
  | .scope _ _ => .variableUpdate
  | .resumed _ => .executionContinued
  | .sessionOpened _ _ _ => .sessionStart
  | .sessionClosed _ _ _ => .sessionStop

def Bus.announce (bus : Bus Notice) (notices : List Notice) : Bus Notice :=
  notices.foldl (fun bus notice => bus.publish notice.kind notice) bus

end Stepper
