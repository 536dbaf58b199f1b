import Stepper.Host

/-! # Calls of a host -/

namespace Stepper

inductive HostCall where
  | start (task : Task)
  | submit (text : String)
  | cancelInputs
  | abort
  | stop
  | openSession (source : String)
  | command (command : Command)
  | setBreakpoint (line : Nat) (condition log : Option String)
  | clearBreakpoint (line : Nat)
  | switchBreakpoint (line : Nat)
  | setWatch (source : String)
  | clearWatch (source : String)
  | advance (duration : Nat)
  | round

inductive HostReply where
  | done
  | started (number : Nat)
  | flag (value : Bool)
  | count (value : Nat)
  | session (session : Session)
  | breakpoint (breakpoint : Breakpoint)
  | sessionError (error : SessionError)
  | inputError (error : InputError)

namespace Host

def withEngine (h : Host) (engine : Engine) : Host := { h with engine }

def replied {α : Type} (h : Host) (result : Except SessionError (Engine × α))
    (reply : α → HostReply) : Host × HostReply :=
  match result with
  | .ok (engine, value) => (h.withEngine engine, reply value)
  | .error error => (h, .sessionError error)

def perform (h : Host) : HostCall → Host × HostReply
  | .start task =>
    let (h, number) := h.start task
    (h, .started number)
  | .submit text =>
    match h.engine.answerInput text with
    | (engine, .ok ()) => (h.withEngine engine, .done)
    | (engine, .error error) => (h.withEngine engine, .inputError error)
  | .cancelInputs =>
    let (engine, count) := h.engine.cancelInputs
    (h.withEngine engine, .count count)
  | .abort =>
    let (engine, running) := h.engine.abort
    (h.withEngine engine, .flag running)
  | .stop => h.replied h.engine.stop .session
  | .openSession source => h.replied (h.engine.openSession source) .session
  | .command command =>
    h.replied ((h.engine.command command).map fun engine => (engine, ())) fun _ => .done
  | .setBreakpoint line condition log =>
    h.replied (h.engine.setBreakpoint line condition log) .breakpoint
  | .clearBreakpoint line => h.replied (h.engine.clearBreakpoint line) .breakpoint
  | .switchBreakpoint line => h.replied (h.engine.switchBreakpoint line) .flag
  | .setWatch source =>
    h.replied ((h.engine.setWatch source).map fun engine => (engine, ())) fun _ => .done
  | .clearWatch source =>
    let (engine, removed) := h.engine.clearWatch source
    (h.withEngine engine, .flag removed)
  | .advance duration => (h.advance duration, .done)
  | .round => (h.round, .done)

end Host

end Stepper
