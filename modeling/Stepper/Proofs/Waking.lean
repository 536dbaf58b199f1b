import Stepper.Proofs.Signalling
import Stepper.Proofs.Tracking

/-! # Waking a paused run

A paused run sleeps until a wake-up comes, and looks at the debugger only then. That no wake-up is lost
and none is left over is an invariant of the run and its engine together: while the run sleeps and
nobody has ordered it to stop, a wake-up is there exactly if the debugger has left the pause. -/

namespace Stepper

open List

def Wakeup.follow (w : Wakeup) (d : Debugger) : Move → Wakeup
  | .call call _ => w.obey d call
  | _ => w

namespace Machine

/-- Whether a debug run has its session, and a wake-up exactly if it sleeps in a pause that is over. -/
structure Attuned (e : Engine) (m : Machine) : Prop where
  opened : e.debugger.session.isSome = true
  told : m.control.isPause = true → (e.wakeup.sent = true ↔ e.debugger.state ≠ .paused)

variable {e : Engine} {m : Machine}

/-- A step that begins a pause uses up whatever wake-up is left from before. -/
lemma step_unsent (pausing : m.isPausing) : (m.step e).1.wakeup.sent = false := by
  obtain ⟨_, _, _, _, shape⟩ := isPausing_iff.mp pausing
  simp only [step, shape, stepWatch]
  rfl

lemma Attuned.step (attuned : Attuned e m) (peaceful : e.aborting = false)
    (ready : m.isReady e) : Attuned (m.step e).1 (m.step e).2 := by
  obtain ⟨_, _, _, consulted, after⟩ := m.step_affects e
  constructor
  · rw [after]
    exact consulted.session.trans attuned.opened
  · intro paused
    have pausing := step_pause peaceful ready paused
    rw [step_unsent pausing, step_state, if_pos pausing]
    simp

lemma Attuned.follow (attuned : Attuned e m) {move : Move} (peaceful : move.isPeaceful)
    (debugger : later.debugger = e.debugger.follow move)
    (wakeup : later.wakeup = e.wakeup.follow e.debugger move) : Attuned later m := by
  obtain ⟨opened, told⟩ := attuned
  constructor
  · rw [debugger, Debugger.follow_session opened peaceful]
    exact opened
  · intro paused
    rw [debugger, wakeup]
    cases commands : move.isCommand with
    | true =>
      obtain ⟨_, _, rfl⟩ := Move.isCommand_iff.mp commands
      simp only [Debugger.follow, Debugger.obey_command opened, Wakeup.follow, Wakeup.obey, opened,
        if_true, Wakeup.onCommand]
      by_cases held : e.debugger.state = .paused
      · simp [held]
      · simp only [held, if_false]
        split <;> exact told paused
    | false =>
      obtain ⟨_, _, _, changed, -⟩ := Debugger.follow_open opened peaceful commands
      have kept : e.wakeup.follow e.debugger move = e.wakeup := by
        cases move with
        | wait | slice => rfl
        | call call =>
          cases call with
          | stop => cases peaceful
          | command => cases commands
          | openSession => simp [Wakeup.follow, Wakeup.obey, opened]
          | _ => rfl
      rw [changed, kept]
      exact told paused

end Machine

namespace Host
variable {h : Host} {number : Nat} {x : Execution}

lemma slice_wakeup {task : Task} (idle : task.isExecuting = false) (running : e.running) :
    (task.slice e).1.wakeup = e.wakeup := by
  have awaits : ∀ start wait, (Task.awaitInput start wait).1.wakeup = start.wakeup := by
    intro _ _
    unfold Task.awaitInput
    split <;> rfl
  cases task with
  | executing => cases idle
  | execute => simp [Task.slice, Engine.beginExecution, running]
  | request => exact awaits _ _
  | awaiting => exact awaits _ _
  | finished => rfl

lemma Orderly.foreign_wakeup (orderly : h.Orderly) (active : h.task? number = some (.executing x))
    {move : Move} (foreign : move ≠ .slice number) :
    (h.move move).engine.wakeup = h.engine.wakeup.follow h.engine.debugger move := by
  cases move with
  | wait => rfl
  | call call immediate =>
    by_cases starts : ∃ task, call = .start task
    · obtain ⟨_, rfl⟩ := starts
      rfl
    · obtain ⟨_, _, _, changed, -⟩ :=
        perform_effect (h := h) call immediate fun task same => starts ⟨task, same⟩
      simp only [Host.move, changed]
      rfl
  | slice other =>
    obtain same | ⟨task, idle, same⟩ := orderly.other_slice active foreign
    · rw [same]
      rfl
    · rw [same, slice_wakeup idle (orderly.active number x active).1]
      rfl

lemma perform_stop (running : h.engine.running)
    (opened : h.engine.debugger.session.isSome) :
    (h.perform .stop).1.engine.aborting := by
  obtain ⟨_, present⟩ := Option.isSome_iff_exists.mp opened
  simp only [perform, replied, Engine.stop, Debugger.closeSession, present]
  simp [running, Engine.cancelInputs, Engine.announce, withEngine]

/-- Orders to stop reach a run that executes in an open session. -/
lemma Orderly.peaceful_of_move (orderly : h.Orderly) (active : h.task? number = some (.executing x))
    (opened : h.engine.debugger.session.isSome) {move : Move}
    (unaborted : (h.move move).engine.aborting = false) : move.isPeaceful := by
  have running := (orderly.active number x active).1
  cases move with
  | wait | slice => rfl
  | call call =>
    cases call with
    | stop => cases (perform_stop running opened).symm.trans unaborted
    | abort =>
      change (h.engine.aborting || h.engine.running) = false at unaborted
      simp [running] at unaborted
    | _ => rfl

lemma begin_attuned {e : Engine} (valid : e.debugger.Valid)
    (debug : options.debug || options.step)
    (began : e.beginExecution source options = .ok (later, x)) (machine : x.machine = some m) :
    Machine.Attuned later m := by
  have unpaused (target) (now) (limit) (debugging) :
      (Machine.ofTarget target now limit debugging).control.isPause = false := by
    cases target <;> rfl
  obtain ⟨_, _, _, begins⟩ : ∃ later x m,
      Engine.Began e source options (.ofAnalysis source (analyze source)) later x m :=
    Engine.begins_debug valid (Engine.begin_follows began).1 debug
  cases began.symm.trans begins.began
  cases machine.symm.trans begins.machine
  obtain ⟨_, opened, debugger⟩ := begins.debugger debug
  refine ⟨by simpa [debugger, Debugger.startRun] using opened, fun paused => ?_⟩
  rw [begins.starts, unpaused] at paused
  cases paused

end Host

namespace Launch
variable {config : Config} {source : String}

lemma upholds_attuned (number) {options : ExecutionOptions} (debug : options.debug || options.step) :
    Host.Upholds config number source options fun _ e m =>
      e.aborting = false → Machine.Attuned e m := by
  constructor
  · intro moves _ _ _ _ began machine _
    exact Host.begin_attuned (Host.observed_valid config moves) debug began machine
  · intro _ e m known ready peaceful
    obtain ⟨_, _, _, -, after⟩ := m.step_affects e
    have unordered : e.aborting = false := by rwa [after] at peaceful
    exact (known unordered).step unordered ready
  · intro moves move _ _ _ active _ foreign _ known unaborted
    have orderly := (Host.observed_orderly config).moves moves
    have continues := (orderly.foreign active foreign).1
    have unordered : ((Host.observed config).moves moves).engine.aborting = false := by
      cases ordered : ((Host.observed config).moves moves).engine.aborting with
      | false => rfl
      | true => simp [continues.aborting ordered] at unaborted
    have attuned := known unordered
    exact attuned.follow (orderly.peaceful_of_move active attuned.opened unaborted)
      (orderly.foreign_debugger active foreign).1 (orderly.foreign_wakeup active foreign)

/-- While a debug run executes and nobody has ordered it to stop, no wake-up is lost and none is left
over. -/
lemma attuned (launch : Launch config source) (debug : launch.debug) (plan n)
    (active : (launch.after plan n).task? launch.number = some (.executing x))
    (machine : x.machine = some m) (peaceful : (launch.after plan n).engine.aborting = false) :
    Machine.Attuned (launch.after plan n).engine m := by
  have reached : (Host.observed config).moves (launch.before ++ (List.range n).map plan) =
      launch.after plan n := foldl_append
  have tracked := (upholds_attuned launch.number debug).tracked launch.given
    ((List.range n).map plan)
  rw [reached] at tracked
  cases tracked with
  | waits found => cases active.symm.trans found
  | ended found => cases active.symm.trans found
  | runs activeToo machineToo _ known =>
    cases active.symm.trans activeToo
    cases machine.symm.trans machineToo
    exact known peaceful

end Launch

end Stepper
