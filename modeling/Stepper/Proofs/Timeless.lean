import Stepper.Proofs.Advance
import Stepper.Proofs.Publication

/-! # Runs outside of time -/

namespace Stepper

open InputWait InputQueue

def Config.unyielding (config : Config) : Config := { config with yieldInterval := 0 }

def Engine.timeless (e : Engine) : Engine := { e with config := e.config.unyielding, now := 0 }

inductive InputQueue.Serves (queue : InputQueue) : Option (Nat × Option Nat) → Prop where
  | free (pending : queue.pending = []) (answers : queue.answers = []) : Serves queue none
  | asking (pending : queue.pending = [⟨queue.issued, prompt, none⟩]) (answers : queue.answers = [])
      : Serves queue (some (queue.issued, none))
  | answered (pending : queue.pending = []) (answers : queue.answers = [(queue.issued, .ok text)]) :
      Serves queue (some (queue.issued, none))

namespace InputQueue
variable {queue : InputQueue}

lemma Serves.of_none (serves : queue.Serves none) : queue.pending = [] ∧ queue.answers = [] := by
  cases serves with
  | free pending answers => exact ⟨pending, answers⟩

lemma Serves.of_some {id : Nat} {limit : Option Nat} (serves : queue.Serves (some (id, limit))) :
    id = queue.issued ∧ limit = none := by
  cases serves <;> exact ⟨rfl, rfl⟩

end InputQueue

def Control.timeless : Control → Control
  | .waiting (.yielded b) => .arrived b
  | .waiting (.paused b _) => .waiting (.paused b 0)
  | .waiting (.input wait location) => .waiting (.input { wait with since := 0 } location)
  | control => control

lemma Control.timeless_of_isSettled {control : Control} (settled : control.isSettled) :
    control.timeless = control := by
  cases control with
  | waiting => cases settled
  | _ => rfl

namespace Machine
variable {wait : InputWait} {location : Location}

def timeless (m : Machine) : Machine :=
  { m with started := 0, excluded := 0, control := m.control.timeless }

def outOfTime (state : Engine × Machine) : Engine × Machine := (state.1.timeless, state.2.timeless)

variable {e : Engine} {m : Machine}

def asked? (m : Machine) : Option (Nat × Option Nat) :=
  match m.control with
  | .waiting (.input wait _) => some (wait.id, wait.limit)
  | _ => none

structure Unhurried (e : Engine) (m : Machine) : Prop where
  peaceful : e.aborting = false
  unlimited : m.limit = none
  patient : e.config.inputTimeout = none
  desk : e.inputs.Serves m.asked?

lemma outcome?_patient (patient : wait.limit = none) (queue) (since now now') : ({ wait with since
    } : InputWait).outcome? queue now = wait.outcome? queue now' := by
  simp only [InputWait.outcome?, isOver, patient]

lemma asked?_of_shape (shape : m.control = .waiting (.input wait location)) :
    m.asked? = some (wait.id, wait.limit) := by
  simp [asked?, shape]

lemma Unhurried.waits (calm : Unhurried e m)
    (shape : m.control = .waiting (.input wait location)) : wait.limit = none := by
  have desk := calm.desk
  rw [asked?_of_shape shape] at desk
  exact desk.of_some.2

lemma asked?_timeless (m : Machine) : m.timeless.asked? = m.asked? := by
  cases shape : m.control with
  | waiting wait => cases wait <;> simp [asked?, timeless, shape, Control.timeless]
  | _ => simp [asked?, timeless, shape, Control.timeless]

lemma unhurried_timeless : Unhurried e.timeless m.timeless ↔ Unhurried e m := by
  constructor
  · rintro ⟨peaceful, unlimited, patient, desk⟩
    exact ⟨peaceful, unlimited, patient, asked?_timeless m ▸ desk⟩
  · rintro ⟨peaceful, unlimited, patient, desk⟩
    exact ⟨peaceful, unlimited, patient, (asked?_timeless m).symm ▸ desk⟩

lemma isReady_timeless (calm : Unhurried e m) : m.timeless.isReady e.timeless = m.isReady e := by
  cases shape : m.control with
  | waiting wait =>
    cases wait with
    | yielded => simp [isReady, timeless, shape, Control.timeless, canResume]
    | paused =>
      simp only [isReady, timeless, shape, Control.timeless, canResume]
      rfl
    | input =>
      have same := outcome?_patient (calm.waits shape) e.inputs 0 0 e.now
      simp only [isReady, timeless, shape, Control.timeless, canResume, Engine.timeless, same]
  | _ => simp [isReady, timeless, shape, Control.timeless]

lemma step_timeless_quiet (quiet : m.IsQuiet) : m.timeless.step e.timeless = outOfTime (m.step e) := by
  have settled := settled_of_quiet quiet
  have next := (advance_of_quiet e quiet).settled settled
  have kept := step_quiet_ledger e quiet
  have same : m.timeless = m.withLedger { m.ledger with started := 0, excluded := 0 } := by
    simp only [timeless, Control.timeless_of_isSettled settled]
    rfl
  have after : (m.step e).2.timeless =
      (m.step e).2.withLedger { m.ledger with started := 0, excluded := 0 } := by
    simp only [timeless, Control.timeless_of_isSettled next]
    generalize (m.step e).2 = later at kept
    rw [← kept]
    rfl
  have stays : (m.step e).1 = e := congrArg Prod.fst (step_quiet e quiet)
  rw [same, step_bounded m _ e e.timeless quiet ⟨rfl, rfl⟩, outOfTime, after, stays]

section Debugging
variable (e : Engine) (m : Machine) (b : Boundary)

lemma stopOrProceed_timeless (stop) :
    m.timeless.stopOrProceed e.timeless b stop = (m.stopOrProceed e b stop).timeless := by
  unfold stopOrProceed
  split <;> rfl

lemma hit_timeless (breakpoint) (step) :
    m.timeless.hit e.timeless breakpoint b step = outOfTime (m.hit e breakpoint b step) := by
  simp only [hit]
  cases breakpoint.log with
  | some => rfl
  | none =>
    exact congrArg (Prod.mk _) (stopOrProceed_timeless
      { e with debugger := (e.debugger.countHit breakpoint.id).1 } m b _)

lemma arrive_timeless : m.timeless.arrive e.timeless b = outOfTime (m.arrive e b) := by
  have position : m.timeless.position b = m.position b := rfl
  have store : e.timeless.debugger = e.debugger := rfl
  have debugging : m.timeless.debugging = m.debugging := rfl
  let after : Engine := { e with debugger := (e.debugger.reach (m.position b)).1 }
  simp only [arrive, position, store, debugging]
  split
  · split
    · exact congrArg (Prod.mk _) (stopOrProceed_timeless after m b _)
    · split
      · rfl
      · exact hit_timeless after m b _ _
  · rfl

lemma deliverTo_timeless (k) (result) (probe : k.isProbe) :
    m.timeless.deliverTo e.timeless k result = outOfTime (m.deliverTo e k result) := by
  cases k with
  | condition breakpoint b step =>
    simp only [deliverTo]
    split
    · split
      · exact hit_timeless e { m with muted := false } b breakpoint step
      · exact congrArg (Prod.mk _) (stopOrProceed_timeless e { m with muted := false } b _)
    · exact congrArg (Prod.mk _) (stopOrProceed_timeless e { m with muted := false } b _)
  | log =>
    simp only [deliverTo]
    split <;> rfl
  | watch =>
    simp only [deliverTo]
    split <;> rfl
  | _ => cases probe

end Debugging

section
variable (calm : Unhurried e m)
include calm

lemma stepBoundary_unhurried (b) (heard : m.muted = false) :
    m.stepBoundary e b =
      if e.config.yieldInterval > 0 && (m.crossed + 1) % e.config.yieldInterval == 0 then
        ({ m with crossed := m.crossed + 1 }).into (.waiting (.yielded b))
      else ({ m with crossed := m.crossed + 1 }).into (.arrived b) := by
  have unspent : m.isOverBudget e.now = false := by simp [isOverBudget, calm.unlimited]
  unfold stepBoundary
  rw [if_neg (by simp [heard]), if_neg (by simp [calm.peaceful]), if_neg (by simp [unspent])]

lemma resume_timeless_input (shape : m.control = .waiting (.input wait location)) :
    m.timeless.resume e.timeless (.input { wait with since := 0 } location) =
      outOfTime (m.resume e (.input wait location)) := by
  have same := outcome?_patient (calm.waits shape) e.inputs 0 0 e.now
  have queue : e.timeless.inputs = e.inputs := rfl
  have clock : e.timeless.now = 0 := rfl
  have peaceful : e.timeless.aborting = false := calm.peaceful
  simp only [resume, queue, clock, same]
  cases wait.outcome? e.inputs e.now with
  | none =>
    simp only [peaceful, calm.peaceful, Bool.false_eq_true, if_false]
    rfl
  | some outcome =>
    obtain ⟨answer, _⟩ := outcome
    simp only [peaceful, calm.peaceful, Bool.false_eq_true, if_false]
    cases answer <;> rfl

lemma step_timeless (busy : ∀ b, m.control ≠ .waiting (.yielded b)) :
    m.timeless.step e.timeless = outOfTime (m.step e) := by
  by_cases quiet : m.IsQuiet
  · exact step_timeless_quiet quiet
  · have control : m.timeless.control = m.control.timeless := rfl
    cases encounter_of_loud quiet with
    | prints shape =>
      have peaceful : e.timeless.aborting = false := calm.peaceful
      simp only [step, control, shape, Control.timeless, complete, print, calm.peaceful, peaceful]
      rfl
    | @asks _ values _ shape few =>
      have accepted := (input_arity values.reverse.length).mpr (by simpa using few)
      simp only [step, control, shape, Control.timeless, complete, applyBuiltin, accepted]
      rfl
    | boundary shape heard =>
      simp only [step, control, shape, Control.timeless]
      rw [stepBoundary_unhurried calm _ heard,
        stepBoundary_unhurried (unhurried_timeless.mpr calm) _ heard]
      rw [if_neg (by simp [Engine.timeless, Config.unyielding])]
      split <;> rfl
    | arrived shape =>
      simp only [step, control, shape, Control.timeless]
      exact arrive_timeless e m _
    | log shape =>
      simp only [step, control, shape, Control.timeless, stepLog]
      split
      · exact congrArg (Prod.mk _) (stopOrProceed_timeless (e.announce _) m _ _)
      · rfl
      · rfl
    | @watch rest _ _ _ _ shape =>
      simp only [step, control, shape, Control.timeless]
      cases rest <;> rfl
    | @waits wait shape =>
      cases wait with
      | yielded b => exact absurd shape (busy b)
      | paused =>
        have peaceful : e.timeless.aborting = false := calm.peaceful
        have store : e.timeless.debugger = e.debugger := rfl
        simp only [step, control, shape, Control.timeless, resume, peaceful, calm.peaceful, store]
        have same : e.timeless.wakeup = e.wakeup := rfl
        rw [same]
        by_cases roused : (e.wakeup.rouse e.debugger.state).2 = true
        · simp only [roused, if_true]
          rfl
        · simp only [roused]
          simp [outOfTime, timeless, shape, Control.timeless]
          rfl
      | input =>
        simp only [step, control, shape, Control.timeless]
        exact resume_timeless_input calm shape
    | @probed result k stack shape top probe =>
      have below : m.timeless.stack = m.stack := rfl
      simp only [step, control, shape, Control.timeless, deliver, below, top]
      rw [← shape]
      exact deliverTo_timeless e { m with stack } k result probe

lemma step_timeless_yielded (shape : m.control = .waiting (.yielded b)) :
    outOfTime (m.step e) = outOfTime (e, m) := by
  have resumes : m.step e = (e, m.into (.arrived b)) := by
    simp [step, shape, resume, calm.peaceful]
  rw [resumes]
  simp only [outOfTime, timeless, shape]
  rfl

end

structure Unasking (e : Engine) (next : Engine × Machine) : Prop where
  inputs : next.1.inputs = e.inputs
  asked : next.2.asked? = none

lemma Attends.asked {next : Machine} (attends : Attends b m next) :
    next.asked? = none := by
  cases attends <;> rfl

lemma probe_inputs (e) (m : Machine) (probe : k.isProbe) (result) :
    (m.deliverTo e k result).1.inputs = e.inputs := by
  cases k with
  | condition =>
    simp only [deliverTo]
    split
    · split
      · rw [hit_engine]
      · rfl
    · rfl
  | log | watch =>
    simp only [deliverTo]
    split <;> rfl
  | _ => cases probe

lemma asked?_of_isSettled (settled : m.control.isSettled) : m.asked? = none := by
  unfold asked?
  split
  · rename_i shape
    simp [shape, Control.isSettled] at settled
  · rfl

lemma resume_desk (calm : Unhurried e m) (shape : m.control = .waiting (.input wait location)) :
    (m.step e).1.inputs.Serves (m.step e).2.asked? := by
  have desk := calm.desk
  have own : wait.id = e.inputs.issued := by
    rw [asked?_of_shape shape] at desk
    exact desk.of_some.1
  have patient := calm.waits shape
  generalize asked : m.asked? = request at desk
  cases desk with
  | free => simp [asked?, shape] at asked
  | asking pending answers =>
    have unanswered : wait.outcome? e.inputs e.now = none := by
      simp [InputWait.outcome?, InputQueue.answer?, answers, isOver, patient]
    have stays : m.step e = (e, m) := by
      simp [step, shape, resume, unanswered, calm.peaceful]
    rw [stays, asked]
    exact .asking pending answers
  | @answered text pending answers =>
    have outcome : wait.outcome? e.inputs e.now = some (.ok text, e.inputs.collect wait.id) := by
      simp [InputWait.outcome?, InputQueue.answer?, answers, own]
    have goes : m.step e = ({ e with inputs := e.inputs.collect wait.id },
        (m.excludeSince wait.since e.now).give (.string text)) := by
      simp [step, shape, resume, outcome, calm.peaceful]
    rw [goes]
    exact .free pending (by simp [collect, answers, own])

lemma step_desk (calm : Unhurried e m) : (m.step e).1.inputs.Serves (m.step e).2.asked? := by
  have keeps (unasking : m.asked? = none) (still : Unasking e (m.step e)) :
      (m.step e).1.inputs.Serves (m.step e).2.asked? := by
    rw [still.inputs, still.asked, ← unasking]
    exact calm.desk
  by_cases quiet : m.IsQuiet
  · have settled := settled_of_quiet quiet
    apply keeps (asked?_of_isSettled settled)
    exact ⟨congrArg (fun next => next.1.inputs) (step_quiet e quiet),
      asked?_of_isSettled ((advance_of_quiet e quiet).settled settled)⟩
  · cases encounter_of_loud quiet with
    | prints shape =>
      apply keeps (by simp [asked?, shape])
      simp only [step, shape, complete, print, calm.peaceful, Bool.false_eq_true, if_false]
      exact ⟨rfl, rfl⟩
    | @asks _ values _ shape few =>
      have accepted := (input_arity values.reverse.length).mpr (by simpa using few)
      have desk := calm.desk
      rw [show m.asked? = none by simp [asked?, shape]] at desk
      obtain ⟨pending, answers⟩ := desk.of_none
      simp only [step, shape, complete, applyBuiltin, accepted, Engine.askInput, request,
        calm.patient, pending, Engine.announce]
      exact .asking rfl answers
    | boundary shape heard =>
      apply keeps (by simp [asked?, shape])
      simp only [step, shape, stepBoundary_unhurried calm _ heard]
      refine ⟨rfl, ?_⟩
      split <;> rfl
    | arrived shape =>
      obtain ⟨_, -, changed⟩ := arrive_effect (e := e) shape
      apply keeps (by simp [asked?, shape])
      simp only [step, shape]
      exact ⟨by rw [changed], (m.arrive_attends e _).asked⟩
    | log shape =>
      apply keeps (by simp [asked?, shape])
      simp only [step, shape]
      exact ⟨by unfold stepLog; split <;> rfl, (m.stepLog_attends e _ _ _).asked⟩
    | @watch rest _ _ _ _ shape =>
      apply keeps (by simp [asked?, shape])
      simp only [step, shape]
      cases rest <;> exact ⟨rfl, rfl⟩
    | @waits wait shape =>
      cases wait with
      | yielded =>
        apply keeps (by simp [asked?, shape])
        simp only [step, shape, resume, calm.peaceful, Bool.false_eq_true, if_false]
        exact ⟨rfl, rfl⟩
      | paused =>
        apply keeps (by simp [asked?, shape])
        simp only [step, shape, resume, calm.peaceful, Bool.false_eq_true, if_false]
        split
        · exact ⟨rfl, rfl⟩
        · exact ⟨rfl, by simp [asked?, shape]⟩
      | input => exact resume_desk calm shape
    | @probed result _ _ shape top probe =>
      obtain ⟨_, shown⟩ := exists_shown probe
      apply keeps (by simp [asked?, shape])
      simp only [step, shape, deliver, top]
      exact ⟨probe_inputs e _ probe result, (deliverTo_attends _ e shown result).asked⟩

lemma Unhurried.step (calm : Unhurried e m) : Unhurried (m.step e).1 (m.step e).2 := by
  obtain ⟨_, _, _, _, after⟩ := m.step_affects e
  constructor
  · rw [after]
    exact calm.peaceful
  · rw [(m.step_terms e).limit]
    exact calm.unlimited
  · rw [after]
    exact calm.patient
  · exact step_desk calm

end Machine

end Stepper
