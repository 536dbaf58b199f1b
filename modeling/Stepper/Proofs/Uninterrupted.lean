import Stepper.Proofs.Timeless
import Stepper.Proofs.Transparency

/-! # Uninterrupted runs

The run that nobody interrupts and that is answered as soon as it asks. The run of every schedule is a
part of it, which is how two schedules are compared. -/

namespace Stepper

def Notice.untimed : Notice → Notice
  | .completed success _ outputs error => .completed success 0 outputs error
  | notice => notice

namespace Machine

/-! ### The uninterrupted run -/

/-- What happens next when nobody interrupts a run: it goes on as long as it can, and is answered when it
asks. -/
def onward (answers : Nat → String) (state : Engine × Machine) : Engine × Machine :=
  if state.2.isReady state.1 then state.2.step state.1
  else
    match state.2.asked? with
    | some (id, _) => ((state.1.answerInput (answers id)).1, state.2)
    | none => state

def uninterrupted (answers : Nat → String) (start : Engine × Machine) : Nat → Engine × Machine
  | 0 => start
  | steps + 1 => onward answers (uninterrupted answers start steps)

variable {start state : Engine × Machine} {e : Engine}

lemma onward_ready (ready : m.isReady e) : onward answers (e, m) = m.step e := by
  simp [onward, ready]

lemma onward_stuck (waits : m.isReady e = false) (unasking : m.asked? = none) :
    onward answers (e, m) = (e, m) := by
  simp [onward, waits, unasking]

lemma uninterrupted_add (answers) (start) (steps more) : uninterrupted answers
    (uninterrupted answers start steps) more = uninterrupted answers start (steps + more) := by
  induction more with
  | zero => rfl
  | succ _ ih =>
    rw [Nat.add_succ, uninterrupted, ih]
    rfl

lemma onward_finished (finished : state.2.control = .finished error) :
    onward answers state = state := by
  apply onward_stuck
  · simp [isReady, finished]
  · simp [asked?, finished]

lemma uninterrupted_finished
    (finished : (uninterrupted answers start steps).2.control = .finished error)
    (behind : steps ≤ later) :
    uninterrupted answers start later = uninterrupted answers start steps := by
  induction behind with
  | refl => rfl
  | step _ ih =>
    rw [uninterrupted, ih, onward_finished finished]

structure IsAsking (e : Engine) (m : Machine) : Prop where
  asked : m.asked? = some (e.inputs.issued, none)
  pending : ∃ prompt, e.inputs.pending = [⟨e.inputs.issued, prompt, none⟩]
  answers : e.inputs.answers = []
  waits : m.isReady e = false

lemma Unhurried.asking_or_free (calm : Unhurried e m) :
    IsAsking e m ∨ e.inputs.pending = [] ∧ (m.asked? = none ∨ m.isReady e = true) := by
  have desk := calm.desk
  cases asked : m.asked? with
  | none => exact .inr ⟨(asked ▸ desk).of_none.1, .inl rfl⟩
  | some =>
    obtain ⟨wait, location, shape⟩ : ∃ wait location, m.control = .waiting (.input wait location) := by
      unfold asked? at asked
      split at asked
      · exact ⟨_, _, ‹_›⟩
      · cases asked
    have ready : m.isReady e = (wait.outcome? e.inputs e.now).isSome := by
      simp [isReady, shape, canResume, calm.peaceful]
    have patient := calm.waits shape
    have own : wait.id = e.inputs.issued := by
      rw [asked?_of_shape shape] at desk
      exact desk.of_some.1
    rw [asked] at desk
    cases desk with
    | asking pending answers =>
      refine .inl ⟨asked, ⟨_, pending⟩, answers, ?_⟩
      rw [ready]
      simp [InputWait.outcome?, InputQueue.answer?, answers, InputWait.isOver, patient]
    | answered pending answers =>
      refine .inr ⟨pending, .inr ?_⟩
      rw [ready]
      simp [InputWait.outcome?, InputQueue.answer?, answers, own]

lemma IsAsking.answer (asking : IsAsking e m) (text) :
    (e.answerInput text).1 =
      ({ e with inputs := { e.inputs with
        pending := [], answers := [(e.inputs.issued, .ok text)] } }).announce
          [.inputAnswered e.inputs.issued text] := by
  obtain ⟨_, pending⟩ := asking.pending
  simp [Engine.answerInput, InputQueue.submit, pending, asking.answers]

lemma answer_free (text) (pending : e.inputs.pending = []) : (e.answerInput text).1 = e := by
  simp [Engine.answerInput, InputQueue.submit, pending, Engine.announce, Bus.announce]

lemma onward_asking (asking : IsAsking e m) :
    onward answers (e, m) = ((e.answerInput (answers e.inputs.issued)).1, m) := by
  simp [onward, asking.waits, asking.asked]

lemma Unhurried.onward (calm : Unhurried e m) :
    Unhurried (onward answers (e, m)).1 (onward answers (e, m)).2 := by
  cases ready : m.isReady e with
  | true =>
    rw [onward_ready ready]
    exact calm.step
  | false =>
    rcases calm.asking_or_free with asking | ⟨-, unasking | goes⟩
    · rw [onward_asking asking, asking.answer]
      refine ⟨calm.peaceful, calm.unlimited, calm.patient, ?_⟩
      rw [asking.asked]
      exact .answered rfl rfl
    · rw [onward_stuck ready unasking]
      exact calm
    · simp [ready] at goes

lemma onward_follows (answers) (state : Engine × Machine) :
    state.1.Follows (onward answers state).1 := by
  unfold onward
  split
  · exact (Engine.step_continues _ _).toFollows
  · split
    · exact ⟨rfl, Nat.le_refl _, _, rfl⟩
    · exact (Engine.Continues.refl _).toFollows

lemma Unhurried.uninterrupted (calm : Unhurried start.1 start.2) (steps) :
    Unhurried (uninterrupted answers start steps).1 (uninterrupted answers start steps).2 := by
  induction steps with
  | zero => exact calm
  | succ _ ih => exact ih.onward

lemma uninterrupted_follows (answers) (start : Engine × Machine) (behind : steps ≤ later) :
    (uninterrupted answers start steps).1.Follows (uninterrupted answers start later).1 := by
  induction behind with
  | refl => exact (Engine.Continues.refl _).toFollows
  | step _ ih => exact ih.trans (onward_follows _ _)

/-! ### Following the uninterrupted run -/

lemma outOfTime_step (calm : Unhurried e m) (ready : m.isReady e)
    (busy : ∀ b, m.control ≠ .waiting (.yielded b)) :
    outOfTime (m.step e) = onward answers (outOfTime (e, m)) := by
  have readyToo : m.timeless.isReady e.timeless := by
    rw [isReady_timeless calm, ready]
  exact (onward_ready readyToo).trans (step_timeless calm busy) |>.symm

lemma outOfTime_answer (calm : Unhurried e m) (asking : IsAsking e m) :
    outOfTime ((e.answerInput (answers e.inputs.issued)).1, m) = onward answers (outOfTime (e, m)) := by
  have waits : m.timeless.isReady e.timeless = false := by
    rw [isReady_timeless calm, asking.waits]
  have asked : m.timeless.asked? = some (e.timeless.inputs.issued, none) := by
    rw [asked?_timeless, asking.asked]
    rfl
  have asksToo : IsAsking e.timeless m.timeless := ⟨asked, asking.pending, asking.answers, waits⟩
  have answered : onward answers (outOfTime (e, m)) = _ := onward_asking asksToo
  rw [answered, asksToo.answer, asking.answer]
  rfl

lemma stepsWithin_onward (answers) (bound) : ∀ e m, Unhurried e m → ∃ steps, outOfTime
    (stepsWithin bound e m) = uninterrupted answers (outOfTime (e, m)) steps := by
  induction bound with
  | zero => exact fun e m _ => ⟨0, rfl⟩
  | succ _ ih =>
    intro e m calm
    simp only [stepsWithin]
    cases ends : m.endsSlice e with
    | true => exact ⟨0, rfl⟩
    | false =>
      have busy : ∀ b, m.control ≠ .waiting (.yielded b) := by
        intro _ shape
        simp [endsSlice, shape] at ends
      obtain ⟨steps, rest⟩ := ih _ _ calm.step
      refine ⟨1 + steps, ?_⟩
      rw [← uninterrupted_add]
      have first : outOfTime (m.step e) = uninterrupted answers (outOfTime (e, m)) 1 :=
        outOfTime_step calm (isReady_of_endsSlice ends) busy
      rw [← first]
      exact rest

lemma slice_onward (answers) (calm : Unhurried e m) (ready : m.isReady e) :
    ∃ steps, outOfTime (m.slice e) = uninterrupted answers (outOfTime (e, m)) (1 + steps) := by
  by_cases yields : ∃ b, m.control = .waiting (.yielded b)
  · -- The turn of the others is over in the first step, and the slice goes on.
    obtain ⟨b, shape⟩ := yields
    have resumes : m.step e = (e, m.into (.arrived b)) := by
      simp [step, shape, resume, calm.peaceful]
    have same : outOfTime (e, m.into (.arrived b)) = outOfTime (e, m) :=
      resumes ▸ step_timeless_yielded calm shape
    have unhurriedToo : Unhurried e (m.into (.arrived b)) := by
      have outside := unhurried_timeless.mpr calm
      rw [← unhurried_timeless]
      exact (congrArg (fun state => Unhurried state.1 state.2) same).mpr outside
    have first : outOfTime ((m.into (.arrived b)).step e) =
        uninterrupted answers (outOfTime (e, m.into (.arrived b))) 1 :=
      outOfTime_step unhurriedToo rfl (by rintro b ⟨⟩)
    obtain ⟨bound, positive⟩ : ∃ bound, sliceBound = bound + 1 := ⟨2 ^ 60 - 1, rfl⟩
    have goes : m.slice e = stepsWithin bound ((m.into (.arrived b)).step e).1
        ((m.into (.arrived b)).step e).2 := by
      have busy : (m.into (.arrived b)).endsSlice e = false := rfl
      simp only [slice, resumes, positive, stepsWithin, busy, Bool.false_eq_true, if_false]
    obtain ⟨steps, rest⟩ := stepsWithin_onward answers bound _ _ unhurriedToo.step
    refine ⟨steps, ?_⟩
    rw [goes, rest, ← uninterrupted_add, ← same, ← first]
  · have first : outOfTime (m.step e) = uninterrupted answers (outOfTime (e, m)) 1 :=
      outOfTime_step calm ready (fun b shape => yields ⟨b, shape⟩)
    obtain ⟨steps, rest⟩ := stepsWithin_onward answers sliceBound _ _ calm.step
    refine ⟨steps, ?_⟩
    rw [← uninterrupted_add, ← first]
    exact rest

end Machine

/-! ### The beginning and the end of an execution -/

def Execution.timeless (x : Execution) : Execution :=
  { x with started := 0, machine := x.machine.map Machine.timeless }

namespace Engine
variable {e start : Engine} {x : Execution}

lemma ofTarget_timeless (target) (now) (limit) (debugging) :
    (Machine.ofTarget target now limit debugging).timeless = Machine.ofTarget target 0 limit
    debugging := by
  cases target with
  | sketch => rfl
  | program program =>
    have bound (now) : (Machine.initial now limit debugging).bindDeclarations program.statements =
        ((Machine.initial 0 limit debugging).bindDeclarations program.statements).withLedger
          ⟨#[], 0, now, 0, limit, debugging⟩ :=
      Machine.bindDeclarations_withLedger (Machine.initial 0 limit debugging)
        ⟨#[], 0, now, 0, limit, debugging⟩ program.statements
    simp only [Machine.ofTarget, bound now]
    rw [bound 0]
    rfl

lemma sessionFor_timeless (e : Engine) (source) (analysis) : e.timeless.sessionFor source analysis =
    ((e.sessionFor source analysis).1.timeless, (e.sessionFor source analysis).2) := by
  have store : e.timeless.debugger = e.debugger := rfl
  simp only [sessionFor, store]
  split
  · rfl
  · split <;> rfl

lemma begin_timeless (began : e.beginExecution source options = .ok (start, x)) :
    e.timeless.beginExecution source options = .ok (start.timeless, x.timeless) := by
  have idle : e.running = false := (begin_follows began).1
  have idleToo : e.timeless.running = false := idle
  cases debug : options.debug || options.step with
  | false =>
    simp only [beginExecution, idle, debug, Bool.false_eq_true, if_false, Except.ok.injEq,
      Prod.mk.injEq] at began
    obtain ⟨rfl, rfl⟩ := began
    simp only [beginExecution, idleToo, debug, Bool.false_eq_true, if_false, Except.ok.injEq,
      Prod.mk.injEq]
    refine ⟨rfl, ?_⟩
    cases (analyze source).program with
    | none => rfl
    | some =>
      simp only [Execution.timeless, Option.map_some, ofTarget_timeless]
      rfl
  | true =>
    let now : Engine := { e with running := true, aborting := false }
    have same : ({ e.timeless with running := true, aborting := false } : Engine) = now.timeless := rfl
    simp only [beginExecution, idle, debug, Bool.false_eq_true, if_false, if_true, Except.ok.injEq,
      Prod.mk.injEq] at began
    obtain ⟨rfl, rfl⟩ := began
    simp only [beginExecution, idleToo, debug, Bool.false_eq_true, if_false, if_true, Except.ok.injEq,
      Prod.mk.injEq, same, sessionFor_timeless now]
    refine ⟨rfl, ?_⟩
    simp only [Execution.timeless, Option.map_some, ofTarget_timeless]
    rfl

lemma end_timeless (e : Engine) (x) (outputs) (bindings) (error : Option RuntimeError)
    (observed : e.bus.IsObserved) : (e.endExecution x outputs bindings error).2.untimed =
    (e.timeless.endExecution x.timeless outputs bindings error).2.untimed ∧
    (e.endExecution x outputs bindings error).1.bus.heard.map Notice.untimed =
    (e.timeless.endExecution x.timeless outputs bindings error).1.bus.heard.map Notice.untimed := by
  refine ⟨e.end_untimed e.timeless rfl rfl outputs bindings error, ?_⟩
  have first := fun told => (e.bus.announce_heard told observed).1
  obtain ⟨before, success, count, text, still, bus, busToo⟩ :
      ∃ (before : Bus Notice) (success : Bool) (count : Nat) (text : Option String),
      before.IsObserved ∧
      (e.endExecution x outputs bindings error).1.bus =
        before.announce [.completed success (e.now - x.started) count text] ∧
      (e.timeless.endExecution x.timeless outputs bindings error).1.bus =
        before.announce [.completed success 0 count text] := by
    have debugToo : x.timeless.debug = x.debug := rfl
    have store : e.timeless.debugger = e.debugger := rfl
    simp only [endExecution, debugToo]
    cases x.debug with
    | false => exact ⟨_, _, _, _, first _, rfl, rfl⟩
    | true =>
      cases present : e.debugger.session with
      | none =>
        simp only [if_true, announce, cancelInputs, Debugger.endRun, store, present]
        exact ⟨_, _, _, _, first _, rfl, rfl⟩
      | some =>
        simp only [if_true, announce, cancelInputs, Debugger.endRun, store, present]
        exact ⟨_, _, _, _, (Bus.announce_heard _ _ (first _)).1, rfl, rfl⟩
  rw [bus, busToo, (before.announce_heard _ still).2, (before.announce_heard _ still).2]
  simp [Notice.untimed]

end Engine

end Stepper
