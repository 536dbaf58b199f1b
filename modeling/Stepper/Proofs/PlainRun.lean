import Stepper.Proofs.Launch
import Stepper.Proofs.Simulation

/-! # Programs by themselves -/

namespace Stepper

/-- A breakpoint whose condition and message call nothing. -/
structure Breakpoint.IsCallFree (b : Breakpoint) : Prop where
  condition : ∀ condition ∈ b.condition, condition.value.calls = false
  log : ∀ template ∈ b.log, partsCall template.parts = false

/-- A debugger that never calls a function of the program. -/
structure Debugger.IsCallFree (d : Debugger) : Prop where
  breakpoints : ∀ b ∈ d.breakpoints, b.IsCallFree
  watches : ∀ watch ∈ d.watches, watch.value.calls = false

instance (b : Breakpoint) : Decidable b.IsCallFree :=
  decidable_of_iff ((b.condition.all fun condition => !condition.value.calls) = true ∧
    (b.log.all fun template => !partsCall template.parts) = true) <| by
      simp only [Option.all_eq_true, Bool.not_eq_true']
      exact ⟨fun ⟨condition, log⟩ => ⟨condition, log⟩, fun free => ⟨free.condition, free.log⟩⟩

instance (d : Debugger) : Decidable d.IsCallFree :=
  decidable_of_iff ((∀ b ∈ d.breakpoints, b.IsCallFree) ∧
    ∀ watch ∈ d.watches, watch.value.calls = false)
    ⟨fun ⟨breakpoints, watches⟩ => ⟨breakpoints, watches⟩,
      fun free => ⟨free.breakpoints, free.watches⟩⟩

namespace Debugger
variable {d : Debugger}

lemma IsCallFree.isHarmless (free : d.IsCallFree) (valid : d.Valid) : d.IsHarmless where
  breakpoints b mem :=
    ⟨fun condition there => ⟨(free.breakpoints b mem).condition condition there,
        valid.conditions b mem condition there⟩,
      fun template there => ⟨(free.breakpoints b mem).log template there,
        valid.logs b mem template there⟩⟩
  watches watch mem := ⟨free.watches watch mem, valid.watches watch mem⟩

lemma IsHarmless.sameStore (harmless : d.IsHarmless) (same : d.SameStore later) :
    later.IsHarmless where
  breakpoints b mem := by
    obtain ⟨old, present, same⟩ := same.mem mem
    simp only [Breakpoint.unmarked, Breakpoint.mk.injEq] at same
    obtain ⟨-, -, -, condition, log, -⟩ := same
    have before := harmless.breakpoints old present
    exact ⟨condition ▸ before.condition, log ▸ before.log⟩
  watches := same.watches ▸ harmless.watches

end Debugger

namespace Machine

def plainNext (config : Config) (answers : Nat → InputAnswer) (state : Nat × Machine) :
    Nat × Machine :=
  (if state.2.asks then state.1 + 1 else state.1, plainStep config (answers state.1) state.2)

def plainRun (config : Config) (answers : Nat → InputAnswer) (start : Machine) : Nat → Nat × Machine
  | 0 => (0, start)
  | steps + 1 => plainNext config answers (plainRun config answers start steps)

section PlainRun
variable {config : Config} {answers : Nat → InputAnswer} {start : Machine} {steps : Nat}

lemma plainNext_finished (ended : state.2.control = .finished error) :
    plainNext config answers state = state := by
  obtain ⟨_, m⟩ := state
  replace ended : m.control = .finished error := ended
  simp [plainNext, asks, plainStep, step, ended]

variable (ended : (plainRun config answers start steps).2.control = .finished error)
include ended

lemma plainRun_finished (more) :
    plainRun config answers start (steps + more) = plainRun config answers start steps := by
  induction more with
  | zero => rfl
  | succ more ih =>
    change plainNext config answers (plainRun config answers start (steps + more)) = _
    rw [ih]
    exact plainNext_finished ended

lemma plainRun_unique (ended' : (plainRun config answers start other).2.control = .finished error') :
    plainRun config answers start steps = plainRun config answers start other := by
  rcases Nat.le_total steps other with less | less
  · obtain ⟨more, rfl⟩ := Nat.exists_eq_add_of_le less
    exact (plainRun_finished ended more).symm
  · obtain ⟨more, rfl⟩ := Nat.exists_eq_add_of_le less
    exact plainRun_finished ended' more

end PlainRun

/-- The answers to inputs that a run was given in some of its states. -/
def answersIn (passed : List (Engine × Machine)) : List InputAnswer :=
  passed.filterMap fun (e, m) => m.answer? e

/-- Whether the inputs of a run were answered as given, in their order. -/
def Agrees (answers : Nat → InputAnswer) (passed : List (Engine × Machine)) : Prop :=
  ∀ i answer, (answersIn passed)[i]? = some answer → answer = answers i

lemma Agrees.earlier (agrees : Agrees answers (passed ++ more)) : Agrees answers passed := by
  intro i answer got
  apply agrees i answer
  have inside := (List.getElem?_eq_some_iff.mp got).1
  rw [answersIn, List.filterMap_append, List.getElem?_append_left (by exact inside)]
  exact got

lemma Nearer.trans (first : Nearer near middle) (second : Nearer middle far) : Nearer near far := by
  cases first with
  | left _ _ less =>
    cases second with
    | left _ _ less' => exact .left _ _ (Nat.lt_trans less less')
    | right => exact .left _ _ less
  | right _ less =>
    cases second with
    | left _ _ less' => exact .left _ _ less'
    | right _ less' => exact .right _ (Nat.lt_trans less less')

def Further (steps : Nat) (m : Machine) (steps' : Nat) (m' : Machine) : Prop :=
  steps < steps' ∨ (steps' = steps ∧ Nearer m'.stage m.stage)

lemma Further.trans (first : Further steps m steps' m') (second : Further steps' m' steps'' m'') :
    Further steps m steps'' m'' := by
  rcases first with less | ⟨rfl, nearer⟩
  · rcases second with less' | ⟨rfl, -⟩
    · exact .inl (Nat.lt_trans less less')
    · exact .inl less
  · rcases second with less' | ⟨rfl, nearer'⟩
    · exact .inl less'
    · exact .inr ⟨rfl, nearer'.trans nearer⟩

structure Fares (config : Config) (answers : Nat → InputAnswer) (start : Machine)
    (passed : List (Engine × Machine)) (e : Engine) (m : Machine) (steps : Nat) : Prop where
  sober : Sober m
  limits : e.config = config
  peaceful : e.aborting = false
  attended : m.debugging = true → e.debugger.IsHarmless ∧ e.debugger.session.isSome = true
  follows : plainRun config answers start steps = ((answersIn passed).length, m.essence)

lemma ofTarget_essence (program) (now) (limit) (debugging) :
    (ofTarget (.program program) now limit debugging).essence = ofTarget (.program program) 0 none
    false := by
  have outputs : (ofTarget (.program program) now limit debugging).outputs = #[] :=
    congrArg Ledger.outputs (ofTarget_ledger (.program program) now limit debugging)
  have recorded := bindDeclarations_withLedger (initial now limit debugging)
    ⟨#[], 0, 0, 0, none, false⟩ program.statements
  rw [essence_settled (ofTarget_unprobed (.program program) now limit debugging) rfl, bare, outputs]
  exact congrArg (fun m => m.into (.statements program.statements .global)) recorded.symm

lemma ofTarget_sober (program) (now) (debugging) :
    Sober (ofTarget (.program program) now none debugging) :=
  sober_of_settled (ofTarget_tidy _ _ _ _)
    (congrArg Ledger.limit (ofTarget_ledger (.program program) now none debugging)) rfl
    (ofTarget_unprobed (.program program) now none debugging)

lemma essence_finished (sober : Sober m) (finished : m.control = .finished error) :
    m.essence = m.bare := by
  rcases probe?_cases m.stack with unprobed | ⟨above, k, below, stack, unprobed, isProbe⟩
  · exact essence_settled unprobed (by rw [finished]; rfl)
  · -- The debugger evaluates until its expression has a value.
    obtain ⟨-, isPure, -⟩ :=
      sober.probing above k below (by rw [stack, probe?_append unprobed isProbe])
    rw [finished] at isPure
    cases isPure

lemma finished_of_essence {m : Machine} (finished : m.essence.control = .finished error) :
    m.control = .finished error := by
  rcases probe?_cases m.stack with unprobed | ⟨above, k, below, stack, unprobed, isProbe⟩
  · rw [essence_unprobed unprobed] at finished
    unfold outline at finished
    split at finished <;> simp_all [askedAt]
  · obtain ⟨_, at_b⟩ := boundaryOf_isSome isProbe
    rw [essence_probed stack unprobed at_b] at finished
    cases finished

section
variable {config : Config} {answers : Nat → InputAnswer} {start m : Machine} {e : Engine}
  {passed : List (Engine × Machine)} {steps : Nat}

lemma follows_stride {next : Machine} (follows : plainRun config answers start steps = ((answersIn
      passed).length, m.essence)) (agrees : Agrees answers (passed ++ [(e, m)]))
    (stride : Stride config (m.answer? e) m next) : ∃ steps', plainRun config answers start steps' =
    ((answersIn (passed ++ [(e, m)])).length, next.essence) ∧ Further steps m steps' next := by
  have got : answersIn (passed ++ [(e, m)]) = answersIn passed ++ (m.answer? e).toList := by
    rw [answersIn, List.filterMap_append]
    cases came : m.answer? e <;> simp [answersIn, came]
  cases stride with
  | stutters unanswered same nearer =>
    refine ⟨steps, ?_, .inr ⟨rfl, nearer⟩⟩
    rw [got, unanswered, same, follows]
    simp
  | strides asked plain =>
    refine ⟨steps + 1, ?_, .inl (Nat.lt_succ_self steps)⟩
    have reached : next.essence =
        plainStep config (answers (answersIn passed).length) m.essence := by
      refine plain _ fun answer came => ?_
      refine (agrees _ answer ?_).symm
      rw [got, show m.answer? e = some answer from came]
      simp
    rw [plainRun, follows, plainNext, got, reached]
    rw [asked]
    cases m.answer? e <;> simp

variable (fares : Fares config answers start passed e m steps) (ready : m.isReady e = true)
include fares ready

lemma Fares.step (agrees : Agrees answers (passed ++ [(e, m)])) : ∃ steps', Fares config answers start
    (passed ++ [(e, m)]) (m.step e).1 (m.step e).2 steps' ∧ Further steps m steps' (m.step e).2 := by
  obtain ⟨sober, stride⟩ := step_strides fares.sober fares.peaceful
    (fun debugging => (fares.attended debugging).1) ready
  rw [fares.limits] at stride
  obtain ⟨steps', follows, further⟩ := follows_stride fares.follows agrees stride
  obtain ⟨_, _, _, consulted, changed⟩ := m.step_affects e
  refine ⟨steps', ⟨sober, ?_, ?_, ?_, follows⟩, further⟩
  · rw [changed]
    exact fares.limits
  · rw [changed]
    exact fares.peaceful
  · intro debugging
    rw [(m.step_terms e).debugging] at debugging
    obtain ⟨harmless, opened⟩ := fares.attended debugging
    rw [changed]
    exact ⟨harmless.sameStore consulted.same.1, consulted.session.trans opened⟩

lemma Fares.slice (agrees : Agrees answers (passed ++ m.trail e)) : ∃ steps', Fares config answers start
    (passed ++ m.trail e) (m.slice e).1 (m.slice e).2 steps' ∧ Further steps m steps'
    (m.slice e).2 := by
  refine trail_induction (P := fun passed' e' m' => Agrees answers passed' → ∃ steps',
    Fares config answers start passed' e' m' steps' ∧ Further steps m steps' m')
    (fun agrees => fares.step ready agrees) ?_ agrees
  intro _ _ _ before ready' agrees'
  obtain ⟨_, fares', further⟩ := before agrees'.earlier
  obtain ⟨last, fares'', further'⟩ := fares'.step ready' agrees'
  exact ⟨last, fares'', further.trans further'⟩

end

end Machine

end Stepper
