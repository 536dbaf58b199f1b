import Stepper.Proofs.Stopping

/-! # Runs that lose an order to stop -/

namespace Stepper

open List

def Continuation.owes : Continuation → Bool
  | .log _ _ _ _ | .watch _ _ _ _ _ _ | .condition _ _ (some _) => true
  | _ => false

namespace Machine

section Owing
variable {m : Machine}

structure Owing (m : Machine) : Prop where
  debt : (∃ text rest b step, m.control = .log text rest b step) ∨
    (∃ rest values bindings b stop, m.control = .watch rest values bindings b stop) ∨
    ∃ k ∈ m.stack, k.owes = true
  unfinished : ∀ error, m.control ≠ .finished error

lemma mutes_of_owes {k : Continuation} (owes : k.owes) : k.mutes := by
  cases k <;> simp_all [Continuation.owes, Continuation.mutes]

lemma Tidy.same_muting (tidy : Tidy m) {stack : List Continuation} (top : m.stack = k :: stack)
    (mutes : k.mutes) : ∀ other ∈ stack, other.mutes = false := by
  have balance := tidy.balance
  rw [top, countP_cons, mutes] at balance
  have none : stack.countP Continuation.mutes = 0 := by
    cases muted : m.muted <;> simp [muted] at balance ⊢
    exact balance
  intro other mem
  simpa using countP_eq_zero.mp none other mem

lemma Tidy.muted_of_mem (tidy : Tidy m) (mem : k ∈ m.stack) (mutes : k.mutes) :
    m.muted := by
  have positive := countP_pos_iff.mpr ⟨k, mem, mutes⟩
  rw [tidy.balance] at positive
  cases muted : m.muted <;> simp_all

lemma owing_of_advance {next : Machine} (advance : Advance m next) {k : Continuation}
    (mem : k ∈ m.stack) (owes : k.owes) (unfinished : ∀ error, m.control ≠ .finished error) :
    Owing next := by
  have mutes := mutes_of_owes owes
  -- Whatever leaves the stack is another continuation.
  have remains : ∀ {top : Continuation} {stack : List Continuation}, m.stack = top :: stack →
      top ≠ k → k ∈ stack := by
    intro _ _ shape different
    rw [shape] at mem
    exact (mem_cons.mp mem).resolve_left fun same => different same.symm
  have apart : ∀ {top : Continuation}, top.mutes = false → top ≠ k := by
    rintro _ plain rfl
    simp [mutes] at plain
  have calm : ∀ {control : Control}, control.isCalm = true → ∀ error, control ≠ .finished error := by
    rintro _ calm _ rfl
    cases calm
  cases advance with
  | works computes =>
    refine ⟨.inr (.inr ⟨k, ?_, owes⟩), calm computes.calm⟩
    rcases computes.stack with stack | ⟨other, -, stack⟩
    · rwa [stack]
    · exact stack ▸ mem_cons_of_mem other mem
  | takes _ top plain computes =>
    refine ⟨.inr (.inr ⟨k, ?_, owes⟩), calm computes.calm⟩
    rcases computes.stack with stack | ⟨other, -, stack⟩
    · exact stack ▸ remains top (apart plain)
    · exact stack ▸ mem_cons_of_mem other (remains top (apart plain))
  | fails _ top plain _ control below =>
    exact ⟨.inr (.inr ⟨k, below ▸ remains top (apart plain), owes⟩), by simp [control]⟩
  | leavesLine _ top _ below _ control =>
    refine ⟨.inr (.inr ⟨k, below ▸ remains top ?_, owes⟩), by simp [control]⟩
    rintro rfl
    cases owes
  | endsLine _ top _ below control =>
    refine ⟨.inr (.inr ⟨k, below ▸ remains top ?_, owes⟩), by simp [control]⟩
    rintro rfl
    cases owes
  | ends _ empty => simp [empty] at mem
  | nextLine _ reached =>
    subst reached
    exact ⟨.inr (.inr ⟨k, mem, owes⟩), by simp [into]⟩
  | entersLine _ _ settled stack =>
    exact ⟨.inr (.inr ⟨k, stack ▸ mem_cons_of_mem _ mem, owes⟩), calm settled⟩
  | skipsLine _ reached =>
    subst reached
    exact ⟨.inr (.inr ⟨k, mem, owes⟩), by simp [into]⟩
  | crosses _ _ reached =>
    subst reached
    exact ⟨.inr (.inr ⟨k, mem, owes⟩), by simp [into]⟩
  | rests finished => exact absurd finished (unfinished _)

lemma owing_of_step (m : Machine) (e) (b) (breakpoint) (mode) :
    Owing (m.stopOrProceed e b ⟨breakpoint, some mode⟩) := by
  simp only [stopOrProceed, Option.isNone_some, Bool.and_false, Bool.false_eq_true, if_false]
  exact ⟨.inr (.inl ⟨_, _, _, _, _, rfl⟩), by simp [into]⟩

lemma owing_of_delivery (m : Machine) (e) (owes : k.owes) (result) :
    Owing (m.deliverTo e k result).2 := by
  cases k with
  | log =>
    simp only [deliverTo]
    split <;> exact ⟨.inl ⟨_, _, _, _, rfl⟩, by simp [into]⟩
  | watch =>
    simp only [deliverTo]
    split <;> exact ⟨.inr (.inl ⟨_, _, _, _, _, rfl⟩), by simp [into]⟩
  | condition _ b step =>
    cases step with
    | none => cases owes
    | some mode =>
      rcases result with value | flow | error
      · simp only [deliverTo, hit]
        split
        · split
          · exact ⟨.inl ⟨_, _, _, _, rfl⟩, by simp [into]⟩
          · exact owing_of_step _ _ b (some _) mode
        · exact owing_of_step _ e b none mode
      · exact owing_of_step _ e b none mode
      · exact owing_of_step _ e b none mode
  | _ => cases owes

lemma owing_of_noise (tidy : Tidy m) (e) (aborting : e.aborting = true) (noisy : ¬m.IsQuiet)
    {k : Continuation} (mem : k ∈ m.stack) (owes : k.owes = true) : Owing (m.step e).2 := by
  have muted := tidy.muted_of_mem mem (mutes_of_owes owes)
  have closed : m.control.isOpen = false := by
    cases isOpen : m.control.isOpen with
    | false => rfl
    | true => simp [tidy.heard isOpen] at muted
  have stays : ∀ next : Machine, next.stack = m.stack → (∀ error, next.control ≠ .finished error) →
      Owing next := fun next stack unfinished =>
    ⟨.inr (.inr ⟨k, stack ▸ mem, owes⟩), unfinished⟩
  cases control : m.control with
  | gather purpose values rest =>
    cases rest with
    | cons => simp [IsQuiet, control] at noisy
    | nil =>
      rcases purpose with _ | ⟨callee | builtin, place⟩ | place
      · simp [IsQuiet, control] at noisy
      · simp [IsQuiet, control] at noisy
      · cases builtin with
        | input =>
          have few : values.length ≤ 1 := by simpa [IsQuiet, control] using noisy
          have accepted := (input_arity values.reverse.length).mpr (by simpa using few)
          simp only [step, control, complete, applyBuiltin, accepted]
          exact stays _ rfl (by simp [into])
        | _ => simp [IsQuiet, control] at noisy
      · simp only [step, control, complete, print, aborting, if_true]
        exact stays _ rfl (by simp [fail, into])
  | boundary => simp [IsQuiet, control, muted] at noisy
  | arrived | log | watch => simp [control, Control.isOpen] at closed
  | waiting wait =>
    obtain ⟨_, resumed⟩ := m.resume_aborting e wait aborting
    simp only [step, control, resumed]
    exact stays _ rfl (by simp [fail, into])
  | deliver result =>
    simp only [step, control, deliver]
    cases below : m.stack with
    | nil => simp [below] at mem
    | cons top =>
      have probe : top.isProbe = true := by simpa [IsQuiet, control, below] using noisy
      -- There is only one such continuation, so the one on top is the debtor.
      have same : k = top := by
        rcases mem_cons.mp (below ▸ mem) with same | deeper
        · exact same
        · have mutes : top.mutes = true := by
            cases top <;> simp_all [Continuation.isProbe, Continuation.mutes]
          have quiet := tidy.same_muting below mutes k deeper
          simp [mutes_of_owes owes] at quiet
      exact owing_of_delivery _ e (same ▸ owes) result
  | _ => simp [IsQuiet, control] at noisy

lemma Owing.step (owing : Owing m) (tidy : Tidy m) (e) (aborting : e.aborting) :
    (∃ notice ∈ m.notices e, notice.kind ∈ cancelledKinds) ∨ Owing (m.step e).2 := by
  rcases owing.debt with ⟨text, rest, b, mode, control⟩ | ⟨rest, values, bindings, b, stop, control⟩
    | ⟨k, mem, owes⟩
  · rcases rest with _ | ⟨piece | value, rest⟩
    · refine .inl ⟨.logged text b.location.line, ?_, ?_⟩
      · simp [notices, control]
      · simp [Notice.kind, cancelledKinds]
    · simp only [Machine.step, control, stepLog]
      exact .inr ⟨.inl ⟨_, _, _, _, rfl⟩, by simp [into]⟩
    · simp only [Machine.step, control, stepLog]
      exact .inr ⟨.inr (.inr ⟨_, mem_cons_self, rfl⟩), by simp [evaluateMuted, evaluate, push]⟩
  · rcases rest with _ | ⟨watch, rest⟩
    · refine .inl ⟨.paused (if stop.breakpoint.isSome then .breakpoint else .step)
        (m.position b).line (m.position b).column (m.position b).depth, ?_, ?_⟩
      · simp [notices, control, Debugger.pause]
      · simp [Notice.kind, cancelledKinds]
    · simp only [Machine.step, control, stepWatch]
      exact .inr ⟨.inr (.inr ⟨_, mem_cons_self, rfl⟩), by simp [evaluateMuted, evaluate, push]⟩
  · by_cases quiet : m.IsQuiet
    · exact .inr (owing_of_advance (advance_of_quiet e quiet) mem owes owing.unfinished)
    · exact .inr (owing_of_noise tidy e aborting quiet mem owes)

end Owing

section Missing
variable {config : Config} {m : Machine}

structure Missing (config : Config) (m : Machine) : Prop where
  unchecked : ¬ReachesCheck config m
  lost : (∃ location breakpoint b, m.control = .deliver (.failure ⟨.aborted, location⟩) ∧
      m.stack.find? Continuation.isProbe = some (.condition breakpoint b none)) ∨
    (m.IsUnprobed ∧ m.control.isSettled = true ∧ .aborted ∉ m.control.fault?)

lemma quiet_of_settled (unprobed : m.IsUnprobed) (settled : m.control.isSettled)
    (unchecked : ¬m.Checks) : m.IsQuiet := by
  unfold IsQuiet
  split <;> simp_all [Checks, Control.isSettled]
  intro k top
  exact unprobed k (mem_of_head? top)

lemma Missing.step (missing : Missing config m) (tidy : Tidy m) (e) (same : e.config = config) :
    Missing config (m.step e).2 := by
  have onward : m.IsQuiet → ¬ReachesCheck config (m.step e).2 := by
    intro quiet reaches
    refine missing.unchecked (.onward quiet ?_)
    rwa [step_quiet_congr (.ofConfig config) e quiet same] at reaches
  rcases missing.lost with ⟨location, breakpoint, b, delivers, probe⟩ | ⟨unprobed, settled, lost⟩
  · cases below : m.stack with
    | nil => simp [below] at probe
    | cons top stack =>
      cases isProbe : top.isProbe with
      | false =>
        have quiet : m.IsQuiet := by simpa [IsQuiet, delivers, below] using isProbe
        obtain ⟨place, control, rest⟩ := step_aborted e delivers below isProbe
        refine ⟨onward quiet, .inl ⟨place, breakpoint, b, control, ?_⟩⟩
        rw [below, find?_cons_of_neg (by simp [isProbe])] at probe
        rw [rest, probe]
      | true =>
        rw [below, find?_cons_of_pos isProbe] at probe
        cases probe
        have dropped : (m.step e).2 = { m with stack, muted := false, control := .proceed b } := by
          simp [Machine.step, delivers, deliver, below, deliverTo, stopOrProceed, into]
        rw [dropped]
        refine ⟨fun reaches => missing.unchecked (.past delivers below reaches), .inr ⟨?_, rfl, by rintro ⟨⟩⟩⟩
        intro k mem
        exact Continuation.isProbe_of_mutes (tidy.same_muting below rfl k mem)
  · have quiet := quiet_of_settled unprobed settled fun checks =>
      missing.unchecked (.here checks unprobed)
    have advance := advance_of_quiet e quiet
    obtain ⟨still, onwards⟩ := settled_of_advance advance unprobed settled
    refine ⟨onward quiet, .inr ⟨still, onwards, fun given => ?_⟩⟩
    obtain own | passed := advance.passes_fault given
    · cases own
    · exact lost passed

lemma Missing.finished (missing : Missing config m)
    (finished : m.control = .finished (some ⟨.aborted, location⟩)) : False := by
  rcases missing.lost with ⟨location, breakpoint, b, delivers, -⟩ | ⟨-, -, lost⟩
  · simp [finished] at delivers
  · exact lost (by rw [finished]; rfl)

end Missing

section Straying
lemma ReachesCheck.withLedger (reaches : ReachesCheck config m) (records) :
    ReachesCheck config (m.withLedger records) := by
  induction reaches with
  | here checks unprobed => exact .here checks unprobed
  | @onward m quiet _ _ =>
    refine .onward quiet ?_
    rwa [step_withLedger m records (.ofConfig config) (.ofConfig config) quiet rfl]
  | past delivers top _ ih => exact .past delivers top ih

inductive Strays (config : Config) (m : Machine) : Prop where
  | owes (owing : Owing m)
  | misses (missing : Missing config m)
  | waits (waits : m.control = .waiting wait)
      (probe : m.stack.find? Continuation.isProbe = some (.condition breakpoint b none))
      (unchecked : ¬ReachesCheck config (m.fail .aborted wait.location))

lemma strays_of_waiting (waits : m.control = .waiting wait) (disobeys : ¬Heeds config m wait) :
    Strays config m := by
  unfold Heeds at disobeys
  split at disobeys
  · exact absurd trivial disobeys
  · rename_i probe
    exact .waits waits probe disobeys
  · rename_i k excluded probe
    refine .owes ⟨.inr (.inr ⟨k, mem_of_find?_eq_some probe, ?_⟩), by simp [waits]⟩
    have isProbe := find?_some probe
    cases k with
    | condition breakpoint b step =>
      cases step with
      | none => exact absurd rfl (excluded breakpoint b)
      | some => rfl
    | log | watch => rfl
    | _ => cases isProbe

lemma Strays.step (strays : Strays config m) (tidy : Tidy m) (e) (same : e.config = config)
    (aborting : e.aborting) :
    (∃ notice ∈ m.notices e, notice.kind ∈ cancelledKinds) ∨ Strays config (m.step e).2 := by
  cases strays with
  | owes owing => exact (owing.step tidy e aborting).imp_right .owes
  | misses missing => exact .inr (.misses (missing.step tidy e same))
  | @waits wait _ _ waits probe unchecked =>
    obtain ⟨_, resumed⟩ := m.resume_aborting e wait aborting
    simp only [Machine.step, waits, resumed]
    refine .inr (.misses ⟨fun reaches => unchecked ?_, .inl ⟨wait.location, _, _, rfl, probe⟩⟩)
    exact reaches.withLedger (m.fail .aborted wait.location).ledger

lemma Strays.finished (strays : Strays config m)
    (finished : m.control = .finished (some ⟨.aborted, location⟩)) : False := by
  cases strays with
  | owes owing => exact owing.unfinished _ finished
  | misses missing => exact missing.finished finished
  | waits waits => simp [finished] at waits

end Straying

end Machine

end Stepper
