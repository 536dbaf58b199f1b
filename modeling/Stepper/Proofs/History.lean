import Stepper.Proofs.Moves

/-! # The history of a run -/

namespace Stepper

namespace Machine

/-- The states from which a run takes a step before its slice ends, a number of them at most. -/
def trailWithin : Nat → Engine → Machine → List (Engine × Machine)
  | 0, _, _ => []
  | bound + 1, e, m =>
    if m.endsSlice e then [] else (e, m) :: trailWithin bound (m.step e).1 (m.step e).2

/-- The states that a run passes in one slice, from the first. -/
def trail (e : Engine) (m : Machine) : List (Engine × Machine) :=
  (e, m) :: trailWithin sliceBound (m.step e).1 (m.step e).2

lemma isReady_of_endsSlice {m : Machine} (goes : m.endsSlice e = false) : m.isReady e := by
  unfold endsSlice at goes
  split at goes
  · cases goes
  · simpa using goes

lemma trail_induction {P : List (Engine × Machine) → Engine → Machine → Prop}
    {passed : List (Engine × Machine)} {e : Engine} {m : Machine}
    (first : P (passed ++ [(e, m)]) (m.step e).1 (m.step e).2) (step : ∀ passed e m, P passed e m →
      m.isReady e = true → P (passed ++ [(e, m)]) (m.step e).1 (m.step e).2) :
    P (passed ++ m.trail e) (m.slice e).1 (m.slice e).2 := by
  have within : ∀ bound passed e m, P passed e m →
      P (passed ++ trailWithin bound e m) (stepsWithin bound e m).1 (stepsWithin bound e m).2 := by
    intro bound
    induction bound with
    | zero =>
      intro _ _ _ holds
      simpa [trailWithin, stepsWithin] using holds
    | succ _ ih =>
      intro passed e m holds
      simp only [trailWithin, stepsWithin]
      cases ends : m.endsSlice e with
      | true => simpa using holds
      | false =>
        have onward := ih (passed ++ [(e, m)]) _ _
          (step passed e m holds (isReady_of_endsSlice ends))
        simpa using onward
  have onward := within sliceBound (passed ++ [(e, m)]) _ _ first
  simpa [trail, slice] using onward

end Machine

/-- The states that a task's run passes in one slice. -/
def Task.trail (e : Engine) : Task → List (Engine × Machine)
  | .execute source options =>
    match e.beginExecution source options with
    | .ok (e, x) => (x.machine.map fun m => m.trail e).getD []
    | .error _ => []
  | .executing x => (x.machine.map fun m => m.trail e).getD []
  | _ => []

namespace Host

/-- The states that a task's run passes in a move of the host. -/
def trail (h : Host) (number : Nat) : Move → List (Engine × Machine)
  | .slice other =>
    match h.task? number with
    | some task => if other = number && task.isReady h.engine then task.trail h.engine else []
    | none => []
  | _ => []

/-- The states from which the run of a task takes a step in a sequence of moves. -/
def history (h : Host) (number : Nat) : List Move → List (Engine × Machine)
  | [] => []
  | move :: rest => h.trail number move ++ (h.move move).history number rest

/-- The run of a task that waits, and what it waits for. -/
def standing? (h : Host) (number : Nat) : Option (Execution × Machine × Wait) :=
  match h.task? number with
  | some (.executing x) =>
    match x.machine with
    | some m =>
      match m.control with
      | .waiting wait => some (x, m, wait)
      | _ => none
    | none => none
  | _ => none

variable {h : Host} {number : Nat}

lemma standing?_eq_some : h.standing? number = some (x, m, wait) ↔ h.task? number = some (.executing x)
    ∧ x.machine = some m ∧ m.control = .waiting wait := by
  unfold standing?
  constructor
  · intro stands
    split at stands
    · split at stands
      · split at stands
        · cases stands
          exact ⟨‹_›, ‹_›, ‹_›⟩
        · cases stands
      · cases stands
    · cases stands
  · rintro ⟨active, machine, waits⟩
    simp only [active, machine, waits]

lemma history_append (h : Host) (number) (first second) : h.history number (first ++ second) = h.history
    number first ++ (h.moves first).history number second := by
  induction first generalizing h with
  | nil => rfl
  | cons _ _ ih =>
    simp only [List.cons_append, history, ih, List.append_assoc]
    rfl

lemma trail_foreign {move : Move} (foreign : move ≠ .slice number) : h.trail number move = [] := by
  cases move with
  | slice other =>
    have different : other ≠ number := fun same => foreign (congrArg Move.slice same)
    simp only [trail]
    split <;> simp [different]
  | _ => rfl

lemma trail_own (active : h.task? number = some (.executing x)) (machine : x.machine = some m)
    (ready : m.isReady h.engine) : h.trail number (.slice number) = m.trail h.engine := by
  simp [trail, active, Task.isReady, Execution.isReady, machine, ready, Task.trail]

lemma trail_rests (active : h.task? number = some (.executing x)) (machine : x.machine = some m)
    (waits : m.isReady h.engine = false) : h.trail number (.slice number) = [] := by
  simp [trail, active, Task.isReady, Execution.isReady, machine, waits]

lemma trail_begin (found : h.task? number = some (.execute source options))
    (began : h.engine.beginExecution source options = .ok (e, x)) (machine : x.machine = some m) :
    h.trail number (.slice number) = m.trail e := by
  simp [trail, found, Task.isReady, Task.trail, began, machine]

lemma trail_finished (ended : h.task? number = some (.finished answer)) (move) :
    h.trail number move = [] := by
  cases move with
  | slice => simp [trail, ended, Task.isReady]
  | _ => rfl

end Host

end Stepper
