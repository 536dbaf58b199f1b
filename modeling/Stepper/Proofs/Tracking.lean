import Stepper.Proofs.Reporting

/-! # Following an execution and its engine

An invariant of an execution is followed through its whole history (`Upholds`): it holds when the
execution begins, each of its steps keeps it, and so does whatever the host does in between. -/

namespace Stepper

open List

lemma Machine.trail_config (m : Machine) : ∀ state ∈ m.trail e, state.1.config = e.config := by
  have first : (∀ state ∈ [] ++ [(e, m)], state.1.config = e.config) ∧
      (m.step e).1.config = e.config :=
    ⟨forall_mem_singleton.mpr rfl, (Engine.step_continues e m).config⟩
  have all := trail_induction
    (P := fun passed now _ => (∀ state ∈ passed, state.1.config = e.config) ∧ now.config = e.config)
    first fun passed now m ⟨before, same⟩ _ =>
      ⟨forall_mem_append.mpr ⟨before, forall_mem_singleton.mpr same⟩,
        (Engine.step_continues now m).config.trans same⟩
  exact all.1

namespace Host

lemma trail_config (h : Host) (number) (move) :
    ∀ state ∈ h.trail number move, state.1.config = h.engine.config := by
  have run (e : Engine) (same : e.config = h.engine.config) (machine : Option Machine) :
      ∀ state ∈ (machine.map fun m => m.trail e).getD [], state.1.config = h.engine.config := by
    cases machine with
    | none => exact forall_mem_nil _
    | some m => exact fun state mem => (m.trail_config state mem).trans same
  cases move with
  | call | wait => exact forall_mem_nil _
  | slice =>
    unfold trail
    dsimp only
    split
    · next task _ =>
      split
      · cases task with
        | execute =>
          unfold Task.trail
          dsimp only
          split
          · next later x began => exact run later (Engine.begin_follows began).2.1.config x.machine
          · exact forall_mem_nil _
        | executing x => exact run h.engine rfl x.machine
        | request | awaiting | finished => exact forall_mem_nil _
      · exact forall_mem_nil _
    · exact forall_mem_nil _

lemma history_config {h : Host} (orderly : h.Orderly) (number) (moves) :
    ∀ state ∈ h.history number moves, state.1.config = h.engine.config := by
  induction moves generalizing h with
  | nil => exact forall_mem_nil _
  | cons move _ ih =>
    refine forall_mem_append.mpr ⟨h.trail_config number move, fun state mem => ?_⟩
    exact (ih (orderly.move move) state mem).trans (orderly.follows move).config

lemma history_within {Q : Machine → Prop} (starts : ∀ source now limit debugging, Q (.ofTarget
      (.ofAnalysis source (analyze source)) now limit debugging))
    (step : ∀ e m, e.config = config → Q m → Q (m.step e).2) (number) (moves) :
    ∀ state ∈ (observed config).history number moves, Q state.2 := by
  have same := history_config (observed_orderly config) number moves
  have all := history_induction
    (P := fun passed m => (∀ state ∈ passed, state.1.config = config) →
      (∀ state ∈ passed, Q state.2) ∧ Q m)
    (fun source now limit debugging _ => ⟨forall_mem_nil _, starts source now limit debugging⟩)
    (fun passed e m known _ same => by
      obtain ⟨before, here⟩ := forall_mem_append.mp same
      obtain ⟨every, now⟩ := known before
      exact ⟨forall_mem_append.mpr ⟨every, forall_mem_singleton.mpr now⟩,
        step e m (here (e, m) (mem_singleton_self _)) now⟩)
    config number moves
  rcases all with nothing | ⟨m, every⟩
  · rw [nothing]
    exact forall_mem_nil _
  · exact (every same).1

/-! ### From the beginning of an execution to its end -/

inductive Tracked (P : List (Engine × Machine) → Engine → Machine → Prop) (source : String)
    (options : ExecutionOptions) (number : Nat) (history : List (Engine × Machine)) (h : Host) :
    Prop where
  | waits (found : h.task? number = some (.execute source options)) (nothing : history = [])
  | runs (active : h.task? number = some (.executing x)) (machine : x.machine = some m)
      (begun : history ≠ []) (known : P history h.engine m)
  | ended (found : h.task? number = some (.finished answer))
      (known : history = [] ∨ ∃ e m, P history e m)

structure Upholds (config : Config) (number : Nat) (source : String) (options : ExecutionOptions)
    (P : List (Engine × Machine) → Engine → Machine → Prop) : Prop where
  begins : ∀ {moves e x m},
    ((observed config).moves moves).task? number = some (.execute source options) →
    ((observed config).moves moves).engine.beginExecution source options = .ok (e, x) →
    x.machine = some m → P [] e m
  step : ∀ {passed e m}, P passed e m → m.isReady e = true →
    P (passed ++ [(e, m)]) (m.step e).1 (m.step e).2
  foreign : ∀ {moves move passed x m},
    ((observed config).moves moves).task? number = some (.executing x) → x.machine = some m →
    move ≠ .slice number → passed ≠ [] → P passed ((observed config).moves moves).engine m →
    P passed (((observed config).moves moves).move move).engine m

namespace Upholds
variable
  {history : List (Engine × Machine)}

variable (upholds : Upholds config number source options P)
include upholds

lemma slice (known : P history e m) (ready : m.isReady e) (own : OwnSlice h number e x m) :
    Tracked P source options number (history ++ m.trail e) (h.move (.slice number)) := by
  have after : P (history ++ m.trail e) (m.slice e).1 (m.slice e).2 :=
    Machine.trail_induction (upholds.step known ready) fun _ _ _ known => upholds.step known
  cases own with
  | runs _ engine task =>
    have begun : history ++ m.trail e ≠ [] :=
      append_ne_nil_of_right_ne_nil history (cons_ne_nil _ _)
    exact .runs task rfl begun (engine ▸ after)
  | ends _ _ task => exact .ended task (.inr ⟨_, _, after⟩)

lemma own {moves : List Move}
    (tracked : Tracked P source options number history ((observed config).moves moves)) : Tracked P
    source options number (history ++ ((observed config).moves moves).trail number (.slice number))
    (((observed config).moves moves).move (.slice number)) := by
  cases tracked with
  | waits found nothing =>
    subst nothing
    rw [nil_append]
    have came := task?_move_slice found rfl
    cases began : ((observed config).moves moves).engine.beginExecution source options with
    | error =>
      simp only [Task.slice, began] at came
      exact .ended came (.inl (by simp [trail, found, Task.isReady, Task.trail, began]))
    | ok pair =>
      obtain ⟨e, x⟩ := pair
      cases machine : x.machine with
      | none =>
        simp only [Task.slice, began, Task.runExecution, Engine.runExecution, machine] at came
        exact .ended came (.inl (by simp [trail, found, Task.isReady, Task.trail, began, machine]))
      | some m =>
        rw [trail_begin found began machine]
        have ready : m.isReady e := by
          obtain ⟨_, _, _, rfl⟩ :=
            Engine.begin_machine (observed_valid config moves) began machine
          exact Machine.ofTarget_isReady _ _ _ _ e
        exact upholds.slice (upholds.begins found began machine) ready (beginSlice found began machine)
  | @runs _ m active machine begun known =>
    cases ready : m.isReady ((observed config).moves moves).engine with
    | true =>
      rw [trail_own active machine ready]
      exact upholds.slice known ready (ownSlice active machine ready)
    | false =>
      rw [trail_rests active machine ready, append_nil, sliceOf_rests active machine ready]
      exact .runs active machine begun known
  | ended found known =>
    rw [trail_finished found, append_nil]
    exact .ended (((observed_orderly config).moves moves).finished found _) known

lemma tracked (found : ((observed config).moves before).task? number = some (.execute source options))
    (moves) : Tracked P source options number (((observed config).moves before).history number moves)
    ((observed config).moves (before ++ moves)) := by
  induction moves using reverseRecOn with
  | nil => exact .waits (by rwa [append_nil]) rfl
  | append_singleton moves move ih =>
    have reached : (observed config).moves (before ++ moves) =
        ((observed config).moves before).moves moves := foldl_append
    have further : ((observed config).moves before).history number (moves ++ [move]) =
        ((observed config).moves before).history number moves ++
          ((observed config).moves (before ++ moves)).trail number move := by
      rw [history_append, history, history, append_nil, reached]
    rw [further, ← append_assoc, moves_concat]
    by_cases own : move = .slice number
    · subst own
      exact upholds.own ih
    · rw [trail_foreign own, append_nil]
      have orderly := (observed_orderly config).moves (before ++ moves)
      have stays {task : Task}
          (stands : ((observed config).moves (before ++ moves)).task? number = some task) :
          (((observed config).moves (before ++ moves)).move move).task? number = some task := by
        rcases task?_foreign orderly own with same | ⟨absent, -⟩
        · rw [same, stands]
        · cases absent.symm.trans stands
      cases ih with
      | waits found nothing => exact .waits (stays found) nothing
      | runs active machine begun known =>
        exact .runs (stays active) machine begun (upholds.foreign active machine own begun known)
      | ended found known => exact .ended (stays found) known

lemma reached (found : ((observed config).moves before).task? number = some
      (.execute source options)) {moves : List Move} {passed after : List (Engine × Machine)}
    (here : ((observed config).moves before).history number moves = passed ++ (e, m) :: after) :
    P passed e m := by
  have remembers : Upholds config number source options fun passed e m =>
      P passed e m ∧ ∀ first e' m', first ++ [(e', m')] <+: passed → P first e' m' := by
    constructor
    · intro _ _ _ _ found began machine
      refine ⟨upholds.begins found began machine, fun first e' m' earlier => ?_⟩
      cases append_ne_nil_of_right_ne_nil first (cons_ne_nil _ _) (prefix_nil.mp earlier)
    · rintro _ _ _ ⟨known, all⟩ ready
      refine ⟨upholds.step known ready, fun first e' m' earlier => ?_⟩
      rcases prefix_concat_iff.mp earlier with whole | earlier
      · obtain ⟨rfl, last⟩ := append_inj' whole rfl
        cases last
        exact known
      · exact all first e' m' earlier
    · rintro _ _ _ _ _ active machine other begun ⟨known, all⟩
      exact ⟨upholds.foreign active machine other begun known, all⟩
  have within : passed ++ [(e, m)] <+: ((observed config).moves before).history number moves :=
    ⟨after, by rw [here, append_assoc]; rfl⟩
  cases remembers.tracked found moves with
  | waits _ nothing =>
    rw [nothing] at here
    cases append_ne_nil_of_right_ne_nil passed (cons_ne_nil _ _) here.symm
  | runs _ _ _ known => exact known.2 passed e m within
  | ended _ known =>
    obtain nothing | ⟨_, _, known⟩ := known
    · rw [nothing] at here
      cases append_ne_nil_of_right_ne_nil passed (cons_ne_nil _ _) here.symm
    · exact known.2 passed e m within

end Upholds

end Host

end Stepper
