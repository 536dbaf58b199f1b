import Stepper.Proofs.Muting
import Stepper.Proofs.Publication

/-! # Runs that are asked to stop -/

namespace Stepper

/-- What a run no longer tells once it is cancelled. -/
def cancelledKinds : List EventKind :=
  [.executionOutput, .breakpointHit, .stepComplete, .executionPaused]

def Wait.location : Wait → Location
  | .yielded b | .paused b _ => b.location
  | .input _ location => location

namespace Machine

/-- Whether a run looks for an order to abort in its next step. -/
def Checks (m : Machine) : Prop :=
  match m.control with
  | .boundary _ => m.muted = false
  | .gather (.print _) _ [] _ => True
  | .gather (.call (.builtin .input) _) values [] _ => values.length ≤ 1
  | .waiting _ => True
  | _ => False

/-- The run comes to look at the order to stop by its own work alone. -/
inductive ReachesCheck (config : Config) : Machine → Prop where
  | here (checks : m.Checks) (unprobed : m.IsUnprobed) : ReachesCheck config m
  | onward (quiet : m.IsQuiet) (reaches : ReachesCheck config (m.step (.ofConfig config)).2) :
      ReachesCheck config m
  | past {m : Machine} {error : RuntimeError} {breakpoint : Breakpoint} {b : Boundary}
      {stack : List Continuation} (delivers : m.control = .deliver (.failure error))
      (top : m.stack = .condition breakpoint b none :: stack)
      (reaches : ReachesCheck config { m with stack, muted := false, control := .proceed b }) :
      ReachesCheck config m

inductive Doomed (config : Config) : Nat → Machine → Prop where
  | ended (finished : m.control = .finished (some ⟨.aborted, location⟩)) : Doomed config n m
  | before (ready : ∀ e : Engine, e.aborting = true → m.isReady e = true)
      (silent : ∀ e : Engine, e.aborting = true → ∀ notice ∈ m.notices e, notice.kind ∉ cancelledKinds)
      (onward : ∀ e : Engine, e.config = config → e.aborting = true → Doomed config n (m.step e).2)
      : Doomed config (n + 1) m

lemma Doomed.weaken (doomed : Doomed config n m) : Doomed config (n + 1) m := by
  induction doomed with
  | ended finished => exact .ended finished
  | before ready silent _ ih =>
    exact .before ready silent fun e same aborting => ih e same aborting

section Unwinding
variable {m : Machine} {location : Location}

lemma step_aborted (e) {stack : List Continuation}
    (delivers : m.control = .deliver (.failure ⟨.aborted, location⟩)) (top : m.stack = k :: stack)
    (plain : k.isProbe = false) : ∃ place, (m.step e).2.control = .deliver (.failure ⟨.aborted, place⟩)
    ∧ (m.step e).2.stack = stack := by
  simp only [step, delivers, deliver, top]
  cases k with
  | condition | log | watch => cases plain
  | sketched line => exact ⟨.point line.number location.column, rfl, rfl⟩
  | _ => exact ⟨location, rfl, rfl⟩

lemma doomed_failing (config) (delivers : m.control = .deliver (.failure ⟨.aborted, location⟩))
    (unprobed : m.IsUnprobed) : Doomed config (m.stack.length + 1) m := by
  induction below : m.stack generalizing m location with
  | nil =>
    refine .before (fun e _ => by simp [isReady, delivers])
      (fun e _ => by simp [notices, delivers]) fun e _ _ => ?_
    have finished : (m.step e).2.control = .finished (some ⟨.aborted, location⟩) := by
      simp [step, delivers, deliver, below, into]
    exact .ended finished
  | cons k _ ih =>
    have plain : k.isProbe = false := unprobed k (by simp [below])
    refine .before (fun e _ => by simp [isReady, delivers])
      (fun e _ => by simp [notices, delivers]) fun e _ _ => ?_
    obtain ⟨_, control, rest⟩ := step_aborted e delivers below plain
    refine ih control ?_ rest
    intro other mem
    exact unprobed other (by rw [below]; exact List.mem_cons_of_mem k (rest ▸ mem))

lemma resume_aborting (e) (wait) (aborting : e.aborting) :
    ∃ records, (m.resume e wait).2 = (m.fail .aborted wait.location).withLedger records := by
  cases wait with
  | yielded => exact ⟨m.ledger, by simp [resume, aborting]; rfl⟩
  | paused _ since => exact ⟨(m.excludeSince since e.now).ledger, by simp [resume, aborting]; rfl⟩
  | input wait =>
    refine ⟨(m.excludeSince wait.since e.now).ledger, ?_⟩
    simp only [resume, aborting]
    split <;> rfl

lemma ready_aborting (waits : m.control = .waiting wait) (aborting : e.aborting) :
    m.isReady e := by
  cases wait <;> simp [isReady, waits, canResume, aborting]

lemma doomed_waiting (config) (waits : m.control = .waiting wait) (unprobed : m.IsUnprobed) :
    Doomed config (m.stack.length + 2) m := by
  refine .before (fun e => ready_aborting waits) (fun e _ => by simp [notices, waits])
    fun e _ aborting => ?_
  obtain ⟨records, resumed⟩ := m.resume_aborting e wait aborting
  simp only [step, waits, resumed]
  exact doomed_failing config (m := (m.fail .aborted wait.location).withLedger records) rfl unprobed

lemma doomed_checking (config) (checks : m.Checks) (unprobed : m.IsUnprobed) :
    Doomed config (m.stack.length + 3) m := by
  cases control : m.control with
  | boundary b =>
    have heard : m.muted = false := by simpa [Checks, control] using checks
    refine (Doomed.before (fun e _ => by simp [isReady, control])
      (fun e _ => by simp [notices, control]) fun e _ aborting => ?_).weaken
    have fails : (m.step e).2 = m.fail .aborted b.location := by
      simp [step, control, stepBoundary, heard, aborting]
    rw [fails]
    exact doomed_failing config (m := m.fail .aborted b.location) rfl unprobed
  | waiting => exact (doomed_waiting config control unprobed).weaken
  | gather purpose values rest =>
    cases rest with
    | cons => simp [Checks, control] at checks
    | nil =>
      rcases purpose with _ | ⟨callee | builtin, place⟩ | place
      · simp [Checks, control] at checks
      · simp [Checks, control] at checks
      · cases builtin with
        | input =>
          have few : values.length ≤ 1 := by simpa [Checks, control] using checks
          refine .before (fun e _ => by simp [isReady, control]) ?_ fun e _ _ => ?_
          · intro _ _
            simp [notices, control, few, Notice.kind, cancelledKinds]
          · have accepted := (input_arity values.reverse.length).mpr (by simpa using few)
            simp only [step, control, complete, applyBuiltin, accepted]
            exact doomed_waiting config (m := m.into (.waiting _)) rfl unprobed
        | _ => simp [Checks, control] at checks
      · refine (Doomed.before (fun e _ => by simp [isReady, control]) ?_
          fun e _ aborting => ?_).weaken
        · intro _ aborting
          simp [notices, control, aborting]
        · have fails : (m.step e).2 = m.fail .aborted place := by
            simp [step, control, complete, print, aborting]
          rw [fails]
          exact doomed_failing config (m := m.fail .aborted place) rfl unprobed
  | _ => simp [Checks, control] at checks

end Unwinding

section Heeding
variable {config : Config} {m : Machine}

lemma ReachesCheck.unfinished (reaches : ReachesCheck config m) (error) :
    m.control ≠ .finished error := by
  induction reaches with
  | here checks =>
    intro finished
    simp [Checks, finished] at checks
  | onward _ _ ih =>
    intro finished
    simp only [step, finished] at ih
    exact ih rfl
  | past delivers => simp [delivers]

lemma ReachesCheck.doomed (reaches : ReachesCheck config m) :
    ∃ n, ∀ records, Doomed config n (m.withLedger records) := by
  induction reaches with
  | @here m checks unprobed =>
    exact ⟨m.stack.length + 3, fun records =>
      doomed_checking config (m := m.withLedger records) checks unprobed⟩
  | @onward m quiet reaches ih =>
    obtain ⟨n, doomed⟩ := ih
    have unfinished : ∀ error, m.control ≠ .finished error :=
      (onward quiet reaches).unfinished
    refine ⟨n + 1, fun records => .before ?_ ?_ ?_⟩
    · intro _ _
      cases control : m.control with
      | finished error => exact absurd control (unfinished error)
      | waiting => simp [IsQuiet, control] at quiet
      | _ => simp [isReady, control]
    · intro e _
      rw [notices_quiet e (m := m.withLedger records) quiet]
      simp
    · intro e same _
      rw [step_withLedger m records (.ofConfig config) e quiet same]
      exact doomed records
  | @past m _ _ b stack delivers top _ ih =>
    obtain ⟨n, doomed⟩ := ih
    refine ⟨n + 1, fun records => .before ?_ ?_ ?_⟩
    · intro _ _
      simp [isReady, delivers]
    · intro _ _
      simp [notices, delivers]
    · intro e _ _
      have dropped : ((m.withLedger records).step e).2 =
          ({ m with stack, muted := false, control := .proceed b } : Machine).withLedger records := by
        simp [step, delivers, deliver, top, deliverTo, stopOrProceed, into]
        rfl
      rw [dropped]
      exact doomed records

/-- Whether a run that waits obeys an order to stop: its expression is not one of the debugger, or it
is a condition without a step, and the run looks at the order again when that condition has failed. -/
def Heeds (config : Config) (m : Machine) (wait : Wait) : Prop :=
  match m.stack.find? Continuation.isProbe with
  | none => True
  | some (.condition _ _ none) => ReachesCheck config (m.fail .aborted wait.location)
  | some _ => False

lemma Heeds.doomed (waits : m.control = .waiting wait) (heeds : Heeds config m wait) :
    ∃ n, Doomed config n m := by
  unfold Heeds at heeds
  split at heeds
  · rename_i absent
    have unprobed : m.IsUnprobed := fun k mem => by
      simpa using List.find?_eq_none.mp absent k mem
    exact ⟨_, doomed_waiting config waits unprobed⟩
  · obtain ⟨n, doomed⟩ := heeds.doomed
    refine ⟨n + 1, .before (fun e => ready_aborting waits) (fun e _ => by simp [notices, waits])
      fun e _ aborting => ?_⟩
    obtain ⟨records, resumed⟩ := m.resume_aborting e wait aborting
    simp only [step, waits, resumed]
    exact doomed records
  · exact heeds.elim

end Heeding

end Machine

end Stepper
