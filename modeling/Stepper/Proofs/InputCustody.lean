import Mathlib.Tactic.Lemma
import Stepper.InputQueue

/-! # The input queue and its requesters -/

namespace Stepper

open List

variable {wait : InputWait} {oldest : InputRequest} {rest : List InputRequest}

namespace InputQueue

/-- Whether a request is waiting in the queue. -/
def IsPending (queue : InputQueue) (id : Nat) : Prop := ∃ request ∈ queue.pending, request.id = id

instance (queue : InputQueue) (id : Nat) : Decidable (queue.IsPending id) :=
  inferInstanceAs (Decidable (∃ request ∈ queue.pending, request.id = id))

def answered (queue : InputQueue) (oldest : InputRequest) (rest : List InputRequest)
    (text : String) : InputQueue :=
  { queue with pending := rest, answers := (oldest.id, .ok text) :: queue.answers }

variable {queue : InputQueue} {id : Nat}

lemma isPending_request (prompt) (validator) :
    (queue.request prompt validator).1.IsPending id ↔ queue.IsPending id ∨ id = queue.issued + 1 := by
  simp [IsPending, request, or_and_right, exists_or, eq_comm]

@[simp] lemma answer?_request (prompt) (validator) :
    (queue.request prompt validator).1.answer? id = queue.answer? id := rfl

lemma isPending_withdraw (gone) :
    (queue.withdraw gone).IsPending id ↔ queue.IsPending id ∧ id ≠ gone := by
  constructor
  · rintro ⟨request, mem, rfl⟩
    obtain ⟨present, other⟩ := mem_filter.mp mem
    exact ⟨⟨request, present, rfl⟩, by simpa using other⟩
  · rintro ⟨⟨request, present, rfl⟩, other⟩
    exact ⟨request, mem_filter.mpr ⟨present, by simpa using other⟩, rfl⟩

@[simp] lemma isPending_collect (gone) :
    (queue.collect gone).IsPending id ↔ queue.IsPending id := Iff.rfl

lemma not_isPending_cancelAll : ¬queue.cancelAll.1.IsPending id := by
  rintro ⟨_, mem, -⟩
  cases mem

lemma isPending_of_pending (pending : queue.pending = oldest :: rest) :
    queue.IsPending id ↔ oldest.id = id ∨ ∃ request ∈ rest, request.id = id := by
  simp [IsPending, pending]

lemma isPending_answered (oldest) (rest) (text) :
    (queue.answered oldest rest text).IsPending id ↔ ∃ request ∈ rest, request.id = id := Iff.rfl

lemma answer?_answered (oldest) (rest) (text) : (queue.answered oldest rest text).answer? id = if
    oldest.id = id then some (.ok text) else queue.answer? id := by
  by_cases same : oldest.id = id <;> simp [answer?, answered, same]

lemma answer?_collect (gone) :
    (queue.collect gone).answer? id = if gone = id then none else queue.answer? id := by
  unfold answer? collect
  generalize queue.answers = answers
  induction answers with
  | nil => simp
  | cons entry _ ih =>
    obtain ⟨resolved, _⟩ := entry
    by_cases taken : resolved = gone
    · subst taken
      by_cases same : resolved = id
      · simp [same]
      · simpa [same] using ih
    · by_cases same : resolved = id
      · subst same
        simp [taken, Ne.symm taken]
      · simpa [same, taken] using ih

lemma answer?_cancelAll : queue.cancelAll.1.answer? id = if queue.IsPending id then some
    (.error .cancelled) else queue.answer? id := by
  obtain ⟨_, pending, answers⟩ := queue
  induction pending generalizing answers with
  | nil => simp [cancelAll, IsPending]
  | cons request pending ih =>
    refine (ih ((request.id, .error .cancelled) :: answers)).trans ?_
    by_cases later : ∃ other ∈ pending, other.id = id
    · simp [IsPending, later]
    · by_cases same : request.id = id <;> simp [IsPending, answer?, later, same]

lemma submit_cases (queue : InputQueue) (text) : (∃ oldest rest, queue.pending = oldest :: rest ∧
      (queue.submit text).1 = queue.answered oldest rest text ∧ (queue.submit text).2.1 = .ok ()) ∨
    ((queue.submit text).1 = queue ∧ ∃ error, (queue.submit text).2.1 = .error error) := by
  unfold submit
  split
  · exact .inr ⟨rfl, _, rfl⟩
  · rename_i oldest rest pending
    split
    · exact .inr ⟨rfl, _, rfl⟩
    · exact .inl ⟨oldest, rest, pending, rfl, rfl⟩

end InputQueue

namespace InputWait
variable {queue : InputQueue}

lemma outcome?_answered (answered : queue.answer? wait.id = some answer) (now) :
    wait.outcome? queue now = some (answer, queue.collect wait.id) := by
  simp [outcome?, answered]

lemma outcome?_over (unanswered : queue.answer? wait.id = none) (expired : wait.isOver now) :
    wait.outcome? queue now = some
    (.error (.timedOut (wait.limit.getD 0)), queue.withdraw wait.id) := by
  simp [outcome?, unanswered, expired]

lemma outcome?_cases (outcome : wait.outcome? queue now = some (answer, later)) :
    (queue.answer? wait.id = some answer ∧ later = queue.collect wait.id) ∨ (queue.answer? wait.id =
      none ∧ wait.isOver now = true ∧ answer = .error (.timedOut (wait.limit.getD 0)) ∧ later =
      queue.withdraw wait.id) := by
  unfold outcome? at outcome
  split at outcome
  · rename_i present
    cases outcome
    exact .inl ⟨present, rfl⟩
  · rename_i absent
    split at outcome
    · rename_i expired
      cases outcome
      exact .inr ⟨absent, expired, rfl, rfl⟩
    · cases outcome

end InputWait

namespace InputQueue
variable {queue : InputQueue} {id : Nat}

structure Custody (queue : InputQueue) (waits : Nat → Option InputWait) : Prop where
  increasing : (queue.pending.map InputRequest.id).Pairwise (· < ·)
  asked : ∀ id, queue.IsPending id ∨ (queue.answer? id).isSome = true →
    ∃ number wait, waits number = some wait ∧ wait.id = id
  issued : ∀ number wait, waits number = some wait → wait.id ≤ queue.issued
  stands : ∀ number wait, waits number = some wait →
    (queue.IsPending wait.id ↔ queue.answer? wait.id = none)
  single : ∀ first second wait other, waits first = some wait → waits second = some other →
    wait.id = other.id → first = second

namespace Custody
variable {waits : Nat → Option InputWait}

lemma empty : ({} : InputQueue).Custody fun _ => none where
  increasing := .nil
  asked := by simp [IsPending, answer?]
  issued := by simp
  stands := by simp
  single := by simp

variable (custody : queue.Custody waits)
include custody

lemma bounded (pending : queue.IsPending id) : id ≤ queue.issued := by
  obtain ⟨number, wait, waiting, rfl⟩ := custody.asked id (.inl pending)
  exact custody.issued number wait waiting

lemma unanswered (fresh : queue.issued < id) : queue.answer? id = none := by
  cases answered : queue.answer? id with
  | none => rfl
  | some =>
    obtain ⟨number, wait, waiting, rfl⟩ := custody.asked id (.inr (by simp [answered]))
    have given := custody.issued number wait waiting
    omega

lemma request (prompt) (validator)
    (number since) (limit) (free : waits number = none) :
    (queue.request prompt validator).1.Custody fun other => if number = other then some
    ⟨queue.issued + 1, since, limit⟩ else waits other where
  increasing := by
    simp only [InputQueue.request, map_append, pairwise_append]
    refine ⟨custody.increasing, by simp, ?_⟩
    intro _ mem _ last
    obtain ⟨request, present, rfl⟩ := mem_map.mp mem
    have given := custody.bounded ⟨request, present, rfl⟩
    simp only [map_cons, map_nil, mem_singleton] at last
    omega
  asked id standing := by
    rw [isPending_request] at standing
    by_cases new : id = queue.issued + 1
    · exact ⟨number, ⟨queue.issued + 1, since, limit⟩, by simp, new.symm⟩
    · obtain ⟨other, wait, waiting, same⟩ := custody.asked id (by simpa [new] using standing)
      refine ⟨other, wait, ?_, same⟩
      have different : number ≠ other := by
        rintro rfl
        simp [free] at waiting
      simpa [different] using waiting
  issued other wait waiting := by
    by_cases own : number = other
    · simp only [own, if_true, Option.some.injEq] at waiting
      simp [← waiting, InputQueue.request]
    · have given := custody.issued other wait (by simpa [own] using waiting)
      exact Nat.le_succ_of_le given
  stands other wait waiting := by
    rw [isPending_request]
    by_cases own : number = other
    · simp only [own, if_true, Option.some.injEq] at waiting
      subst waiting
      exact ⟨fun _ => custody.unanswered (Nat.lt_succ_self _), fun _ => .inr rfl⟩
    · rw [if_neg own] at waiting
      have given := custody.issued other wait waiting
      have old : wait.id ≠ queue.issued + 1 := by omega
      simpa [old] using custody.stands other wait waiting
  single first second wait other one two same := by
    -- The new number is larger than those of the older requests.
    have new : ∀ place held, waits place = some held → held.id ≠ queue.issued + 1 := by
      intro place held waiting
      have given := custody.issued place held waiting
      omega
    by_cases firstOwn : number = first <;> by_cases secondOwn : number = second
    · exact firstOwn.symm.trans secondOwn
    · rw [if_pos firstOwn, Option.some.injEq] at one
      rw [if_neg secondOwn] at two
      exact absurd (same.symm.trans (congrArg InputWait.id one.symm)) (new second other two)
    · rw [if_neg firstOwn] at one
      rw [if_pos secondOwn, Option.some.injEq] at two
      exact absurd (same.trans (congrArg InputWait.id two.symm)) (new first wait one)
    · rw [if_neg firstOwn] at one
      rw [if_neg secondOwn] at two
      exact custody.single first second wait other one two same

lemma oldest_lt (pending : queue.pending = oldest :: rest) :
    ∀ request ∈ rest, oldest.id < request.id := by
  intro request mem
  have increasing := custody.increasing
  rw [pending, map_cons, pairwise_cons] at increasing
  exact increasing.1 request.id (mem_map_of_mem mem)

lemma answered (pending : queue.pending = oldest :: rest)
    (text) : (queue.answered oldest rest text).Custody waits where
  increasing := by
    have increasing := custody.increasing
    rw [pending, map_cons, pairwise_cons] at increasing
    exact increasing.2
  asked id standing := by
    apply custody.asked id
    rw [answer?_answered] at standing
    by_cases same : oldest.id = id
    · exact .inl ((isPending_of_pending pending).mpr (.inl same))
    · rw [if_neg same] at standing
      refine standing.imp_left fun later => (isPending_of_pending pending).mpr (.inr later)
  issued := custody.issued
  stands number wait waiting := by
    have before := custody.stands number wait waiting
    rw [isPending_of_pending pending] at before
    rw [answer?_answered]
    by_cases same : oldest.id = wait.id
    · have gone : ¬(queue.answered oldest rest text).IsPending wait.id := by
        rintro ⟨request, mem, _⟩
        have larger := custody.oldest_lt pending request mem
        omega
      simp [gone, same]
    · simpa [same, isPending_answered] using before
  single := custody.single

lemma cancelAll : queue.cancelAll.1.Custody waits where
  increasing := .nil
  asked id standing := by
    apply custody.asked id
    rw [answer?_cancelAll] at standing
    by_cases pending : queue.IsPending id
    · exact .inl pending
    · simpa [pending, not_isPending_cancelAll] using standing
  issued := custody.issued
  stands number wait waiting := by
    have before := custody.stands number wait waiting
    rw [answer?_cancelAll]
    by_cases pending : queue.IsPending wait.id
    · simp [pending, not_isPending_cancelAll]
    · simpa [pending, not_isPending_cancelAll] using before
  single := custody.single

lemma release (waiting : waits number = some wait)
    (later : InputQueue) (increasing : (later.pending.map InputRequest.id).Pairwise (· < ·))
    (issued : later.issued = queue.issued)
    (gone : ¬later.IsPending wait.id ∧ later.answer? wait.id = none) (others : ∀ id, id ≠ wait.id →
      (later.IsPending id ↔ queue.IsPending id) ∧ later.answer? id = queue.answer? id) :
    later.Custody fun other => if number = other then none else waits other where
  increasing := increasing
  asked id standing := by
    by_cases own : id = wait.id
    · subst own
      simp [gone] at standing
    · rw [(others id own).1, (others id own).2] at standing
      obtain ⟨other, held, waitingToo, same⟩ := custody.asked id standing
      refine ⟨other, held, ?_, same⟩
      have different : number ≠ other := by
        rintro rfl
        rw [waiting, Option.some.injEq] at waitingToo
        exact own (waitingToo ▸ same.symm)
      rwa [if_neg different]
  issued other held waitingToo := by
    split at waitingToo
    · cases waitingToo
    · exact issued ▸ custody.issued other held waitingToo
  stands other held waitingToo := by
    split at waitingToo
    · cases waitingToo
    · rename_i different
      have distinct : held.id ≠ wait.id := fun same =>
        different (custody.single number other wait held waiting waitingToo same.symm)
      rw [(others held.id distinct).1, (others held.id distinct).2]
      exact custody.stands other held waitingToo
  single first second held other one two same := by
    split at one
    · cases one
    · split at two
      · cases two
      · exact custody.single first second held other one two same

lemma outcome (waiting : waits number = some wait)
    (comes : wait.outcome? queue now = some (answer, later)) :
    later.Custody fun other => if number = other then none else waits other := by
  have stands := custody.stands number wait waiting
  rcases InputWait.outcome?_cases comes with ⟨present, rfl⟩ | ⟨absent, -, -, rfl⟩
  · apply custody.release waiting (queue.collect wait.id) custody.increasing rfl
    · exact ⟨by simp [stands, present], by simp [answer?_collect]⟩
    · intro _ other
      exact ⟨Iff.rfl, by simp [answer?_collect, Ne.symm other]⟩
  · apply custody.release waiting (queue.withdraw wait.id) _ rfl
    · exact ⟨by simp [isPending_withdraw], absent⟩
    · intro _ other
      exact ⟨by simp [isPending_withdraw, other], rfl⟩
    · exact custody.increasing.sublist (filter_sublist.map _)

end Custody

end InputQueue

end Stepper
