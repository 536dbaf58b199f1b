import Stepper.Proofs.InputCustody
import Stepper.Proofs.Moves

/-! # Requests for input are resolved once and in order -/

namespace Stepper

open InputQueue Host HostCall

/-- Whether a move is one on the input queue: a request is started, a text submitted, everything
cancelled, time passes or a task gets a slice. -/
def Move.isInput : Move → Bool
  | .call (.start (.request _ _ _)) _ | .call (.submit _) _ | .call .cancelInputs _ => true
  | .wait _ | .slice _ => true
  | _ => false

namespace Task

def wait? : Task → Option InputWait
  | .awaiting wait => some wait
  | _ => none

def isRequest : Task → Bool
  | .request _ _ _ | .awaiting _ | .finished (.input _) => true
  | _ => false

lemma slice_request (e) (prompt) (limit) (validator) :
    slice e (.request prompt limit validator) =
      awaitInput (e.askInput prompt validator).1 ⟨e.inputs.issued + 1, e.now, limit⟩ := rfl

lemma awaitInput_some {after : InputQueue} (comes : wait.outcome? e.inputs e.now = some (answer,
    after)) : awaitInput e wait = ({ e with inputs := after }, .finished (.input answer)) := by
  simp [awaitInput, comes]

lemma awaitInput_none (waiting : wait.outcome? e.inputs e.now = none) :
    awaitInput e wait = (e, .awaiting wait) := by
  simp [awaitInput, waiting]

end Task

namespace Host

def waits (h : Host) (number : Nat) : Option InputWait := (h.task? number).bind Task.wait?

/-- Whether a task waits for an input, or begins to in its next slice, and with which queue. -/
inductive Asks (h : Host) (number : Nat) : InputWait → InputQueue → Prop where
  | again {wait : InputWait} (found : h.task? number = some (.awaiting wait)) :
    Asks h number wait h.engine.inputs
  | first (found : h.task? number = some (.request prompt limit validator)) : Asks h number
      ⟨h.engine.inputs.issued + 1, h.engine.now, limit⟩ (h.engine.inputs.request prompt validator).1

/-- The ways in which a request leaves the queue, each with its answer: the host submits a text that the
oldest request accepts, it cancels all, or the time of the request is up. -/
inductive Removal (h : Host) : Move → Nat → InputAnswer → Prop where
  | submission {text : String} {immediate : (submit text).isImmediate = true}
    {oldest : InputRequest} {rest : List InputRequest}
    (pending : h.engine.inputs.pending = oldest :: rest)
    (accepted : (h.perform (.submit text)).2 = .done) :
    Removal h (.call (.submit text) immediate) oldest.id (.ok text)
  | cancellation {id : Nat} {immediate : cancelInputs.isImmediate = true}
    (pending : h.engine.inputs.IsPending id) :
    Removal h (.call .cancelInputs immediate) id (.error .cancelled)
  | expiry (asks : h.Asks number wait queue) (unanswered : queue.answer? wait.id = none)
      (expired : wait.isOver h.engine.now = true) : Removal h (.slice number) wait.id
      (.error (.timedOut (wait.limit.getD 0)))

inductive Handles (h : Host) (move : Move) (later : Host) : Prop where
  | still (inputs : later.engine.inputs = h.engine.inputs) (waits : later.waits = h.waits)
    (tasks : ∀ number task, later.task? number = some task → h.task? number = some task ∨
      ∃ prompt limit validator, task = .request prompt limit validator)
  | answers (text : String) (immediate : (submit text).isImmediate = true)
    (oldest : InputRequest) (rest : List InputRequest)
    (own : move = .call (.submit text) immediate)
    (pending : h.engine.inputs.pending = oldest :: rest)
    (accepted : (h.perform (.submit text)).2 = .done)
    (inputs : later.engine.inputs = h.engine.inputs.answered oldest rest text)
    (tasks : later.task? = h.task?)
  | cancels (immediate : cancelInputs.isImmediate = true)
    (own : move = .call .cancelInputs immediate)
    (inputs : later.engine.inputs = h.engine.inputs.cancelAll.1)
    (tasks : later.task? = h.task?)
  | remains (number : Nat) (wait : InputWait) (queue : InputQueue) (own : move = .slice number)
    (asks : h.Asks number wait queue) (waiting : wait.outcome? queue h.engine.now = none)
    (inputs : later.engine.inputs = queue)
    (tasks : ∀ other, later.task? other =
      if number = other then some (.awaiting wait) else h.task? other)
  | concludes (number : Nat) (wait : InputWait) (queue : InputQueue) (answer : InputAnswer)
    (own : move = .slice number) (asks : h.Asks number wait queue)
    (comes : wait.outcome? queue h.engine.now = some (answer, later.engine.inputs))
    (tasks : ∀ other, later.task? other =
      if number = other then some (.finished (.input answer)) else h.task? other)

variable {h later : Host} {move : Move} {number id : Nat} {wait : InputWait} {queue : InputQueue}
  {answer : InputAnswer}

lemma waits_of_task? (tasks : later.task? = h.task?) : later.waits = h.waits := by
  funext number
  simp only [waits, tasks]

lemma waits_eq_some : h.waits number = some wait ↔ h.task? number = some (.awaiting wait) := by
  unfold waits
  cases h.task? number with
  | none => simp
  | some task => cases task <;> simp [Task.wait?]

lemma Asks.concludes {after : InputQueue} (asks : h.Asks number wait queue)
    (comes : wait.outcome? queue h.engine.now = some (answer, after)) : (h.sliceOf number).engine.inputs
    = after ∧ ∀ other, (h.sliceOf number).task? other = if number = other then some
    (.finished (.input answer)) else h.task? other := by
  cases asks with
  | @first prompt _ validator found =>
    have came := Task.awaitInput_some (e := (h.engine.askInput prompt validator).1) comes
    simp only [sliceOf, found, Task.isReady, if_true, Task.slice_request, came]
    exact ⟨rfl, task?_after found _ _⟩
  | again found =>
    have came := Task.awaitInput_some comes
    simp only [sliceOf, found, Task.isReady, comes, Option.isSome_some, if_true, Task.slice, came]
    exact ⟨rfl, task?_after found _ _⟩

lemma Asks.remains (asks : h.Asks number wait queue)
    (waiting : wait.outcome? queue h.engine.now = none) : (h.sliceOf number).engine.inputs = queue ∧ ∀
    other, (h.sliceOf number).task? other = if number = other then some (.awaiting wait) else h.task?
    other := by
  cases asks with
  | @first prompt _ validator found =>
    have came := Task.awaitInput_none (e := (h.engine.askInput prompt validator).1) waiting
    simp only [sliceOf, found, Task.isReady, if_true, Task.slice_request, came]
    exact ⟨rfl, task?_after found _ _⟩
  | again found =>
    have same : h.sliceOf number = h := by simp [sliceOf, found, Task.isReady, waiting]
    rw [same]
    refine ⟨rfl, fun other => ?_⟩
    split
    · rename_i own
      rw [← own, found]
    · rfl

lemma Asks.handles (asks : h.Asks number wait queue) :
    h.Handles (.slice number) (h.sliceOf number) := by
  cases outcome : wait.outcome? queue h.engine.now with
  | none =>
    obtain ⟨inputs, tasks⟩ := asks.remains outcome
    exact .remains number wait queue rfl asks outcome inputs tasks
  | some result =>
    obtain ⟨answer, _⟩ := result
    obtain ⟨inputs, tasks⟩ := asks.concludes outcome
    exact .concludes number wait queue answer rfl asks (inputs ▸ outcome) tasks

structure IsDesk (h : Host) : Prop where
  orderly : h.Orderly
  requests : ∀ number task, h.task? number = some task → task.isRequest = true
  custody : h.engine.inputs.Custody h.waits

lemma observed_desk (config) : (observed config).IsDesk where
  orderly := observed_orderly config
  requests := by simp [observed, ofConfig, task?]
  custody := .empty

lemma submit_cases (h : Host) (text) : (∃ oldest rest, h.engine.inputs.pending = oldest :: rest ∧
      (h.perform (.submit text)).2 = .done ∧ (h.perform (.submit text)).1.engine.inputs =
      h.engine.inputs.answered oldest rest text) ∨
    (∃ error, (h.perform (.submit text)).2 = .inputError error) ∧
    (h.perform (.submit text)).1.engine.inputs = h.engine.inputs := by
  rcases h.engine.inputs.submit_cases text with
    ⟨oldest, rest, pending, inputs, accepted⟩ | ⟨inputs, error, refused⟩
  · refine .inl ⟨oldest, rest, pending, ?_, ?_⟩ <;>
      simp [perform, Engine.answerInput, accepted, inputs, withEngine, Engine.announce]
  · refine .inr ⟨⟨error, ?_⟩, ?_⟩ <;>
      simp [perform, Engine.answerInput, refused, inputs, withEngine, Engine.announce]

lemma task?_submit (h : Host) (text) : (h.perform (.submit text)).1.task? = h.task? := by
  simp only [perform]
  split <;> rfl

lemma IsDesk.handles_start (desk : h.IsDesk) (prompt) (limit) (validator) :
    h.Handles move (h.start (.request prompt limit validator)).1 := by
  have tasks := fun number =>
    task?_start h (.request prompt limit validator) number desk.orderly.bounded
  apply Handles.still
  · rfl
  · funext number
    simp only [waits, tasks]
    split
    · rename_i new
      have unknown : h.task? number = none := by
        cases found : h.task? number with
        | none => rfl
        | some => exact absurd new (desk.orderly.given found)
      rw [unknown]
      rfl
    · rfl
  · intro _ _ found
    rw [tasks] at found
    split at found
    · cases found
      exact .inr ⟨prompt, limit, validator, rfl⟩
    · exact .inl found

lemma IsDesk.handles (desk : h.IsDesk) (input : move.isInput = true) :
    h.Handles move (h.move move) := by
  cases move with
  | wait => exact .still rfl rfl fun _ _ found => .inl found
  | slice number =>
    cases found : h.task? number with
    | none =>
      have same : h.move (.slice number) = h := by simp [move, sliceOf, found]
      rw [same]
      exact .still rfl rfl fun _ _ found => .inl found
    | some task =>
      have request := desk.requests number task found
      cases task with
      | execute | executing => cases request
      | request => exact (Asks.first found).handles
      | awaiting => exact (Asks.again found).handles
      | finished =>
        have same : h.move (.slice number) = h := by simp [move, sliceOf, found, Task.isReady]
        rw [same]
        exact .still rfl rfl fun _ _ found => .inl found
  | call call immediate =>
    cases call with
    | start task =>
      cases task with
      | request prompt limit validator => exact desk.handles_start prompt limit validator
      | _ => cases input
    | submit text =>
      rcases h.submit_cases text with ⟨oldest, rest, pending, accepted, inputs⟩ | ⟨-, inputs⟩
      · exact .answers text immediate oldest rest rfl pending accepted inputs (h.task?_submit text)
      · have tasks : (h.move (.call (.submit text) immediate)).task? = h.task? := h.task?_submit text
        exact .still inputs (waits_of_task? tasks) fun _ _ found => .inl (tasks ▸ found)
    | cancelInputs => exact .cancels immediate rfl rfl rfl
    | _ => cases input

lemma waits_of_slice (tasks : ∀ other, later.task? other = if number = other then some task else h.task?
      other) : later.waits = fun other => if number = other then task.wait? else h.waits other := by
  funext other
  simp only [waits, tasks]
  split <;> rfl

lemma Asks.custody (asks : h.Asks number wait queue) (custody : h.engine.inputs.Custody h.waits) :
    queue.Custody fun other => if number = other then some wait else h.waits other := by
  cases asks with
  | first found =>
    apply custody.request
    simp [waits, found, Task.wait?]
  | again found =>
    have same : (fun other => if number = other then some wait else h.waits other) = h.waits := by
      funext other
      split
      · rename_i own
        simp [← own, waits, found, Task.wait?]
      · rfl
    rwa [same]

lemma Handles.custody (handles : h.Handles move later) (custody : h.engine.inputs.Custody h.waits) :
    later.engine.inputs.Custody later.waits := by
  cases handles with
  | still inputs waits => rwa [inputs, waits]
  | answers text _ _ _ _ pending _ inputs tasks =>
    rw [inputs, waits_of_task? tasks]
    exact custody.answered pending text
  | cancels _ _ inputs tasks =>
    rw [inputs, waits_of_task? tasks]
    exact custody.cancelAll
  | remains _ _ _ _ asks _ inputs tasks =>
    rw [inputs, waits_of_slice tasks]
    exact asks.custody custody
  | concludes number wait _ _ _ asks comes tasks =>
    rw [waits_of_slice tasks]
    have released := (asks.custody custody).outcome (if_pos rfl) comes
    have same : (fun other => if number = other then none else
        if number = other then some wait else h.waits other) =
        fun other => if number = other then (none : Option InputWait) else h.waits other := by
      funext other
      split <;> rfl
    exact same ▸ released

lemma Handles.requests (handles : h.Handles move later)
    (requests : ∀ number task, h.task? number = some task → task.isRequest = true) (number) (task)
    (found : later.task? number = some task) : task.isRequest := by
  cases handles with
  | still _ _ tasks =>
    rcases tasks number task found with old | ⟨prompt, limit, validator, rfl⟩
    · exact requests number task old
    · rfl
  | answers _ _ _ _ _ _ _ _ tasks =>
    exact requests number task (tasks ▸ found)
  | cancels _ _ _ tasks => exact requests number task (tasks ▸ found)
  | remains _ _ _ _ _ _ _ tasks =>
    rw [tasks] at found
    split at found
    · cases found
      rfl
    · exact requests number task found
  | concludes _ _ _ _ _ _ _ tasks =>
    rw [tasks] at found
    split at found
    · cases found
      rfl
    · exact requests number task found

lemma IsDesk.after (desk : h.IsDesk) (input : move.isInput) : (h.move move).IsDesk where
  orderly := desk.orderly.move move
  requests := (desk.handles input).requests desk.requests
  custody := (desk.handles input).custody desk.custody

section
variable (asks : h.Asks number wait queue)
include asks

lemma Asks.issued_le : h.engine.inputs.issued ≤ queue.issued := by
  cases asks with
  | first => exact Nat.le_succ _
  | again => exact Nat.le_refl _

lemma Asks.answer? : queue.answer? id = h.engine.inputs.answer? id := by
  cases asks <;> rfl

lemma Asks.isPending (before : h.engine.inputs.IsPending id) : queue.IsPending id := by
  cases asks with
  | first => exact (isPending_request _ _).mpr (.inl before)
  | again => exact before

lemma Asks.isPending_before (pending : queue.IsPending id) :
    h.engine.inputs.IsPending id ∨ h.engine.inputs.issued < id := by
  cases asks with
  | first =>
    rcases (isPending_request _ _).mp pending with before | new
    · exact .inl before
    · exact .inr (new ▸ Nat.lt_succ_self _)
  | again => exact .inl pending

end

section
variable (handles : h.Handles move later)
include handles

lemma Handles.issued_le : h.engine.inputs.issued ≤ later.engine.inputs.issued := by
  cases handles with
  | still inputs => exact Nat.le_of_eq (congrArg issued inputs.symm)
  | answers _ _ _ _ _ _ _ inputs =>
    rw [inputs]
    exact Nat.le_refl _
  | cancels _ _ inputs =>
    rw [inputs]
    exact Nat.le_refl _
  | remains _ _ _ _ asks _ inputs => exact inputs ▸ asks.issued_le
  | concludes _ _ _ _ _ asks comes =>
    rcases InputWait.outcome?_cases comes with ⟨-, inputs⟩ | ⟨-, -, -, inputs⟩ <;>
      exact inputs ▸ asks.issued_le

lemma Handles.isPending_before (pending : later.engine.inputs.IsPending id) :
    h.engine.inputs.IsPending id ∨ h.engine.inputs.issued < id := by
  cases handles with
  | still inputs => exact .inl (inputs ▸ pending)
  | answers _ _ _ _ _ before _ inputs =>
    rw [inputs, isPending_answered] at pending
    exact .inl ((isPending_of_pending before).mpr (.inr pending))
  | cancels _ _ inputs =>
    rw [inputs] at pending
    exact absurd pending not_isPending_cancelAll
  | remains _ _ _ _ asks _ inputs =>
    exact asks.isPending_before (inputs ▸ pending)
  | concludes _ _ _ _ _ asks comes =>
    rcases InputWait.outcome?_cases comes with ⟨-, inputs⟩ | ⟨-, -, -, inputs⟩
    · rw [inputs, isPending_collect] at pending
      exact asks.isPending_before pending
    · rw [inputs, isPending_withdraw] at pending
      exact asks.isPending_before pending.1

lemma Handles.removal (before : h.engine.inputs.IsPending id)
    (gone : ¬later.engine.inputs.IsPending id) : ∃ answer, h.Removal move id answer := by
  cases handles with
  | still inputs => exact absurd (inputs ▸ before) gone
  | answers _ _ _ _ own pending accepted inputs =>
    subst own
    rw [inputs, isPending_answered] at gone
    rcases (isPending_of_pending pending).mp before with rfl | younger
    · exact ⟨_, .submission pending accepted⟩
    · exact absurd younger gone
  | cancels _ own =>
    subst own
    exact ⟨_, .cancellation before⟩
  | remains _ _ _ _ asks _ inputs =>
    rw [inputs] at gone
    exact absurd (asks.isPending before) gone
  | concludes _ wait _ _ own asks comes =>
    subst own
    have asked := asks.isPending before
    rcases InputWait.outcome?_cases comes with ⟨-, inputs⟩ | ⟨unanswered, late, -, inputs⟩
    · rw [inputs, isPending_collect] at gone
      exact absurd asked gone
    · rw [inputs, isPending_withdraw] at gone
      have own : id = wait.id := Decidable.not_not.mp fun other => gone ⟨asked, other⟩
      subst own
      exact ⟨_, .expiry asks unanswered late⟩

lemma Handles.answer_origin (answered : later.engine.inputs.answer? id = some answer) :
    h.engine.inputs.answer? id = some answer ∨ h.Removal move id answer := by
  cases handles with
  | still inputs => exact .inl (inputs ▸ answered)
  | answers _ _ _ _ own pending accepted inputs =>
    subst own
    rw [inputs, answer?_answered] at answered
    split at answered
    · rename_i same
      cases answered
      exact .inr (same ▸ .submission pending accepted)
    · exact .inl answered
  | cancels _ own inputs =>
    subst own
    rw [inputs, answer?_cancelAll] at answered
    split at answered
    · rename_i pending
      cases answered
      exact .inr (.cancellation pending)
    · exact .inl answered
  | remains _ _ _ _ asks _ inputs =>
    rw [inputs, asks.answer?] at answered
    exact .inl answered
  | concludes _ _ _ _ _ asks comes =>
    rcases InputWait.outcome?_cases comes with ⟨-, inputs⟩ | ⟨-, -, -, inputs⟩
    · rw [inputs, answer?_collect] at answered
      split at answered
      · cases answered
      · exact .inl (asks.answer?.symm.trans answered)
    · rw [inputs] at answered
      exact .inl (asks.answer?.symm.trans answered)

lemma Handles.keeps (custody : h.engine.inputs.Custody h.waits)
    (found : h.task? number = some (.awaiting wait))
    (answered : h.engine.inputs.answer? wait.id = some answer) (foreign : move ≠ .slice number) :
    later.task? number = some (.awaiting wait) ∧ later.engine.inputs.answer? wait.id = some answer := by
  have waiting : h.waits number = some wait := waits_eq_some.mpr found
  have resolved : ¬h.engine.inputs.IsPending wait.id := by
    rw [custody.stands number wait waiting, answered]
    simp
  cases handles with
  | still inputs waits =>
    exact ⟨waits_eq_some.mp (waits ▸ waiting), by rw [inputs, answered]⟩
  | answers _ _ oldest _ _ pending _ inputs tasks =>
    have other : oldest.id ≠ wait.id := fun same =>
      resolved ((isPending_of_pending pending).mpr (.inl same))
    rw [inputs, answer?_answered, if_neg other, tasks]
    exact ⟨found, answered⟩
  | cancels _ _ inputs tasks =>
    rw [inputs, answer?_cancelAll, if_neg resolved, tasks]
    exact ⟨found, answered⟩
  | remains place _ _ own asks _ inputs tasks =>
    have other : place ≠ number := fun same => foreign (same ▸ own)
    rw [inputs, asks.answer?, tasks, if_neg other]
    exact ⟨found, answered⟩
  | concludes place held _ _ own asks comes tasks =>
    have other : place ≠ number := fun same => foreign (same ▸ own)
    have distinct : held.id ≠ wait.id := by
      intro same
      apply other
      apply (asks.custody custody).single place number held wait (if_pos rfl) _ same
      rw [if_neg other, waiting]
    rw [tasks, if_neg other]
    refine ⟨found, ?_⟩
    rw [← answered, ← asks.answer?]
    rcases InputWait.outcome?_cases comes with ⟨-, inputs⟩ | ⟨-, -, -, inputs⟩
    · rw [inputs, answer?_collect, if_neg distinct]
    · rw [inputs]
      rfl

lemma Handles.ends (before : h.task? number ≠ some (.finished (.input answer)))
    (ended : later.task? number = some (.finished (.input answer))) : ∃ wait queue, move = .slice number
    ∧ h.Asks number wait queue ∧
    (h.engine.inputs.answer? wait.id = some answer ∨ h.Removal move wait.id answer) := by
  cases handles with
  | still _ _ tasks =>
    rcases tasks number _ ended with old | ⟨prompt, limit, validator, impossible⟩
    · exact absurd old before
    · cases impossible
  | answers _ _ _ _ _ _ _ _ tasks =>
    exact absurd (tasks ▸ ended) before
  | cancels _ _ _ tasks => exact absurd (tasks ▸ ended) before
  | remains _ _ _ _ _ _ _ tasks =>
    rw [tasks] at ended
    split at ended
    · cases ended
    · exact absurd ended before
  | concludes _ wait queue _ own asks comes tasks =>
    rw [tasks] at ended
    split at ended
    · rename_i same
      subst same
      cases ended
      refine ⟨wait, queue, own, asks, ?_⟩
      rcases InputWait.outcome?_cases comes with ⟨answered, -⟩ | ⟨unanswered, late, rfl, -⟩
      · exact .inl (asks.answer?.symm.trans answered)
      · exact .inr (own ▸ .expiry asks unanswered late)
    · exact absurd ended before

end

lemma Asks.unique (asks : h.Asks number wait queue) (asks' : h.Asks number other queue') :
    wait = other ∧ queue = queue' := by
  cases asks with
  | again found =>
    cases asks' with
    | again found' =>
      cases found.symm.trans found'
      exact ⟨rfl, rfl⟩
    | first found' => cases found.symm.trans found'
  | first found =>
    cases asks' with
    | again found' => cases found.symm.trans found'
    | first found' =>
      cases found.symm.trans found'
      exact ⟨rfl, rfl⟩

section
variable (removal : h.Removal move id answer)
include removal

lemma Removal.unique (removal' : h.Removal move id answer') : answer = answer' := by
  generalize same : id = id' at removal'
  cases removal with
  | submission => cases removal'; rfl
  | cancellation => cases removal'; rfl
  | expiry asks =>
    cases removal' with
    | expiry asks' =>
      obtain ⟨rfl, -⟩ := asks.unique asks'
      rfl

lemma Removal.before (custody : h.engine.inputs.Custody h.waits) :
    h.engine.inputs.IsPending id ∨ h.engine.inputs.issued < id := by
  cases removal with
  | submission pending =>
    exact .inl ((isPending_of_pending pending).mpr (.inl rfl))
  | cancellation pending => exact .inl pending
  | expiry asks unanswered =>
    exact asks.isPending_before (((asks.custody custody).stands _ _ (if_pos rfl)).mpr unanswered)

lemma Removal.after (custody : h.engine.inputs.Custody h.waits) :
    ¬(h.move move).engine.inputs.IsPending id ∧ id ≤ (h.move move).engine.inputs.issued := by
  cases removal with
  | @submission text _ _ _ pending accepted =>
    rcases h.submit_cases text with ⟨first, others, same, -, inputs⟩ | ⟨⟨error, refused⟩, -⟩
    · cases pending.symm.trans same
      simp only [move, inputs]
      constructor
      · rintro ⟨request, mem, _⟩
        have larger := custody.oldest_lt pending request mem
        omega
      · exact custody.bounded ((isPending_of_pending pending).mpr (.inl rfl))
    · cases accepted.symm.trans refused
  | cancellation pending =>
    exact ⟨not_isPending_cancelAll, custody.bounded pending⟩
  | @expiry number wait _ asks unanswered expired =>
    simp only [move, (asks.concludes (InputWait.outcome?_over unanswered expired)).1]
    constructor
    · simp [isPending_withdraw]
    · exact (asks.custody custody).issued number wait (if_pos rfl)

end

/-- The host after the first moves of a schedule. -/
def deskAt (config : Config) (schedule : Nat → Move) : Nat → Host
  | 0 => observed config
  | n + 1 => (deskAt config schedule n).move (schedule n)

section Schedules
variable {plan : Nat → Move} {m n : Nat}

section
variable (input : ∀ n, (plan n).isInput = true)
include input

lemma deskAt_desk (n) : (deskAt config plan n).IsDesk := by
  induction n with
  | zero => exact observed_desk config
  | succ n ih => exact ih.after (input n)

lemma deskAt_handles (n) :
    (deskAt config plan n).Handles (plan n) (deskAt config plan (n + 1)) :=
  (deskAt_desk input n).handles (input n)

lemma issued_mono (earlier : m ≤ n) : (deskAt config plan m).engine.inputs.issued ≤
    (deskAt config plan n).engine.inputs.issued := by
  induction earlier with
  | refl => exact Nat.le_refl _
  | @step n _ ih =>
    exact Nat.le_trans ih (deskAt_handles input n).issued_le

lemma isPending_earlier (earlier : m ≤ n)
    (pending : (deskAt config plan n).engine.inputs.IsPending id) :
    (deskAt config plan m).engine.inputs.IsPending id ∨
    (deskAt config plan m).engine.inputs.issued < id := by
  induction earlier with
  | refl => exact .inl pending
  | @step n earlier ih =>
    rcases (deskAt_handles input n).isPending_before pending with before | new
    · exact ih before
    · exact .inr (Nat.lt_of_le_of_lt (issued_mono input earlier) new)

lemma exists_removal_of_answer?
    (answered : (deskAt config plan n).engine.inputs.answer? id = some answer) :
    ∃ m < n, (deskAt config plan m).Removal (plan m) id answer := by
  induction n with
  | zero => cases answered
  | succ n ih =>
    rcases (deskAt_handles input n).answer_origin answered with before | removal
    · obtain ⟨m, earlier, removal⟩ := ih before
      exact ⟨m, Nat.lt_succ_of_lt earlier, removal⟩
    · exact ⟨n, Nat.lt_succ_self n, removal⟩

lemma not_removal_later (removal : (deskAt config plan m).Removal (plan m) id answer)
    (later : m < n) : ¬(deskAt config plan n).Removal (plan n) id answer' := by
  intro again
  obtain ⟨gone, given⟩ := removal.after (deskAt_desk input m).custody
  have new : ¬(deskAt config plan (m + 1)).engine.inputs.issued < id := Nat.not_lt.mpr given
  rcases again.before (deskAt_desk input n).custody with pending | fresh
  · exact (isPending_earlier input later pending).elim gone new
  · exact new (Nat.lt_of_le_of_lt (issued_mono input later) fresh)

lemma removal_once (removal : (deskAt config plan m).Removal (plan m) id answer)
    (again : (deskAt config plan n).Removal (plan n) id answer') :
    m = n ∧ answer = answer' := by
  rcases Nat.lt_trichotomy m n with before | rfl | behind
  · exact absurd again (not_removal_later input removal before)
  · exact ⟨rfl, removal.unique again⟩
  · exact absurd removal (not_removal_later input again behind)

lemma answer_kept (earlier : m ≤ n)
    (found : (deskAt config plan m).task? number = some (.awaiting wait))
    (answered : (deskAt config plan m).engine.inputs.answer? wait.id = some answer)
    (unserved : ∀ k, m ≤ k → k < n → plan k ≠ .slice number) : (deskAt config plan n).task?
    number = some (.awaiting wait) ∧ (deskAt config plan n).engine.inputs.answer? wait.id = some
    answer := by
  induction earlier with
  | refl => exact ⟨found, answered⟩
  | @step n earlier ih =>
    obtain ⟨stillThere, kept⟩ := ih fun k since below =>
      unserved k since (Nat.lt_succ_of_lt below)
    exact (deskAt_handles input n).keeps (deskAt_desk input n).custody stillThere kept
      (unserved n earlier (Nat.lt_succ_self n))

lemma exists_removal_of_ended
    (before : (deskAt config plan n).task? number ≠ some (.finished (.input answer)))
    (ended : (deskAt config plan (n + 1)).task? number = some (.finished (.input answer))) : ∃ wait
    queue, (deskAt config plan n).Asks number wait queue ∧ ∃ m ≤ n,
    (deskAt config plan m).Removal (plan m) wait.id answer := by
  obtain ⟨wait, queue, _, asks, answered | removal⟩ := (deskAt_handles input n).ends before ended
  · obtain ⟨m, earlier, removal⟩ := exists_removal_of_answer? input answered
    exact ⟨wait, queue, asks, m, Nat.le_of_lt earlier, removal⟩
  · exact ⟨wait, queue, asks, n, Nat.le_refl n, removal⟩

end

lemma Removal.answered (removal : h.Removal move id answer) (custody : h.engine.inputs.Custody h.waits)
    (pending : h.engine.inputs.IsPending id) (found : h.task? number = some (.awaiting wait))
    (own : wait.id = id) : (move ≠ .slice number ∧ (h.move move).task? number = some (.awaiting wait) ∧
      (h.move move).engine.inputs.answer? wait.id = some answer) ∨
    (move = .slice number ∧ (h.move move).task? number = some (.finished (.input answer))) := by
  cases removal with
  | @submission text _ _ _ first accepted =>
    rcases h.submit_cases text with ⟨other, others, same, -, inputs⟩ | ⟨⟨error, refused⟩, -⟩
    · cases first.symm.trans same
      refine .inl ⟨by simp, ?_, ?_⟩
      · simp only [move, task?_submit, found]
      · simp only [move, inputs, answer?_answered, own, if_true]
    · cases accepted.symm.trans refused
  | cancellation =>
    refine .inl ⟨by simp, found, ?_⟩
    rw [own]
    exact answer?_cancelAll.trans (if_pos pending)
  | @expiry place held _ asks unanswered expired =>
    -- Both wait for the same request.
    have same : place = number := by
      by_cases other : place = number
      · exact other
      · apply (asks.custody custody).single place number held wait (if_pos rfl) _ own.symm
        rw [if_neg other, waits_eq_some.mpr found]
    subst same
    exact .inr ⟨rfl, by simp [move, (asks.concludes (InputWait.outcome?_over unanswered expired)).2]⟩

lemma delivered (input : ∀ n, (plan n).isInput = true)
    (pending : (deskAt config plan m).engine.inputs.IsPending id)
    (removal : (deskAt config plan m).Removal (plan m) id answer) : ∃ number, (∀ other, (∃ wait,
      (deskAt config plan m).task? other = some (.awaiting wait) ∧ wait.id = id) ↔ other = number) ∧
    ∀ n, m ≤ n → plan n = .slice number → (∀ k, m ≤ k → k < n → plan k ≠ .slice number) →
    (deskAt config plan (n + 1)).task? number = some (.finished (.input answer)) := by
  have custody : (deskAt config plan m).engine.inputs.Custody _ := (deskAt_desk input m).custody
  obtain ⟨number, wait, waiting, own⟩ := custody.asked id (.inl pending)
  have found := waits_eq_some.mp waiting
  refine ⟨number, fun other => ⟨?_, ?_⟩, ?_⟩
  · rintro ⟨held, foundToo, same⟩
    exact custody.single other number held wait (waits_eq_some.mpr foundToo) waiting
      (same.trans own.symm)
  · rintro rfl
    exact ⟨wait, found, own⟩
  · intro n later slice unserved
    rcases removal.answered custody pending found own with
      ⟨foreign, foundLater, answered⟩ | ⟨immediate, ended⟩
    · have behind : m < n := by
        rcases Nat.lt_or_eq_of_le later with behind | rfl
        · exact behind
        · exact absurd slice foreign
      obtain ⟨stillThere, kept⟩ := answer_kept input (Nat.succ_le_of_lt behind) foundLater answered
        fun k since below => unserved k (Nat.le_of_succ_le since) below
      simp [deskAt, slice, move,
        ((Asks.again stillThere).concludes (InputWait.outcome?_answered kept _)).2]
    · have now : m = n := by
        rcases Nat.lt_or_eq_of_le later with behind | same
        · exact absurd immediate (unserved m (Nat.le_refl m) behind)
        · exact same
      subst now
      exact ended

lemma submissions_increase (input : ∀ n, (plan n).isInput = true) (earlier : m < n)
    (first : (deskAt config plan m).Removal (plan m) id (.ok text))
    (second : (deskAt config plan n).Removal (plan n) id' (.ok text')) : id < id' := by
  have custody : (deskAt config plan m).engine.inputs.Custody _ := (deskAt_desk input m).custody
  generalize isFirst : plan m = move at first
  generalize isSecond : plan n = move' at second
  cases first with
  | @submission text _ oldest _ pending accepted =>
    cases second with
    | @submission text' _ _ _ pending' accepted' =>
      have waits := (isPending_of_pending pending').mpr (.inl rfl)
      have given := custody.bounded ((isPending_of_pending pending).mpr (.inl rfl))
      -- What is pending behind an accepted submission is younger than what it answered.
      rcases isPending_earlier input (Nat.le_of_lt earlier) waits with before | new
      · rcases (isPending_of_pending pending).mp before with same | ⟨younger, mem, same⟩
        · have again : (deskAt config plan n).Removal (plan n) oldest.id (.ok text') := by
            rw [isSecond, same]
            exact .submission pending' accepted'
          have removal : (deskAt config plan m).Removal (plan m) oldest.id (.ok text) := by
            rw [isFirst]
            exact .submission pending accepted
          exact absurd again (not_removal_later input removal earlier)
        · exact same ▸ custody.oldest_lt pending younger mem
      · exact Nat.lt_of_le_of_lt given new

end Schedules

/-- What holds of input requests in every schedule: each leaves the queue once and with one answer, which
is the one that its task ends with; the oldest is served first; a refused text changes nothing. -/
structure ServesInOrder (config : Config) (schedule : Nat → Move) : Prop where
  once : ∀ m n id answer answer', (deskAt config schedule m).Removal (schedule m) id answer →
    (deskAt config schedule n).Removal (schedule n) id answer' → m = n ∧ answer = answer'
  pending : ∀ n id, (deskAt config schedule n).engine.inputs.IsPending id →
    ¬(deskAt config schedule (n + 1)).engine.inputs.IsPending id →
    ∃ answer, (deskAt config schedule n).Removal (schedule n) id answer
  ends : ∀ n number answer,
    (deskAt config schedule n).task? number ≠ some (.finished (.input answer)) →
    (deskAt config schedule (n + 1)).task? number = some (.finished (.input answer)) →
    ∃ wait queue, (deskAt config schedule n).Asks number wait queue ∧
      ∃ m ≤ n, (deskAt config schedule m).Removal (schedule m) wait.id answer
  ended : ∀ n number answer, (deskAt config schedule n).task? number = some (.finished answer) →
    (deskAt config schedule (n + 1)).task? number = some (.finished answer)
  delivered : ∀ m id answer, (deskAt config schedule m).engine.inputs.IsPending id →
    (deskAt config schedule m).Removal (schedule m) id answer →
    ∃ number,
      (∀ other, (∃ wait, (deskAt config schedule m).task? other = some (.awaiting wait) ∧
        wait.id = id) ↔ other = number) ∧
      ∀ n, m ≤ n → schedule n = .slice number →
        (∀ k, m ≤ k → k < n → schedule k ≠ .slice number) →
        (deskAt config schedule (n + 1)).task? number = some (.finished (.input answer))
  accepted : ∀ n text immediate, schedule n = .call (.submit text) immediate →
    ((deskAt config schedule n).perform (.submit text)).2 = .done →
    ∃ id, (deskAt config schedule n).engine.inputs.IsPending id ∧
      (∀ other, (deskAt config schedule n).engine.inputs.IsPending other → id ≤ other) ∧
      (deskAt config schedule n).Removal (schedule n) id (.ok text) ∧
      ∀ other, (deskAt config schedule (n + 1)).engine.inputs.IsPending other ↔
        (deskAt config schedule n).engine.inputs.IsPending other ∧ other ≠ id
  refused : ∀ n text immediate error, schedule n = .call (.submit text) immediate →
    ((deskAt config schedule n).perform (.submit text)).2 = .inputError error →
    (deskAt config schedule (n + 1)).engine.inputs = (deskAt config schedule n).engine.inputs
  increasing : ∀ m n id id' text text', m < n →
    (deskAt config schedule m).Removal (schedule m) id (.ok text) →
    (deskAt config schedule n).Removal (schedule n) id' (.ok text') → id < id'
  cancelled : ∀ n immediate, schedule n = .call .cancelInputs immediate →
    (deskAt config schedule (n + 1)).engine.inputs.pending = [] ∧
    ∀ id, (deskAt config schedule n).engine.inputs.IsPending id →
      (deskAt config schedule n).Removal (schedule n) id (.error .cancelled)

lemma IsDesk.accepts (desk : h.IsDesk) (text : String) (immediate : (submit text).isImmediate)
    (accepted : (h.perform (.submit text)).2 = .done) : ∃ id, h.engine.inputs.IsPending id ∧
    (∀ other, h.engine.inputs.IsPending other → id ≤ other) ∧ h.Removal (.call (.submit text) immediate)
    id (.ok text) ∧ ∀ other, (h.move (.call (.submit text) immediate)).engine.inputs.IsPending other ↔
    h.engine.inputs.IsPending other ∧ other ≠ id := by
  rcases h.submit_cases text with ⟨oldest, rest, pending, -, inputs⟩ | ⟨⟨error, refused⟩, -⟩
  · have younger := desk.custody.oldest_lt pending
    have waiting : ∀ id, h.engine.inputs.IsPending id ↔ _ := fun _ =>
      isPending_of_pending pending
    refine ⟨oldest.id, (waiting _).mpr (.inl rfl), ?_, .submission pending accepted, ?_⟩
    · intro other standing
      rcases (waiting other).mp standing with same | ⟨request, mem, rfl⟩
      · exact Nat.le_of_eq same
      · exact Nat.le_of_lt (younger request mem)
    · intro _
      simp only [move, inputs, isPending_answered, waiting]
      constructor
      · rintro ⟨request, mem, rfl⟩
        have larger := younger request mem
        exact ⟨.inr ⟨request, mem, rfl⟩, by omega⟩
      · rintro ⟨same | later, different⟩
        · exact absurd same.symm different
        · exact later
  · cases accepted.symm.trans refused

/-- Whatever order requests, submissions, cancellations, the passing of time and the slices of the
requesters come in, requests are resolved once and in order. -/
theorem requests_served_in_order (config : Config) (schedule : Nat → Move)
    (input : ∀ n, (schedule n).isInput = true) : ServesInOrder config schedule where
  once m n id answer answer' first second := removal_once input first second
  pending n id before gone := (deskAt_handles input n).removal before gone
  ends n number answer before ended := exists_removal_of_ended input before ended
  ended n number answer finished := (deskAt_desk input n).orderly.finished finished (schedule n)
  delivered m id answer pending removal := delivered input pending removal
  accepted n text immediate own accepted := by
    have desk : (deskAt config schedule n).IsDesk := deskAt_desk input n
    simpa only [deskAt, own] using desk.accepts text immediate accepted
  refused n text immediate error own refused := by
    simp only [deskAt, own, move]
    rcases (deskAt config schedule n).submit_cases text with ⟨_, _, _, accepted, _⟩ | ⟨-, inputs⟩
    · cases accepted.symm.trans refused
    · exact inputs
  increasing m n id id' text text' earlier first second :=
    submissions_increase input earlier first second
  cancelled n immediate own := by
    simp only [deskAt, own]
    exact ⟨rfl, fun id pending => .cancellation pending⟩

def threeRequests : List Move :=
  [.call (.start (.request "first" (some 5) none)) rfl,
   .call (.start (.request "second" none (some fun text => if text = "" then some "empty" else none)))
    rfl,
   .call (.start (.request "third" none none)) rfl,
   .slice 1, .slice 2, .slice 3, .wait 5, .slice 1, .call (.submit "") rfl, .call (.submit "yes") rfl,
   .call .cancelInputs rfl, .call (.submit "late") rfl, .slice 3, .slice 2]

theorem threeRequests_served :
    (∀ n, (threeRequests.getD n (.wait 0)).isInput = true) ∧
      ServesInOrder {} (fun n => threeRequests.getD n (.wait 0)) ∧
      [1, 2, 3].map (deskAt {} (fun n => threeRequests.getD n (.wait 0)) 14).task? =
        [some (.finished (.input (.error (.timedOut 5)))), some (.finished (.input (.ok "yes"))),
          some (.finished (.input (.error .cancelled)))] := by
  have input : ∀ n, (threeRequests.getD n (.wait 0)).isInput = true := by
    intro n
    rw [List.getD_eq_getElem?_getD]
    cases found : threeRequests[n]? with
    | none => rfl
    | some move =>
      have all : threeRequests.all Move.isInput = true := by decide
      exact List.all_eq_true.mp all move (List.mem_of_getElem? found)
  exact ⟨input, requests_served_in_order {} _ input, rfl⟩

end Host

end Stepper
