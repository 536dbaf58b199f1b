import Stepper.Proofs.InputDelivery
import Stepper.Proofs.Uninterrupted

/-! # Scheduling -/

namespace Stepper

open Machine Notice

abbrev Move.submit (text : String) : Move := .call (.submit text) rfl

/-- Whether a move gives a task a slice, lets time pass or answers a request for input. -/
def Move.attends (number : Nat) : Move → Bool
  | .slice other => other == number
  | .wait _ => true
  | .call (.submit _) _ => true
  | .call _ _ => false

lemma Engine.Follows.hears {e later : Engine} (follows : e.Follows later)
    (observed : e.bus.IsObserved) : e.bus.heard.map untimed <+: later.bus.heard.map untimed := by
  obtain ⟨notices, bus⟩ := follows.bus
  rw [bus, (e.bus.announce_heard notices observed).2, List.map_append]
  exact List.prefix_append _ _

lemma Engine.begin_inputs {e start : Engine}
    (began : e.beginExecution source options = .ok (start, x)) : start.inputs = e.inputs := by
  have idle := (begin_follows began).1
  cases debug : options.debug || options.step with
  | false =>
    simp only [beginExecution, idle, debug, Bool.false_eq_true, if_false, Except.ok.injEq,
      Prod.mk.injEq] at began
    rw [← began.1]
    rfl
  | true =>
    have session (now : Engine) : (now.sessionFor source (analyze source)).1.inputs = now.inputs := by
      simp only [sessionFor]
      split
      · rfl
      · split <;> rfl
    simp only [beginExecution, idle, debug, Bool.false_eq_true, if_false, if_true, Except.ok.injEq,
      Prod.mk.injEq] at began
    rw [← began.1]
    exact session { e with running := true, aborting := false }

lemma Engine.end_pending (e : Engine) (x) (outputs) (bindings) (error : Option RuntimeError) :
    (e.endExecution x outputs bindings error).1.inputs.pending = [] := by
  simp only [endExecution]
  cases x.debug with
  | false => rfl
  | true =>
    simp only [if_true]
    split <;> rfl

namespace Launch
variable {config : Config} {source : String}

/-- The host gives the execution slices, lets time pass and answers requests for input, each one with the
answer for its number. -/
structure Answering (launch : Launch config source) (schedule : Nat → Move) (answers : Nat → String) :
    Prop where
  only : ∀ n, (schedule n).attends launch.number = true
  given : ∀ n text request rest, schedule n = .submit text →
    (launch.after schedule n).engine.inputs.pending = request :: rest → text = answers request.id

/-- The execution gets slices again and again, and no request for input waits forever. -/
structure Fair (launch : Launch config source) (schedule : Nat → Move) : Prop where
  turns : ∀ n, ∃ k, n ≤ k ∧ schedule k = .slice launch.number
  answered : ∀ n, ∃ k, n ≤ k ∧ (launch.after schedule k).engine.inputs.pending = []

/-- What was told after the first moves, without the times that were taken. -/
def heardAt (launch : Launch config source) (schedule : Nat → Move) (n : Nat) : List Notice :=
  (launch.after schedule n).heard.map untimed

structure Outset (launch : Launch config source) (start : Engine × Machine) (record : Execution) :
    Prop where
  begins : launch.host.engine.timeless.beginExecution source launch.options = .ok (start.1, record)
  machine : record.machine = some start.2
  unhurried : Machine.Unhurried start.1 start.2
  free : launch.host.engine.inputs.pending = []

def ending (record : Execution) (state : Engine × Machine) (error : Option RuntimeError) :
    Engine × ExecutionOutcome :=
  state.1.endExecution record state.2.outputs.toList (state.2.environment.locals .global) error

structure Unbegun (launch : Launch config source) (schedule : Nat → Move) (n : Nat) : Prop where
  found : (launch.after schedule n).task? launch.number = some (.execute source launch.options)
  still : (launch.after schedule n).engine.timeless = launch.host.engine.timeless

inductive Abreast (launch : Launch config source) (schedule : Nat → Move) (record : Execution) (n : Nat)
    (state : Engine × Machine) : Prop where
  | underway {x : Execution} {m : Machine}
      (active : (launch.after schedule n).task? launch.number = some (.executing x))
      (machine : x.machine = some m) (unfinished : ∀ error, m.control ≠ .finished error)
      (alike : x.timeless = { record with machine := some m.timeless })
      (same : outOfTime ((launch.after schedule n).engine, m) = state)
  | ended {outcome : ExecutionOutcome} {error : Option RuntimeError}
      (finished : state.2.control = .finished error)
      (returned : (launch.after schedule n).task? launch.number =
        some (.finished (.execution (.ok outcome))))
      (outcome : outcome.untimed = (ending record state error).2.untimed)
      (heard : launch.heardAt schedule n = (ending record state error).1.bus.heard.map untimed)
      (free : (launch.after schedule n).engine.inputs.pending = [])

/-- Two executions come to the same and publish the same, apart from how long things take. -/
structure Concurs {config' : Config} (launch : Launch config source) (schedule : Nat → Move)
    (launch' : Launch config' source) (schedule' : Nat → Move) : Prop where
  comparable : ∀ n n', launch.heardAt schedule n <+: launch'.heardAt schedule' n' ∨
    launch'.heardAt schedule' n' <+: launch.heardAt schedule n
  agrees : ∀ n n' outcome outcome',
    (launch.after schedule n).task? launch.number = some (.finished (.execution (.ok outcome))) →
    (launch'.after schedule' n').task? launch'.number = some (.finished (.execution (.ok outcome'))) →
    outcome.untimed = outcome'.untimed ∧ launch.heardAt schedule n = launch'.heardAt schedule' n'
  follows : launch'.Fair schedule' → ∀ n, ∃ n',
    launch.heardAt schedule n <+: launch'.heardAt schedule' n' ∧
    ∀ outcome,
      (launch.after schedule n).task? launch.number = some (.finished (.execution (.ok outcome))) →
      ∃ outcome', (launch'.after schedule' n').task? launch'.number =
        some (.finished (.execution (.ok outcome')))

section
variable {launch : Launch config source} {plan : Nat → Move} {answers : Nat → String}
  {start state : Engine × Machine} {record : Execution} {n : Nat} {x : Execution} {m : Machine}

lemma Answering.attends (answering : launch.Answering plan answers) (n) : plan n = .slice
    launch.number ∨ (∃ duration, plan n = .wait duration) ∨ ∃ text, plan n = .submit text := by
  have only := answering.only n
  cases move : plan n with
  | wait duration => exact .inr (.inl ⟨duration, rfl⟩)
  | slice other =>
    have same : other = launch.number := by simpa [move, Move.attends] using only
    exact .inl (same ▸ rfl)
  | call call =>
    cases call with
    | submit text => exact .inr (.inr ⟨text, rfl⟩)
    | _ => simp [move, Move.attends] at only

lemma after_wait (waits : plan n = .wait duration) : (launch.after plan (n + 1)).engine.timeless
    = (launch.after plan n).engine.timeless ∧ (launch.after plan (n + 1)).task? launch.number =
    (launch.after plan n).task? launch.number := by
  rw [launch.after_succ plan n, waits]
  exact ⟨rfl, rfl⟩

lemma after_submit (submits : plan n = .submit text) : (launch.after plan (n + 1)).engine =
    ((launch.after plan n).engine.answerInput text).1 ∧ (launch.after plan (n + 1)).task?
    launch.number = (launch.after plan n).task? launch.number := by
  rw [launch.after_succ plan n, submits]
  constructor
  · simp only [Host.move, Host.perform]
    split <;> rename_i answered <;> rw [answered] <;> rfl
  · exact congrFun (Host.task?_submit _ text) launch.number

lemma abreast_of_slice (slice : (launch.after plan n).OwnSlice launch.number e x m)
    (own : plan n = .slice launch.number) (ready : m.isReady e = true)
    (unhurried : Machine.Unhurried e m) (observed : e.bus.IsObserved)
    (alike : x.timeless = { record with machine := some m.timeless }) :
    ∃ steps, launch.Abreast plan record (n + 1)
      (uninterrupted answers (outOfTime (e, m)) (1 + steps)) := by
  obtain ⟨steps, same⟩ := slice_onward answers unhurried ready
  have moved := launch.after_succ plan n
  rw [own] at moved
  refine ⟨steps, ?_⟩
  rw [← same]
  cases slice with
  | runs unfinished engine task =>
    refine .underway (moved ▸ task) rfl unfinished ?_ ?_
    · exact congrArg
        (fun later : Execution => { later with machine := some (m.slice e).2.timeless }) alike
    · rw [moved, engine]
  | @ends error finished engine task =>
    have heard : (m.slice e).1.bus.IsObserved := by
      have grows := uninterrupted_follows answers (outOfTime (e, m))
        (Nat.zero_le (1 + steps))
      rw [← same] at grows
      exact grows.observed observed
    obtain ⟨outcome, told⟩ := (m.slice e).1.end_timeless x (m.slice e).2.outputs.toList
      ((m.slice e).2.environment.locals .global) error heard
    rw [alike] at outcome told
    refine .ended ?_ (moved ▸ task) outcome ?_ ?_
    · simp only [outOfTime, timeless, finished]
      rfl
    · rw [heardAt, Host.heard, moved, engine]
      exact told
    · rw [moved, engine]
      exact Engine.end_pending _ _ _ _ _

lemma Outset.begins_abreast (outset : launch.Outset start record)
    (own : plan n = .slice launch.number) (unbegun : launch.Unbegun plan n) :
    ∃ steps, launch.Abreast plan record (n + 1) (uninterrupted answers start steps) := by
  obtain ⟨found, still⟩ := unbegun
  have idle : (launch.after plan n).engine.running = false :=
    (congrArg Engine.running still).trans launch.idle
  obtain ⟨e, x, began⟩ : ∃ e x, (launch.after plan n).engine.beginExecution source launch.options =
      .ok (e, x) := by
    simp [Engine.beginExecution, idle]
  have outside := Engine.begin_timeless began
  rw [still, outset.begins] at outside
  obtain ⟨engine, execution⟩ := Prod.mk.inj (Except.ok.inj outside)
  obtain ⟨m, machine, same⟩ : ∃ m, x.machine = some m ∧ m.timeless = start.2 := by
    have mapped : x.machine.map timeless = some start.2 := by
      rw [← outset.machine, execution]
      rfl
    exact Option.map_eq_some_iff.mp mapped
  have starts : outOfTime (e, m) = start := Prod.ext engine.symm same
  have unhurried : Machine.Unhurried e m := by
    rw [← unhurried_timeless, same, ← engine]
    exact outset.unhurried
  have ready : m.isReady e := by
    obtain ⟨_, _, _, rfl⟩ :=
      Engine.begin_machine (launch.after_valid plan n) began machine
    exact ofTarget_isReady _ _ _ _ e
  have observed : e.bus.IsObserved :=
    (Engine.begin_follows began).2.1.observed (launch.after_orderly plan n).observed
  have alike : x.timeless = { record with machine := some m.timeless } := by
    rw [execution, same, ← outset.machine, execution]
  obtain ⟨steps, abreast⟩ := abreast_of_slice (Host.beginSlice found began machine) own ready unhurried
    observed alike
  exact ⟨1 + steps, starts ▸ abreast⟩

section
variable (abreast : launch.Abreast plan record n state)
include abreast

lemma Abreast.still (engine : (launch.after plan (n + 1)).engine.timeless = (launch.after plan
      n).engine.timeless) (task : (launch.after plan (n + 1)).task? launch.number = (launch.after
      plan n).task? launch.number) : launch.Abreast plan record (n + 1) state := by
  have bus : (launch.after plan (n + 1)).engine.bus = (launch.after plan n).engine.bus :=
    (congrArg Engine.bus engine :)
  have inputs : (launch.after plan (n + 1)).engine.inputs = (launch.after plan n).engine.inputs :=
    (congrArg Engine.inputs engine :)
  cases abreast with
  | underway active machine unfinished alike same =>
    refine .underway (task.trans active) machine unfinished alike ?_
    rw [← same]
    exact congrArg (fun later => (later, _)) engine
  | ended finished returned outcome heard free =>
    refine .ended finished (task.trans returned) outcome ?_ (inputs ▸ free)
    rw [← heard, heardAt, heardAt, Host.heard, bus]
    rfl

lemma Abreast.sliced (unhurried : Machine.Unhurried state.1 state.2)
    (own : plan n = .slice launch.number) : ∃ steps, launch.Abreast plan record (n + 1)
    (uninterrupted answers state steps) ∧ (state.2.isReady state.1 = true → 0 < steps) := by
  have moved := launch.after_succ plan n
  rw [own] at moved
  cases abreast with
  | @underway _ m active machine unfinished alike same =>
    subst same
    have unhurried := unhurried_timeless.mp unhurried
    have readyToo := isReady_timeless unhurried
    cases ready : m.isReady (launch.after plan n).engine with
    | true =>
      obtain ⟨steps, further⟩ := abreast_of_slice (Host.ownSlice active machine ready) own ready
        unhurried (launch.after_orderly plan n).observed alike
      exact ⟨1 + steps, further, fun _ => by omega⟩
    | false =>
      have same := moved.trans (Host.sliceOf_rests active machine ready)
      refine ⟨0, .underway (same ▸ active) machine unfinished alike (by rw [same]; rfl), ?_⟩
      intro goes
      simp [outOfTime, readyToo, ready] at goes
  | ended finished returned outcome heard free =>
    have same : launch.after plan (n + 1) = launch.after plan n := by
      rw [moved]
      simp [Host.move, Host.sliceOf, returned, Task.isReady]
    have ended : launch.Abreast plan record n state :=
      .ended finished returned outcome heard free
    refine ⟨0, ended.still (by rw [same]) (by rw [same]), ?_⟩
    simp [isReady, finished]

variable (answering : launch.Answering plan answers) (unhurried : Machine.Unhurried state.1 state.2)

include answering unhurried

lemma Abreast.answered (submits : plan n = .submit text) :
    ∃ steps, launch.Abreast plan record (n + 1) (uninterrupted answers state steps) := by
  obtain ⟨engine, task⟩ := after_submit submits
  cases pending : (launch.after plan n).engine.inputs.pending with
  | nil =>
    refine ⟨0, abreast.still ?_ task⟩
    rw [engine, answer_free text pending]
  | cons request rest =>
    cases abreast with
    | ended _ _ _ _ free => simp [free] at pending
    | @underway _ _ active machine unfinished alike same =>
      subst same
      have unhurried := unhurried_timeless.mp unhurried
      rcases unhurried.asking_or_free with asking | ⟨free, -⟩
      · obtain ⟨_, waiting⟩ := asking.pending
        have own : request.id = (launch.after plan n).engine.inputs.issued := by
          rw [pending] at waiting
          rw [(List.cons.inj waiting).1]
        have given := answering.given n text request rest submits pending
        rw [own] at given
        refine ⟨1, .underway (task.trans active) machine unfinished alike ?_⟩
        rw [engine, given]
        exact outOfTime_answer unhurried asking
      · cases free.symm.trans pending

lemma Abreast.next :
    ∃ steps, launch.Abreast plan record (n + 1) (uninterrupted answers state steps) := by
  rcases answering.attends n with own | ⟨duration, waits⟩ | ⟨text, submits⟩
  · obtain ⟨steps, further, -⟩ := abreast.sliced unhurried own
    exact ⟨steps, further⟩
  · obtain ⟨engine, task⟩ := after_wait waits
    exact ⟨0, abreast.still engine task⟩
  · exact abreast.answered answering unhurried submits

end

lemma Unbegun.next (unbegun : launch.Unbegun plan n) (outset : launch.Outset start record)
    (answering : launch.Answering plan answers) : launch.Unbegun plan (n + 1) ∨ ∃ steps,
    launch.Abreast plan record (n + 1) (uninterrupted answers start steps) := by
  rcases answering.attends n with own | ⟨duration, waits⟩ | ⟨text, submits⟩
  · exact .inr (outset.begins_abreast own unbegun)
  · obtain ⟨engine, task⟩ := after_wait waits
    exact .inl ⟨task.trans unbegun.found, engine.trans unbegun.still⟩
  · obtain ⟨engine, task⟩ := after_submit submits
    have free : (launch.after plan n).engine.inputs.pending = [] :=
      (congrArg (fun later => later.inputs.pending) unbegun.still :).trans outset.free
    refine .inl ⟨task.trans unbegun.found, ?_⟩
    rw [engine, answer_free text free, unbegun.still]

section
variable (outset : launch.Outset start record) (answering : launch.Answering plan answers)
include outset answering

lemma Outset.abreast (n) : launch.Unbegun plan n ∨ ∃ steps, launch.Abreast plan record n
    (uninterrupted answers start steps) := by
  induction n with
  | zero => exact .inl ⟨launch.given, rfl⟩
  | succ _ ih =>
    rcases ih with unbegun | ⟨steps, abreast⟩
    · exact unbegun.next outset answering
    · obtain ⟨more, further⟩ := abreast.next answering (outset.unhurried.uninterrupted steps)
      rw [uninterrupted_add] at further
      exact .inr ⟨steps + more, further⟩

lemma Outset.later (abreast : launch.Abreast plan record n (uninterrupted answers start steps))
    (behind : n ≤ l) :
    ∃ more, launch.Abreast plan record l (uninterrupted answers start (steps + more)) := by
  induction behind with
  | refl => exact ⟨0, abreast⟩
  | step _ ih =>
    obtain ⟨more, further⟩ := ih
    obtain ⟨extra, onward⟩ := further.next answering (outset.unhurried.uninterrupted (steps + more))
    rw [uninterrupted_add, Nat.add_assoc] at onward
    exact ⟨more + extra, onward⟩

end

lemma Abreast.pending (abreast : launch.Abreast plan record n state)
    (asking : Machine.IsAsking state.1 state.2) :
    (launch.after plan n).engine.inputs.pending ≠ [] := by
  obtain ⟨_, pending⟩ := asking.pending
  cases abreast with
  | underway _ _ _ _ same =>
    subst same
    intro free
    cases free.symm.trans pending
  | ended finished =>
    have unasking : state.2.asked? = none := by simp [asked?, finished]
    cases unasking.symm.trans asking.asked

section
variable (outset : launch.Outset start record) (answering : launch.Answering plan answers)
  (fair : launch.Fair plan)
include outset answering fair

lemma Outset.proceeds (abreast : launch.Abreast plan record n (uninterrupted answers start steps)) :
    ∃ l more, launch.Abreast plan record l (uninterrupted answers start (steps + 1 + more)) := by
  have unhurried : Machine.Unhurried (uninterrupted answers start steps).1 _ :=
    outset.unhurried.uninterrupted steps
  -- Whoever is further along later is done; otherwise the execution is where it was.
  have catches {l : Nat} (behind : n ≤ l) :
      (∃ more, launch.Abreast plan record l
        (uninterrupted answers start (steps + 1 + more))) ∨
      launch.Abreast plan record l (uninterrupted answers start steps) := by
    obtain ⟨more, there⟩ := outset.later answering abreast behind
    cases more with
    | zero => exact .inr there
    | succ more => exact .inl ⟨more, by rwa [Nat.add_right_comm, Nat.add_assoc]⟩
  cases ready : (uninterrupted answers start steps).2.isReady
      (uninterrupted answers start steps).1 with
  | true =>
    obtain ⟨l, behind, own⟩ := fair.turns n
    rcases catches behind with ⟨more, further⟩ | there
    · exact ⟨l, more, further⟩
    · obtain ⟨more, further, goes⟩ : ∃ more, launch.Abreast plan record (l + 1)
          (uninterrupted answers (uninterrupted answers start steps) more) ∧ _ :=
        there.sliced unhurried own
      obtain ⟨more, rfl⟩ := Nat.exists_eq_succ_of_ne_zero (Nat.ne_of_gt (goes ready))
      rw [uninterrupted_add] at further
      exact ⟨l + 1, more, by rwa [Nat.add_right_comm, Nat.add_assoc]⟩
  | false =>
    rcases unhurried.asking_or_free with asking | ⟨-, unasking | goes⟩
    · obtain ⟨l, behind, free⟩ := fair.answered n
      rcases catches behind with ⟨more, further⟩ | there
      · exact ⟨l, more, further⟩
      · exact absurd free (there.pending asking)
    · have stuck : uninterrupted answers start (steps + 1) =
          uninterrupted answers start steps := onward_stuck ready unasking
      exact ⟨n, 0, stuck ▸ abreast⟩
    · simp [ready] at goes

lemma Outset.reaches (goal) :
    ∃ n steps, goal ≤ steps ∧ launch.Abreast plan record n (uninterrupted answers start steps) := by
  induction goal with
  | zero =>
    obtain ⟨l, -, own⟩ := fair.turns 0
    rcases outset.abreast answering l with unbegun | ⟨steps, abreast⟩
    · obtain ⟨steps, abreast⟩ := outset.begins_abreast own unbegun
      exact ⟨l + 1, steps, Nat.zero_le _, abreast⟩
    · exact ⟨l, steps, Nat.zero_le _, abreast⟩
  | succ _ ih =>
    obtain ⟨_, steps, _, abreast⟩ := ih
    obtain ⟨l, more, further⟩ := outset.proceeds answering fair abreast
    exact ⟨l, steps + 1 + more, by omega, further⟩

end

lemma Outset.observed (outset : launch.Outset start record) (steps) :
    (uninterrupted answers start steps).1.bus.IsObserved := by
  have first := (Engine.begin_follows outset.begins).2.1.observed launch.orderly.observed
  exact (uninterrupted_follows answers start (Nat.zero_le steps)).observed first

lemma Abreast.hears (abreast : launch.Abreast plan record n state)
    (observed : state.1.bus.IsObserved) :
    state.1.bus.heard.map untimed <+: launch.heardAt plan n := by
  cases abreast with
  | underway _ _ _ _ same =>
    subst same
    exact List.prefix_rfl
  | ended _ _ _ heard =>
    rw [heard]
    exact (Engine.end_follows _ _ _ _ _).1.hears observed

lemma Unbegun.heard (unbegun : launch.Unbegun plan n) :
    launch.heardAt plan n = launch.host.engine.bus.heard.map untimed := by
  have same : (launch.after plan n).engine.bus = launch.host.engine.bus :=
    (congrArg Engine.bus unbegun.still :)
  rw [heardAt, Host.heard, same]

lemma Outset.hears (outset : launch.Outset start record) (answering : launch.Answering plan answers)
    (n) : launch.host.engine.bus.heard.map untimed <+: launch.heardAt plan n := by
  rcases outset.abreast answering n with unbegun | ⟨steps, abreast⟩
  · exact unbegun.heard ▸ List.prefix_rfl
  · have begins := (Engine.begin_follows outset.begins).2.1
    have follows := begins.trans (uninterrupted_follows answers start (Nat.zero_le steps))
    exact (follows.hears launch.orderly.observed).trans (abreast.hears (outset.observed steps))

end

section
variable {launch : Launch config source} {launch' : Launch config' source}
  {plan plan' : Nat → Move} {answers : Nat → String} {start state : Engine × Machine}
  {record : Execution} {n n' : Nat}

lemma Abreast.returns (abreast : launch.Abreast plan record n state)
    (finished : state.2.control = .finished error) : ∃ outcome, (launch.after plan n).task?
    launch.number = some (.finished (.execution (.ok outcome))) ∧ outcome.untimed =
    (ending record state error).2.untimed ∧ launch.heardAt plan n =
    (ending record state error).1.bus.heard.map untimed := by
  cases abreast with
  | @underway _ m _ _ unfinished _ same =>
    subst same
    have ended : m.control.timeless = .finished error := finished
    cases shape : m.control with
    | waiting wait => cases wait <;> simp [shape, Control.timeless] at ended
    | finished error => exact absurd shape (unfinished error)
    | _ => simp [shape, Control.timeless] at ended
  | ended finishedToo returned outcome heard =>
    cases finished.symm.trans finishedToo
    exact ⟨_, returned, outcome, heard⟩

variable (outset : launch.Outset start record)
include outset

lemma Outset.ended (answering : launch.Answering plan answers) {outcome : ExecutionOutcome}
      (returned : (launch.after plan n).task? launch.number = some (.finished (.execution (.ok
      outcome)))) : ∃ steps error, launch.Abreast plan record n (uninterrupted answers start steps)
    ∧ (uninterrupted answers start steps).2.control = .finished error ∧ outcome.untimed =
    (ending record (uninterrupted answers start steps) error).2.untimed := by
  rcases outset.abreast answering n with ⟨found, -⟩ | ⟨steps, abreast⟩
  · cases found.symm.trans returned
  · have there := abreast
    cases abreast with
    | underway active => cases active.symm.trans returned
    | ended finished returnedToo outcome =>
      cases returnedToo.symm.trans returned
      exact ⟨steps, _, there, finished, outcome⟩

lemma Outset.fair (answering : launch.Answering plan answers)
    (turns : ∀ n, ∃ k, n ≤ k ∧ plan k = .slice launch.number) (returned : (launch.after plan
      n).task? launch.number = some (.finished (.execution (.ok outcome)))) : launch.Fair plan := by
  constructor
  · exact turns
  · intro l
    have returnedToo : (launch.after plan (n + l)).task? launch.number =
        some (.finished (.execution (.ok outcome))) := by
      induction l with
      | zero => exact returned
      | succ l ih =>
        rw [← Nat.add_assoc, after_succ]
        exact (launch.after_orderly plan (n + l)).finished ih _
    refine ⟨n + l, Nat.le_add_left l n, ?_⟩
    obtain ⟨_, _, abreast, -⟩ := outset.ended answering returnedToo
    cases abreast with
    | underway active => cases active.symm.trans returnedToo
    | ended _ _ _ _ free => exact free

lemma Outset.hears_prefix
    (abreast : launch.Abreast plan record n (uninterrupted answers start steps))
    (abreast' : launch'.Abreast plan' record n' (uninterrupted answers start steps'))
    (ahead : steps ≤ steps') : launch.heardAt plan n <+: launch'.heardAt plan' n' := by
  have observed (steps) : (uninterrupted answers start steps).1.bus.IsObserved :=
    outset.observed steps
  cases abreast with
  | underway _ _ _ _ same =>
    have heard : launch.heardAt plan n =
        (uninterrupted answers start steps).1.bus.heard.map untimed := by
      rw [← same]
      rfl
    rw [heard]
    exact ((uninterrupted_follows answers start ahead).hears (observed steps)).trans
      (abreast'.hears (observed steps'))
  | ended finished _ _ heard =>
    rw [uninterrupted_finished finished ahead] at abreast'
    obtain ⟨-, -, -, heard'⟩ := abreast'.returns finished
    exact (heard.trans heard'.symm) ▸ List.prefix_rfl

lemma Outset.concurs (outset' : launch'.Outset start record)
    (alike : launch.host.engine.bus = launch'.host.engine.bus)
    (answering : launch.Answering plan answers) (answering' : launch'.Answering plan' answers) :
    launch.Concurs plan launch' plan' := by
  have early {n : Nat} (unbegun : launch.Unbegun plan n) (n') :
      launch.heardAt plan n <+: launch'.heardAt plan' n' := by
    rw [unbegun.heard, alike]
    exact outset'.hears answering' n'
  constructor
  · intro n n'
    rcases outset.abreast answering n with unbegun | ⟨steps, abreast⟩
    · exact .inl (early unbegun n')
    · rcases outset'.abreast answering' n' with unbegun' | ⟨steps', abreast'⟩
      · right
        rw [unbegun'.heard, ← alike]
        exact outset.hears answering n
      · rcases Nat.le_total steps steps' with ahead | ahead
        · exact .inl (outset.hears_prefix abreast abreast' ahead)
        · exact .inr (outset'.hears_prefix abreast' abreast ahead)
  · intro _ _ _ _ returned returned'
    obtain ⟨steps, _, abreast, finished, comes⟩ := outset.ended answering returned
    obtain ⟨steps', _, abreast', finished', comes'⟩ := outset'.ended answering' returned'
    have same : uninterrupted answers start steps' =
        uninterrupted answers start steps := by
      rcases Nat.le_total steps steps' with ahead | ahead
      · exact uninterrupted_finished finished ahead
      · exact (uninterrupted_finished finished' ahead).symm
    rw [same] at abreast' finished' comes'
    cases finished.symm.trans finished'
    obtain ⟨-, -, -, heard⟩ := abreast.returns finished
    obtain ⟨-, -, -, heard'⟩ := abreast'.returns finished
    exact ⟨comes.trans comes'.symm, heard.trans heard'.symm⟩
  · intro fair n
    rcases outset.abreast answering n with unbegun | ⟨steps, abreast⟩
    · refine ⟨0, early unbegun 0, ?_⟩
      intro _ returned
      cases unbegun.found.symm.trans returned
    · obtain ⟨n', _, ahead, abreast'⟩ := outset'.reaches answering' fair steps
      refine ⟨n', outset.hears_prefix abreast abreast' ahead, ?_⟩
      intro _ returned
      cases abreast with
      | underway active => cases active.symm.trans returned
      | ended finished =>
        rw [uninterrupted_finished finished ahead] at abreast'
        obtain ⟨outcome', returned', -⟩ := abreast'.returns finished
        exact ⟨outcome', returned'⟩

end

lemma sole_outset {options : ExecutionOptions} (parses : (analyze source).program.isSome)
    (unlimited : options.timeout.getD config.defaultTimeout = 0)
    (patient : config.inputTimeout = none) :
    ∃ start record, (sole config source options).Outset start record := by
  obtain ⟨program, parsed⟩ := Option.isSome_iff_exists.mp parses
  obtain ⟨e, x, m, began⟩ := Engine.begins parsed (sole config source options).valid
    (sole config source options).idle options
  refine ⟨(e.timeless, m.timeless), x.timeless, Engine.begin_timeless began.began, ?_,
    unhurried_timeless.mpr ?_, rfl⟩
  · simp [Execution.timeless, began.machine]
  · have limits : e.config = config :=
      (Engine.begin_follows began.began).2.1.config.trans (sole config source options).host_config
    have budget : options.timeout.getD (sole config source options).host.engine.config.defaultTimeout =
        0 := unlimited
    have queue : e.inputs = {} := Engine.begin_inputs began.began
    constructor
    · exact began.peaceful
    · rw [began.starts, if_pos budget]
      have records := ofTarget_ledger (.program program) e.now none
        (options.debug || options.step)
      exact congrArg Machine.Ledger.limit records
    · rw [limits]
      exact patient
    · rw [queue, began.starts]
      exact .free rfl rfl

/-- However executions of a source text that parses are scheduled, and however often they let others have
a turn, they come to the same and publish the same, given the same answers. -/
theorem schedules_concur (config : Config) (source : String) (options : ExecutionOptions)
    (parses : (analyze source).program.isSome = true)
    (unlimited : options.timeout.getD config.defaultTimeout = 0)
    (patient : config.inputTimeout = none) (interval interval' : Nat)
    (schedule schedule' : Nat → Move) (answers : Nat → String)
    (answering : (sole { config with yieldInterval := interval } source options).Answering schedule
      answers)
    (answering' : (sole { config with yieldInterval := interval' } source options).Answering schedule'
      answers) :
    (sole { config with yieldInterval := interval } source options).Concurs schedule
      (sole { config with yieldInterval := interval' } source options) schedule' := by
  obtain ⟨start, record, outset⟩ : ∃ start record,
      (sole { config with yieldInterval := interval } source options).Outset start record :=
    sole_outset parses unlimited patient
  have outset' : (sole { config with yieldInterval := interval' } source options).Outset start record :=
    ⟨outset.begins, outset.machine, outset.unhurried, outset.free⟩
  exact outset.concurs outset' rfl answering answering'

def answerAfter (moment : Nat) (n : Nat) : Move :=
  if n = moment then .submit "a"
  else if n % 4 = 3 then .wait 5
  else .slice 1

lemma answerAfter_answering (launch : Launch config source) (first : launch.number = 1) (moment)
    : launch.Answering (answerAfter moment) fun _ => "a" := by
  constructor
  · intro _
    unfold answerAfter
    split
    · rfl
    · split
      · rfl
      · simp [Move.attends, first]
  · intro _ _ _ _ submits
    unfold answerAfter at submits
    split at submits
    · cases submits
      exact fun _ => rfl
    · split at submits <;> cases submits

/-- The program that prints what it is told comes to the same whether it lets others have a turn after
every statement or never does. -/
theorem echo_schedules_concur :
    ((((sole { yieldInterval := 1 } echo { timeout := some 0 }).after (answerAfter 2) 9).task? 1).bind
        outcome?).map ExecutionOutcome.outputs = some ["a"] ∧
      (sole { yieldInterval := 0 } echo { timeout := some 0 }).Fair (answerAfter 1) ∧
      (sole { yieldInterval := 1 } echo { timeout := some 0 }).Concurs (answerAfter 2)
        (sole { yieldInterval := 0 } echo { timeout := some 0 }) (answerAfter 1) := by
  have parses : (analyze echo).program.isSome = true := by decide +kernel
  refine ⟨by decide +kernel, ?_, ?_⟩
  · obtain ⟨start, record, outset⟩ : ∃ start record,
        (sole { yieldInterval := 0 } echo { timeout := some 0 }).Outset start record :=
      sole_outset parses rfl rfl
    obtain ⟨outcome, returned, -⟩ :
        ∃ outcome, ((sole { yieldInterval := 0 } echo { timeout := some 0 }).after
          (answerAfter 1) 3).task? 1 = some (.finished (.execution (.ok outcome))) ∧
          outcome.outputs = ["a"] := finished_of_outputs (by decide +kernel)
    apply outset.fair (answerAfter_answering _ rfl 1) _ returned
    intro n
    refine ⟨4 * n + 4, by omega, ?_⟩
    rw [answerAfter, if_neg (by omega), if_neg (by omega)]
    rfl
  · exact schedules_concur {} echo { timeout := some 0 } parses rfl rfl 1 0 (answerAfter 2)
      (answerAfter 1) (fun _ => "a") (answerAfter_answering _ rfl 2) (answerAfter_answering _ rfl 1)

end Launch

end Stepper
