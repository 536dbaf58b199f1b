import Stepper.Host.Call
import Stepper.Proofs.Continuity

/-! # Interleavings

A host is driven by moves: a call that comes back at once, time that passes, or a slice of one task.
Calls that let tasks run are made of slices, so every interleaving of tasks, calls and time is a list of
moves. -/

namespace Stepper

open Engine.Continues (refl)
open Prod (fst snd)
open List

variable {number : Nat}

/-- Whether a call comes back at once, without letting tasks run. -/
def HostCall.isImmediate : HostCall → Bool
  | .start (.execute _ _) | .start (.request _ _ _) => true
  | .start _ | .advance _ | .round => false
  | _ => true

/-- Whether a call cannot cancel a run. -/
def HostCall.isPeaceful : HostCall → Bool
  | .abort | .stop => false
  | _ => true

namespace Debugger

/-- What a result leaves. An error leaves the debugger as it was. -/
def accept {α : Type} (d : Debugger) (result : Except SessionError α) (changed : α → Debugger) :
    Debugger :=
  match result with
  | .ok value => changed value
  | .error _ => d

def obey (d : Debugger) : HostCall → Debugger
  | .stop => d.accept d.closeSession Prod.fst
  | .openSession source =>
    d.accept (d.openSession source (.ofAnalysis source (analyze source))) Prod.fst
  | .command command => d.accept (d.command command) Prod.fst
  | .setBreakpoint line condition log => d.accept (d.setBreakpoint line condition log) Prod.fst
  | .clearBreakpoint line => d.accept (d.clearBreakpoint line) Prod.fst
  | .switchBreakpoint line => d.accept (d.switchBreakpoint line) Prod.fst
  | .setWatch source => d.accept (d.setWatch source) id
  | .clearWatch source => (d.clearWatch source).1
  | _ => d

end Debugger

def Wakeup.obey (w : Wakeup) (d : Debugger) : HostCall → Wakeup
  | .stop => if d.session.isSome then w.onClose d.state else w
  | .openSession _ => if d.session.isSome then w else w.forget
  | .command command => if d.session.isSome then w.onCommand d.state command else w
  | _ => w

/-- One move of a host: a call that comes back at once, time that passes, or a slice of one task. Every
interleaving of tasks, calls and time is a list of moves. -/
inductive Move where
  | call (call : HostCall) (immediate : call.isImmediate = true)
  | wait (duration : Nat)
  | slice (number : Nat)

/-- Whether a move is a call other than one that starts a task. -/
def Move.isOrder : Move → Bool
  | .call (.start _) _ => false
  | .call _ _ => true
  | _ => false

def Move.isCommand : Move → Bool
  | .call (.command _) _ => true
  | _ => false

lemma Move.isCommand_iff {move : Move} :
    move.isCommand = true ↔ ∃ command immediate, move = .call (.command command) immediate := by
  constructor
  · unfold isCommand
    split
    · exact fun _ => ⟨_, _, rfl⟩
    · simp
  · rintro ⟨_, _, rfl⟩
    rfl

def Move.editsBreakpoints : Move → Bool
  | .call (.setBreakpoint _ _ _) _ | .call (.clearBreakpoint _) _
  | .call (.switchBreakpoint _) _ => true
  | _ => false

def Move.isSliceOf (number : Nat) : Move → Bool
  | .slice other => other == number
  | _ => false

lemma Move.isSliceOf_iff {move : Move} : move.isSliceOf number = true ↔ move = .slice number := by
  cases move <;> simp [isSliceOf]

namespace Host
variable {task : Task}

/-- The task of that number. -/
def task? (h : Host) (number : Nat) : Option Task :=
  (h.tasks.find? fun entry => entry.1 == number).map Prod.snd

def putTask (h : Host) (number : Nat) (task : Task) : Host :=
  { h with tasks := h.tasks.map fun entry => if entry.1 = number then (number, task) else entry }

/-- Lets a task run for one slice, if it is ready to. -/
def sliceOf (h : Host) (number : Nat) : Host :=
  match h.task? number with
  | some task =>
    if task.isReady h.engine then
      (h.withEngine (task.slice h.engine).1).putTask number (task.slice h.engine).2
    else h
  | none => h

/-- The host after a move. -/
def move (h : Host) : Move → Host
  | .call call _ => (h.perform call).1
  | .wait duration => h.withEngine (h.engine.advance duration)
  | .slice number => h.sliceOf number

def moves (h : Host) (moves : List Move) : Host := moves.foldl move h

/-- A new host whose events are listened to from the start. -/
def observed (config : Config) : Host :=
  { ofConfig config with
    engine := { Engine.ofConfig config with bus := .observed config.eventHistory } }

/-- What was told so far. -/
def heard (h : Host) : List Notice := h.engine.bus.heard

/-- What is told in a move. -/
def newlyHeard (h : Host) (move : Move) : List Notice := (h.move move).heard.drop h.heard.length

variable {h : Host}

lemma replied_effect {α β : Type} {operation : Except SessionError β}
    {result : Except SessionError (Engine × α)} (changed : β → Debugger) (notices : β → List Notice)
    (value : β → α) (reply : α → HostReply)
    (same : result = operation.map fun outcome =>
      ({ h.engine with
          debugger := changed outcome, bus := h.engine.bus.announce (notices outcome) },
        value outcome)) :
    ∃ told, (h.replied result reply).1 = h.withEngine
      { h.engine with
        debugger := h.engine.debugger.accept operation changed,
        bus := h.engine.bus.announce told } := by
  subst same
  cases operation with
  | error => exact ⟨[], rfl⟩
  | ok outcome => exact ⟨notices outcome, rfl⟩

lemma perform_effect (call) (immediate : call.isImmediate = true) (startless : ∀ task, call ≠
    .start task) :
    ∃ inputs aborting notices,
      (h.perform call).1 = h.withEngine
        { h.engine with
          inputs, aborting, debugger := h.engine.debugger.obey call,
          wakeup := h.engine.wakeup.obey h.engine.debugger call,
          bus := h.engine.bus.announce notices } ∧
      (h.engine.aborting = true → aborting = true) ∧
      (call.isPeaceful = true → aborting = h.engine.aborting) := by
  cases call with
  | start task => exact absurd rfl (startless task)
  | advance | round => cases immediate
  | submit text =>
    refine ⟨(h.engine.inputs.submit text).1, h.engine.aborting, (h.engine.inputs.submit text).2.2, ?_,
      id, fun _ => rfl⟩
    simp only [perform]
    split <;> rename_i answered <;>
      exact congrArg h.withEngine (congrArg fst answered).symm
  | cancelInputs => exact ⟨_, h.engine.aborting, [], rfl, id, fun _ => rfl⟩
  | clearWatch => exact ⟨h.engine.inputs, h.engine.aborting, [], rfl, id, fun _ => rfl⟩
  | abort =>
    refine ⟨_, h.engine.aborting || h.engine.running, [], rfl, ?_, fun peaceful => by cases peaceful⟩
    exact fun aborting => by simp [aborting]
  | stop =>
    simp only [perform, replied, Engine.stop, Debugger.obey, Debugger.closeSession, Wakeup.obey]
    cases h.engine.debugger.session with
    | none => exact ⟨h.engine.inputs, h.engine.aborting, [], rfl, id, fun _ => rfl⟩
    | some =>
      refine ⟨_, h.engine.aborting || h.engine.running, _, rfl, ?_, fun peaceful => by cases peaceful⟩
      exact fun aborting => by simp [aborting]
  | openSession source =>
    simp only [perform, replied, Engine.openSession, Debugger.obey, Debugger.openSession, Wakeup.obey]
    cases h.engine.debugger.session with
    | none => exact ⟨h.engine.inputs, h.engine.aborting, _, rfl, id, fun _ => rfl⟩
    | some => exact ⟨h.engine.inputs, h.engine.aborting, [], rfl, id, fun _ => rfl⟩
  | command command =>
    simp only [perform, replied, Engine.command, Debugger.obey, Debugger.command, Wakeup.obey]
    cases h.engine.debugger.session with
    | none => exact ⟨h.engine.inputs, h.engine.aborting, [], rfl, id, fun _ => rfl⟩
    | some =>
      cases state : h.engine.debugger.state with
      | paused => exact ⟨h.engine.inputs, h.engine.aborting, _, rfl, id, fun _ => rfl⟩
      | running | idle | completed | errored =>
        exact ⟨h.engine.inputs, h.engine.aborting, [], rfl, id, fun _ => rfl⟩
  | setBreakpoint line condition log =>
    obtain ⟨told, changed⟩ := replied_effect (h := h) fst (fun _ => []) snd .breakpoint
      (rfl : h.engine.setBreakpoint line condition log = _)
    exact ⟨h.engine.inputs, h.engine.aborting, told, changed, id, fun _ => rfl⟩
  | clearBreakpoint line =>
    obtain ⟨told, changed⟩ := replied_effect (h := h) fst (fun _ => []) snd .breakpoint
      (rfl : h.engine.clearBreakpoint line = _)
    exact ⟨h.engine.inputs, h.engine.aborting, told, changed, id, fun _ => rfl⟩
  | switchBreakpoint line =>
    obtain ⟨told, changed⟩ := replied_effect (h := h) fst (fun _ => []) snd .flag
      (rfl : h.engine.switchBreakpoint line = _)
    exact ⟨h.engine.inputs, h.engine.aborting, told, changed, id, fun _ => rfl⟩
  | setWatch source =>
    obtain ⟨told, changed⟩ := replied_effect (h := h) id (fun _ => []) (fun _ => ()) (fun _ => .done)
      (show (h.engine.setWatch source).map (fun engine => (engine, ())) =
        (h.engine.debugger.setWatch source).map _ by
          unfold Engine.setWatch
          cases h.engine.debugger.setWatch source <;> rfl)
    exact ⟨h.engine.inputs, h.engine.aborting, told, changed, id, fun _ => rfl⟩

lemma perform_immediate (call : HostCall) (immediate : call.isImmediate) :
    (∃ task, call = .start task ∧ (h.perform call).1 = (h.start task).1) ∨ ∃ later, h.engine.Continues
    later ∧ (h.perform call).1 = h.withEngine later := by
  by_cases starts : ∃ task, call = .start task
  · obtain ⟨task, rfl⟩ := starts
    exact .inl ⟨task, rfl, rfl⟩
  · obtain ⟨_, _, notices, changed, stays, -⟩ :=
      perform_effect (h := h) call immediate fun task same => starts ⟨task, same⟩
    refine .inr ⟨_, ?_, changed⟩
    exact ⟨⟨rfl, Nat.le_refl _, notices, rfl⟩, rfl, stays⟩

lemma task?_orders (h : Host) (orders) (only : ∀ move ∈ orders, move.isOrder = true) (number) :
    (h.moves orders).task? number = h.task? number ∧ (h.moves orders).engine.running =
    h.engine.running := by
  induction orders generalizing h with
  | nil => exact ⟨rfl, rfl⟩
  | cons move _ ih =>
    obtain ⟨first, others⟩ := forall_mem_cons.mp only
    obtain ⟨task, running⟩ := ih (h.move move) others
    cases move with
    | wait | slice => cases first
    | call call immediate =>
      obtain ⟨_, _, _, changed, -⟩ := perform_effect (h := h) call immediate
        (by rintro task rfl; cases first)
      have same : h.move (.call call immediate) = (h.perform call).1 := rfl
      refine ⟨task.trans ?_, running.trans ?_⟩
      · rw [same, changed]
        rfl
      · rw [same, changed]
        rfl

lemma task?_putTask (h : Host) (number other) (task) : (h.putTask number task).task? other = if number =
    other then (h.task? other).map fun _ => task else h.task? other := by
  obtain ⟨_, _, tasks⟩ := h
  simp only [task?, putTask]
  induction tasks with
  | nil => simp
  | cons entry _ ih =>
    obtain ⟨place, _⟩ := entry
    by_cases here : place = number
    · subst here
      by_cases wanted : place = other
      · simp [wanted]
      · simpa [wanted] using ih
    · by_cases wanted : place = other
      · subst wanted
        simp [here, Ne.symm here]
      · simpa [here, wanted] using ih

lemma task?_start (h : Host) (task) (number) (bounded : ∀ entry ∈ h.tasks, entry.1 ≤ h.started) :
    (h.start task).1.task? number = if number = h.started + 1 then some task else h.task? number := by
  by_cases new : number = h.started + 1
  · subst new
    have fresh : h.tasks.find? (fun entry => entry.1 == h.started + 1) = none := by
      rw [find?_eq_none]
      intro entry mem
      have small := bounded entry mem
      simp only [beq_iff_eq]
      omega
    simp [start, task?, fresh]
  · have other : (h.started + 1 == number) = false := by simp [Ne.symm new]
    simp [start, task?, other, new]

structure Orderly (h : Host) : Prop where
  ordered : (h.tasks.map Prod.fst).Pairwise (· < ·)
  bounded : ∀ entry ∈ h.tasks, entry.1 ≤ h.started
  observed : h.engine.bus.IsObserved
  active : ∀ number x, h.task? number = some (.executing x) →
    h.engine.running = true ∧ ∃ m, x.machine = some m ∧ m.Tidy
  single : ∀ first second x y, h.task? first = some (.executing x) →
    h.task? second = some (.executing y) → first = second

lemma observed_orderly (config) : (observed config).Orderly :=
  ⟨.nil, by simp [observed, ofConfig], (Bus.observed_start _).1,
    by simp [observed, ofConfig, task?], by simp [observed, ofConfig, task?]⟩

lemma Orderly.withEngine (orderly : h.Orderly) (continues : h.engine.Continues later)
    : (h.withEngine later).Orderly where
  ordered := orderly.ordered
  bounded := orderly.bounded
  observed := continues.observed orderly.observed
  active number x found := by
    obtain ⟨running, tidy⟩ := orderly.active number x found
    exact ⟨continues.running.trans running, tidy⟩
  single := orderly.single

lemma Orderly.start (orderly : h.Orderly) (idle : task.isExecuting = false) :
    (h.start task).1.Orderly := by
  -- What is an execution afterwards was one before.
  have before : ∀ number x, (h.start task).1.task? number = some (.executing x) →
      h.task? number = some (.executing x) := by
    intro number _ found
    rw [task?_start h task number orderly.bounded] at found
    split at found
    · cases found
      cases idle
    · exact found
  constructor
  · simp only [Host.start, map_append, pairwise_append]
    refine ⟨orderly.ordered, by simp, ?_⟩
    intro _ mem _ last
    obtain ⟨entry, present, rfl⟩ := mem_map.mp mem
    have small := orderly.bounded entry present
    simp only [map_cons, map_nil, mem_singleton] at last
    omega
  · intro entry mem
    rcases mem_append.mp mem with old | new
    · exact Nat.le_succ_of_le (orderly.bounded entry old)
    · simp only [mem_singleton] at new
      simp [new, Host.start]
  · exact orderly.observed
  · exact fun number x found => orderly.active number x (before number x found)
  · exact fun first second x y one other =>
      orderly.single first second x y (before first x one) (before second y other)

lemma task?_after (found : h.task? number = some task) (later : Engine) (next) (other) :
    ((h.withEngine later).putTask number next).task? other = if number = other then some next else
    h.task? other := by
  rw [task?_putTask]
  split
  · rename_i same
    subst same
    exact congrArg (Option.map fun _ => next) found
  · rfl

lemma Orderly.putTask (orderly : h.Orderly) (follows : h.engine.Follows later) (active : ∀ other
      x, ((h.withEngine later).putTask number task).task? other = some (.executing x) →
      later.running = true ∧ ∃ m, x.machine = some m ∧ m.Tidy) (single : ∀ first second x y,
      ((h.withEngine later).putTask number task).task? first = some (.executing x) → ((h.withEngine
      later).putTask number task).task? second = some (.executing y) → first = second) :
    ((h.withEngine later).putTask number task).Orderly where
  ordered := by
    have same : (fun entry : Nat × Task => (if entry.1 = number then (number, task) else entry).1) =
        fst := by
      funext entry
      split <;> simp_all
    simpa [Host.putTask, Host.withEngine, Function.comp_def, same] using orderly.ordered
  bounded := by
    intro _ mem
    obtain ⟨old, present, rfl⟩ := mem_map.mp mem
    have small := orderly.bounded old present
    by_cases here : old.1 = number
    · simpa [here, putTask, withEngine] using here ▸ small
    · simpa [here, Host.putTask, Host.withEngine] using small
  observed := follows.observed orderly.observed
  active := active
  single := single

lemma Orderly.turn {next : Task} (orderly : h.Orderly) (found : h.task? number = some task)
    (turn : Task.Turn h.engine task later next) :
    ((h.withEngine later).putTask number next).Orderly := by
  -- The active execution is this task, or there is none.
  have others : (task.isExecuting = true ∨ h.engine.running = false) →
      ∀ other x, h.task? other = some (.executing x) → other = number := by
    rintro (own | idle) other x active
    · cases task with
      | executing y => exact orderly.single other number x y active found
      | _ => cases own
    · simp [(orderly.active other x active).1] at idle
  cases turn with
  | aside _ still continues =>
    have before : ∀ other x, ((h.withEngine later).putTask number next).task? other =
        some (.executing x) → h.task? other = some (.executing x) := by
      intro _ _ active
      rw [task?_after found] at active
      split at active
      · cases active
        cases still
      · exact active
    refine orderly.putTask continues.toFollows ?_ ?_
    · intro other x active
      obtain ⟨running, tidy⟩ := orderly.active other x (before other x active)
      exact ⟨continues.running.trans running, tidy⟩
    · intro first second x y one two
      exact orderly.single first second x y (before first x one) (before second y two)
  | @runs execution m own follows running machine tidy =>
    have here : ∀ other y, ((h.withEngine later).putTask number (.executing execution)).task?
        other = some (.executing y) → other = number ∧ y = execution := by
      intro other y active
      rw [task?_after found] at active
      by_cases same : number = other
      · simp only [same, if_true, Option.some.injEq, Task.executing.injEq] at active
        exact ⟨same.symm, active.symm⟩
      · rw [if_neg same] at active
        exact absurd (others own other y active).symm same
    refine orderly.putTask follows ?_ ?_
    · intro other y active
      obtain ⟨-, rfl⟩ := here other y active
      exact ⟨running, m, machine, tidy⟩
    · intro first second x y one two
      rw [(here first x one).1, (here second y two).1]
  | @ends outcome own follows _ =>
    have none : ∀ other y, ((h.withEngine later).putTask number
        (.finished (.execution (.ok outcome)))).task? other ≠ some (.executing y) := by
      intro other y active
      rw [task?_after found] at active
      split at active
      · cases active
      · rename_i different
        exact different (others own other y active).symm
    exact orderly.putTask follows (fun other x active => absurd active (none other x))
      fun first second x y one => absurd one (none first x)

lemma Orderly.sliceTurn (orderly : h.Orderly) (found : h.task? number = some task) :
    Task.Turn h.engine task (task.slice h.engine).1 (task.slice h.engine).2 := by
  apply Task.slice_turn
  rintro x rfl
  obtain ⟨running, _, machine, tidy⟩ := orderly.active number x found
  refine ⟨running, fun _ same => ?_⟩
  cases machine.symm.trans same
  exact tidy

lemma Orderly.sliceOf (orderly : h.Orderly) (number) : (h.sliceOf number).Orderly := by
  unfold Host.sliceOf
  split
  · rename_i task found
    split
    · exact orderly.turn found (orderly.sliceTurn found)
    · exact orderly
  · exact orderly

lemma Orderly.move (orderly : h.Orderly) (move) : (h.move move).Orderly := by
  cases move with
  | call call immediate =>
    rcases perform_immediate (h := h) call immediate with ⟨task, rfl, same⟩ | ⟨later, continues, same⟩
    · simp only [Host.move, same]
      refine orderly.start ?_
      cases task <;> simp_all [HostCall.isImmediate, Task.isExecuting]
    · simp only [Host.move, same]
      exact orderly.withEngine continues
  | wait => exact orderly.withEngine (h.engine.continues_with _ _ _ _ [])
  | slice number => exact orderly.sliceOf number

lemma moves_concat (h : Host) (moves) (move) :
    h.moves (moves ++ [move]) = (h.moves moves).move move := by
  simp only [Host.moves, foldl_append, foldl_cons, foldl_nil]

section
variable (orderly : h.Orderly)
include orderly

lemma Orderly.moves (moves) : (h.moves moves).Orderly := by
  induction moves generalizing h with
  | nil => exact orderly
  | cons first _ ih => exact ih (orderly.move first)

lemma Orderly.given (found : h.task? number = some task) : number ≠ h.started + 1 := by
  obtain ⟨entry, present, -⟩ := Option.map_eq_some_iff.mp found
  have same := find?_some present
  have small := orderly.bounded entry (mem_of_find?_eq_some present)
  simp only [beq_iff_eq] at same
  omega

lemma task?_foreign {move : Move} (foreign : move ≠ .slice number) : (h.move move).task? number =
    h.task? number ∨ h.task? number = none ∧ ∃ task, (h.move move).task? number = some task ∧
    (HostCall.start task).isImmediate = true := by
  cases move with
  | wait => exact .inl rfl
  | call call immediate =>
    rcases perform_immediate (h := h) call immediate with ⟨task, rfl, same⟩ | ⟨later, -, same⟩
    · simp only [move, same]
      rw [task?_start h task number orderly.bounded]
      by_cases new : number = h.started + 1
      · right
        have absent : h.task? number = none := by
          cases found : h.task? number with
          | none => rfl
          | some => exact absurd new (orderly.given found)
        exact ⟨absent, task, if_pos new, immediate⟩
      · exact .inl (if_neg new)
    · simp only [move, same]
      exact .inl rfl
  | slice other =>
    left
    have different : other ≠ number := fun same => foreign (congrArg Move.slice same)
    simp only [move, sliceOf]
    cases found : h.task? other with
    | none => rfl
    | some task =>
      dsimp only
      split
      · rw [task?_after found, if_neg different]
      · rfl

/-- A slice that another task gets beside an active execution is one of a task that executes nothing. -/
lemma Orderly.other_slice (active : h.task? number = some (.executing x))
    (foreign : Move.slice other ≠ .slice number) : (h.move (.slice other)).engine = h.engine ∨ ∃ task :
    Task, task.isExecuting = false ∧ (h.move (.slice other)).engine = (task.slice h.engine).1 := by
  simp only [Host.move, Host.sliceOf]
  cases found : h.task? other with
  | none => exact .inl rfl
  | some task =>
    dsimp only
    split
    · refine .inr ⟨task, ?_, rfl⟩
      cases task with
      | executing y =>
        exact absurd (congrArg Move.slice (orderly.single other number y x found active)) foreign
      | _ => rfl
    · exact .inl rfl

lemma Orderly.foreign (active : h.task? number = some (.executing x)) {move : Move}
    (foreign : move ≠ .slice number) :
    h.engine.Continues (h.move move).engine ∧ (h.move move).task? number = some (.executing x) := by
  constructor
  · cases move with
    | call call immediate =>
      rcases perform_immediate (h := h) call immediate with ⟨task, rfl, same⟩ | ⟨later, continues, same⟩
      · simp only [Host.move, same]
        exact .refl _
      · simp only [Host.move, same]
        exact continues
    | wait => exact h.engine.continues_with _ _ _ _ []
    | slice other =>
      obtain same | ⟨task, idle, same⟩ := orderly.other_slice active foreign
      · exact same ▸ .refl _
      · rw [same]
        have turn : Task.Turn h.engine task (task.slice h.engine).1 (task.slice h.engine).2 :=
          Task.slice_turn fun y executes => by simp [executes, Task.isExecuting] at idle
        have busy : ¬(task.isExecuting = true ∨ h.engine.running = false) := by
          simp [idle, (orderly.active number x active).1]
        generalize (task.slice h.engine).2 = next at turn
        cases turn with
        | aside _ _ continues => exact continues
        | runs own => exact absurd own busy
        | ends own => exact absurd own busy
  · obtain same | ⟨absent, -⟩ := task?_foreign orderly foreign
    · rw [same, active]
    · simp [absent] at active

lemma Orderly.follows (move) : h.engine.Follows (h.move move).engine := by
  cases move with
  | call call immediate =>
    rcases perform_immediate (h := h) call immediate with ⟨task, rfl, same⟩ | ⟨later, continues, same⟩
    · simp only [Host.move, same]
      exact (refl _).toFollows
    · simp only [Host.move, same]
      exact continues.toFollows
  | wait => exact (h.engine.continues_with _ _ _ _ []).toFollows
  | slice number =>
    simp only [Host.move, Host.sliceOf]
    cases found : h.task? number with
    | none => exact (refl _).toFollows
    | some task =>
      dsimp only
      split
      · have turn := orderly.sliceTurn found
        generalize (task.slice h.engine).2 = next at turn ⊢
        cases turn with
        | aside _ _ continues => exact continues.toFollows
        | runs _ follows => exact follows
        | ends _ follows => exact follows
      · exact (refl _).toFollows

lemma newlyHeard_eq {move : Move} (bus : (h.move move).engine.bus = h.engine.bus.announce notices) :
    h.newlyHeard move = notices := by
  have told := (h.engine.bus.announce_heard notices orderly.observed).2
  simp only [newlyHeard, heard, bus, told, drop_left]

end

lemma moves_config (h : Host) (orderly : h.Orderly) (moves) :
    (h.moves moves).engine.config = h.engine.config := by
  induction moves generalizing h with
  | nil => rfl
  | cons move _ ih =>
    exact (ih _ (orderly.move move)).trans (orderly.follows move).config

lemma Orderly.finished (orderly : h.Orderly) (ended : h.task? number = some (.finished answer))
    (move : Move) : (h.move move).task? number = some (.finished answer) := by
  cases move with
  | call call immediate =>
    rcases perform_immediate (h := h) call immediate with ⟨task, rfl, same⟩ | ⟨later, continues, same⟩
    · simp only [Host.move, same]
      rw [task?_start h task number orderly.bounded, if_neg (orderly.given ended), ended]
    · simp only [Host.move, same]
      exact ended
  | wait => exact ended
  | slice other =>
    simp only [Host.move, Host.sliceOf]
    cases found : h.task? other with
    | none => exact ended
    | some task =>
      dsimp only
      split
      · rename_i ready
        rw [task?_after found]
        split
        · rename_i same
          subst same
          rw [ended] at found
          cases found
          cases ready
        · exact ended
      · exact ended

section
inductive OwnSlice (h : Host) (number : Nat) (e : Engine) (x : Execution) (m : Machine) : Prop where
  | runs (unfinished : ∀ error, (m.slice e).2.control ≠ .finished error)
      (engine : (h.move (.slice number)).engine = (m.slice e).1)
      (task : (h.move (.slice number)).task? number =
        some (.executing { x with machine := some (m.slice e).2 }))
  | ends {error : Option RuntimeError} (finished : (m.slice e).2.control = .finished error)
      (engine : (h.move (.slice number)).engine =
        ((m.slice e).1.endExecution x (m.slice e).2.outputs.toList
          ((m.slice e).2.environment.locals .global) error).1)
      (task : (h.move (.slice number)).task? number =
        some (.finished (.execution (.ok ((m.slice e).1.endExecution x
          (m.slice e).2.outputs.toList ((m.slice e).2.environment.locals .global) error).2))))

lemma ownSlice_of_runExecution (found : h.task? number = some task)
    (ready : task.isReady h.engine) (machine : x.machine = some m)
    (runs : task.slice h.engine = Task.runExecution e x) : OwnSlice h number e x m := by
  have moved : h.move (.slice number) =
      (h.withEngine (Task.runExecution e x).1).putTask number (Task.runExecution e x).2 := by
    simp only [move, sliceOf, found, ready, if_true, runs]
  by_cases finished : ∃ error, (m.slice e).2.control = .finished error
  · obtain ⟨error, finished⟩ := finished
    have came : Task.runExecution e x =
        (((m.slice e).1.endExecution x (m.slice e).2.outputs.toList
          ((m.slice e).2.environment.locals .global) error).1,
        .finished (.execution (.ok ((m.slice e).1.endExecution x (m.slice e).2.outputs.toList
          ((m.slice e).2.environment.locals .global) error).2))) := by
      simp only [Task.runExecution, Engine.runExecution, machine, finished]
    refine .ends finished ?_ ?_
    · rw [moved, came]
      rfl
    · rw [moved, came, task?_after found, if_pos rfl]
  · have unfinished : ∀ error, (m.slice e).2.control ≠ .finished error :=
      fun error control => finished ⟨error, control⟩
    have goes : e.runExecution x =
        ((m.slice e).1, .inl { x with machine := some (m.slice e).2 }) := by
      simp only [Engine.runExecution, machine]
    have came : Task.runExecution e x =
        ((m.slice e).1, .executing { x with machine := some (m.slice e).2 }) := by
      simp only [Task.runExecution, goes]
    refine .runs unfinished ?_ ?_
    · rw [moved, came]
      rfl
    · rw [moved, came, task?_after found, if_pos rfl]

lemma ownSlice (active : h.task? number = some (.executing x)) (machine : x.machine = some m)
    (ready : m.isReady h.engine) : OwnSlice h number h.engine x m := by
  refine ownSlice_of_runExecution active ?_ machine rfl
  simpa [Task.isReady, Execution.isReady, machine] using ready

lemma beginSlice (found : h.task? number = some (.execute source options))
    (began : h.engine.beginExecution source options = .ok (e, x)) (machine : x.machine = some m) :
    OwnSlice h number e x m :=
  ownSlice_of_runExecution found rfl machine (by simp only [Task.slice, began])

lemma sliceOf_rests (active : h.task? number = some (.executing x)) (machine : x.machine = some m)
    (waits : m.isReady h.engine = false) : h.move (.slice number) = h := by
  simp [move, sliceOf, active, Task.isReady, Execution.isReady, machine, waits]

end

end Host

end Stepper
