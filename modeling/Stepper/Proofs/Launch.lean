import Mathlib.Data.List.Chain
import Stepper.Proofs.DebuggerStore
import Stepper.Proofs.History

/-! # Launching an execution -/

namespace Stepper

open List

/-- A task that is about to execute a program while no other runs, after whatever was done before. -/
structure Launch (config : Config) (source : String) where
  before : List Move
  number : Nat
  options : ExecutionOptions
  given : ((Host.observed config).moves before).task? number = some (.execute source options)
  idle : ((Host.observed config).moves before).engine.running = false

namespace Launch
variable {config : Config} {source : String}

/-- The launch of the first task, after orders to the engine. -/
def first (config : Config) (source : String) (options : ExecutionOptions) (orders : List Move)
    (only : ∀ move ∈ orders, move.isOrder = true) : Launch config source where
  before := .call (.start (.execute source options)) rfl :: orders
  number := 1
  options := options
  given := ((Host.observed config).start (.execute source options)).1.task?_orders orders only 1 |>.1
  idle := ((Host.observed config).start (.execute source options)).1.task?_orders orders only 1 |>.2

lemma none_ordered : ∀ move ∈ ([] : List Move), move.isOrder = true := by simp

/-- The launch of the only task. -/
def sole (config : Config) (source : String) (options : ExecutionOptions) : Launch config source :=
  .first config source options [] none_ordered

def host (launch : Launch config source) : Host := (Host.observed config).moves launch.before

def debug (launch : Launch config source) : Bool := launch.options.debug || launch.options.step

def timeout (launch : Launch config source) : Nat :=
  launch.options.timeout.getD config.defaultTimeout

lemma orderly (launch : Launch config source) : launch.host.Orderly :=
  (Host.observed_orderly config).moves launch.before

lemma host_config (launch : Launch config source) : launch.host.engine.config = config :=
  Host.moves_config _ (Host.observed_orderly config) launch.before

lemma valid (launch : Launch config source) : launch.host.engine.debugger.Valid :=
  Host.observed_valid config launch.before

/-- The host after the first moves of a schedule since the launch. -/
def after (launch : Launch config source) (schedule : Nat → Move) (n : Nat) : Host :=
  launch.host.moves ((List.range n).map schedule)

/-- The states that the run has passed in the first moves. -/
def historyAt (launch : Launch config source) (schedule : Nat → Move) (n : Nat) :
    List (Engine × Machine) :=
  launch.host.history launch.number ((List.range n).map schedule)

section Moves
variable (launch : Launch config source) (plan : Nat → Move) (n : Nat)

lemma after_succ : launch.after plan (n + 1) = (launch.after plan n).move (plan n) := by
  simp [after, range_succ, Host.moves, foldl_append]

lemma historyAt_succ : launch.historyAt plan (n + 1) = launch.historyAt plan n ++
    (launch.after plan n).trail launch.number (plan n) := by
  simp [historyAt, after, range_succ, Host.history_append, Host.history]

lemma after_orderly : (launch.after plan n).Orderly := launch.orderly.moves _

lemma after_config : (launch.after plan n).engine.config = config :=
  (Host.moves_config _ launch.orderly _).trans launch.host_config

lemma after_valid : (launch.after plan n).engine.debugger.Valid :=
  launch.valid.evolves (launch.host.moves_evolves _)

end Moves

end Launch

namespace Engine

lemma sessionFor_target {e : Engine} (valid : e.debugger.Valid) (source) :
    (e.sessionFor source (analyze source)).2 = .ofAnalysis source (analyze source) ∧
    (e.sessionFor source (analyze source)).1.debugger.session.isSome = true ∧
    (e.sessionFor source (analyze source)).1.aborting = e.aborting := by
  unfold sessionFor
  split
  · exact ⟨rfl, rfl, rfl⟩
  · rename_i session present
    split
    · rename_i same
      subst same
      exact ⟨valid.target session present, by simp [present], rfl⟩
    · exact ⟨rfl, rfl, rfl⟩

structure Began (e : Engine) (source : String) (options : ExecutionOptions) (target : Target)
    (later : Engine) (x : Execution) (m : Machine) : Prop where
  began : e.beginExecution source options = .ok (later, x)
  machine : x.machine = some m
  starts : m = .ofTarget target later.now
    (if options.timeout.getD e.config.defaultTimeout = 0 then none
      else some (options.timeout.getD e.config.defaultTimeout))
    (options.debug || options.step)
  analysis : x.analysis = analyze source
  parsed : x.degraded = target.isSketch
  peaceful : later.aborting = false
  debugger : (options.debug || options.step) = true →
    ∃ d : Debugger, d.session.isSome = true ∧ later.debugger = d.startRun options.step

section Beginning
variable {e : Engine} {source : String}

lemma begins_debug (valid : e.debugger.Valid) (idle : e.running = false)
    (debug : options.debug || options.step) :
    ∃ later x m, Began e source options (.ofAnalysis source (analyze source)) later x m := by
  obtain ⟨later, x, began⟩ : ∃ later x, e.beginExecution source options = .ok (later, x) := by
    simp [beginExecution, idle]
  have shape := began
  obtain ⟨runs, opened, peaceful⟩ :=
    sessionFor_target (e := { e with running := true, aborting := false }) valid source
  have limits := (sessionFor_continues { e with running := true, aborting := false } source
    (analyze source)).config
  simp only [beginExecution, idle, Bool.false_eq_true, if_false, debug, if_true, Except.ok.injEq,
    Prod.mk.injEq] at shape
  obtain ⟨rfl, rfl⟩ := shape
  refine ⟨_, _, _, began, rfl, ?_, rfl, ?_, peaceful, fun _ => ⟨_, opened, rfl⟩⟩
  · simp only [runs, debug, limits]
  · simp [runs]

lemma begins (parses : (analyze source).program = some program) (valid : e.debugger.Valid)
    (idle : e.running = false) (options) :
    ∃ later x m, Began e source options (.program program) later x m := by
  cases debug : options.debug || options.step with
  | true =>
    have target : Target.ofAnalysis source (analyze source) = .program program := by
      simp [Target.ofAnalysis, parses]
    exact target ▸ begins_debug valid idle debug
  | false =>
    obtain ⟨later, x, began⟩ : ∃ later x, e.beginExecution source options = .ok (later, x) := by
      simp [beginExecution, idle]
    have shape := began
    simp only [beginExecution, idle, debug, Bool.false_eq_true, if_false, parses, Option.map_some,
      Except.ok.injEq, Prod.mk.injEq] at shape
    obtain ⟨rfl, rfl⟩ := shape
    refine ⟨_, _, _, began, rfl, ?_, rfl, rfl, rfl, ?_⟩
    · rw [debug]
    · simp [debug]

lemma begin_machine (valid : e.debugger.Valid)
    (began : e.beginExecution source options = .ok (later, x)) (machine : x.machine = some m) :
    ∃ now limit debugging, m = .ofTarget (.ofAnalysis source (analyze source)) now limit debugging := by
  have idle := (begin_follows began).1
  cases debug : options.debug || options.step with
  | true =>
    obtain ⟨_, _, _, launched⟩ : ∃ later x m, Began e source options _ later x m :=
      begins_debug valid idle debug
    cases launched.began.symm.trans began
    cases launched.machine.symm.trans machine
    exact ⟨_, _, _, launched.starts⟩
  | false =>
    have shape := began
    simp only [beginExecution, idle, debug, Bool.false_eq_true, if_false, Except.ok.injEq,
      Prod.mk.injEq] at shape
    obtain ⟨-, rfl⟩ := shape
    obtain ⟨_, parsed, rfl⟩ := Option.map_eq_some_iff.mp machine
    obtain ⟨_, parses, rfl⟩ := Option.map_eq_some_iff.mp parsed
    exact ⟨_, _, _, by rw [Target.ofAnalysis, parses]⟩

end Beginning

end Engine

/-! ### Every state of every run -/

namespace Machine

/-- Whether each state follows from the one before it by a step of the run. -/
def Unbroken (states : List (Engine × Machine)) : Prop :=
  states.IsChain fun now next => next.2 = (now.2.step now.1).2

lemma ofTarget_isReady (target) (now) (limit) (debugging) (e) :
    (ofTarget target now limit debugging).isReady e := by
  cases target <;> rfl

end Machine

namespace Host

def Followed (P : List (Engine × Machine) → Machine → Prop) (history : List (Engine × Machine)) :
    Option Task → Prop
  | some (.executing x) => ∃ m, x.machine = some m ∧ P history m
  | some (.finished _) => history = [] ∨ ∃ m, P history m
  | _ => history = []

variable {P : List (Engine × Machine) → Machine → Prop} {history : List (Engine × Machine)} {h : Host}
  {number : Nat}

lemma Followed.reached (followed : Followed P history task) : history = [] ∨ ∃ m, P history m := by
  unfold Followed at followed
  split at followed
  · obtain ⟨m, -, holds⟩ := followed
    exact .inr ⟨m, holds⟩
  · exact followed
  · exact .inl followed

lemma Followed.foreign (orderly : h.Orderly) (followed : Followed P history (h.task? number))
    {move : Move} (foreign : move ≠ .slice number) :
    Followed P history ((h.move move).task? number) := by
  obtain same | ⟨absent, task, started, fresh⟩ := task?_foreign orderly foreign
  · rwa [same]
  · rw [absent] at followed
    rw [started]
    cases task with
    | execute | request => exact followed
    | _ => cases fresh

lemma Followed.runs (step : ∀ passed e m, P passed m → m.isReady e = true → P (passed ++ [(e, m)])
      (m.step e).2) (holds : P history m) (ready : m.isReady e)
    (slice : OwnSlice h number e x m) :
    Followed P (history ++ m.trail e) ((h.move (.slice number)).task? number) := by
  have after : P (history ++ m.trail e) (m.slice e).2 :=
    Machine.trail_induction (P := fun passed _ m => P passed m) (step history e m holds ready) step
  cases slice with
  | runs _ _ task =>
    rw [task]
    exact ⟨_, rfl, after⟩
  | ends _ _ task =>
    rw [task]
    exact .inr ⟨_, after⟩

lemma Followed.asked (wait) (nothing : history = []) :
    Followed P history (some (Task.awaitInput e wait).2) := by
  unfold Task.awaitInput
  split
  · exact .inl nothing
  · exact nothing

section Induction
variable
  (starts : ∀ source now limit debugging,
    P [] (.ofTarget (.ofAnalysis source (analyze source)) now limit debugging))
  (step : ∀ passed e m, P passed m → m.isReady e = true → P (passed ++ [(e, m)]) (m.step e).2)
include starts step

section
variable (orderly : h.Orderly) (valid : h.engine.debugger.Valid)
  (followed : Followed P history (h.task? number))
include orderly valid followed

lemma Followed.own :
    Followed P (history ++ h.trail number (.slice number)) ((h.move (.slice number)).task? number) := by
  cases found : h.task? number with
  | none =>
    rw [found] at followed
    simpa [trail, move, sliceOf, found] using followed
  | some task =>
    rw [found] at followed
    have moved (ready : task.isReady h.engine = true) :
        (h.move (.slice number)).task? number = some (task.slice h.engine).2 := by
      simp only [move, sliceOf, found, ready, if_true]
      rw [task?_after found, if_pos rfl]
    cases task with
    | execute source options =>
      have nothing : history = [] := followed
      subst nothing
      have came := moved rfl
      cases began : h.engine.beginExecution source options with
      | error =>
        simp only [came, Task.slice, began, trail, found, Task.isReady, Task.trail]
        exact .inl (by simp)
      | ok pair =>
        obtain ⟨e, x⟩ := pair
        cases machine : x.machine with
        | none =>
          simp only [came, Task.slice, began, Task.runExecution, Engine.runExecution, machine, trail,
            found, Task.isReady, Task.trail]
          exact .inl (by simp)
        | some =>
          rw [trail_begin found began machine]
          obtain ⟨_, _, _, rfl⟩ := Engine.begin_machine valid began machine
          exact runs step (starts _ _ _ _) (Machine.ofTarget_isReady _ _ _ _ e)
            (beginSlice found began machine)
    | executing =>
      obtain ⟨m, machine, holds⟩ := followed
      cases ready : m.isReady h.engine with
      | true =>
        rw [trail_own found machine ready]
        exact runs step holds ready (ownSlice found machine ready)
      | false =>
        rw [trail_rests found machine ready, append_nil, sliceOf_rests found machine ready, found]
        exact ⟨m, machine, holds⟩
    | request =>
      have nothing : history = [] := followed
      have quiet : h.trail number (.slice number) = [] := by simp [trail, found, Task.trail]
      rw [quiet, append_nil, moved rfl]
      exact .asked _ nothing
    | awaiting wait =>
      have nothing : history = [] := followed
      have quiet : h.trail number (.slice number) = [] := by simp [trail, found, Task.trail]
      rw [quiet, append_nil]
      by_cases ready : Task.isReady h.engine (.awaiting wait) = true
      · rw [moved ready]
        exact .asked _ nothing
      · have still : h.move (.slice number) = h := by simp [move, sliceOf, found, ready]
        rw [still, found]
        exact nothing
    | finished =>
      rw [trail_finished found, append_nil, orderly.finished found]
      exact followed

lemma Followed.moves (moves) :
    Followed P (history ++ h.history number moves) ((h.moves moves).task? number) := by
  induction moves generalizing h history with
  | nil =>
    rw [Host.history, append_nil]
    exact followed
  | cons move _ ih =>
    have onward : Followed P (history ++ h.trail number move) ((h.move move).task? number) := by
      by_cases own : move = .slice number
      · subst own
        exact followed.own starts step orderly valid
      · rw [trail_foreign own, append_nil]
        exact followed.foreign orderly own
    rw [Host.history, ← append_assoc]
    exact ih (orderly.move move) (valid.evolves (h.move_evolves move)) onward

end

lemma history_induction (config) (number) (moves) : (observed config).history number moves = [] ∨ ∃ m, P
    ((observed config).history number moves) m := by
  have nothing : Followed P [] ((observed config).task? number) := rfl
  exact (nothing.moves starts step (observed_orderly config) (observed_valid config []) moves).reached

end Induction

lemma history_all {Q : Machine → Prop} (starts : ∀ source now limit debugging, Q (.ofTarget (.ofAnalysis
      source (analyze source)) now limit debugging)) (step : ∀ e m, Q m → Q (m.step e).2) (config)
    (number) (moves) : ∀ state ∈ (observed config).history number moves, Q state.2 := by
  have all := history_induction (P := fun passed m => (∀ state ∈ passed, Q state.2) ∧ Q m)
    (fun source now limit debugging => ⟨forall_mem_nil _, starts source now limit debugging⟩)
    (fun passed e m ⟨before, now⟩ _ =>
      ⟨forall_mem_append.mpr ⟨before, forall_mem_singleton.mpr now⟩, step e m now⟩)
    config number moves
  rcases all with nothing | ⟨m, every, -⟩
  · rw [nothing]
    exact forall_mem_nil _
  · exact every

lemma history_unbroken (config) (number) (moves) :
    Machine.Unbroken ((observed config).history number moves) := by
  have all := history_induction
    (P := fun passed m => Machine.Unbroken passed ∧
      ∀ last ∈ passed.getLast?, m = (last.2.step last.1).2)
    (fun _ _ _ _ => ⟨.nil, fun _ absent => nomatch absent⟩)
    (fun passed e m ⟨unbroken, comes⟩ _ => by
      refine ⟨isChain_append.mpr ⟨unbroken, .singleton _, ?_⟩, ?_⟩
      · rintro last present _ ⟨⟩
        exact comes last present
      · simp)
    config number moves
  rcases all with nothing | ⟨m, unbroken, -⟩
  · rw [nothing]
    exact .nil
  · exact unbroken

end Host

/-! ### What is known until an execution ends -/

namespace Launch
variable {config : Config} {source : String} {launch : Launch config source} {plan : Nat → Move}

lemma ended_stays (ended : (launch.after plan n).task? launch.number = some (.finished answer))
    (late : n ≤ k) : (launch.after plan k).task? launch.number = some (.finished answer) ∧
    launch.historyAt plan k = launch.historyAt plan n := by
  induction k, late using Nat.le_induction with
  | base => exact ⟨ended, rfl⟩
  | succ k _ ih =>
    obtain ⟨still, passed⟩ := ih
    rw [after_succ, historyAt_succ, Host.trail_finished still, append_nil]
    exact ⟨(launch.after_orderly plan k).finished still _, passed⟩

/-- How far an execution of which `P` is known has come. -/
inductive Course (launch : Launch config source) (schedule : Nat → Move)
    (P : Nat → Engine → Machine → Prop) (x : Execution) (n : Nat) : Prop where
  | runs (active : (launch.after schedule n).task? launch.number =
      some (.executing { x with machine := some m })) (known : P n (launch.after schedule n).engine m)
  | ended (late : k ≤ n) (known : P k e m) (finished : m.control = .finished error)
      (engine : (launch.after schedule k).engine =
        (e.endExecution x m.outputs.toList (m.environment.locals .global) error).1)
      (task : (launch.after schedule k).task? launch.number = some (.finished (.execution (.ok
        (e.endExecution x m.outputs.toList (m.environment.locals .global) error).2))))

/-- What holds where an execution begins, and what its slices and the moves of others keep, holds until it
ends. -/
lemma course (begins : plan 0 = .slice launch.number)
    (began : Engine.Began launch.host.engine source launch.options target later x m) (first : P 0
    later m) (slice : ∀ n e m, P n e m → m.isReady e = true → (launch.after plan n).trail
    launch.number (plan n) = m.trail e → plan n = .slice launch.number → P (n + 1) (m.slice
    e).1 (m.slice e).2) (still : ∀ n m, P n (launch.after plan n).engine m → (launch.after
    plan n).trail launch.number (plan n) = [] → plan n = .slice launch.number → P (n +
    1) (launch.after plan n).engine m) (foreign : ∀ n m, P n (launch.after plan n).engine m
    → (launch.after plan n).task? launch.number = some (.executing { x with machine := some m })
    → plan n ≠ .slice launch.number → P (n + 1) (launch.after plan (n + 1)).engine m) (n) :
    Course launch plan P x (n + 1) := by
  have sliced {n e m x'} (known : P n e m) (ready : m.isReady e = true)
      (own : plan n = .slice launch.number)
      (trail : (launch.after plan n).trail launch.number (.slice launch.number) = m.trail e)
      (moved : Host.OwnSlice (launch.after plan n) launch.number e { x with machine := x' } m) :
      Course launch plan P x (n + 1) := by
    have onward := slice n e m known ready (by rw [own, trail]) own
    cases moved with
    | runs _ engine task =>
      rw [← own, ← after_succ] at engine task
      exact .runs task (engine ▸ onward)
    | ends finished engine task =>
      rw [← own, ← after_succ] at engine task
      exact .ended (Nat.le_refl _) onward finished engine task
  induction n with
  | zero =>
    have ready : m.isReady later := began.starts ▸ Machine.ofTarget_isReady _ _ _ _ later
    exact sliced first ready begins (Host.trail_begin launch.given began.began began.machine)
      (Host.beginSlice launch.given began.began began.machine)
  | succ n ih =>
    cases ih with
    | ended late known finished engine task =>
      exact .ended (Nat.le_succ_of_le late) known finished engine task
    | @runs m active known =>
      by_cases own : plan (n + 1) = .slice launch.number
      · cases ready : m.isReady (launch.after plan (n + 1)).engine with
        | true => exact sliced known ready own (Host.trail_own active rfl ready) (Host.ownSlice active rfl ready)
        | false =>
          have unmoved : launch.after plan (n + 1 + 1) = launch.after plan (n + 1) := by
            rw [after_succ, own, Host.sliceOf_rests active rfl ready]
          refine .runs (m := m) ?_ ?_
          · rw [unmoved]
            exact active
          · rw [unmoved]
            exact still _ m known (by rw [own, Host.trail_rests active rfl ready]) own
      · refine .runs (m := m) ?_ (foreign _ m known active own)
        rw [after_succ]
        exact ((launch.after_orderly plan (n + 1)).foreign active own).2

end Launch

end Stepper
