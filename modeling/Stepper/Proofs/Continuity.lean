import Stepper.Host
import Stepper.Proofs.Muting
import Stepper.Proofs.Publication

/-! # What outlasts a call and a slice -/

namespace Stepper

open List

structure Engine.Follows (e later : Engine) : Prop where
  config : later.config = e.config
  clock : e.now ≤ later.now
  bus : ∃ notices, later.bus = e.bus.announce notices

structure Engine.Continues (e later : Engine) : Prop extends Engine.Follows e later where
  running : later.running = e.running
  aborting : e.aborting = true → later.aborting = true

namespace Engine
lemma announce_append (bus : Bus Notice) (first second) :
    (bus.announce first).announce second = bus.announce (first ++ second) := by
  simp [Bus.announce, foldl_append]

lemma Follows.trans (first : Follows e later) (second : Follows later last) : Follows e last := by
  obtain ⟨told, first_bus⟩ := first.bus
  obtain ⟨then_told, second_bus⟩ := second.bus
  refine ⟨second.config.trans first.config, Nat.le_trans first.clock second.clock, told ++ then_told, ?_⟩
  rw [second_bus, first_bus, announce_append]

lemma Follows.observed (follows : Follows e later) (observed : e.bus.IsObserved) :
    later.bus.IsObserved := by
  obtain ⟨notices, bus⟩ := follows.bus
  rw [bus]
  exact (e.bus.announce_heard notices observed).1

lemma Continues.refl (e) : Continues e e :=
  ⟨⟨rfl, Nat.le_refl _, [], rfl⟩, rfl, id⟩

lemma Continues.trans (first : Continues e later) (second : Continues later last) : Continues e last :=
  ⟨first.toFollows.trans second.toFollows, second.running.trans first.running,
    second.aborting ∘ first.aborting⟩

lemma continues_with (e) (inputs) (debugger) (wakeup) (duration) (notices) :
    Continues e { e with
      inputs, debugger, wakeup, now := e.now + duration, bus := e.bus.announce notices } :=
  ⟨⟨rfl, Nat.le_add_right _ _, notices, rfl⟩, rfl, id⟩

lemma step_continues (e) (m : Machine) : Continues e (m.step e).1 := by
  obtain ⟨inputs, debugger, wakeup, -, changed⟩ := m.step_affects e
  rw [changed]
  exact continues_with e inputs debugger wakeup 0 _

lemma abort_continues (e) : Continues e e.abort.1 :=
  ⟨⟨rfl, Nat.le_refl _, [], rfl⟩, rfl, fun aborting => by simp [abort, cancelInputs, aborting]⟩

lemma stop_continues (stopped : e.stop = .ok (later, session)) : Continues e later := by
  unfold stop at stopped
  split at stopped
  · cases stopped
  · cases stopped
    exact ⟨⟨rfl, Nat.le_refl _, _, rfl⟩, rfl,
      fun aborting => by simp [announce, cancelInputs, aborting]⟩

lemma sessionFor_continues (e) (source) (analysis) : Continues e (e.sessionFor source analysis).1 := by
  unfold sessionFor
  split
  · exact continues_with e e.inputs _ _ 0 _
  · split
    · exact .refl e
    · exact (continues_with e e.inputs _ _ 0 _).trans (continues_with _ e.inputs _ _ 0 _)

lemma begin_follows (began : e.beginExecution source options = .ok (later, x)) :
    e.running = false ∧ Follows e later ∧ later.running = true := by
  unfold beginExecution at began
  split at began
  · cases began
  · rename_i idle
    refine ⟨by simpa using idle, ?_⟩
    have flagged : Follows e { e with running := true, aborting := false } :=
      ⟨rfl, Nat.le_refl _, [], rfl⟩
    cases debug : options.debug || options.step with
    | true =>
      have session := sessionFor_continues { e with running := true, aborting := false } source
        (analyze source)
      simp only [debug, if_true, Except.ok.injEq, Prod.mk.injEq] at began
      obtain ⟨rfl, -⟩ := began
      exact ⟨flagged.trans (session.toFollows.trans ⟨rfl, Nat.le_refl _, _, rfl⟩), session.running⟩
    | false =>
      simp only [debug, Except.ok.injEq, Prod.mk.injEq] at began
      obtain ⟨rfl, -⟩ := began
      exact ⟨flagged.trans ⟨rfl, Nat.le_refl _, _, rfl⟩, rfl⟩

def closingKinds : List EventKind := [.executionError, .sessionStop, .executionComplete]

lemma end_bus (e : Engine) (x) (outputs) (bindings : Dictionary Value) (error : Option RuntimeError) : ∃
    notices, (e.endExecution x outputs bindings error).1.bus = e.bus.announce notices ∧ ∀ notice ∈
    notices, notice.kind ∈ closingKinds := by
  have errors : ∀ found : List Diagnostic, ∀ notice ∈ found.map Notice.failed,
      notice.kind ∈ closingKinds := by
    intro _ _ mem
    obtain ⟨_, -, rfl⟩ := mem_map.mp mem
    simp [Notice.kind, closingKinds]
  have completed : ∀ success duration count text,
      ∀ notice ∈ [Notice.completed success duration count text], notice.kind ∈ closingKinds := by
    simp [Notice.kind, closingKinds]
  have closed : ∀ (d : Debugger) (session : Session),
      ∀ notice ∈ (d.closed session).2, notice.kind ∈ closingKinds := by
    simp [Debugger.closed, Notice.kind, closingKinds]
  unfold endExecution
  dsimp only
  split
  · split
    · refine ⟨_, (announce_append _ _ _).trans (announce_append _ _ _), ?_⟩
      exact forall_mem_append.mpr ⟨errors _, forall_mem_append.mpr ⟨closed _ _, completed _ _ _ _⟩⟩
    · exact ⟨_, announce_append _ _ _, forall_mem_append.mpr ⟨errors _, completed _ _ _ _⟩⟩
  · exact ⟨_, announce_append _ _ _, forall_mem_append.mpr ⟨errors _, completed _ _ _ _⟩⟩

lemma end_follows (e : Engine) (x) (outputs) (bindings) (error : Option RuntimeError) : Follows e
    (e.endExecution x outputs bindings error).1 ∧ (e.endExecution x outputs bindings error).1.running =
    false := by
  obtain ⟨notices, bus, -⟩ := end_bus e x outputs bindings error
  have kept : (e.endExecution x outputs bindings error).1.config = e.config ∧
      (e.endExecution x outputs bindings error).1.now = e.now := by
    unfold endExecution
    dsimp only
    split
    · split <;> exact ⟨rfl, rfl⟩
    · exact ⟨rfl, rfl⟩
  exact ⟨⟨kept.1, Nat.le_of_eq kept.2.symm, notices, bus⟩, rfl⟩

end Engine

namespace Machine

lemma slice_induction {P : Engine → Machine → Prop} {m : Machine} (first : P (m.step e).1 (m.step e).2)
    (step : ∀ e m, P e m → P (m.step e).1 (m.step e).2) : P (m.slice e).1 (m.slice e).2 := by
  have within : ∀ bound e m, P e m →
      P (stepsWithin bound e m).1 (stepsWithin bound e m).2 := by
    intro bound
    induction bound with
    | zero => exact fun e m holds => holds
    | succ _ ih =>
      intro e m holds
      simp only [stepsWithin]
      split
      · exact holds
      · exact ih _ _ (step e m holds)
  exact within _ _ _ first

lemma slice_continues {e : Engine} {m : Machine} (tidy : m.Tidy) :
    e.Continues (m.slice e).1 ∧ (m.slice e).2.Tidy := by
  have step : ∀ later m, e.Continues later ∧ Tidy m →
      e.Continues (m.step later).1 ∧ Tidy (m.step later).2 := by
    rintro later m ⟨continues, tidy⟩
    exact ⟨continues.trans (later.step_continues m), tidy.step later⟩
  exact slice_induction (P := fun later m => e.Continues later ∧ m.Tidy) (step e m ⟨.refl e, tidy⟩) step

lemma bindDeclarations_stack (statements) (m : Machine) : (m.bindDeclarations statements).stack =
    m.stack ∧ (m.bindDeclarations statements).muted = m.muted := by
  induction statements generalizing m with
  | nil => exact ⟨rfl, rfl⟩
  | cons s _ ih =>
    cases s with
    | function => exact ih (m.define _ _ _)
    | classDef => exact ih (m.define _ _ _)
    | _ => exact ih m

lemma bindDeclarations_withLedger (m : Machine) (records) (statements) :
    (m.withLedger records).bindDeclarations statements = (m.bindDeclarations statements).withLedger
    records := by
  induction statements generalizing m with
  | nil => rfl
  | cons s _ ih =>
    cases s with
    | function => exact ih (m.define _ _ _)
    | classDef => exact ih (m.define _ _ _)
    | _ => exact ih m

lemma bindDeclarations_ledger (m : Machine) (statements) :
    (m.bindDeclarations statements).ledger = m.ledger := by
  have own := bindDeclarations_withLedger m m.ledger statements
  rw [withLedger_ledger] at own
  rw [own]
  rfl

variable (target : Target) (now : Nat) (limit : Option Nat) (debugging : Bool)
include target now limit debugging

lemma ofTarget_ledger :
    (ofTarget target now limit debugging).ledger = ⟨#[], 0, now, 0, limit, debugging⟩ := by
  cases target with
  | program program =>
    exact bindDeclarations_ledger (initial now limit debugging) program.statements
  | sketch => rfl

lemma ofTarget_unprobed : (ofTarget target now limit debugging).IsUnprobed := by
  intro _ mem
  cases target with
  | program program =>
    have stack := (bindDeclarations_stack program.statements (initial now limit debugging)).1
    simp only [ofTarget, into, stack] at mem
    cases mem
  | sketch => cases mem

lemma ofTarget_tidy : (ofTarget target now limit debugging).Tidy := by
  cases target with
  | program program =>
    obtain ⟨stack, muted⟩ :=
      bindDeclarations_stack program.statements (initial now limit debugging)
    refine ⟨?_, fun isOpen => by cases isOpen⟩
    simp only [ofTarget, into, stack, muted]
    rfl
  | sketch => exact ⟨rfl, fun _ => rfl⟩

end Machine

lemma Engine.begin_tidy {e later : Engine} (began : e.beginExecution source options = .ok (later, x)) :
    ∀ m, x.machine = some m → m.Tidy := by
  unfold beginExecution at began
  split at began
  · cases began
  · simp only [Except.ok.injEq, Prod.mk.injEq] at began
    obtain ⟨-, rfl⟩ := began
    intro _ machine
    obtain ⟨_, -, rfl⟩ := Option.map_eq_some_iff.mp machine
    exact Machine.ofTarget_tidy _ _ _ _

namespace Task

def isExecuting : Task → Bool
  | .executing _ => true
  | _ => false

inductive Turn (e : Engine) (task : Task) : Engine → Task → Prop where
  | aside {later : Engine} {next : Task} (idle : task.isExecuting = false)
      (still : next.isExecuting = false) (continues : e.Continues later) : Turn e task later next
  | runs {later : Engine} {x : Execution} {m : Machine}
      (own : task.isExecuting = true ∨ e.running = false) (follows : e.Follows later)
      (running : later.running = true) (machine : x.machine = some m) (tidy : m.Tidy) :
      Turn e task later (.executing x)
  | ends (own : task.isExecuting = true ∨ e.running = false) (follows : e.Follows later)
      (running : later.running = false) : Turn e task later (.finished (.execution (.ok outcome)))

lemma runExecution_turn (own : task.isExecuting = true ∨ e.running = false) (follows : e.Follows start)
    (running : start.running) (tidy : ∀ m, x.machine = some m → m.Tidy) :
    Turn e task (runExecution start x).1 (runExecution start x).2 := by
  unfold runExecution Engine.runExecution
  cases machine : x.machine with
  | none =>
    obtain ⟨ended, idle⟩ := start.end_follows x [] [] none
    exact .ends own (follows.trans ended) idle
  | some m =>
    obtain ⟨continues, still⟩ := Machine.slice_continues (e := start) (tidy m machine)
    have onward := follows.trans continues.toFollows
    cases control : (m.slice start).2.control with
    | finished error =>
      obtain ⟨ended, idle⟩ := (m.slice start).1.end_follows x (m.slice start).2.outputs.toList
        ((m.slice start).2.environment.locals .global) error
      simp only [control]
      exact .ends own (onward.trans ended) idle
    | _ =>
      simp only [control]
      exact .runs own onward (continues.running.trans running) rfl still

lemma awaitInput_turn (wait) (idle : task.isExecuting = false) (continues : e.Continues start) :
    Turn e task (awaitInput start wait).1 (awaitInput start wait).2 := by
  unfold awaitInput
  split
  · exact .aside idle rfl (continues.trans (start.continues_with _ start.debugger _ 0 []))
  · exact .aside idle rfl continues

lemma slice_turn {e : Engine} (active : ∀ x, task = .executing x → e.running = true ∧ ∀ m, x.machine =
      some m → m.Tidy) : Turn e task (task.slice e).1 (task.slice e).2 := by
  cases task with
  | execute source options =>
    simp only [slice]
    cases began : e.beginExecution source options with
    | error => exact .aside rfl rfl (.refl e)
    | ok pair =>
      obtain ⟨_, _⟩ := pair
      obtain ⟨idle, follows, running⟩ := Engine.begin_follows began
      exact runExecution_turn (.inr idle) follows running (Engine.begin_tidy began)
  | executing x =>
    obtain ⟨running, tidy⟩ := active x rfl
    exact runExecution_turn (.inl rfl) (Engine.Continues.refl e).toFollows running tidy
  | request =>
    simp only [slice]
    exact awaitInput_turn _ rfl (e.continues_with _ e.debugger _ 0 _)
  | awaiting wait => exact awaitInput_turn wait rfl (.refl e)
  | finished => exact .aside rfl rfl (.refl e)

end Task

end Stepper
