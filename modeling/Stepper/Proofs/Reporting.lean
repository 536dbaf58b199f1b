import Mathlib.Data.List.Induction
import Stepper.Proofs.Launch
import Stepper.Proofs.Sessions

/-! # What an execution reports -/

namespace Stepper

open List Debugger Host

variable {notices published told : List Notice} {kinds : List EventKind} {outcome : ExecutionOutcome}

def Notice.printed? : Notice → Option String
  | .output text _ => some text
  | _ => none

lemma Notice.printed?_eq_none {notice : Notice} (other : notice.kind ≠ .executionOutput) :
    notice.printed? = none := by
  cases notice with
  | output => exact absurd rfl other
  | _ => rfl

/-- What may be told before a run starts. -/
def openingKinds : List EventKind := [.sessionStop, .sessionStart]

def runningKinds : List EventKind :=
  [.executionOutput, .inputRequest, .breakpointHit, .stepComplete, .executionPaused, .variableUpdate]

section

variable (only : ∀ notice ∈ notices, notice.kind ∈ kinds)

include only

lemma kind_ne_of_forall (other : kind ∉ kinds) : ∀ notice ∈ notices, notice.kind ≠ kind := by
  intro notice mem same
  exact other (same ▸ only notice mem)

lemma filterMap_printed?_eq_nil (other : EventKind.executionOutput ∉ kinds) :
    notices.filterMap Notice.printed? = [] := by
  rw [filterMap_eq_nil_iff]
  intro notice mem
  exact Notice.printed?_eq_none (kind_ne_of_forall only other notice mem)

lemma filter_kind_eq_nil (other : kind ∉ kinds) :
    notices.filter (fun notice => notice.kind == kind) = [] := by
  rw [filter_eq_nil_iff]
  intro notice mem same
  exact kind_ne_of_forall only other notice mem (eq_of_beq same)

end

namespace Machine
variable {m : Machine}

lemma notices_kind (e) : ∀ notice ∈ m.notices e, notice.kind ∈ runningKinds := by
  unfold notices
  split
  · split <;> simp [Notice.kind, runningKinds]
  · split <;> simp [Notice.kind, runningKinds]
  · simp [Notice.kind, runningKinds]
  · rename_i stop _
    unfold pause
    cases stop.breakpoint <;> cases stop.step <;> simp [Notice.kind, runningKinds]
  · simp

lemma Crosses.outputs {next : Machine} (crosses : Crosses b m next) : next.outputs = m.outputs := by
  cases crosses <;> rfl

lemma Attends.outputs {next : Machine} (attends : Attends b m next) : next.outputs = m.outputs := by
  cases attends <;> rfl

lemma Resumes.outputs {next : Engine × Machine} (resumes : Resumes e m wait next) :
    next.2.outputs = m.outputs := by
  cases resumes <;> rfl

lemma step_outputs (m : Machine) (e : Engine) :
    (m.step e).2.outputs.toList = m.outputs.toList ++ (m.notices e).filterMap Notice.printed? := by
  -- All but one of the places where a step publishes print nothing.
  have silent : (m.step e).2.outputs = m.outputs →
      (m.notices e).filterMap Notice.printed? = [] → (m.step e).2.outputs.toList =
        m.outputs.toList ++ (m.notices e).filterMap Notice.printed? := by
    intro same nothing
    rw [same, nothing, append_nil]
  by_cases quiet : m.IsQuiet
  · apply silent
    · exact congrArg Ledger.outputs (congrArg ledger (step_quiet_ledger e quiet)).symm
    · rw [notices_quiet e quiet]
      rfl
  · cases encounter_of_loud quiet with
    | prints shape =>
      simp only [step, shape, complete, print, notices]
      split
      · simp [fail, into]
      · simp [flow, into, Notice.printed?]
    | asks shape few =>
      apply silent
      · simp only [step, shape, complete, applyBuiltin]
        split <;> rfl
      · simp [notices, shape, few, Notice.printed?]
    | boundary shape =>
      apply silent
      · simp only [step, shape]
        exact (m.stepBoundary_crosses e _).outputs
      · simp [notices, shape]
    | arrived shape =>
      apply silent
      · simp only [step, shape]
        exact (m.arrive_attends e _).outputs
      · simp [notices, shape]
    | @log _ rest _ _ shape =>
      apply silent
      · simp only [step, shape]
        exact (m.stepLog_attends e _ _ _).outputs
      · cases rest <;> simp [notices, shape, Notice.printed?]
    | @watch rest _ _ _ stop shape =>
      apply silent
      · simp only [step, shape, stepWatch]
        split <;> rfl
      · cases rest with
        | cons => simp [notices, shape]
        | nil =>
          simp only [notices, shape, pause]
          cases stop.breakpoint <;> cases stop.step <;> simp [Notice.printed?]
    | waits shape =>
      apply silent
      · simp only [step, shape]
        exact (m.resume_resumes e _).outputs
      · simp [notices, shape]
    | @probed result _ stack shape top probe =>
      obtain ⟨_, shown⟩ := exists_shown probe
      apply silent
      · simp only [step, shape, deliver, top]
        exact (deliverTo_attends { m with control := .deliver result, stack } e shown result).outputs
      · simp [notices, shape]

lemma slice_tells (m : Machine) (e : Engine) : ∃ told, (m.slice e).1.bus = e.bus.announce told ∧
    (∀ notice ∈ told, notice.kind ∈ runningKinds) ∧ (m.slice e).2.outputs.toList = m.outputs.toList ++
    told.filterMap Notice.printed? := by
  apply slice_induction (P := fun later run => ∃ told, later.bus = e.bus.announce told ∧
    (∀ notice ∈ told, notice.kind ∈ runningKinds) ∧
    run.outputs.toList = m.outputs.toList ++ told.filterMap Notice.printed?)
  · exact ⟨_, m.step_bus e, notices_kind e, m.step_outputs e⟩
  · rintro later run ⟨told, bus, kinds, outputs⟩
    refine ⟨told ++ run.notices later, ?_, ?_, ?_⟩
    · rw [run.step_bus later, bus, Engine.announce_append]
    · exact forall_mem_append.mpr ⟨kinds, notices_kind later⟩
    · rw [run.step_outputs later, outputs, filterMap_append, append_assoc]

end Machine

namespace Engine
variable {e start : Engine} {source : String} {options : ExecutionOptions} {x : Execution}

lemma sessionFor_tells (e : Engine) (source : String) (analysis : Analysis) : ∃ opening,
    (e.sessionFor source analysis).1.bus = e.bus.announce opening ∧ ∀ notice ∈ opening, notice.kind ∈
    openingKinds := by
  unfold sessionFor
  dsimp only
  split
  · exact ⟨_, rfl, by simp [opened, Notice.kind, openingKinds]⟩
  · split
    · exact ⟨[], rfl, by simp⟩
    · refine ⟨_, announce_append _ _ _, ?_⟩
      simp [closed, opened, Notice.kind, openingKinds]

lemma begin_tells (began : e.beginExecution source options = .ok (start, x)) : ∃ opening, start.bus =
    e.bus.announce (opening ++ [.started (options.debug || options.step) options.step
      (options.timeout.getD e.config.defaultTimeout)]) ∧ ∀ notice ∈ opening, notice.kind ∈
    openingKinds := by
  have idle := (begin_follows began).1
  cases debug : options.debug || options.step with
  | true =>
    obtain ⟨opening, bus, kinds⟩ :=
      sessionFor_tells { e with running := true, aborting := false } source (analyze source)
    have limits := (sessionFor_continues { e with running := true, aborting := false } source
      (analyze source)).config
    simp only [beginExecution, idle, debug, Bool.false_eq_true, if_false, if_true, limits,
      Except.ok.injEq, Prod.mk.injEq] at began
    refine ⟨opening, ?_, kinds⟩
    rw [← began.1]
    exact (congrArg (Bus.announce · _) bus).trans (announce_append _ _ _)
  | false =>
    simp only [beginExecution, idle, debug, Bool.false_eq_true, if_false, Except.ok.injEq,
      Prod.mk.injEq] at began
    refine ⟨[], ?_, by simp⟩
    rw [← began.1]
    rfl

end Engine

lemma analyze_errors (rejected : (analyze source).program = none) :
    (analyze source).errors ≠ [] := by
  simp only [analyze, analyzeUnit, Analysis.errors] at rejected ⊢
  intro clean
  rw [filter_eq_nil_iff] at clean
  split at rejected
  · rename_i faulty
    obtain ⟨d, mem, error⟩ := any_eq_true.mp faulty
    exact clean d mem error
  · cases rejected

namespace Execution

def IsSound (x : Execution) : Prop := x.degraded = true → x.analysis.errors ≠ []

end Execution

namespace Engine
variable {e start : Engine} {source : String} {options : ExecutionOptions} {x : Execution}

lemma begin_sound (valid : e.debugger.Valid)
    (began : e.beginExecution source options = .ok (start, x)) : x.IsSound := by
  intro degraded
  unfold beginExecution at began
  split at began
  · cases began
  · simp only [Except.ok.injEq, Prod.mk.injEq] at began
    obtain ⟨-, rfl⟩ := began
    apply analyze_errors
    cases parses : (analyze source).program with
    | none => rfl
    | some =>
      have target := (sessionFor_target (e := { e with running := true, aborting := false }) valid
        source).1
      simp only [Target.ofAnalysis, parses] at target
      cases debug : options.debug || options.step <;>
        simp [debug, target, parses, Target.isSketch] at degraded

lemma begin_outputs (began : e.beginExecution source options = .ok (start, x)) {m : Machine}
    (machine : x.machine = some m) : m.outputs = #[] := by
  unfold beginExecution at began
  split at began
  · cases began
  · simp only [Except.ok.injEq, Prod.mk.injEq] at began
    obtain ⟨-, rfl⟩ := began
    obtain ⟨_, -, rfl⟩ := Option.map_eq_some_iff.mp machine
    exact congrArg Machine.Ledger.outputs (Machine.ofTarget_ledger _ _ _ _)

lemma end_tells (e : Engine) (x : Execution) (outputs : List String)
    (bindings : Dictionary Value) (error : Option RuntimeError) :
    let outcome := (e.endExecution x outputs bindings error).2
    ∃ closing, (e.endExecution x outputs bindings error).1.bus = e.bus.announce
        ((outcome.diagnostics.filter Diagnostic.isError).map Notice.failed ++ closing ++
          [.completed outcome.success outcome.duration outcome.outputs.length
            (outcome.error.map Diagnostic.text)]) ∧
      ∀ notice ∈ closing, notice.kind ∈ [EventKind.sessionStop] := by
  intro outcome
  cases debug : x.debug with
  | false =>
    refine ⟨[], ?_, by simp⟩
    rw [append_nil, ← announce_append]
    simp only [outcome, endExecution, debug, Bool.false_eq_true, if_false]
    rfl
  | true =>
    cases present : e.debugger.session with
    | none =>
      refine ⟨[], ?_, by simp⟩
      rw [append_nil, ← announce_append]
      simp only [outcome, endExecution, debug, if_true, announce, cancelInputs, endRun, present]
    | some session =>
      refine ⟨((e.debugger.endRun outcome.success).closed session).2, ?_, ?_⟩
      · rw [← announce_append, ← announce_append]
        simp only [outcome, endExecution, debug, if_true, announce, cancelInputs, endRun, present]
      · simp [closed, Notice.kind]

lemma end_success (e : Engine) (sound : x.IsSound) (outputs : List String)
    (bindings : Dictionary Value) (error : Option RuntimeError) :
    let outcome := (e.endExecution x outputs bindings error).2
    (outcome.success = true ↔ outcome.error = none) ∧
      (outcome.error = none ↔ ∀ d ∈ outcome.diagnostics, d.isError = false) := by
  simp only [endExecution]
  cases error with
  | some raised =>
    have faulty : (raised.toDiagnostic).isError := rfl
    simp [faulty]
  | none =>
    have none_iff : x.analysis.errors.head? = none ↔ ∀ d ∈ x.analysis.diagnostics,
        d.isError = false := by
      rw [List.head?_eq_none_iff, Analysis.errors, filter_eq_nil_iff]
      simp only [Bool.not_eq_true]
    constructor
    · cases degraded : x.degraded with
      | false => simp
      | true =>
        have faulty : x.analysis.errors ≠ [] := sound degraded
        simp [faulty]
    · simpa using none_iff

end Engine

/-! ### What a task has published -/

/-- Whether what was published tells an outcome: one start, one completion at the end, the outputs and
the errors in order and no others. -/
structure ExecutionOutcome.Reported (outcome : ExecutionOutcome) (published : List Notice) :
    Prop where
  start : ∃ opening debug step timeout rest,
    published = opening ++ .started debug step timeout :: rest ∧
      (∀ notice ∈ opening, notice.kind ∈ openingKinds) ∧
      ∀ notice ∈ rest, notice.kind ≠ .executionStart
  complete : ∃ rest, published = rest ++ [.completed outcome.success outcome.duration
      outcome.outputs.length (outcome.error.map Diagnostic.text)] ∧
    ∀ notice ∈ rest, notice.kind ≠ .executionComplete
  outputs : published.filterMap Notice.printed? = outcome.outputs
  errors : published.filter (fun notice => notice.kind == .executionError) =
    (outcome.diagnostics.filter Diagnostic.isError).map Notice.failed
  success : outcome.success = true ↔ outcome.error = none
  clean : outcome.error = none ↔ ∀ d ∈ outcome.diagnostics, d.isError = false

structure Opened (published told : List Notice) : Prop where
  shape : ∃ opening debug step timeout, published = opening ++ .started debug step timeout :: told ∧
    ∀ notice ∈ opening, notice.kind ∈ openingKinds
  running : ∀ notice ∈ told, notice.kind ∈ runningKinds

lemma Opened.more (opened : Opened published told)
    (running : ∀ notice ∈ new, notice.kind ∈ runningKinds) :
    Opened (published ++ new) (told ++ new) := by
  obtain ⟨opening, debug, step, timeout, rfl, kinds⟩ := opened.shape
  constructor
  · exact ⟨opening, debug, step, timeout, by simp, kinds⟩
  · exact forall_mem_append.mpr ⟨opened.running, running⟩

lemma Opened.reported (opened : Opened published told) (e : Engine) {x : Execution} (sound : x.IsSound)
    (printed : told.filterMap Notice.printed? = outputs) (bindings : Dictionary Value)
    (error : Option RuntimeError) : ∃ new, (e.endExecution x outputs bindings error).1.bus =
    e.bus.announce new ∧ (e.endExecution x outputs bindings error).2.Reported (published ++ new) := by
  obtain ⟨opening, debug, step, timeout, rfl, before⟩ := opened.shape
  obtain ⟨_, bus, behind⟩ := e.end_tells x outputs bindings error
  obtain ⟨success, clean⟩ := e.end_success sound outputs bindings error
  have same : (e.endExecution x outputs bindings error).2.outputs = outputs := rfl
  generalize (e.endExecution x outputs bindings error).2 = outcome at *
  have failed : ∀ notice ∈ (outcome.diagnostics.filter Diagnostic.isError).map Notice.failed,
      notice.kind ∈ [EventKind.executionError] := by
    intro _ mem
    obtain ⟨_, -, rfl⟩ := mem_map.mp mem
    exact mem_singleton.mpr rfl
  refine ⟨_, bus, ?_⟩
  constructor
  · refine ⟨opening, debug, step, timeout, _, by rw [append_assoc, cons_append], before, ?_⟩
    simp only [forall_mem_append]
    refine ⟨kind_ne_of_forall opened.running (by decide),
      ⟨kind_ne_of_forall failed (by decide), kind_ne_of_forall behind (by decide)⟩, ?_⟩
    simp [Notice.kind]
  · refine ⟨_, by rw [← append_assoc], ?_⟩
    simp only [forall_mem_append, forall_mem_cons]
    exact ⟨⟨kind_ne_of_forall before (by decide), by simp [Notice.kind],
      kind_ne_of_forall opened.running (by decide)⟩, kind_ne_of_forall failed (by decide),
      kind_ne_of_forall behind (by decide)⟩
  · rw [filterMap_append, filterMap_append, filterMap_append, filterMap_append,
      filterMap_printed?_eq_nil before (by decide), filterMap_printed?_eq_nil failed (by decide),
      filterMap_printed?_eq_nil behind (by decide), filterMap_cons_none rfl, printed, same]
    exact append_nil outputs
  · have kept : ((outcome.diagnostics.filter Diagnostic.isError).map Notice.failed).filter
        (fun notice => notice.kind == .executionError) =
        (outcome.diagnostics.filter Diagnostic.isError).map Notice.failed := by
      apply filter_eq_self.mpr
      intro notice mem
      simpa using failed notice mem
    rw [filter_append, filter_append, filter_append, filter_append,
      filter_kind_eq_nil before (by decide), kept, filter_kind_eq_nil behind (by decide),
      filter_cons_of_neg (by simp [Notice.kind]),
      filter_kind_eq_nil opened.running (by decide), filter_cons_of_neg (by simp [Notice.kind])]
    simp
  · exact success
  · exact clean

namespace Task

def Tells (published : List Notice) : Option Task → Prop
  | some (.executing x) => x.IsSound ∧ ∃ m told, x.machine = some m ∧ Opened published told ∧
    m.outputs.toList = told.filterMap Notice.printed?
  | some (.finished (.execution (.ok outcome))) => outcome.Reported published
  | some (.execute _ _) | some (.finished (.execution (.error _))) | none => published = []
  | _ => True

lemma runExecution_tells (start : Engine) {x : Execution} (sound : x.IsSound)
    (opened : Opened published told) (printed : (x.machine.elim [] fun m => m.outputs.toList) =
      told.filterMap Notice.printed?) : ∃ new, (runExecution start x).1.bus = start.bus.announce new ∧
    Tells (published ++ new) (some (runExecution start x).2) := by
  unfold runExecution Engine.runExecution
  cases machine : x.machine with
  | none =>
    rw [machine] at printed
    exact opened.reported start sound printed.symm [] none
  | some m =>
    obtain ⟨new, bus, kinds, outputs⟩ := m.slice_tells start
    have more := opened.more kinds
    have grown : (told ++ new).filterMap Notice.printed? = (m.slice start).2.outputs.toList := by
      rw [machine] at printed
      rw [outputs, filterMap_append, ← printed]
      rfl
    cases control : (m.slice start).2.control with
    | finished error =>
      obtain ⟨last, ended, _⟩ := more.reported (m.slice start).1 sound grown
        ((m.slice start).2.environment.locals .global) error
      simp only [control]
      refine ⟨new ++ last, ?_, ?_⟩
      · rw [ended, bus, Engine.announce_append]
      · rwa [← append_assoc]
    | _ =>
      simp only [control]
      exact ⟨new, bus, sound, _, told ++ new, rfl, more, grown.symm⟩

lemma runExecution_running {start : Engine}
    (ended : (runExecution start x).2 = .finished (.execution (.ok outcome))) :
    (runExecution start x).1.running = false := by
  unfold runExecution Engine.runExecution at ended ⊢
  cases machine : x.machine with
  | none => rfl
  | some m =>
    simp only [machine] at ended ⊢
    cases control : (m.slice start).2.control with
    | finished => rfl
    | _ =>
      simp only [control] at ended
      cases ended

lemma slice_running {task : Task}
    (ended : (task.slice e).2 = .finished (.execution (.ok outcome))) (ready : task.isReady e) :
    (task.slice e).1.running = false := by
  cases task with
  | execute source options =>
    simp only [slice] at ended ⊢
    cases began : e.beginExecution source options with
    | error =>
      rw [began] at ended
      cases ended
    | ok =>
      rw [began] at ended
      exact runExecution_running ended
  | executing => exact runExecution_running ended
  | request =>
    simp only [slice, awaitInput] at ended
    split at ended <;> cases ended
  | awaiting =>
    simp only [slice, awaitInput] at ended
    split at ended <;> cases ended
  | finished => cases ready

lemma runExecution_ne_error (start) (x) (error : SessionError) :
    (runExecution start x).2 ≠ .finished (.execution (.error error)) := by
  unfold runExecution
  split <;> simp

lemma awaitInput_tells (e) (wait) :
    (awaitInput e wait).1.bus = e.bus ∧ ∀ published, Tells published (some (awaitInput e wait).2) := by
  unfold awaitInput
  split <;> exact ⟨rfl, fun _ => trivial⟩

end Task

namespace Host
variable {h : Host} {number : Nat} {move : Move} {published : List Notice}

/-- What is told in the slices of one task. -/
def heardFrom (h : Host) (number : Nat) : List Move → List Notice
  | [] => []
  | move :: rest =>
    (if move.isSliceOf number then h.newlyHeard move else []) ++ (h.move move).heardFrom number rest

lemma heardFrom_concat (h : Host) (number : Nat) (moves : List Move) (move : Move) : h.heardFrom number
    (moves ++ [move]) = h.heardFrom number moves ++ if move.isSliceOf number then
    (h.moves moves).newlyHeard move else [] := by
  induction moves generalizing h with
  | nil => simp [heardFrom, moves]
  | cons _ _ ih =>
    simp only [cons_append, heardFrom, ih, append_assoc]
    rfl

lemma move_slice (found : h.task? number = some task) (ready : task.isReady h.engine) : h.move
    (.slice number) = (h.withEngine (task.slice h.engine).1).putTask number
    (task.slice h.engine).2 := by
  simp only [move, sliceOf, found, ready, if_true]

lemma task?_move_slice (found : h.task? number = some task) (ready : task.isReady h.engine) :
    (h.move (.slice number)).task? number = some (task.slice h.engine).2 := by
  rw [move_slice found ready, task?_after found, if_pos rfl]

lemma tells_foreign (orderly : h.Orderly) (foreign : move ≠ .slice number)
    (tells : Task.Tells published (h.task? number)) :
    Task.Tells published ((h.move move).task? number) := by
  rcases task?_foreign orderly foreign with same | ⟨absent, task, started, fresh⟩
  · rwa [same]
  · rw [absent] at tells
    rw [started]
    cases task with
    | execute => exact tells
    | request => trivial
    | _ => cases fresh

lemma slice_tells (valid : h.engine.debugger.Valid) (tells : Task.Tells published (h.task? number)) : ∃
    new, (h.move (.slice number)).engine.bus = h.engine.bus.announce new ∧ Task.Tells (published ++ new)
    ((h.move (.slice number)).task? number) := by
  cases found : h.task? number with
  | none =>
    rw [found] at tells
    have same : h.move (.slice number) = h := by simp [move, sliceOf, found]
    rw [same, found]
    exact ⟨[], rfl, by simpa using tells⟩
  | some task =>
    rw [found] at tells
    by_cases ready : task.isReady h.engine = true
    · rw [task?_move_slice found ready, move_slice found ready]
      show ∃ new, (task.slice h.engine).1.bus = h.engine.bus.announce new ∧ _
      cases task with
      | execute source options =>
        have nothing : published = [] := tells
        subst nothing
        simp only [Task.slice]
        cases began : h.engine.beginExecution source options with
        | error => exact ⟨[], rfl, rfl⟩
        | ok pair =>
          obtain ⟨start, x⟩ := pair
          obtain ⟨opening, bus, kinds⟩ := Engine.begin_tells began
          have opened : Opened (opening ++ [.started (options.debug || options.step) options.step
              (options.timeout.getD h.engine.config.defaultTimeout)]) [] :=
            ⟨⟨opening, _, _, _, rfl, kinds⟩, by simp⟩
          have printed : (x.machine.elim [] fun m => m.outputs.toList) = [] := by
            cases machine : x.machine with
            | none => rfl
            | some => simp [Engine.begin_outputs began machine]
          obtain ⟨new, told, tells⟩ :=
            Task.runExecution_tells start (Engine.begin_sound valid began) opened printed
          refine ⟨_ ++ new, ?_, tells⟩
          simp only [told, bus, Engine.announce_append]
      | executing =>
        obtain ⟨sound, _, _, machine, opened, outputs⟩ := tells
        apply Task.runExecution_tells h.engine sound opened
        rw [machine]
        exact outputs
      | request prompt limit validator =>
        obtain ⟨bus, tells⟩ := Task.awaitInput_tells (h.engine.askInput prompt validator).1
          ⟨h.engine.inputs.issued + 1, h.engine.now, limit⟩
        exact ⟨_, bus, tells _⟩
      | awaiting wait =>
        obtain ⟨bus, tells⟩ := Task.awaitInput_tells h.engine wait
        exact ⟨[], bus, tells _⟩
      | finished => cases ready
    · have same : h.move (.slice number) = h := by simp [move, sliceOf, found, ready]
      rw [same, found]
      exact ⟨[], rfl, by rwa [append_nil]⟩

lemma moves_tell (config : Config) (moves : List Move) (number : Nat) : Task.Tells
    ((observed config).heardFrom number moves) (((observed config).moves moves).task? number) := by
  induction moves using List.reverseRecOn with
  | nil => rfl
  | append_singleton moves move ih =>
    have orderly := (observed_orderly config).moves moves
    rw [moves_concat, heardFrom_concat]
    by_cases own : move.isSliceOf number = true
    · cases Move.isSliceOf_iff.mp own
      obtain ⟨_, bus, tells⟩ :=
        slice_tells (observed_valid config moves) ih
      rw [if_pos own, newlyHeard_eq orderly bus]
      exact tells
    · rw [if_neg own, append_nil]
      exact tells_foreign orderly (mt Move.isSliceOf_iff.mpr own) ih

/-! ### The active execution -/

def Manned (h : Host) : Prop :=
  h.engine.running = true → ∃ number x, h.task? number = some (.executing x)

lemma Manned.after (orderly : h.Orderly) (manned : h.Manned) (move) : (h.move move).Manned := by
  intro running
  -- An execution that is active and gets no slice stays where it is.
  have stays : ∀ {number x}, h.task? number = some (.executing x) → move ≠ .slice number →
      ∃ number x, (h.move move).task? number = some (.executing x) :=
    fun active foreign => ⟨_, _, (orderly.foreign active foreign).2⟩
  cases move with
  | wait =>
    obtain ⟨_, _, active⟩ := manned running
    exact stays active (by simp)
  | call call immediate =>
    have before : h.engine.running := by
      rcases perform_immediate (h := h) call immediate with ⟨task, rfl, same⟩ | ⟨later, continues, same⟩
      · exact (congrArg (·.engine.running) same).symm.trans running
      · simp only [move, same] at running
        exact continues.running.symm.trans running
    obtain ⟨_, _, active⟩ := manned before
    exact stays active (by simp)
  | slice number =>
    cases found : h.task? number with
    | none =>
      have same : h.move (.slice number) = h := by simp [move, sliceOf, found]
      rw [same] at running ⊢
      exact manned running
    | some task =>
      by_cases ready : task.isReady h.engine = true
      · have turn := orderly.sliceTurn found
        rw [move_slice found ready] at running ⊢
        have later : (task.slice h.engine).1.running := running
        generalize (task.slice h.engine).2 = next at turn ⊢
        cases turn with
        | @runs _ => exact ⟨number, _, by rw [task?_after found, if_pos rfl]⟩
        | ends _ _ idle =>
          rw [idle] at later
          cases later
        | aside idle _ continues =>
          obtain ⟨other, x, active⟩ := manned (continues.running.symm.trans later)
          refine ⟨other, x, ?_⟩
          rw [task?_after found, if_neg, active]
          rintro rfl
          cases found.symm.trans active
          cases idle
      · have same : h.move (.slice number) = h := by simp [move, sliceOf, found, ready]
        rw [same] at running ⊢
        exact manned running

lemma moves_manned (config) (moves) : ((observed config).moves moves).Manned := by
  induction moves using List.reverseRecOn with
  | nil => exact fun running => by cases running
  | append_singleton moves move ih =>
    rw [moves_concat]
    exact ih.after ((observed_orderly config).moves moves) move

lemma running_of_returned (orderly : h.Orderly)
    (before : h.task? number ≠ some (.finished (.execution (.ok outcome))))
    (returned : (h.move move).task? number = some (.finished (.execution (.ok outcome)))) :
    (h.move move).engine.running = false := by
  by_cases own : move = .slice number
  · subst own
    cases found : h.task? number with
    | none =>
      have same : h.move (.slice number) = h := by simp [move, sliceOf, found]
      exact absurd (same ▸ returned) before
    | some task =>
      by_cases ready : task.isReady h.engine = true
      · have came := Option.some.inj ((task?_move_slice found ready).symm.trans returned)
        rw [move_slice found ready]
        exact Task.slice_running came ready
      · have same : h.move (.slice number) = h := by simp [move, sliceOf, found, ready]
        exact absurd (same ▸ returned) before
  · rcases task?_foreign orderly own with same | ⟨-, task, started, fresh⟩
    · exact absurd (same.symm.trans returned) before
    · cases started.symm.trans returned
      cases fresh

/-- What holds of runs in every interleaving: there is one at a time, a second is refused and changes
nothing, and each that ends has been reported as it ended. -/
structure KeepsProtocol (config : Config) (moves : List Move) : Prop where
  single : ∀ first second x y,
    ((observed config).moves moves).task? first = some (.executing x) →
    ((observed config).moves moves).task? second = some (.executing y) → first = second
  active : ((observed config).moves moves).engine.running = true ↔
    ∃ number x, ((observed config).moves moves).task? number = some (.executing x)
  refused : ∀ number source options,
    ((observed config).moves moves).task? number = some (.execute source options) →
    ((observed config).moves moves).engine.running = true →
    (((observed config).moves moves).move (.slice number)).engine =
        ((observed config).moves moves).engine ∧
      (((observed config).moves moves).move (.slice number)).task? number =
        some (.finished (.execution (.error .alreadyRunning)))
  admitted : ∀ number source options error,
    ((observed config).moves moves).task? number = some (.execute source options) →
    ((observed config).moves moves).engine.running = false →
    (((observed config).moves moves).move (.slice number)).task? number ≠
      some (.finished (.execution (.error error)))
  reported : ∀ number outcome,
    ((observed config).moves moves).task? number = some (.finished (.execution (.ok outcome))) →
    outcome.Reported ((observed config).heardFrom number moves)
  cleared : ∀ number outcome move,
    ((observed config).moves moves).task? number ≠ some (.finished (.execution (.ok outcome))) →
    (((observed config).moves moves).move move).task? number =
      some (.finished (.execution (.ok outcome))) →
    (((observed config).moves moves).move move).engine.running = false

/-- However slices and calls interleave, the executions of a host keep the protocol of their events.
-/
theorem executions_keep_protocol (config : Config) (moves : List Move) :
    KeepsProtocol config moves := by
  have orderly := (observed_orderly config).moves moves
  constructor
  · exact orderly.single
  · constructor
    · exact moves_manned config moves
    · rintro ⟨number, x, active⟩
      exact (orderly.active number x active).1
  · intro _ source options found running
    have refused : Task.slice ((observed config).moves moves).engine (.execute source options) =
        (((observed config).moves moves).engine, .finished (.execution (.error .alreadyRunning))) := by
      simp [Task.slice, Engine.beginExecution, running]
    rw [task?_move_slice found rfl, move_slice found rfl, refused]
    exact ⟨rfl, rfl⟩
  · intro _ source options error found idle
    rw [task?_move_slice found rfl]
    obtain ⟨start, x, began⟩ : ∃ start x, ((observed config).moves moves).engine.beginExecution source
        options = .ok (start, x) := by simp [Engine.beginExecution, idle]
    simp only [Task.slice, began, ne_eq, Option.some.injEq]
    exact Task.runExecution_ne_error start x error
  · intro number _ returned
    have tells := moves_tell config moves number
    rwa [returned] at tells
  · intro _ _ _ before returned
    exact running_of_returned orderly before returned

end Host

end Stepper
