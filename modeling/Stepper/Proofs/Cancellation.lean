import Stepper.Proofs.History
import Stepper.Proofs.Straying

/-! # Cancellation -/

namespace Stepper

open List Engine

lemma ne_of_beginning {first rest text : String} (apart : first.toList.isPrefixOf text.toList = false) :
    first ++ rest ≠ text := by
  rintro rfl
  rw [String.toList_append, ← Bool.not_eq_true, isPrefixOf_iff_prefix] at apart
  exact apart (prefix_append _ _)

lemma Fault.eq_aborted_of_message {fault : Fault} (worded : fault.message = message .aborted) :
    fault = .aborted := by
  cases fault with
  | aborted => rfl
  | divisionByZero | zeroStep | inputOutsideRun => exact absurd worded (by decide +kernel)
  | builtinArity name expected got =>
    -- The name stands first, so the parenthesis behind it tells the two apart.
    have text : name ++ " expects " ++ expected ++ " argument(s), got " ++ toString got =
        message .aborted := worded
    have written : '(' ∈ " argument(s), got ".toList := by decide +kernel
    have absent : '(' ∉ (message .aborted).toList := by decide +kernel
    rw [← text, String.toList_append, String.toList_append] at absent
    exact absurd (mem_append_left _ (mem_append_right _ written)) absent
  | notANumber role =>
    unfold message at worded
    simp only [String.append_assoc] at worded
    cases role <;> exact absurd worded (ne_of_beginning (by decide +kernel))
  | input error =>
    cases error with
    | rejected => exact absurd worded (ne_of_beginning (by decide +kernel))
    | timedOut =>
      unfold message InputError.message at worded
      simp only [String.append_assoc] at worded
      exact absurd worded (ne_of_beginning (by decide +kernel))
    | cancelled | noPendingRequest => exact absurd worded (by decide +kernel)
  | _ =>
    unfold message at worded
    simp only [String.append_assoc] at worded
    exact absurd worded (ne_of_beginning (by decide +kernel))

/-- The outcome of a run that was aborted: it failed, and the last diagnostic says so. -/
def ExecutionOutcome.IsAborted (outcome : ExecutionOutcome) (analysis : Analysis) : Prop :=
  ∃ error : Diagnostic, outcome.success = false ∧ outcome.error = some error ∧
    error.message = "Execution aborted" ∧ outcome.diagnostics = analysis.diagnostics ++ [error]

lemma Engine.end_isAborted (e : Engine) (x) (outputs) (bindings) (error : Option RuntimeError) :
    (e.endExecution x outputs bindings error).2.IsAborted x.analysis ↔ ∃ location, error = some
    ⟨.aborted, location⟩ := by
  constructor
  · rintro ⟨reported, -, -, worded, diagnostics⟩
    cases error with
    | none => simp [endExecution] at diagnostics
    | some raised =>
      obtain ⟨fault, location⟩ := raised
      have same : fault.diagnostic location = reported := by
        simpa [endExecution, RuntimeError.toDiagnostic] using diagnostics
      rw [← same] at worded
      obtain rfl := Fault.eq_aborted_of_message worded
      exact ⟨location, rfl⟩
  · rintro ⟨location, rfl⟩
    exact ⟨Fault.diagnostic .aborted location, rfl, rfl, rfl, rfl⟩

namespace Machine
variable {config : Config} {m : Machine}

def Publishes (property : List Notice → Prop) (e later : Engine) : Prop :=
  ∃ notices, later.bus = e.bus.announce notices ∧ property notices

/-- Whether none of the notices is one that a cancelled run may no longer give. -/
def IsSilent (notices : List Notice) : Prop := ∀ notice ∈ notices, notice.kind ∉ cancelledKinds

instance (notices : List Notice) : Decidable (IsSilent notices) :=
  inferInstanceAs (Decidable (∀ notice ∈ notices, notice.kind ∉ cancelledKinds))

section
variable (doomed : Doomed config n m)
include doomed

lemma Doomed.step (same : e.config = config) (aborting : e.aborting) :
    Doomed config n (m.step e).2 ∧ IsSilent (m.notices e) := by
  cases doomed with
  | ended finished =>
    refine ⟨?_, by simp [IsSilent, notices, finished]⟩
    simp only [Machine.step, finished]
    exact .ended finished
  | before _ silent onward => exact ⟨(onward e same aborting).weaken, silent e aborting⟩

lemma Doomed.nearer (unfinished : ∀ error, m.control ≠ .finished error) (same : e.config = config)
    (aborting : e.aborting) : 0 < n ∧ Doomed config (n - 1) (m.step e).2 := by
  cases doomed with
  | ended finished => exact absurd finished (unfinished _)
  | @before n _ _ _ onward => exact ⟨Nat.succ_pos n, onward e same aborting⟩

lemma Doomed.finished (finished : m.control = .finished error) :
    ∃ location, error = some ⟨.aborted, location⟩ := by
  cases doomed with
  | @ended _ _ location ended =>
    rw [ended] at finished
    cases finished
    exact ⟨location, rfl⟩
  | before ready =>
    have stuck := ready { ofConfig config with aborting := true } rfl
    simp [isReady, finished] at stuck

lemma Doomed.slice (unfinished : ∀ error, m.control ≠ .finished error) (same : e.config = config)
    (aborting : e.aborting) :
    Doomed config (n - 1) (m.slice e).2 ∧ Publishes IsSilent e (m.slice e).1 := by
  have all : e.Continues (m.slice e).1 ∧ Doomed config (n - 1) (m.slice e).2 ∧
      Publishes IsSilent e (m.slice e).1 := by
    refine slice_induction (P := fun later m => e.Continues later ∧ Doomed config (n - 1) m ∧
      Publishes IsSilent e later) ?_ ?_
    · exact ⟨e.step_continues m, (doomed.nearer unfinished same aborting).2, m.notices e,
        m.step_bus e, (doomed.step same aborting).2⟩
    · rintro later m ⟨continues, doomed, notices, bus, silent⟩
      obtain ⟨still, quiet⟩ := doomed.step (continues.config.trans same) (continues.aborting aborting)
      refine ⟨continues.trans (later.step_continues m), still,
        notices ++ m.notices later, ?_, forall_mem_append.mpr ⟨silent, quiet⟩⟩
      rw [step_bus, bus, announce_append]
  exact all.2

end

lemma Strays.slice (strays : Strays config m) (tidy : Tidy m) (same : e.config = config)
    (aborting : e.aborting) :
    Publishes (¬IsSilent ·) e (m.slice e).1 ∨ Strays config (m.slice e).2 := by
  have step : ∀ later m, e.Continues later ∧ Tidy m ∧
      (Publishes (¬IsSilent ·) e later ∨ Strays config m) →
      e.Continues (m.step later).1 ∧ Tidy (m.step later).2 ∧
        (Publishes (¬IsSilent ·) e (m.step later).1 ∨ Strays config (m.step later).2) := by
    rintro later m ⟨continues, tidy, progress⟩
    refine ⟨continues.trans (later.step_continues m), tidy.step later, ?_⟩
    rcases progress with ⟨notices, bus, loud⟩ | strays
    · refine .inl ⟨notices ++ m.notices later, ?_, fun silent => loud ?_⟩
      · rw [step_bus, bus, announce_append]
      · exact fun notice mem => silent notice (mem_append_left _ mem)
    · rcases strays.step tidy later (continues.config.trans same) (continues.aborting aborting) with
        ⟨notice, mem, cancelled⟩ | onward
      · obtain ⟨notices, bus⟩ := continues.bus
        refine .inl ⟨notices ++ m.notices later, ?_, fun silent => ?_⟩
        · rw [step_bus, bus, announce_append]
        · exact silent notice (mem_append_right _ mem) cancelled
      · exact .inr onward
  have all := slice_induction (P := fun later m => e.Continues later ∧ Tidy m ∧
    (Publishes (¬IsSilent ·) e later ∨ Strays config m))
    (step e m ⟨.refl e, tidy, .inr strays⟩) step
  exact all.2.2

end Machine

namespace Host

/-- However the host goes on, it hears no cancelled event in a slice of a task. -/
def FallsSilent (h : Host) (number : Nat) : Prop :=
  ∀ moves, Machine.IsSilent ((h.moves moves).newlyHeard (.slice number))

/-- However the host goes on, an execution has ended aborted when it was given enough slices. -/
def EndsAborted (h : Host) (number : Nat) (analysis : Analysis) : Prop :=
  ∃ enough, ∀ moves, enough ≤ moves.countP (Move.isSliceOf number) →
    ∃ outcome, (h.moves moves).task? number = some (.finished (.execution (.ok outcome))) ∧
      outcome.IsAborted analysis

/-- Whether a call cancels the run: an abort that finds one, or a stop that finds a session. -/
def Cancels (call : HostCall) (reply : HostReply) : Prop :=
  (call = .abort ∧ reply = .flag true) ∨ (call = .stop ∧ ∃ session, reply = .session session)

variable {h : Host} {number : Nat} {analysis : Analysis} {config : Config}

lemma not_cancelled_of_closing (closing : kind ∈ closingKinds) : kind ∉ cancelledKinds := by
  cases kind <;> simp_all [closingKinds, cancelledKinds]

inductive Ending (config : Config) (number : Nat) (analysis : Analysis) (n : Nat) (h : Host) :
    Prop where
  | running (active : h.task? number = some (.executing x)) (machine : x.machine = some m)
      (same : x.analysis = analysis) (limits : h.engine.config = config)
      (aborting : h.engine.aborting = true) (doomed : m.Doomed config n)
      (unfinished : ∀ error, m.control ≠ .finished error)
  | ended (finished : h.task? number = some (.finished (.execution (.ok outcome))))
      (isAborted : outcome.IsAborted analysis)

section
variable (ending : Ending config number analysis n h) (orderly : h.Orderly)
include ending orderly

lemma Ending.foreign {move : Move} (foreign : move ≠ .slice number) :
    Ending config number analysis n (h.move move) := by
  cases ending with
  | running active machine same limits aborting doomed unfinished =>
    obtain ⟨continues, still⟩ := orderly.foreign active foreign
    exact .running still machine same (continues.config.trans limits) (continues.aborting aborting)
      doomed unfinished
  | ended finished isAborted => exact .ended (orderly.finished finished move) isAborted

lemma Ending.own : Ending config number analysis (n - 1) (h.move (.slice number)) ∧ Machine.IsSilent
    (h.newlyHeard (.slice number)) := by
  cases ending with
  | @running x m active machine same limits aborting doomed unfinished =>
    have ready : m.isReady h.engine = true := by
      cases doomed with
      | ended finished => exact absurd finished (unfinished _)
      | before ready => exact ready h.engine aborting
    obtain ⟨nearer, _, bus, silent⟩ := doomed.slice unfinished limits aborting
    obtain ⟨running, _, machine', tidy⟩ := orderly.active number x active
    cases machine.symm.trans machine'
    obtain ⟨continues, -⟩ := Machine.slice_continues (e := h.engine) tidy
    cases ownSlice active machine ready with
    | runs unfinished' engine task =>
      constructor
      · exact .running task rfl same (engine ▸ continues.config.trans limits)
          (engine ▸ continues.aborting aborting) nearer unfinished'
      · rw [newlyHeard_eq orderly (engine ▸ bus)]
        exact silent
    | ends finished engine task =>
      obtain ⟨_, closed, kinds⟩ := (m.slice h.engine).1.end_bus x
        (m.slice h.engine).2.outputs.toList ((m.slice h.engine).2.environment.locals .global) _
      constructor
      · refine .ended task ?_
        rw [← same, end_isAborted]
        exact nearer.finished finished
      · rw [bus, announce_append, ← engine] at closed
        rw [newlyHeard_eq orderly closed]
        exact forall_mem_append.mpr ⟨silent, fun notice mem =>
          not_cancelled_of_closing (kinds notice mem)⟩
  | ended finished isAborted =>
    have unmoved : h.move (.slice number) = h := by
      simp [move, sliceOf, finished, Task.isReady]
    refine ⟨.ended (orderly.finished finished _) isAborted, ?_⟩
    simp [newlyHeard, unmoved, Machine.IsSilent]

lemma Ending.moves (moves) :
    Ending config number analysis (n - moves.countP (Move.isSliceOf number)) (h.moves moves) := by
  induction moves generalizing h n with
  | nil => exact ending
  | cons move _ ih =>
    by_cases own : move = .slice number
    · have next := ih (ending.own orderly).1 (orderly.move _)
      simpa [own, Move.isSliceOf, moves, countP_cons, Nat.sub_add_eq, Nat.sub_right_comm] using next
    · have other : Move.isSliceOf number move = false := by
        cases move <;> simp_all [Move.isSliceOf]
      have next := ih (ending.foreign orderly own) (orderly.move move)
      simpa [other, moves, countP_cons] using next

end

inductive Straying (config : Config) (number : Nat) (analysis : Analysis) (h : Host) : Prop where
  | running (active : h.task? number = some (.executing x)) (machine : x.machine = some m)
      (same : x.analysis = analysis) (limits : h.engine.config = config)
      (aborting : h.engine.aborting = true) (strays : m.Strays config)
  | ended (finished : h.task? number = some (.finished (.execution (.ok outcome))))
      (otherwise : ¬outcome.IsAborted analysis)

lemma Straying.own (straying : Straying config number analysis h) (orderly : h.Orderly)
    (silent : Machine.IsSilent (h.newlyHeard (.slice number))) :
    Straying config number analysis (h.move (.slice number)) := by
  cases straying with
  | @running x m active machine same limits aborting strays =>
    obtain ⟨-, _, machine', tidy⟩ := orderly.active number x active
    cases machine.symm.trans machine'
    cases ready : m.isReady h.engine with
    | false =>
      rw [sliceOf_rests active machine ready]
      exact .running active machine same limits aborting strays
    | true =>
      obtain ⟨continues, -⟩ := Machine.slice_continues (e := h.engine) tidy
      cases ownSlice active machine ready with
      | runs _ engine task =>
        rcases strays.slice tidy limits aborting with ⟨notices, bus, loud⟩ | onward
        · rw [newlyHeard_eq orderly (engine ▸ bus)] at silent
          exact absurd silent loud
        · exact .running task rfl same (engine ▸ continues.config.trans limits)
            (engine ▸ continues.aborting aborting) onward
      | @ends error finished engine task =>
        rcases strays.slice tidy limits aborting with ⟨notices, bus, loud⟩ | onward
        · obtain ⟨_, closed, -⟩ := (m.slice h.engine).1.end_bus x (m.slice h.engine).2.outputs.toList
            ((m.slice h.engine).2.environment.locals .global) error
          rw [bus, announce_append, ← engine] at closed
          rw [newlyHeard_eq orderly closed] at silent
          exact absurd (fun notice mem => silent notice (mem_append_left _ mem)) loud
        · refine .ended task ?_
          rw [← same, end_isAborted]
          rintro ⟨_, rfl⟩
          exact onward.finished finished
  | ended finished otherwise => exact .ended (orderly.finished finished _) otherwise

lemma Straying.slices (straying : Straying config number analysis h) (orderly : h.Orderly)
    (silent : h.FallsSilent number) (count) :
    Straying config number analysis (h.moves (.replicate count (.slice number))) := by
  induction count with
  | zero => exact straying
  | succ count ih =>
    have onward := ih.own (orderly.moves _)
      (silent (.replicate count (.slice number)))
    simpa [replicate_succ', moves, foldl_append] using onward

lemma cancels_continues (orderly : h.Orderly) (active : h.task? number = some (.executing x))
    (cancels : Cancels call (h.perform call).2) : h.engine.Continues (h.perform call).1.engine ∧
    (h.perform call).1.engine.aborting = true ∧ (h.perform call).1.task? number = some (.executing x) ∧
    (h.perform call).1.Orderly := by
  have running := (orderly.active number x active).1
  rcases cancels with ⟨rfl, -⟩ | ⟨rfl, session, replied⟩
  · have continues := h.engine.abort_continues
    exact ⟨continues, by simp [perform, abort, cancelInputs, withEngine, running],
      active, orderly.withEngine continues⟩
  · cases stopped : h.engine.stop with
    | error => simp [perform, Host.replied, stopped] at replied
    | ok pair =>
      obtain ⟨later, _⟩ := pair
      have continues := stop_continues stopped
      have moved : (h.perform .stop).1 = h.withEngine later := by
        simp [perform, Host.replied, stopped]
      rw [moved]
      refine ⟨continues, ?_, active, orderly.withEngine continues⟩
      unfold stop at stopped
      split at stopped
      · cases stopped
      · cases stopped
        simp [withEngine, announce, cancelInputs, running]

/-- A run at a wait that is aborted, or whose session is stopped, publishes no more of what a cancelled
run may not and ends aborted exactly if it obeys the order where it stands. -/
theorem cancelled_run_stops_iff (config : Config) (before : List Move) (number : Nat)
    {x : Execution} {m : Machine} {wait : Wait} {call : HostCall}
    (stands : ((observed config).moves before).standing? number = some (x, m, wait))
    (cancels : Cancels call (((observed config).moves before).perform call).2) :
    ((((observed config).moves before).perform call).1.FallsSilent number ∧
      (((observed config).moves before).perform call).1.EndsAborted number x.analysis) ↔
      m.Heeds config wait := by
  generalize reached : (observed config).moves before = h at stands cancels ⊢
  have orderly : h.Orderly := reached ▸ (observed_orderly config).moves before
  have limits : h.engine.config = config := by
    rw [← reached, moves_config _ (observed_orderly config)]
    rfl
  obtain ⟨active, machine, waits⟩ := standing?_eq_some.mp stands
  obtain ⟨continues, aborting, still, settled⟩ := cancels_continues orderly active cancels
  have unfinished : ∀ error, m.control ≠ .finished error := by simp [waits]
  constructor
  · rintro ⟨silent, enough, ends⟩
    apply Classical.byContradiction
    intro disobeys
    have straying : Straying config number x.analysis (h.perform call).1 :=
      .running still machine rfl (continues.config.trans limits) aborting
        (Machine.strays_of_waiting waits disobeys)
    obtain ⟨_, finished, isAborted⟩ := ends (.replicate enough (.slice number))
      (by simp [List.countP_replicate, Move.isSliceOf])
    cases straying.slices settled silent enough with
    | running active => simp [finished] at active
    | ended finished' otherwise =>
      rw [finished] at finished'
      cases finished'
      exact otherwise isAborted
  · intro heeds
    obtain ⟨n, doomed⟩ := heeds.doomed waits
    have ending : Ending config number x.analysis n (h.perform call).1 :=
      .running still machine rfl (continues.config.trans limits) aborting doomed unfinished
    refine ⟨fun moves => ((ending.moves settled moves).own (settled.moves moves)).2, n, ?_⟩
    intro moves many
    have final := ending.moves settled moves
    rw [Nat.sub_eq_zero_of_le many] at final
    cases final with
    | running _ _ _ _ _ doomed unfinished =>
      cases doomed with
      | ended finished => exact absurd finished (unfinished _)
    | ended finished isAborted => exact ⟨_, finished, isAborted⟩

def asking : Host :=
  (observed {}).moves [.call (.start (.execute "PRINT INPUT()" {})) rfl, .slice 1]

/-- A run that waits for input of its own obeys: after an abort it prints nothing and ends aborted. -/
theorem aborted_input_stops :
    ∃ x m wait, asking.standing? 1 = some (x, m, wait) ∧
      Cancels .abort (asking.perform .abort).2 ∧
      (asking.perform .abort).1.FallsSilent 1 ∧
      (asking.perform .abort).1.EndsAborted 1 x.analysis := by
  have waits : (asking.standing? 1).any (fun stand =>
      (stand.2.1.stack.find? Continuation.isProbe).isNone) = true := by decide +kernel
  obtain ⟨⟨x, m, wait⟩, stands, unprobed⟩ := Option.any_eq_true _ _ |>.mp waits
  have cancels : Cancels .abort (asking.perform .abort).2 :=
    .inl ⟨rfl, congrArg HostReply.flag (by decide +kernel)⟩
  have heeds : m.Heeds {} wait := by
    simp only [Option.isNone_iff_eq_none] at unprobed
    simp [Machine.Heeds, unprobed]
  obtain ⟨silent, ends⟩ := (cancelled_run_stops_iff {} _ 1 stands cancels).mpr heeds
  exact ⟨x, m, wait, stands, cancels, silent, ends⟩

def logging : Host :=
  (observed {}).moves
    [.call (.setBreakpoint 1 none (some "v=\x7bINPUT(\"c\")\x7d")) rfl,
     .call (.start (.execute "LET x = 1" { debug := true })) rfl, .slice 1]

/-- A log message that waits for input loses the order: it is written after the abort. -/
theorem aborted_log_speaks :
    (logging.standing? 1).isSome = true ∧ Cancels .abort (logging.perform .abort).2 ∧
      ¬(logging.perform .abort).1.FallsSilent 1 := by
  have loud : ¬Machine.IsSilent ((logging.perform .abort).1.newlyHeard (.slice 1)) := by
    decide +kernel
  exact ⟨by decide +kernel, .inl ⟨rfl, congrArg HostReply.flag (by decide +kernel)⟩,
    fun silent => loud (silent [])⟩

end Host

end Stepper
