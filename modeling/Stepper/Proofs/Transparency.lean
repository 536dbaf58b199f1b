import Stepper.Proofs.PlainRun
import Stepper.Proofs.Waking

/-! # Transparency of the debugger -/

namespace Stepper

open List Machine Engine Debugger

/-- An outcome without the time it took. -/
def ExecutionOutcome.untimed (outcome : ExecutionOutcome) : ExecutionOutcome :=
  { outcome with duration := 0 }

lemma Engine.end_untimed (e e' : Engine) (analysis : x.analysis = x'.analysis)
    (degraded : x.degraded = x'.degraded) (outputs) (bindings) (error) :
    (e.endExecution x outputs bindings error).2.untimed =
    (e'.endExecution x' outputs bindings error).2.untimed := by
  simp [endExecution, ExecutionOutcome.untimed, analysis, degraded]

namespace Launch
variable {config : Config} {source : String}

/-- Whether a run ends with an outcome, at some time. -/
def EndsWith (launch : Launch config source) (schedule : Nat → Move) (outcome : ExecutionOutcome) :
    Prop :=
  ∃ n ended, (launch.after schedule n).task? launch.number = some (.finished (.execution (.ok ended))) ∧
    ended.untimed = outcome.untimed

/-- A schedule in which the run has its turns, is resumed from its pauses, is given these answers, and is
neither cancelled nor out of time. -/
structure Attended (launch : Launch config source) (schedule : Nat → Move)
    (answers : Nat → InputAnswer) : Prop where
  begins : schedule 0 = .slice launch.number
  turns : ∀ n, ∃ k, n ≤ k ∧ schedule k = .slice launch.number
  peaceful : ∀ n, (schedule n).isPeaceful = true
  unlimited : launch.timeout = 0
  resumed : ∀ n, (launch.after schedule n).engine.debugger.state = .paused →
    ∃ k, n ≤ k ∧ (schedule k).isCommand = true
  answered : ∀ n x m wait location,
    (launch.after schedule n).standing? launch.number = some (x, m, .input wait location) →
    ∃ k, n ≤ k ∧ schedule k = .slice launch.number ∧
      (wait.outcome? (launch.after schedule k).engine.inputs
        (launch.after schedule k).engine.now).isSome = true
  given : ∀ n, Machine.Agrees answers (launch.historyAt schedule n)
  callFree : launch.debug = true → ∀ n, (launch.after schedule n).engine.debugger.IsCallFree

structure Underway (launch : Launch config source) (schedule : Nat → Move)
    (answers : Nat → InputAnswer) (start : Machine) (n : Nat) (x : Execution) (m : Machine)
    (steps : Nat) : Prop where
  active : (launch.after schedule n).task? launch.number = some (.executing x)
  machine : x.machine = some m
  unfinished : ∀ error, m.control ≠ .finished error
  analysis : x.analysis = analyze source
  parsed : x.degraded = false
  debugging : m.debugging = launch.debug
  fares : Machine.Fares config answers start (launch.historyAt schedule n)
    (launch.after schedule n).engine m steps

def Ended (launch : Launch config source) (schedule : Nat → Move) (answers : Nat → InputAnswer)
    (start : Machine) (n : Nat) : Prop :=
  ∃ steps error e x,
    (plainRun config answers start steps).2.control = .finished error ∧
    x.analysis = analyze source ∧ x.degraded = false ∧
    (launch.after schedule n).task? launch.number =
      some (.finished (.execution (.ok (endExecution e x
        (plainRun config answers start steps).2.outputs.toList
        ((plainRun config answers start steps).2.environment.locals .global) error).2)))

section
variable {launch : Launch config source} {plan : Nat → Move} {answers : Nat → InputAnswer}
  {start : Machine} {n steps : Nat} {x : Execution} {m : Machine}

lemma Underway.foreign (underway : Underway launch plan answers start n x m steps)
    (attended : Attended launch plan answers) (foreign : plan n ≠ .slice launch.number) :
    Underway launch plan answers start (n + 1) x m steps := by
  have orderly := launch.after_orderly plan n
  obtain ⟨continues, still⟩ := orderly.foreign underway.active foreign
  obtain ⟨followed, unaborted⟩ := orderly.foreign_debugger underway.active foreign
  have valid := launch.after_valid plan (n + 1)
  rw [← after_succ] at continues still followed unaborted
  have passed : launch.historyAt plan (n + 1) = launch.historyAt plan n := by
    rw [historyAt_succ, Host.trail_foreign foreign, append_nil]
  refine ⟨still, underway.machine, underway.unfinished, underway.analysis, underway.parsed,
    underway.debugging, underway.fares.sober, ?_, ?_, fun debugging => ⟨?_, ?_⟩, ?_⟩
  · exact continues.config.trans underway.fares.limits
  · exact (unaborted (attended.peaceful n)).trans underway.fares.peaceful
  · exact (attended.callFree (underway.debugging ▸ debugging) (n + 1)).isHarmless valid
  · have opened := (underway.fares.attended debugging).2
    rw [followed, follow_session opened (attended.peaceful n)]
    exact opened
  · rw [passed]
    exact underway.fares.follows

lemma Underway.rests (underway : Underway launch plan answers start n x m steps)
    (own : plan n = .slice launch.number)
    (waits : m.isReady (launch.after plan n).engine = false) :
    Underway launch plan answers start (n + 1) x m steps := by
  have unmoved : launch.after plan (n + 1) = launch.after plan n := by
    rw [after_succ, own, Host.sliceOf_rests underway.active underway.machine waits]
  have passed : launch.historyAt plan (n + 1) = launch.historyAt plan n := by
    rw [historyAt_succ, own, Host.trail_rests underway.active underway.machine waits, append_nil]
  refine ⟨?_, underway.machine, underway.unfinished, underway.analysis, underway.parsed,
    underway.debugging, ?_⟩
  · rw [unmoved]
    exact underway.active
  · rw [unmoved, passed]
    exact underway.fares

lemma slice_progress (attended : Attended launch plan answers)
    (slice : Host.OwnSlice (launch.after plan n) launch.number e x m)
    (own : plan n = .slice launch.number) (trail : (launch.after plan n).trail launch.number
      (.slice launch.number) = m.trail e) (ready : m.isReady e)
    (analysis : x.analysis = analyze source) (parsed : x.degraded = false)
    (debugging : m.debugging = launch.debug) (fares : Machine.Fares config answers start
      (launch.historyAt plan n) e m steps) : Ended launch plan answers start (n + 1) ∨ ∃ x' m'
    steps', Underway launch plan answers start (n + 1) x' m' steps' ∧ Machine.Further steps m steps'
    m' := by
  have passed : launch.historyAt plan (n + 1) = launch.historyAt plan n ++ m.trail e := by
    rw [historyAt_succ, own, trail]
  have agrees := attended.given (n + 1)
  rw [passed] at agrees
  obtain ⟨steps', fares', further⟩ := fares.slice ready agrees
  have same : (m.slice e).2.debugging = m.debugging :=
    slice_induction (P := fun _ m' => m'.debugging = m.debugging)
      (m.step_terms e).debugging fun e' m' kept => (m'.step_terms e').debugging.trans kept
  cases slice with
  | runs unfinished engine task =>
    rw [← own, ← after_succ] at engine task
    refine .inr ⟨_, _, steps', ⟨task, rfl, unfinished, analysis, parsed, same.trans debugging, ?_⟩,
      further⟩
    rw [passed, engine]
    exact fares'
  | @ends error finished _ task =>
    rw [← own, ← after_succ] at task
    have came : (plainRun config answers start steps').2 = (m.slice e).2.bare := by
      rw [fares'.follows]
      exact essence_finished fares'.sober finished
    refine .inl ⟨steps', error, (m.slice e).1, x, ?_, analysis, parsed, ?_⟩
    · rw [came]
      exact finished
    · rw [came]
      exact task

lemma first_progress (parses : (analyze source).program = some program)
    (attended : Attended launch plan answers) : Ended launch plan answers
    (.ofTarget (.program program) 0 none false) 1 ∨ ∃ x m steps, Underway launch plan answers
    (.ofTarget (.program program) 0 none false) 1 x m steps := by
  obtain ⟨later, _, m, began⟩ := begins parses launch.valid launch.idle launch.options
  have limitless : m = .ofTarget (.program program) later.now none launch.debug := by
    have unlimited := attended.unlimited
    unfold timeout at unlimited
    rw [began.starts, launch.host_config, unlimited]
    rfl
  have debugging : m.debugging = launch.debug := by
    rw [limitless]
    exact congrArg Machine.Ledger.debugging
      (ofTarget_ledger (.program program) later.now none launch.debug)
  have same := begin_sameStore began.began
  have fares : Machine.Fares config answers (.ofTarget (.program program) 0 none false)
      (launch.historyAt plan 0) later m 0 := by
    refine ⟨limitless ▸ ofTarget_sober program later.now launch.debug, ?_, began.peaceful,
      fun present => ?_, ?_⟩
    · exact (begin_follows began.began).2.1.config.trans launch.host_config
    · have debug : launch.debug := debugging ▸ present
      obtain ⟨_, opened, started⟩ := began.debugger debug
      refine ⟨((attended.callFree debug 0).isHarmless launch.valid).sameStore same, ?_⟩
      rw [started]
      simpa [startRun] using opened
    · rw [limitless, ofTarget_essence]
      rfl
  have ready : m.isReady later := by
    rw [limitless]
    rfl
  have slice := Host.beginSlice launch.given began.began began.machine
  have trail := Host.trail_begin launch.given began.began began.machine
  rcases slice_progress attended (n := 0) slice attended.begins trail ready began.analysis began.parsed
    debugging fares with ended | ⟨x', m', steps', underway, -⟩
  · exact .inl ended
  · exact .inr ⟨x', m', steps', underway⟩

lemma Ended.stays (ended : Ended launch plan answers start n) :
    Ended launch plan answers start (n + 1) := by
  obtain ⟨steps, error, e, x, finished, analysis, parsed, task⟩ := ended
  refine ⟨steps, error, e, x, finished, analysis, parsed, ?_⟩
  rw [after_succ]
  exact (launch.after_orderly plan n).finished task (plan n)

def Stirs (launch : Launch config source) (schedule : Nat → Move) (m : Machine) (n : Nat) : Prop :=
  schedule n = .slice launch.number ∧ m.isReady (launch.after schedule n).engine = true

section
variable (underway : Underway launch plan answers start n x m steps)
  (attended : Attended launch plan answers)
include underway attended

lemma Underway.stays (idle : ¬Stirs launch plan m n) :
    Underway launch plan answers start (n + 1) x m steps := by
  by_cases own : plan n = .slice launch.number
  · refine underway.rests own ?_
    simpa [Stirs, own] using idle
  · exact underway.foreign attended own

lemma Underway.stirred (stirs : Stirs launch plan m n) : Ended launch plan answers start (n + 1)
    ∨ ∃ x' m' steps', Underway launch plan answers start (n + 1) x' m' steps' ∧ Machine.Further
    steps m steps' m' :=
  slice_progress attended (Host.ownSlice underway.active underway.machine stirs.2) stirs.1
    (Host.trail_own underway.active underway.machine stirs.2) stirs.2 underway.analysis
    underway.parsed underway.debugging underway.fares

end

lemma progress (parses : (analyze source).program = some program)
    (attended : Attended launch plan answers) (n) : Ended launch plan answers
    (.ofTarget (.program program) 0 none false) (n + 1) ∨ ∃ x m steps, Underway launch plan answers
    (.ofTarget (.program program) 0 none false) (n + 1) x m steps := by
  induction n with
  | zero => exact first_progress parses attended
  | succ n ih =>
    rcases ih with ended | ⟨x, m, steps, underway⟩
    · exact .inl ended.stays
    · by_cases stirs : Stirs launch plan m (n + 1)
      · rcases underway.stirred attended stirs with ended | ⟨x', m', steps', underway', -⟩
        · exact .inl ended
        · exact .inr ⟨x', m', steps', underway'⟩
      · exact .inr ⟨x, m, steps, underway.stays attended stirs⟩

section
variable (underway : Underway launch plan answers start n x m steps)
include underway

lemma Underway.first (attended : Attended launch plan answers) (stirs : Stirs launch plan m (n + more)) :
    ∃ k, Underway launch plan answers start k x m steps ∧ Stirs launch plan m k := by
  induction more generalizing n with
  | zero => exact ⟨n, underway, stirs⟩
  | succ _ ih =>
    by_cases now : Stirs launch plan m n
    · exact ⟨n, underway, now⟩
    · refine ih (underway.stays attended now) ?_
      rwa [Nat.add_right_comm]

lemma Underway.ready_paused (paused : m.control = .waiting (.paused b since)) : m.isReady
    (launch.after plan n).engine = true ↔ (launch.after plan n).engine.debugger.state ≠
    .paused := by
  have debug : launch.debug :=
    underway.debugging.symm.trans (underway.fares.sober.debugging (by rw [paused]; rfl))
  have attuned := launch.attuned debug plan n underway.active underway.machine
    underway.fares.peaceful
  have told := attuned.told (Machine.isPause_iff.mpr ⟨b, since, paused⟩)
  simp only [isReady, paused, canResume, underway.fares.peaceful, Wakeup.rouse_goes, Bool.false_or,
    Bool.and_eq_true, decide_eq_true_eq]
  exact ⟨And.right, fun free => ⟨told.mpr free, free⟩⟩

lemma Underway.opened (paused : m.control = .waiting (.paused b since)) :
    (launch.after plan n).engine.debugger.session.isSome :=
  (underway.fares.attended (underway.fares.sober.debugging (by rw [paused]; rfl))).2

section

variable (attended : Attended launch plan answers)

include attended

lemma Underway.released (paused : m.control = .waiting (.paused b since))
    (free : (launch.after plan n).engine.debugger.state ≠ .paused) :
    ∃ more, Stirs launch plan m (n + more) := by
  obtain ⟨_, later, own⟩ := attended.turns n
  obtain ⟨more, rfl⟩ := Nat.exists_eq_add_of_le later
  induction more generalizing n with
  | zero => exact ⟨0, own, (underway.ready_paused paused).mpr free⟩
  | succ more ih =>
    by_cases now : plan n = .slice launch.number
    · exact ⟨0, now, (underway.ready_paused paused).mpr free⟩
    · have followed := ((launch.after_orderly plan n).foreign_debugger underway.active now).1
      have still : (launch.after plan (n + 1)).engine.debugger.state ≠ .paused := by
        rw [after_succ, followed]
        exact follow_released (underway.opened paused) (attended.peaceful n) free
      rw [show n + (more + 1) = n + 1 + more by omega] at own
      obtain ⟨more', _⟩ := ih (underway.foreign attended now) still (by omega) own
      exact ⟨more' + 1, by rwa [show n + (more' + 1) = n + 1 + more' by omega]⟩

lemma Underway.commanded (paused : m.control = .waiting (.paused b since))
    (comes : (plan (n + more)).isCommand) : ∃ more, Stirs launch plan m (n + more) := by
  induction more generalizing n with
  | zero =>
    obtain ⟨command, immediate, comes⟩ := Move.isCommand_iff.mp comes
    have foreign : plan n ≠ .slice launch.number := by
      intro own
      simp [own] at comes
    have followed := ((launch.after_orderly plan n).foreign_debugger underway.active foreign).1
    have free : (launch.after plan (n + 1)).engine.debugger.state ≠ .paused := by
      replace comes : plan n = .call (.command command) immediate := comes
      rw [after_succ, followed, comes, follow, obey_command (underway.opened paused)]
      split
      · simp
      · split <;> assumption
    obtain ⟨more, _⟩ := (underway.foreign attended foreign).released attended paused free
    exact ⟨more + 1, by rwa [show n + (more + 1) = n + 1 + more by omega]⟩
  | succ more ih =>
    by_cases now : Stirs launch plan m n
    · exact ⟨0, now⟩
    · rw [show n + (more + 1) = n + 1 + more by omega] at comes
      obtain ⟨more', _⟩ := ih (underway.stays attended now) comes
      exact ⟨more' + 1, by rwa [show n + (more' + 1) = n + 1 + more' by omega]⟩

lemma Underway.stirs : ∃ more, Stirs launch plan m (n + more) := by
  obtain ⟨_, later, own⟩ := attended.turns n
  obtain ⟨more, rfl⟩ := Nat.exists_eq_add_of_le later
  cases control : m.control with
  | waiting wait =>
    cases wait with
    | yielded => exact ⟨more, own, by simp [isReady, control, canResume]⟩
    | paused =>
      by_cases held : (launch.after plan n).engine.debugger.state = .paused
      · obtain ⟨_, later', comes⟩ := attended.resumed n held
        obtain ⟨_, rfl⟩ := Nat.exists_eq_add_of_le later'
        exact underway.commanded attended control comes
      · exact underway.released attended control held
    | input wait location =>
      obtain ⟨_, later', own', came⟩ := attended.answered n x m wait location
        (Host.standing?_eq_some.mpr ⟨underway.active, underway.machine, control⟩)
      obtain ⟨more', rfl⟩ := Nat.exists_eq_add_of_le later'
      exact ⟨more', own', by simp [isReady, control, canResume, came]⟩
  | finished error => exact absurd control (underway.unfinished error)
  | _ => exact ⟨more, own, by simp [isReady, control]⟩

end

lemma Underway.before_end
    (finished : (plainRun config answers start total).2.control = .finished error) : steps < total := by
  apply Classical.byContradiction
  intro beyond
  obtain ⟨more, rfl⟩ := Nat.exists_eq_add_of_le (Nat.le_of_not_lt beyond)
  have ended := congrArg (fun state => state.2.control) (plainRun_finished finished more)
  rw [underway.fares.follows] at ended
  exact underway.unfinished error (finished_of_essence (ended.trans finished))

end

lemma Underway.ends {n steps : Nat} {x : Execution} {m : Machine}
    (underway : Underway launch plan answers start n x m steps)
    (attended : Attended launch plan answers)
    (finished : (plainRun config answers start total).2.control = .finished error) :
    ∃ k, Ended launch plan answers start k := by
  obtain ⟨_, stirs⟩ := underway.stirs attended
  obtain ⟨k, still, stirs⟩ := underway.first attended stirs
  rcases still.stirred attended stirs with ended | ⟨x', m', steps', underway', further⟩
  · exact ⟨k + 1, ended⟩
  · exact underway'.ends attended finished
termination_by (total - steps, m.stage)
decreasing_by
  have early := underway.before_end finished
  rcases further with more | ⟨rfl, nearer⟩
  · exact .left _ _ (by omega)
  · exact .right _ nearer

end

def report (source : String) (m : Machine) (error : Option RuntimeError) : ExecutionOutcome :=
  ((ofConfig {}).endExecution
    { analysis := analyze source, debug := false, degraded := false, started := 0, machine := none }
    m.outputs.toList (m.environment.locals .global) error).2

lemma endsWith_iff {launch : Launch config source} (parses : (analyze source).program = some program)
    (attended : Attended launch plan answers) (outcome) : launch.EndsWith plan outcome ↔ ∃ steps
    error, (plainRun config answers (.ofTarget (.program program) 0 none false) steps).2.control =
    .finished error ∧ outcome.untimed = (report source (plainRun config answers (.ofTarget (.program
      program) 0 none false) steps).2 error).untimed := by
  constructor
  · rintro ⟨n, _, task, same⟩
    cases n with
    | zero =>
      have given := launch.given
      change (launch.after plan 0).task? launch.number = _ at given
      simp [task] at given
    | succ n =>
      rcases progress parses attended n with
        ⟨steps, error, e, x, finished, analysis, parsed, task'⟩ | ⟨x, m, steps, underway⟩
      · refine ⟨steps, error, finished, ?_⟩
        rw [task] at task'
        cases task'
        rw [← same]
        exact end_untimed _ _ analysis parsed _ _ _
      · have active := underway.active
        simp [task] at active
  · rintro ⟨steps, _, finished, same⟩
    obtain ⟨n, steps', error', e, x, finished', analysis, parsed, task⟩ :
        ∃ n, Ended launch plan answers (.ofTarget (.program program) 0 none false) n := by
      rcases progress parses attended 0 with ended | ⟨x, m, steps, underway⟩
      · exact ⟨1, ended⟩
      · exact underway.ends attended finished
    have unique := plainRun_unique finished finished'
    rw [unique, finished'] at finished
    cases finished
    refine ⟨n, _, task, ?_⟩
    rw [same, unique]
    exact end_untimed _ _ analysis parsed _ _ _

/-- Two executions of the same source text that are given the same answers come to the same end, whether
the debugger takes part or not. -/
theorem attended_executions_agree {config : Config} {source : String}
    {first second : Launch config source}
    {schedule schedule' : Nat → Move} {answers : Nat → InputAnswer}
    (parses : (analyze source).program.isSome = true)
    (attended : Attended first schedule answers) (attended' : Attended second schedule' answers)
    (outcome : ExecutionOutcome) :
    first.EndsWith schedule outcome ↔ second.EndsWith schedule' outcome := by
  obtain ⟨_, parses⟩ := Option.isSome_iff_exists.mp parses
  exact (endsWith_iff parses attended outcome).trans (endsWith_iff parses attended' outcome).symm

section Checking

def sameAnswer : InputAnswer → InputAnswer → Bool
  | .ok text, .ok text' => text == text'
  | .error error, .error error' => error == error'
  | _, _ => false

lemma eq_of_sameAnswer (same : sameAnswer answer answer') : answer = answer' := by
  cases answer <;> cases answer' <;> simp_all [sameAnswer]

def awaited? (h : Host) (number : Nat) : Option InputWait :=
  match h.standing? number with
  | some (_, _, .input wait _) => some wait
  | _ => none

def attendsAt (launch : Launch config source) (schedule : Nat → Move) (answers : Nat → InputAnswer)
    (total n : Nat) : Bool :=
  (schedule n).isPeaceful
    && (decide ((launch.after schedule n).engine.debugger.state ≠ .paused)
      || (List.range total).any fun k => n ≤ k && (schedule k).isCommand)
    && ((awaited? (launch.after schedule n) launch.number).all fun wait =>
      (List.range total).any fun k => n ≤ k && (schedule k).isSliceOf launch.number &&
        (wait.outcome? (launch.after schedule k).engine.inputs
          (launch.after schedule k).engine.now).isSome)
    && ((answersIn (launch.historyAt schedule n)).zipIdx.all fun (answer, i) =>
      sameAnswer answer (answers i))
    && decide (launch.debug = true → (launch.after schedule n).engine.debugger.IsCallFree)

variable {launch : Launch config source} {plan : Nat → Move} {answers : Nat → InputAnswer}

lemma after_ended (ended : (launch.after plan total).task? launch.number = some (.finished answer))
    (slices : ∀ n, total ≤ n → plan n = .slice launch.number) (late : total ≤ n) :
    launch.after plan n = launch.after plan total := by
  induction n, late using Nat.le_induction with
  | base => rfl
  | succ n late same =>
    rw [after_succ, slices n late, same]
    simp [Host.move, Host.sliceOf, ended, Task.isReady]

lemma attended_of_moments (begins : plan 0 = .slice launch.number) (unlimited : launch.timeout = 0)
    (slices : ∀ n, total ≤ n → plan n = .slice launch.number)
    (ended : (launch.after plan total).task? launch.number = some (.finished answer))
    (moments : ∀ n ∈ range (total + 1), launch.attendsAt plan answers total n = true) :
    Attended launch plan answers := by
  -- Every moment is like one of the first ones.
  have early : ∀ n, ∃ n', launch.after plan n = launch.after plan n' ∧
      launch.historyAt plan n = launch.historyAt plan n' ∧
      (n' = n ∨ n' = total ∧ total ≤ n) ∧ launch.attendsAt plan answers total n' = true := by
    intro n
    by_cases late : total ≤ n
    · exact ⟨total, after_ended ended slices late, (ended_stays ended late).2, .inr ⟨rfl, late⟩,
        moments total (by simp)⟩
    · exact ⟨n, rfl, rfl, .inl rfl, moments n (by simp; omega)⟩
  simp only [attendsAt, Bool.and_eq_true, Bool.or_eq_true, any_eq_true, all_eq_true,
    decide_eq_true_eq, mem_range] at early
  constructor
  · exact begins
  · exact fun n => ⟨n + total, Nat.le_add_right n total, slices _ (Nat.le_add_left total n)⟩
  · intro n
    obtain ⟨_, _, -, rfl | ⟨rfl, late⟩, ⟨⟨⟨⟨peaceful, -⟩, -⟩, -⟩, -⟩⟩ := early n
    · exact peaceful
    · rw [slices n late]
      rfl
  · exact unlimited
  · intro n paused
    obtain ⟨_, same, -, _, ⟨⟨⟨⟨-, free | ⟨k, _, _, comes⟩⟩, -⟩, -⟩, -⟩⟩ := early n
    · exact absurd (same ▸ paused) free
    · exact ⟨k, by omega, comes⟩
  · intro n _ _ wait _ stands
    obtain ⟨n', same, -, _, ⟨⟨⟨-, answered⟩, -⟩, -⟩⟩ := early n
    have awaited : awaited? (launch.after plan n') launch.number = some wait := by
      rw [← same, awaited?, stands]
    rw [awaited] at answered
    simp only [Option.all_some, any_eq_true, mem_range, Bool.and_eq_true, decide_eq_true_eq] at answered
    obtain ⟨k, _, ⟨_, own⟩, came⟩ := answered
    exact ⟨k, by omega, Move.isSliceOf_iff.mp own, came⟩
  · intro n i answer got
    obtain ⟨_, -, passed, -, ⟨⟨-, agrees⟩, -⟩⟩ := early n
    rw [passed] at got
    exact eq_of_sameAnswer (agrees (answer, i) (mk_mem_zipIdx_iff_getElem?.mpr got))
  · intro debug n
    obtain ⟨_, same, -, -, ⟨-, free⟩⟩ := early n
    rw [same]
    exact free debug

end Checking

def echo : String := "LET x = INPUT()\nPRINT x"

def debuggedEcho : Launch {} echo :=
  .first {} echo { timeout := some 0, debug := true }
    [.call (.setBreakpoint 1 none (some "x is \x7bx\x7d")) rfl,
     .call (.setBreakpoint 2 (some "x == \"a\"") none) rfl,
     .call (.setWatch "x") rfl]
    (by decide)

def plainEcho : Launch {} echo := .first {} echo { timeout := some 0 } [] (by decide)

def debuggedMoves : Nat → Move
  | 1 => .call (.submit "a") rfl
  | 3 => .call (.command (.step .over)) rfl
  | _ => .slice 1

def plainMoves : Nat → Move
  | 1 => .call (.submit "a") rfl
  | _ => .slice 1

def outcome? : Task → Option ExecutionOutcome
  | .finished (.execution (.ok outcome)) => some outcome
  | _ => none

lemma finished_of_outputs {h : Host} {number : Nat} {outputs : List String}
    (printed : ((h.task? number).bind outcome?).map ExecutionOutcome.outputs = some outputs) : ∃
    outcome, h.task? number = some (.finished (.execution (.ok outcome))) ∧ outcome.outputs =
    outputs := by
  obtain ⟨outcome, found, same⟩ := Option.map_eq_some_iff.mp printed
  obtain ⟨_, present, is⟩ := Option.bind_eq_some_iff.mp found
  unfold outcome? at is
  split at is
  · cases is
    exact ⟨outcome, present, same⟩
  · cases is

/-- The program that prints what it is told prints the same under the debugger and without it. -/
theorem debugged_echo_agrees :
    (analyze echo).program.isSome = true ∧
      Attended debuggedEcho debuggedMoves (fun _ => .ok "a") ∧
      Attended plainEcho plainMoves (fun _ => .ok "a") ∧
      ∃ outcome, outcome.outputs = ["a"] ∧ debuggedEcho.EndsWith debuggedMoves outcome ∧
        plainEcho.EndsWith plainMoves outcome := by
  have parses : (analyze echo).program.isSome = true := by decide +kernel
  obtain ⟨outcome, ended, printed⟩ : ∃ outcome, (debuggedEcho.after debuggedMoves 5).task? 1 =
      some (.finished (.execution (.ok outcome))) ∧ outcome.outputs = ["a"] :=
    finished_of_outputs (by decide +kernel)
  obtain ⟨outcome', ended', -⟩ : ∃ outcome, (plainEcho.after plainMoves 3).task? 1 =
      some (.finished (.execution (.ok outcome))) ∧ outcome.outputs = ["a"] :=
    finished_of_outputs (by decide +kernel)
  have debugged : Attended debuggedEcho debuggedMoves (fun _ => .ok "a") := by
    refine attended_of_moments rfl rfl (fun n late => ?_) ended (by decide +kernel)
    match n, late with
    | n + 5, _ => rfl
  have plain : Attended plainEcho plainMoves (fun _ => .ok "a") := by
    refine attended_of_moments rfl rfl (fun n late => ?_) ended' (by decide +kernel)
    match n, late with
    | n + 3, _ => rfl
  have ends : debuggedEcho.EndsWith debuggedMoves outcome := ⟨5, outcome, ended, rfl⟩
  exact ⟨parses, debugged, plain, outcome, printed, ends,
    (attended_executions_agree parses debugged plain outcome).mp ends⟩

end Launch

end Stepper
