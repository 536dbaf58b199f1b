import Stepper.Proofs.Phases

/-! # The pauses of an execution -/

namespace Stepper

open Occurrence Host Continuation

namespace Machine

/-- What happens to a run in some of its states. -/
def occurrences (history : List (Engine × Machine)) : List Occurrence :=
  history.filterMap fun state => state.2.occurrence? state.1

structure Tracked (before : Debugger) (entry : Option StepRequest) (chronicle : List Occurrence)
    (e : Engine) (m : Machine) (phase : Phase) : Prop where
  passes : Phase.after? before.marks (.goes entry) chronicle = some phase
  inPhase : InPhase e m phase
  tidy : m.Tidy
  debugging : m.debugging = true
  peaceful : e.aborting = false
  opened : e.debugger.session.isSome = true
  valid : e.debugger.Valid
  credited : before.Credited e.debugger chronicle

section Tracking
variable {before : Debugger} {entry : Option StepRequest} {chronicle : List Occurrence} {e : Engine}
  {m : Machine} {phase : Phase}

section
variable (tracked : Tracked before entry chronicle e m phase)
  (plain : ∀ b ∈ before.breakpoints, b.IsPlain) (ready : m.isReady e = true)
include tracked plain ready

lemma Tracked.step : ∃ phase', Tracked before entry (chronicle ++ (m.occurrence? e).toList) (m.step e).1
    (m.step e).2 phase' := by
  obtain ⟨phase', onward⟩ := tracked.inPhase.step tracked.tidy tracked.debugging tracked.peaceful
    tracked.valid (tracked.credited.plain plain) ready
  obtain ⟨_, _, _, consulted, after⟩ := m.step_affects e
  have admitted := onward.admitted
  rw [tracked.credited.marks] at admitted
  refine ⟨phase', Phase.after?_append tracked.passes admitted, onward.reached, tracked.tidy.step e,
    (m.step_terms e).debugging.trans tracked.debugging, ?_, ?_, ?_,
    tracked.credited.append onward.credited⟩
  · rw [after]
    exact tracked.peaceful
  · rw [after]
    exact consulted.session.trans tracked.opened
  · rw [after]
    exact tracked.valid.consulted consulted

lemma Tracked.slice : ∃ phase', Tracked before entry (chronicle ++ occurrences (m.trail e))
    (m.slice e).1 (m.slice e).2 phase' := by
  have extended : ∀ passed e m,
      chronicle ++ occurrences (passed ++ [(e, m)]) =
        chronicle ++ occurrences passed ++ (m.occurrence? e).toList := by
    intro _ e m
    cases noted : m.occurrence? e <;> simp [occurrences, noted]
  change ∃ phase', Tracked before entry (chronicle ++ occurrences ([] ++ m.trail e)) (m.slice e).1
    (m.slice e).2 phase'
  refine trail_induction (P := fun passed e m =>
    ∃ phase', Tracked before entry (chronicle ++ occurrences passed) e m phase') ?_ ?_
  · rw [extended]
    simpa [occurrences] using tracked.step plain ready
  · rintro _ _ _ ⟨_, tracked⟩ ready
    rw [extended]
    exact tracked.step plain ready

end

lemma InPhase.congr (inPhase : InPhase e m phase) (state : later.debugger.state = e.debugger.state)
    (pending : later.debugger.pendingStep = e.debugger.pendingStep)
    (position : later.debugger.current = e.debugger.current) : InPhase later m phase := by
  cases inPhase with
  | goes running asked unprobed free =>
    exact .goes (state.trans running) (pending.trans asked) unprobed free
  | stops running current unprobed shape =>
    exact .stops (state.trans running) (position.trans current) unprobed shape
  | watches running current probes unfinished =>
    exact .watches (state.trans running) (position.trans current) probes unfinished
  | rests paused current unprobed shape =>
    exact .rests (state.trans paused) (position.trans current) unprobed shape

lemma InPhase.told (inPhase : InPhase e m phase) (paused : e.debugger.state = .paused)
    (opened : e.debugger.session.isSome)
    (obeyed : later.debugger = e.debugger.obey (.command command)) (marked) :
    ∃ phase', phase.next? marked (.told command) = some phase' ∧ InPhase later m phase' := by
  rw [Debugger.obey_command opened, if_pos paused] at obeyed
  cases inPhase with
  | goes running | stops running | watches running => simp [paused] at running
  | rests _ current unprobed shape =>
    refine ⟨_, rfl, .goes ?_ ?_ unprobed (by rw [shape]; rfl)⟩
    · rw [obeyed]
    · rw [obeyed]
      cases command <;> simp [Debugger.stepFor, current, Command.request]

/-- Whether a run has decided to pause and evaluates its watches before it does. -/
def isStopping (m : Machine) : Bool :=
  match m.control with
  | .watch _ _ _ _ _ => true
  | _ => m.stack.any fun k =>
    match k with
    | .watch _ _ _ _ _ _ => true
    | _ => false

lemma InPhase.outstanding_eq (inPhase : InPhase e m phase) (number) :
    phase.outstanding number = if m.isStopping then [number - 1] else [] := by
  -- Where the debugger evaluates nothing, no watch is on the stack.
  have unwatched : m.stack.filter isProbe = [] →
      (m.stack.any fun k =>
        match k with
        | .watch _ _ _ _ _ _ => true
        | _ => false) = false := by
    intro unprobed
    rw [List.any_eq_false]
    intro k mem
    have plain := List.filter_eq_nil_iff.mp unprobed k mem
    cases k <;> simp_all [isProbe]
  cases inPhase with
  | goes _ _ unprobed free =>
    have going : m.isStopping = false := by
      unfold isStopping
      split
      · rename_i shape
        simp [shape, Control.isConsulting] at free
      · exact unwatched unprobed
    rw [going]
    rfl
  | stops _ _ _ shape =>
    have stopping : m.isStopping := by simp [isStopping, shape]
    rw [stopping]
    rfl
  | @watches _ name rest values bindings b stop _ _ probes _ =>
    have stopping : m.isStopping := by
      unfold isStopping
      split
      · rfl
      · have mem : watch name rest values bindings b stop ∈
            m.stack.filter isProbe := by simp [probes]
        exact List.any_eq_true.mpr ⟨_, (List.mem_filter.mp mem).1, rfl⟩
    rw [stopping]
    rfl
  | rests _ _ unprobed shape =>
    have resting : m.isStopping = false := by
      simp only [isStopping, shape]
      exact unwatched unprobed
    rw [resting]
    rfl

end Tracking

end Machine

/-- What a move adds to the chronicle of a run. -/
def Host.noted (h : Host) (number : Nat) : Move → List Occurrence
  | .call (.command command) _ => [.told command]
  | move => Machine.occurrences (h.trail number move)

def Host.isStopping (h : Host) (number : Nat) : Bool :=
  match h.task? number with
  | some (.executing x) => (x.machine.map Machine.isStopping).getD false
  | _ => false

namespace Launch
variable {config : Config} {source : String}

/-- All that has happened to a run in the first moves. -/
def chronicle (launch : Launch config source) (schedule : Nat → Move) : Nat → List Occurrence
  | 0 => []
  | n + 1 =>
    launch.chronicle schedule n ++ (launch.after schedule n).noted launch.number (schedule n)

def debugger (launch : Launch config source) : Debugger := launch.host.engine.debugger

/-- The step that a run starts with. -/
def entry (launch : Launch config source) : Option StepRequest :=
  if launch.options.step then some ⟨.into, 0⟩ else none

/-- A debug run with plain breakpoints, which nobody edits or cancels and which is commanded in its
pauses. -/
structure Guided (launch : Launch config source) (schedule : Nat → Move) : Prop where
  debug : launch.debug = true
  plain : ∀ b ∈ launch.debugger.breakpoints, b.IsPlain
  begins : schedule 0 = .slice launch.number
  fixed : ∀ n, (schedule n).editsBreakpoints = false
  peaceful : ∀ n, (schedule n).isPeaceful = true
  asked : ∀ n, (schedule n).isCommand = true →
    (launch.after schedule n).engine.debugger.state = .paused

section Guiding
variable {launch : Launch config source} {plan : Nat → Move} {phase : Phase} {n : Nat}

lemma noted_quiet (quiet : (launch.after plan n).trail launch.number (plan n) = [])
    (silent : (plan n).isCommand = false) :
    launch.chronicle plan (n + 1) = launch.chronicle plan n := by
  rw [chronicle, noted, quiet]
  · simp [Machine.occurrences]
  · intro _ _ told
    simp [told, Move.isCommand] at silent

variable (guided : Guided launch plan)

include guided

lemma tracked_first (began : Engine.Began launch.host.engine source launch.options (.ofAnalysis source
      (analyze source)) later x m) :
    Machine.Tracked launch.debugger launch.entry [] later m (.goes launch.entry) := by
  obtain ⟨_, opened, started⟩ := began.debugger guided.debug
  refine ⟨rfl, .goes ?_ ?_ ?_ ?_, ?_, ?_, began.peaceful, ?_, ?_, (Engine.begin_store began.began).1⟩
  · rw [started]
    rfl
  · rw [started]
    rfl
  · rw [began.starts]
    exact Machine.isUnprobed_iff.mp (Machine.ofTarget_unprobed _ _ _ _)
  · rw [began.starts]
    cases Target.ofAnalysis source (analyze source) <;> rfl
  · exact Engine.begin_tidy began.began m began.machine
  · rw [began.starts]
    exact (congrArg Machine.Ledger.debugging (Machine.ofTarget_ledger _ _ _ _)).trans guided.debug
  · rw [started]
    simpa [Debugger.startRun] using opened
  · exact launch.valid.evolves (Engine.begin_evolves began.began)

lemma tracked_foreign (tracked : Machine.Tracked launch.debugger launch.entry (launch.chronicle plan
      n) (launch.after plan n).engine m phase)
    (active : (launch.after plan n).task? launch.number = some (.executing x))
    (foreign : plan n ≠ .slice launch.number) : ∃ phase', Machine.Tracked launch.debugger
    launch.entry (launch.chronicle plan (n + 1)) (launch.after plan (n + 1)).engine m
    phase' := by
  obtain ⟨followed, unaborted⟩ := (launch.after_orderly plan n).foreign_debugger active foreign
  rw [← after_succ] at followed unaborted
  obtain ⟨passes, inPhase, tidy, debugging, peaceful, opened, _, credited⟩ := tracked
  have peaceful' := (unaborted (guided.peaceful n)).trans peaceful
  have opened' : (launch.after plan (n + 1)).engine.debugger.session.isSome := by
    rw [followed, Debugger.follow_session opened (guided.peaceful n)]
    exact opened
  have valid' := launch.after_valid plan (n + 1)
  cases commands : (plan n).isCommand with
  | true =>
    have paused := guided.asked n commands
    obtain ⟨command, _, told⟩ := Move.isCommand_iff.mp commands
    rw [told] at followed
    obtain ⟨phase', admitted, inPhase'⟩ := inPhase.told paused opened followed launch.debugger.marks
    have noted : launch.chronicle plan (n + 1) = launch.chronicle plan n ++ [.told command] := by
      rw [chronicle, told, noted]
    have unchanged : (launch.after plan n).engine.debugger.Credited
        (launch.after plan (n + 1)).engine.debugger [.told command] := by
      rw [followed, Debugger.follow, Debugger.obey_command opened, if_pos paused]
      rfl
    rw [noted]
    refine ⟨phase', Phase.after?_append passes ?_, inPhase', tidy, debugging, peaceful', opened', valid',
      credited.append unchanged⟩
    simp [Phase.after?, admitted]
  | false =>
    obtain ⟨_, _, _, changed, fixed⟩ :=
      Debugger.follow_open opened (guided.peaceful n) commands
    obtain rfl := fixed (guided.fixed n)
    rw [changed] at followed
    rw [noted_quiet (trail_foreign foreign) commands]
    refine ⟨phase, passes, inPhase.congr ?_ ?_ ?_, tidy, debugging, peaceful', opened', valid', ?_⟩
    · rw [followed]
    · rw [followed]
    · rw [followed]
    · rw [followed]
      exact credited

lemma tracked_course (began : Engine.Began launch.host.engine source launch.options (.ofAnalysis source
      (analyze source)) later x m) (n) : Course launch plan (fun n e m => ∃ phase, Machine.Tracked
      launch.debugger launch.entry (launch.chronicle plan n) e m phase) x (n + 1) := by
  refine course guided.begins began ⟨_, tracked_first guided began⟩ ?_ ?_ ?_ n
  · rintro n e m ⟨_, tracked⟩ ready trail own
    have noted : launch.chronicle plan (n + 1) =
        launch.chronicle plan n ++ Machine.occurrences (m.trail e) := by
      rw [own] at trail
      rw [chronicle, own, noted, trail]
      simp
    rw [noted]
    exact tracked.slice guided.plain ready
  · rintro n m known quiet own
    rwa [noted_quiet quiet (by rw [own]; rfl)]
  · rintro n m ⟨_, tracked⟩ active foreign
    exact tracked_foreign guided tracked active foreign

end Guiding

/-- The pauses of a guided debug execution are, in order, exactly the boundaries at which a scan stops
that takes the commands of the host one after the other, and breakpoints count these hits. -/
theorem pauses_where_scan_stops {config : Config} {source : String} {launch : Launch config source}
    {schedule : Nat → Move} (guided : Guided launch schedule) {n : Nat}
    (unfinished : ∀ answer, (launch.after schedule n).task? launch.number ≠ some (.finished answer)) :
    stopsAlong launch.debugger.marks launch.entry
        (commands (launch.chronicle schedule (n + 1))) 0
        (sites (launch.chronicle schedule (n + 1))) =
      pauses 0 (launch.chronicle schedule (n + 1)) ++
        (if (launch.after schedule (n + 1)).isStopping launch.number then
          [(sites (launch.chronicle schedule (n + 1))).length - 1] else []) ∧
      launch.debugger.Credited (launch.after schedule (n + 1)).engine.debugger
        (launch.chronicle schedule (n + 1)) := by
  obtain ⟨_, _, _, began⟩ := Engine.begins_debug launch.valid launch.idle guided.debug
  cases tracked_course guided began n with
  | runs active known =>
    obtain ⟨_, tracked⟩ := known
    refine ⟨?_, tracked.credited⟩
    have scanned := Phase.scanned_eq tracked.passes 0
    rw [tracked.inPhase.outstanding_eq] at scanned
    simpa [isStopping, active, Phase.scanned] using scanned
  | @ended k _ _ _ late known finished engine task =>
    obtain ⟨_, tracked⟩ := known
    -- What has not ended now had not ended before.
    obtain rfl : k = n + 1 := by
      by_contra other
      exact unfinished _ (ended_stays task (Nat.le_of_lt_succ (Nat.lt_of_le_of_ne late other))).1
    have scanned := Phase.scanned_eq tracked.passes 0
    rw [tracked.inPhase.ended finished] at scanned
    refine ⟨by simpa [isStopping, task, Phase.scanned] using scanned, ?_⟩
    rw [engine, Debugger.Credited, Engine.end_store]
    exact tracked.credited

def called : String := "FUNC f(): PRINT 1\nf()\nPRINT 2\nPRINT 3"

def calledLaunch : Launch {} called :=
  .first {} called { timeout := some 0, debug := true }
    [.call (.setBreakpoint 1 none none) rfl, .call (.setBreakpoint 4 none none) rfl] (by decide)

def calledMoves : Nat → Move
  | 1 => .call (.command (.step .out)) rfl
  | 3 => .call (.command .resume) rfl
  | 5 => .call (.command .resume) rfl
  | _ => .slice 1

def isFinished : Option Task → Bool
  | some (.finished _) => true
  | _ => false

/-- The call pauses inside the function, behind it, and on the last line. The function itself is passed,
since the breakpoint on its line belongs to its body. -/
theorem called_pauses :
    Guided calledLaunch calledMoves ∧
      (∀ answer, (calledLaunch.after calledMoves 6).task? calledLaunch.number ≠
        some (.finished answer)) ∧
      stopsAlong calledLaunch.debugger.marks calledLaunch.entry [.step .out, .resume, .resume] 0
        [⟨1, 0, true⟩, ⟨2, 0, false⟩, ⟨1, 1, false⟩, ⟨3, 0, false⟩, ⟨4, 0, false⟩] = [2, 3, 4] ∧
      pauses 0 (calledLaunch.chronicle calledMoves (6 + 1)) = [2, 3, 4] ∧
      calledLaunch.debugger.Credited (calledLaunch.after calledMoves (6 + 1)).engine.debugger
        (calledLaunch.chronicle calledMoves (6 + 1)) := by
  have guided : Guided calledLaunch calledMoves := by
    refine ⟨rfl, by decide +kernel, rfl, ?_, ?_, ?_⟩
    · intro _
      unfold calledMoves
      split <;> rfl
    · intro _
      unfold calledMoves
      split <;> rfl
    · intro n commands
      match n with
      | 1 => decide +kernel
      | 3 => decide +kernel
      | 5 => decide +kernel
      | 0 | 2 | 4 | _ + 6 => cases commands
  have unfinished : ∀ answer,
      (calledLaunch.after calledMoves 6).task? calledLaunch.number ≠ some (.finished answer) := by
    have going : isFinished ((calledLaunch.after calledMoves 6).task? calledLaunch.number) = false := by
      decide +kernel
    intro _ ended
    rw [ended] at going
    cases going
  have sites : sites (calledLaunch.chronicle calledMoves (6 + 1)) =
      [⟨1, 0, true⟩, ⟨2, 0, false⟩, ⟨1, 1, false⟩, ⟨3, 0, false⟩, ⟨4, 0, false⟩] := by
    decide +kernel
  have commands : commands (calledLaunch.chronicle calledMoves (6 + 1)) =
      [.step .out, .resume, .resume] := by
    decide +kernel
  have stopped : (calledLaunch.after calledMoves (6 + 1)).isStopping calledLaunch.number = false := by
    decide +kernel
  have stops : stopsAlong calledLaunch.debugger.marks calledLaunch.entry
      [.step .out, .resume, .resume] 0
      [⟨1, 0, true⟩, ⟨2, 0, false⟩, ⟨1, 1, false⟩, ⟨3, 0, false⟩, ⟨4, 0, false⟩] = [2, 3, 4] := by
    decide +kernel
  obtain ⟨scanned, credited⟩ := pauses_where_scan_stops guided unfinished
  rw [sites, commands, stops, stopped, if_neg Bool.false_ne_true, List.append_nil] at scanned
  exact ⟨guided, unfinished, stops, scanned.symm, credited⟩

end Launch

end Stepper
