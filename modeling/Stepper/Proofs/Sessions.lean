import Stepper.Proofs.DebuggerStore

/-! # What becomes of sessions -/

namespace Stepper
variable {number : Nat} {d : Debugger}

/-! ### The end of sessions -/

def sessionName (number : Nat) : String := "session-" ++ toString number

lemma sessionName_injective : Function.Injective sessionName := by
  intro first second same
  have digits : toString first = toString second := String.append_right_inj "session-" |>.mp same
  rw [Nat.toString_eq_ofList_toDigits, Nat.toString_eq_ofList_toDigits, String.ofList_inj] at digits
  rw [← Nat.ofDigitChars_ten_toDigits (n := first), digits, Nat.ofDigitChars_ten_toDigits]

def Notice.closedSession? : Notice → Option String
  | .sessionClosed id _ _ => some id
  | _ => none

namespace Debugger

/-- The number of the session that is open. -/
def openNumber? (d : Debugger) : Option Nat := d.session.map Session.number

def replaced? (d : Debugger) (source : String) : Option Nat :=
  (d.session.filter fun session => session.source != source).map Session.number

lemma openNumber?_eq_none : d.openNumber? = none ↔ d.session = none := by
  simp [openNumber?]

lemma replaced?_eq_some : d.replaced? source = some number ↔ ∃ session, d.session = some session ∧
    session.source ≠ source ∧ session.number = number := by
  simp [replaced?, Option.filter_eq_some_iff, and_assoc]

lemma Consulted.openNumber? (consulted : d.Consulted later) :
    later.openNumber? = d.openNumber? ∧ later.sessions = d.sessions := by
  induction consulted with
  | refl => exact ⟨rfl, rfl⟩
  | reach _ position ih =>
    have visits : ∀ session : Session, (session.visit position.line).number = session.number := by
      intro _
      unfold Session.visit
      split <;> rfl
    obtain ⟨number, sessions⟩ := ih
    unfold Debugger.reach
    dsimp only
    split
    · split <;> exact ⟨by simpa [Debugger.openNumber?, Function.comp_def, visits] using number, sessions⟩
    · exact ⟨by simpa [Debugger.openNumber?, Function.comp_def, visits] using number, sessions⟩
  | countHit _ _ ih =>
    unfold Debugger.countHit
    split <;> exact ih
  | pause _ _ _ _ _ ih => exact ih

end Debugger

def Engine.Closes (e later : Engine) (numbers : List Nat) : Prop :=
  ∃ notices, later.bus = e.bus.announce notices ∧
    notices.filterMap Notice.closedSession? = numbers.map sessionName

namespace Engine
variable {e later : Engine}

lemma closes_of_bus (same : later.bus = e.bus) : e.Closes later [] := ⟨[], same, rfl⟩

lemma Closes.trans (before : e.Closes later first) (behind : later.Closes last second) :
    e.Closes last (first ++ second) := by
  obtain ⟨told, bus, names⟩ := before
  obtain ⟨thenTold, thenBus, thenNames⟩ := behind
  refine ⟨told ++ thenTold, ?_, ?_⟩
  · rw [thenBus, bus, announce_append]
  · rw [List.filterMap_append, names, thenNames, List.map_append]

lemma Closes.onward (before : e.Closes later numbers) (behind : later.Closes last []) :
    e.Closes last numbers :=
  numbers.append_nil ▸ before.trans behind

lemma step_closes (e : Engine) (m : Machine) : e.Closes (m.step e).1 [] := by
  refine ⟨m.notices e, m.step_bus e, ?_⟩
  unfold Machine.notices
  split
  · split <;> rfl
  · split <;> rfl
  · rfl
  · rename_i stop _
    cases hit : stop.breakpoint <;> cases stepped : stop.step <;>
      simp [Debugger.pause, hit, stepped, Notice.closedSession?]
  · rfl

lemma slice_closes (e : Engine) (m : Machine) : e.Closes (m.slice e).1 [] :=
  Machine.slice_induction (P := fun later _ => e.Closes later []) (e.step_closes m)
    fun later m closes => closes.onward (later.step_closes m)

end Engine

/-! ### Runs without the debugger -/

structure Machine.Unattended (m : Machine) : Prop where
  absent : m.debugging = false
  unprobed : m.IsUnprobed
  control : m.control.isAttended = false

namespace Machine
variable {m : Machine}

lemma ofTarget_unattended (target) (now) (limit) :
    (ofTarget target now limit false).Unattended where
  absent := congrArg Ledger.debugging (ofTarget_ledger target now limit false)
  unprobed := ofTarget_unprobed target now limit false
  control := by cases target <;> rfl

variable (unattended : m.Unattended) (e : Engine)
include unattended e

lemma Unattended.encounter (encounter : Encounter m) : (m.step e).1.debugger = e.debugger ∧
    (m.step e).2.stack = m.stack ∧ (m.step e).2.control.isAttended = false := by
  obtain ⟨absent, unprobed, control⟩ := unattended
  cases encounter with
  | prints shape =>
    simp only [step, shape, complete, print]
    split <;> exact ⟨rfl, rfl, rfl⟩
  | @asks _ values _ shape few =>
    have accepted := (input_arity values.reverse.length).mpr (by simpa using few)
    simp only [step, shape, complete, applyBuiltin, accepted]
    exact ⟨rfl, rfl, rfl⟩
  | @boundary b shape _ =>
    have crosses := m.stepBoundary_crosses e b
    simp only [step, shape, true_and]
    generalize m.stepBoundary e b = next at crosses
    cases crosses <;> exact ⟨rfl, rfl⟩
  | arrived shape =>
    simp only [step, shape, arrive, absent]
    exact ⟨rfl, rfl, rfl⟩
  | log shape => simp [shape, Control.isAttended] at control
  | watch shape => simp [shape, Control.isAttended] at control
  | @waits wait shape =>
    have resumes := m.resume_resumes e wait
    simp only [step, shape]
    generalize m.resume e wait = next at resumes
    cases resumes with
    | stays => exact ⟨rfl, rfl, control⟩
    | _ => exact ⟨rfl, rfl, rfl⟩
  | @probed _ k _ _ top probe =>
    have plain := unprobed k (top ▸ List.mem_cons_self)
    simp [plain] at probe

lemma Unattended.step : (m.step e).1.debugger = e.debugger ∧ (m.step e).2.Unattended := by
  have absent := (m.step_terms e).debugging.trans unattended.absent
  by_cases quiet : m.IsQuiet
  · obtain ⟨unprobed, settled⟩ :=
      settled_of_advance (advance_of_quiet e quiet) unattended.unprobed (settled_of_quiet quiet)
    rw [step_quiet e quiet]
    exact ⟨rfl, absent, unprobed, Control.isAttended_of_isSettled settled⟩
  · obtain ⟨debugger, stack, control⟩ := unattended.encounter e (encounter_of_loud quiet)
    refine ⟨debugger, absent, ?_, control⟩
    rw [IsUnprobed, stack]
    exact unattended.unprobed

lemma Unattended.slice : (m.slice e).1.debugger = e.debugger ∧ (m.slice e).2.Unattended := by
  apply slice_induction (P := fun later m => later.debugger = e.debugger ∧ m.Unattended)
  · exact unattended.step e
  · rintro later _ ⟨debugger, unattended⟩
    obtain ⟨same, still⟩ := unattended.step later
    exact ⟨same.trans debugger, still⟩

end Machine

/-! ### The beginning and the end of an execution -/

structure Debugger.Dismisses (d later : Debugger) : Prop where
  session : later.session = none
  sessions : later.sessions = d.sessions
  idle : d.session.isSome = true → later.state = .idle
  outcome : d.session = none → later.state = .completed ∨ later.state = .errored

inductive Debugger.Boards (d later : Debugger) : Prop where
  | stays (number : later.openNumber? = d.openNumber?) (sessions : later.sessions = d.sessions)
      (present : d.session.isSome = true)
  | opens (number : later.openNumber? = some (d.sessions + 1))
      (sessions : later.sessions = d.sessions + 1)

lemma Debugger.Boards.session (boards : d.Boards later) : later.session.isSome := by
  rw [← Option.isSome_map (f := Session.number)]
  cases boards with
  | stays number _ present =>
    rw [← Option.isSome_map (f := Session.number)] at present
    exact (congrArg Option.isSome number).trans present
  | opens number => exact congrArg Option.isSome number

namespace Engine
variable {e later : Engine} {source : String} {options : ExecutionOptions} {x : Execution}

lemma sessionFor_boards (e : Engine) (source) (analysis) : e.debugger.Boards
    (e.sessionFor source analysis).1.debugger ∧ e.Closes (e.sessionFor source analysis).1
    (e.debugger.replaced? source).toList := by
  unfold sessionFor Debugger.replaced?
  split
  · rename_i absent
    rw [absent]
    exact ⟨.opens rfl rfl, _, rfl, rfl⟩
  · rename_i session present
    rw [present]
    split
    · rename_i same
      refine ⟨.stays rfl rfl (by simp [present]), ?_⟩
      simp only [Option.filter, same, bne_self_eq_false]
      exact closes_of_bus rfl
    · rename_i other
      refine ⟨.opens rfl rfl, ?_⟩
      simp only [Option.filter, bne_iff_ne, ne_eq, other, not_false_eq_true, if_true]
      exact ⟨_, announce_append _ _ _, rfl⟩

section
variable (began : e.beginExecution source options = .ok (later, x))
include began

lemma begin_asked : x.debug = (options.debug || options.step) := by
  unfold beginExecution at began
  split at began <;> cases began
  rfl

lemma begin_debug (debug : x.debug = true) :
    e.debugger.Boards later.debugger ∧ e.Closes later (e.debugger.replaced? source).toList := by
  unfold beginExecution at began
  split at began
  · cases began
  · simp only [Except.ok.injEq, Prod.mk.injEq] at began
    obtain ⟨rfl, rfl⟩ := began
    obtain ⟨boards, closes⟩ :=
      sessionFor_boards { e with running := true, aborting := false } source (analyze source)
    have asked : (options.debug || options.step) = true := debug
    simp only [asked, if_true]
    refine ⟨?_, closes.onward ⟨[_], rfl, rfl⟩⟩
    -- The session starts with an empty path, which leaves its number alone.
    have started : ∀ d : Debugger, (d.startRun options.step).openNumber? = d.openNumber? := by
      intro _
      simp [Debugger.startRun, Debugger.openNumber?, Function.comp_def]
    cases boards with
    | stays number sessions present => exact .stays ((started _).trans number) sessions present
    | opens number sessions => exact .opens ((started _).trans number) sessions

lemma begin_plain (plain : x.debug = false) :
    later.debugger = e.debugger ∧ e.Closes later [] ∧ ∀ m, x.machine = some m → m.Unattended := by
  unfold beginExecution at began
  split at began
  · cases began
  · simp only [Except.ok.injEq, Prod.mk.injEq] at began
    obtain ⟨rfl, rfl⟩ := began
    have unasked : (options.debug || options.step) = false := plain
    simp only [unasked, Bool.false_eq_true, if_false]
    refine ⟨rfl, ⟨_, rfl, rfl⟩, ?_⟩
    intro _ machine
    obtain ⟨_, -, rfl⟩ := Option.map_eq_some_iff.mp machine
    exact Machine.ofTarget_unattended _ _ _

end

section Ending
variable (e : Engine) (outputs : List String) (bindings : Dictionary Value) (error : Option RuntimeError)

lemma failed_closes (found : List Diagnostic) : e.Closes (e.announce (found.map Notice.failed)) [] := by
  refine ⟨_, rfl, ?_⟩
  rw [List.filterMap_map]
  exact List.filterMap_eq_nil_iff.mpr fun _ _ => rfl

lemma end_debug (debug : x.debug = true) : e.debugger.Dismisses
    (e.endExecution x outputs bindings error).1.debugger ∧ e.Closes
    (e.endExecution x outputs bindings error).1 e.debugger.openNumber?.toList := by
  simp only [endExecution, debug, if_true]
  split
  · rename_i session present
    have isOpen : e.debugger.session = some session := present
    constructor
    · constructor
      · rfl
      · rfl
      · exact fun _ => rfl
      · exact fun absent => by simp [isOpen] at absent
    · rw [Debugger.openNumber?, isOpen]
      exact (e.failed_closes _).trans (Closes.onward ⟨[_], rfl, rfl⟩ ⟨[_], rfl, rfl⟩)
  · rename_i absent
    have isClosed : e.debugger.session = none := absent
    constructor
    · constructor
      · exact isClosed
      · rfl
      · exact fun isOpen => by simp [isClosed] at isOpen
      · intro _
        simp only [announce, Debugger.endRun]
        split
        · exact .inl rfl
        · exact .inr rfl
    · rw [Debugger.openNumber?, isClosed]
      exact (e.failed_closes _).onward ⟨[_], rfl, rfl⟩

lemma end_plain (plain : x.debug = false) : (e.endExecution x outputs bindings error).1.debugger =
    e.debugger ∧ e.Closes (e.endExecution x outputs bindings error).1 [] := by
  simp only [endExecution, plain, Bool.false_eq_true, if_false]
  exact ⟨rfl, (e.failed_closes _).onward ⟨[_], rfl, rfl⟩⟩

end Ending

end Engine

/-! ### Slices -/

namespace Task

inductive Departs (e : Engine) : Task → Engine → Execution → Prop where
  | resumes (x : Execution) : Departs e (.executing x) e x
  | begins {source : String} {options : ExecutionOptions} {start : Engine} {x : Execution}
      (began : e.beginExecution source options = .ok (start, x)) :
      Departs e (.execute source options) start x

def isDebugging : Task → Bool
  | .executing x => x.debug
  | _ => false

def IsDiscreet : Task → Prop
  | .executing x => x.debug = false → ∀ m, x.machine = some m → m.Unattended
  | _ => True

inductive Attends (e : Engine) (task : Task) (later : Engine) (next : Task) : Prop where
  | aside (debugger : later.debugger = e.debugger) (closes : e.Closes later [])
      (before : task.isDebugging = false) (behind : next.isDebugging = false)
      (plain : ∀ start x, Departs e task start x → x.debug = false)
  | runs (departs : Departs e task start x) (debug : x.debug = true)
      (consulted : start.debugger.Consulted later.debugger) (closes : start.Closes later [])
      (active : next.isDebugging = true)
  | ends {start : Engine} {x : Execution} {d : Debugger} {outcome : ExecutionOutcome}
      (departs : Departs e task start x) (debug : x.debug = true)
      (consulted : start.debugger.Consulted d) (dismisses : d.Dismisses later.debugger)
      (closes : start.Closes later d.openNumber?.toList)
      (ended : next = .finished (.execution (.ok outcome))) (idle : later.running = false)

variable {e start : Engine} {task : Task} {x : Execution}

lemma runExecution_debug (departs : Departs e task start x) (debug : x.debug = true) : Attends e task
    (runExecution start x).1 (runExecution start x).2 ∧ (runExecution start x).2.IsDiscreet := by
  unfold runExecution Engine.runExecution
  cases machine : x.machine with
  | none =>
    obtain ⟨dismisses, closes⟩ := start.end_debug [] [] none debug
    exact ⟨.ends departs debug .refl dismisses closes rfl rfl, trivial⟩
  | some m =>
    have consulted := m.slice_consulted start
    have silent := start.slice_closes m
    cases control : (m.slice start).2.control with
    | finished error =>
      obtain ⟨dismisses, closes⟩ := (m.slice start).1.end_debug (m.slice start).2.outputs.toList
        ((m.slice start).2.environment.locals .global) error debug
      simp only [control]
      exact ⟨.ends departs debug consulted dismisses (silent.trans closes) rfl rfl, trivial⟩
    | _ =>
      simp only [control]
      exact ⟨.runs departs debug consulted silent debug, fun plain => by simp [debug] at plain⟩

lemma runExecution_plain (start : Engine) (plain : x.debug = false)
    (unattended : ∀ m, x.machine = some m → m.Unattended) : (runExecution start x).1.debugger =
    start.debugger ∧ start.Closes (runExecution start x).1 [] ∧ (runExecution start x).2.isDebugging =
    false ∧ (runExecution start x).2.IsDiscreet := by
  unfold runExecution Engine.runExecution
  cases machine : x.machine with
  | none =>
    obtain ⟨debugger, closes⟩ := start.end_plain [] [] none plain
    exact ⟨debugger, closes, rfl, trivial⟩
  | some m =>
    obtain ⟨same, still⟩ := (unattended m machine).slice start
    have silent := start.slice_closes m
    cases control : (m.slice start).2.control with
    | finished error =>
      obtain ⟨debugger, closes⟩ := (m.slice start).1.end_plain (m.slice start).2.outputs.toList
        ((m.slice start).2.environment.locals .global) error plain
      simp only [control]
      exact ⟨debugger.trans same, silent.trans closes, rfl, trivial⟩
    | _ =>
      simp only [control]
      refine ⟨same, silent, plain, fun _ _ machine => ?_⟩
      cases machine
      exact still

lemma awaitInput_aside (start) (wait) : (awaitInput start wait).1.debugger = start.debugger ∧
    start.Closes (awaitInput start wait).1 [] ∧ (awaitInput start wait).2.isDebugging = false ∧
    (awaitInput start wait).2.IsDiscreet := by
  unfold awaitInput
  split <;> exact ⟨rfl, Engine.closes_of_bus rfl, rfl, trivial⟩

lemma slice_attends (discreet : task.IsDiscreet) :
    Attends e task (task.slice e).1 (task.slice e).2 ∧ (task.slice e).2.IsDiscreet := by
  have waits : ∀ start wait, start.debugger = e.debugger →
      e.Closes start [] → task.isDebugging = false → (∀ later x, ¬Departs e task later x) →
      Attends e task (awaitInput start wait).1 (awaitInput start wait).2 ∧
        (awaitInput start wait).2.IsDiscreet := by
    intro start wait same silent idle stays
    obtain ⟨debugger, closes, other, discreet⟩ := awaitInput_aside start wait
    exact ⟨.aside (debugger.trans same) (silent.trans closes) idle other
      fun later x departs => absurd departs (stays later x), discreet⟩
  cases task with
  | execute source options =>
    simp only [slice]
    cases began : e.beginExecution source options with
    | error =>
      refine ⟨.aside rfl (Engine.closes_of_bus rfl) rfl rfl ?_, trivial⟩
      rintro _ _ ⟨⟩
      simp_all
    | ok pair =>
      obtain ⟨start, x⟩ := pair
      cases debug : x.debug with
      | true => exact runExecution_debug (.begins began) debug
      | false =>
        obtain ⟨same, silent, unattended⟩ := Engine.begin_plain began debug
        obtain ⟨debugger, closes, other, still⟩ := runExecution_plain start debug unattended
        refine ⟨.aside (debugger.trans same) (silent.trans closes) rfl other ?_, still⟩
        intro _ _ departs
        cases departs with
        | begins again =>
          cases began.symm.trans again
          exact debug
  | executing x =>
    cases debug : x.debug with
    | true => exact runExecution_debug (.resumes x) debug
    | false =>
      obtain ⟨debugger, closes, other, still⟩ := runExecution_plain e debug (discreet debug)
      refine ⟨.aside debugger closes debug other ?_, still⟩
      intro _ _ departs
      cases departs
      exact debug
  | request prompt _ validator =>
    have asks : e.Closes (e.askInput prompt validator).1 [] := ⟨[_], rfl, rfl⟩
    exact waits _ _ rfl asks rfl (by rintro later x ⟨⟩)
  | awaiting wait =>
    exact waits e wait rfl (Engine.closes_of_bus rfl) rfl (by rintro later x ⟨⟩)
  | finished =>
    refine ⟨.aside rfl (Engine.closes_of_bus rfl) rfl rfl ?_, trivial⟩
    rintro _ _ ⟨⟩

end Task

namespace Debugger

inductive Obeys (d : Debugger) (call : HostCall) : Prop where
  | keeps (session : (d.obey call).session = d.session)
      (sessions : (d.obey call).sessions = d.sessions)
      (state : d.state ≠ .paused → (d.obey call).state = d.state)
      (unstopped : call = .stop → d.session = none)
  | stops {session : Session} (own : call = .stop) (present : d.session = some session)
      (closed : d.obey call = (d.closed session).1)
  | opens (own : call = .openSession source) (absent : d.session = none)
      (opened : d.obey call = (d.opened source (.ofAnalysis source (analyze source))).1)

lemma obeys_of_edits {breakpoints : List Breakpoint} {issued : Nat} {watches : List DebugExpr}
    (changed : d.obey call = { d with breakpoints, issued, watches }) (unstopped : call = .stop →
    d.session = none) : Obeys d call := by
  apply Obeys.keeps
  · rw [changed]
  · rw [changed]
  · intro _
    rw [changed]
  · exact unstopped

lemma obeys (d) (call) (immediate : call.isImmediate) : Obeys d call := by
  by_cases silent : call = .stop ∨ (∃ source, call = .openSession source) ∨
      ∃ command, call = .command command
  · rcases silent with rfl | ⟨source, rfl⟩ | ⟨command, rfl⟩
    · cases present : d.session with
      | none =>
        have refused : d.obey .stop = d := by simp only [obey, closeSession, present, accept]
        exact obeys_of_edits refused fun _ => present
      | some =>
        exact .stops rfl present (by simp only [obey, closeSession, present, accept])
    · cases present : d.session with
      | none => exact .opens rfl present (by simp only [obey, openSession, present, accept])
      | some =>
        exact obeys_of_edits (obey_openSession (by rw [present]; rfl) source) (by rintro ⟨⟩)
    · by_cases opened : d.session.isSome = true
      · have carried := obey_command opened command
        refine .keeps ?_ ?_ ?_ (by rintro ⟨⟩)
        · rw [carried]
          split
          · rfl
          · split <;> rfl
        · rw [carried]
          split
          · rfl
          · split <;> rfl
        · intro released
          rw [carried, if_neg released]
          split <;> rfl
      · have absent : d.session.isNone := by simpa using opened
        have refused : d.obey (.command command) = d := by
          simp only [obey, Debugger.command, absent, if_true, accept]
        exact obeys_of_edits refused (by rintro ⟨⟩)
  · simp only [not_or, not_exists] at silent
    obtain ⟨unstopped, unopened, uncommanded⟩ := silent
    by_cases aborts : call = .abort
    · subst aborts
      exact obeys_of_edits rfl (by rintro ⟨⟩)
    · have peaceful : (Move.call call immediate).isPeaceful := by
        cases call <;> first | rfl | exact absurd rfl unstopped | exact absurd rfl aborts
      have silent : (Move.call call immediate).isCommand = false := by
        cases call <;> first | rfl | exact absurd rfl (uncommanded _)
      obtain ⟨_, _, _, changed, -⟩ := follow_edits (d := d) peaceful silent
        (by rintro source immediate ⟨⟩; exact unopened source rfl)
      exact obeys_of_edits changed fun own => absurd own unstopped

end Debugger

/-! ### Moves -/

abbrev Move.stop : Move := .call .stop rfl

abbrev Move.openSession (source : String) : Move := .call (.openSession source) rfl

abbrev Move.stepThrough (source : String) : Move := .call (.start (.execute source { step := true })) rfl

abbrev Move.command (command : Command) : Move := .call (.command command) rfl

namespace Host
variable {h : Host}

def Debugs (h : Host) (number : Nat) : Prop :=
  ∃ task, h.task? number = some task ∧ task.isDebugging = true

def Discreet (h : Host) : Prop := ∀ number task, h.task? number = some task → task.IsDiscreet

lemma Debugs.executing (debugs : h.Debugs number) :
    ∃ x, h.task? number = some (.executing x) ∧ x.debug = true := by
  obtain ⟨task, found, debugging⟩ := debugs
  cases task with
  | executing x => exact ⟨x, found, debugging⟩
  | _ => cases debugging

lemma not_debugs (found : h.task? number = some task) (idle : task.isDebugging = false) :
    ¬h.Debugs number := by
  rintro ⟨_, there, debugging⟩
  cases found.symm.trans there
  simp [idle] at debugging

lemma Orderly.debugs_running (orderly : h.Orderly) (debugs : h.Debugs number) :
    h.engine.running := by
  obtain ⟨x, active, -⟩ := debugs.executing
  exact (orderly.active number x active).1

lemma Orderly.debugs_single (orderly : h.Orderly) (one : h.Debugs first) (other : h.Debugs second) :
    first = second := by
  obtain ⟨x, found, -⟩ := one.executing
  obtain ⟨y, there, -⟩ := other.executing
  exact orderly.single first second x y found there

inductive Course (h : Host) (move : Move) : Prop where
  | aside (number : (h.move move).engine.debugger.openNumber? = h.engine.debugger.openNumber?)
      (sessions : (h.move move).engine.debugger.sessions = h.engine.debugger.sessions)
      (state : h.engine.debugger.state ≠ .paused →
        (h.move move).engine.debugger.state = h.engine.debugger.state)
      (closes : h.engine.Closes (h.move move).engine [])
      (debugs : ∀ number, (h.move move).Debugs number ↔ h.Debugs number)
      (unstopped : move = .stop → h.engine.debugger.session = none)
      (waits : ∀ number task start x, move = .slice number → h.task? number = some task →
        task.Departs h.engine start x → x.debug = true → h.Debugs number ∧ h.move move = h)
  | stops {session : Session} (own : move = .stop)
      (present : h.engine.debugger.session = some session)
      (closed : (h.move move).engine.debugger = (h.engine.debugger.closed session).1)
      (closes : h.engine.Closes (h.move move).engine [session.number])
      (debugs : ∀ number, (h.move move).Debugs number ↔ h.Debugs number)
  | opens {source : String} (own : move = .openSession source)
      (absent : h.engine.debugger.session = none)
      (opened : (h.move move).engine.debugger =
        (h.engine.debugger.opened source (.ofAnalysis source (analyze source))).1)
      (closes : h.engine.Closes (h.move move).engine [])
      (debugs : ∀ number, (h.move move).Debugs number ↔ h.Debugs number)
  | runs {number : Nat} {task : Task} {start : Engine} {x : Execution} (own : move = .slice number)
      (found : h.task? number = some task) (departs : task.Departs h.engine start x)
      (debug : x.debug = true) (consulted : start.debugger.Consulted (h.move move).engine.debugger)
      (closes : start.Closes (h.move move).engine []) (debugs : (h.move move).Debugs number)
  | ends {number : Nat} {task : Task} {start : Engine} {x : Execution} {d : Debugger}
      {outcome : ExecutionOutcome} (own : move = .slice number) (found : h.task? number = some task)
      (departs : task.Departs h.engine start x) (debug : x.debug = true)
      (consulted : start.debugger.Consulted d) (dismisses : d.Dismisses (h.move move).engine.debugger)
      (closes : start.Closes (h.move move).engine d.openNumber?.toList)
      (ended : (h.move move).task? number = some (.finished (.execution (.ok outcome))))
      (idle : (h.move move).engine.running = false)

lemma Course.sessions {move : Move} (course : Course h move) :
    h.engine.debugger.sessions ≤ (h.move move).engine.debugger.sessions := by
  have departed : ∀ {task : Task} {start : Engine} {x : Execution},
      task.Departs h.engine start x → x.debug = true →
      h.engine.debugger.sessions ≤ start.debugger.sessions := by
    intro _ _ _ departs debug
    cases departs with
    | resumes => exact Nat.le_refl _
    | begins began =>
      cases (Engine.begin_debug began debug).1 with
      | stays _ sessions => exact Nat.le_of_eq sessions.symm
      | opens _ sessions => exact Nat.le_trans (Nat.le_succ _) (Nat.le_of_eq sessions.symm)
  cases course with
  | aside _ sessions => exact Nat.le_of_eq sessions.symm
  | stops _ _ closed =>
    rw [closed]
    exact Nat.le_refl _
  | opens _ _ opened =>
    rw [opened]
    exact Nat.le_succ _
  | runs _ _ departs debug consulted =>
    rw [consulted.openNumber?.2]
    exact departed departs debug
  | ends _ _ departs debug consulted dismisses =>
    rw [dismisses.sessions, consulted.openNumber?.2]
    exact departed departs debug

lemma stop_closes :
    h.engine.Closes (h.perform .stop).1.engine h.engine.debugger.openNumber?.toList := by
  simp only [perform, replied, Engine.stop, Debugger.closeSession, Debugger.openNumber?]
  cases h.engine.debugger.session with
  | none => exact Engine.closes_of_bus rfl
  | some => exact ⟨[_], rfl, rfl⟩

lemma perform_closes (call) (immediate : call.isImmediate) (unstopped : call ≠ .stop) :
    h.engine.Closes (h.perform call).1.engine [] := by
  cases call with
  | start | cancelInputs | abort | clearWatch => exact Engine.closes_of_bus rfl
  | advance | round => cases immediate
  | stop => exact absurd rfl unstopped
  | submit text =>
    have silent : (h.engine.inputs.submit text).2.2.filterMap Notice.closedSession? = [] := by
      unfold InputQueue.submit
      split
      · rfl
      · split <;> rfl
    simp only [perform]
    split <;> rename_i answered <;>
      exact ⟨_, congrArg (Engine.bus ·.1) answered.symm, silent⟩
  | openSession =>
    simp only [perform, replied, Engine.openSession, Debugger.openSession]
    cases h.engine.debugger.session with
    | none => exact ⟨[_], rfl, rfl⟩
    | some => exact Engine.closes_of_bus rfl
  | command command =>
    have silent : ∀ outcome, h.engine.debugger.command command = .ok outcome →
        outcome.2.filterMap Notice.closedSession? = [] := by
      intro _ carried
      unfold Debugger.command at carried
      split at carried
      · cases carried
      · split at carried <;> cases carried <;> rfl
    simp only [perform, replied, Engine.command]
    cases carried : h.engine.debugger.command command with
    | error => exact Engine.closes_of_bus rfl
    | ok outcome => exact ⟨outcome.2, rfl, silent outcome carried⟩
  | setBreakpoint line condition log =>
    simp only [perform, replied, Engine.setBreakpoint]
    cases h.engine.debugger.setBreakpoint line condition log <;> exact Engine.closes_of_bus rfl
  | clearBreakpoint line =>
    simp only [perform, replied, Engine.clearBreakpoint]
    cases h.engine.debugger.clearBreakpoint line <;> exact Engine.closes_of_bus rfl
  | switchBreakpoint line =>
    simp only [perform, replied, Engine.switchBreakpoint]
    cases h.engine.debugger.switchBreakpoint line <;> exact Engine.closes_of_bus rfl
  | setWatch source =>
    simp only [perform, replied, Engine.setWatch]
    cases h.engine.debugger.setWatch source <;> exact Engine.closes_of_bus rfl

lemma perform_tasks (orderly : h.Orderly) (call) (immediate : call.isImmediate) (number) :
    (h.perform call).1.task? number = h.task? number ∨ h.task? number = none ∧ ∃ task,
    (h.perform call).1.task? number = some task ∧ task.isDebugging = false ∧ task.IsDiscreet := by
  rcases perform_immediate (h := h) call immediate with ⟨task, rfl, same⟩ | ⟨later, -, same⟩
  · rw [same, task?_start h task number orderly.bounded]
    by_cases new : number = h.started + 1
    · right
      have absent : h.task? number = none := by
        cases found : h.task? number with
        | none => rfl
        | some => exact absurd new (orderly.given found)
      refine ⟨absent, task, if_pos new, ?_⟩
      cases task with
      | execute | request => exact ⟨rfl, trivial⟩
      | _ => cases immediate
    · exact .inl (if_neg new)
  · rw [same]
    exact .inl rfl

lemma course_call (orderly : h.Orderly) (discreet : h.Discreet) (call)
    (immediate : call.isImmediate) :
    Course h (.call call immediate) ∧ (h.move (.call call immediate)).Discreet := by
  have tasks := perform_tasks orderly call immediate
  have debugger : (h.move (.call call immediate)).engine.debugger = h.engine.debugger.obey call :=
    perform_debugger call immediate
  have debugs : ∀ number, (h.move (.call call immediate)).Debugs number ↔ h.Debugs number := by
    intro number
    simp only [Debugs, move]
    rcases tasks number with same | ⟨absent, task, found, idle, -⟩
    · rw [same]
    · simp [absent, found, idle]
  constructor
  · cases h.engine.debugger.obeys call immediate with
    | keeps session sessions state unstopped =>
      have silent : h.engine.Closes (h.move (.call call immediate)).engine [] := by
        by_cases stops : call = .stop
        · subst stops
          have closes := stop_closes (h := h)
          rw [Debugger.openNumber?, unstopped rfl] at closes
          exact closes
        · exact perform_closes call immediate stops
      apply Course.aside
      · rw [debugger, Debugger.openNumber?, session]
        rfl
      · rw [debugger, sessions]
      · rw [debugger]
        exact state
      · exact silent
      · exact debugs
      · rintro ⟨⟩
        exact unstopped rfl
      · rintro _ _ _ _ ⟨⟩
    | @stops _ own present closed =>
      subst own
      have closes := stop_closes (h := h)
      rw [Debugger.openNumber?, present] at closes
      exact .stops rfl present (debugger.trans closed) closes debugs
    | opens own absent opened =>
      subst own
      exact .opens rfl absent (debugger.trans opened)
        (perform_closes _ immediate (by rintro ⟨⟩)) debugs
  · intro number task found
    rcases tasks number with same | ⟨-, other, started, -, calm⟩
    · exact discreet number task (same ▸ found)
    · cases started.symm.trans found
      exact calm

lemma course_still (discreet : h.Discreet) (still : h.move (.slice number) = h) (begun : ∀ task start x,
      h.task? number = some task → task.Departs h.engine start x → task = .executing x) :
    Course h (.slice number) ∧ (h.move (.slice number)).Discreet := by
  constructor
  · apply Course.aside
    · rw [still]
    · rw [still]
    · intro _
      rw [still]
    · exact Engine.closes_of_bus (by rw [still])
    · intro _
      rw [still]
    · exact fun own => nomatch own
    · rintro _ task start x ⟨⟩ found departs debug
      refine ⟨⟨task, found, ?_⟩, still⟩
      rw [begun task start x found departs]
      exact debug
  · rw [still]
    exact discreet

lemma course_ready (discreet : h.Discreet) (found : h.task? number = some task)
    (ready : task.isReady h.engine) :
    Course h (.slice number) ∧ (h.move (.slice number)).Discreet := by
  have moved : h.move (.slice number) =
      (h.withEngine (task.slice h.engine).1).putTask number (task.slice h.engine).2 := by
    simp only [move, sliceOf, found, ready, if_true]
  have after : ∀ other, (h.move (.slice number)).task? other =
      if number = other then some (task.slice h.engine).2 else h.task? other := by
    intro _
    rw [moved, task?_after found]
  have engine : (h.move (.slice number)).engine = (task.slice h.engine).1 := by
    rw [moved]
    rfl
  have own : (h.move (.slice number)).task? number = some (task.slice h.engine).2 := by
    rw [after, if_pos rfl]
  obtain ⟨attends, calm⟩ := Task.slice_attends (e := h.engine) (discreet number task found)
  constructor
  · cases attends with
    | aside debugger closes before behind plain =>
      apply Course.aside
      · rw [engine, debugger]
      · rw [engine, debugger]
      · intro _
        rw [engine, debugger]
      · rw [engine]
        exact closes
      · intro other
        by_cases same : number = other
        · subst same
          simp [Debugs, own, found, before, behind]
        · simp only [Debugs, after, if_neg same]
      · rintro ⟨⟩
      · rintro _ _ start x ⟨⟩ found' departs debug
        cases found.symm.trans found'
        simp [plain start x departs] at debug
    | runs departs debug consulted closes active =>
      exact .runs rfl found departs debug (engine ▸ consulted) (engine ▸ closes) ⟨_, own, active⟩
    | ends departs debug consulted dismisses closes ended idle =>
      exact .ends rfl found departs debug consulted (engine ▸ dismisses) (engine ▸ closes)
        (ended ▸ own) (engine ▸ idle)
  · intro other next there
    rw [after] at there
    split at there
    · cases there
      exact calm
    · exact discreet other next there

lemma course (orderly : h.Orderly) (discreet : h.Discreet) (move) :
    Course h move ∧ (h.move move).Discreet := by
  cases move with
  | call call immediate => exact course_call orderly discreet call immediate
  | wait =>
    refine ⟨.aside rfl rfl (fun _ => rfl) (Engine.closes_of_bus rfl) (fun _ => .rfl) ?_ ?_, discreet⟩
    · exact fun own => nomatch own
    · exact fun _ _ _ _ own => nomatch own
  | slice number =>
    cases found : h.task? number with
    | none =>
      refine course_still discreet (by simp only [move, sliceOf, found]) ?_
      intro _ _ _ present
      simp [found] at present
    | some task =>
      by_cases ready : task.isReady h.engine = true
      · exact course_ready discreet found ready
      · refine course_still discreet (by simp [move, sliceOf, found, ready]) ?_
        intro _ _ _ present departs
        cases found.symm.trans present
        cases departs with
        | resumes => rfl
        | begins => exact absurd rfl ready

lemma Discreet.moves (discreet : h.Discreet) (orderly : h.Orderly) (moves) :
    (h.moves moves).Discreet := by
  induction moves generalizing h with
  | nil => exact discreet
  | cons move _ ih =>
    exact ih (course orderly discreet move).2 (orderly.move move)

lemma observed_course (config) (moves) (move) : Course ((observed config).moves moves) move := by
  have orderly := observed_orderly config
  have discreet : (observed config).Discreet := fun _ _ found => by cases found
  exact (course (orderly.moves moves) (discreet.moves orderly moves) move).1

end Host

end Stepper
