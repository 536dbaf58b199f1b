import Stepper.Proofs.Waking

/-! # Pausing and resuming -/

namespace Stepper

open Debugger (closeSession follow startRun)
open Engine (signals_of_bus stop)
open List Machine

variable {move : Move}

/-! ### Calls of the host -/

namespace Debugger

def releases (d : Debugger) : HostCall → Bool
  | .command _ => d.session.isSome && d.state == .paused
  | _ => false

lemma obey_state (d : Debugger) (call) (immediate : call.isImmediate) :
    (d.releases call = true ∧ (d.obey call).state = .running ∧ (d.obey call).session = d.session) ∨
    (d.releases call = false ∧ (d.obey call).state = d.state ∧ (d.obey call).session = d.session) ∨
      (d.releases call = false ∧ (d.obey call).state = .idle ∧ (call = .stop ∧ d.session.isSome = true ∨
      d.session = none)) := by
  by_cases commands : ∃ command, call = .command command
  · obtain ⟨command, rfl⟩ := commands
    cases opened : d.session.isSome with
    | false =>
      have absent : d.session.isNone := by simpa using opened
      have refused : d.obey (.command command) = d := by
        simp only [obey, Debugger.command, absent, if_true, accept]
      exact .inr (.inl ⟨by simp [releases, opened], by rw [refused], by rw [refused]⟩)
    | true =>
      rw [obey_command opened]
      by_cases paused : d.state = .paused
      · rw [if_pos paused]
        exact .inl ⟨by simp [releases, opened, paused], rfl, rfl⟩
      · rw [if_neg paused]
        refine .inr (.inl ⟨by simp [releases, paused], ?_⟩)
        split <;> exact ⟨rfl, rfl⟩
  · have silent : d.releases call = false := by
      cases call with
      | command command => exact absurd ⟨command, rfl⟩ commands
      | _ => rfl
    cases d.obeys call immediate with
    | stops own present closed =>
      refine .inr (.inr ⟨silent, by rw [closed]; rfl, .inl ⟨own, by simp [present]⟩⟩)
    | opens _ absent opened => exact .inr (.inr ⟨silent, by rw [opened]; rfl, .inr absent⟩)
    | keeps session _ _ unstopped =>
      refine .inr (.inl ⟨silent, ?_, session⟩)
      by_cases stops : call = .stop
      · subst stops
        simp [obey, closeSession, unstopped rfl, accept]
      · by_cases opens : ∃ source, call = .openSession source
        · obtain ⟨_, rfl⟩ := opens
          cases present : d.session with
          | some => rw [obey_openSession (by simp [present])]
          | none => simp [obey, openSession, present, accept, opened] at session
        · cases peaceful : call.isPeaceful with
          | false => cases call <;> first | rfl | exact absurd rfl stops | cases peaceful
          | true =>
            have quiet : (Move.call call immediate).isCommand = false := by
              cases call <;> first | rfl | exact absurd ⟨_, rfl⟩ commands
            have followed : d.obey call = d.follow (.call call immediate) := rfl
            have unopened : ∀ source immediateToo,
                Move.call call immediate ≠ .call (.openSession source) immediateToo := by
              rintro source _ ⟨⟩
              exact opens ⟨source, rfl⟩
            obtain ⟨breakpoints, issued, watches, changed, -⟩ : ∃ breakpoints issued watches,
                d.follow (.call call immediate) = { d with breakpoints, issued, watches } ∧ _ :=
              follow_edits peaceful quiet unopened
            rw [followed, changed]

end Debugger

namespace Host
variable {h : Host}

def toldBy (h : Host) : HostCall → List Notice
  | .submit text => (h.engine.inputs.submit text).2.2
  | .stop =>
    match h.engine.debugger.closeSession with
    | .ok outcome => outcome.2.2
    | .error _ => []
  | .openSession source =>
    match h.engine.debugger.openSession source (.ofAnalysis source (analyze source)) with
    | .ok outcome => outcome.2.2
    | .error _ => []
  | .command command =>
    match h.engine.debugger.command command with
    | .ok outcome => outcome.2
    | .error _ => []
  | _ => []

lemma perform_bus (call) (immediate : call.isImmediate) :
    (h.perform call).1.engine.bus = h.engine.bus.announce (h.toldBy call) := by
  cases call with
  | advance | round => cases immediate
  | start | cancelInputs | abort | clearWatch => rfl
  | submit =>
    simp only [perform]
    split <;> rename_i answered <;> exact congrArg (·.1.bus) answered.symm
  | stop =>
    simp only [perform, replied, stop, toldBy]
    cases h.engine.debugger.closeSession <;> rfl
  | openSession source =>
    simp only [perform, replied, Engine.openSession, toldBy]
    cases h.engine.debugger.openSession source (.ofAnalysis source (analyze source)) <;> rfl
  | command command =>
    simp only [perform, replied, Engine.command, toldBy]
    cases h.engine.debugger.command command <;> rfl
  | setBreakpoint line condition log =>
    simp only [perform, replied, Engine.setBreakpoint]
    cases h.engine.debugger.setBreakpoint line condition log <;> rfl
  | clearBreakpoint line =>
    simp only [perform, replied, Engine.clearBreakpoint]
    cases h.engine.debugger.clearBreakpoint line <;> rfl
  | switchBreakpoint line =>
    simp only [perform, replied, Engine.switchBreakpoint]
    cases h.engine.debugger.switchBreakpoint line <;> rfl
  | setWatch source =>
    simp only [perform, replied, Engine.setWatch]
    cases h.engine.debugger.setWatch source <;> rfl

lemma perform_signals (call) (immediate : call.isImmediate) : h.engine.Signals
    (h.perform call).1.engine (if h.engine.debugger.releases call then [.resume] else []) := by
  refine ⟨h.toldBy call, perform_bus call immediate, ?_⟩
  cases call with
  | submit =>
    simp only [toldBy, InputQueue.submit]
    split
    · rfl
    · split <;> rfl
  | stop =>
    simp only [toldBy, closeSession]
    cases h.engine.debugger.session <;> rfl
  | openSession =>
    simp only [toldBy, Debugger.openSession]
    cases h.engine.debugger.session <;> rfl
  | command =>
    simp only [toldBy]
    generalize h.engine.debugger = d
    obtain ⟨state, session⟩ := d
    cases session <;> cases state <;> rfl
  | _ => rfl

/-- The pauses and resumptions that are told in a move. -/
def signals (h : Host) (move : Move) : List Signal := (h.newlyHeard move).filterMap Notice.signal?

lemma signals_eq (orderly : h.Orderly) (signals : h.engine.Signals (h.move move).engine told) :
    h.signals move = told := by
  obtain ⟨_, bus, rfl⟩ := signals
  rw [signals, newlyHeard_eq orderly bus]

end Host

lemma Task.slice_signals {e : Engine} {task : Task} (idle : task.isExecuting = false)
    (running : e.running) : e.Signals (task.slice e).1 [] := by
  have awaits (start) (wait) :
      (awaitInput start wait).1.bus = start.bus := by
    unfold awaitInput
    split <;> rfl
  cases task with
  | execute =>
    apply signals_of_bus
    simp [slice, Engine.beginExecution, running]
  | executing => cases idle
  | request => exact ⟨[_], awaits _ _, rfl⟩
  | awaiting wait => exact signals_of_bus (awaits e wait)
  | finished => exact signals_of_bus rfl

def Debugger.isFreedBy (d : Debugger) : Move → Bool
  | .call call _ => d.releases call
  | _ => false

namespace Host
variable {signals : List Signal}
variable {h : Host} {number : Nat} {x : Execution} {m : Machine}

lemma Orderly.foreign_signals (orderly : h.Orderly) (active : h.task? number = some (.executing x))
    (foreign : move ≠ .slice number) :
    h.signals move = if h.engine.debugger.isFreedBy move then [.resume] else [] := by
  apply signals_eq orderly
  cases move with
  | call call immediate => exact perform_signals call immediate
  | wait => exact signals_of_bus rfl
  | slice other =>
    obtain same | ⟨task, idle, same⟩ := orderly.other_slice active foreign
    · exact same ▸ signals_of_bus rfl
    · exact same ▸ Task.slice_signals idle (orderly.active number x active).1

section
variable (orderly : h.Orderly) (active : h.task? number = some (.executing x))
  (foreign : move ≠ .slice number)
include orderly active foreign

lemma Orderly.foreign_state : (h.engine.debugger.isFreedBy move = true ∧ (h.move
      move).engine.debugger.state = .running ∧ (h.move move).engine.debugger.session =
      h.engine.debugger.session) ∨ (h.engine.debugger.isFreedBy move = false ∧ (h.move
      move).engine.debugger.state = h.engine.debugger.state ∧ (h.move move).engine.debugger.session =
      h.engine.debugger.session) ∨ (h.engine.debugger.isFreedBy move = false ∧ (h.move
      move).engine.debugger.state = .idle ∧ ((h.move move).engine.aborting = true ∨
      h.engine.debugger.session = none)) := by
  have running := (orderly.active number x active).1
  rw [(orderly.foreign_debugger active foreign).1]
  cases move with
  | wait => exact .inr (.inl ⟨rfl, rfl, rfl⟩)
  | slice => exact .inr (.inl ⟨rfl, rfl, rfl⟩)
  | call call immediate =>
    rcases h.engine.debugger.obey_state call immediate with freed | kept | ⟨silent, idle, ended⟩
    · exact .inl freed
    · exact .inr (.inl kept)
    · refine .inr (.inr ⟨silent, idle, ?_⟩)
      rcases ended with ⟨rfl, opened⟩ | absent
      · exact .inl (perform_stop running opened)
      · exact .inr absent

lemma Orderly.foreign_agreed (agreed : Machine.Agreed h.engine m signals) :
    Machine.Agreed (h.move move).engine m (signals ++ h.signals move) := by
  have continues := (orderly.foreign active foreign).1
  have unordered : (h.move move).engine.aborting = false → h.engine.aborting = false := by
    intro peaceful
    cases ordered : h.engine.aborting with
    | false => rfl
    | true => simp [continues.aborting ordered] at peaceful
  have stays : Machine.IsHeld h.engine m → Machine.IsHeld (h.move move).engine m :=
    Or.imp id (And.imp continues.aborting id)
  rw [orderly.foreign_signals active foreign]
  rcases orderly.foreign_state active foreign with
    ⟨freed, state, session⟩ | ⟨silent, state, session⟩ | ⟨silent, state, ended⟩
  · have last : signals.getLast? = some .pause := by
      apply agreed.told
      cases move with
      | call call =>
        cases call <;> simp_all [Debugger.isFreedBy, Debugger.releases]
      | _ => cases freed
    simp only [freed, if_true]
    constructor
    · exact .resume agreed.alternates last
    · exact agreed.tidy
    · simp [state]
    · simp
    · intro peaceful
      exact ⟨session ▸ (agreed.known (unordered peaceful)).1, by simp⟩
  · simp only [silent, Bool.false_eq_true, if_false, append_nil]
    constructor
    · exact agreed.alternates
    · exact agreed.tidy
    · exact fun paused => agreed.told (state ▸ paused)
    · exact fun last => stays (agreed.held last)
    · intro peaceful
      rw [session, state]
      exact agreed.known (unordered peaceful)
  · simp only [silent, Bool.false_eq_true, if_false, append_nil]
    constructor
    · exact agreed.alternates
    · exact agreed.tidy
    · simp [state]
    · exact fun last => stays (agreed.held last)
    · intro peaceful
      rcases ended with ordered | absent
      · simp [peaceful] at ordered
      · have opened := (agreed.known (unordered peaceful)).1
        simp [absent] at opened

end

def Agreement (h : Host) (number : Nat) (signals : List Signal) : Prop :=
  Alternates signals ∧ ∀ x, h.task? number = some (.executing x) →
    ∃ m, x.machine = some m ∧ Machine.Agreed h.engine m signals

lemma OwnSlice.agreement (slice : OwnSlice h number e x m) (orderly : h.Orderly)
    (before : h.engine.Signals e []) (agreed : Machine.Agreed e m signals) :
    Agreement (h.move (.slice number)) number (signals ++ h.signals (.slice number)) := by
  obtain ⟨new, told, came⟩ := agreed.slice
  have since : h.engine.Signals (m.slice e).1 new := before.trans told
  cases slice with
  | runs _ engine task =>
    rw [signals_eq orderly (engine ▸ since)]
    refine ⟨came.alternates, ?_⟩
    intro _ active
    cases task.symm.trans active
    exact ⟨_, rfl, engine ▸ came⟩
  | @ends error _ engine task =>
    have ended := since.trans ((m.slice e).1.end_signals x (m.slice e).2.outputs.toList
      ((m.slice e).2.environment.locals .global) error)
    rw [append_nil, ← engine] at ended
    rw [signals_eq orderly ended]
    refine ⟨came.alternates, ?_⟩
    intro _ active
    cases task.symm.trans active

lemma Orderly.own_agreement (orderly : h.Orderly) (active : h.task? number = some (.executing x))
    (machine : x.machine = some m) (agreed : Machine.Agreed h.engine m signals) :
    Agreement (h.move (.slice number)) number (signals ++ h.signals (.slice number)) := by
  cases ready : m.isReady h.engine with
  | true =>
    exact (ownSlice active machine ready).agreement orderly (signals_of_bus rfl) agreed
  | false =>
    have same := sliceOf_rests active machine ready
    have silent : h.signals (.slice number) = [] :=
      signals_eq orderly (signals_of_bus (by rw [same]))
    rw [silent, append_nil, same]
    refine ⟨agreed.alternates, ?_⟩
    intro _ activeToo
    cases active.symm.trans activeToo
    exact ⟨m, machine, agreed⟩

/-- Whether a run that is paused stays as it is through a move: it crosses nothing, tells nothing and
changes no variable, and if the move ends it, it ends with what it had. -/
structure Rests (h : Host) (number : Nat) (move : Move) (m : Machine) : Prop where
  idle : move = .slice number → h.engine.aborting = false → h.move move = h
  leaves : ∀ state ∈ h.trail number move, m.Stills state.2
  silent : move = .slice number → (h.newlyHeard move).filterMap Notice.printed? = []
  stands : ∀ x, (h.move move).task? number = some (.executing x) →
    ∃ later, x.machine = some later ∧ m.Stills later
  ended : ∀ outcome, (h.move move).task? number = some (.finished (.execution (.ok outcome))) →
    outcome.outputs = m.outputs.toList ∧ outcome.bindings = m.environment.locals .global

lemma Rests.of_stills (stills : first.Stills m) (rests : Rests h number move m) :
    Rests h number move first where
  idle := rests.idle
  leaves state mem := stills.trans (rests.leaves state mem)
  silent := rests.silent
  stands y active := by
    obtain ⟨later, machine, stillsToo⟩ := rests.stands y active
    exact ⟨later, machine, stills.trans stillsToo⟩
  ended outcome returned := by
    obtain ⟨outputs, bindings⟩ := rests.ended outcome returned
    exact ⟨outputs.trans (congrArg Array.toList stills.outputs), bindings.trans stills.globals⟩

lemma Orderly.rests (orderly : h.Orderly) (active : h.task? number = some (.executing x))
    (machine : x.machine = some m) (agreed : Machine.Agreed h.engine m signals)
    (last : signals.getLast? = some .pause) (move) : Rests h number move m := by
  by_cases own : move = .slice number
  · subst own
    cases ready : m.isReady h.engine with
    | false =>
      have same := sliceOf_rests active machine ready
      have unheard : h.newlyHeard (.slice number) = [] :=
        newlyHeard_eq orderly (congrArg (fun later => later.engine.bus) same)
      constructor
      · exact fun _ _ => same
      · simp [trail_rests active machine ready]
      · simp [unheard]
      · intro _ activeToo
        rw [same, active] at activeToo
        cases activeToo
        exact ⟨m, machine, .refl m⟩
      · intro _ returned
        rw [same, active] at returned
        cases returned
    | true =>
      have ordered : h.engine.aborting := by
        cases aborting : h.engine.aborting with
        | true => rfl
        | false => simp [(agreed.rests last aborting).1] at ready
      obtain ⟨_, stills, engine⟩ :=
        (agreed.held last).slice_aborting agreed.tidy ordered
      have slice := ownSlice active machine ready
      constructor
      · simp [ordered]
      · rwa [trail_own active machine ready]
      · intro _
        cases slice with
        | runs _ moved =>
          have unheard : h.newlyHeard (.slice number) = [] :=
            newlyHeard_eq orderly (congrArg Engine.bus (moved.trans engine))
          simp [unheard]
        | @ends error _ moved _ =>
          obtain ⟨_, bus, kinds⟩ := (m.slice h.engine).1.end_bus x
            (m.slice h.engine).2.outputs.toList ((m.slice h.engine).2.environment.locals .global) error
          rw [engine] at bus moved
          rw [newlyHeard_eq orderly ((congrArg Engine.bus moved).trans bus)]
          exact filterMap_printed?_eq_nil kinds (by decide)
      · intro _ activeToo
        cases slice with
        | runs _ _ task =>
          cases task.symm.trans activeToo
          exact ⟨_, rfl, stills⟩
        | ends _ _ task => cases task.symm.trans activeToo
      · intro _ returned
        cases slice with
        | runs _ _ task => cases task.symm.trans returned
        | ends _ _ task =>
          cases task.symm.trans returned
          exact ⟨congrArg Array.toList stills.outputs, stills.globals⟩
  · obtain ⟨-, still⟩ := orderly.foreign active own
    constructor
    · exact fun same => absurd same own
    · simp [trail_foreign own]
    · exact fun same => absurd same own
    · intro _ activeToo
      rw [still] at activeToo
      cases activeToo
      exact ⟨m, machine, .refl m⟩
    · intro _ returned
      rw [still] at returned
      cases returned

end Host

/-! ### The moves of an execution -/

namespace Host
variable {h : Host} {number : Nat} {x y : Execution} {m later : Machine}

lemma perform_command (command) (opened : h.engine.debugger.session.isSome)
    (paused : h.engine.debugger.state = .paused) : (h.perform (.command command)).2 = .done := by
  have present : h.engine.debugger.session.isNone = false := by simpa using opened
  have carried : h.engine.debugger.command command =
      .ok ({ h.engine.debugger with
        pendingStep := h.engine.debugger.stepFor command, state := .running }, [.resumed command]) := by
    simp only [Debugger.command, present, paused, Bool.false_eq_true, if_false]
  simp only [perform, Engine.command, carried]
  rfl

lemma paused_of_slice (active : h.task? number = some (.executing x)) (machine : x.machine = some m)
    (ready : m.isReady h.engine) (peaceful : h.engine.aborting = false)
    (activeToo : (h.move (.slice number)).task? number = some (.executing y))
    (machineToo : y.machine = some later) (pause : later.control.isPause) :
    (h.move (.slice number)).engine.aborting = false ∧
      (h.move (.slice number)).engine.debugger.state = .paused := by
  cases ownSlice active machine ready with
  | runs _ engine task =>
    cases task.symm.trans activeToo
    cases machineToo
    rw [engine]
    exact slice_pause peaceful ready pause
  | ends _ _ task => cases task.symm.trans activeToo

end Host

namespace Launch
variable {config : Config} {source : String}

/-- The run after so many moves, while it has not ended. -/
def run? (launch : Launch config source) (schedule : Nat → Move) (n : Nat) : Option Machine :=
  match (launch.after schedule n).task? launch.number with
  | some (.executing x) => x.machine
  | _ => none

/-- The pauses and resumptions told in the first moves. -/
def signalsAt (launch : Launch config source) (schedule : Nat → Move) (n : Nat) : List Signal :=
  (List.range n).flatMap fun k => (launch.after schedule k).signals (schedule k)

/-- The first moves of a schedule make up the execution, or its beginning: the first one begins it, and
it does not end before the last one. -/
structure Spans (launch : Launch config source) (schedule : Nat → Move) (n : Nat) : Prop where
  begins : schedule 0 = .slice launch.number
  active : ∀ k, 0 < k → k < n →
    ∃ x, (launch.after schedule k).task? launch.number = some (.executing x)

/-- Whether a command lets the run's next slice go on past the very wait it was given in, and no other:
the wake-up is used up in that slice. -/
structure Resumes (launch : Launch config source) (schedule : Nat → Move) (given next : Nat)
    (command : Command) : Prop where
  accepted : ((launch.after schedule given).perform (.command command)).2 = .done
  passed : ∃ m b since, launch.run? schedule given = some m ∧
    m.control = .waiting (.paused b since) ∧
    launch.run? schedule next = some m ∧
    (launch.after schedule next).trail launch.number (schedule next) =
      m.trail (launch.after schedule next).engine ∧
    m.step (launch.after schedule next).engine =
      ({ (launch.after schedule next).engine with wakeup := {} },
        (m.excludeSince since (launch.after schedule next).engine.now).into (.proceed b))
  spent : ∀ m, launch.run? schedule (next + 1) = some m → m.control.isPause = true →
    (launch.after schedule (next + 1)).engine.debugger.state = .paused ∧
      (launch.after schedule (next + 1)).engine.wakeup.sent = false ∧
      (launch.signalsAt schedule (next + 1)).getLast? = some .pause

/-- What holds of a debug run in every interleaving with its host: pauses and resumptions alternate, a
paused run rests, and a command given in a pause is neither lost nor kept for a later one. -/
structure HandsOver (launch : Launch config source) (schedule : Nat → Move) (n : Nat) : Prop where
  alternates : Alternates (launch.signalsAt schedule n)
  rests : ∀ i k, 0 < i → i ≤ k → k < n →
    (launch.signalsAt schedule i).getLast? = some .pause →
    launch.signalsAt schedule k = launch.signalsAt schedule i →
    ∃ m, launch.run? schedule i = some m ∧
      (launch.after schedule k).Rests launch.number (schedule k) m
  resumes : ∀ given next command immediate, 0 < given → given < next → next < n →
    schedule given = .call (.command command) immediate →
    (launch.after schedule given).engine.debugger.state = .paused →
    (∀ k, given < k → k < next → schedule k ≠ .slice launch.number) →
    schedule next = .slice launch.number →
    (launch.after schedule next).engine.aborting = false →
    launch.Resumes schedule given next command

section Moves
variable (launch : Launch config source) (plan : Nat → Move)

lemma signalsAt_succ (n) : launch.signalsAt plan (n + 1) = launch.signalsAt plan n ++
    (launch.after plan n).signals (plan n) := by
  simp [signalsAt, range_succ]

lemma signalsAt_mono (earlier : i ≤ k) :
    launch.signalsAt plan i <+: launch.signalsAt plan k := by
  induction earlier with
  | refl => exact prefix_rfl
  | @step _ _ ih =>
    rw [signalsAt_succ]
    exact ih.trans (prefix_append _ _)

end Moves

variable {launch : Launch config source} {plan : Nat → Move} {n : Nat}

lemma run?_eq_some : launch.run? plan k = some m ↔ ∃ x, (launch.after plan k).task?
    launch.number = some (.executing x) ∧ x.machine = some m := by
  constructor
  · intro run
    unfold run? at run
    split at run
    · exact ⟨_, ‹_›, run⟩
    · cases run
  · rintro ⟨_, active, machine⟩
    simp [run?, active, machine]

section
variable (debug : launch.debug = true)
include debug

lemma begins_agreement : (launch.host.move (.slice launch.number)).Agreement launch.number
    (launch.host.signals (.slice launch.number)) := by
  obtain ⟨start, x, m, began⟩ : ∃ start x m, Engine.Began launch.host.engine source launch.options
      (.ofAnalysis source (analyze source)) start x m :=
    Engine.begins_debug launch.valid launch.idle debug
  obtain ⟨_, opened, debugger⟩ := began.debugger debug
  obtain ⟨_, bus, kinds⟩ := Engine.begin_tells began.began
  have before : launch.host.engine.Signals start [] := by
    refine ⟨_, bus, ?_⟩
    rw [filterMap_eq_nil_iff]
    intro notice mem
    rcases mem_append.mp mem with early | started
    · have kind := kinds notice early
      cases notice <;> first | rfl | simp [Notice.kind, openingKinds] at kind
    · rw [mem_singleton.mp started]
      rfl
  have agreed : Machine.Agreed start m [] := by
    constructor
    · exact .nil
    · rw [began.starts]
      exact ofTarget_tidy _ _ _ _
    · simp [debugger, startRun]
    · simp
    · intro _
      rw [debugger]
      exact ⟨by simpa [startRun] using opened, by simp⟩
  exact (Host.beginSlice launch.given began.began began.machine).agreement launch.orderly before agreed

variable (spans : launch.Spans plan n)

include spans

lemma agreement : ∀ k, k < n → (launch.after plan (k + 1)).Agreement launch.number
    (launch.signalsAt plan (k + 1)) := by
  intro k
  induction k with
  | zero =>
    intro _
    have first : launch.after plan 0 = launch.host := rfl
    rw [after_succ, signalsAt_succ, spans.begins, first]
    exact begins_agreement debug
  | succ k ih =>
    intro inside
    obtain ⟨x, active⟩ := spans.active (k + 1) (Nat.succ_pos k) inside
    obtain ⟨m, machine, agreed⟩ := (ih (by omega)).2 x active
    have orderly := launch.after_orderly plan (k + 1)
    rw [after_succ, signalsAt_succ]
    by_cases own : plan (k + 1) = .slice launch.number
    · rw [own]
      exact orderly.own_agreement active machine agreed
    · have kept := orderly.foreign_agreed active own agreed
      refine ⟨kept.alternates, ?_⟩
      intro _ activeToo
      cases (orderly.foreign active own).2.symm.trans activeToo
      exact ⟨m, machine, kept⟩

lemma agreed (begun : 0 < k) (inside : k < n) : ∃ x m, (launch.after plan k).task? launch.number =
    some (.executing x) ∧ x.machine = some m ∧ Machine.Agreed (launch.after plan k).engine m
    (launch.signalsAt plan k) := by
  obtain ⟨k, rfl⟩ := Nat.exists_eq_succ_of_ne_zero (Nat.ne_of_gt begun)
  obtain ⟨x, active⟩ := spans.active (k + 1) begun inside
  obtain ⟨m, machine, agreed⟩ := (agreement debug spans k (by omega)).2 x active
  exact ⟨x, m, active, machine, agreed⟩

lemma stills (begun : 0 < i) (run : launch.run? plan i = some m)
    (last : (launch.signalsAt plan i).getLast? = some .pause) (later : i ≤ k) : k < n →
    launch.signalsAt plan k = launch.signalsAt plan i → ∃ now, launch.run? plan k = some now
    ∧ m.Stills now := by
  induction later with
  | refl => exact fun _ _ => ⟨m, run, .refl m⟩
  | @step k later ih =>
    intro inside same
    have before : launch.signalsAt plan k = launch.signalsAt plan i := by
      have between := launch.signalsAt_mono plan (Nat.le_succ k)
      rw [same] at between
      have longer := (launch.signalsAt_mono plan later).length_le
      exact between.eq_of_length_le longer
    have insideToo : k < n := Nat.lt_of_succ_lt inside
    obtain ⟨_, stands, stills⟩ := ih insideToo before
    obtain ⟨_, run, active, machine, agreed⟩ :=
      agreed debug spans (Nat.lt_of_lt_of_le begun later) insideToo
    cases (run?_eq_some.mpr ⟨_, active, machine⟩).symm.trans stands
    have rests := (launch.after_orderly plan k).rests active machine agreed (before ▸ last)
      (plan k)
    obtain ⟨y, activeToo⟩ := spans.active (k + 1) (Nat.succ_pos k) inside
    obtain ⟨next, machineToo, stillsToo⟩ := rests.stands y (by rw [← after_succ]; exact activeToo)
    exact ⟨next, run?_eq_some.mpr ⟨_, activeToo, machineToo⟩, stills.trans stillsToo⟩

end

lemma released {given next : Nat}
    (active : (launch.after plan given).task? launch.number = some (.executing x))
    (commanded : plan given = .call (.command command) immediate)
    (paused : (launch.after plan given).engine.debugger.state = .paused)
    (foreign : ∀ k, given < k → k < next → plan k ≠ .slice launch.number)
    (later : given + 1 ≤ next) : (launch.after plan next).task? launch.number = some (.executing x)
    ∧ (launch.after plan given).engine.Continues (launch.after plan next).engine ∧
      ((launch.after plan given).engine.debugger.session.isSome = true → (launch.after plan
      next).engine.debugger.state ≠ .paused) := by
  induction later with
  | refl =>
    have other : plan given ≠ .slice launch.number := by simp [commanded]
    have orderly := launch.after_orderly plan given
    obtain ⟨continues, stands⟩ := orderly.foreign active other
    refine ⟨by rw [after_succ, stands], by rw [after_succ]; exact continues, fun opened => ?_⟩
    rw [after_succ, (orderly.foreign_debugger active other).1, commanded]
    simp [follow, Debugger.obey_command opened, paused]
  | @step k later ih =>
    obtain ⟨stands, continues, free⟩ := ih fun i after before =>
      foreign i after (Nat.lt_succ_of_lt before)
    have other := foreign k later (Nat.lt_succ_self k)
    have orderly := launch.after_orderly plan k
    obtain ⟨continuesToo, standsToo⟩ := orderly.foreign stands other
    refine ⟨by rw [after_succ, standsToo], by rw [after_succ]; exact continues.trans continuesToo,
      fun opened => ?_⟩
    rw [after_succ]
    rcases orderly.foreign_state stands other with
      ⟨-, state, -⟩ | ⟨-, state, -⟩ | ⟨-, state, -⟩
    · simp [state]
    · rw [state]
      exact free opened
    · simp [state]

/-- Debug runs and their hosts hand over to each other at pauses, in every interleaving. -/
theorem pauses_hand_over (launch : Launch config source) (debug : launch.debug = true)
    (schedule : Nat → Move) (n : Nat) (spans : launch.Spans schedule n) :
    launch.HandsOver schedule n := by
  constructor
  · cases n with
    | zero => exact .nil
    | succ n => exact (agreement debug spans n (Nat.lt_succ_self n)).1
  · intro _ k begun later inside last same
    obtain ⟨_, m, active, machine, -⟩ := agreed debug spans begun (Nat.lt_of_le_of_lt later inside)
    have run := run?_eq_some.mpr ⟨_, active, machine⟩
    obtain ⟨_, stands, stills⟩ := stills debug spans begun run last later inside same
    obtain ⟨_, _, activeToo, machineToo, agreed⟩ :=
      agreed debug spans (Nat.lt_of_lt_of_le begun later) inside
    cases (run?_eq_some.mpr ⟨_, activeToo, machineToo⟩).symm.trans stands
    have rests := (launch.after_orderly schedule k).rests activeToo machineToo agreed (same ▸ last)
      (schedule k)
    exact ⟨m, run, rests.of_stills stills⟩
  · intro given next command _ begun later inside commanded paused foreign own peaceful
    obtain ⟨_, m, active, machine, agreed⟩ := agreed debug spans begun (Nat.lt_trans later inside)
    obtain ⟨stands, continues, free⟩ := released active commanded paused foreign later
    have calm : (launch.after schedule given).engine.aborting = false := by
      cases ordered : (launch.after schedule given).engine.aborting with
      | false => rfl
      | true => simp [continues.aborting ordered] at peaceful
    have opened := (agreed.known calm).1
    have free := free opened
    obtain ⟨b, since, shape⟩ : ∃ b since, m.control = .waiting (.paused b since) := by
      rcases agreed.held (agreed.told paused) with pause | ⟨ordered, -⟩
      · exact isPause_iff.mp pause
      · simp [calm] at ordered
    have sent : (launch.after schedule next).engine.wakeup.sent = true :=
      ((launch.attuned debug schedule next stands machine peaceful).told
        (isPause_iff.mpr ⟨b, since, shape⟩)).mpr free
    have ready : m.isReady (launch.after schedule next).engine = true := by
      simp [isReady, shape, canResume, free, sent, Wakeup.rouse_goes]
    constructor
    · exact Host.perform_command command opened paused
    · refine ⟨m, b, since, run?_eq_some.mpr ⟨_, active, machine⟩, shape,
        run?_eq_some.mpr ⟨_, stands, machine⟩, ?_, ?_⟩
      · rw [own]
        exact Host.trail_own stands machine ready
      · simp [step, shape, resume, peaceful, free, sent, Wakeup.rouse, Wakeup.look]
    · intro _ run pause
      obtain ⟨y, activeToo, machineToo⟩ := run?_eq_some.mp run
      have moved := launch.after_succ schedule next
      rw [own] at moved
      obtain ⟨peacefulToo, state⟩ : (launch.after schedule (next + 1)).engine.aborting = false ∧
          (launch.after schedule (next + 1)).engine.debugger.state = .paused := by
        rw [moved] at activeToo ⊢
        exact Host.paused_of_slice stands machine ready peaceful activeToo machineToo pause
      obtain ⟨_, -, agreedToo⟩ := (agreement debug spans next inside).2 y activeToo
      refine ⟨state, ?_, agreedToo.told state⟩
      have told := (launch.attuned debug schedule (next + 1) activeToo machineToo peacefulToo).told pause
      simpa [state] using told

def steppedLines : Launch {} "PRINT 1\nPRINT 2" :=
  .sole {} "PRINT 1\nPRINT 2" { step := true }

def stepThenAbort : Nat → Move
  | 2 => .call (.command (.step .into)) rfl
  | 4 => .call .abort rfl
  | _ => .slice 1

/-- The run of the two lines pauses, is resumed, and pauses again. -/
theorem steppedLines_hand_over : steppedLines.debug = true ∧ steppedLines.Spans stepThenAbort 6 ∧
    steppedLines.signalsAt stepThenAbort 6 = [.pause, .resume, .pause] ∧
    steppedLines.HandsOver stepThenAbort 6 := by
  have spans : steppedLines.Spans stepThenAbort 6 := by
    have active : ∀ k < 6, 0 < k → (steppedLines.run? stepThenAbort k).isSome = true := by
      decide +kernel
    constructor
    · rfl
    · intro k begun inside
      obtain ⟨_, run⟩ := Option.isSome_iff_exists.mp (active k inside begun)
      obtain ⟨x, executing, -⟩ := run?_eq_some.mp run
      exact ⟨x, executing⟩
  exact ⟨rfl, spans, by decide +kernel, pauses_hand_over steppedLines rfl stepThenAbort 6 spans⟩

end Launch

end Stepper
