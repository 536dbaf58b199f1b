import Stepper.Proofs.LineWalk
import Stepper.Proofs.SessionOwnership
import Stepper.Proofs.SessionRecord
import Stepper.Proofs.Tracking

/-! # Breakpoints off the lines of a session -/

namespace Stepper

open List Debugger

/-! ### Breakpoints that a run has met -/

def Control.mark? : Control → Option (Nat × Boundary)
  | .watch _ _ _ b stop => stop.breakpoint.map fun hit => (hit.1, b)
  | _ => none

def Continuation.mark? : Continuation → Option (Nat × Boundary)
  | .condition breakpoint b _ => some (breakpoint.id, b)
  | .watch _ _ _ _ b stop => stop.breakpoint.map fun hit => (hit.1, b)
  | _ => none

lemma Continuation.isProbe_of_mark {k : Continuation} (marked : k.mark? = some mark) :
    k.isProbe := by
  cases k with
  | condition | watch => rfl
  | _ => cases marked

lemma Control.mark_of_isSettled {control : Control} (settled : control.isSettled) :
    control.mark? = none := by
  cases control with
  | watch => cases settled
  | _ => rfl

namespace Machine

def StackPins (d : Debugger) (stack : List Continuation) : Prop :=
  ∀ k ∈ stack, ∀ number b, k.mark? = some (number, b) → d.Pinned number b.location.line

structure Pins (d : Debugger) (m : Machine) : Prop where
  control : ∀ number b, m.control.mark? = some (number, b) → d.Pinned number b.location.line
  stack : StackPins d m.stack

section Marks
variable {d : Debugger} {m : Machine}

lemma Pins.unmarked (below : StackPins d m.stack) (none : m.control.mark? = none) : Pins d m := by
  refine ⟨fun _ _ marked => ?_, below⟩
  cases none.symm.trans marked

lemma StackPins.push {stack : List Continuation} (below : StackPins d stack)
    (known : ∀ number b, k.mark? = some (number, b) → d.Pinned number b.location.line) :
    StackPins d (k :: stack) :=
  forall_mem_cons.mpr ⟨known, below⟩

lemma Pins.follows (pins : Pins d m) (follows : d.Follows later) : Pins later m :=
  ⟨fun number b marked => (pins.control number b marked).follows follows,
    fun k mem number b marked => (pins.stack k mem number b marked).follows follows⟩

section
variable (below : StackPins d m.stack) (e : Engine)
include below e

lemma stopOrProceed_pins (b)
    (known : ∀ hit, stop.breakpoint = some hit → d.Pinned hit.1 b.location.line) :
    Pins d (m.stopOrProceed e b stop) := by
  unfold stopOrProceed
  split
  · exact .unmarked below rfl
  · refine ⟨fun _ _ marked => ?_, below⟩
    obtain ⟨hit, present, same⟩ := Option.map_eq_some_iff.mp marked
    cases same
    exact known hit present

lemma hit_pins (known : d.Pinned breakpoint.id b.location.line) (step) :
    Pins d (m.hit e breakpoint b step).2 := by
  unfold hit
  dsimp only
  split
  · exact .unmarked below rfl
  · dsimp only
    refine stopOrProceed_pins below _ b fun hit present => ?_
    cases present
    exact known

lemma proceed_pins (b) (step) : Pins d (m.stopOrProceed e b ⟨none, step⟩) :=
  stopOrProceed_pins below e b fun _ present => by cases present

end

lemma arrive_pins {e : Engine} (below : StackPins e.debugger m.stack) (valid : e.debugger.Valid) (b) :
    Pins e.debugger (m.arrive e b).2 := by
  unfold arrive
  split
  · dsimp only
    split
    · exact proceed_pins below _ b _
    · next breakpoint met =>
      obtain ⟨mem, here⟩ := breakpointOn?_some (met_on_line met)
      have known : e.debugger.Pinned breakpoint.id b.location.line := here ▸ valid.pinned mem
      split
      · refine .unmarked (below.push fun _ _ marked => ?_) rfl
        cases marked
        exact known
      · exact hit_pins below _ known _
  · exact .unmarked below rfl

lemma Crosses.pins {next : Machine} (crosses : Crosses b m next) (below : StackPins d m.stack) :
    Pins d next := by
  cases crosses <;> exact .unmarked below rfl

lemma Resumes.pins {next : Engine × Machine} (resumes : Resumes e m wait next)
    (pins : Pins d m) : Pins d next.2 := by
  cases resumes with
  | stays => exact pins
  | _ => exact .unmarked pins.stack rfl

lemma probe_pins (below : StackPins d m.stack) (e) (probe : k.isProbe)
    (known : ∀ number b, k.mark? = some (number, b) → d.Pinned number b.location.line) (result) :
    Pins d (m.deliverTo e k result).2 := by
  have onward (b) (step) :
      Pins d (({ m with muted := false } : Machine).stopOrProceed e b ⟨none, step⟩) :=
    proceed_pins (m := { m with muted := false }) below e b step
  cases k with
  | condition _ b step =>
    simp only [deliverTo]
    split
    · split
      · exact hit_pins (m := { m with muted := false }) below e (known _ _ rfl) step
      · exact onward b step
    · exact onward b step
  | log =>
    simp only [deliverTo]
    split <;> exact .unmarked below rfl
  | watch =>
    simp only [deliverTo]
    split <;> exact ⟨known, below⟩
  | _ => cases probe

lemma Advance.pins {next : Machine} (advance : Advance m next) (quiet : m.IsQuiet) (pins : Pins d m) :
    Pins d next := by
  have below : StackPins d next.stack := by
    intro k mem number b marked
    have probe : k ∈ next.stack.filter Continuation.isProbe :=
      mem_filter.mpr ⟨mem, Continuation.isProbe_of_mark marked⟩
    rw [advance.probes] at probe
    exact pins.stack k (mem_filter.mp probe).1 number b marked
  exact .unmarked below (Control.mark_of_isSettled (advance.settled (settled_of_quiet quiet)))

lemma Pins.step {e : Engine} (pins : Pins e.debugger m) (valid : e.debugger.Valid) :
    Pins e.debugger (m.step e).2 := by
  have below := pins.stack
  by_cases quiet : m.IsQuiet
  · exact (advance_of_quiet e quiet).pins quiet pins
  · cases encounter_of_loud quiet with
    | prints shape =>
      simp only [Machine.step, shape, complete, print]
      split <;> exact .unmarked below rfl
    | asks shape =>
      simp only [Machine.step, shape, complete, applyBuiltin]
      split <;> exact .unmarked below rfl
    | boundary shape =>
      simp only [Machine.step, shape]
      exact (m.stepBoundary_crosses e _).pins below
    | arrived shape =>
      simp only [Machine.step, shape]
      exact arrive_pins below valid _
    | log shape =>
      simp only [Machine.step, shape, stepLog]
      split
      · dsimp only
        exact proceed_pins below _ _ _
      · exact .unmarked below rfl
      · exact .unmarked (below.push fun _ _ marked => by cases marked) rfl
    | @watch _ _ _ _ _ shape =>
      have known := pins.control
      rw [shape] at known
      simp only [Machine.step, shape, stepWatch]
      split
      · exact .unmarked below rfl
      · exact .unmarked (below.push known) rfl
    | waits shape =>
      simp only [Machine.step, shape]
      exact (m.resume_resumes e _).pins pins
    | @probed result _ stack shape top probe =>
      rw [top] at below
      obtain ⟨known, others⟩ := forall_mem_cons.mp below
      simp only [Machine.step, shape, deliver, top]
      exact probe_pins (m := { m with stack }) others e probe known result

lemma ofTarget_pins (d) (target) (now) (limit) (debugging) :
    (ofTarget target now limit debugging).Pins d := by
  have below : StackPins d (ofTarget target now limit debugging).stack := by
    intro k mem _ _ marked
    have plain := ofTarget_unprobed target now limit debugging k mem
    rw [Continuation.isProbe_of_mark marked] at plain
    cases plain
  cases target <;> exact .unmarked below rfl

end Marks

/-! ### What a step does to the debugger -/

section
variable {m : Machine} {e : Engine}

lemma Consults.current (consults : Consults e m later) :
    later.current.map Position.line = m.enters?.or (e.debugger.current.map Position.line) := by
  cases consults with
  | aside outside | pauses _ _ _ _ outside =>
    rw [outside]
    rfl
  | enters line =>
    rw [line, reach_eq]
    rfl
  | hits _ line =>
    rw [line, countHit_eq, reach_eq]
    rfl
  | holds _ outside =>
    rw [outside, countHit_eq]
    rfl

lemma Consults.records (consults : Consults e m later) (records : e.debugger.Records own target entered)
    (sessions : later.sessions = e.debugger.sessions) :
    later.Records own target (entered ++ m.enters?.toList) := by
  have kept (outside : m.enters? = none) (session : later.session = e.debugger.session) :
      later.Records own target (entered ++ m.enters?.toList) := by
    rw [outside, Option.toList_none, append_nil]
    exact ⟨sessions ▸ records.given, session ▸ records.record⟩
  cases consults with
  | aside outside => exact kept outside rfl
  | enters line =>
    rw [line]
    exact records.visit sessions (by rw [reach_eq]; rfl)
  | hits _ line =>
    rw [line]
    exact records.visit sessions (by rw [countHit_eq, reach_eq]; rfl)
  | holds _ outside => exact kept outside (by rw [countHit_eq])
  | pauses _ _ _ _ outside => exact kept outside rfl

lemma mem_countHit {d : Debugger} (mem : b ∈ d.breakpoints) (other : b.id ≠ number) :
    b ∈ (d.countHit number).1.breakpoints := by
  unfold countHit
  split
  · exact mem
  · exact mem_map.mpr ⟨b, mem, if_neg other⟩

lemma Consults.spares (consults : Consults e m later) (pins : Pins e.debugger m)
    (valid : e.debugger.Valid) (mem : c ∈ e.debugger.breakpoints)
    (apart : ∀ b, m.Shows b → c.line ≠ b.location.line) : c ∈ later.breakpoints := by
  have reached (position) : c ∈ (e.debugger.reach position).1.breakpoints := by
    rw [reach_eq]
    exact mem
  cases consults with
  | aside | pauses => exact mem
  | enters => exact reached _
  | @hits b _ shape _ _ found =>
    obtain ⟨there, here⟩ := breakpointOn?_some found
    refine mem_countHit (reached _) fun same => apart b (.inl (by rw [shape]; rfl)) ?_
    exact (congrArg Breakpoint.line (valid.same_of_id mem there same)).trans here
  | @holds b breakpoint _ asked =>
    refine mem_countHit mem fun same => apart b (.inr ⟨_, asked, rfl⟩) ?_
    exact (pins.stack _ asked breakpoint.id b rfl).only c mem same

lemma breakpointHit_mem {number line count : Nat}
    (told : .breakpointHit number line count ∈ m.notices e) :
    ∃ b, m.control.mark? = some (number, b) ∧ m.Shows b ∧ line = b.location.line := by
  unfold notices at told
  split at told
  · split at told <;> simp at told
  · split at told <;> simp at told
  · simp at told
  · next _ _ b stop control =>
    cases met : stop.breakpoint with
    | none => cases stepped : stop.step <;> simp [pause, met, stepped] at told
    | some hit =>
      obtain ⟨rfl, rfl, -⟩ : number = hit.1 ∧ line = b.location.line ∧ count = hit.2 := by
        cases stepped : stop.step <;> simpa [pause, met, stepped, position] using told
      refine ⟨b, ?_, .inl ?_, rfl⟩
      · simp [control, Control.mark?, met]
      · rw [control]
        rfl
  · cases told

lemma logged_mem (told : .logged text line ∈ m.notices e) :
    ∃ b, m.Shows b ∧ line = b.location.line := by
  unfold notices at told
  split at told
  · split at told <;> simp at told
  · split at told <;> simp at told
  · next written b _ control =>
    obtain ⟨rfl, rfl⟩ : text = written ∧ line = b.location.line := by simpa using told
    exact ⟨b, .inl (by rw [control]; rfl), rfl⟩
  · next _ _ _ stop _ =>
    cases met : stop.breakpoint <;> cases stepped : stop.step <;>
      simp [pause, met, stepped] at told
  · cases told

end

/-! ### Debug runs and their sessions -/

/-- The session that was open when a run took its first step. -/
def boarded? (passed : List (Engine × Machine)) (e : Engine) : Option Nat :=
  ((passed.head?.map Prod.fst).getD e).debugger.openNumber?

/-- The lines that a run reports to the debugger, in the order of its states. -/
def entered (passed : List (Engine × Machine)) : List Nat :=
  passed.filterMap fun state => state.2.enters?

lemma entered_concat (passed) (e) (m) :
    entered (passed ++ [(e, m)]) = entered passed ++ m.enters?.toList := by
  rw [entered, filterMap_append]
  cases enters : m.enters? <;> simp [entered, enters]

structure Attached (config : Config) (target : Target) (own : Nat) (passed : List (Engine × Machine))
    (e : Engine) (m : Machine) : Prop where
  limits : e.config = config
  walks : m.Walks target config.maxCallDepth
  walked : ∀ line ∈ entered passed, line ∈ target.lines
  valid : e.debugger.Valid
  records : e.debugger.Records own target (entered passed)
  pins : m.Pins e.debugger
  observed : e.bus.IsObserved
  announced : .sessionOpened (sessionName own) target.isSketch target.lines ∈ e.bus.heard
  opened : e.aborting = false → e.debugger.openNumber? = some own

section
variable {target : Target} {own : Nat} {passed : List (Engine × Machine)} {e : Engine}
  {m : Machine}

lemma Attached.step (attached : Attached config target own passed e m) :
    Attached config target own (passed ++ [(e, m)]) (m.step e).1 (m.step e).2 := by
  obtain ⟨_, debugger, _, consulted, changed⟩ := m.step_affects e
  have same : (m.step e).1.debugger = debugger := by rw [changed]
  have continues := Engine.step_continues e m
  have evolves : e.debugger.Evolves (m.step e).1.debugger := same ▸ consulted.evolves
  obtain ⟨number, sessions⟩ := consulted.openNumber?
  constructor
  · exact continues.config.trans attached.limits
  · exact attached.walks.step (Nat.le_of_eq (congrArg Config.maxCallDepth attached.limits))
  · rw [entered_concat]
    refine forall_mem_append.mpr ⟨attached.walked, fun _ mem => ?_⟩
    exact attached.walks.enters (Option.mem_toList.mp mem)
  · exact attached.valid.evolves evolves
  · rw [entered_concat]
    exact (step_consults e m).records attached.records (same ▸ sessions)
  · exact (attached.pins.step attached.valid).follows (attached.valid.follows evolves)
  · exact continues.observed attached.observed
  · rw [m.step_bus e, (e.bus.announce_heard _ attached.observed).2]
    exact mem_append_left _ attached.announced
  · intro peaceful
    have before : e.aborting = false := by
      rw [changed] at peaceful
      exact peaceful
    rw [same, number]
    exact attached.opened before

end

end Machine

lemma Engine.begin_session {e later : Engine} (began : e.beginExecution source options = .ok (later, x))
    (debug : x.debug) : ∃ session, later.debugger.session = some session ∧ session.source =
    source ∧ session.path = #[] := by
  have opens (e : Engine) : ∃ session,
      (e.sessionFor source (analyze source)).1.debugger.session = some session ∧
        session.source = source := by
    unfold sessionFor
    split
    · exact ⟨_, rfl, rfl⟩
    · next session present =>
      split
      · next same => exact ⟨session, present, same⟩
      · exact ⟨_, rfl, rfl⟩
  unfold beginExecution at began
  split at began
  · cases began
  · simp only [Except.ok.injEq, Prod.mk.injEq] at began
    obtain ⟨rfl, rfl⟩ := began
    have asked : options.debug || options.step := debug
    obtain ⟨session, present, same⟩ := opens { e with running := true, aborting := false }
    simp only [asked, if_true]
    exact ⟨{ session with path := #[] }, congrArg (Option.map _) present, same, rfl⟩

namespace Host

open Machine

lemma begins_attached {moves : List Move} {x : Execution}
    (began : ((observed config).moves moves).engine.beginExecution source options = .ok (e, x))
    (machine : x.machine = some m) (debug : x.debug) : ∃ own, e.debugger.openNumber? = some own ∧
    Attached config (.ofAnalysis source (analyze source)) own [] e m := by
  have valid := observed_valid config moves
  have orderly := (observed_orderly config).moves moves
  have follows := (Engine.begin_follows began).2.1
  have evolves := Engine.begin_evolves began
  have validNow := valid.evolves evolves
  obtain ⟨session, present, rfl, empty⟩ := Engine.begin_session began debug
  have isOpen : e.debugger.openNumber? = some session.number := by
    rw [openNumber?, present]
    rfl
  have runs := validNow.target session present
  refine ⟨session.number, isOpen, ?_⟩
  obtain ⟨_, _, _, rfl⟩ := Engine.begin_machine valid began machine
  constructor
  · exact follows.config.trans (moves_config _ (observed_orderly config) moves)
  · exact ofTarget_walks _ _ _ _ _
  · exact forall_mem_nil _
  · exact validNow
  · refine ⟨(owned config moves).departs (.begins began) debug _ isOpen, fun _ there _ => ?_⟩
    cases present.symm.trans there
    exact ⟨runs, by rw [empty]; rfl⟩
  · exact ofTarget_pins _ _ _ _ _
  · exact follows.observed orderly.observed
  · have told := (Engine.begin_accounts began).announced orderly.observed
      (observed_announced config moves) session present
    rw [Session.opening, validNow.lines session present, runs] at told
    exact told
  · exact fun _ => isOpen

lemma Orderly.foreign_attached {h : Host} (orderly : h.Orderly)
    (active : h.task? number = some (.executing x)) {move : Move} (foreign : move ≠ .slice number)
    (attached : Attached config target own passed h.engine m) :
    Attached config target own passed (h.move move).engine m := by
  have continues := (orderly.foreign active foreign).1
  have debugger := (orderly.foreign_debugger active foreign).1
  have evolves := h.move_evolves move
  constructor
  · exact continues.config.trans attached.limits
  · exact attached.walks
  · exact attached.walked
  · exact attached.valid.evolves evolves
  · rw [debugger]
    exact attached.records.follow move
  · exact attached.pins.follows (attached.valid.follows evolves)
  · exact continues.observed attached.observed
  · obtain ⟨notices, bus⟩ := continues.bus
    rw [bus, (h.engine.bus.announce_heard notices attached.observed).2]
    exact mem_append_left _ attached.announced
  · intro peaceful
    have before : h.engine.aborting = false := by
      cases ordered : h.engine.aborting with
      | false => rfl
      | true => exact (continues.aborting ordered).symm.trans peaceful
    have isOpen := attached.opened before
    rw [debugger]
    cases move with
    | wait | slice => exact isOpen
    | call call immediate =>
      -- While the session is open, only a stop could close it, and a stop is an order to the run.
      cases h.engine.debugger.obeys call immediate with
      | keeps session =>
        rw [follow, openNumber?, session]
        exact isOpen
      | stops own present =>
        subst own
        have running := (orderly.active number x active).1
        have ordered := perform_stop running (Option.isSome_iff_exists.mpr ⟨_, present⟩)
        cases ordered.symm.trans peaceful
      | opens _ absent =>
        rw [openNumber?, absent] at isOpen
        cases isOpen

lemma upholds_attached (debug : options.debug || options.step) : Upholds config number source
    options fun passed e m => ∃ own, boarded? passed e = some own ∧ Attached config
    (.ofAnalysis source (analyze source)) own passed e m := by
  constructor
  · intro _ _ _ _ _ began machine
    exact begins_attached began machine ((Engine.begin_asked began).trans debug)
  · rintro passed _ _ ⟨own, boarded, attached⟩ -
    refine ⟨own, ?_, attached.step⟩
    cases passed <;> exact boarded
  · rintro moves _ passed _ _ active _ foreign begun ⟨own, boarded, attached⟩
    refine ⟨own, ?_, ((observed_orderly config).moves moves).foreign_attached active foreign attached⟩
    cases passed with
    | nil => exact absurd rfl begun
    | cons => exact boarded

end Host

/-- Whether a session, while it is open, keeps its lines and the path that was walked. -/
def Debugger.Keeps (d : Debugger) (own : Nat) (lines path : List Nat) : Prop :=
  ∀ session, d.session = some session → session.number = own →
    session.lines = lines ∧ session.path.toList = path

namespace Machine

/-- The next step neither hits a breakpoint nor changes it. -/
structure Spares (e : Engine) (m : Machine) (b : Breakpoint) : Prop where
  stays : b ∈ (m.step e).1.debugger.breakpoints
  untold : ∀ line hits, .breakpointHit b.id line hits ∉ m.notices e

/-- What a debug run has to do with the lines of its session, in a state from which it takes a step. -/
structure KeepsTo (own : Nat) (target : Target) (passed : List Nat) (e : Engine) (m : Machine) :
    Prop where
  announced : .sessionOpened (sessionName own) target.isSketch target.lines ∈ e.bus.heard
  opened : e.aborting = false → e.debugger.openNumber? = some own
  walked : ∀ line ∈ passed, line ∈ target.lines
  enters : ∀ line, m.enters? = some line → line ∈ target.lines
  current : (m.step e).1.debugger.current.map Position.line =
    m.enters?.or (e.debugger.current.map Position.line)
  recorded : e.debugger.Keeps own target.lines (passed.take maxPath)
  records : (m.step e).1.debugger.Keeps own target.lines ((passed ++ m.enters?.toList).take maxPath)
  verified : e.debugger.openNumber? = some own →
    ∀ b ∈ e.debugger.breakpoints, (b.verified = true ↔ b.line ∈ target.lines)
  unverified : e.debugger.openNumber? = some own →
    ∀ b ∈ e.debugger.breakpoints, b.verified = false → m.Spares e b
  elsewhere : ∀ b ∈ e.debugger.breakpoints, b.line ∉ target.lines → m.Spares e b
  told : ∀ number line hits, .breakpointHit number line hits ∈ m.notices e → line ∈ target.lines
  logged : ∀ text line, .logged text line ∈ m.notices e → line ∈ target.lines

section Keeping
variable {target : Target} {own : Nat} {passed : List (Engine × Machine)} {e : Engine}
  {m : Machine}

variable (attached : Attached config target own passed e m)
include attached

lemma Attached.keeps : e.debugger.Keeps own target.lines ((entered passed).take maxPath) := by
  intro session present same
  obtain ⟨runs, path⟩ := attached.records.record session present same
  exact ⟨by rw [attached.valid.lines session present, runs], path⟩

lemma Attached.verified (isOpen : e.debugger.openNumber? = some own)
    (mem : b ∈ e.debugger.breakpoints) : b.verified = true ↔ b.line ∈ target.lines := by
  obtain ⟨session, present, same⟩ := Option.map_eq_some_iff.mp isOpen
  rw [attached.valid.flags b mem, hasLine, present, ← (attached.keeps session present same).1]
  exact contains_iff_mem

lemma Attached.spares (mem : b ∈ e.debugger.breakpoints) (outside : b.line ∉ target.lines) :
    m.Spares e b := by
  have apart (place) (shows : m.Shows place) : b.line ≠ place.location.line :=
    fun same => outside (same ▸ attached.walks.line_mem shows)
  refine ⟨(step_consults e m).spares attached.pins attached.valid mem apart, ?_⟩
  intro _ _ told
  obtain ⟨place, marked, shows, -⟩ := breakpointHit_mem told
  exact apart place shows ((attached.pins.control _ _ marked).only b mem rfl)

lemma Attached.keepsTo :
    KeepsTo own target (entered passed) e m where
  announced := attached.announced
  opened := attached.opened
  walked := attached.walked
  enters _ enters := attached.walks.enters enters
  current := (step_consults e m).current
  recorded := attached.keeps
  records := entered_concat passed e m ▸ attached.step.keeps
  verified isOpen _ mem := attached.verified isOpen mem
  unverified isOpen b mem unverified := by
    refine attached.spares mem fun inside => ?_
    cases unverified.symm.trans ((attached.verified isOpen mem).mpr inside)
  elsewhere _ mem outside := attached.spares mem outside
  told _ _ _ told := by
    obtain ⟨_, -, shows, rfl⟩ := breakpointHit_mem told
    exact attached.walks.line_mem shows
  logged _ _ told := by
    obtain ⟨_, shows, rfl⟩ := logged_mem told
    exact attached.walks.line_mem shows

end Keeping

end Machine

/-- Breakpoints that are not verified never fire: in every debug run each line that is entered is one of
those the host was told when the session was opened. -/
theorem Launch.unverified_breakpoints_never_fire {config : Config} {source : String}
    (launch : Launch config source) (debug : launch.debug = true) (moves : List Move) :
    (∀ passed e m after, launch.host.history launch.number moves = passed ++ (e, m) :: after →
      ∃ own, Machine.boarded? passed e = some own ∧
        Machine.KeepsTo own (.ofAnalysis source (analyze source)) (Machine.entered passed) e m) ∧
    ∀ x, (launch.host.moves moves).task? launch.number = some (.executing x) →
      ∃ own, Machine.boarded? (launch.host.history launch.number moves)
          (launch.host.moves moves).engine = some own ∧
        (launch.host.moves moves).engine.debugger.Keeps own
          (Target.ofAnalysis source (analyze source)).lines
          ((Machine.entered (launch.host.history launch.number moves)).take maxPath) := by
  have upholds : Host.Upholds config launch.number source launch.options _ :=
    Host.upholds_attached debug
  refine ⟨fun passed e m after here => ?_, fun x active => ?_⟩
  · obtain ⟨own, boarded, attached⟩ := upholds.reached launch.given here
    exact ⟨own, boarded, attached.keepsTo⟩
  · have same : (Host.observed config).moves (launch.before ++ moves) = launch.host.moves moves :=
      List.foldl_append
    have tracked := upholds.tracked launch.given moves
    rw [same] at tracked
    cases tracked with
    | waits found => cases found.symm.trans active
    | runs _ _ _ known =>
      obtain ⟨own, boarded, attached⟩ := known
      exact ⟨own, boarded, attached.keeps⟩
    | ended found => cases found.symm.trans active

abbrev Move.setBreakpoint (line : Nat) (condition log : Option String) : Move :=
  .call (.setBreakpoint line condition log) rfl

def brokenText : Launch {} "LET x = 1\nLET =\nPRINT x\n" :=
  .first {} "LET x = 1\nLET =\nPRINT x\n" { debug := true }
    [.setBreakpoint 3 none none, .setBreakpoint 9 none none] (by decide)

/-- After 18 steps the run comes to the last line. The breakpoint there is hit and the other one is not.
When the run pauses there, the session has recorded all three lines. -/
theorem brokenText_spares_far :
    ∃ passed e m after near far x session,
      brokenText.host.history 1 [.slice 1] = passed ++ (e, m) :: after ∧
      e.debugger.breakpoints = [near, far] ∧ near.verified = true ∧ far.verified = false ∧
      m.enters? = some 3 ∧ (m.step e).1.debugger.breakpoints.map Breakpoint.hits = [1, 0] ∧
      m.Spares e far ∧ (brokenText.host.moves [.slice 1]).task? 1 = some (.executing x) ∧
      (brokenText.host.moves [.slice 1]).engine.debugger.session = some session ∧
      session.lines = [1, 2, 3] ∧ session.path.toList = [1, 2, 3] := by
  obtain ⟨lines, entered, onFirst, here, paused, opened⟩ :
      (Target.ofAnalysis "LET x = 1\nLET =\nPRINT x\n"
        (analyze "LET x = 1\nLET =\nPRINT x\n")).lines = [1, 2, 3] ∧
      (Machine.entered (brokenText.host.history 1 [.slice 1])).take maxPath = [1, 2, 3] ∧
      Machine.boarded? (brokenText.host.history 1 [.slice 1])
        (brokenText.host.moves [.slice 1]).engine = some 1 ∧
      (((brokenText.host.history 1 [.slice 1]).drop 18).head?.any fun state =>
        state.1.debugger.breakpoints.map Breakpoint.verified == [true, false] &&
          state.2.enters? == some 3 && !state.1.aborting &&
          (state.2.step state.1).1.debugger.breakpoints.map Breakpoint.hits == [1, 0]) = true ∧
      ((brokenText.host.moves [.slice 1]).task? 1).any Task.isExecuting = true ∧
      ((brokenText.host.moves [.slice 1]).engine.debugger.session.any (·.number == 1)) = true := by
    decide +kernel
  obtain ⟨⟨e, m⟩, begins, facts⟩ := (Option.any_eq_true _ _).mp here
  obtain ⟨after, found⟩ := List.head?_eq_some_iff.mp begins
  simp only [Bool.and_eq_true, Bool.not_eq_true', beq_iff_eq] at facts
  obtain ⟨⟨⟨marks, enters⟩, peaceful⟩, hits⟩ := facts
  obtain ⟨near, _, breakpoints, verified, others⟩ := List.map_eq_cons_iff.mp marks
  obtain ⟨far, rfl, unverified⟩ := List.map_eq_singleton_iff.mp others
  obtain ⟨task, active, executing⟩ := (Option.any_eq_true _ _).mp paused
  obtain ⟨x, rfl⟩ : ∃ x, task = .executing x := by
    cases task with
    | executing x => exact ⟨x, rfl⟩
    | _ => cases executing
  obtain ⟨session, isOpen, first⟩ := (Option.any_eq_true _ _).mp opened
  have reached : brokenText.host.history 1 [.slice 1] =
      (brokenText.host.history 1 [.slice 1]).take 18 ++ (e, m) :: after := by
    rw [← found, List.take_append_drop]
  obtain ⟨states, hosts⟩ := brokenText.unverified_breakpoints_never_fire rfl [.slice 1]
  obtain ⟨_, -, keepsTo⟩ := states _ e m after reached
  have spares : m.Spares e far :=
    keepsTo.unverified (keepsTo.opened peaceful) far (breakpoints ▸ by simp) unverified
  obtain ⟨_, boarded, keeps⟩ := hosts x active
  cases onFirst.symm.trans boarded
  obtain ⟨same, path⟩ := keeps session isOpen (beq_iff_eq.mp first)
  exact ⟨_, e, m, after, near, far, x, session, reached, breakpoints, verified, unverified,
    enters, hits, spares, active, isOpen, same.trans lines, path.trans entered⟩

end Stepper
