import Mathlib.Data.List.Basic
import Mathlib.Data.List.Induction
import Stepper.Proofs.Sessions

/-! # Who closes a session -/

namespace Stepper

open List Engine Debugger

namespace Host
variable {start : Engine} {x : Execution}

/-! ### The session of a run -/

/-- The session that a debug run has as it begins in its next slice. -/
def boards? (h : Host) (number : Nat) : Option Nat :=
  match h.task? number with
  | some (.execute source options) =>
    match h.engine.beginExecution source options with
    | .ok (start, x) => if x.debug then start.debugger.openNumber? else none
    | .error _ => none
  | _ => none

/-- The session that a task's debug run has begun with. -/
def ownSession? (h : Host) (number : Nat) : List Move → Option Nat
  | [] => none
  | move :: rest =>
    ((h.move move).ownSession? number rest).or
      (if move.isSliceOf number then h.boards? number else none)

/-- Whether a task's run ends in its next slice. -/
def Concludes (h : Host) (number : Nat) : Prop :=
  ∃ outcome, (h.move (.slice number)).task? number = some (.finished (.execution (.ok outcome)))

/-- Whether a slice of a task begins a debug run in place of the session with a number, which is on
another source text. -/
def Replaces (h : Host) (number n : Nat) : Prop :=
  ∃ source options session, h.task? number = some (.execute source options) ∧
    (options.debug || options.step) = true ∧ h.engine.running = false ∧
    h.engine.debugger.session = some session ∧ session.number = n ∧ session.source ≠ source

/-- The moves that may close a session: its host stops it, a debug run replaces it, or the run ends that
it belongs to. -/
inductive ClosedByRight (config : Config) (moves : List Move) (n : Nat) : Move → Prop where
  | stopped (present : ((observed config).moves moves).engine.debugger.openNumber? = some n) :
      ClosedByRight config moves n .stop
  | replaced (replaces : ((observed config).moves moves).Replaces number n) :
      ClosedByRight config moves n (.slice number)
  | concluded (debugs : ((observed config).moves moves).Debugs number)
      (concludes : ((observed config).moves moves).Concludes number)
      (present : ((observed config).moves moves).engine.debugger.openNumber? = some n)
      (own : (observed config).ownSession? number moves = some n) : ClosedByRight config moves n
      (.slice number)
  | passed (boards : ((observed config).moves moves).boards? number = some n)
      (concludes : ((observed config).moves moves).Concludes number) : ClosedByRight config moves n
      (.slice number)

/-- Whether a session is open while the debug run of a task is active, so that the host stops it during
the run. -/
def StoppedDuring (config : Config) (number own : Nat) (before : List Move) : Prop :=
  ((observed config).moves before).Debugs number ∧
    ((observed config).moves before).engine.debugger.openNumber? = some own

/-- Whether the host stopped one session while the debug run of a task was active, and opened another
one after that. -/
def OpenedAfterStop (config : Config) (number own n : Nat) (moves : List Move) : Prop :=
  ∃ before between after source,
    moves = before ++ .stop :: (between ++ .openSession source :: after) ∧
    StoppedDuring config number own before ∧
    ((observed config).moves (before ++ .stop :: between)).engine.debugger.session = none ∧
    ((observed config).moves
      (before ++ .stop :: (between ++ [.openSession source]))).engine.debugger.openNumber? = some n

/-- Whether a move closes the session with a number for a debug run that began on another one: the host
stopped that one and opened this one while the run was active, and the run ends. -/
def Usurped (config : Config) (moves : List Move) (n : Nat) (move : Move) : Prop :=
  ∃ number own, move = .slice number ∧
    ((observed config).moves moves).Debugs number ∧
    ((observed config).moves moves).Concludes number ∧
    ((observed config).moves moves).engine.debugger.openNumber? = some n ∧
    (observed config).ownSession? number moves = some own ∧ own ≠ n ∧
    OpenedAfterStop config number own n moves

variable {h : Host} {config : Config} {moves : List Move} {move : Move} {number n : Nat}

lemma ownSession?_concat (h : Host) (number) (moves) (move) : h.ownSession? number (moves ++ [move]) =
    (if move.isSliceOf number then (h.moves moves).boards? number else none).or
    (h.ownSession? number moves) := by
  induction moves generalizing h with
  | nil => simp [ownSession?, moves]
  | cons _ _ ih =>
    simp only [cons_append, ownSession?, ih, Option.or_assoc]
    rfl

lemma Debugs.boards? (debugs : h.Debugs number) : h.boards? number = none := by
  obtain ⟨task, found, debugging⟩ := debugs
  unfold Host.boards?
  rw [found]
  cases task with
  | execute => cases debugging
  | _ => rfl

lemma ownSession?_of_debugs (debugs : ((observed config).moves moves).Debugs number) :
    (observed config).ownSession? number (moves ++ [move]) = (observed config).ownSession? number
    moves := by
  rw [ownSession?_concat, debugs.boards?]
  split <;> exact Option.none_or

lemma boards?_of_begins (found : h.task? number = some (.execute source options))
    (began : h.engine.beginExecution source options = .ok (start, x)) (debug : x.debug) :
    h.boards? number = start.debugger.openNumber? := by
  simp only [boards?, found, began, debug, if_true]

lemma begins_of_boards? (boards : h.boards? number = some n) : ∃ source options start x, h.task? number
    = some (.execute source options) ∧ h.engine.beginExecution source options = .ok (start, x) ∧ x.debug
    = true ∧ start.debugger.openNumber? = some n := by
  unfold boards? at boards
  split at boards
  · rename_i source options found
    split at boards
    · rename_i start x began
      split at boards
      · rename_i debug
        exact ⟨source, options, start, x, found, began, debug, boards⟩
      · cases boards
    · cases boards
  · cases boards

/-! ### What becomes of the session of a run -/

inductive Fate (config : Config) (number own : Nat) (moves : List Move) : Prop where
  | holds (present : ((observed config).moves moves).engine.debugger.openNumber? = some own)
  | lost (before after : List Move) (split : moves = before ++ .stop :: after)
      (stopped : StoppedDuring config number own before)
      (foreign : ∀ n, ((observed config).moves moves).engine.debugger.openNumber? = some n →
        own < n ∧ OpenedAfterStop config number own n moves)

structure Owned (config : Config) (moves : List Move) : Prop where
  numbered : ∀ n, ((observed config).moves moves).engine.debugger.openNumber? = some n →
    n ≤ ((observed config).moves moves).engine.debugger.sessions
  runs : ∀ number, ((observed config).moves moves).Debugs number →
    ∃ own, (observed config).ownSession? number moves = some own ∧
      own ≤ ((observed config).moves moves).engine.debugger.sessions ∧
      Fate config number own moves

variable {own : Nat}

lemma OpenedAfterStop.concat (opened : OpenedAfterStop config number own n moves) (move) :
    OpenedAfterStop config number own n (moves ++ [move]) := by
  obtain ⟨before, between, after, source, rfl, rest⟩ := opened
  exact ⟨before, between, after ++ [move], source, by simp, rest⟩

section
variable (fate : Fate config number own moves)
include fate

lemma Fate.kept (same : (((observed config).moves moves).move move).engine.debugger.openNumber? =
      ((observed config).moves moves).engine.debugger.openNumber?) :
    Fate config number own (moves ++ [move]) := by
  cases fate with
  | holds present => exact .holds (by rw [moves_concat, same, present])
  | lost before after split stopped foreign =>
    refine .lost before (after ++ [move]) (by simp [split]) stopped ?_
    intro n present
    rw [moves_concat, same] at present
    exact ⟨(foreign n present).1, (foreign n present).2.concat move⟩

lemma Fate.stopped (debugs : ((observed config).moves moves).Debugs number)
    (closed : (((observed config).moves moves).move .stop).engine.debugger.openNumber? = none) :
    Fate config number own (moves ++ [.stop]) := by
  have none : ∀ n, ((observed config).moves (moves ++ [.stop])).engine.debugger.openNumber? = some n →
      own < n ∧ OpenedAfterStop config number own n (moves ++ [.stop]) := by
    intro _ present
    rw [moves_concat, closed] at present
    cases present
  cases fate with
  | holds present => exact .lost moves [] rfl ⟨debugs, present⟩ none
  | lost before after split stopped =>
    exact .lost before (after ++ [.stop]) (by simp [split]) stopped none

lemma Fate.opened (issued : own ≤ ((observed config).moves moves).engine.debugger.sessions)
    (absent : ((observed config).moves moves).engine.debugger.session = none) (opened : (((observed
      config).moves moves).move (.openSession source)).engine.debugger.openNumber? = some (((observed
      config).moves moves).engine.debugger.sessions + 1)) :
    Fate config number own (moves ++ [.openSession source]) := by
  cases fate with
  | holds present => simp [openNumber?, absent] at present
  | lost before after split stopped =>
    refine .lost before (after ++ [.openSession source]) (by simp [split]) stopped ?_
    intro _ present
    rw [moves_concat, opened] at present
    cases present
    refine ⟨Nat.lt_succ_of_le issued, before, after, [], source, by simp [split], stopped, ?_, ?_⟩
    · rw [← split]
      exact absent
    · have regrouped : before ++ .stop :: (after ++ [.openSession source]) =
          moves ++ [.openSession source] := by simp [split]
      rw [regrouped, moves_concat]
      exact opened

end

section
variable (owned : Owned config moves)
include owned

lemma Owned.departs {task : Task}
    (departs : task.Departs ((observed config).moves moves).engine start x) (debug : x.debug) :
    ∀ n, start.debugger.openNumber? = some n → n ≤ start.debugger.sessions := by
  cases departs with
  | resumes => exact owned.numbered
  | begins began =>
    intro n present
    cases (begin_debug began debug).1 with
    | stays number sessions =>
      rw [number] at present
      rw [sessions]
      exact owned.numbered n present
    | opens number sessions =>
      cases number.symm.trans present
      exact Nat.le_of_eq sessions.symm

lemma Owned.onward (debugs : ((observed config).moves moves).Debugs number) (fates : ∀ own, own ≤
      ((observed config).moves moves).engine.debugger.sessions → Fate config number own moves → Fate
      config number own (moves ++ [move])) : ∃ own, (observed config).ownSession? number
    (moves ++ [move]) = some own ∧ own ≤
    ((observed config).moves (moves ++ [move])).engine.debugger.sessions ∧ Fate config number own
    (moves ++ [move]) := by
  obtain ⟨own, began, issued, fate⟩ := owned.runs number debugs
  refine ⟨own, (ownSession?_of_debugs debugs).trans began, ?_, fates own issued fate⟩
  rw [moves_concat]
  exact Nat.le_trans issued (observed_course config moves move).sessions

lemma Owned.run {task : Task} (found : ((observed config).moves moves).task? number = some task)
    (departs : task.Departs ((observed config).moves moves).engine start x) (debug : x.debug = true)
      (consulted : start.debugger.Consulted (((observed config).moves moves).move (.slice
      number)).engine.debugger)
    (debugs : (((observed config).moves moves).move (.slice number)).Debugs number) :
    Owned config (moves ++ [.slice number]) := by
  obtain ⟨sameNumber, sessions⟩ := consulted.openNumber?
  have numbered := owned.departs departs debug
  rw [← sameNumber, ← sessions, ← moves_concat] at numbered
  refine ⟨numbered, ?_⟩
  intro _ active
  rw [moves_concat] at active
  cases (((observed_orderly config).moves moves).move _).debugs_single active debugs
  cases departs with
  | resumes => exact owned.onward ⟨_, found, debug⟩ fun own _ fate => fate.kept sameNumber
  | begins began =>
    have isOpen := (begin_debug began debug).1.session
    rw [← Option.isSome_map (f := Session.number), Option.isSome_iff_exists] at isOpen
    obtain ⟨own, opened⟩ := isOpen
    have present : ((observed config).moves (moves ++ [.slice number])).engine.debugger.openNumber? =
        some own := by
      rw [moves_concat, sameNumber]
      exact opened
    refine ⟨own, ?_, numbered own present, .holds present⟩
    rw [ownSession?_concat, boards?_of_begins found began debug, openNumber?, opened,
      if_pos (Move.isSliceOf_iff.mpr rfl), Option.some_or]

lemma Owned.concat (move) : Owned config (moves ++ [move]) := by
  cases observed_course config moves move with
  | aside sameNumber sessions _ _ debugs =>
    constructor
    · intro n present
      rw [moves_concat, sameNumber] at present
      rw [moves_concat, sessions]
      exact owned.numbered n present
    · intro number active
      rw [moves_concat] at active
      exact owned.onward ((debugs number).mp active) fun own _ fate => fate.kept sameNumber
  | stops own present closed _ debugs =>
    subst own
    have none : (((observed config).moves moves).move .stop).engine.debugger.openNumber? = none := by
      rw [closed]
      rfl
    constructor
    · intro _ present
      rw [moves_concat, none] at present
      cases present
    · intro number active
      rw [moves_concat] at active
      have before := (debugs number).mp active
      exact owned.onward before fun own _ fate => fate.stopped before none
  | opens own absent opened _ debugs =>
    subst own
    constructor
    · intro _ present
      rw [moves_concat, opened] at present ⊢
      cases present
      exact Nat.le_refl _
    · intro number active
      rw [moves_concat] at active
      exact owned.onward ((debugs number).mp active) fun own issued fate =>
        fate.opened issued absent (by rw [opened]; rfl)
  | runs own found departs debug consulted _ debugs =>
    subst own
    exact owned.run found departs debug consulted debugs
  | ends _ _ _ _ _ dismisses _ _ idle =>
    constructor
    · intro _ present
      rw [moves_concat, openNumber?, dismisses.session] at present
      cases present
    · intro _ debugs
      rw [moves_concat] at debugs
      simp [(((observed_orderly config).moves moves).move move).debugs_running debugs] at idle

end

lemma owned (config) (moves) : Owned config moves := by
  induction moves using reverseRecOn with
  | nil =>
    constructor
    · exact fun n present => by cases present
    · rintro _ ⟨_, found, -⟩
      cases found
  | append_singleton _ move ih => exact ih.concat move

/-! ### What closes a session -/

lemma hears_closed_iff (orderly : h.Orderly) (closes : h.engine.Closes (h.move move).engine numbers) :
    (∃ state length, .sessionClosed (sessionName n) state length ∈ h.newlyHeard move) ↔ n ∈
    numbers := by
  obtain ⟨_, bus, names⟩ := closes
  rw [newlyHeard_eq orderly bus, ← mem_map_of_injective sessionName_injective, ← names, mem_filterMap]
  constructor
  · rintro ⟨_, _, mem⟩
    exact ⟨_, mem, rfl⟩
  · rintro ⟨notice, mem, named⟩
    cases notice with
    | sessionClosed _ state length =>
      cases named
      exact ⟨state, length, mem⟩
    | _ => cases named

lemma departs_closes (found : h.task? number = some task) (departs : task.Departs h.engine start x)
    (debug : x.debug) :
    ∃ numbers, h.engine.Closes start numbers ∧ ∀ n, n ∈ numbers ↔ h.Replaces number n := by
  cases departs with
  | resumes =>
    refine ⟨[], closes_of_bus rfl, fun n => ?_⟩
    simp [Replaces, found]
  | @begins source options _ _ began =>
    refine ⟨_, (begin_debug began debug).2, fun n => ?_⟩
    rw [Option.mem_toList, replaced?_eq_some]
    constructor
    · rintro ⟨session, present, other, named⟩
      exact ⟨source, options, session, found, (begin_asked began).symm.trans debug,
        (begin_follows began).1, present, named, other⟩
    · rintro ⟨_, _, session, found', -, -, present, named, other⟩
      cases found.symm.trans found'
      exact ⟨session, present, other, named⟩

lemma Replaces.departs (replaces : h.Replaces number n) : ∃ task start x, h.task? number = some task ∧
    task.isDebugging = false ∧ task.Departs h.engine start x ∧ x.debug = true := by
  obtain ⟨source, options, _, found, asked, idle, -⟩ := replaces
  obtain ⟨start, x, began⟩ :
      ∃ start x, h.engine.beginExecution source options = .ok (start, x) := by
    simp [beginExecution, idle]
  exact ⟨_, start, x, found, rfl, .begins began, (begin_asked began).trans asked⟩

lemma departs_openNumber? (found : h.task? number = some task) (departs : task.Departs h.engine start x)
    (debug : x.debug) : start.debugger.openNumber? = some n ↔ h.Debugs number ∧
    h.engine.debugger.openNumber? = some n ∨ h.boards? number = some n := by
  cases departs with
  | resumes =>
    have debugs : h.Debugs number := ⟨_, found, debug⟩
    simp [debugs, debugs.boards?]
  | begins began =>
    have idle : ¬h.Debugs number := not_debugs found rfl
    rw [boards?_of_begins found began debug]
    simp [idle]

def Closing (h : Host) (n : Nat) (move : Move) : Prop :=
  (move = .stop ∧ h.engine.debugger.openNumber? = some n) ∨
    ∃ number, move = .slice number ∧ (h.Replaces number n ∨ h.Concludes number ∧
      (h.Debugs number ∧ h.engine.debugger.openNumber? = some n ∨ h.boards? number = some n))

lemma hears_closed_iff_closing (orderly : h.Orderly) (course : Course h move) :
    (∃ state length, .sessionClosed (sessionName n) state length ∈ h.newlyHeard move) ↔ Closing h n
    move := by
  cases course with
  | aside _ _ _ closes debugs unstopped waits =>
    rw [hears_closed_iff orderly closes]
    constructor
    · exact fun mem => absurd mem not_mem_nil
    · rintro (⟨stops, present⟩ | ⟨number, rfl, replaces | ⟨⟨_, ended⟩, ⟨active, -⟩ | boards⟩⟩)
      · simp [openNumber?, unstopped stops] at present
      · obtain ⟨task, start, x, found, idle, departs, debug⟩ := replaces.departs
        exact absurd (waits number task start x rfl found departs debug).1 (not_debugs found idle)
      · exact absurd ((debugs number).mpr active) (not_debugs ended rfl)
      · obtain ⟨_, _, start, x, found, began, debug, -⟩ := begins_of_boards? boards
        exact absurd (waits number _ start x rfl found (.begins began) debug).1 (not_debugs found rfl)
  | stops own present _ closes =>
    rw [hears_closed_iff orderly closes]
    subst own
    simp [Closing, openNumber?, present, eq_comm]
  | opens own _ _ closes =>
    rw [hears_closed_iff orderly closes]
    subst own
    constructor
    · exact fun mem => absurd mem not_mem_nil
    · rintro (⟨stops, -⟩ | ⟨_, slices, -⟩)
      · cases stops
      · cases slices
  | @runs number _ _ _ own found departs debug _ closes debugs =>
    obtain ⟨_, replaced, mem⟩ := departs_closes found departs debug
    rw [hears_closed_iff orderly (replaced.onward closes), mem]
    subst own
    constructor
    · exact fun replaces => .inr ⟨number, rfl, .inl replaces⟩
    · rintro (⟨stops, -⟩ | ⟨_, same, replaces | ⟨⟨_, ended⟩, -⟩⟩)
      · cases stops
      · cases same
        exact replaces
      · cases same
        exact absurd debugs (not_debugs ended rfl)
  | @ends number _ _ _ _ outcome own found departs debug consulted _ closes ended =>
    obtain ⟨_, replaced, mem⟩ := departs_closes found departs debug
    rw [hears_closed_iff orderly (replaced.trans closes), mem_append, mem, Option.mem_toList,
      consulted.openNumber?.1, departs_openNumber? found departs debug]
    subst own
    constructor
    · rintro (replaces | present)
      · exact .inr ⟨number, rfl, .inl replaces⟩
      · exact .inr ⟨number, rfl, .inr ⟨⟨outcome, ended⟩, present⟩⟩
    · rintro (⟨stops, -⟩ | ⟨_, same, replaces | ⟨-, present⟩⟩)
      · cases stops
      · cases same
        exact .inl replaces
      · cases same
        exact .inr present

lemma closing_iff : Closing ((observed config).moves moves) n move ↔ ClosedByRight config moves n move ∨
    Usurped config moves n move := by
  constructor
  · rintro (⟨rfl, present⟩ | ⟨number, rfl, replaces | ⟨concludes, ⟨debugs, present⟩ | boards⟩⟩)
    · exact .inl (.stopped present)
    · exact .inl (.replaced replaces)
    · obtain ⟨own, began, -, fate⟩ := (owned config moves).runs number debugs
      cases fate with
      | holds holds =>
        cases holds.symm.trans present
        exact .inl (.concluded debugs concludes present began)
      | lost _ _ _ _ foreign =>
        obtain ⟨earlier, opened⟩ := foreign n present
        exact .inr ⟨number, own, rfl, debugs, concludes, present, began, Nat.ne_of_lt earlier, opened⟩
    · exact .inl (.passed boards concludes)
  · rintro (right | ⟨number, _, rfl, debugs, concludes, present, -⟩)
    · cases right with
      | stopped present => exact .inl ⟨rfl, present⟩
      | replaced replaces => exact .inr ⟨_, rfl, .inl replaces⟩
      | concluded debugs concludes present =>
        exact .inr ⟨_, rfl, .inr ⟨concludes, .inl ⟨debugs, present⟩⟩⟩
      | passed boards concludes => exact .inr ⟨_, rfl, .inr ⟨concludes, .inr boards⟩⟩
    · exact .inr ⟨number, rfl, .inr ⟨concludes, .inl ⟨debugs, present⟩⟩⟩

lemma ClosedByRight.not_usurped (right : ClosedByRight config moves n move) :
    ¬Usurped config moves n move := by
  rintro ⟨_, _, same, debugs, -, -, began, different, -⟩
  cases right with
  | stopped => cases same
  | replaced replaces =>
    cases same
    obtain ⟨_, -, -, found, idle, -⟩ := replaces.departs
    exact not_debugs found idle debugs
  | concluded _ _ _ ownIt =>
    cases same
    exact different (Option.some.inj (began.symm.trans ownIt))
  | passed boards =>
    cases same
    rw [debugs.boards?] at boards
    cases boards

/-- **Who closes a session.** After any interleaving, a move closes a session exactly if it has a right
to do so, or ends a debug run that began on another session, which the host stopped before it opened
this one. Never are both the case. -/
theorem session_closed_iff (config : Config) (moves : List Move) (move : Move) (n : Nat) :
    ((∃ state length, .sessionClosed (sessionName n) state length ∈
        ((observed config).moves moves).newlyHeard move) ↔
      ClosedByRight config moves n move ∨ Usurped config moves n move) ∧
      ¬(ClosedByRight config moves n move ∧ Usurped config moves n move) := by
  have orderly := (observed_orderly config).moves moves
  constructor
  · rw [hears_closed_iff_closing orderly (observed_course config moves move)]
    exact closing_iff
  · rintro ⟨right, usurped⟩
    exact right.not_usurped usurped

def hastyHost : List Move :=
  [.call (.start (.execute "PRINT 1" { step := true })) rfl, .slice 1, .stop, .openSession "PRINT 2"]

/-- The run began on the first session, and its end closes the second one. -/
theorem hastyHost_loses_session :
    (observed {}).ownSession? 1 hastyHost = some 1 ∧
      (((observed {}).moves hastyHost).newlyHeard (.slice 1)).filterMap Notice.closedSession? =
        ["session-2"] := by
  decide +kernel

end Host

end Stepper
