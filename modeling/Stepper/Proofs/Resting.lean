import Mathlib.Data.List.Induction
import Stepper.Proofs.Sessions

/-! # The debugger at rest -/

namespace Stepper

namespace Host

/-- Whether a slice of a task ends its debug run while no session is open. -/
def Strands (h : Host) (number : Nat) : Prop :=
  h.Debugs number ∧ h.engine.debugger.session = none ∧
    ∃ outcome, (h.move (.slice number)).task? number = some (.finished (.execution (.ok outcome)))

/-- Whether a debug run ended while no session was open, and none was opened since. -/
def Adrift (config : Config) (moves : List Move) : Prop :=
  ∃ before number after, moves = before ++ .slice number :: after ∧
    ((observed config).moves before).Strands number ∧
    ((observed config).moves moves).engine.debugger.sessions =
      ((observed config).moves before).engine.debugger.sessions

variable {h : Host} {config : Config} {moves : List Move} {move : Move} {number : Nat}

lemma Debugs.resumes (debugs : h.Debugs number) (found : h.task? number = some task) {start : Engine}
    (departs : task.Departs h.engine start x) : start = h.engine := by
  obtain ⟨_, active, debugging⟩ := debugs
  cases found.symm.trans active
  cases departs with
  | resumes => rfl
  | begins => cases debugging

lemma Debugs.sessions (debugs : h.Debugs number) (course : Course h (.slice number)) :
    (h.move (.slice number)).engine.debugger.sessions = h.engine.debugger.sessions := by
  cases course with
  | aside _ sessions => exact sessions
  | stops own => cases own
  | opens own => cases own
  | runs own found departs _ consulted =>
    cases own
    rw [consulted.openNumber?.2, debugs.resumes found departs]
  | ends own found departs _ consulted dismisses =>
    cases own
    rw [dismisses.sessions, consulted.openNumber?.2, debugs.resumes found departs]

lemma sessions_le (config) (before after) : ((observed config).moves before).engine.debugger.sessions ≤
    ((observed config).moves (before ++ after)).engine.debugger.sessions := by
  induction after using List.reverseRecOn with
  | nil => exact Nat.le_of_eq (by rw [List.append_nil])
  | append_singleton _ move ih =>
    rw [← List.append_assoc, moves_concat]
    exact Nat.le_trans ih (observed_course config _ move).sessions

lemma adrift_concat (config) (moves) (move) : Adrift config (moves ++ [move]) ↔ (Adrift config moves ∧
      ((observed config).moves (moves ++ [move])).engine.debugger.sessions = ((observed config).moves
      moves).engine.debugger.sessions) ∨ ∃ number, move = .slice number ∧
    ((observed config).moves moves).Strands number := by
  constructor
  · rintro ⟨before, number, after, split, strands, count⟩
    rcases List.eq_nil_or_concat after with rfl | ⟨rest, last, rfl⟩
    · obtain ⟨rfl, same⟩ := List.append_inj' split rfl
      exact .inr ⟨number, (List.cons.inj same).1, strands⟩
    · have regrouped : moves ++ [move] = (before ++ .slice number :: rest) ++ [last] := by
        simpa using split
      obtain ⟨rfl, -⟩ := List.append_inj' regrouped rfl
      -- The count of sessions never falls, so it is the same at every point in between.
      have early := sessions_le config before (.slice number :: rest)
      have late := sessions_le config (before ++ .slice number :: rest) [move]
      rw [count] at late
      have middle := Nat.le_antisymm late early
      exact .inl ⟨⟨before, number, rest, rfl, strands, middle⟩, count.trans middle.symm⟩
  · rintro (⟨⟨before, number, after, rfl, strands, count⟩, same⟩ | ⟨number, rfl, strands⟩)
    · exact ⟨before, number, after ++ [move], by simp, strands, same.trans count⟩
    · refine ⟨moves, number, [], rfl, strands, ?_⟩
      rw [moves_concat]
      exact strands.1.sessions (observed_course config moves _)

structure Rested (config : Config) (moves : List Move) : Prop where
  adrift : Adrift config moves →
    ((observed config).moves moves).engine.debugger.session = none ∧
      (((observed config).moves moves).engine.debugger.state = .completed ∨
        ((observed config).moves moves).engine.debugger.state = .errored) ∧
      ∀ number, ¬((observed config).moves moves).Debugs number
  idle : ¬Adrift config moves → (∀ number, ¬((observed config).moves moves).Debugs number) →
    ((observed config).moves moves).engine.debugger.state = .idle

lemma Rested.departs (rested : Rested config moves) {start : Engine}
    (found : ((observed config).moves moves).task? number = some task)
    (departs : task.Departs ((observed config).moves moves).engine start x) (debug : x.debug)
    (same : start.debugger.sessions = ((observed config).moves moves).engine.debugger.sessions) :
    ¬Adrift config moves := by
  intro adrift
  obtain ⟨absent, -, unattended⟩ := rested.adrift adrift
  cases departs with
  | resumes => exact unattended number ⟨_, found, debug⟩
  | begins began =>
    cases (Engine.begin_debug began debug).1 with
    | stays _ _ present => simp [absent] at present
    | opens _ sessions => exact absurd (sessions.symm.trans same) (Nat.succ_ne_self _)

lemma rested_of_steady (steady : ¬Adrift config (moves ++ [move])) (idle : (∀ number, ¬(((observed
      config).moves moves).move move).Debugs number) → (((observed config).moves moves).move
      move).engine.debugger.state = .idle) : Rested config (moves ++ [move]) := by
  constructor
  · exact fun adrift => absurd adrift steady
  · intro _ undebugged
    rw [moves_concat] at undebugged ⊢
    exact idle undebugged

lemma Rested.aside (rested : Rested config moves) (number : (((observed config).moves moves).move
      move).engine.debugger.openNumber? = ((observed config).moves moves).engine.debugger.openNumber?)
      (sessions : (((observed config).moves moves).move move).engine.debugger.sessions = ((observed
      config).moves moves).engine.debugger.sessions) (state : ((observed config).moves
      moves).engine.debugger.state ≠ .paused → (((observed config).moves moves).move
      move).engine.debugger.state = ((observed config).moves moves).engine.debugger.state) (debugs : ∀
      number, (((observed config).moves moves).move move).Debugs number ↔ ((observed config).moves
      moves).Debugs number) : Rested config (moves ++ [move]) := by
  have same : Adrift config (moves ++ [move]) ↔ Adrift config moves := by
    rw [adrift_concat, moves_concat]
    constructor
    · rintro (⟨adrift, -⟩ | ⟨task, rfl, active, -, _, ended⟩)
      · exact adrift
      · exact absurd ((debugs task).mpr active) (not_debugs ended rfl)
    · exact fun adrift => .inl ⟨adrift, sessions⟩
  constructor
  · intro adrift
    obtain ⟨absent, outcome, undebugged⟩ := rested.adrift (same.mp adrift)
    have kept := state (by rcases outcome with state | state <;> simp [state])
    rw [moves_concat]
    refine ⟨?_, kept ▸ outcome, fun task => mt (debugs task).mp (undebugged task)⟩
    rw [← Debugger.openNumber?_eq_none, number, Debugger.openNumber?_eq_none]
    exact absent
  · intro steady undebugged
    rw [moves_concat] at undebugged ⊢
    have idle := rested.idle (mt same.mpr steady) fun task => mt (debugs task).mpr (undebugged task)
    rw [state (by simp [idle]), idle]

lemma Rested.ended (rested : Rested config moves) {start : Engine}
    (found : ((observed config).moves moves).task? number = some task)
    (departs : task.Departs ((observed config).moves moves).engine start x) (debug : x.debug)
    (consulted : start.debugger.Consulted d) (dismisses : d.Dismisses (((observed config).moves
      moves).move (.slice number)).engine.debugger) (ended : (((observed config).moves moves).move
      (.slice number)).task? number = some (.finished (.execution (.ok outcome))))
    (idle : (((observed config).moves moves).move (.slice number)).engine.running = false) :
    Rested config (moves ++ [.slice number]) := by
  -- The session is that of the debugger from which the run went on.
  have openness : d.session = none ↔ start.debugger.session = none := by
    rw [← Debugger.openNumber?_eq_none, consulted.openNumber?.1, Debugger.openNumber?_eq_none]
  by_cases absent : d.session = none
  · have stranded : ((observed config).moves moves).Strands number := by
      cases departs with
      | resumes => exact ⟨⟨_, found, debug⟩, openness.mp absent, outcome, ended⟩
      | begins began =>
        have present := (Engine.begin_debug began debug).1.session
        simp [openness.mp absent] at present
    have adrift := (adrift_concat config moves (.slice number)).mpr (.inr ⟨number, rfl, stranded⟩)
    constructor
    · intro _
      rw [moves_concat]
      refine ⟨dismisses.session, dismisses.outcome absent, ?_⟩
      intro _ debugs
      simp [(((observed_orderly config).moves moves).move _).debugs_running debugs] at idle
    · exact fun steady => absurd adrift steady
  · apply rested_of_steady
    · rw [adrift_concat, moves_concat]
      rintro (⟨adrift, same⟩ | ⟨_, same, active, none, -⟩)
      · rw [dismisses.sessions, consulted.openNumber?.2] at same
        exact rested.departs found departs debug same adrift
      · cases same
        rw [openness, active.resumes found departs] at absent
        exact absent none
    · exact fun _ => dismisses.idle (Option.isSome_iff_ne_none.mpr absent)

lemma Rested.concat (rested : Rested config moves) (move) : Rested config (moves ++ [move]) := by
  cases observed_course config moves move with
  | aside number sessions state _ debugs => exact rested.aside number sessions state debugs
  | stops own present closed =>
    subst own
    apply rested_of_steady
    · rw [adrift_concat]
      rintro (⟨adrift, -⟩ | ⟨_, same, -⟩)
      · simp [(rested.adrift adrift).1] at present
      · cases same
    · intro _
      rw [closed]
      rfl
  | opens own _ opened =>
    subst own
    apply rested_of_steady
    · rw [adrift_concat, moves_concat, opened]
      rintro (⟨-, same⟩ | ⟨_, same, -⟩)
      · exact absurd same (Nat.succ_ne_self _)
      · cases same
    · intro _
      rw [opened]
      rfl
  | runs own found departs debug consulted _ debugs =>
    subst own
    apply rested_of_steady
    · rw [adrift_concat, moves_concat, consulted.openNumber?.2]
      rintro (⟨adrift, same⟩ | ⟨_, same, -, -, _, ended⟩)
      · exact rested.departs found departs debug same adrift
      · cases same
        exact not_debugs ended rfl debugs
    · exact fun undebugged => absurd debugs (undebugged _)
  | ends own found departs debug consulted dismisses _ ended idle =>
    subst own
    exact rested.ended found departs debug consulted dismisses ended idle

lemma rested (config) (moves) : Rested config moves := by
  induction moves using List.reverseRecOn with
  | nil =>
    constructor
    · rintro ⟨_, _, _, split, -⟩
      simp at split
    · exact fun _ _ => rfl
  | append_singleton _ move ih => exact ih.concat move

/-- While no execution is active, the debugger is idle exactly if no debug run was left without a
session since the last session was opened. -/
theorem idle_at_rest_iff (config : Config) (moves : List Move)
    (rests : ((observed config).moves moves).engine.running = false) :
    (((observed config).moves moves).engine.debugger.state = .idle ↔ ¬Adrift config moves) ∧
      (Adrift config moves → ((observed config).moves moves).engine.debugger.session = none ∧
        (((observed config).moves moves).engine.debugger.state = .completed ∨
          ((observed config).moves moves).engine.debugger.state = .errored)) := by
  have undebugged : ∀ number, ¬((observed config).moves moves).Debugs number := by
    intro _ debugs
    simp [((observed_orderly config).moves moves).debugs_running debugs] at rests
  have known := rested config moves
  constructor
  · constructor
    · intro idle adrift
      rcases (known.adrift adrift).2.1 with outcome | outcome <;> simp [idle] at outcome
    · exact fun steady => known.idle steady undebugged
  · exact fun adrift => ⟨(known.adrift adrift).1, (known.adrift adrift).2.1⟩

def steppedThrough : List Move :=
  [.openSession "LET x = 1", .stepThrough "LET x = 1", .slice 1, .command .resume, .slice 1]

/-- The run ends with its session, so none is adrift. -/
theorem steppedThrough_rests :
    ((observed {}).moves steppedThrough).engine.running = false ∧ ¬Adrift {} steppedThrough := by
  have rests : ((observed {}).moves steppedThrough).engine.running = false := by decide +kernel
  have idle : ((observed {}).moves steppedThrough).engine.debugger.state = .idle := by decide +kernel
  exact ⟨rests, (idle_at_rest_iff {} steppedThrough rests).1.mp idle⟩

def stoppedInPause : List Move :=
  [.stepThrough "PRINT 1", .slice 1, .stop, .slice 1]

/-- Nothing is active then, but the debugger is not idle. -/
theorem stoppedInPause_is_errored :
    ((observed {}).moves stoppedInPause).engine.running = false ∧
      ((observed {}).moves stoppedInPause).engine.debugger.state = .errored := by
  decide +kernel

end Host

end Stepper
