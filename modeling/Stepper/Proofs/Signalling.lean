import Stepper.Proofs.Phases
import Stepper.Proofs.Sessions
import Stepper.Proofs.Stopping

/-! # Signals about pauses -/

namespace Stepper

open List

/-- What a debug run and its host tell each other. -/
inductive Signal where
  | pause
  | resume
deriving DecidableEq, Repr

def Notice.signal? : Notice → Option Signal
  | .paused _ _ _ _ => some .pause
  | .resumed _ => some .resume
  | _ => none

/-- Whether pauses and resumptions take turns, from a pause on. -/
inductive Alternates : List Signal → Prop where
  | nil : Alternates []
  | pause (before : Alternates signals) (free : signals.getLast? ≠ some .pause) :
      Alternates (signals ++ [.pause])
  | resume (before : Alternates signals) (held : signals.getLast? = some .pause) :
      Alternates (signals ++ [.resume])

def Engine.Signals (e later : Engine) (signals : List Signal) : Prop :=
  ∃ told, later.bus = e.bus.announce told ∧ told.filterMap Notice.signal? = signals

namespace Engine
variable {e later : Engine}

lemma signals_of_bus (same : later.bus = e.bus) : e.Signals later [] := ⟨[], same, rfl⟩

lemma Signals.trans (before : e.Signals later first) (behind : later.Signals last second) :
    e.Signals last (first ++ second) := by
  obtain ⟨told, bus, rfl⟩ := before
  obtain ⟨more, busToo, rfl⟩ := behind
  refine ⟨told ++ more, ?_, filterMap_append⟩
  rw [busToo, bus, announce_append]

lemma end_signals (e : Engine) (x) (outputs) (bindings) (error : Option RuntimeError) :
    e.Signals (e.endExecution x outputs bindings error).1 [] := by
  obtain ⟨told, bus, kinds⟩ := e.end_bus x outputs bindings error
  refine ⟨told, bus, ?_⟩
  rw [filterMap_eq_nil_iff]
  intro notice mem
  have closing := kinds notice mem
  cases notice <;> first | rfl | simp [Notice.kind, closingKinds] at closing

end Engine

/-! ### Steps -/

namespace Machine
variable {e : Engine} {m : Machine}

lemma step_signals (e : Engine) (m : Machine) :
    e.Signals (m.step e).1 (if m.isPausing then [.pause] else []) := by
  refine ⟨m.notices e, m.step_bus e, ?_⟩
  by_cases pausing : m.isPausing = true
  · rw [if_pos pausing]
    obtain ⟨_, _, _, stop, shape⟩ := isPausing_iff.mp pausing
    simp only [notices, shape, Debugger.pause]
    cases stop.breakpoint <;> cases stop.step <;> rfl
  · rw [if_neg pausing]
    unfold notices
    split
    · split <;> rfl
    · split <;> rfl
    · rfl
    · exact absurd (isPausing_iff.mpr ⟨_, _, _, _, ‹_›⟩) pausing
    · rfl

lemma Attends.unpaused {next : Machine} (attends : Attends b m next) :
    next.control.isPause = false := by
  cases attends <;> rfl

lemma step_pause (peaceful : e.aborting = false) (ready : m.isReady e)
    (paused : (m.step e).2.control.isPause) : m.isPausing := by
  cases business peaceful ready with
  | own aside => simp [aside.unheld.1] at paused
  | arrived shape => simp [step, shape, (m.arrive_attends e _).unpaused] at paused
  | log shape => simp [step, shape, (m.stepLog_attends e _ _ _).unpaused] at paused
  | @watch rest _ _ _ _ shape =>
    cases rest with
    | nil => simp [isPausing, shape]
    | cons =>
      simp only [step, shape, stepWatch] at paused
      cases paused
  | @probed result _ _ shape top probe =>
    obtain ⟨_, shown⟩ := exists_shown probe
    simp [step, shape, deliver, top, (deliverTo_attends _ e shown result).unpaused] at paused

lemma slice_pause (peaceful : e.aborting = false) (ready : m.isReady e)
    (paused : (m.slice e).2.control.isPause) :
    (m.slice e).1.aborting = false ∧ (m.slice e).1.debugger.state = .paused := by
  have step : ∀ (e) (m : Machine), e.aborting = false → m.isReady e = true →
      (m.step e).1.aborting = false ∧
        ((m.step e).2.control.isPause = true → (m.step e).1.debugger.state = .paused) := by
    intro e m peaceful ready
    obtain ⟨_, _, _, -, after⟩ := m.step_affects e
    refine ⟨by rw [after]; exact peaceful, fun paused => ?_⟩
    rw [step_state, if_pos (step_pause peaceful ready paused)]
  have came := @trail_induction (fun _ later run => later.aborting = false ∧
    (run.control.isPause = true → later.debugger.state = .paused)) [] e m (step e m peaceful ready)
    fun _ later run holds ready => step later run holds.1 ready
  exact ⟨came.1, came.2 paused⟩

def IsLeaving (m : Machine) : Prop :=
  (∃ location, m.control = .deliver (.failure ⟨.aborted, location⟩)) ∧ m.IsUnprobed ∨
    ∃ error, m.control = .finished error

def IsHeld (e : Engine) (m : Machine) : Prop :=
  m.control.isPause = true ∨ e.aborting = true ∧ m.IsLeaving

lemma isPause_iff : m.control.isPause = true ↔ ∃ b since, m.control = .waiting (.paused b since) := by
  constructor
  · intro pause
    cases shape : m.control with
    | waiting wait =>
      cases wait with
      | paused b since => exact ⟨b, since, rfl⟩
      | _ => simp [shape, Control.isPause] at pause
    | _ => simp [shape, Control.isPause] at pause
  · rintro ⟨_, _, shape⟩
    rw [shape]
    rfl

lemma Tidy.unprobed_pause (tidy : m.Tidy) (pause : m.control.isPause) : m.IsUnprobed := by
  obtain ⟨_, _, shape⟩ := isPause_iff.mp pause
  have unmuted := tidy.unmuted_stack (tidy.heard (by rw [shape]; rfl))
  intro k mem
  apply Continuation.isProbe_of_mutes
  simpa using countP_eq_zero.mp unmuted k mem

lemma IsHeld.not_pausing (held : IsHeld e m) : m.isPausing = false := by
  cases pausing : m.isPausing with
  | false => rfl
  | true =>
    obtain ⟨_, _, _, _, shape⟩ := isPausing_iff.mp pausing
    rcases held with pause | ⟨-, ⟨⟨location, leaves⟩, -⟩ | ⟨error, finished⟩⟩
    · simp [shape, Control.isPause] at pause
    · simp [shape] at leaves
    · simp [shape] at finished

/-- Whether a run has crossed nothing and told nothing since, and every frame still open is as it was. -/
structure Stills (m later : Machine) : Prop where
  crossed : later.crossed = m.crossed
  outputs : later.outputs = m.outputs
  bindings : ∀ id frame, later.environment.frame? id = some frame →
    m.environment.frame? id = some frame
  globals : later.environment.locals .global = m.environment.locals .global

lemma Stills.of_environment (crossed : later.crossed = m.crossed) (outputs : later.outputs = m.outputs)
    (environment : later.environment = m.environment) : Stills m later :=
  ⟨crossed, outputs, fun _ _ bound => environment ▸ bound, environment ▸ rfl⟩

lemma Stills.refl (m) : Stills m m := .of_environment rfl rfl rfl

lemma Stills.trans (first : Stills m later) (second : Stills later last) :
    Stills m last where
  crossed := second.crossed.trans first.crossed
  outputs := second.outputs.trans first.outputs
  bindings id frame bound := first.bindings id frame (second.bindings id frame bound)
  globals := second.globals.trans first.globals

end Machine

lemma Environment.frame?_pop {env : Environment α} {gone id : FrameId}
    (bound : (env.pop gone).frame? id = some frame) : env.frame? id = some frame := by
  unfold pop at bound
  split at bound
  · exact bound
  · simp only [frame?, setFrame, Array.getElem?_setIfInBounds] at bound ⊢
    by_cases same : gone.index = id.index
    · rw [if_pos same] at bound
      by_cases inside : gone.index < env.slots.size <;> simp [inside] at bound
    · rwa [if_neg same] at bound

lemma Environment.frame?_pop_global (env : Environment α) (gone) :
    (env.pop gone).frame? .global = env.frame? .global := by
  unfold pop
  split
  · rfl
  · rename_i closes
    simp only [Bool.or_eq_true, decide_eq_true_eq, Bool.not_eq_true', not_or, Bool.not_eq_false] at closes
    obtain ⟨other, opened⟩ := closes
    by_cases same : gone.index = FrameId.global.index
    · -- A slot holds one frame at a time, and this is the slot of the global frame.
      have elsewhere : gone.generation ≠ FrameId.global.generation := by
        intro _
        exact other (by cases gone; simp_all [FrameId.global])
      simp only [hasFrame, frame?, same] at opened
      simp only [frame?, setFrame, same, Array.getElem?_setIfInBounds_self]
      split at opened
      · rename_i slot found
        obtain ⟨inside, -⟩ := Array.getElem?_eq_some_iff.mp found
        split at opened
        · rename_i generation
          simp [inside, generation, elsewhere]
        · cases opened
      · cases opened
    · simp [frame?, setFrame, same]

lemma Environment.locals_pop (env : Environment α) (gone) :
    (env.pop gone).locals .global = env.locals .global := by
  simp only [locals, frame?_pop_global]

namespace Machine
variable {e : Engine} {m : Machine}

lemma step_leaving (e) (leaves : m.control = .deliver (.failure ⟨.aborted, location⟩))
    (unprobed : m.IsUnprobed) : (m.step e).2.IsLeaving ∧ Stills m (m.step e).2 ∧ (m.step e).1 = e := by
  cases top : m.stack with
  | nil =>
    have step : m.step e = (e, m.into (.finished (some ⟨.aborted, location⟩))) := by
      simp [step, leaves, deliver, top]
    rw [step]
    exact ⟨.inr ⟨_, rfl⟩, .of_environment rfl rfl rfl, rfl⟩
  | cons k =>
    have plain : k.isProbe = false := unprobed k (by simp [top])
    obtain ⟨place, control, below⟩ := step_aborted e leaves top plain
    refine ⟨.inl ⟨⟨place, control⟩, ?_⟩, ?_⟩
    · intro other mem
      exact unprobed other (top ▸ mem_cons_of_mem k (below ▸ mem))
    · simp only [step, leaves, deliver, top]
      cases k with
      | condition | log | watch => cases plain
      | activation | field =>
        exact ⟨⟨rfl, rfl, fun _ _ bound => Environment.frame?_pop bound,
          Environment.locals_pop _ _⟩, rfl⟩
      | _ => exact ⟨.of_environment rfl rfl rfl, rfl⟩

lemma IsHeld.step_aborting (held : IsHeld e m) (tidy : m.Tidy) (aborting : e.aborting) :
    IsHeld (m.step e).1 (m.step e).2 ∧ Stills m (m.step e).2 ∧ (m.step e).1 = e := by
  rcases held with pause | ⟨-, ⟨⟨location, leaves⟩, unprobed⟩ | ⟨error, finished⟩⟩
  · obtain ⟨b, since, shape⟩ := isPause_iff.mp pause
    have step : m.step e = (e, (m.excludeSince since e.now).fail .aborted b.location) := by
      simp [step, shape, resume, aborting]
    rw [step]
    exact ⟨.inr ⟨aborting, .inl ⟨⟨_, rfl⟩, tidy.unprobed_pause pause⟩⟩, .of_environment rfl rfl rfl,
      rfl⟩
  · obtain ⟨leaving, stills, same⟩ := step_leaving e leaves unprobed
    exact ⟨.inr ⟨same.symm ▸ aborting, leaving⟩, stills, same⟩
  · have step : m.step e = (e, m) := by simp [step, finished]
    rw [step]
    exact ⟨.inr ⟨aborting, .inr ⟨error, finished⟩⟩, .refl m, rfl⟩

lemma IsHeld.slice_aborting (held : IsHeld e m) (tidy : m.Tidy) (aborting : e.aborting) :
    (∀ state ∈ m.trail e, Stills m state.2) ∧ Stills m (m.slice e).2 ∧ (m.slice e).1 = e := by
  have came := @trail_induction (fun passed later run => (∀ state ∈ passed, Stills m state.2) ∧
    later = e ∧ Stills m run ∧ IsHeld later run ∧ run.Tidy) [] e m ?_ ?_
  · exact ⟨came.1, came.2.2.1, came.2.1⟩
  · obtain ⟨stays, stills, same⟩ := held.step_aborting tidy aborting
    exact ⟨by simpa using .refl m, same, stills, stays, tidy.step e⟩
  · rintro _ later _ ⟨before, rfl, stills, held, tidy⟩ -
    obtain ⟨stays, more, same⟩ := held.step_aborting tidy aborting
    refine ⟨?_, same, stills.trans more, stays, tidy.step later⟩
    exact forall_mem_append.mpr ⟨before, by simpa using stills⟩

structure Agreed (e : Engine) (m : Machine) (signals : List Signal) : Prop where
  alternates : Alternates signals
  tidy : m.Tidy
  told : e.debugger.state = .paused → signals.getLast? = some .pause
  held : signals.getLast? = some .pause → IsHeld e m
  known : e.aborting = false → e.debugger.session.isSome = true ∧
    (signals.getLast? = some .pause → e.debugger.state = .paused)

variable (agreed : Agreed e m signals)
include agreed

lemma Agreed.rests (last : signals.getLast? = some .pause) (peaceful : e.aborting = false) :
    m.isReady e = false ∧ (m.step e).2 = m := by
  have paused := (agreed.known peaceful).2 last
  rcases agreed.held last with pause | ⟨aborting, -⟩
  · obtain ⟨_, _, shape⟩ := isPause_iff.mp pause
    simp [isReady, shape, canResume, step, resume, peaceful, paused, Wakeup.rouse_goes]
  · simp [peaceful] at aborting

lemma Agreed.step :
    Agreed (m.step e).1 (m.step e).2 (signals ++ if m.isPausing then [.pause] else []) := by
  obtain ⟨_, debugger, _, consulted, after⟩ := m.step_affects e
  have aborting : (m.step e).1.aborting = e.aborting := by rw [after]
  have session : (m.step e).1.debugger.session.isSome = e.debugger.session.isSome := by
    rw [after]
    exact consulted.session
  have state := m.step_state e
  by_cases pausing : m.isPausing = true
  · rw [if_pos pausing] at state ⊢
    have free : signals.getLast? ≠ some .pause := by
      intro last
      simp [(agreed.held last).not_pausing] at pausing
    have pauses : (m.step e).2.control.isPause := by
      obtain ⟨_, _, _, _, shape⟩ := isPausing_iff.mp pausing
      simp only [Machine.step, shape, stepWatch]
      rfl
    constructor
    · exact .pause agreed.alternates free
    · exact agreed.tidy.step e
    · exact fun _ => getLast?_concat
    · exact fun _ => .inl pauses
    · intro peaceful
      rw [session]
      exact ⟨(agreed.known (aborting ▸ peaceful)).1, fun _ => state⟩
  · rw [if_neg pausing] at state
    rw [if_neg pausing, append_nil]
    constructor
    · exact agreed.alternates
    · exact agreed.tidy.step e
    · exact fun paused => agreed.told (state ▸ paused)
    · intro last
      cases ordered : e.aborting with
      | true => exact ((agreed.held last).step_aborting agreed.tidy ordered).1
      | false =>
        rw [(agreed.rests last ordered).2]
        exact (agreed.held last).imp id fun held => by simp [ordered] at held
    · intro peaceful
      rw [session, state]
      exact agreed.known (aborting ▸ peaceful)

lemma Agreed.slice :
    ∃ new, e.Signals (m.slice e).1 new ∧ Agreed (m.slice e).1 (m.slice e).2 (signals ++ new) := by
  apply slice_induction (P := fun later run => ∃ new, e.Signals later new ∧
    Agreed later run (signals ++ new))
  · exact ⟨_, m.step_signals e, agreed.step⟩
  · rintro later run ⟨_, told, agreed⟩
    refine ⟨_, told.trans (run.step_signals later), ?_⟩
    rw [← append_assoc]
    exact agreed.step

end Machine

end Stepper
