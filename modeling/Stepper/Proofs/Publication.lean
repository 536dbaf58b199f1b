import Stepper.Proofs.Computation

/-! # What a step tells the host -/

namespace Stepper

open Debugger

namespace Bus

/-- An empty bus with one subscriber. -/
def observed (capacity : Nat) : Bus α := (Bus.empty capacity).subscribe.1

def IsObserved (bus : Bus α) : Prop :=
  ∃ listener ∈ bus.subscribers.head?, listener.dropped = false

/-- What the first subscriber was sent. -/
def heard (bus : Bus α) : List α :=
  ((bus.subscribers.head?.map Subscriber.waiting).getD []).reverse.map Event.payload

lemma observed_start (capacity) :
    (observed capacity : Bus α).IsObserved ∧ (observed capacity : Bus α).heard = [] :=
  ⟨⟨_, rfl, rfl⟩, rfl⟩

lemma publish_heard (bus : Bus α) (kind) (payload : α) (observed : bus.IsObserved) :
    (bus.publish kind payload).IsObserved ∧ (bus.publish kind payload).heard = bus.heard ++
    [payload] := by
  obtain ⟨listener, first, present⟩ := observed
  cases subscribed : bus.subscribers with
  | nil => simp [subscribed] at first
  | cons head =>
    have same : head = listener := by simpa [subscribed] using first
    subst same
    constructor
    · refine ⟨{ head with waiting := bus.nextEvent kind payload :: head.waiting }, ?_, present⟩
      simp [publish, subscribed, present]
    · simp [heard, publish, nextEvent, subscribed, present]

end Bus

@[simp] lemma Bus.announce_nil (bus : Bus Notice) : bus.announce [] = bus := rfl

lemma Bus.announce_heard (bus : Bus Notice) (notices) (observed : bus.IsObserved) :
    (bus.announce notices).IsObserved ∧ (bus.announce notices).heard = bus.heard ++ notices := by
  induction notices generalizing bus with
  | nil => exact ⟨observed, by simp⟩
  | cons first _ ih =>
    obtain ⟨still, told⟩ := publish_heard bus first.kind first observed
    obtain ⟨kept, all⟩ := ih (bus.publish first.kind first) still
    refine ⟨kept, ?_⟩
    rw [told] at all
    simpa [announce] using all

inductive Debugger.Consulted (d : Debugger) : Debugger → Prop where
  | refl : Consulted d d
  | reach (before : Consulted d later) (position : Position) : Consulted d (later.reach position).1
  | countHit (before : Consulted d later) (id : Nat) : Consulted d (later.countHit id).1
  | pause (before : Consulted d later) (position : Position) (stop : Stop)
      (bindings watches : Dictionary Value) : Consulted d
      (later.pause position stop bindings watches).1

namespace Machine

/-- What a run tells in its next step. -/
def notices (e : Engine) (m : Machine) : List Notice :=
  match m.control with
  | .gather (.print location) values [] _ =>
    if e.aborting then []
    else [.output (" ".intercalate (values.reverse.map Value.text)) location.line]
  | .gather (.call (.builtin .input) _) values [] _ =>
    if values.length ≤ 1 then
      [.inputRequested (e.inputs.issued + 1) ((values.reverse.head?.map Value.text).getD "")]
    else []
  | .log text [] b _ => [.logged text b.location.line]
  | .watch [] values bindings b stop => (e.debugger.pause (m.position b) stop bindings values).2
  | _ => []

lemma notices_quiet {m : Machine} (e) (quiet : m.IsQuiet) : m.notices e = [] := by
  unfold notices
  split
  · rename_i shape
    simp [IsQuiet, shape] at quiet
  · rename_i shape
    simp only [IsQuiet, shape] at quiet
    rw [if_neg (Nat.not_le_of_lt quiet)]
  · rename_i shape
    simp [IsQuiet, shape] at quiet
  · rename_i shape
    simp [IsQuiet, shape] at quiet
  · rfl

def isPausing (m : Machine) : Bool :=
  match m.control with
  | .watch [] _ _ _ _ => true
  | _ => false

/-- The line that a debug run reports as it arrives there. -/
def enters? (m : Machine) : Option Nat :=
  match m.control with
  | .arrived b => if m.debugging then some b.location.line else none
  | _ => none

inductive Consults (e : Engine) (m : Machine) : Debugger → Prop where
  | aside (outside : m.enters? = none) (going : m.isPausing = false) : Consults e m e.debugger
  | enters (line : m.enters? = some b.location.line) (going : m.isPausing = false) :
      Consults e m (e.debugger.reach (m.position b)).1
  | hits (shape : m.control = .arrived b) (line : m.enters? = some b.location.line)
      (going : m.isPausing = false)
      (found : e.debugger.breakpointOn? b.location.line = some breakpoint) : Consults e m
      ((e.debugger.reach (m.position b)).1.countHit breakpoint.id).1
  | holds {b : Boundary} {breakpoint : Breakpoint} {step : Option StepMode}
      (asked : .condition breakpoint b step ∈ m.stack) (outside : m.enters? = none)
      (going : m.isPausing = false) : Consults e m (e.debugger.countHit breakpoint.id).1
  | pauses (position : Position) (stop : Stop) (bindings watches : Dictionary Value)
      (outside : m.enters? = none) (pausing : m.isPausing = true) :
      Consults e m (e.debugger.pause position stop bindings watches).1

section
variable {e : Engine} {m : Machine}

lemma isPausing_iff :
    m.isPausing = true ↔ ∃ values bindings b stop, m.control = .watch [] values bindings b stop := by
  constructor
  · intro pausing
    unfold isPausing at pausing
    split at pausing
    · exact ⟨_, _, _, _, ‹_›⟩
    · cases pausing
  · rintro ⟨_, _, _, _, shape⟩
    simp [isPausing, shape]

lemma Consults.consulted (consults : Consults e m later) : e.debugger.Consulted later := by
  cases consults with
  | aside => exact .refl
  | enters => exact .reach .refl _
  | hits => exact .countHit (.reach .refl _) _
  | holds => exact .countHit .refl _
  | pauses position stop bindings watches => exact .pause .refl position stop bindings watches

lemma Consults.state (consults : Consults e m later) :
    later.state = if m.isPausing then .paused else e.debugger.state := by
  cases consults with
  | aside _ going => rw [going]; rfl
  | enters _ going => rw [going, reach_eq]; rfl
  | hits _ _ going => rw [going, countHit_eq, reach_eq]; rfl
  | holds _ _ going => rw [going, countHit_eq]; rfl
  | pauses _ _ _ _ _ pausing => rw [pausing]; rfl

lemma hit_engine (e) (m : Machine) (breakpoint) (b) (step) : (m.hit e
    breakpoint b step).1 = { e with debugger := (e.debugger.countHit breakpoint.id).1 } := by
  unfold hit
  dsimp only
  split <;> rfl

lemma met_on_line {d : Debugger} {position : Position} {b : Boundary} (met : (if b.bindsBreakpoints then
      (d.reach position).1.effectiveOn? b.location.line else none) = some breakpoint) :
    d.breakpointOn? b.location.line = some breakpoint := by
  split at met
  · have same : (d.reach position).1.breakpointOn? = d.breakpointOn? := by
      unfold breakpointOn?
      rw [reach_eq]
    exact same ▸ (Option.filter_eq_some_iff.mp met).1
  · cases met

lemma arrive_effect (shape : m.control = .arrived b) :
    ∃ debugger, Consults e m debugger ∧ (m.arrive e b).1 = { e with debugger } := by
  have going : m.isPausing = false := by rw [isPausing, shape]
  cases debugging : m.debugging with
  | false =>
    have outside : m.enters? = none := by simp [enters?, shape, debugging]
    simp only [arrive, debugging]
    exact ⟨_, .aside outside going, rfl⟩
  | true =>
    have line : m.enters? = some b.location.line := by simp [enters?, shape, debugging]
    simp only [arrive, debugging, if_true]
    split
    · exact ⟨_, .enters line going, rfl⟩
    · next breakpoint met =>
      split
      · exact ⟨_, .enters line going, rfl⟩
      · exact ⟨_, .hits shape line going (met_on_line met), hit_engine _ m breakpoint b _⟩

lemma step_effect (m) (e) : ∃ inputs debugger wakeup, Consults e m debugger ∧
    (m.step e).1 = { e with inputs, debugger, wakeup, bus := e.bus.announce (m.notices e) } := by
  by_cases arrives : ∃ b, m.control = .arrived b
  · obtain ⟨_, shape⟩ := arrives
    obtain ⟨debugger, consults, changed⟩ := arrive_effect (e := e) shape
    refine ⟨e.inputs, debugger, e.wakeup, consults, ?_⟩
    simp only [step, shape, notices]
    exact changed
  have outside : m.enters? = none := by
    unfold enters?
    split
    · next b shape => exact absurd ⟨b, shape⟩ arrives
    · rfl
  by_cases pausing : m.isPausing = true
  · obtain ⟨values, bindings, b, stop, shape⟩ := isPausing_iff.mp pausing
    simp only [step, shape, stepWatch, notices]
    exact ⟨e.inputs, _, _, .pauses (m.position b) stop bindings values outside pausing, rfl⟩
  have going : m.isPausing = false := Bool.not_eq_true _ ▸ pausing
  by_cases quiet : m.IsQuiet
  · rw [step_quiet e quiet, notices_quiet e quiet]
    exact ⟨e.inputs, _, e.wakeup, .aside outside going, rfl⟩
  · cases encounter_of_loud quiet with
    | prints shape =>
      simp only [step, shape, complete, print, notices]
      split <;> exact ⟨e.inputs, _, e.wakeup, .aside outside going, rfl⟩
    | @asks _ values _ shape few =>
      have accepted := (input_arity values.reverse.length).mpr (by simpa using few)
      simp only [step, shape, complete, applyBuiltin, accepted, notices, if_pos few]
      exact ⟨_, _, e.wakeup, .aside outside going, rfl⟩
    | boundary shape =>
      simp only [step, shape, notices]
      exact ⟨e.inputs, _, e.wakeup, .aside outside going, rfl⟩
    | arrived shape => exact absurd ⟨_, shape⟩ arrives
    | @log _ rest _ _ shape =>
      simp only [step, shape, stepLog]
      rcases rest with _ | ⟨piece | value, rest⟩ <;> simp only [notices, shape] <;>
        exact ⟨e.inputs, _, e.wakeup, .aside outside going, rfl⟩
    | @watch rest _ _ _ _ shape =>
      cases rest with
      | nil => exact absurd (isPausing_iff.mpr ⟨_, _, _, _, shape⟩) pausing
      | cons =>
        simp only [step, shape, stepWatch, notices]
        exact ⟨e.inputs, _, e.wakeup, .aside outside going, rfl⟩
    | @waits wait shape =>
      have resumes := m.resume_resumes e wait
      simp only [step, shape, notices]
      generalize m.resume e wait = next at resumes
      cases resumes <;> exact ⟨_, _, _, .aside outside going, rfl⟩
    | @probed _ k _ shape top probe =>
      simp only [step, shape, deliver, notices, top]
      cases k with
      | condition breakpoint b mode =>
        simp only [deliverTo]
        split
        · split
          · exact ⟨e.inputs, _, e.wakeup, .holds (top ▸ List.mem_cons_self) outside going,
              hit_engine e _ breakpoint b mode⟩
          · exact ⟨e.inputs, _, e.wakeup, .aside outside going, rfl⟩
        · exact ⟨e.inputs, _, e.wakeup, .aside outside going, rfl⟩
      | log | watch =>
        simp only [deliverTo]
        split <;> exact ⟨e.inputs, _, e.wakeup, .aside outside going, rfl⟩
      | _ => cases probe

lemma step_affects (m : Machine) (e) : ∃ inputs debugger wakeup, e.debugger.Consulted debugger ∧
    (m.step e).1 = { e with inputs, debugger, wakeup, bus := e.bus.announce (m.notices e) } := by
  obtain ⟨inputs, debugger, wakeup, consults, changed⟩ := m.step_effect e
  exact ⟨inputs, debugger, wakeup, consults.consulted, changed⟩

lemma step_consults (e) (m) : Consults e m (m.step e).1.debugger := by
  obtain ⟨_, _, _, consults, changed⟩ := m.step_effect e
  rw [changed]
  exact consults

lemma step_state (e) (m : Machine) :
    (m.step e).1.debugger.state = if m.isPausing then .paused else e.debugger.state :=
  (step_consults e m).state

lemma step_bus (m : Machine) (e) : (m.step e).1.bus = e.bus.announce (m.notices e) := by
  obtain ⟨_, _, _, -, changed⟩ := m.step_affects e
  rw [changed]

end

end Machine

end Stepper
