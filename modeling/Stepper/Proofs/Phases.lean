import Stepper.Proofs.Chronicle

/-! # The phases of a debug run -/

namespace Stepper

open List Continuation Control Machine Occurrence

namespace Control

/-- Whether a run waits in a pause. -/
def isPause : Control → Bool
  | .waiting (.paused _ _) => true
  | _ => false

def isConsulting : Control → Bool
  | .log _ _ _ _ | .watch _ _ _ _ _ => true
  | _ => false

lemma unheld_of_isSettled {control : Control} (settled : control.isSettled) :
    control.isPause = false ∧ control.isConsulting = false := by
  cases control <;> simp_all [isSettled, isPause, isConsulting]

end Control

namespace Boundary

/-- Whether a statement's body stands on the statement's own line. Its breakpoint is met in the body. -/
def isInline : Boundary → Bool
  | .statement s _ =>
    (s.bodies.head?.bind fun body => body.statements.head?).any fun inner => inner.line == s.line
  | .line _ _ => false

lemma bindsBreakpoints_eq (b : Boundary) : b.bindsBreakpoints = !b.isInline := by
  cases b with
  | line => rfl
  | statement s =>
    simp only [bindsBreakpoints, isInline, Stmt.sharesLineWithBody]
    cases s.bodies with
    | nil => rfl
    | cons body =>
      cases inside : body.statements <;> simp [inside]

end Boundary

namespace Machine

def site (m : Machine) (b : Boundary) : Site := ⟨b.location.line, m.depth, b.isInline⟩

/-- What happens to a run in its next step, as the chronicle has it. -/
def occurrence? (e : Engine) (m : Machine) : Option Occurrence :=
  match m.control with
  | .arrived b => some (.came (m.site b))
  | _ => if (m.step e).2.control.isPause then some .paused else none

structure Aside (e : Engine) (m : Machine) : Prop where
  debugger : (m.step e).1.debugger = e.debugger
  probes : (m.step e).2.stack.filter isProbe = m.stack.filter isProbe
  unheld : (m.step e).2.control.isPause = false ∧ (m.step e).2.control.isConsulting = false
  ended : ∀ error, (m.step e).2.control = .finished error →
    m.control = .finished error ∨ (m.step e).2.stack = []
  unshown : ∀ b, m.control ≠ .arrived b

inductive Business (e : Engine) (m : Machine) : Prop where
  | own (aside : Aside e m)
  | arrived (shape : m.control = .arrived b)
  | log (shape : m.control = .log text rest b mode)
  | watch (shape : m.control = .watch rest values bindings b stop)
  | probed {result : Result} {k : Continuation} {stack : List Continuation}
      (shape : m.control = .deliver result) (top : m.stack = k :: stack) (probe : k.isProbe = true)

section Steps
variable {e : Engine} {m : Machine}

lemma aside_quiet (quiet : m.IsQuiet) : Aside e m := by
  have advance := advance_of_quiet e quiet
  refine ⟨?_, advance.probes, ?_, fun _ => advance.finished, ?_⟩
  · rw [step_quiet e quiet]
  · exact unheld_of_isSettled (advance.settled (settled_of_quiet quiet))
  · intro _ shape
    simp [IsQuiet, shape] at quiet

lemma aside_resume (shape : m.control = .waiting wait) (peaceful : e.aborting = false)
    (ready : m.isReady e) : Aside e m := by
  have goes : canResume e wait := by simpa [isReady, shape] using ready
  have step : m.step e = m.resume e wait := by simp only [step, shape]
  have resumed : (m.resume e wait).1.debugger = e.debugger ∧
      (m.resume e wait).2.stack = m.stack ∧
      (m.resume e wait).2.control.isPause = false ∧
      (m.resume e wait).2.control.isConsulting = false ∧
      ∀ error, (m.resume e wait).2.control ≠ .finished error := by
    cases wait with
    | yielded => simp [resume, peaceful, into, isPause, isConsulting]
    | paused =>
      have roused : (e.wakeup.rouse e.debugger.state).2 := by
        simpa [canResume, peaceful] using goes
      simp [resume, peaceful, roused, into, excludeSince, isPause, isConsulting]
    | input wait =>
      obtain ⟨⟨answer, inputs⟩, came⟩ := Option.isSome_iff_exists.mp
        (show (wait.outcome? e.inputs e.now).isSome = true by simpa [canResume, peaceful] using goes)
      cases answer <;>
        simp [resume, came, peaceful, give, fail, into, excludeSince, isPause, isConsulting]
  obtain ⟨debugger, stack, unpaused, unconsulting, unfinished⟩ := resumed
  refine ⟨?_, ?_, ?_, ?_, ?_⟩
  · rw [step, debugger]
  · rw [step, stack]
  · rw [step]
    exact ⟨unpaused, unconsulting⟩
  · intro error finished
    rw [step] at finished
    exact absurd finished (unfinished error)
  · intro _
    simp [shape]

lemma stepBoundary_aside (e) (m : Machine) (b) : (m.stepBoundary e b).stack = m.stack ∧
    (m.stepBoundary e b).control.isPause = false ∧ (m.stepBoundary e b).control.isConsulting = false ∧ ∀
    error, (m.stepBoundary e b).control ≠ .finished error := by
  unfold stepBoundary
  split
  · simp [into, isPause, isConsulting]
  · split
    · simp [fail, into, isPause, isConsulting]
    · split
      · simp [fail, into, isPause, isConsulting]
      · dsimp only
        split <;> simp [into, isPause, isConsulting]

lemma business (peaceful : e.aborting = false) (ready : m.isReady e = true) : Business e m := by
  by_cases quiet : m.IsQuiet
  · exact .own (aside_quiet quiet)
  · cases encounter_of_loud quiet with
    | arrived shape => exact .arrived shape
    | log shape => exact .log shape
    | watch shape => exact .watch shape
    | probed shape top probe => exact .probed shape top probe
    | waits shape => exact .own (aside_resume shape peaceful ready)
    | prints shape =>
      refine .own ⟨?_, ?_, ?_, ?_, by simp [shape]⟩ <;>
        simp [step, shape, complete, print, peaceful, Engine.announce, flow, into,
          isPause, isConsulting]
    | asks shape few =>
      have accepted := (input_arity _).mpr few
      refine .own ⟨?_, ?_, ?_, ?_, by simp [shape]⟩ <;>
        simp [step, shape, complete, applyBuiltin, accepted, Engine.askInput, Engine.announce,
          into, isPause, isConsulting]
    | @boundary b shape _ =>
      have step : m.step e = (e, m.stepBoundary e b) := by simp only [step, shape]
      obtain ⟨stack, unpaused, unconsulting, unfinished⟩ := stepBoundary_aside e m b
      refine .own ⟨?_, ?_, ?_, ?_, by simp [shape]⟩
      · rw [step]
      · rw [step, stack]
      · rw [step]
        exact ⟨unpaused, unconsulting⟩
      · intro error finished
        rw [step] at finished
        exact absurd finished (unfinished error)

lemma Aside.unnoted (aside : Aside e m) : m.occurrence? e = none := by
  unfold occurrence?
  split
  · rename_i b shape
    exact absurd shape (aside.unshown b)
  · simp [aside.unheld.1]

lemma Tidy.muted_of_probes (tidy : m.Tidy) (probes : m.stack.filter isProbe = k :: others) :
    m.muted := by
  have some_mute : 0 < m.stack.countP mutes := by
    have mem : k ∈ m.stack.filter isProbe := by simp [probes]
    obtain ⟨inside, _⟩ := mem_filter.mp mem
    refine countP_pos_iff.mpr ⟨k, inside, ?_⟩
    cases k <;> simp_all [isProbe, mutes]
  cases muted : m.muted with
  | true => rfl
  | false =>
    have none_mute := tidy.unmuted_stack muted
    omega

end Steps

inductive InPhase (e : Engine) (m : Machine) : Phase → Prop where
  | goes (running : e.debugger.state = .running) (asked : e.debugger.pendingStep = pending)
      (unprobed : m.stack.filter isProbe = []) (free : m.control.isConsulting = false)
      : InPhase e m (.goes pending)
  | stops {position : Position} {rest : List DebugExpr} {values bindings : Dictionary Value}
      {b : Boundary} {stop : Stop} (running : e.debugger.state = .running)
      (current : e.debugger.current = some position)
      (unprobed : m.stack.filter isProbe = [])
      (shape : m.control = .watch rest values bindings b stop) : InPhase e m (.stops position.depth)
  | watches {position : Position} {name : String} {rest : List DebugExpr}
      {values bindings : Dictionary Value} {b : Boundary} {stop : Stop}
      (running : e.debugger.state = .running) (current : e.debugger.current = some position)
      (probes : m.stack.filter isProbe = [.watch name rest values bindings b stop])
      (unfinished : ∀ error, m.control ≠ .finished error) : InPhase e m (.stops position.depth)
  | rests {position : Position} {b : Boundary} {since : Nat} (paused : e.debugger.state = .paused)
      (current : e.debugger.current = some position)
      (unprobed : m.stack.filter isProbe = [])
      (shape : m.control = .waiting (.paused b since)) : InPhase e m (.rests position.depth)

structure Onward (e : Engine) (m : Machine) (phase phase' : Phase) : Prop where
  admitted : phase.after? e.debugger.marks (m.occurrence? e).toList = some phase'
  reached : InPhase (m.step e).1 (m.step e).2 phase'
  credited : e.debugger.Credited (m.step e).1.debugger (m.occurrence? e).toList

section Phases
variable {e : Engine} {m : Machine} {phase : Phase}

lemma Aside.onward (aside : Aside e m) (reached : InPhase (m.step e).1 (m.step e).2 phase) :
    Onward e m phase phase := by
  refine ⟨?_, reached, ?_⟩
  · rw [aside.unnoted]
    rfl
  · rw [aside.debugger, aside.unnoted]
    rfl

structure Verdict (m : Machine) (b : Boundary) (d later : Debugger) (stop : Stop) : Prop where
  state : later.state = d.state
  current : later.current = some (m.position b)
  asked : later.pendingStep = d.pendingStep.filter fun request => !(m.site b).ends request
  stops : (stop.breakpoint.isSome || stop.step.isSome) = (m.site b).stops d.marks d.pendingStep
  credited : later.breakpoints.map Breakpoint.unverified =
    d.breakpoints.map fun c =>
      c.credited (if !b.isInline && b.location.line == c.line then 1 else 0)

def candidate? (d : Debugger) (b : Boundary) : Option Breakpoint :=
  if b.isInline then none else d.breakpointOn? b.location.line

lemma stops_eq (m : Machine) (b) (d) : (m.site b).stops d.marks d.pendingStep =
    ((candidate? d b).isSome || (d.pendingStep.filter (m.site b).ends).isSome) := by
  have marked : d.marks b.location.line = (d.breakpointOn? b.location.line).isSome := by
    rw [Bool.eq_iff_iff]
    simp [Debugger.marks, Debugger.breakpointOn?]
  have ended : d.pendingStep.any (m.site b).ends = (d.pendingStep.filter (m.site b).ends).isSome := by
    cases pending : d.pendingStep with
    | none => rfl
    | some request => cases ends : (m.site b).ends request <;> simp [Option.filter, ends]
  have candidate : (candidate? d b).isSome = (!b.isInline && d.marks b.location.line) := by
    unfold candidate?
    split <;> simp_all
  rw [candidate, ← ended, Bool.or_comm]
  rfl

section
variable (debugging : m.debugging = true) (valid : e.debugger.Valid)
  (plain : ∀ b ∈ e.debugger.breakpoints, b.IsPlain)
include debugging valid plain

lemma arrive_verdict (b : Boundary) : ∃ debugger stop, m.arrive e b = ({ e with debugger },
    m.stopOrProceed { e with debugger } b stop) ∧ Verdict m b e.debugger debugger stop := by
  have stops := stops_eq m b e.debugger
  have reached := e.debugger.reach_eq (m.position b)
  have effective : (if b.bindsBreakpoints then
      (e.debugger.reach (m.position b)).1.effectiveOn? b.location.line else none) =
      candidate? e.debugger b := by
    have same := e.debugger.effectiveOn?_plain plain b.location.line
    rw [candidate?, ← same, reached, b.bindsBreakpoints_eq]
    cases b.isInline <;> rfl
  cases found : candidate? e.debugger b with
  | none =>
    have unmarked : ∀ c ∈ e.debugger.breakpoints,
        (!b.isInline && b.location.line == c.line) = false := by
      intro c mem
      unfold candidate? at found
      split at found
      · simp_all
      · have other : c.line ≠ b.location.line := by
          simpa using find?_eq_none.mp found c mem
        simp [Ne.symm other]
    refine ⟨(e.debugger.reach (m.position b)).1, ⟨none, (e.debugger.reach (m.position b)).2⟩,
      ?_, ?_, ?_, ?_, ?_, ?_⟩
    · simp only [arrive, debugging, if_true, effective, found]
    · rw [reached]
    · rw [reached]
    · rw [reached]
      rfl
    · rw [stops, found, reached]
      simp
      rfl
    · rw [reached]
      refine map_congr_left fun c mem => ?_
      rw [unmarked c mem]
      rfl
  | some breakpoint =>
    obtain ⟨binds, on⟩ : b.isInline = false ∧
        e.debugger.breakpointOn? b.location.line = some breakpoint := by
      unfold candidate? at found
      split at found
      · cases found
      · exact ⟨by simp_all, found⟩
    have always := plain breakpoint (Debugger.breakpointOn?_some on).1
    have on' : (e.debugger.reach (m.position b)).1.breakpointOn? b.location.line =
        some breakpoint := by
      rw [reached]
      exact on
    obtain ⟨_, counted, credited⟩ := (valid.consulted (.reach .refl _)).countHit on'
    refine ⟨((e.debugger.reach (m.position b)).1.countHit breakpoint.id).1, ⟨some (breakpoint.id,
      ((e.debugger.reach (m.position b)).1.countHit breakpoint.id).2), (e.debugger.reach (m.position
      b)).2⟩, ?_, ?_⟩
    · simp only [arrive, debugging, if_true, effective, found, always.unconditional, hit, always.silent]
    · rw [counted, reached]
      refine ⟨rfl, rfl, rfl, ?_, ?_⟩
      · simp [stops, found]
      · rw [credited, reached]
        simp [binds]

lemma onward_arrived (running : e.debugger.state = .running) (asked : e.debugger.pendingStep = pending)
    (unprobed : m.stack.filter isProbe = []) (shape : m.control = .arrived b) :
    ∃ phase', Onward e m (.goes pending) phase' := by
  obtain ⟨debugger, stop, arrived, verdict⟩ := arrive_verdict debugging valid plain b
  have step : m.step e = ({ e with debugger }, m.stopOrProceed { e with debugger } b stop) := by
    simp only [step, shape, arrived]
  have noted : m.occurrence? e = some (.came (m.site b)) := by simp only [occurrence?, shape]
  have visited : ∀ line, visits line (m.occurrence? e).toList =
      if !b.isInline && b.location.line == line then 1 else 0 := by
    intro _
    rw [noted]
    simp [visits, sites, Occurrence.site?, site, countP_cons]
  have credited : e.debugger.Credited (m.step e).1.debugger (m.occurrence? e).toList := by
    simp only [Debugger.Credited, step, visited, verdict.credited]
  have admitted : Phase.after? e.debugger.marks (.goes pending) (m.occurrence? e).toList =
      if stop.breakpoint.isSome || stop.step.isSome then some (.stops m.depth)
      else some (.goes pending) := by
    rw [noted, verdict.stops, asked]
    simp [Phase.after?, Phase.next?]
    rfl
  have closed : (stop.breakpoint.isNone && stop.step.isNone) =
      !(stop.breakpoint.isSome || stop.step.isSome) := by
    cases stop.breakpoint <;> cases stop.step <;> rfl
  cases reason : stop.breakpoint.isSome || stop.step.isSome with
  | true =>
    refine ⟨.stops m.depth, by rw [admitted, reason]; rfl, ?_, credited⟩
    have held : m.stopOrProceed { e with debugger } b stop =
        m.into (.watch debugger.watches [] (m.environment.visible b.frame) b stop) := by
      rw [stopOrProceed, closed, reason]
      rfl
    rw [step, held]
    change InPhase { e with debugger } (m.into _) (.stops (m.position b).depth)
    exact .stops (verdict.state.trans running) verdict.current unprobed rfl
  | false =>
    refine ⟨.goes pending, by rw [admitted, reason]; rfl, ?_, credited⟩
    have free : m.stopOrProceed { e with debugger } b stop = m.into (.proceed b) := by
      rw [stopOrProceed, closed, reason]
      rfl
    have still : debugger.pendingStep = pending := by
      have unended : pending.any (m.site b).ends = false := by
        rw [verdict.stops, asked] at reason
        simp only [Site.stops, Bool.or_eq_false_iff] at reason
        exact reason.1
      rw [verdict.asked, asked]
      cases pending with
      | none => rfl
      | some => simp_all [Option.filter]
    rw [step, free]
    exact .goes (verdict.state.trans running) still unprobed rfl

end

lemma onward_watch {position : Position} (running : e.debugger.state = .running)
    (current : e.debugger.current = some position) (unprobed : m.stack.filter isProbe = [])
    (shape : m.control = .watch rest values bindings b stop) :
    ∃ phase', Onward e m (.stops position.depth) phase' := by
  have step : m.step e = m.stepWatch e rest values bindings b stop := by
    simp only [step, shape]
  cases rest with
  | nil =>
    have noted : m.occurrence? e = some .paused := by
      simp only [occurrence?, shape, step]
      rfl
    refine ⟨.rests position.depth, ?_, ?_, ?_⟩
    · rw [noted]
      rfl
    · rw [step]
      exact .rests rfl current unprobed rfl
    · rw [step, noted]
      rfl
  | cons watch rest =>
    have noted : m.occurrence? e = none := by
      simp only [occurrence?, shape, step]
      rfl
    refine ⟨.stops position.depth, ?_, ?_, ?_⟩
    · rw [noted]
      rfl
    · have probes : (m.stepWatch e (watch :: rest) values bindings b stop).2.stack.filter
          isProbe = [.watch watch.source rest values bindings b stop] := by
        simp only [stepWatch, evaluateMuted, evaluate, push]
        rw [filter_cons_of_pos rfl, unprobed]
      rw [step]
      exact .watches running current probes (by simp [stepWatch, evaluateMuted, evaluate, push])
    · rw [step, noted]
      rfl

lemma onward_probed {position : Position} (running : e.debugger.state = .running)
    (current : e.debugger.current = some position)
    {stack : List Continuation} (below : stack.filter isProbe = [])
    (shape : m.control = .deliver result)
    (top : m.stack = .watch name rest values bindings b stop :: stack) :
    Onward e m (.stops position.depth) (.stops position.depth) := by
  obtain ⟨values', step⟩ : ∃ values', m.step e =
      (e, { m with stack, muted := false, control := .watch rest values' bindings b stop }) := by
    simp only [step, shape, deliver, top, deliverTo]
    cases result <;> exact ⟨_, rfl⟩
  have noted : m.occurrence? e = none := by
    simp only [occurrence?, shape, step]
    rfl
  refine ⟨?_, ?_, ?_⟩
  · rw [noted]
    rfl
  · rw [step]
    exact .stops running current below rfl
  · rw [step, noted]
    rfl

lemma InPhase.step (inPhase : InPhase e m phase) (tidy : m.Tidy) (debugging : m.debugging)
    (peaceful : e.aborting = false) (valid : e.debugger.Valid)
    (plain : ∀ b ∈ e.debugger.breakpoints, b.IsPlain) (ready : m.isReady e) :
    ∃ phase', Onward e m phase phase' := by
  cases inPhase with
  | goes running asked unprobed free =>
    cases business peaceful ready with
    | own aside =>
      refine ⟨_, aside.onward (.goes ?_ ?_ ?_ aside.unheld.2)⟩
      · rw [aside.debugger, running]
      · rw [aside.debugger, asked]
      · rw [aside.probes, unprobed]
    | arrived shape => exact onward_arrived debugging valid plain running asked unprobed shape
    | log shape | watch shape => simp [shape, isConsulting] at free
    | probed _ top probe => simp [top, probe] at unprobed
  | stops running current unprobed shape => exact onward_watch running current unprobed shape
  | watches running current probes unfinished =>
    have muted := tidy.muted_of_probes probes
    have closed : m.control.isOpen = false := by
      cases isOpen : m.control.isOpen with
      | false => rfl
      | true => simp [tidy.heard isOpen] at muted
    cases business peaceful ready with
    | own aside =>
      refine ⟨_, aside.onward (.watches ?_ ?_ (aside.probes.trans probes) ?_)⟩
      · rw [aside.debugger, running]
      · rw [aside.debugger, current]
      · intro error finished
        rcases aside.ended error finished with before | empty
        · exact unfinished error before
        · simp [← aside.probes, empty] at probes
    | arrived shape | log shape | watch shape => simp [shape, isOpen] at closed
    | probed shape top probe =>
      rw [top, filter_cons_of_pos probe] at probes
      obtain ⟨rfl, below⟩ := cons.inj probes
      exact ⟨_, onward_probed running current below shape top⟩
  | rests paused _ _ shape =>
    simp [isReady, shape, canResume, peaceful, paused, Wakeup.rouse_goes] at ready

lemma InPhase.ended (inPhase : InPhase e m phase) (finished : m.control = .finished error) (number) :
    phase.outstanding number = [] := by
  cases inPhase with
  | goes => rfl
  | rests => rfl
  | stops _ _ _ shape => simp [finished] at shape
  | watches _ _ _ unfinished => exact absurd finished (unfinished error)

end Phases

end Machine

end Stepper
