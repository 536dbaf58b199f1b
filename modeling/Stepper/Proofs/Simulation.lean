import Stepper.Proofs.Essence

/-! # The debugger does not disturb a run

A debug run is compared with its essence, which leaves out what the debugger adds. Each step either
strides, as a plain run would step, or stutters and comes nearer to the end of the debugger's business,
so that it cannot stutter for ever. -/

namespace Stepper

open List

structure Breakpoint.IsHarmless (b : Breakpoint) : Prop where
  condition : ∀ condition ∈ b.condition, condition.value.IsPure
  log : ∀ template ∈ b.log, PartsPure template.parts

def WatchesPure (watches : List DebugExpr) : Prop := ∀ watch ∈ watches, watch.value.IsPure

structure Debugger.IsHarmless (d : Debugger) : Prop where
  breakpoints : ∀ b ∈ d.breakpoints, b.IsHarmless
  watches : WatchesPure d.watches

def Continuation.IsHarmless : Continuation → Prop
  | .condition breakpoint _ _ => breakpoint.IsHarmless
  | .log _ rest _ _ => PartsPure rest
  | .watch _ rest _ _ _ _ => WatchesPure rest
  | _ => True

def Control.IsHarmless : Control → Prop
  | .log _ rest _ _ => PartsPure rest
  | .watch rest _ _ _ _ => WatchesPure rest
  | _ => True

def watchesWork : List DebugExpr → Nat
  | [] => 1
  | first :: rest => first.value.work + watchesWork rest + 2

namespace Machine
variable {b : Boundary}

structure Sober (m : Machine) : Prop where
  tidy : m.Tidy
  unlimited : m.limit = none
  control : m.control.IsHarmless
  probing : ∀ above k below, probe? m.stack = some (above, k, below) →
    (∀ other ∈ above, other.IsPure) ∧ m.control.IsPure ∧ k.IsHarmless
  attended : m.debugging = false → m.IsUnprobed ∧ m.control.isAttended = false

def stageOf : Control → Nat × Nat
  | .boundary _ => (6, 0)
  | .waiting (.yielded _) => (5, 0)
  | .arrived _ => (4, 0)
  | .log _ rest _ _ => (2, partsWork rest)
  | .watch rest _ _ _ _ => (1, watchesWork rest)
  | _ => (0, 0)

def stageAfter : Continuation → Nat × Nat
  | .condition _ _ _ => (3, 0)
  | .log _ rest _ _ => (2, partsWork rest + 1)
  | .watch _ rest _ _ _ _ => (1, watchesWork rest + 1)
  | _ => (0, 0)

def stage (m : Machine) : Nat × Nat :=
  match probe? m.stack with
  | some (above, k, _) =>
    ((stageAfter k).1, m.control.work + stackWork above + (stageAfter k).2)
  | none => stageOf m.control

def Nearer : Nat × Nat → Nat × Nat → Prop := Prod.Lex (· < ·) (· < ·)

/-- The answer that a run is given in its next step. -/
def answer? (e : Engine) (m : Machine) : Option InputAnswer :=
  match m.control with
  | .waiting (.input wait _) => (wait.outcome? e.inputs e.now).map Prod.fst
  | _ => none

def asks (m : Machine) : Bool :=
  match m.control with
  | .waiting (.input _ _) => true
  | _ => false

inductive Stride (config : Config) (answer : Option InputAnswer) (m next : Machine) : Prop where
  | stutters (unanswered : answer = none) (same : next.essence = m.essence)
      (nearer : Nearer next.stage m.stage)
  | strides (asked : m.essence.asks = answer.isSome)
      (plain : ∀ given, (∀ got ∈ answer, given = got) →
        next.essence = plainStep config given m.essence)

section
variable {config : Config} {m next base : Machine} {e : Engine} {b : Boundary}

lemma sober_of_unprobed (tidy : next.Tidy) (unlimited : next.limit = none)
    (harmless : next.control.IsHarmless)
    (attended : next.debugging = false → next.control.isAttended = false)
    (unprobed : next.IsUnprobed) : Sober next where
  tidy := tidy
  unlimited := unlimited
  control := harmless
  probing := by
    intro _ _ _ found
    simp [probe?_unprobed unprobed] at found
  attended := fun absent => ⟨unprobed, attended absent⟩

lemma sober_of_settled (tidy : next.Tidy) (unlimited : next.limit = none)
    (settled : next.control.isSettled) (unprobed : next.IsUnprobed) : Sober next := by
  refine sober_of_unprobed tidy unlimited ?_ (fun _ => Control.isAttended_of_isSettled settled) unprobed
  unfold Control.IsHarmless
  split <;> simp_all [Control.isSettled]

lemma Sober.debugging (sober : Sober m) (attended : m.control.isAttended) :
    m.debugging := by
  cases present : m.debugging with
  | true => rfl
  | false => simp [(sober.attended present).2] at attended

lemma stage_unprobed (unprobed : m.IsUnprobed) : m.stage = stageOf m.control := by
  unfold stage
  rw [probe?_unprobed unprobed]

lemma essence_into (unprobed : base.IsUnprobed) (heard : base.muted = false) {control : Control}
    (belongs : outline control = .boundary b) :
    (base.into control).essence = base.hover b base.stack := by
  have own := essence_unprobed (m := base.into control) unprobed
  rw [own]
  simp [hover, bare, withLedger, into, heard, belongs]

structure Held (m base : Machine) (b : Boundary) : Prop where
  hovers : m.essence = base.hover b base.stack
  tidy : base.Tidy
  unlimited : base.limit = none
  heard : base.muted = false
  unprobed : base.IsUnprobed

lemma stutter_into (held : Held m base b) {control : Control} (belongs : outline control = .boundary b)
    (harmless : control.IsHarmless) (attended : base.debugging = false → control.isAttended = false)
    (nearer : Nearer (stageOf control) m.stage) :
    Sober (base.into control) ∧ Stride config none m (base.into control) := by
  have tidy : Tidy (base.into control) := held.tidy.kept rfl rfl fun _ => held.heard
  refine ⟨sober_of_unprobed tidy held.unlimited harmless attended held.unprobed, ?_⟩
  refine .stutters rfl ((essence_into held.unprobed held.heard belongs).trans held.hovers.symm) ?_
  have own := stage_unprobed (m := base.into control) held.unprobed
  rwa [own]

lemma stride_proceed (held : Held m base b) :
    Sober (base.into (.proceed b)) ∧ Stride config none m (base.into (.proceed b)) := by
  have tidy : Tidy (base.into (.proceed b)) := held.tidy.kept rfl rfl fun _ => held.heard
  refine ⟨sober_of_settled tidy held.unlimited rfl held.unprobed, ?_⟩
  refine .strides ?_ fun _ _ => ?_
  · rw [held.hovers]
    rfl
  · have behind := essence_unprobed (m := base.into (.proceed b)) held.unprobed
    rw [behind, held.hovers]
    simp [plainStep, hover, bare, withLedger, into, outline, held.heard]

lemma nearer_of_part (less : part < far.1) : Nearer (part, work) far :=
  .left _ _ less

lemma nearer_of_work (same : part = far.1) (less : near < far.2) : Nearer (part, near) far :=
  same ▸ .right _ less

variable (held : Held m base b) (debugging : base.debugging = true)
include held debugging

lemma stride_stop (watches : WatchesPure e.debugger.watches) (far : 1 < m.stage.1) (stop) :
    Sober (base.stopOrProceed e b stop) ∧ Stride config none m (base.stopOrProceed e b stop) := by
  unfold stopOrProceed
  split
  · exact stride_proceed held
  · refine stutter_into held rfl watches ?_ (nearer_of_part far)
    simp [debugging]

lemma stride_hit (watches : WatchesPure e.debugger.watches) (far : 2 < m.stage.1)
    (harmless : breakpoint.IsHarmless) (step) :
    Sober (base.hit e breakpoint b step).2 ∧ Stride config none m (base.hit e breakpoint b step).2 := by
  have kept : (e.debugger.countHit breakpoint.id).1.watches = e.debugger.watches := by
    rw [Debugger.countHit_eq]
  unfold hit
  cases logs : breakpoint.log with
  | some template =>
    refine stutter_into held rfl (harmless.log template logs) ?_ (nearer_of_part far)
    simp [debugging]
  | none =>
    rw [← kept] at watches
    dsimp only
    exact stride_stop (e := { e with debugger := (e.debugger.countHit breakpoint.id).1 }) held
      debugging watches (Nat.lt_of_succ_lt far) _

lemma stutter_probe {k : Continuation} (at_b : boundaryOf k = some b) (harmless : k.IsHarmless)
    (pure : value.IsPure) (nearer : Nearer ((base.evaluateMuted k value frame).stage) m.stage) : Sober
    (base.evaluateMuted k value frame) ∧ Stride config none m (base.evaluateMuted k value frame) := by
  have isProbe : k.isProbe := by cases k <;> simp_all [boundaryOf, Continuation.isProbe]
  have mutes : k.mutes := by cases k <;> simp_all [boundaryOf, Continuation.mutes]
  constructor
  · refine ⟨held.tidy.mute held.heard mutes rfl rfl rfl, held.unlimited, trivial, ?_, ?_⟩
    · intro above other below found
      have own : probe? (base.evaluateMuted k value frame).stack = some ([], k, base.stack) := by
        simp [evaluateMuted, evaluate, push, probe?, isProbe]
      obtain ⟨rfl, rfl, -⟩ : [] = above ∧ k = other ∧ base.stack = below := by
        simpa [own] using found
      exact ⟨by simp, pure, harmless⟩
    · intro absent
      simp [evaluateMuted, evaluate, push, debugging] at absent
  · refine .stutters rfl (Eq.trans ?_ held.hovers.symm) nearer
    have stack : (base.evaluateMuted k value frame).stack = [] ++ k :: base.stack := rfl
    exact essence_probed stack (by simp) at_b

end

section Steps
variable {m : Machine} {e : Engine}

lemma essence_settled (unprobed : m.IsUnprobed) (settled : m.control.isSettled) :
    m.essence = m.bare := by
  have own : outline m.control = m.control := by
    unfold outline
    split <;> simp_all [Control.isSettled]
  rw [essence_unprobed unprobed, own]
  rfl

lemma plainStep_quiet (e) (given) (records) (quiet : m.IsQuiet) :
    plainStep e.config given (m.withLedger records) = ((m.step e).2).withLedger records := by
  have moves := congrArg Prod.snd (step_withLedger m records e (.ofConfig e.config) quiet rfl)
  unfold plainStep
  split
  · rename_i b shape
    change m.control = _ at shape
    have muted : m.muted := by simpa [IsQuiet, shape] using quiet
    refine Eq.trans ?_ moves
    simp [step, stepBoundary, shape, muted]
  · rename_i shape
    change m.control = _ at shape
    simp [IsQuiet, shape] at quiet
  · rename_i values frame shape
    change m.control = _ at shape
    have many : 1 < values.length := by simpa [IsQuiet, shape] using quiet
    rw [if_neg (by omega)]
    exact moves
  · rename_i shape
    change m.control = _ at shape
    simp [IsQuiet, shape] at quiet
  · exact moves

variable (sober : Sober m) (unprobed : m.IsUnprobed)
include sober unprobed

lemma stride_quiet (quiet : m.IsQuiet) : Sober (m.step e).2 ∧ Stride e.config none m (m.step e).2 := by
  have settled := settled_of_quiet quiet
  obtain ⟨unprobed', settled'⟩ :=
    settled_of_advance (advance_of_quiet e quiet) unprobed settled
  have recorded := step_quiet_ledger e quiet
  have unlimited : (m.step e).2.limit = none := by
    rw [← recorded]
    exact sober.unlimited
  have outputs : (m.step e).2.outputs = m.outputs := by
    rw [← recorded]
    rfl
  refine ⟨sober_of_settled (sober.tidy.step e) unlimited settled' unprobed', .strides ?_ ?_⟩
  · rw [essence_settled unprobed settled]
    unfold asks
    split
    · rename_i waits
      change m.control = _ at waits
      simp [waits, Control.isSettled] at settled
    · rfl
  · intro given _
    rw [essence_settled unprobed settled, essence_settled unprobed' settled']
    unfold bare
    rw [plainStep_quiet e given _ quiet, outputs]

lemma stride_print (unaborted : e.aborting = false)
    (prints : m.control = .gather (.print location) values [] frame) :
    Sober (m.step e).2 ∧ Stride e.config none m (m.step e).2 := by
  have own := essence_settled unprobed (by rw [prints]; rfl)
  simp only [step, prints, complete, print, unaborted, Bool.false_eq_true, if_false]
  refine ⟨sober_of_settled (sober.tidy.closed rfl rfl rfl) sober.unlimited rfl unprobed, ?_⟩
  refine .strides ?_ fun _ _ => ?_
  · simp [own, asks, bare, prints]
  · refine (essence_settled (by exact unprobed) rfl).trans ?_
    simp [own, plainStep, bare, prints, withLedger, flow, into]

lemma stride_ask (requests : m.control = .gather (.call (.builtin .input) location) values [] frame)
    (few : values.length ≤ 1) : Sober (m.step e).2 ∧ Stride e.config none m (m.step e).2 := by
  have own := essence_settled unprobed (by rw [requests]; rfl)
  have checked : Builtin.input.arityCheck values.reverse.length = .ok () := by
    rw [input_arity, length_reverse]
    exact few
  simp only [step, requests, complete, applyBuiltin, checked]
  refine ⟨sober_of_unprobed (sober.tidy.closed rfl rfl rfl) sober.unlimited trivial (fun _ => rfl)
    unprobed, .strides ?_ fun _ _ => ?_⟩
  · simp [own, asks, bare, requests]
  · refine (essence_unprobed (by exact unprobed)).trans ?_
    simp [own, plainStep, bare, requests, withLedger, into, outline, few]

lemma stride_answer (unaborted : e.aborting = false)
    (waits : m.control = .waiting (.input wait location))
    (came : wait.outcome? e.inputs e.now = some (answer, inputs)) :
    Sober (m.step e).2 ∧ Stride e.config (some answer) m (m.step e).2 := by
  have own := essence_unprobed unprobed
  simp only [step, waits, resume, came, unaborted, Bool.false_eq_true, if_false]
  cases answer with
  | ok =>
    refine ⟨sober_of_settled (sober.tidy.closed rfl rfl rfl) sober.unlimited rfl unprobed,
      .strides ?_ fun given got => ?_⟩
    · simp [own, asks, waits, outline, askedAt]
    · obtain rfl := got _ rfl
      refine (essence_settled (by exact unprobed) rfl).trans ?_
      simp [own, plainStep, bare, waits, withLedger, give, into, outline, askedAt, excludeSince]
  | error =>
    refine ⟨sober_of_settled (sober.tidy.closed rfl rfl rfl) sober.unlimited rfl unprobed,
      .strides ?_ fun given got => ?_⟩
    · simp [own, asks, waits, outline, askedAt]
    · obtain rfl := got _ rfl
      refine (essence_settled (by exact unprobed) rfl).trans ?_
      simp [own, plainStep, bare, waits, withLedger, fail, into, outline, askedAt, excludeSince]

lemma held_of_open (belongs : outline m.control = .boundary b) (heard : m.muted = false) :
    Held m m b := by
  refine ⟨?_, sober.tidy, sober.unlimited, heard, unprobed⟩
  rw [essence_unprobed unprobed, belongs]
  simp [hover, bare, withLedger, heard]

lemma stride_boundary (unaborted : e.aborting = false) (reaches : m.control = .boundary b)
    (heard : m.muted = false) : Sober (m.step e).2 ∧ Stride e.config none m (m.step e).2 := by
  have held := held_of_open sober unprobed (b := b) (by rw [reaches]; rfl) heard
  have counted : Held m { m with crossed := m.crossed + 1 } b :=
    ⟨held.hovers, ⟨held.tidy.balance, held.tidy.heard⟩, held.unlimited, held.heard, held.unprobed⟩
  have inTime : m.isOverBudget e.now = false := by
    unfold isOverBudget
    rw [sober.unlimited]
  have far : m.stage = (6, 0) := by rw [stage_unprobed unprobed, reaches]; rfl
  simp only [step, reaches, stepBoundary, heard, unaborted, inTime, Bool.false_eq_true, if_false]
  rw [reaches, heard] at counted
  split
  · refine stutter_into counted rfl trivial (fun _ => rfl) (nearer_of_part ?_)
    rw [far]
    decide
  · refine stutter_into counted rfl trivial (fun _ => rfl) (nearer_of_part ?_)
    rw [far]
    decide

lemma stride_arrive (harmless : m.debugging = true → e.debugger.IsHarmless)
    (arrives : m.control = .arrived b) : Sober (m.step e).2 ∧ Stride e.config none m (m.step e).2 := by
  have heard : m.muted = false := sober.tidy.heard (by rw [arrives]; rfl)
  have held := held_of_open sober unprobed (b := b) (by rw [arrives]; rfl) heard
  have far : m.stage = (4, 0) := by rw [stage_unprobed unprobed, arrives]; rfl
  simp only [step, arrives, arrive]
  split
  · rename_i debugging
    obtain ⟨breakpoints, watches⟩ := harmless debugging
    have kept : (e.debugger.reach (m.position b)).1.breakpoints = e.debugger.breakpoints ∧
        (e.debugger.reach (m.position b)).1.watches = e.debugger.watches := by
      rw [Debugger.reach_eq]
      exact ⟨rfl, rfl⟩
    rw [← kept.1] at breakpoints
    rw [← kept.2] at watches
    split
    · exact stride_stop (e := { e with debugger := (e.debugger.reach (m.position b)).1 }) held
        debugging watches (by rw [far]; decide) _
    · rename_i breakpoint found
      have mine : breakpoint ∈ (e.debugger.reach (m.position b)).1.breakpoints := by
        split at found
        · obtain ⟨found, -⟩ := Option.filter_eq_some_iff.mp found
          exact mem_of_find?_eq_some found
        · cases found
      split
      · rename_i condition conditional
        refine stutter_probe held debugging rfl (breakpoints _ mine)
          ((breakpoints _ mine).condition condition conditional) (nearer_of_part ?_)
        rw [far]
        exact Nat.lt_succ_self 3
      · exact stride_hit (e := { e with debugger := (e.debugger.reach (m.position b)).1 }) held
          debugging watches (by rw [far]; decide) (breakpoints _ mine) _
  · exact stride_proceed held

lemma stride_log (harmless : m.debugging = true → e.debugger.IsHarmless)
    (logs : m.control = .log text rest b mode) :
    Sober (m.step e).2 ∧ Stride e.config none m (m.step e).2 := by
  have heard : m.muted = false := sober.tidy.heard (by rw [logs]; rfl)
  have held := held_of_open sober unprobed (b := b) (by rw [logs]; rfl) heard
  have far : m.stage = (2, partsWork rest) := by rw [stage_unprobed unprobed, logs]; rfl
  have pure : PartsPure rest := by simpa [logs, Control.IsHarmless] using sober.control
  have debugging := sober.debugging (by rw [logs]; rfl)
  simp only [step, logs, stepLog]
  rcases rest with _ | ⟨piece | value, rest⟩
  · exact stride_stop (e := e.announce [.logged text b.location.line]) held debugging
      (harmless debugging).watches (by rw [far]; decide) _
  · refine stutter_into held rfl (partsPure_cons pure).2 (by simp [debugging])
      (nearer_of_work (by rw [far]) ?_)
    rw [far, partsWork, StringPart.work]
    exact Nat.lt_add_of_pos_left Nat.one_pos
  · obtain ⟨valuePure, restPure⟩ := partsPure_placeholder pure
    refine stutter_probe held debugging rfl restPure valuePure
      (nearer_of_work (by rw [far]; rfl) ?_)
    rw [far, partsWork, StringPart.work]
    change value.work + stackWork [] + partsWork rest + 1 < value.work + 2 + partsWork rest
    simp only [stackWork, map_nil, sum_nil]
    omega

lemma stride_watch (watches : m.control = .watch rest values bindings b stop) :
    Sober (m.step e).2 ∧ Stride e.config none m (m.step e).2 := by
  have heard : m.muted = false := sober.tidy.heard (by rw [watches]; rfl)
  have held := held_of_open sober unprobed (b := b) (by rw [watches]; rfl) heard
  have far : m.stage = (1, watchesWork rest) := by rw [stage_unprobed unprobed, watches]; rfl
  have pure : WatchesPure rest := by simpa [watches, Control.IsHarmless] using sober.control
  have debugging := sober.debugging (by rw [watches]; rfl)
  simp only [step, watches, stepWatch]
  cases rest with
  | nil =>
    refine stutter_into held rfl trivial (by simp [debugging]) (nearer_of_part ?_)
    rw [far]
    decide
  | cons watch rest =>
    obtain ⟨first, others⟩ := forall_mem_cons.mp pure
    refine stutter_probe held debugging rfl others first (nearer_of_work (by rw [far]; rfl) ?_)
    rw [far, watchesWork]
    change watch.value.work + stackWork [] + watchesWork rest + 1 < _
    simp only [stackWork, map_nil, sum_nil]
    omega

lemma stride_resume (unaborted : e.aborting = false) (ready : m.isReady e)
    (waits : m.control = .waiting wait) :
    Sober (m.step e).2 ∧ Stride e.config (m.answer? e) m (m.step e).2 := by
  cases wait with
  | yielded b =>
    have heard : m.muted = false := sober.tidy.heard (by rw [waits]; rfl)
    have held := held_of_open sober unprobed (b := b) (by rw [waits]; rfl) heard
    have far : m.stage = (5, 0) := by rw [stage_unprobed unprobed, waits]; rfl
    simp only [answer?, step, waits, resume, unaborted, Bool.false_eq_true, if_false]
    refine stutter_into held rfl trivial (fun _ => rfl) (nearer_of_part ?_)
    rw [far]
    decide
  | paused b since =>
    have heard : m.muted = false := sober.tidy.heard (by rw [waits]; rfl)
    have held := held_of_open sober unprobed (b := b) (by rw [waits]; rfl) heard
    have roused : (e.wakeup.rouse e.debugger.state).2 := by
      simpa [isReady, waits, canResume, unaborted] using ready
    simp only [answer?, step, waits, resume, unaborted, roused, Bool.false_eq_true, if_false, if_true]
    have timed : Held m (m.excludeSince since e.now) b :=
      ⟨held.hovers, ⟨held.tidy.balance, held.tidy.heard⟩, held.unlimited, heard, unprobed⟩
    exact stride_proceed timed
  | input wait =>
    have came : (wait.outcome? e.inputs e.now).isSome := by
      simpa [isReady, waits, canResume, unaborted] using ready
    obtain ⟨⟨answer, _⟩, came⟩ := Option.isSome_iff_exists.mp came
    have answered : m.answer? e = some answer := by simp [answer?, waits, came]
    rw [answered]
    exact stride_answer sober unprobed unaborted waits came

end Steps

section Probes
variable {m : Machine} {e : Engine} {above below : List Continuation} {k : Continuation}

lemma boundaryOf_isSome (isProbe : k.isProbe) : ∃ b, boundaryOf k = some b := by
  cases k <;> simp_all [boundaryOf, Continuation.isProbe]

lemma stage_probed (stack : m.stack = above ++ k :: below) (unprobed : ∀ k ∈ above, k.isProbe = false)
    (isProbe : k.isProbe) :
    m.stage = ((stageAfter k).1, m.control.work + stackWork above + (stageAfter k).2) := by
  unfold stage
  rw [stack, probe?_append unprobed isProbe]

section
variable (sober : Sober m) (stack : m.stack = above ++ k :: below)
  (unprobed : ∀ k ∈ above, k.isProbe = false) (isProbe : k.isProbe = true)
include sober stack unprobed isProbe

lemma held_of_probe (at_b : boundaryOf k = some b) : Held m { m with stack := below, muted :=
    false } b := by
  have mutes : k.mutes := by cases k <;> simp_all [Continuation.isProbe, Continuation.mutes]
  -- Only one continuation mutes, and this is the debugger's.
  have none : below.countP Continuation.mutes = 0 := by
    have balance := sober.tidy.balance
    rw [stack, countP_append, countP_cons, mutes, if_pos rfl] at balance
    split at balance <;> omega
  have plain : ∀ other ∈ below, other.mutes = false := by
    simpa using countP_eq_zero.mp none
  refine ⟨?_, ⟨none, fun _ => rfl⟩, sober.unlimited, rfl, ?_⟩
  · rw [essence_probed stack unprobed at_b]
    rfl
  · intro other mem
    exact Continuation.isProbe_of_mutes (plain other mem)

lemma stutter_thinks (left : ∀ result, m.control = .deliver result → above ≠ []) :
    Sober (m.step e).2 ∧ Stride e.config none m (m.step e).2 := by
  obtain ⟨pure, isPure, harmless⟩ :=
    sober.probing above k below (by rw [stack, probe?_append unprobed isProbe])
  obtain ⟨_, at_b⟩ := boundaryOf_isSome isProbe
  have held := held_of_probe sober stack unprobed isProbe at_b
  have tidy := sober.tidy.step e
  obtain ⟨-, control, above', reached, isPure', pure', less⟩ := step_thinks e stack isPure pure left
  have unprobed' : ∀ k ∈ above', k.isProbe = false := fun k mem => (pure' k mem).unprobed
  rw [reached] at tidy ⊢
  refine ⟨⟨tidy, sober.unlimited, ?_, ?_, ?_⟩, .stutters rfl ?_ ?_⟩
  · cases control <;> trivial
  · intro _ _ _ found
    rw [probe?_append unprobed' isProbe] at found
    cases found
    exact ⟨pure', isPure', harmless⟩
  · intro absent
    have plain := (sober.attended absent).1 k (by simp [stack])
    simp [isProbe] at plain
  · refine (essence_probed rfl unprobed' at_b).trans ?_
    rw [essence_probed stack unprobed at_b]
    rfl
  · have near := stage_probed (m := { m with control, stack := above' ++ k :: below }) rfl unprobed'
      isProbe
    rw [near, stage_probed stack unprobed isProbe]
    exact nearer_of_work rfl (Nat.add_lt_add_right less _)

end

lemma stride_probed (sober : Sober m) (harmless : m.debugging = true → e.debugger.IsHarmless)
    (stack : m.stack = k :: below) (isProbe : k.isProbe)
    (delivers : m.control = .deliver result) :
    Sober (m.step e).2 ∧ Stride e.config none m (m.step e).2 := by
  have unprobed : ∀ k ∈ ([] : List Continuation), k.isProbe = false := by simp
  obtain ⟨-, -, kept⟩ := sober.probing [] k below (by simp [stack, probe?, isProbe])
  obtain ⟨b, at_b⟩ := boundaryOf_isSome isProbe
  have held := held_of_probe sober stack unprobed isProbe at_b
  have debugging : m.debugging := by
    cases present : m.debugging with
    | true => rfl
    | false =>
      have plain := (sober.attended present).1 k (by simp [stack])
      simp [isProbe] at plain
  have far := stage_probed stack unprobed isProbe
  have watches := (harmless debugging).watches
  simp only [step, delivers, deliver, stack]
  rw [delivers] at held
  cases k with
  | condition _ b' mode =>
    obtain rfl : b' = b := by simpa [boundaryOf] using at_b
    have beyond : 2 < m.stage.1 := by rw [far]; exact Nat.lt_succ_self 2
    simp only [deliverTo]
    split
    · split
      · exact stride_hit held debugging watches beyond kept mode
      · exact stride_stop held debugging watches (Nat.lt_of_succ_lt beyond) _
    · exact stride_stop held debugging watches (Nat.lt_of_succ_lt beyond) _
  | log _ rest b' =>
    obtain rfl : b' = b := by simpa [boundaryOf] using at_b
    have less : partsWork rest < m.stage.2 := by
      rw [far]
      exact Nat.lt_of_lt_of_le (Nat.lt_succ_self _) (Nat.le_add_left _ _)
    simp only [deliverTo]
    split <;>
      exact stutter_into held rfl kept (by simp [debugging])
        (nearer_of_work (by rw [far]; rfl) less)
  | watch _ rest _ _ b' =>
    obtain rfl : b' = b := by simpa [boundaryOf] using at_b
    have less : watchesWork rest < m.stage.2 := by
      rw [far]
      exact Nat.lt_of_lt_of_le (Nat.lt_succ_self _) (Nat.le_add_left _ _)
    simp only [deliverTo]
    split <;>
      exact stutter_into held rfl kept (by simp [debugging])
        (nearer_of_work (by rw [far]; rfl) less)
  | _ => cases isProbe

end Probes

lemma step_strides (sober : Sober m) (unaborted : e.aborting = false)
    (harmless : m.debugging = true → e.debugger.IsHarmless) (ready : m.isReady e) :
    Sober (m.step e).2 ∧ Stride e.config (m.answer? e) m (m.step e).2 := by
  have unasked : (∀ wait, m.control ≠ .waiting wait) → m.answer? e = none := by
    intro awake
    unfold answer?
    split
    · rename_i waits
      exact absurd waits (awake _)
    · rfl
  rcases probe?_cases m.stack with unprobed | ⟨above, k, below, stack, unprobed, isProbe⟩
  · by_cases quiet : m.IsQuiet
    · rw [unasked fun wait waits => by simp [IsQuiet, waits] at quiet]
      exact stride_quiet sober unprobed quiet
    · cases encounter_of_loud quiet with
      | prints shape =>
        rw [unasked (by simp [shape])]
        exact stride_print sober unprobed unaborted shape
      | asks shape few =>
        rw [unasked (by simp [shape])]
        exact stride_ask sober unprobed shape few
      | boundary shape heard =>
        rw [unasked (by simp [shape])]
        exact stride_boundary sober unprobed unaborted shape heard
      | arrived shape =>
        rw [unasked (by simp [shape])]
        exact stride_arrive sober unprobed harmless shape
      | log shape =>
        rw [unasked (by simp [shape])]
        exact stride_log sober unprobed harmless shape
      | watch shape =>
        rw [unasked (by simp [shape])]
        exact stride_watch sober unprobed shape
      | waits shape => exact stride_resume sober unprobed unaborted ready shape
      | @probed _ k _ _ top probe =>
        have plain := unprobed k (by simp [top])
        simp [probe] at plain
  · obtain ⟨-, isPure, -⟩ :=
      sober.probing above k below (by rw [stack, probe?_append unprobed isProbe])
    rw [unasked fun wait waits => by simp [waits, Control.IsPure] at isPure]
    by_cases handed : above = [] ∧ ∃ result, m.control = .deliver result
    · obtain ⟨rfl, _, delivers⟩ := handed
      exact stride_probed sober harmless stack isProbe delivers
    · exact stutter_thinks sober stack unprobed isProbe
        fun result delivers empty => handed ⟨empty, result, delivers⟩

end Machine

end Stepper
