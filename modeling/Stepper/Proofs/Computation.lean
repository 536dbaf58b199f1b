import Mathlib.Tactic.Lemma
import Stepper.Machine.Step

/-! # Steps that only compute -/

namespace Stepper

/-- Whether an expression of the debugger is being evaluated, not one of the program. -/
def Continuation.isProbe : Continuation → Bool
  | .condition _ _ _ | .log _ _ _ _ | .watch _ _ _ _ _ _ => true
  | _ => false

/-- The statement at which the debugger's expression is evaluated. -/
def Continuation.shown? : Continuation → Option Boundary
  | .condition _ b _ | .log _ _ b _ | .watch _ _ _ _ b _ => some b
  | _ => none

lemma exists_shown {k : Continuation} (probe : k.isProbe) : ∃ b, k.shown? = some b := by
  cases k with
  | condition | log | watch => exact ⟨_, rfl⟩
  | _ => cases probe

def Continuation.takesValues : Continuation → Bool
  | .activation _ | .field _ _ _ _ _ | .statements _ _ | .whileBody _ _ | .rangeBody _ | .repeatBody _
  | .condition _ _ _ | .log _ _ _ _ | .watch _ _ _ _ _ _ | .sketched _ _ => false
  | _ => true

def Continuation.takesFlows : Continuation → Bool
  | .statements _ _ | .whileBody _ _ | .rangeBody _ | .repeatBody _ => true
  | _ => false

def Continuation.isLoop : Continuation → Bool
  | .whileBody _ _ | .rangeBody _ | .repeatBody _ => true
  | _ => false

lemma Wakeup.rouse_goes (w : Wakeup) (state : DebugState) :
    (w.rouse state).2 = (w.sent && decide (state ≠ .paused)) := by
  unfold rouse look
  split
  · split <;> simp_all
  · simp_all

namespace Machine

structure Ledger where
  outputs : Array String
  crossed : Nat
  started : Nat
  excluded : Nat
  limit : Option Nat
  debugging : Bool

def ledger (m : Machine) : Ledger :=
  ⟨m.outputs, m.crossed, m.started, m.excluded, m.limit, m.debugging⟩

def withLedger (m : Machine) (records : Ledger) : Machine :=
  { m with
    outputs := records.outputs, crossed := records.crossed, started := records.started,
    excluded := records.excluded, limit := records.limit, debugging := records.debugging }

@[simp] lemma withLedger_environment (m : Machine) (records) :
    (m.withLedger records).environment = m.environment := rfl

@[simp] lemma withLedger_depth (m : Machine) (records) :
    (m.withLedger records).depth = m.depth := rfl

@[simp] lemma withLedger_muted (m : Machine) (records) :
    (m.withLedger records).muted = m.muted := rfl

@[simp] lemma withLedger_control (m : Machine) (records) :
    (m.withLedger records).control = m.control := rfl

@[simp] lemma withLedger_stack (m : Machine) (records) :
    (m.withLedger records).stack = m.stack := rfl

@[simp] lemma withLedger_ledger (m : Machine) : m.withLedger m.ledger = m := rfl

/-- Whether the next step only computes: it tells, asks and waits for nothing. -/
def IsQuiet (m : Machine) : Prop :=
  match m.control with
  | .gather (.print _) _ [] _ => False
  | .gather (.call (.builtin .input) _) values [] _ => 1 < values.length
  | .boundary _ => m.muted = true
  | .arrived _ | .log _ _ _ _ | .watch _ _ _ _ _ | .waiting _ => False
  | .deliver _ => ∀ k ∈ m.stack.head?, k.isProbe = false
  | _ => True

/-- Whether no expression of the debugger is being evaluated. -/
def IsUnprobed (m : Machine) : Prop := ∀ k ∈ m.stack, k.isProbe = false

lemma isUnprobed_iff {m : Machine} : m.IsUnprobed ↔ m.stack.filter Continuation.isProbe = [] := by
  simp [IsUnprobed, List.filter_eq_nil_iff]

end Machine

structure Engine.SameBounds (e e' : Engine) : Prop where
  depth : e.config.maxCallDepth = e'.config.maxCallDepth
  passes : e.config.maxLoopIterations = e'.config.maxLoopIterations

namespace Machine

section Records
variable (m : Machine) (records : Ledger)

lemma stepExpr_withLedger (e : Expr) (frame) :
    (m.withLedger records).stepExpr e frame = (m.stepExpr e frame).withLedger records := by
  cases e with
  | identifier name =>
    cases found : m.environment.get? frame name <;>
      simp only [stepExpr, withLedger_environment, found] <;> rfl
  | call callee =>
    cases callee with
    | identifier name =>
      cases found : m.environment.get? frame name with
      | some =>
        simp [stepExpr, found]
        rfl
      | none => cases builtin : Builtin.ofName? name <;> simp [stepExpr, found, builtin] <;> rfl
    | _ => rfl
  | _ => rfl

lemma applyValue_withLedger (maxDepth) (callee) (args) (receiver : Option Value) (location : Location) :
    (m.withLedger records).applyValue maxDepth callee args receiver location =
    (m.applyValue maxDepth callee args receiver location).withLedger records := by
  cases callee with
  | function decl =>
    by_cases arity : decl.params.length = args.length
    · by_cases deep : maxDepth ≤ m.depth
      · simp [applyValue, arity, deep]
        rfl
      · simp [applyValue, arity, deep]
        rfl
    · simp [applyValue, arity]
      rfl
  | classDef => cases args <;> rfl
  | _ => rfl

lemma stepBuild_withLedger (rest) (fields) (frame home) : (m.withLedger records).stepBuild rest fields
    frame home = (m.stepBuild rest fields frame home).withLedger records := by
  unfold stepBuild
  split <;> rfl

lemma perform_withLedger (s) (frame) :
    (m.withLedger records).perform s frame = (m.perform s frame).withLedger records := by
  cases s with
  | declare _ _ value => cases value <;> rfl
  | giveBack value => cases value <;> rfl
  | _ => rfl

lemma stepRange_withLedger (maxPasses) (pass) : (m.withLedger records).stepRange maxPasses pass =
    (m.stepRange maxPasses pass).withLedger records := by
  unfold stepRange
  split
  · split <;> rfl
  · rfl

lemma stepRepeat_withLedger (maxPasses) (pass) : (m.withLedger records).stepRepeat maxPasses pass =
    (m.stepRepeat maxPasses pass).withLedger records := by
  unfold stepRepeat
  split
  · split
    · rfl
    · split <;> rfl
  · rfl

lemma proceed_withLedger (b) : (m.withLedger records).proceed b = (m.proceed b).withLedger records := by
  cases b with
  | statement s frame => exact perform_withLedger m records s frame
  | line =>
    simp only [proceed]
    split <;> rfl

lemma giveOrFail_withLedger (result : Except Fault Value) (location) : (m.withLedger records).giveOrFail
    result location = (m.giveOrFail result location).withLedger records := by
  cases result <;> rfl

lemma withNumber_withLedger (role) (value) (place) (go recorded) (agree : ∀ x,
    recorded x = (go x).withLedger records) : (m.withLedger records).withNumber role value place
    recorded = (m.withNumber role value place go).withLedger records := by
  unfold withNumber
  split
  · exact agree _
  · rfl

lemma startRange_withLedger (loop) (first last step) : (m.withLedger records).startRange loop first last
    step = (m.startRange loop first last step).withLedger records := by
  unfold startRange
  split <;> rfl

lemma acceptFlow_withLedger (k) (flow) :
    (m.withLedger records).acceptFlow k flow = (m.acceptFlow k flow).withLedger records := by
  unfold acceptFlow
  split <;> rfl

lemma acceptValue_withLedger (e e' : Engine) (k) (value) (same : e'.SameBounds e) :
    (m.withLedger records).acceptValue e' k value = (m.acceptValue e k value).withLedger records := by
  cases k with
  | assign name frame =>
    simp only [acceptValue, withLedger_environment]
    cases m.environment.assign? frame name value <;> rfl
  | binary | unary | index | member => exact giveOrFail_withLedger m records _ _
  | logicalRight =>
    simp only [acceptValue]
    split <;> rfl
  | receiver =>
    simp only [acceptValue]
    split <;> rfl
  | branch _ elseBranch =>
    simp only [acceptValue]
    split
    · rfl
    · cases elseBranch <;> rfl
  | whileTest _ passes =>
    simp only [acceptValue, same.passes]
    split
    · split <;> rfl
    · rfl
  | rangeFirst =>
    apply withNumber_withLedger
    intro _
    rfl
  | rangeLast loop first =>
    apply withNumber_withLedger
    intro last
    cases loop.step with
    | some => rfl
    | none => exact startRange_withLedger m records loop first last _
  | rangeStep loop first last =>
    apply withNumber_withLedger
    intro step
    exact startRange_withLedger m records loop first last step
  | repeatCount loop =>
    apply withNumber_withLedger
    intro _
    cases loop.start <;> rfl
  | repeatStart =>
    apply withNumber_withLedger
    intro _
    rfl
  | _ => rfl

lemma deliverTo_withLedger (e e') (k) (result) (plain : k.isProbe = false) (same : e'.SameBounds e) :
    (m.withLedger records).deliverTo e' k result =
    (e', ((m.deliverTo e k result).2).withLedger records) := by
  cases k with
  | condition | log | watch => cases plain
  | activation => rcases result with value | (_ | _ | _ | value) | error <;> rfl
  | sketched =>
    rcases result with value | flow | ⟨fault, location⟩
    · rfl
    · rfl
    · cases ends : fault.endsRun <;> simp [deliverTo, ends] <;> rfl
  | field => rcases result with value | flow | error <;> rfl
  | _ =>
    rcases result with value | flow | error
    · simp only [deliverTo]
      rw [acceptValue_withLedger m records e e' _ value same]
    · simp only [deliverTo]
      rw [acceptFlow_withLedger]
    · rfl

lemma input_arity (count) : Builtin.input.arityCheck count = .ok () ↔ count ≤ 1 := by
  simp only [Builtin.arityCheck, Builtin.arity]
  by_cases few : count ≤ 1
  · simp [few]
  · simp [few, Nat.lt_of_not_le few]

lemma complete_withLedger (e e') (purpose) (values) (unprinted : ∀ location, purpose ≠ .print location)
    (unasked : ∀ location, purpose = .call (.builtin .input) location → 1 < values.length)
    (same : e'.SameBounds e) : (m.withLedger records).complete e' purpose values =
    (e', ((m.complete e purpose values).2).withLedger records) := by
  cases purpose with
  | array => rfl
  | print location => exact absurd rfl (unprinted location)
  | call callee location =>
    cases callee with
    | value =>
      simp only [complete, same.depth]
      rw [applyValue_withLedger]
    | builtin b =>
      cases b with
      | input =>
        have refused : Builtin.input.arityCheck values.length ≠ .ok () := by
          have many := unasked location rfl
          rw [ne_eq, input_arity]
          omega
        simp only [complete, applyBuiltin]
        cases checked : Builtin.input.arityCheck values.length with
        | ok => exact absurd checked refused
        | error => rfl
      | _ =>
        simp only [complete, applyBuiltin]
        rw [giveOrFail_withLedger]

lemma step_bounded (e e' : Engine) (quiet : m.IsQuiet) (same : e'.SameBounds e) :
    (m.withLedger records).step e' = (e', ((m.step e).2).withLedger records) := by
  cases shape : m.control with
  | evaluate =>
    simp only [step, withLedger_control, shape]
    rw [stepExpr_withLedger]
  | template =>
    simp only [step, withLedger_control, shape]
    split <;> rfl
  | gather purpose values rest =>
    simp only [step, withLedger_control, shape]
    cases rest with
    | cons => rfl
    | nil =>
      apply complete_withLedger m records e e' purpose values.reverse _ _ same
      · rintro _ rfl
        simp [IsQuiet, shape] at quiet
      · rintro _ rfl
        simpa [IsQuiet, shape] using quiet
  | build =>
    simp only [step, withLedger_control, shape]
    rw [stepBuild_withLedger]
  | statements =>
    simp only [step, withLedger_control, shape]
    split <;> rfl
  | rangePass =>
    simp only [step, withLedger_control, shape, same.passes]
    rw [stepRange_withLedger]
  | repeatPass =>
    simp only [step, withLedger_control, shape, same.passes]
    rw [stepRepeat_withLedger]
  | boundary =>
    have muted : m.muted := by simpa [IsQuiet, shape] using quiet
    simp only [step, withLedger_control, shape, stepBoundary, withLedger_muted, muted]
    rfl
  | proceed =>
    simp only [step, withLedger_control, shape]
    rw [proceed_withLedger]
  | lines =>
    simp only [step, withLedger_control, shape]
    split <;> rfl
  | deliver result =>
    simp only [step, withLedger_control, shape, deliver, withLedger_stack]
    cases below : m.stack with
    | nil => cases result <;> rfl
    | cons k stack =>
      have plain : k.isProbe = false := by simpa [IsQuiet, shape, below] using quiet
      exact deliverTo_withLedger { m with stack } records e e' k result plain same
  | finished => simp only [step, withLedger_control, shape]
  | arrived | log | watch | waiting => simp [IsQuiet, shape] at quiet

lemma step_withLedger (e e') (quiet : m.IsQuiet) (same : e'.config = e.config) :
    (m.withLedger records).step e' = (e', ((m.step e).2).withLedger records) :=
  step_bounded m records e e' quiet ⟨by rw [same], by rw [same]⟩

end Records

lemma step_quiet_ledger {m : Machine} (e : Engine) (quiet : m.IsQuiet) :
    ((m.step e).2).withLedger m.ledger = (m.step e).2 := by
  have unchanged := step_withLedger m m.ledger e e quiet rfl
  rw [withLedger_ledger] at unchanged
  exact (congrArg Prod.snd unchanged).symm

lemma step_quiet_congr {m : Machine} (e e' : Engine) (quiet : m.IsQuiet) (same : e'.config = e.config) :
    m.step e' = (e', (m.step e).2) := by
  have agree := step_withLedger m m.ledger e e' quiet same
  rwa [withLedger_ledger, step_quiet_ledger e quiet] at agree

lemma step_quiet {m : Machine} (e) (quiet : m.IsQuiet) : m.step e = (e, (m.step e).2) :=
  step_quiet_congr e e quiet rfl

inductive Encounter (m : Machine) : Prop where
  | prints (shape : m.control = .gather (.print location) values [] frame)
  | asks (shape : m.control = .gather (.call (.builtin .input) location) values [] frame)
      (few : values.length ≤ 1)
  | boundary (shape : m.control = .boundary b) (heard : m.muted = false)
  | arrived (shape : m.control = .arrived b)
  | log (shape : m.control = .log text rest b mode)
  | watch (shape : m.control = .watch rest values bindings b stop)
  | waits (shape : m.control = .waiting wait)
  | probed {result : Result} {k : Continuation} {stack : List Continuation}
      (shape : m.control = .deliver result) (top : m.stack = k :: stack) (probe : k.isProbe = true)

lemma encounter_of_loud {m : Machine} (loud : ¬m.IsQuiet) : Encounter m := by
  cases shape : m.control with
  | gather purpose _ rest =>
    cases rest with
    | cons => simp [IsQuiet, shape] at loud
    | nil =>
      rcases purpose with _ | ⟨callee | b, location⟩ | location
      · simp [IsQuiet, shape] at loud
      · simp [IsQuiet, shape] at loud
      · cases b with
        | input => exact .asks shape (by simpa [IsQuiet, shape] using loud)
        | _ => simp [IsQuiet, shape] at loud
      · exact .prints shape
  | boundary => exact .boundary shape (by simpa [IsQuiet, shape] using loud)
  | arrived => exact .arrived shape
  | log => exact .log shape
  | watch => exact .watch shape
  | waiting => exact .waits shape
  | deliver =>
    cases top : m.stack with
    | nil => simp [IsQuiet, shape, top] at loud
    | cons => exact .probed shape top (by simpa [IsQuiet, shape, top] using loud)
  | _ => simp [IsQuiet, shape] at loud

/-! ### What the debugger makes of a run -/

inductive Crosses (b : Boundary) (m : Machine) : Machine → Prop where
  | unnoticed (muted : m.muted = true) : Crosses b m (m.into (.proceed b))
  | stops (fault : Fault) (ends : fault.endsRun = true) : Crosses b m (m.fail fault b.location)
  | yields (crossed : Nat) : Crosses b m (({ m with crossed }).into (.waiting (.yielded b)))
  | arrives (crossed : Nat) : Crosses b m (({ m with crossed }).into (.arrived b))

inductive Attends (b : Boundary) (m : Machine) : Machine → Prop where
  | proceeds : Attends b m (m.into (.proceed b))
  | logs (text : String) (rest : List StringPart) (mode : Option StepMode) :
      Attends b m (m.into (.log text rest b mode))
  | watches (rest : List DebugExpr) (values bindings : Dictionary Value) (stop : Stop) :
      Attends b m (m.into (.watch rest values bindings b stop))
  | asksCondition (breakpoint : Breakpoint) (mode : Option StepMode) (value : Expr) :
      Attends b m (m.evaluateMuted (.condition breakpoint b mode) value b.frame)
  | asksLog (text : String) (rest : List StringPart) (mode : Option StepMode) (value : Expr) :
      Attends b m (m.evaluateMuted (.log text rest b mode) value b.frame)

inductive Resumes (e : Engine) (m : Machine) : Wait → Engine × Machine → Prop where
  | stays (wait : Wait) (wakeup : Wakeup) : Resumes e m wait ({ e with wakeup }, m)
  | stops (wait : Wait) (inputs : InputQueue) (excluded : Nat) (fault : Fault) (location : Location)
      (ends : fault.endsRun = true ∨ ∃ asked place, wait = .input asked place) :
      Resumes e m wait ({ e with inputs }, ({ m with excluded }).fail fault location)
  | arrives (b : Boundary) : Resumes e m (.yielded b) (e, m.into (.arrived b))
  | proceeds (b : Boundary) (since excluded : Nat) (wakeup : Wakeup) :
      Resumes e m (.paused b since) ({ e with wakeup }, ({ m with excluded }).into (.proceed b))
  | answers (wait : InputWait) (location : Location) (inputs : InputQueue) (excluded : Nat)
      (text : String) :
      Resumes e m (.input wait location) ({ e with inputs }, ({ m with excluded }).give (.string text))

section
variable (m : Machine) (e : Engine)

lemma stepBoundary_crosses (b) : Crosses b m (m.stepBoundary e b) := by
  unfold stepBoundary
  split
  · exact .unnoticed ‹_›
  · split
    · exact .stops _ rfl
    · split
      · exact .stops _ rfl
      · dsimp only
        split
        · exact .yields _
        · exact .arrives _

lemma stopOrProceed_attends (stop) : Attends b m (m.stopOrProceed e b stop) := by
  unfold stopOrProceed
  split
  · exact .proceeds
  · exact .watches _ _ _ stop

lemma hit_attends (breakpoint) (mode) : Attends b m (m.hit e breakpoint b mode).2 := by
  unfold hit
  dsimp only
  split
  · exact .logs _ _ mode
  · dsimp only
    exact m.stopOrProceed_attends _ _

lemma arrive_attends (b) : Attends b m (m.arrive e b).2 := by
  unfold arrive
  split
  · dsimp only
    split
    · exact m.stopOrProceed_attends _ _
    · split
      · exact .asksCondition _ _ _
      · exact m.hit_attends _ _ _
  · exact .proceeds

lemma stepLog_attends (text) (rest) (mode) : Attends b m (m.stepLog e text rest b mode).2 := by
  unfold stepLog
  split
  · exact m.stopOrProceed_attends _ _
  · exact .logs _ _ mode
  · exact .asksLog _ _ mode _

lemma deliverTo_attends {k : Continuation} (shown : k.shown? = some b) (result) : Attends b { m
    with muted := false } (m.deliverTo e k result).2 := by
  cases k with
  | condition breakpoint _ mode =>
    cases shown
    simp only [deliverTo]
    split
    · split
      · exact hit_attends _ e breakpoint mode
      · exact stopOrProceed_attends _ e _
    · exact stopOrProceed_attends _ e _
  | log _ rest _ mode =>
    cases shown
    simp only [deliverTo]
    split <;> exact .logs _ rest mode
  | watch _ rest _ bindings _ stop =>
    cases shown
    simp only [deliverTo]
    split <;> exact .watches rest _ bindings stop
  | _ => cases shown

lemma resume_resumes (wait) : Resumes e m wait (m.resume e wait) := by
  cases wait with
  | yielded b =>
    simp only [resume]
    split
    · exact .stops _ e.inputs m.excluded _ _ (.inl rfl)
    · exact .arrives b
  | paused b since =>
    simp only [resume]
    split
    · exact .stops _ e.inputs _ _ _ (.inl rfl)
    · split
      · exact .proceeds b since _ _
      · exact .stays _ _
  | input wait location =>
    simp only [resume]
    split
    · split
      · exact .stops _ _ _ _ _ (.inl rfl)
      · split
        · exact .answers wait location _ _ _
        · exact .stops _ _ _ _ _ (.inr ⟨wait, location, rfl⟩)
    · split
      · exact .stops _ e.inputs _ _ _ (.inl rfl)
      · exact .stays _ e.wakeup

end

structure SameTerms (m next : Machine) : Prop where
  started : next.started = m.started
  limit : next.limit = m.limit
  debugging : next.debugging = m.debugging

section Terms
variable {m next : Machine}

lemma Crosses.terms (crosses : Crosses b m next) : SameTerms m next := by
  cases crosses <;> exact ⟨rfl, rfl, rfl⟩

lemma Attends.terms (attends : Attends b m next) : SameTerms m next := by
  cases attends <;> exact ⟨rfl, rfl, rfl⟩

lemma Resumes.terms {next : Engine × Machine} (resumes : Resumes e m wait next) :
    SameTerms m next.2 := by
  cases resumes <;> exact ⟨rfl, rfl, rfl⟩

lemma step_terms (m) (e) : SameTerms m (m.step e).2 := by
  by_cases quiet : m.IsQuiet
  · rw [← step_quiet_ledger e quiet]
    exact ⟨rfl, rfl, rfl⟩
  · cases encounter_of_loud quiet with
    | prints shape =>
      simp only [step, shape, complete, print]
      split <;> exact ⟨rfl, rfl, rfl⟩
    | asks shape =>
      simp only [step, shape, complete, applyBuiltin]
      split <;> exact ⟨rfl, rfl, rfl⟩
    | boundary shape =>
      simp only [step, shape]
      exact (m.stepBoundary_crosses e _).terms
    | arrived shape =>
      simp only [step, shape]
      exact (m.arrive_attends e _).terms
    | log shape =>
      simp only [step, shape]
      exact (m.stepLog_attends e _ _ _).terms
    | watch shape =>
      simp only [step, shape, stepWatch]
      split <;> exact ⟨rfl, rfl, rfl⟩
    | waits shape =>
      simp only [step, shape]
      exact (m.resume_resumes e _).terms
    | @probed result _ stack shape top probe =>
      obtain ⟨_, shown⟩ := exists_shown probe
      simp only [step, shape, deliver, top]
      have same := (deliverTo_attends { m with stack, control := .deliver result } e shown result).terms
      exact ⟨same.started, same.limit, same.debugging⟩

end Terms

/-! ### What continuations wait for -/

section Accepting
variable {e : Engine} {m : Machine} {k : Continuation}

lemma deliverTo_plain (plain : k.takesValues || k.takesFlows) (result) :
    (m.deliverTo e k result).2 =
      match result with
      | .value value => m.acceptValue e k value
      | .flow flow => m.acceptFlow k flow
      | .failure error => m.into (.deliver (.failure error)) := by
  cases k <;> cases plain <;> cases result <;> rfl

lemma acceptFlow_of_takesValues (takes : k.takesValues) (flow) :
    m.acceptFlow k flow = m.flow flow := by
  cases k <;> cases takes <;> rfl

lemma acceptValue_of_takesFlows (takes : k.takesFlows) (value) :
    m.acceptValue e k value = m.give value := by
  cases k <;> cases takes <;> rfl

lemma takesFlows_of_isLoop (loops : k.isLoop) : k.takesFlows := by
  cases k <;> cases loops <;> rfl

lemma acceptFlow_leaveLoop (loops : k.isLoop) : m.acceptFlow k .leaveLoop = m.flow .normal := by
  cases k <;> cases loops <;> rfl

lemma acceptFlow_nextIteration (loops : k.isLoop) :
    m.acceptFlow k .nextIteration = m.acceptFlow k .normal := by
  cases k <;> cases loops <;> rfl

lemma acceptFlow_giveBack (value) : m.acceptFlow k (.giveBack value) = m.flow (.giveBack value) := by
  cases k <;> rfl

end Accepting

end Machine

namespace Debugger

lemma reach_eq (d : Debugger) (position) :
    d.reach position =
      ({ d with
          current := some position
          session := d.session.map fun session => session.visit position.line
          pendingStep := d.pendingStep.filter fun request => !request.endsAt position.depth },
       (d.pendingStep.filter fun request => request.endsAt position.depth).map StepRequest.mode) := by
  unfold reach
  dsimp only
  split
  · split <;> simp_all [Option.filter]
  · simp_all

lemma countHit_eq (d : Debugger) (id) :
    (d.countHit id).1 =
      { d with
        breakpoints := d.breakpoints.map fun b =>
          if b.id = id then { b with hits := b.hits + 1 } else b } := by
  unfold countHit
  split
  · next missing =>
    have others : ∀ b ∈ d.breakpoints, b.id ≠ id := by simpa using missing
    rw [List.map_congr_left fun b mem => if_neg (others b mem), List.map_id']
  · rfl

end Debugger

end Stepper
