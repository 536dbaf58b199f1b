import Stepper.Proofs.Callables
import Stepper.Proofs.Computation

/-! # What a quiet step does to the stack -/

namespace Stepper

open Continuation Control

variable {control : Control}

def Continuation.mutes : Continuation → Bool
  | .condition _ _ _ | .log _ _ _ _ | .watch _ _ _ _ _ _ | .sketched _ _ => true
  | _ => false

lemma Continuation.isProbe_of_mutes {k : Continuation} (plain : k.mutes = false) :
    k.isProbe = false := by
  cases k <;> simp_all [mutes, isProbe]

namespace Control

def isOpen : Control → Bool
  | .boundary (.line _ _) | .proceed (.line _ _) | .lines _ | .arrived _ | .log _ _ _ _
  | .watch _ _ _ _ _ | .waiting (.yielded _) | .waiting (.paused _ _) => true
  | _ => false

def isCalm : Control → Bool
  | .boundary (.line _ _) | .proceed (.line _ _) | .lines _ | .arrived _ | .log _ _ _ _
  | .watch _ _ _ _ _ | .waiting _ | .finished _ => false
  | .deliver (.failure error) => !error.fault.endsRun
  | _ => true

def fault? : Control → Option Fault
  | .deliver (.failure error) | .finished (some error) => some error.fault
  | _ => none

def isSettled : Control → Bool
  | .arrived _ | .log _ _ _ _ | .watch _ _ _ _ _ | .waiting _ => false
  | _ => true

def isAttended : Control → Bool
  | .log _ _ _ _ | .watch _ _ _ _ _ | .waiting (.paused _ _) => true
  | _ => false

lemma isSettled_of_isCalm (calm : control.isCalm) : control.isSettled := by
  unfold isSettled
  split <;> simp_all [isCalm]

lemma isAttended_of_isSettled (settled : control.isSettled) : control.isAttended = false := by
  unfold isAttended
  split <;> simp_all [isSettled]

lemma fault_of_isCalm (calm : control.isCalm) (given : fault ∈ control.fault?) :
    fault.endsRun = false := by
  unfold fault? at given
  split at given <;> simp_all [isCalm]

lemma isOpen_of_isCalm (calm : control.isCalm) : control.isOpen = false := by
  unfold isOpen
  split <;> simp_all [isCalm]

end Control

namespace Machine
variable {m next : Machine}

structure Computes (m next : Machine) : Prop where
  muted : next.muted = m.muted
  calm : next.control.isCalm = true
  stack : next.stack = m.stack ∨ ∃ k : Continuation, k.mutes = false ∧ next.stack = k :: m.stack

section
lemma computes_into (calm : control.isCalm) : Computes m (m.into control) :=
  ⟨rfl, calm, .inl rfl⟩

lemma computes_push (plain : k.mutes = false) (calm : control.isCalm) :
    Computes m (m.push k control) :=
  ⟨rfl, calm, .inr ⟨k, plain, rfl⟩⟩

lemma computes_fail (own : fault.endsRun = false) : Computes m (m.fail fault location) :=
  ⟨rfl, by simp [fail, into, isCalm, own], .inl rfl⟩

lemma computes_giveOrFail (gives : GivesMadeOf .any result) :
    Computes m (m.giveOrFail result location) := by
  cases result with
  | ok => exact computes_into rfl
  | error => exact computes_fail gives

lemma computes_withNumber (goes : ∀ x, Computes m (go x)) :
    Computes m (m.withNumber role value place go) := by
  unfold withNumber
  split
  · exact goes _
  · exact computes_fail rfl

lemma startRange_computes (loop) (first last step) :
    Computes m (m.startRange loop first last step) := by
  unfold startRange
  split
  · exact computes_fail rfl
  · exact computes_into rfl

lemma stepExpr_computes (e) (frame) : Computes m (m.stepExpr e frame) := by
  cases e with
  | identifier =>
    simp only [stepExpr]
    split
    · exact computes_into rfl
    · exact computes_fail rfl
  | call callee =>
    cases callee with
    | identifier =>
      simp only [stepExpr]
      split
      · exact computes_into rfl
      · exact computes_push rfl rfl
    | _ => exact computes_push rfl rfl
  | number | string | bool | null | interpolated | array => exact computes_into rfl
  | _ => exact computes_push rfl rfl

lemma applyValue_computes (maxDepth) (callee) (args) (receiver) (location) :
    Computes m (m.applyValue maxDepth callee args receiver location) := by
  cases callee with
  | function =>
    simp only [applyValue]
    split
    · exact computes_fail rfl
    · split
      · exact computes_fail rfl
      · exact ⟨rfl, rfl, .inr ⟨_, rfl, rfl⟩⟩
  | classDef =>
    simp only [applyValue]
    split
    · exact ⟨rfl, rfl, .inl rfl⟩
    · exact computes_fail rfl
  | _ => exact computes_fail rfl

lemma stepBuild_computes (rest) (fields) (frame home) :
    Computes m (m.stepBuild rest fields frame home) := by
  unfold stepBuild
  split
  · exact ⟨rfl, rfl, .inl rfl⟩
  · exact computes_push rfl rfl
  · exact ⟨rfl, rfl, .inl rfl⟩
  · exact computes_into rfl
  · exact computes_into rfl

lemma perform_computes (s) (frame) : Computes m (m.perform s frame) := by
  cases s with
  | declare _ _ value =>
    cases value with
    | some => exact computes_push rfl rfl
    | none => exact ⟨rfl, rfl, .inl rfl⟩
  | giveBack value =>
    cases value with
    | some => exact computes_push rfl rfl
    | none => exact computes_into rfl
  | function | classDef => exact ⟨rfl, rfl, .inl rfl⟩
  | block | print | leaveLoop | nextIteration => exact computes_into rfl
  | _ => exact computes_push rfl rfl

lemma stepRange_computes (maxPasses) (pass) : Computes m (m.stepRange maxPasses pass) := by
  unfold stepRange
  split
  · split
    · exact computes_fail rfl
    · exact ⟨rfl, rfl, .inr ⟨_, rfl, rfl⟩⟩
  · exact computes_into rfl

lemma stepRepeat_computes (maxPasses) (pass) : Computes m (m.stepRepeat maxPasses pass) := by
  unfold stepRepeat
  split
  · split
    · exact computes_fail rfl
    · split <;> exact ⟨rfl, rfl, .inr ⟨_, rfl, rfl⟩⟩
  · exact computes_into rfl

lemma acceptValue_computes (e) (k) (value) : Computes m (m.acceptValue e k value) := by
  cases k with
  | assign =>
    simp only [acceptValue]
    split
    · exact ⟨rfl, rfl, .inl rfl⟩
    · exact computes_fail rfl
  | binary op left =>
    exact computes_giveOrFail (Value.binary_madeOf op left.madeOf_any value.madeOf_any)
  | unary op => exact computes_giveOrFail (Value.unary_madeOf op value)
  | index target => exact computes_giveOrFail (Value.index_madeOf target.madeOf_any)
  | member name => exact computes_giveOrFail (Value.member_madeOf value.madeOf_any name)
  | logicalRight =>
    simp only [acceptValue]
    split
    · exact computes_into rfl
    · exact computes_into rfl
    · exact computes_push rfl rfl
  | receiver name =>
    simp only [acceptValue]
    split
    · exact computes_into rfl
    · next failed => exact computes_fail ((Value.member_madeOf value.madeOf_any name).of_error failed)
  | branch _ elseBranch =>
    simp only [acceptValue]
    split
    · exact computes_into rfl
    · cases elseBranch <;> exact computes_into rfl
  | whileTest =>
    simp only [acceptValue]
    split
    · split
      · exact computes_fail rfl
      · exact computes_push rfl rfl
    · exact computes_into rfl
  | rangeFirst => exact computes_withNumber fun first => computes_push rfl rfl
  | rangeLast loop first =>
    apply computes_withNumber
    intro last
    cases loop.step with
    | some => exact computes_push rfl rfl
    | none => exact startRange_computes loop first last _
  | rangeStep loop first last =>
    exact computes_withNumber fun step => startRange_computes loop first last step
  | repeatCount loop =>
    apply computes_withNumber
    intro _
    cases loop.start with
    | some => exact computes_push rfl rfl
    | none => exact computes_into rfl
  | repeatStart => exact computes_withNumber fun first => computes_into rfl
  | binaryRight | subscript => exact computes_push rfl rfl
  | field | declare => exact ⟨rfl, rfl, .inl rfl⟩
  | _ => exact computes_into rfl

lemma acceptFlow_computes (k) (flow) : Computes m (m.acceptFlow k flow) := by
  unfold acceptFlow
  split <;> first | exact computes_into rfl | exact computes_push rfl rfl

end

def endOf : Result → Option RuntimeError
  | .failure error => some error
  | _ => none

inductive Advance (m next : Machine) : Prop where
  | works (computes : Computes m next)
  | takes {k : Continuation} {stack : List Continuation} {result : Result}
      (delivers : m.control = .deliver result) (top : m.stack = k :: stack)
      (plain : k.mutes = false) (computes : Computes { m with stack } next)
  | fails {k : Continuation} {stack : List Continuation} {error : RuntimeError}
      (delivers : m.control = .deliver (.failure error)) (top : m.stack = k :: stack)
      (plain : k.mutes = false) (muted : next.muted = m.muted)
      (control : next.control = .deliver (.failure error)) (below : next.stack = stack)
  | leavesLine {line : SketchLine} {rest : List SketchLine} {stack : List Continuation}
      {result : Result} (delivers : m.control = .deliver result)
      (top : m.stack = .sketched line rest :: stack) (heard : next.muted = false)
      (below : next.stack = stack)
      (survives : ∀ fault location, result = .failure ⟨fault, location⟩ → fault.endsRun = false)
      (control : next.control = .lines rest)
  | endsLine {line : SketchLine} {rest : List SketchLine} {stack : List Continuation}
      {fault : Fault} {location place : Location}
      (delivers : m.control = .deliver (.failure ⟨fault, location⟩))
      (top : m.stack = .sketched line rest :: stack) (heard : next.muted = false)
      (below : next.stack = stack) (control : next.control = .deliver (.failure ⟨fault, place⟩))
      (breaks : fault.endsRun = true)
  | ends (delivers : m.control = .deliver result) (empty : m.stack = [])
      (reached : next = m.into (.finished (endOf result)))
  | nextLine (lines : m.control = .lines (line :: rest))
      (reached : next = m.into (.boundary (.line line rest)))
  | entersLine (proceeds : m.control = .proceed (.line line rest)) (muted : next.muted = true)
      (calm : next.control.isCalm = true) (stack : next.stack = .sketched line rest :: m.stack)
  | skipsLine (proceeds : m.control = .proceed (.line line rest))
      (reached : next = m.into (.lines rest))
  | crosses (boundary : m.control = .boundary b) (muted : m.muted = true)
      (reached : next = m.into (.proceed b))
  | rests (finished : m.control = .finished error) (reached : next = m)

lemma deliverTo_advance (e) (k) (stack) (result) (delivers : m.control = .deliver result) (top :
    m.stack = k :: stack) (plain : k.isProbe = false) : Advance m ((({ m with stack } :
    Machine).deliverTo e k result).2) := by
  cases k with
  | condition | log | watch => cases plain
  | sketched line rest =>
    rcases result with value | flow | ⟨fault, location⟩
    · exact .leavesLine delivers top rfl rfl (by simp) rfl
    · exact .leavesLine delivers top rfl rfl (by simp) rfl
    · cases ends : fault.endsRun with
      | true =>
        have control : (({ m with stack } : Machine).deliverTo e (.sketched line rest)
            (.failure ⟨fault, location⟩)).2.control =
            .deliver (.failure ⟨fault, .point line.number location.column⟩) := by
          simp [deliverTo, ends, fail, into]
        refine .endsLine delivers top ?_ ?_ control ends <;> simp [deliverTo, ends, fail, into]
      | false =>
        refine .leavesLine delivers top ?_ ?_ ?_ ?_
        · simp [deliverTo, ends, into]
        · simp [deliverTo, ends, into]
        · rintro _ _ same
          cases same
          exact ends
        · simp [deliverTo, ends, into]
  | activation =>
    rcases result with value | (_ | _ | _ | value) | error
    · exact .takes delivers top rfl ⟨rfl, rfl, .inl rfl⟩
    · exact .takes delivers top rfl ⟨rfl, rfl, .inl rfl⟩
    · exact .takes delivers top rfl ⟨rfl, rfl, .inl rfl⟩
    · exact .takes delivers top rfl ⟨rfl, rfl, .inl rfl⟩
    · exact .takes delivers top rfl ⟨rfl, rfl, .inl rfl⟩
    · exact .fails delivers top rfl rfl rfl rfl
  | field =>
    rcases result with value | flow | error
    · simp only [deliverTo]
      exact .takes delivers top rfl (acceptValue_computes e _ value)
    · exact .takes delivers top rfl ⟨rfl, rfl, .inl rfl⟩
    · exact .fails delivers top rfl rfl rfl rfl
  | _ =>
    rcases result with value | flow | error
    · simp only [deliverTo]
      exact .takes delivers top rfl (acceptValue_computes e _ value)
    · simp only [deliverTo]
      exact .takes delivers top rfl (acceptFlow_computes _ flow)
    · exact .fails delivers top rfl rfl rfl rfl

lemma complete_computes (e) (purpose) (values) (unprinted : ∀ location, purpose ≠ .print location)
    (unasked : ∀ location, purpose = .call (.builtin .input) location → 1 < values.length) :
    Computes m ((m.complete e purpose values).2) := by
  cases purpose with
  | array => exact computes_into rfl
  | print location => exact absurd rfl (unprinted location)
  | call callee location =>
    cases callee with
    | value => exact applyValue_computes _ _ _ _ _
    | builtin b =>
      cases b with
      | input =>
        simp only [complete, applyBuiltin]
        cases checked : Builtin.input.arityCheck values.length with
        | error => exact computes_fail (Builtin.arityCheck_own checked)
        | ok =>
          have few : values.length ≤ 1 := (input_arity values.length).mp checked
          have many := unasked location rfl
          omega
      | _ => exact computes_giveOrFail (Builtin.call_madeOf _ _)

lemma Computes.probes (computes : Computes m next) :
    next.stack.filter isProbe = m.stack.filter isProbe := by
  rcases computes.stack with stack | ⟨k, plain, stack⟩
  · rw [stack]
  · rw [stack, List.filter_cons_of_neg]
    simp [isProbe_of_mutes plain]

lemma Advance.probes (advance : Advance m next) :
    next.stack.filter isProbe = m.stack.filter isProbe := by
  cases advance with
  | works computes => exact computes.probes
  | takes _ top plain computes =>
    rw [computes.probes, top, List.filter_cons_of_neg]
    simp [isProbe_of_mutes plain]
  | fails _ top plain _ _ below =>
    rw [below, top, List.filter_cons_of_neg]
    simp [isProbe_of_mutes plain]
  | leavesLine _ top _ below => rw [below, top]; rfl
  | endsLine _ top _ below => rw [below, top]; rfl
  | entersLine _ _ _ stack => rw [stack]; rfl
  | ends _ _ reached | nextLine _ reached | skipsLine _ reached | crosses _ _ reached
  | rests _ reached => subst reached; rfl

lemma settled_of_quiet (quiet : m.IsQuiet) : m.control.isSettled := by
  unfold isSettled
  split <;> simp_all [IsQuiet]

section
variable (advance : Advance m next)
include advance

lemma Advance.settled (settled : m.control.isSettled) : next.control.isSettled := by
  cases advance with
  | works computes => exact isSettled_of_isCalm computes.calm
  | takes _ _ _ computes => exact isSettled_of_isCalm computes.calm
  | entersLine _ _ calm => exact isSettled_of_isCalm calm
  | fails _ _ _ _ control => rw [control]; rfl
  | leavesLine _ _ _ _ _ control => rw [control]; rfl
  | endsLine _ _ _ _ control => rw [control]; rfl
  | ends _ _ reached | nextLine _ reached | skipsLine _ reached | crosses _ _ reached =>
    rw [reached]; rfl
  | rests _ reached => exact reached ▸ settled

/-- What a quiet step fails with does not end the run, unless it is handed on. -/
lemma Advance.passes_fault (given : fault ∈ next.control.fault?) :
    fault.endsRun = false ∨ fault ∈ m.control.fault? := by
  cases advance with
  | works computes => exact .inl (fault_of_isCalm computes.calm given)
  | takes _ _ _ computes => exact .inl (fault_of_isCalm computes.calm given)
  | entersLine _ _ calm => exact .inl (fault_of_isCalm calm given)
  | fails delivers _ _ _ control | endsLine delivers _ _ _ control =>
    rw [control] at given
    exact .inr (by rw [delivers]; exact given)
  | leavesLine _ _ _ _ _ control =>
    rw [control] at given
    cases given
  | @ends result delivers _ reached =>
    subst reached
    cases result with
    | failure => exact .inr (by rw [delivers]; exact given)
    | _ => cases given
  | nextLine _ reached | skipsLine _ reached | crosses _ _ reached =>
    subst reached
    cases given
  | rests _ reached => exact .inr (reached ▸ given)

lemma Advance.finished (finished : next.control = .finished error) :
    m.control = .finished error ∨ next.stack = [] := by
  have uncalm : next.control.isCalm = false := by rw [finished]; rfl
  cases advance with
  | works computes => simp [computes.calm] at uncalm
  | takes _ _ _ computes => simp [computes.calm] at uncalm
  | entersLine _ _ calm => simp [calm] at uncalm
  | fails _ _ _ _ control _ | leavesLine _ _ _ _ _ control | endsLine _ _ _ _ control =>
    rw [control] at finished
    cases finished
  | ends _ empty reached => exact .inr (by rw [reached]; exact empty)
  | nextLine _ reached | skipsLine _ reached | crosses _ _ reached =>
    rw [reached] at finished
    cases finished
  | rests _ reached => exact .inl (reached ▸ finished)

lemma settled_of_advance (unprobed : m.IsUnprobed) (settled : m.control.isSettled) :
    next.IsUnprobed ∧ next.control.isSettled = true := by
  refine ⟨?_, advance.settled settled⟩
  rw [isUnprobed_iff, advance.probes]
  exact isUnprobed_iff.mp unprobed

end

lemma advance_of_quiet (e) (quiet : m.IsQuiet) : Advance m (m.step e).2 := by
  cases shape : m.control with
  | evaluate expr frame =>
    simp only [step, shape]
    exact .works (stepExpr_computes expr frame)
  | template =>
    simp only [step, shape]
    split
    · exact .works (computes_into rfl)
    · exact .works (computes_into rfl)
    · exact .works (computes_push rfl rfl)
  | gather purpose values rest =>
    simp only [step, shape]
    cases rest with
    | cons => exact .works (computes_push rfl rfl)
    | nil =>
      refine .works (complete_computes e purpose values.reverse ?_ ?_)
      · rintro _ rfl
        simp [IsQuiet, shape] at quiet
      · rintro _ rfl
        simpa [IsQuiet, shape] using quiet
  | build rest fields frame home =>
    simp only [step, shape]
    exact .works (stepBuild_computes rest fields frame home)
  | statements =>
    simp only [step, shape]
    split
    · exact .works (computes_into rfl)
    · exact .works (computes_push rfl rfl)
  | rangePass pass =>
    simp only [step, shape]
    exact .works (stepRange_computes _ pass)
  | repeatPass pass =>
    simp only [step, shape]
    exact .works (stepRepeat_computes _ pass)
  | boundary =>
    have muted : m.muted := by simpa [IsQuiet, shape] using quiet
    refine .crosses shape muted ?_
    simp [step, shape, stepBoundary, muted]
  | proceed b =>
    simp only [step, shape]
    cases b with
    | statement s frame => exact .works (perform_computes s frame)
    | line =>
      simp only [proceed]
      split
      · exact .entersLine shape rfl rfl rfl
      · exact .skipsLine shape rfl
  | lines rest =>
    cases rest with
    | nil =>
      simp only [step, shape]
      exact .works (computes_into rfl)
    | cons =>
      refine .nextLine shape ?_
      simp only [step, shape]
  | deliver result =>
    simp only [step, shape, deliver]
    cases below : m.stack with
    | nil =>
      refine .ends shape below ?_
      cases result <;> rfl
    | cons k stack =>
      have plain : k.isProbe = false := by simpa [IsQuiet, shape, below] using quiet
      exact deliverTo_advance e k stack result shape below plain
  | finished =>
    refine .rests shape ?_
    simp only [step, shape]
  | arrived | log | watch | waiting => simp [IsQuiet, shape] at quiet

end Machine

end Stepper
