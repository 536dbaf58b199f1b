import Mathlib.Algebra.GroupWithZero.Nat
import Stepper.Proofs.Muting

/-! # Expressions without effect -/

namespace Stepper

open List StringPart

mutual

/-- Whether an expression calls anything, also in the placeholders of its strings. -/
def Expr.calls : Expr → Bool
  | .call _ _ _ => true
  | .number _ _ | .string _ _ | .bool _ _ | .null _ | .identifier _ _ => false
  | .interpolated parts _ => partsCall parts
  | .array items _ => anyCalls items
  | .assign _ value _ => value.calls
  | .binary _ left right _ | .logical _ left right _ => left.calls || right.calls
  | .unary _ operand _ => operand.calls
  | .index target index _ => target.calls || index.calls
  | .member target _ _ => target.calls

def anyCalls : List Expr → Bool
  | [] => false
  | first :: rest => first.calls || anyCalls rest

def StringPart.calls : StringPart → Bool
  | .literal _ => false
  | .placeholder value => value.calls

def partsCall : List StringPart → Bool
  | [] => false
  | first :: rest => first.calls || partsCall rest

end

mutual

def Expr.work : Expr → Nat
  | .number _ _ | .string _ _ | .bool _ _ | .null _ | .identifier _ _ => 1
  | .interpolated parts _ => partsWork parts + 1
  | .array items _ => itemsWork items + 1
  | .assign _ value _ => value.work + 2
  | .binary _ left right _ | .logical _ left right _ => left.work + right.work + 3
  | .unary _ operand _ => operand.work + 2
  | .call _ _ _ => 0
  | .index target index _ => target.work + index.work + 3
  | .member target _ _ => target.work + 2

def itemsWork : List Expr → Nat
  | [] => 1
  | first :: rest => first.work + itemsWork rest + 2

def StringPart.work : StringPart → Nat
  | .literal _ => 1
  | .placeholder value => value.work + 2

def partsWork : List StringPart → Nat
  | [] => 1
  | first :: rest => first.work + partsWork rest

end

def Expr.IsPure (e : Expr) : Prop := e.calls = false ∧ e.assigns = false

def ItemsPure (items : List Expr) : Prop := anyCalls items = false ∧ anyAssigns items = false

def PartsPure (parts : List StringPart) : Prop := partsCall parts = false ∧ partsAssign parts = false

section
variable {location : Location}

lemma Expr.isPure_binary (pure : (binary op left right location).IsPure) :
    left.IsPure ∧ right.IsPure := by
  simp only [IsPure, calls, assigns, Bool.or_eq_false_iff] at pure
  exact ⟨⟨pure.1.1, pure.2.1⟩, pure.1.2, pure.2.2⟩

lemma Expr.isPure_logical (pure : (logical op left right location).IsPure) :
    left.IsPure ∧ right.IsPure := by
  simp only [IsPure, calls, assigns, Bool.or_eq_false_iff] at pure
  exact ⟨⟨pure.1.1, pure.2.1⟩, pure.1.2, pure.2.2⟩

lemma Expr.isPure_index {target index : Expr} (pure : (Expr.index target index location).IsPure) :
    target.IsPure ∧ index.IsPure := by
  simp only [IsPure, calls, assigns, Bool.or_eq_false_iff] at pure
  exact ⟨⟨pure.1.1, pure.2.1⟩, pure.1.2, pure.2.2⟩

lemma itemsPure_cons (pure : ItemsPure (first :: rest)) : first.IsPure ∧ ItemsPure rest := by
  simp only [ItemsPure, anyCalls, anyAssigns, Bool.or_eq_false_iff] at pure
  exact ⟨⟨pure.1.1, pure.2.1⟩, pure.1.2, pure.2.2⟩

lemma partsPure_cons (pure : PartsPure (first :: rest)) :
    (first.calls = false ∧ first.assigns = false) ∧ PartsPure rest := by
  simp only [PartsPure, partsCall, partsAssign, Bool.or_eq_false_iff] at pure
  exact ⟨⟨pure.1.1, pure.2.1⟩, pure.1.2, pure.2.2⟩

lemma partsPure_placeholder (pure : PartsPure (.placeholder value :: rest)) :
    value.IsPure ∧ PartsPure rest := by
  obtain ⟨first, rest⟩ := partsPure_cons pure
  simp only [calls, assigns] at first
  exact ⟨first, rest⟩

end

def Control.IsPure : Control → Prop
  | .evaluate e _ => e.IsPure
  | .template _ rest _ => PartsPure rest
  | .gather .array _ rest _ => ItemsPure rest
  | .deliver (.value _) | .deliver (.failure _) => True
  | _ => False

def Continuation.IsPure : Continuation → Prop
  | .template _ rest _ => PartsPure rest
  | .gather .array _ rest _ => ItemsPure rest
  | .binaryRight _ right _ _ | .logicalRight _ right _ | .subscript right _ _ => right.IsPure
  | .binary _ _ _ | .truth | .unary _ _ | .index _ _ | .member _ _ => True
  | _ => False

def Control.work : Control → Nat
  | .evaluate e _ => e.work
  | .template _ rest _ => partsWork rest
  | .gather _ _ rest _ => itemsWork rest
  | _ => 0

def Continuation.work : Continuation → Nat
  | .template _ rest _ => partsWork rest + 1
  | .gather _ _ rest _ => itemsWork rest + 1
  | .binaryRight _ right _ _ | .logicalRight _ right _ | .subscript right _ _ => right.work + 2
  | _ => 1

def stackWork (stack : List Continuation) : Nat := (stack.map Continuation.work).sum

@[simp] lemma stackWork_cons (k) (stack) : stackWork (k :: stack) = k.work + stackWork stack := by
  simp [stackWork]

lemma Continuation.IsPure.unprobed {k : Continuation} (pure : k.IsPure) : k.isProbe = false := by
  cases k <;> simp_all [Continuation.IsPure, Continuation.isProbe]

namespace Machine

def Thinks (m next : Machine) (above below : List Continuation) : Prop :=
  ∃ control above', next = { m with control, stack := above' ++ below } ∧ control.IsPure ∧
    (∀ k ∈ above', k.IsPure) ∧ control.work + stackWork above' < m.control.work + stackWork above

variable {m : Machine} {above below : List Continuation}

lemma thinks_into {control : Control} (stack : m.stack = above ++ below) (pure : ∀ k ∈ above, k.IsPure)
    (isPure : control.IsPure) (less : control.work < m.control.work) :
    Thinks m (m.into control) above below :=
  ⟨control, above, by rw [← stack]; rfl, isPure, pure, Nat.add_lt_add_right less _⟩

lemma thinks_evaluate (stack : m.stack = above ++ below) (pure : ∀ k ∈ above, k.IsPure)
    (isPure : part.IsPure) (rest : k.IsPure) (less : part.work + k.work < m.control.work) :
    Thinks m (m.evaluate k part frame) above below := by
  refine ⟨.evaluate part frame, k :: above, ?_, isPure, ?_, ?_⟩
  · rw [cons_append, ← stack]
    rfl
  · exact forall_mem_cons.mpr ⟨rest, pure⟩
  · rw [stackWork_cons]
    change part.work + (k.work + stackWork above) < m.control.work + stackWork above
    omega

lemma stepExpr_thinks (evaluates : m.control = .evaluate expr frame) (stack : m.stack = above ++ below)
    (pure : ∀ k ∈ above, k.IsPure) (isPure : expr.IsPure) :
    Thinks m (m.stepExpr expr frame) above below := by
  have total : m.control.work = expr.work := by rw [evaluates]; rfl
  cases expr with
  | number | string | bool | null =>
    exact thinks_into stack pure trivial (by rw [total]; exact Nat.one_pos)
  | identifier =>
    simp only [stepExpr]
    split <;> exact thinks_into stack pure trivial (by rw [total]; exact Nat.one_pos)
  | interpolated parts =>
    have inner : PartsPure parts := by
      simpa [Expr.IsPure, PartsPure, Expr.calls, Expr.assigns] using isPure
    exact thinks_into stack pure inner (by rw [total]; exact Nat.lt_succ_self _)
  | array items =>
    have inner : ItemsPure items := by
      simpa [Expr.IsPure, ItemsPure, Expr.calls, Expr.assigns] using isPure
    exact thinks_into stack pure inner (by rw [total]; exact Nat.lt_succ_self _)
  | assign => simp [Expr.IsPure, Expr.assigns] at isPure
  | binary =>
    obtain ⟨leftPure, rightPure⟩ := Expr.isPure_binary isPure
    refine thinks_evaluate stack pure leftPure rightPure ?_
    rw [total, Expr.work, Continuation.work]
    omega
  | logical =>
    obtain ⟨leftPure, rightPure⟩ := Expr.isPure_logical isPure
    refine thinks_evaluate stack pure leftPure rightPure ?_
    rw [total, Expr.work, Continuation.work]
    omega
  | unary =>
    refine thinks_evaluate stack pure ?_ trivial ?_
    · simpa [Expr.IsPure, Expr.calls, Expr.assigns] using isPure
    · rw [total, Expr.work]
      exact Nat.lt_succ_self _
  | call => simp [Expr.IsPure, Expr.calls] at isPure
  | index =>
    obtain ⟨targetPure, indexPure⟩ := Expr.isPure_index isPure
    refine thinks_evaluate stack pure targetPure indexPure ?_
    rw [total, Expr.work, Continuation.work]
    omega
  | member =>
    refine thinks_evaluate stack pure ?_ trivial ?_
    · simpa [Expr.IsPure, Expr.calls, Expr.assigns] using isPure
    · rw [total, Expr.work]
      exact Nat.lt_succ_self _

lemma deliver_thinks (e) (delivers : m.control = .deliver result) (stack : m.stack = k :: (above
    ++ below)) (isPure : m.control.IsPure) (first : k.IsPure) (pure : ∀ k ∈ above, k.IsPure) :
    (({ m with stack := above ++ below } : Machine).deliverTo e k result).1 = e ∧
      Thinks m (({ m with stack := above ++ below } : Machine).deliverTo e k result).2
        (k :: above) below := by
  have none : m.control.work = 0 := by rw [delivers]; rfl
  -- Whatever comes next is less work than the continuation was.
  have onward : ∀ {control : Control}, control.IsPure → control.work < k.work →
      Thinks m (({ m with stack := above ++ below } : Machine).into control) (k :: above) below := by
    intro control isPure _
    refine ⟨control, above, rfl, isPure, pure, ?_⟩
    rw [none, stackWork_cons]
    omega
  have part : ∀ {next : Continuation} {part : Expr} {frame : FrameId}, part.IsPure → next.IsPure →
      part.work + next.work < k.work →
      Thinks m (({ m with stack := above ++ below } : Machine).evaluate next part frame)
        (k :: above) below := by
    intro next part frame partPure nextPure _
    refine ⟨.evaluate part frame, next :: above, rfl, partPure,
      forall_mem_cons.mpr ⟨nextPure, pure⟩, ?_⟩
    rw [none, stackWork_cons, stackWork_cons]
    change part.work + _ < _
    omega
  have settled : ∀ {outcome : Except Fault Value} {location : Location}, 0 < k.work →
      Thinks m (({ m with stack := above ++ below } : Machine).giveOrFail outcome location)
        (k :: above) below := by
    intro outcome _ some
    cases outcome <;> exact onward trivial some
  rcases result with value | flow | error
  · cases k with
    | template => exact ⟨rfl, onward first (Nat.lt_succ_self _)⟩
    | gather purpose =>
      cases purpose with
      | array => exact ⟨rfl, onward first (Nat.lt_succ_self _)⟩
      | _ => cases first
    | binaryRight => exact ⟨rfl, part first trivial (Nat.lt_succ_self _)⟩
    | logicalRight =>
      simp only [deliverTo, acceptValue]
      refine ⟨trivial, ?_⟩
      split
      · exact onward trivial (Nat.succ_pos _)
      · exact onward trivial (Nat.succ_pos _)
      · exact part first trivial (Nat.lt_succ_self _)
    | subscript => exact ⟨rfl, part first trivial (Nat.lt_succ_self _)⟩
    | binary => exact ⟨rfl, settled Nat.one_pos⟩
    | truth => exact ⟨rfl, onward trivial Nat.one_pos⟩
    | unary => exact ⟨rfl, settled Nat.one_pos⟩
    | index => exact ⟨rfl, settled Nat.one_pos⟩
    | member => exact ⟨rfl, settled Nat.one_pos⟩
    | _ => cases first
  · rw [delivers] at isPure
    cases isPure
  · have positive : 0 < k.work := by
      cases k <;> simp [Continuation.work]
    cases k with
    | template | gather | binaryRight | logicalRight | subscript | binary | truth | unary | index
    | member => exact ⟨rfl, onward trivial positive⟩
    | _ => cases first

lemma step_thinks (e) (stack : m.stack = above ++ below) (isPure : m.control.IsPure)
    (pure : ∀ k ∈ above, k.IsPure) (left : ∀ result, m.control = .deliver result → above ≠ []) :
    (m.step e).1 = e ∧ Thinks m (m.step e).2 above below := by
  cases control : m.control with
  | evaluate =>
    rw [control] at isPure
    simp only [step, control]
    exact ⟨trivial, stepExpr_thinks control stack pure isPure⟩
  | template _ rest =>
    rw [control] at isPure
    have total : m.control.work = partsWork rest := by rw [control]; rfl
    simp only [step, control]
    rcases rest with _ | ⟨piece | value, rest⟩
    · exact ⟨rfl, thinks_into stack pure trivial (by rw [total]; exact Nat.one_pos)⟩
    · refine ⟨rfl, thinks_into stack pure (partsPure_cons isPure).2 ?_⟩
      rw [total, partsWork, work]
      change partsWork rest < _
      omega
    · obtain ⟨valuePure, restPure⟩ := partsPure_placeholder isPure
      refine ⟨rfl, thinks_evaluate stack pure valuePure restPure ?_⟩
      rw [total, partsWork, work]
      change value.work + (partsWork rest + 1) < _
      omega
  | gather purpose _ rest =>
    rw [control] at isPure
    have total : m.control.work = itemsWork rest := by rw [control]; rfl
    cases purpose with
    | array =>
      simp only [step, control]
      cases rest with
      | nil => exact ⟨rfl, thinks_into stack pure trivial (by rw [total]; exact Nat.one_pos)⟩
      | cons first rest =>
        obtain ⟨firstPure, restPure⟩ := itemsPure_cons isPure
        refine ⟨rfl, thinks_evaluate stack pure firstPure restPure ?_⟩
        rw [total, itemsWork]
        change first.work + (itemsWork rest + 1) < _
        omega
    | _ => cases isPure
  | deliver result =>
    cases above with
    | nil => exact absurd rfl (left result control)
    | cons k =>
      simp only [step, control, deliver, stack, cons_append]
      exact deliver_thinks e control stack isPure (pure k mem_cons_self)
        fun other mem => pure other (mem_cons_of_mem k mem)
  | _ =>
    rw [control] at isPure
    cases isPure

end Machine

end Stepper
