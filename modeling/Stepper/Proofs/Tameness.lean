import Stepper.Proofs.Purity

/-! # Tame values -/

namespace Stepper

open List

/-! ### Tame texts -/

/-- Whether a field of a class starts with a value that calls nothing. -/
def Stmt.initializesPlainly : Stmt → Bool
  | .declare _ _ (some value) _ => !value.calls
  | _ => true

/-- Whether a statement, if it declares a class, declares one whose initializers call nothing. -/
def Stmt.isTame : Stmt → Bool
  | .classDef decl _ => decl.body.statements.all Stmt.initializesPlainly
  | _ => true

/-- Whether a program declares classes only whose initializers call nothing, wherever it does. -/
def Program.IsTame (program : Program) : Prop := ∀ s ∈ program.allStatements, s.isTame = true

lemma blockStatements_eq (body) : blockStatements body = listStatements body.statements := by
  cases body
  rw [blockStatements]

lemma functionStatements_eq (decl) : functionStatements decl = listStatements decl.body.statements := by
  cases decl
  rw [functionStatements, blockStatements_eq]

lemma classStatements_eq (decl) : classStatements decl = listStatements decl.body.statements := by
  cases decl
  rw [classStatements, blockStatements_eq]

lemma mem_listStatements {inner : Stmt} :
    inner ∈ listStatements statements ↔ ∃ s ∈ statements, inner ∈ s.preorder := by
  induction statements with
  | nil => simp [listStatements]
  | cons _ _ ih => simp [listStatements, ih]

namespace Stmt

lemma mem_preorder_self (s : Stmt) : s ∈ s.preorder := by
  cases s <;> simp [preorder]

lemma mem_preorder_of_body {s inner : Stmt} (own : body ∈ s.bodies)
    (inside : inner ∈ listStatements body.statements) : inner ∈ s.preorder := by
  rw [← blockStatements_eq] at inside
  cases s with
  | branch =>
    obtain rfl | other := mem_cons.mp own
    · exact mem_cons_of_mem _ (mem_append_left _ inside)
    · cases Option.mem_toList.mp other
      exact mem_cons_of_mem _ (mem_append_right _ inside)
  | function =>
    obtain rfl := mem_singleton.mp own
    rw [blockStatements_eq, ← functionStatements_eq] at inside
    exact mem_cons_of_mem _ inside
  | classDef =>
    obtain rfl := mem_singleton.mp own
    rw [blockStatements_eq, ← classStatements_eq] at inside
    exact mem_cons_of_mem _ inside
  | whileLoop | forRange | repeatLoop | block =>
    obtain rfl := mem_singleton.mp own
    exact mem_cons_of_mem _ inside
  | declare | giveBack | print | leaveLoop | nextIteration | expression => cases own

end Stmt

/-! ### Tame values -/

def Callables.tame : Callables where
  function decl _ := ∀ s ∈ listStatements decl.body.statements, s.isTame = true
  classDef decl _ := (∀ member ∈ decl.body.statements, member.initializesPlainly = true) ∧
    ∀ s ∈ listStatements decl.body.statements, s.isTame = true

def Result.IsTame : Result → Prop
  | .value given | .flow (.giveBack given) => given.MadeOf .tame
  | _ => True

namespace Value

lemma function_tame (tame : ∀ s ∈ (Stmt.function decl location).preorder, s.isTame = true) (frame) :
    (function decl frame).MadeOf .tame := by
  rw [Stmt.preorder, functionStatements_eq] at tame
  exact .function (forall_mem_cons.mp tame).2

lemma classDef_tame (tame : ∀ s ∈ (Stmt.classDef decl location).preorder, s.isTame = true) (frame) :
    (classDef decl frame).MadeOf .tame := by
  rw [Stmt.preorder, classStatements_eq] at tame
  obtain ⟨plain, inside⟩ := forall_mem_cons.mp tame
  exact .classDef ⟨all_eq_true.mp plain, inside⟩

end Value

end Stepper
