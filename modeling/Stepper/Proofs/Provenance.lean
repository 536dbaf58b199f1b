import Stepper.Proofs.ExpressionNesting

/-! # What statements are read from -/

namespace Stepper

open List

open Reading (lastOf)

attribute [grind ←] infix_cons infix_append_left infix_append_of_infix_left
  infix_append_of_infix_right

/-- The expressions of a statement itself, without those of its bodies. -/
def Stmt.expressions : Stmt → List Expr
  | .declare _ _ value _ | .giveBack value _ => value.toList
  | .print args _ => args
  | .expression e _ | .branch e _ _ _ | .whileLoop e _ _ => [e]
  | .forRange _ first last step _ _ => first :: last :: step.toList
  | .repeatLoop _ first count _ _ => count :: first.toList
  | .function _ _ | .classDef _ _ | .block _ _ | .leaveLoop _ | .nextIteration _ => []

def Expr.IsSpelledIn (ts : List Token) (e : Expr) : Prop :=
  ∃ us depth, us <:+: ts ∧ depth ≤ nestingLimit ∧ Spells embedTemplate .expression depth us e

mutual

inductive Stmt.IsReadFrom : List Token → Stmt → Prop
  | spans {first : Token} {others : List Token} {s : Stmt}
      (place : s.location = first.location.upTo (lastOf first.location others))
      (values : ∀ e ∈ s.expressions, e.IsSpelledIn (first :: others))
      (bodies : ∀ body ∈ s.bodies, ListIsReadFrom (first :: others) body.statements) :
      Stmt.IsReadFrom (first :: others) s
  | expression {ts : List Token} {e : Expr} (spelled : e.IsSpelledIn ts) :
      Stmt.IsReadFrom ts (.expression e e.location)

inductive ListIsReadFrom : List Token → List Stmt → Prop
  | nil {ts : List Token} : ListIsReadFrom ts []
  | cons {gap ts us : List Token} {first : Stmt} {rest : List Stmt} (here : first.IsReadFrom ts)
      (behind : ListIsReadFrom us rest) : ListIsReadFrom (gap ++ (ts ++ us)) (first :: rest)

end

lemma Expr.IsSpelledIn.widen {e : Expr} (spelled : e.IsSpelledIn ts) (within : ts <:+: us) :
    e.IsSpelledIn us := by
  obtain ⟨vs, depth, inside, fits, spells⟩ := spelled
  exact ⟨vs, depth, inside.trans within, fits, spells⟩

lemma Expr.IsSpelledIn.isShallow {e : Expr} (spelled : e.IsSpelledIn ts) : e.IsShallow := by
  obtain ⟨_, _, -, fits, spells⟩ := spelled
  exact spells.isShallow embedTemplate_isShallow fits

lemma SpellsItems.isSpelledIn (spells : SpellsItems embedTemplate depth ts items)
    (fits : depth ≤ nestingLimit) : ∀ e ∈ items, e.IsSpelledIn ts := by
  match spells with
  | .last only => exact forall_mem_singleton.mpr ⟨_, _, infix_rfl, fits, only⟩
  | .more first _ behind =>
    refine forall_mem_cons.mpr ⟨⟨_, _, infix_append_left, fits, first⟩, fun e mem => ?_⟩
    exact (behind.isSpelledIn fits e mem).widen (by grind)

lemma ListIsReadFrom.widen (read : ListIsReadFrom ts statements) (within : ts <:+: us) :
    ListIsReadFrom us statements := by
  obtain ⟨before, after, rfl⟩ := within
  match read with
  | .nil => exact .nil
  | @ListIsReadFrom.cons gap ts us _ _ here behind =>
    have behind : ListIsReadFrom (us ++ after) _ := behind.widen (infix_append_left)
    have whole : before ++ (gap ++ (ts ++ us)) ++ after = (before ++ gap) ++ (ts ++ (us ++ after)) := by
      simp
    exact whole ▸ .cons here behind

lemma Stmt.IsReadFrom.single (read : s.IsReadFrom ts) : ListIsReadFrom ts [s] := by
  have list : ListIsReadFrom ([] ++ (ts ++ [])) [s] := .cons read .nil
  simpa using list

def AreSpelledIn (ts : List Token) (statements : List Stmt) : Prop :=
  ∀ s ∈ statements, ∀ e ∈ s.expressions, e.IsSpelledIn ts

lemma AreSpelledIn.widen {statements : List Stmt} (spelled : AreSpelledIn ts statements)
    (within : ts <:+: us) : AreSpelledIn us statements :=
  fun s mem e own => (spelled s mem e own).widen within

lemma Stmt.preorder_eq (s : Stmt) : s.preorder = s :: s.bodies.flatMap blockStatements := by
  cases s with
  | branch _ _ elseBranch => cases elseBranch <;> simp [preorder, bodies, optionStatements]
  | function decl => cases decl; simp [preorder, bodies, functionStatements]
  | classDef decl => cases decl; simp [preorder, bodies, classStatements]
  | _ => simp [preorder, bodies]

mutual

theorem Stmt.IsReadFrom.spelled {s : Stmt} (read : s.IsReadFrom ts) : AreSpelledIn ts s.preorder := by
  rw [Stmt.preorder_eq]
  match read with
  | .spans _ values bodies =>
    refine forall_mem_cons.mpr ⟨values, fun other member => ?_⟩
    obtain ⟨body, own, within⟩ := mem_flatMap.mp member
    exact (bodies body own).spelled other (by cases body; exact within)
  | .expression spelled =>
    exact forall_mem_singleton.mpr (forall_mem_singleton.mpr spelled)

theorem ListIsReadFrom.spelled {statements : List Stmt} (read : ListIsReadFrom ts statements) :
    AreSpelledIn ts (listStatements statements) := by
  match read with
  | .nil => exact forall_mem_nil _
  | .cons here behind =>
    exact forall_mem_append.mpr ⟨here.spelled.widen (by grind), behind.spelled.widen (by grind)⟩

end

end Stepper
