import Stepper.Proofs.Progress

/-! # Depths are restored -/

namespace Stepper

open SyntaxProblem

/-- The counters of a reader. -/
structure Depths where
  loops : Nat
  functions : Nat
  expressions : Nat
  statements : Nat
deriving DecidableEq

def Reading.depths (s : Reading) : Depths := ⟨s.loops, s.functions, s.expressions, s.statements⟩

def Reply.fails {α : Type} : Reply α → Bool
  | .fail _ _ => true
  | .ok _ _ | .spent _ => false

lemma Reading.Onward.depths {s t : Reading} (onward : s.Onward t) : t.depths = s.depths := by
  rw [Reading.depths, onward.loops, onward.functions, onward.expressions, onward.statements]
  rfl

namespace Parser
variable {n : Nat} {p : Parser α}

/-- The readers of expressions and statements. The flag marks those that take a keyword first. -/
inductive IsReader (n : Nat) : Bool → {α : Type} → Parser α → Prop
  | expression {embed} (blames : BlamesErrors embed) : IsReader n false (expression embed n)
  | assignment {embed} (blames : BlamesErrors embed) : IsReader n false (assignment embed n)
  | climb {embed} (blames : BlamesErrors embed) (levels) : IsReader n false (climb embed n levels)
  | unary {embed} (blames : BlamesErrors embed) : IsReader n false (unary embed n)
  | items {embed} (blames : BlamesErrors embed) (close) : IsReader n false (items embed n close)
  | itemsFrom {embed} (blames : BlamesErrors embed) : IsReader n false (itemsFrom embed n)
  | primary {embed} (blames : BlamesErrors embed) : IsReader n false (primary embed n)
  | opener (header) : IsReader n false (opener header)
  | closeBlock (opened) : IsReader n false (closeBlock opened)
  | headerValue : IsReader n false (headerValue n)
  | params : IsReader n false (params n)
  | expressionStatement : IsReader n false (expressionStatement n)
  | loopStart : IsReader n false (loopStart n)
  | superclass : IsReader n false superclass
  | statements (terminators before) : IsReader n false (statements n terminators before)
  | statement : IsReader n false (statement n)
  | statementByKeyword : IsReader n false (statementByKeyword n)
  | branch (start) : IsReader n false (branch n start)
  | inlineElse : IsReader n false (inlineElse n)
  | blockElse (opened) : IsReader n false (blockElse n opened)
  | rangeStep : IsReader n false (rangeStep n)
  | body (header start) : IsReader n false (body n header start)
  | declare : IsReader n true (declare n)
  | giveBack : IsReader n true (giveBack n)
  | print : IsReader n true (print n)
  | leaveLoop : IsReader n true (loopControl .BREAK .leaveLoop)
  | nextIteration : IsReader n true (loopControl .CONTINUE .nextIteration)
  | function : IsReader n true (function n)
  | classDef : IsReader n true (classDef n)
  | whileLoop : IsReader n true (whileLoop n)
  | forRange : IsReader n true (forRange n)
  | repeatLoop : IsReader n true (repeatLoop n)
  | startBlock : IsReader n true (startBlock n)

lemma onward_of_answers (answers : Answers s d post (p s)) : s.Onward (p s).state := by
  cases reply : p s with rw [reply] at answers
  | ok | fail => exact answers.1
  | spent => exact answers

section Ends
variable {s : Reading} (ends : s.Ends)
include ends

lemma Vouches.onward (vouches : Vouches s.spot c n d p q post) : s.Onward (p s).state :=
  onward_of_answers (vouches s ends rfl).answers

lemma VouchesAhead.onward (vouches : VouchesAhead s.spot c n d p q post)
    (ahead : s.rest ≠ []) : s.Onward (p s).state :=
  onward_of_answers (vouches s ends rfl ahead).answers

lemma IsSteady.onward (steady : IsSteady c n d p q post) : s.Onward (p s).state :=
  onward_of_answers (Steady.vouched (steady s) ends rfl).answers

lemma IsReader.onward (reader : IsReader n keyed p)
    (ahead : keyed = true → s.rest ≠ []) : s.Onward (p s).state := by
  cases reader with
  | expression blames => exact (isSteady_expression blames n).onward ends
  | assignment blames => exact (isSteady_assignment blames n).onward ends
  | climb blames levels => exact (isSteady_climb blames n levels).onward ends
  | unary blames => exact (isSteady_unary blames n).onward ends
  | items blames close => exact (isSteady_items blames n close).onward ends
  | itemsFrom blames => exact (isSteady_itemsFrom blames n).onward ends
  | primary blames => exact (isSteady_primary blames n).onward ends
  | opener header => exact Vouches.onward (n := n) (c := 0) ends (proceeds_opener header)
  | closeBlock opened => exact Vouches.onward (n := n) (c := 0) ends (proceeds_closeBlock opened)
  | headerValue => exact (vouches_headerValue n).onward ends
  | params => exact Vouches.onward ends (proceeds_params n)
  | expressionStatement => exact (vouches_expressionStatement n).onward ends
  | loopStart => exact (vouches_loopStart n).onward ends
  | superclass => exact Vouches.onward (n := n) (c := 0) ends proceeds_superclass
  | statements closers before => exact (vouches_statements n closers before).onward ends
  | statement => exact (vouches_statement n).onward ends
  | statementByKeyword => exact (vouches_statementByKeyword n).onward ends
  | branch start =>
    -- Any token at the start will do, followed by one that ends where the reader is.
    have last : s.spot.last = Reading.lastOf start [⟨.newline, "", s.last⟩] := rfl
    exact (vouches_branch n ⟨.newline, "", start⟩ _ last).onward ends
  | inlineElse => exact (vouches_inlineElse n).onward ends
  | blockElse opened => exact (vouches_blockElse n opened).onward ends
  | rangeStep => exact (vouches_rangeStep n).onward ends
  | body header start => exact (vouches_body n header start).onward ends
  | declare => exact (vouches_declare n).onward ends (ahead rfl)
  | giveBack => exact (vouches_giveBack n).onward ends (ahead rfl)
  | print => exact (vouches_print n).onward ends (ahead rfl)
  | leaveLoop =>
    have legal (scope) (place) (inside : scope.inLoop = true) :
        (Stmt.leaveLoop place).isLegal scope = true := inside
    exact (vouches_loopControl (n := n) _ legal fun _ => ⟨rfl, rfl, rfl⟩).onward ends (ahead rfl)
  | nextIteration =>
    have legal (scope) (place) (inside : scope.inLoop = true) :
        (Stmt.nextIteration place).isLegal scope = true := inside
    exact (vouches_loopControl (n := n) _ legal fun _ => ⟨rfl, rfl, rfl⟩).onward ends (ahead rfl)
  | function => exact (vouches_function n).onward ends (ahead rfl)
  | classDef => exact (vouches_classDef n).onward ends (ahead rfl)
  | whileLoop => exact (vouches_whileLoop n).onward ends (ahead rfl)
  | forRange => exact (vouches_forRange n).onward ends (ahead rfl)
  | repeatLoop => exact (vouches_repeatLoop n).onward ends (ahead rfl)
  | startBlock => exact (vouches_startBlock n).onward ends (ahead rfl)

/-! ### What comes next -/

omit ends in
lemma loopControl_errors (keyword) (make) (t) : (loopControl keyword make t).state.errors =
    (if t.loops = 0 then [(outsideLoop keyword).errorAt t.advance.last] else []) ++ t.errors := by
  obtain ⟨_, passes⟩ := Reading.passes_step t
  rw [← passes.onward.loops, ← passes.same.2.1]
  change Reading.errors (if t.advance.loops = 0 then _ else _) = _
  split <;> rfl

lemma expression_errors (n) : (expression embedTemplate n s).state.errors = s.errors := by
  have walks := (isSteady_expression embed_blames n s ends.stops rfl).walks
  cases reply : expression embedTemplate n s with rw [reply] at walks
  | ok | fail =>
    obtain ⟨_, passes, -⟩ := walks
    exact passes.same.2.1
  | spent =>
    obtain ⟨_, passes⟩ := walks
    exact passes.same.2.1

lemma giveBack_errors (n) : (giveBack n s).state.errors =
    (if s.functions = 0 then [returnOutsideFunction.errorAt s.advance.last] else []) ++ s.errors := by
  obtain ⟨_, passes⟩ := Reading.passes_step s
  rw [← passes.onward.functions, ← passes.same.2.1]
  let u := if s.advance.functions = 0 then
    s.advance.report (returnOutsideFunction.errorAt s.advance.last) else s.advance
  have same : (giveBack n s).state.errors = u.errors := by
    have value : (expression embedTemplate n u).state.errors = u.errors := by
      refine expression_errors (?_ : u.Ends) n
      unfold u
      split <;> exact passes.onward.ends ends
    let start := s.advance.last
    change Reading.errors (Reply.state ((if u.peek.kind.endsValue = true then do
        pure (.giveBack none (← spanSince start))
      else do
        let value ← expression embedTemplate n
        pure (.giveBack (some value) (← spanSince start)) : Parser Stmt) u)) = _
    split
    · rfl
    · cases reply : expression embedTemplate n u <;> rw [reply] at value
      · rw [bind_of_ok reply]
        exact value
      · rw [bind_of_fail reply]
        exact value
      · rw [bind_of_spent reply]
        exact value
  rw [same]
  unfold u
  split <;> rfl

end Ends

/-- Whatever a parser replies, the reader is as deep inside loops, functions, expressions and statements
as before, so what comes next is judged by the state before the parser. -/
theorem depths_are_restored {keyed : Bool} (reader : IsReader n keyed p) (s : Reading) (ends : s.Ends)
    (ahead : keyed = true → s.rest ≠ []) :
    let t := (p s).state
    t.depths = s.depths ∧
      (∀ keyword make, (loopControl keyword make t).state.errors =
        (if s.loops = 0 then [(outsideLoop keyword).errorAt t.advance.last] else []) ++
          t.errors) ∧
      (∀ n, (giveBack n t).state.errors =
        (if s.functions = 0 then [returnOutsideFunction.errorAt t.advance.last] else []) ++
          t.errors) ∧
      ((∀ inner : Parser Expr, insideExpression inner t = failAt .expressionTooDeep t.peek.location t) ↔
        nestingLimit ≤ s.expressions) := by
  intro t
  have onward : s.Onward t := reader.onward ends ahead
  rw [← onward.loops, ← onward.functions, ← onward.expressions]
  refine ⟨onward.depths, fun keyword make => loopControl_errors keyword make t, fun n => giveBack_errors
    (onward.ends ends) n, fun deep => Nat.le_of_not_lt fun room => ?_, fun deep inner => if_pos deep⟩
  have failed := deep (pure (.null {}))
  rw [insideExpression, if_neg (Nat.not_le_of_lt room)] at failed
  cases failed

def unclosedParameters : Reading :=
  let kinds : List TokenKind :=
    [.keyword .FUNC, .identifier "f", .punct .openParen, .identifier "x", .newline, .keyword .BREAK]
  { Reading.ofTokens (kinds.map fun kind => ⟨kind, "", {}⟩) with loops := 1, statements := 3 }

/-- The function fails in its header; behind it `BREAK` is in its place and `RETURN` is not. -/
theorem unclosed_parameters_restore_depths :
    let t := (function 9 unclosedParameters).state
    (function 9 unclosedParameters).fails = true ∧ t.depths = ⟨1, 0, 0, 3⟩ ∧
      (loopControl .BREAK .leaveLoop t).state.errors = [] ∧
      (giveBack 9 t).state.errors = [returnOutsideFunction.errorAt t.advance.last] := by
  obtain ⟨depths, control, back, -⟩ :=
    depths_are_restored (@IsReader.function 9) unclosedParameters rfl (by decide)
  have none : (function 9 unclosedParameters).state.errors = [] := by decide +kernel
  refine ⟨by decide +kernel, depths, ?_, ?_⟩
  · rw [control, none]
    rfl
  · rw [back, none]
    rfl

end Parser

end Stepper
