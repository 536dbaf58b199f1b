import Stepper.Proofs.Acceptance

/-! # The limit on nested expressions -/

namespace Stepper

open List TokenKind

variable {head tail : List TokenKind}

/-- Whether tokens of these kinds spell an expression with at most this many expressions open at once,
wherever they stand. -/
def WritesWithin (depth : Nat) (ts : List TokenKind) (e : Expr) : Prop :=
  ∃ tokens value, tokens.map Token.kind = ts ∧ value.bare = e.bare ∧
    Spells embedTemplate .expression depth tokens value

namespace WritesWithin
lemma nesting_lt (writes : WritesWithin depth ts e) : e.nesting 1 0 < depth := by
  obtain ⟨_, value, -, same, spells⟩ := writes
  have counted : value.nesting 1 0 = e.nesting 1 0 := by
    rw [← value.nesting_relocate {}, ← e.nesting_relocate {}]
    exact congrArg (Expr.nesting 1 0) same
  rw [← counted]
  exact (spells.nesting_le embedTemplate_isShallow).1

lemma begins (writes : WritesWithin depth ts e) :
    ∃ first others, ts = first :: others ∧ first.beginsExpression = true := by
  obtain ⟨_, _, rfl, -, spells⟩ := writes
  obtain ⟨first, others, rfl, begins⟩ := spells.begins
  exact ⟨first.kind, others.map Token.kind, rfl, begins⟩

end WritesWithin

lemma Reading.ends_iff {s : Reading} (ahead : s.kinds = before ++ follow :: tail) :
    s.Ends ↔ (follow :: tail).getLast? = some .endOfFile := by
  have last : s.kinds.getLast? = some s.ending.kind := by simp [Reading.kinds]
  rw [ahead, List.getLast?_append, List.getLast?_cons, Option.some_or] at last
  rw [List.getLast?_cons, last, Option.some_inj]
  exact Iff.rfl

namespace Parser
variable {α : Type} {ts tail : List TokenKind}


lemma writesWithin_of_read (ends : s.Ends) (read : expression embedTemplate n s = .ok value t)
    (ahead : s.kinds = ts ++ follow :: tail) (left : t.kinds = follow :: tail)
    (same : value.bare = e.bare) : WritesWithin (nestingLimit - s.expressions) ts e := by
  obtain ⟨tokens, passes, spells⟩ := expression_spells embed_blames ends.stops read
  refine ⟨tokens, value, ?_, same, spells⟩
  have whole : s.kinds = tokens.map Token.kind ++ t.kinds := by
    rw [passes.state]
    simp [Reading.kinds, passes.tokens]
  rw [ahead, left] at whole
  exact (append_cancel_right whole).symm

lemma expression_yields_within (writes : WritesWithin (nestingLimit - s.expressions) ts e)
    (ahead : s.kinds = ts ++ follow :: tail) (ended : follow.endsExpression)
    (fuel : 16 * ts.length + 12 ≤ n) :
    Yields (expression embedTemplate n) s (follow :: tail) (·.bare = e.bare) := by
  have room := writes.nesting_lt
  obtain ⟨_, _, rfl, same, spells⟩ := writes
  rw [← same]
  exact spells.reads embedTemplate_isUniform trivial False n s follow tail ahead ended
    (.inl (by omega)) (by simpa using fuel)

lemma expression_refuses (writes : WritesWithin depth ts e) (ends : s.Ends)
    (ahead : s.kinds = ts ++ follow :: tail) (ended : follow.endsExpression = true)
    (fuel : 16 * ts.length + 12 ≤ n) (full : ¬ WritesWithin (nestingLimit - s.expressions) ts e) :
    Refuses (expression embedTemplate n) s := by
  obtain ⟨_, _, rfl, same, spells⟩ := writes
  have reads := spells.reads embedTemplate_isUniform trivial True n s follow tail ahead ended
    (.inr trivial) (by simpa using fuel)
  rw [same] at reads
  obtain ⟨_, _, read, -, left, bare⟩ | ⟨-, refused⟩ := reads
  · exact absurd (writesWithin_of_read ends read ahead left bare) full
  · exact refused

/-! ### Statements that start with a value -/

/-- What can stand in front of the value of a statement that is an expression, an output or a
declaration. -/
def valueHeads (name : String) : List (List TokenKind) :=
  [[], [.keyword .PRINT], [.keyword .LET, .identifier name, .operator .assign]]

lemma LeadsUnless.refuses {p : Parser α} (leads : YieldsUnless True p s [] fun _ => False) :
    Refuses p s := by
  obtain ⟨_, _, _, _, _, never⟩ | ⟨-, refused⟩ := leads
  · exact never.elim
  · exact refused

lemma Refuses.bind {β : Type} {p : Parser β} {f : β → Parser α} (refused : Refuses p s) :
    YieldsUnless True (p >>= f) s [] fun _ => False :=
  have ended : YieldsUnless True p s [] fun _ => False := .inr ⟨trivial, refused⟩
  ended.bind fun _ _ _ _ never => never.elim

lemma statementByKeyword_refuses (mem : head ∈ valueHeads name) (writes : WritesWithin depth ts e)
    (final : (follow :: tail).getLast? = some .endOfFile)
    (ahead : s.kinds = head ++ (ts ++ follow :: tail)) (ended : follow.endsExpression = true)
    (fuel : 16 * ts.length + 14 ≤ n) (deep : nestingLimit ≤ e.nesting 1 0) :
    Refuses (statementByKeyword n) s := by
  obtain _ | n := n
  · omega
  -- Wherever the tokens of the expression are next, there is no room for it.
  have refuses : ∀ (m : Nat) (t : Reading), t.kinds = ts ++ follow :: tail → 16 * ts.length + 12 ≤ m →
      Refuses (expression embedTemplate m) t := fun m t here enough =>
    expression_refuses writes ((Reading.ends_iff here).mpr final) here ended enough fun within => by
      have room := within.nesting_lt
      omega
  obtain ⟨first, _, rfl, begins⟩ := writes.begins
  rw [statementByKeyword]
  obtain rfl | rfl | rfl : head = [] ∨ head = [.keyword .PRINT] ∨
      head = [.keyword .LET, .identifier name, .operator .assign] := by simpa [valueHeads] using mem
  · have stops : YieldsUnless True (expressionStatement n) s [] fun _ => False :=
      (refuses n s ahead (by omega)).bind
    refine LeadsUnless.refuses (look_bind ahead fun token same => ?_)
    rw [same]
    split <;> first | exact stops | cases begins
  · refine LeadsUnless.refuses (look_bind ahead fun token same => ?_)
    rw [same]
    refine (next_yields ahead (by simp)).bind fun _ t _ ahead _ => ?_
    refine at_bind ahead ?_
    rw [endsValue_of_beginsExpression begins]
    obtain _ | n := n
    · omega
    have stops : Refuses (itemsFrom embedTemplate (n + 1)) t := by
      rw [itemsFrom]
      exact (refuses n t ahead (by omega)).bind.refuses
    exact stops.bind
  · refine LeadsUnless.refuses (look_bind ahead fun token same => ?_)
    rw [same]
    refine (next_yields ahead (by simp)).bind fun _ t _ ahead _ => ?_
    refine (expectName_yields _ ahead (by simp)).bind fun _ u _ ahead _ => ?_
    have plain : u.kinds = hintTokens none ++ .operator .assign :: _ := ahead
    refine (typeHint_yields plain rfl).bind fun _ v _ ahead _ => ?_
    refine (accept_yields _ ahead (by simp) rfl).bind ?_
    rintro _ w _ ahead rfl
    exact (refuses n w ahead (by omega)).bind

lemma Refuses.insideStatement (inner : ∀ t : Reading, t.kinds = s.kinds → Refuses p t) :
    Refuses (insideStatement p) s := by
  unfold Refuses Parser.insideStatement
  dsimp only
  -- Whether a block too deep is reported first does not change what is in front of the reader.
  generalize levels : (if s.statements ≥ nestingLimit && !s.depthReported then _ else s) = start
  have same : Reading.kinds { start with statements := start.statements + 1 } = s.kinds := by
    rw [← levels]
    split <;> rfl
  obtain ⟨place, _, run⟩ := inner _ same
  exact ⟨place, _, by rw [run, Reply.update]⟩

lemma statement_refuses (mem : head ∈ valueHeads name) (writes : WritesWithin depth ts e)
    (final : (follow :: tail).getLast? = some .endOfFile)
    (ahead : s.kinds = head ++ (ts ++ follow :: tail)) (ended : follow.endsExpression)
    (fuel : 16 * ts.length + 15 ≤ n) (deep : nestingLimit ≤ e.nesting 1 0) :
    Refuses (statement n) s := by
  obtain _ | n := n
  · omega
  rw [statement]
  refine Refuses.insideStatement fun t same => ?_
  exact statementByKeyword_refuses mem writes final (same.trans ahead) ended (by omega) deep

/-! ### Sources -/

def Collects (error : Diagnostic) : Reply α → Prop
  | .ok _ t | .fail _ t | .spent t => error ∈ t.errors

lemma statements_collects (ends : s.Ends) (breaks : s.skipWhile isSeparator = start)
    (more : (start.peek.kind.isEnd || start.peek.kind.isOneOf closers) = false)
    (failed : statement n start = .fail error t) :
    Collects error (statements (n + 1) closers before s) := by
  have turned : round n closers before s = .of closers before start (.fail error t) := by
    unfold round
    dsimp only
    rw [breaks, if_neg (by simp [more]), failed]
  have turns : (round n closers before s).Turns s _ := round_turns (vouches_statement n) ends
  rw [statements_succ, turned]
  rw [turned] at turns
  unfold Round.of Round.reply at *
  dsimp only at turns ⊢
  generalize moved : (if (t.report error).rest.length = start.rest.length then _ else _) = next at *
  have further : (t.report error).Onward next := by
    rw [← moved]
    split
    · exact .advance _
    · exact .refl _
  have here : error ∈ (resumed next).errors :=
    (further.trans (onward_resumed next)).kept error mem_cons_self
  have answers := (vouches_statements n closers before _ (turns.1.ends ends) rfl).answers
  cases replied : statements n closers before (resumed next) with
  | ok _ _ | fail _ _ =>
    rw [replied] at answers
    exact answers.1.kept error here
  | spent _ =>
    rw [replied] at answers
    exact answers.kept error here

end Parser

lemma parse_collects (collects : Parser.Collects error (Parser.statements (parseFuel (Reading.ofTokens
      tokens unit).rest) [] {} (Reading.ofTokens tokens unit))) :
    error ∈ (parse tokens unit).errors := by
  unfold parse
  dsimp only
  split
  · next run =>
    rw [run] at collects
    exact mem_reverse.mpr collects
  · next run =>
    rw [run] at collects
    exact mem_reverse.mpr (mem_cons_of_mem _ collects)
  · next run =>
    rw [run] at collects
    exact mem_reverse.mpr collects

lemma analyze_of_parse_error (found : error ∈ (parse (scan source).tokens).errors) :
    (analyze source).program = none ∧ error ∈ (analyze source).errors := by
  have wrong : error.isError := parse_errors _ _ error found
  have listed : error ∈ (analyze source).diagnostics :=
    mem_append_left _ (mem_append_right _ found)
  exact ⟨if_pos (any_eq_true.mpr ⟨error, listed, wrong⟩), mem_filter.mpr ⟨listed, wrong⟩⟩

lemma WritesWithin.starts (writes : WritesWithin depth ts e) (mem : head ∈ Parser.valueHeads name) :
    ∃ first others, head
    ++ (ts ++ follow :: tail) = first :: others ∧ first.startsStatement = true := by
  obtain ⟨first, _, rfl, begins⟩ := writes.begins
  simp only [Parser.valueHeads, mem_cons, not_mem_nil, or_false] at mem
  obtain rfl | rfl | rfl := mem
  · exact ⟨first, _, rfl, by simp [startsStatement, begins]⟩
  · exact ⟨_, _, rfl, rfl⟩
  · exact ⟨_, _, rfl, rfl⟩

open Stepper.Parser in
lemma analyze_refuses {e : Expr} (mem : head ∈ valueHeads name)
    (writes : WritesWithin depth ts e) (ahead : (Reading.ofTokens (scan source).tokens).kinds = head ++
      (ts ++ follow :: tail)) (ended : follow.endsExpression)
    (deep : nestingLimit ≤ e.nesting 1 0) : (analyze source).program = none ∧ ∃ place,
    SyntaxProblem.expressionTooDeep.errorAt place ∈ (analyze source).errors := by
  let s := Reading.ofTokens (scan source).tokens
  have final : (follow :: tail).getLast? = some .endOfFile :=
    (Reading.ends_iff (ahead.trans (append_assoc _ _ _).symm)).mp
      (Reading.ofTokens_ends (scan source).tokens 0)
  have fuel : 16 * ts.length + 16 ≤ parseFuel s.rest := by
    have count : s.rest.length + 1 = (head ++ (ts ++ follow :: tail)).length := by
      rw [← ahead, Reading.kinds, length_append, length_map]
      rfl
    simp only [length_append, length_cons] at count
    unfold parseFuel
    omega
  obtain ⟨n, enough⟩ : ∃ m, parseFuel s.rest = m + 1 := ⟨parseFuel s.rest - 1, by omega⟩
  -- No line break stands in front of the statement, and it is not the end.
  obtain ⟨first, others, begun, starts⟩ := writes.starts mem
  obtain ⟨solid, goes, -, -⟩ := not_of_starts starts
  have here : (s.skipWhile isSeparator).kinds = first :: others :=
    Reading.skipWhile_kinds (ahead.trans begun) (forall_mem_nil _) solid
  have more : ((s.skipWhile isSeparator).peek.kind.isEnd ||
      (s.skipWhile isSeparator).peek.kind.isOneOf []) = false := by
    rw [Reading.peek_kind here, goes]
    cases first <;> rfl
  obtain ⟨place, _, failed⟩ := statement_refuses mem writes final (here.trans begun.symm) ended
    (show 16 * ts.length + 15 ≤ n by omega) deep
  have collects : Collects _ (statements (n + 1) [] {} s) :=
    statements_collects (Reading.ofTokens_ends _ 0) rfl more failed
  rw [← enough] at collects
  obtain ⟨none, listed⟩ := analyze_of_parse_error (parse_collects collects)
  exact ⟨none, place, listed⟩

/-- In an accepted source no path goes through as many operands, arguments, indices and elements as the
limit, and an expression is read exactly where there is room for it. -/
theorem operands_nest_within_limit (source : String) :
    (∀ program, (analyze source).program = some program → ∀ s ∈ program.allStatements,
      ∀ e ∈ s.expressions, ∀ root ∈ e :: e.embedded, root.nesting 1 0 < nestingLimit ∧
        root.nesting 1 1 < nestingLimit + root.nesting 0 1) ∧
    (∀ depth ts e, WritesWithin depth ts e → e.nesting 1 0 < depth ∧
      ∀ (n : Nat) (s : Reading) follow tail, s.ending.kind = .endOfFile →
        s.kinds = ts ++ follow :: tail → follow.endsExpression = true → 16 * ts.length + 12 ≤ n →
          (WritesWithin (nestingLimit - s.expressions) ts e ∧
            Parser.Yields (Parser.expression embedTemplate n) s (follow :: tail) (·.bare = e.bare)) ∨
          (¬ WritesWithin (nestingLimit - s.expressions) ts e ∧
            Parser.Refuses (Parser.expression embedTemplate n) s)) ∧
    ∀ name head depth ts e follow tail, head ∈ Parser.valueHeads name →
      WritesWithin depth ts e →
      (Reading.ofTokens (scan source).tokens).kinds = head ++ (ts ++ follow :: tail) →
      follow.endsExpression = true → nestingLimit ≤ e.nesting 1 0 →
        (analyze source).program = none ∧
          ∃ error ∈ (analyze source).errors, error.message = "Expression nested too deeply" := by
  refine ⟨?_, ?_, ?_⟩
  · intro _ accepted s member e own root inside
    obtain ⟨clean, rfl⟩ := parse_of_accepted accepted
    have shallow := ((parse_fits clean).2.2.spelled s member e own).isShallow root inside
    have added : root.nesting 1 1 ≤ root.nesting 1 0 + root.nesting 0 1 := root.nesting_add 1 0 0 1
    exact ⟨shallow, by omega⟩
  · intro _ ts e writes
    refine ⟨writes.nesting_lt, fun n s follow tail ends ahead ended fuel => ?_⟩
    by_cases within : WritesWithin (nestingLimit - s.expressions) ts e
    · exact .inl ⟨within, Parser.expression_yields_within within ahead ended fuel⟩
    · exact .inr ⟨within, Parser.expression_refuses writes ends ahead ended fuel within⟩
  · intro _ _ _ _ _ _ _ member writes ahead ended deep
    obtain ⟨none, _, listed⟩ := analyze_refuses member writes ahead ended deep
    exact ⟨none, _, listed, rfl⟩

def signedAssignments : String :=
  String.ofList (List.replicate 250 '-' ++ "(x=x=x=x=x=x=x=x)".toList)

/-- The text is accepted, though a path through it crosses 257 operands and assigned values. -/
theorem signed_assignments_are_accepted : ∃ program,
    (analyze signedAssignments).program = some program ∧
      ∃ s ∈ program.allStatements, ∃ e ∈ s.expressions, nestingLimit < e.nesting 1 1 := by
  have accepted : ((analyze signedAssignments).program.any fun program =>
      program.allStatements.any fun s => s.expressions.any fun e =>
        decide (nestingLimit < e.nesting 1 1)) = true := by
    decide +kernel
  obtain ⟨program, found, deep⟩ := (Option.any_eq_true _ _).mp accepted
  obtain ⟨s, member, deep⟩ := List.any_eq_true.mp deep
  obtain ⟨e, own, deep⟩ := List.any_eq_true.mp deep
  exact ⟨program, found, s, member, e, own, of_decide_eq_true deep⟩

end Stepper
