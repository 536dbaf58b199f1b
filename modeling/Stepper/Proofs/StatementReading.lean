import Stepper.Proofs.Spelling
import Stepper.Proofs.StatementGrammar

/-! # What is written is read -/

namespace Stepper

open List TokenKind Block

variable {kind : TokenKind} {loose : Bool} {ts : List TokenKind} {scope : Scope}
  {statements : List Stmt}

/-! ### What follows -/

namespace TokenKind

def endsStatement (dangling : Bool) (kind : TokenKind) : Bool :=
  kind.endsValue && !(dangling && kind.isKeyword .ELSE)

lemma eq_of_isSeparator (separates : kind.isSeparator) :
    kind = .newline ∨ kind = .punct .semicolon := by
  unfold isSeparator at separates
  split at separates <;> simp_all

lemma eq_of_isKeyword (is : kind.isKeyword word) : kind = .keyword word := by
  cases kind <;> simp_all [isKeyword]

lemma eq_of_isOneOf (among : kind.isOneOf keywords) :
    ∃ word ∈ keywords, kind = .keyword word := by
  cases kind <;> simp_all [isOneOf]

lemma eq_of_isOpener (opens : kind.isOpener) :
    kind = .punct .colon ∨ kind = .keyword .THEN ∨ kind = .keyword .DO := by
  rcases Bool.or_eq_true_iff.mp opens with colon | word
  · cases kind <;> simp_all [isPunct]
  · obtain ⟨_, _, rfl⟩ := eq_of_isOneOf word
    simp_all

lemma eq_of_endsValue (ends : kind.endsValue) : kind = .newline ∨ kind = .punct .semicolon ∨ kind
    = .endOfFile ∨ kind = .keyword .END ∨ kind = .keyword .ELSE ∨ kind = .keyword .ELIF := by
  rcases Bool.or_eq_true_iff.mp ends with line | word
  · rcases Bool.or_eq_true_iff.mp line with separates | final
    · rcases eq_of_isSeparator separates with rfl | rfl <;> simp
    · cases kind <;> simp_all [isEnd]
  · obtain ⟨_, _, rfl⟩ := eq_of_isOneOf word
    simp_all

lemma endsExpression_of_endsValue (ends : kind.endsValue) : kind.endsExpression := by
  rcases eq_of_endsValue ends with rfl | rfl | rfl | rfl | rfl | rfl <;> rfl

lemma endsExpression_of_isOpener (opens : kind.isOpener) : kind.endsExpression := by
  rcases eq_of_isOpener opens with rfl | rfl | rfl <;> rfl

lemma isKeyword_of_opening (other : (keyword word).isOpener = false)
    (opening : kind.isOpener = true ∨ kind.isSeparator = true) : kind.isKeyword word = false := by
  refine Bool.eq_false_iff.mpr fun is => ?_
  obtain rfl := eq_of_isKeyword is
  rcases opening with opens | separates
  · simp [other] at opens
  · cases separates

lemma endsStatement_of_isSeparator (loose) (separates : kind.isSeparator) :
    kind.endsStatement loose := by
  rcases eq_of_isSeparator separates with rfl | rfl <;> cases loose <;> rfl

lemma endsValue_of_ends (ends : kind.endsStatement loose) : kind.endsValue :=
  (Bool.and_eq_true_iff.mp ends).1

lemma endsStatement_false (ends : kind.endsStatement loose) :
    kind.endsStatement false := by
  simpa [endsStatement] using endsValue_of_ends ends

def startsStatement (kind : TokenKind) : Bool :=
  kind.beginsExpression || kind.isOneOf [.LET, .FUNC, .CLASS, .IF, .WHILE, .FOR, .LOOP, .START,
    .RETURN, .PRINT, .BREAK, .CONTINUE]

lemma not_of_starts (starts : kind.startsStatement) : kind.isSeparator = false ∧ kind.isEnd =
    false ∧ kind.isOpener = false ∧ kind.isOneOf [.END, .ELSE, .ELIF] = false := by
  cases kind with
  | keyword word => cases word <;> first | exact ⟨rfl, rfl, rfl, rfl⟩ | cases starts
  | punct sign => cases sign <;> first | exact ⟨rfl, rfl, rfl, rfl⟩ | cases starts
  | _ => first | exact ⟨rfl, rfl, rfl, rfl⟩ | cases starts

lemma endsValue_of_beginsExpression (begins : kind.beginsExpression) :
    kind.endsValue = false := by
  have starts : kind.startsStatement := by simp [startsStatement, begins]
  obtain ⟨separates, final, -, closes⟩ := not_of_starts starts
  simp [endsValue, endsLine, separates, final, closes]

end TokenKind

lemma Writes.begins (writes : Writes ts e) :
    ∃ first others, ts = first :: others ∧ first.beginsExpression = true := by
  obtain ⟨_, _, rfl, -, spells⟩ := writes
  obtain ⟨first, others, rfl, begins⟩ := spells.begins
  exact ⟨first.kind, others.map Token.kind, rfl, begins⟩

lemma WritesItems.begins {items : List Expr} (writes : WritesItems ts items) :
    ∃ first others, ts = first :: others ∧ first.beginsExpression = true := by
  cases writes with
  | last only => exact only.begins
  | more inner =>
    obtain ⟨first, _, rfl, begins⟩ := inner.begins
    exact ⟨first, _, rfl, begins⟩

lemma WritesStmt.begins (writes : WritesStmt scope depth loose ts s) :
    ∃ first others, ts = first :: others ∧ first.startsStatement = true := by
  cases writes with
  | expression value =>
    obtain ⟨first, others, rfl, begins⟩ := value.begins
    exact ⟨first, others, rfl, by simp [startsStatement, begins]⟩
  | _ => exact ⟨_, _, rfl, rfl⟩

lemma IsOpening.begins (opens : IsOpening opening) (separates : separator.isSeparator) (tail) : ∃
    first others, opening ++ separator :: tail = first :: others ∧
    (first.isOpener = true ∨ first.isSeparator = true) := by
  rcases opens with rfl | ⟨kind, rfl, opens⟩
  · exact ⟨separator, tail, rfl, .inr separates⟩
  · exact ⟨kind, separator :: tail, rfl, .inl opens⟩

lemma WritesBody.begins (writes : WritesBody scope depth loose ts body) :
    ∃ first others, ts = first :: others ∧ (first.isOpener = true ∨ first.isSeparator = true) := by
  cases writes with
  | block opens separates => exact opens.begins separates _
  | inline opens => exact ⟨_, _, rfl, .inl opens⟩

lemma TokenKind.endsExpression_of_opening (opening : kind.isOpener = true ∨ kind.isSeparator = true) :
    kind.endsExpression := by
  rcases opening with opens | separates
  · exact endsExpression_of_isOpener opens
  · exact endsExpression_of_endsValue (endsValue_of_ends (endsStatement_of_isSeparator false separates))

lemma WritesLines.begins (writes : WritesLines scope depth loose ts statements)
    (follow) (tail) (plain : follow.isOpener = false) :
    ∃ first others, ts ++ follow :: tail = first :: others ∧ first.isOpener = false := by
  have separator : ∀ kind : TokenKind, kind.isSeparator = true → kind.isOpener = false := by
    intro _ separates
    rcases eq_of_isSeparator separates with rfl | rfl <;> rfl
  have behind : ∀ (breaks us : List TokenKind), (∀ kind ∈ breaks, kind.isSeparator = true) →
      (∃ first others, us = first :: others ∧ first.isOpener = false) →
        ∃ first others, breaks ++ us = first :: others ∧ first.isOpener = false := by
    intro breaks us separate found
    cases breaks with
    | nil => exact found
    | cons first others =>
      exact ⟨first, others ++ us, rfl, separator first (separate first mem_cons_self)⟩
  cases writes with
  | done separate => exact behind _ _ separate ⟨follow, tail, rfl, plain⟩
  | last separate inner | more separate inner _ _ =>
    obtain ⟨first, _, rfl, starts⟩ := inner.begins
    rw [append_assoc]
    exact behind _ _ separate ⟨first, _, rfl, (not_of_starts starts).2.2.1⟩

lemma WritesRest.begins (writes : WritesRest scope depth taken loose ts other) : ∃
    first others, ts = first :: others ∧ first.isOneOf [.END, .ELSE, .ELIF] = true ∧ first.endsStatement
    taken = true := by
  cases writes with
  | done | elif _ => exact ⟨_, _, rfl, rfl, by cases taken <;> rfl⟩
  | elseIf _ | inline _ _ _ | block _ _ _ | unopened _ _ => exact ⟨_, _, rfl, rfl, rfl⟩

lemma bareList_eq_map (statements) : bareList statements = statements.map Stmt.bare := by
  induction statements with
  | nil => rfl
  | cons _ _ ih => rw [bareList, ih, map_cons]

lemma Block.single_bare (same : found.bare = s.bare) :
    (single found).bare = (⟨[s], place⟩ : Block).bare := by
  simp [single, bare, bareList, same]

lemma isMember_of_bare {found block : Block} (same : found.bare = block.bare)
    (members : ∀ mem ∈ block.statements, mem.isMember = true) :
    ∀ mem ∈ found.statements, mem.isMember = true := by
  have lists : found.statements.map Stmt.bare = block.statements.map Stmt.bare := by
    obtain ⟨_, _⟩ := found
    obtain ⟨_, _⟩ := block
    simpa [bare, bareList_eq_map] using same
  intro mem inside
  have listed : mem.bare ∈ block.statements.map Stmt.bare :=
    lists ▸ mem_map_of_mem inside
  obtain ⟨other, there, agree⟩ := mem_map.mp listed
  rw [← Stmt.isMember_bare, ← agree, Stmt.isMember_bare]
  exact members other there

namespace Parser

/-! ### Reading in a scope -/

/-- Whether a reader's counters allow a statement of the scope and the depth. -/
structure Fits (scope : Scope) (depth : Nat) (s : Reading) : Prop where
  expressions : s.expressions = 0
  loops : scope.inLoop = true → s.loops ≠ 0
  functions : scope.inFunction = true → s.functions ≠ 0
  statements : s.statements + depth ≤ nestingLimit

lemma Fits.kept (fits : Fits scope depth s) (kept : s.Kept t)
    : Fits scope depth t where
  expressions := kept.expressions.trans fits.expressions
  loops inside := by rw [kept.loops]; exact fits.loops inside
  functions inside := by rw [kept.functions]; exact fits.functions inside
  statements := by rw [kept.statements]; exact fits.statements

def ReadsIn {α : Type} (read : Nat → Parser α) (rank : Nat) (scope : Scope) (depth : Nat)
    (dangling : Bool) (ts : List TokenKind) (wanted : α → Prop) : Prop :=
  ∀ (n : Nat) (s : Reading) (follow : TokenKind) (tail : List TokenKind),
    s.kinds = ts ++ follow :: tail → follow.endsStatement dangling = true → Fits scope depth s →
      16 * ts.length + rank ≤ n → Yields (read n) s (follow :: tail) wanted

def ReadsStmt (scope : Scope) (depth : Nat) (dangling : Bool) (ts : List TokenKind) (s : Stmt) :
    Prop :=
  ReadsIn statement 14 scope depth dangling ts (·.bare = s.bare)

def ReadsKeyword (scope : Scope) (depth : Nat) (dangling : Bool) (ts : List TokenKind) (s : Stmt) :
    Prop :=
  ReadsIn statementByKeyword 13 scope depth dangling ts (·.bare = s.bare)

def ReadsBody (scope : Scope) (depth : Nat) (dangling : Bool) (ts : List TokenKind) (block : Block) :
    Prop :=
  ∀ header start, ReadsIn (body · header start) 1 scope depth dangling ts (·.bare = block.bare)

def ReadsBranch (scope : Scope) (depth : Nat) (dangling : Bool) (ts : List TokenKind) (s : Stmt) :
    Prop :=
  ∀ start, ReadsIn (branch · start) 13 scope depth dangling ts (·.bare = s.bare)

def ReadsElse (scope : Scope) (depth : Nat) (dangling : Bool) (ts : List TokenKind) (block : Block) :
    Prop :=
  ReadsIn inlineElse 1 scope depth dangling (.keyword .ELSE :: ts) (bareOption · = some block.bare)

def ReadsRest (scope : Scope) (depth : Nat) (dangling : Bool) (ts : List TokenKind)
    (other : Option Block) : Prop :=
  ∀ start, ReadsIn (blockElse · start) 1 scope depth dangling ts (bareOption · = bareOption other)

def ReadsLines (scope : Scope) (depth : Nat) (dangling : Bool) (ts : List TokenKind)
    (statements : List Stmt) : Prop :=
  ∀ (n : Nat) (terminators : List Keyword) (before : Preceding) (s : Reading) (follow : TokenKind)
    (tail : List TokenKind), terminators ⊆ [.END, .ELSE, .ELIF] → s.kinds = ts ++ follow :: tail →
      (follow.isEnd || follow.isOneOf terminators) = true → follow.endsStatement dangling = true →
        Fits scope depth s → 16 * ts.length + 15 ≤ n →
          Yields (Parser.statements n terminators before) s (follow :: tail)
            (bareList · = bareList statements)

variable {scope : Scope} {depth n : Nat} {loose : Bool} {ts : List TokenKind} {s : Reading}
  {follow : TokenKind} {tail : List TokenKind}

lemma update_bind (same : change s = s) (next : Yields (f ()) s rest wanted) :
    Yields (update change >>= f) s rest wanted := by
  refine next.of_eq ?_ (.refl s)
  change f () (change s) = _
  rw [same]

lemma warnIf_bind {condition : Bool} {location : Location} {wanted : α → Prop} {here : List TokenKind}
    (ahead : s.kinds = here) (next : ∀ t, s.Kept t → t.kinds = here → Yields (f ()) t rest wanted) :
    Yields (if condition then warn problem location >>= f else f ()) s rest wanted := by
  split
  · exact (warn_yields ahead).bind fun _ t kept ahead _ => next t kept ahead
  · exact next s (.refl s) ahead

lemma expression_yields (writes : Writes ts e) (ahead : s.kinds = ts ++ follow :: tail)
    (ends : follow.endsExpression) (closed : s.expressions = 0)
    (fuel : 16 * ts.length + 12 ≤ n) :
    Yields (expression embedTemplate n) s (follow :: tail) (·.bare = e.bare) := by
  obtain ⟨_, _, rfl, same, spells⟩ := writes
  rw [← same]
  exact spells.reads embedTemplate_isUniform trivial False n s follow tail ahead ends
    (.inl (by rw [closed]; exact Nat.le_of_eq (Nat.zero_add _))) fuel

lemma items_yields {items : List Expr} (writes : WritesItems ts items)
    (ahead : s.kinds = ts ++ follow :: tail) (ends : follow.endsValue)
    (closed : s.expressions = 0) (fuel : 16 * ts.length + 13 ≤ n) : Yields (itemsFrom embedTemplate n) s
    (follow :: tail) (relocateAll {} · = relocateAll {} items) := by
  induction writes generalizing n s with
  | last only =>
    obtain _ | n := n
    · omega
    rw [itemsFrom]
    refine (expression_yields only ahead (endsExpression_of_endsValue ends) closed
      (by omega)).bind fun value t _ ahead bare => ?_
    have last : follow.isPunct .comma = false := by
      rcases eq_of_endsValue ends with rfl | rfl | rfl | rfl | rfl | rfl <;> rfl
    exact reject_bind ahead last (.pure ahead (congrArg (fun item => [item]) bare))
  | @more _ _ _ _ first _ ih =>
    simp only [append_assoc, cons_append, length_append, length_cons] at ahead fuel
    obtain _ | n := n
    · omega
    rw [itemsFrom]
    refine (expression_yields first ahead rfl closed (by omega)).bind fun value t kept ahead bare => ?_
    refine (accept_yields _ ahead (by simp) rfl).bind ?_
    rintro _ _ taken ahead rfl
    refine (ih ahead ((kept.trans taken).expressions.trans closed) (by omega)).bind
      fun _ _ _ ahead same => ?_
    refine .pure ahead ?_
    rw [relocateAll, relocateAll, same]
    exact congrArg (· :: _) bare

/-! ### Parts of statements -/

lemma headerValue_yields (writes : Writes ts e) (ahead : s.kinds = ts ++ follow :: tail)
    (ends : follow.endsExpression) (closed : s.expressions = 0)
    (fuel : 16 * ts.length + 12 ≤ n) : Yields (headerValue n) s (follow :: tail) (·.bare = e.bare) := by
  obtain ⟨first, others, same⟩ : ∃ first others, s.kinds = first :: others := by
    obtain ⟨first, _, rfl, -⟩ := writes.begins
    exact ⟨first, _, ahead⟩
  refine look_bind same fun _ _ => ?_
  refine (attempt_yields (expression_yields writes ahead ends closed fuel)).bind ?_
  rintro _ _ _ ahead ⟨_, rfl, bare⟩
  exact .pure ahead bare

lemma opener_yields_block (opens : IsOpening opening) (separates : separator.isSeparator)
    (ahead : s.kinds = opening ++ separator :: tail) :
    Yields (opener header) s (separator :: tail) (· = false) := by
  have line : separator.endsLine := by simp [endsLine, separates]
  rcases opens with rfl | ⟨kind, rfl, opens⟩
  · have none : separator.isOpener = false := by
      rcases eq_of_isSeparator separates with rfl | rfl <;> rfl
    refine reject_bind ahead none (at_bind ahead ?_)
    rw [line]
    exact .pure ahead rfl
  · refine (accept_yields _ ahead (by simp) opens).bind ?_
    rintro _ _ _ ahead rfl
    refine at_bind ahead ?_
    rw [line]
    exact .pure ahead rfl

lemma opener_yields_inline {opening first : TokenKind} (opens : opening.isOpener)
    (starts : first.startsStatement) (ahead : s.kinds = opening :: first :: tail) :
    Yields (opener header) s (first :: tail) (· = true) := by
  refine (accept_yields _ ahead (by simp) opens).bind ?_
  rintro _ _ _ ahead rfl
  obtain ⟨separates, final, -⟩ := not_of_starts starts
  refine at_bind ahead ?_
  rw [endsLine, separates, final]
  exact .pure ahead rfl

lemma closeBlock_yields (ahead : s.kinds = .keyword .END :: tail) (more : tail ≠ []) :
    Yields (closeBlock opened) s tail fun _ => True := by
  refine (accept_yields _ ahead more rfl).bind ?_
  rintro _ _ _ ahead rfl
  exact .pure ahead trivial

lemma acceptColon_yields (colons : IsColon colon) (ahead : s.kinds = colon ++ follow :: tail)
    (plain : follow.isOpener = false) :
    Yields (accept (isPunct .colon)) s (follow :: tail) fun _ => True := by
  rcases colons with rfl | rfl
  · have other : follow.isPunct .colon = false := (Bool.or_eq_false_iff.mp plain).1
    refine .inl ⟨false, s, ?_, .refl s, ahead, trivial⟩
    rw [accept, Reading.peek_kind ahead, other]
    rfl
  · exact (accept_yields _ ahead (by simp) rfl).mono fun _ _ => trivial

lemma paramsFrom_yields (ahead : s.kinds = paramTokens (name :: names) ++ .punct .closeParen :: tail)
    (fuel : names.length < n) :
    Yields (paramsFrom n) s (.punct .closeParen :: tail) (· = name :: names) := by
  induction names generalizing name n s with
  | nil =>
    obtain _ | n := n
    · omega
    refine (expectName_yields _ ahead (by simp)).bind fun found t _ ahead same => ?_
    subst found
    exact reject_bind ahead rfl (.pure ahead rfl)
  | cons _ _ ih =>
    obtain _ | n := n
    · omega
    refine (expectName_yields _ ahead (by simp)).bind fun found t _ ahead same => ?_
    subst found
    refine (accept_yields _ ahead (by simp) rfl).bind fun more _ _ ahead same => ?_
    subst more
    refine (ih ahead (by simpa using fuel)).bind fun others _ _ ahead same => ?_
    subst others
    exact .pure ahead rfl

lemma params_yields (ahead : s.kinds = paramTokens names ++ .punct .closeParen :: tail)
    (fuel : names.length ≤ n) : Yields (params n) s (.punct .closeParen :: tail) (· = names) := by
  cases names with
  | nil => exact at_bind ahead (.pure ahead rfl)
  | cons name names =>
    obtain ⟨others, same⟩ : ∃ others, s.kinds = .identifier name :: others := by
      cases names <;> exact ⟨_, ahead⟩
    exact at_bind same (paramsFrom_yields ahead fuel)

lemma paramTokens_length (names) : names.length ≤ (paramTokens names).length := by
  induction names with
  | nil => exact Nat.le_refl _
  | cons _ names ih =>
    cases names with
    | nil => exact Nat.le_refl _
    | cons =>
      simp only [paramTokens, length_cons] at ih ⊢
      omega

lemma typeHint_yields (ahead : s.kinds = hintTokens hint ++ follow :: tail)
    (plain : follow.isPunct .colon = false) :
    YieldsUnless deep typeHint s (follow :: tail) (· = hint) := by
  cases hint with
  | none => exact reject_bind ahead plain (.pure ahead rfl)
  | some =>
    refine (accept_yields _ ahead (by simp) rfl).bind ?_
    rintro _ _ _ ahead rfl
    refine (expectName_yields _ ahead (by simp)).bind fun found _ _ ahead _ => ?_
    subst found
    exact .pure ahead rfl

lemma superclass_yields (ahead : s.kinds = superTokens name ++ follow :: tail)
    (plain : follow.isKeyword .EXTENDS = false) : Yields superclass s (follow :: tail) (· = name) := by
  cases name with
  | none => exact reject_bind ahead plain (.pure ahead rfl)
  | some =>
    refine (accept_yields _ ahead (by simp) rfl).bind ?_
    rintro _ _ _ ahead rfl
    refine look_bind ahead fun _ _ => ?_
    refine (expectName_yields _ ahead (by simp)).bind fun found _ _ ahead _ => ?_
    subst found
    exact (warn_yields ahead).bind fun _ _ _ ahead _ => .pure ahead rfl

lemma checkMembers_bind (legal : ∀ mem ∈ members, mem.isMember = true)
    (next : Yields (f ()) s rest wanted) : Yields (checkMembers members >>= f) s rest wanted := by
  have none : (members.filter fun mem => !isClassMember mem) = [] :=
    filter_eq_nil_iff.mpr fun mem inside => by simp [isClassMember_eq, legal mem inside]
  exact update_bind (by rw [none]; rfl) next

/-! ### Simple statements -/

lemma ReadsKeyword.statement (reads : ReadsKeyword scope depth loose ts stmt) :
    ReadsStmt scope (depth + 1) loose ts stmt := by
  intro n _ follow tail ahead ends fits _
  obtain _ | n := n
  · omega
  have room := fits.statements
  rw [Parser.statement]
  refine insideStatement_yields (by omega) ?_
  refine reads n _ follow tail ahead ends ⟨fits.expressions, fits.loops, fits.functions, ?_⟩ (by omega)
  simp only
  omega

lemma reads_declare (given : WritesOption (.operator .assign) ts value) : ReadsKeyword scope depth false
    (.keyword .LET :: .identifier name :: (hintTokens hint ++ ts))
    (.declare name hint value place) := by
  intro n _ follow _ ahead ends fits fuel
  simp only [cons_append, append_assoc, length_cons, length_append] at ahead fuel
  obtain _ | n := n
  · omega
  have plain := endsValue_of_ends ends
  rw [statementByKeyword]
  refine look_bind ahead fun _ same => ?_
  simp only [same]
  refine (next_yields ahead (by simp)).bind fun _ _ kept ahead _ => ?_
  refine (expectName_yields _ ahead (by simp)).bind fun found _ named ahead same => ?_
  subst found
  cases given with
  | none =>
    have other : follow.isPunct .colon = false ∧ follow.isOperator .assign = false := by
      rcases eq_of_endsValue plain with rfl | rfl | rfl | rfl | rfl | rfl <;> exact ⟨rfl, rfl⟩
    refine (typeHint_yields ahead other.1).bind fun found v _ ahead same => ?_
    subst found
    exact reject_bind ahead other.2 (spanSince_bind fun _ => .pure ahead rfl)
  | some value =>
    refine (typeHint_yields ahead rfl).bind fun found v hinted ahead same => ?_
    subst found
    refine (accept_yields _ ahead (by simp) rfl).bind ?_
    rintro _ _ taken ahead rfl
    have now := fits.kept (((kept.trans named).trans hinted).trans taken)
    simp only [length_cons] at fuel
    refine (expression_yields value ahead (endsExpression_of_endsValue plain)
      now.expressions (by omega)).bind fun found _ _ ahead bare => ?_
    exact spanSince_bind fun _ => .pure ahead (by simp [Stmt.bare, bare])

lemma reads_giveBack (inside : scope.inFunction) :
    ReadsKeyword scope depth false [.keyword .RETURN] (.giveBack none place) := by
  intro n _ _ _ ahead ends fits _
  obtain _ | n := n
  · omega
  rw [statementByKeyword]
  refine look_bind ahead fun _ same => ?_
  simp only [same]
  refine (next_yields ahead (by simp)).bind fun _ _ kept ahead _ => ?_
  refine update_bind (if_neg ((fits.kept kept).functions inside)) ?_
  refine at_bind ahead ?_
  rw [endsValue_of_ends ends]
  exact spanSince_bind fun _ => .pure ahead rfl

lemma reads_giveBackValue (inside : scope.inFunction) (value : Writes ts e) :
    ReadsKeyword scope depth false (.keyword .RETURN :: ts) (.giveBack (some e) place) := by
  intro n _ follow tail ahead ends fits fuel
  rw [cons_append] at ahead
  rw [length_cons] at fuel
  obtain _ | n := n
  · omega
  rw [statementByKeyword]
  refine look_bind ahead fun _ same => ?_
  simp only [same]
  refine (next_yields ahead (by simp)).bind fun _ t kept ahead _ => ?_
  refine update_bind (if_neg ((fits.kept kept).functions inside)) ?_
  obtain ⟨first, others, begun, begins⟩ := value.begins
  have first : t.kinds = first :: (others ++ follow :: tail) := by rw [ahead, begun]; rfl
  refine at_bind first ?_
  rw [endsValue_of_beginsExpression begins]
  refine (expression_yields value ahead
    (endsExpression_of_endsValue (endsValue_of_ends ends))
    (fits.kept kept).expressions (by omega)).bind fun _ _ _ ahead bare => ?_
  exact spanSince_bind fun _ => .pure ahead (by simp [Stmt.bare, bare])

lemma reads_printNothing : ReadsKeyword scope depth false [.keyword .PRINT] (.print [] place) := by
  intro n _ _ _ ahead ends _ _
  obtain _ | n := n
  · omega
  rw [statementByKeyword]
  refine look_bind ahead fun _ same => ?_
  simp only [same]
  refine (next_yields ahead (by simp)).bind fun _ _ _ ahead _ => ?_
  refine at_bind ahead ?_
  rw [endsValue_of_ends ends]
  exact spanSince_bind fun _ => .pure ahead rfl

lemma reads_print (given : WritesItems ts args) :
    ReadsKeyword scope depth false (.keyword .PRINT :: ts) (.print args place) := by
  intro n _ follow tail ahead ends fits fuel
  rw [cons_append] at ahead
  rw [length_cons] at fuel
  obtain _ | n := n
  · omega
  rw [statementByKeyword]
  refine look_bind ahead fun _ same => ?_
  simp only [same]
  refine (next_yields ahead (by simp)).bind fun _ t kept ahead _ => ?_
  obtain ⟨first, others, begun, begins⟩ := given.begins
  have first : t.kinds = first :: (others ++ follow :: tail) := by rw [ahead, begun]; rfl
  refine at_bind first ?_
  rw [endsValue_of_beginsExpression begins]
  refine (items_yields given ahead (endsValue_of_ends ends)
    (fits.kept kept).expressions (by omega)).bind fun _ _ _ ahead bare => ?_
  exact spanSince_bind fun _ => .pure ahead (by simp [Stmt.bare, bare])

lemma reads_loopControl {make : Location → Stmt} (controls : (word = .BREAK ∧ make = .leaveLoop) ∨ (word
      = .CONTINUE ∧ make = .nextIteration)) (inside : scope.inLoop) :
    ReadsKeyword scope depth false [.keyword word] (make place) := by
  intro n _ _ _ ahead _ fits _
  obtain _ | n := n
  · omega
  rw [statementByKeyword]
  refine look_bind ahead fun _ same => ?_
  rcases controls with ⟨rfl, rfl⟩ | ⟨rfl, rfl⟩
  all_goals
    simp only [same]
    refine (next_yields ahead (by simp)).bind fun _ _ kept ahead _ => ?_
    exact update_bind (if_neg ((fits.kept kept).loops inside)) (.pure ahead rfl)

lemma reads_expressionStatement (value : Writes ts e) :
    ReadsKeyword scope depth false ts (.expression e place) := by
  intro n s follow tail ahead ends fits _
  obtain _ | n := n
  · omega
  have reads : Yields (expressionStatement n) s (follow :: tail)
      (·.bare = (Stmt.expression e place).bare) := by
    refine (expression_yields value ahead
      (endsExpression_of_endsValue (endsValue_of_ends ends))
      fits.expressions (by omega)).bind fun _ _ _ ahead bare => ?_
    exact .pure ahead (by simp [Stmt.bare, bare])
  obtain ⟨first, others, begun, begins⟩ := value.begins
  have first : s.kinds = first :: (others ++ follow :: tail) := by rw [ahead, begun]; rfl
  rw [statementByKeyword]
  refine look_bind first fun _ same => ?_
  rw [same]
  -- No keyword of a statement begins an expression.
  split <;> first | exact reads | cases begins

/-! ### Lists of statements -/

lemma readsLines_done (separate : ∀ kind ∈ breaks, kind.isSeparator = true) :
    ReadsLines scope depth false breaks [] := by
  intro n _ _ _ follow _ _ ahead stops _ _ _
  obtain _ | n := n
  · omega
  have solid : follow.isSeparator = false := by
    rcases Bool.or_eq_true_iff.mp stops with final | word
    · cases follow <;> first | rfl | cases final
    · obtain ⟨_, -, rfl⟩ := eq_of_isOneOf word
      rfl
  rw [statements]
  refine (skipBreaks_yields ahead separate solid).bind fun _ _ _ ahead _ => ?_
  refine at_bind ahead ?_
  rw [stops]
  exact .pure ahead rfl

lemma statements_step {others : List Stmt} {before : Preceding} {next : TokenKind}
    (separate : ∀ kind ∈ breaks, kind.isSeparator = true) (first : WritesStmt scope depth taken ts stmt)
    (reads : ReadsStmt scope depth taken ts stmt) (closers : terminators ⊆ [.END, .ELSE, .ELIF])
    (ahead : s.kinds = breaks ++ (ts ++ next :: tail)) (ends : next.endsStatement taken)
    (stops : next.endsLine || next.isOneOf terminators) (fits : Fits scope depth s)
    (fuel : 16 * ts.length + 14 ≤ n) (onward : ∀ t before, s.Kept t → t.kinds = next :: tail → Yields
      (Parser.statements n terminators before) t rest (bareList · = bareList others)) : Yields
    (Parser.statements (n + 1) terminators before) s rest (bareList · = bareList (stmt :: others)) := by
  obtain ⟨head, more, begun, starts⟩ := first.begins
  obtain ⟨separates, final, -, opens⟩ := not_of_starts starts
  have inner : head.isOneOf terminators = false := by
    refine Bool.eq_false_iff.mpr fun among => ?_
    obtain ⟨_, mem, rfl⟩ := eq_of_isOneOf among
    have closes := closers mem
    simp [isOneOf] at opens closes
    rcases closes with rfl | rfl | rfl <;> simp_all
  rw [statements]
  have there : s.kinds = breaks ++ head :: (more ++ next :: tail) := by rw [ahead, begun]; rfl
  refine (skipBreaks_yields there separate separates).bind fun _ t skipped there _ => ?_
  refine at_bind there ?_
  rw [final, inner]
  refine tokensLeft_bind fun _ => ?_
  have ahead : t.kinds = ts ++ next :: tail := by rw [there, begun]; rfl
  refine (attempt_yields (reads n t next tail ahead ends (fits.kept skipped) fuel)).bind ?_
  rintro _ _ kept ahead ⟨_, rfl, bare⟩
  refine warnIf_bind ahead fun v warned ahead => ?_
  refine at_bind ahead ?_
  rw [stops]
  refine (onward v _ ((skipped.trans kept).trans warned) ahead).bind fun _ _ _ ahead same => ?_
  exact .pure ahead (by rw [bareList, bareList, bare, same])

lemma readsLines_last (separate : ∀ kind ∈ breaks, kind.isSeparator = true)
    (only : WritesStmt scope depth loose ts stmt) (reads : ReadsStmt scope depth loose ts stmt) :
    ReadsLines scope depth loose (breaks ++ ts) [stmt] := by
  intro n terminators before _ follow tail closers ahead stops ends fits fuel
  rw [append_assoc] at ahead
  rw [length_append] at fuel
  obtain _ | n := n
  · omega
  have some : 0 < ts.length := by
    obtain ⟨_, _, rfl, -⟩ := only.begins
    exact Nat.succ_pos _
  have nothing : ReadsLines scope depth false [] [] := readsLines_done (by simp)
  have line : follow.endsLine || follow.isOneOf terminators := by
    rcases Bool.or_eq_true_iff.mp stops with final | word
    · simp [endsLine, final]
    · simp [word]
  refine statements_step separate only reads closers ahead ends line fits (by omega)
    fun t before kept ahead => ?_
  exact nothing n terminators before t follow tail closers ahead stops
    (endsStatement_false ends) (fits.kept kept) (by rw [length_nil]; omega)

lemma readsLines_more (separate : ∀ kind ∈ breaks, kind.isSeparator = true)
    (first : WritesStmt scope depth taken ts stmt) (reads : ReadsStmt scope depth taken ts stmt)
    (separates : separator.isSeparator)
    (behind : ReadsLines scope depth loose (separator :: us) others) :
    ReadsLines scope depth loose (breaks ++ (ts ++ separator :: us)) (stmt :: others) := by
  intro n terminators before _ follow tail closers ahead stops ends fits fuel
  simp only [append_assoc, cons_append] at ahead
  simp only [length_append, length_cons] at fuel
  obtain _ | n := n
  · omega
  have some : 0 < ts.length := by
    obtain ⟨_, _, rfl, -⟩ := first.begins
    exact Nat.succ_pos _
  refine statements_step separate first reads closers ahead
    (endsStatement_of_isSeparator taken separates)
    (by simp [endsLine, separates]) fits (by omega) fun t before kept ahead => ?_
  exact behind n terminators before t follow tail closers ahead stops ends (fits.kept kept)
    (by simp only [length_cons]; omega)

lemma ReadsLines.closed {f : List Stmt → Parser α}
    (lines : ReadsLines scope depth loose ts statements)
    (ahead : s.kinds = ts ++ .keyword .END :: tail) (more : tail ≠ []) (fits : Fits scope depth s)
    (fuel : 16 * ts.length + 15 ≤ n) (next : ∀ found t, s.Kept t → t.kinds = tail → bareList found =
      bareList statements → Yields (f found) t rest wanted) : Yields
    (Parser.statements n [.END] {} >>= fun found => closeBlock opened >>= fun _ => f found) s rest
    wanted := by
  refine (lines n [.END] {} s _ tail (by simp) ahead rfl (by cases loose <;> rfl) fits fuel).bind
    fun found t kept ahead same => ?_
  exact (closeBlock_yields ahead more).bind fun _ u closed ahead _ =>
    next found u (kept.trans closed) ahead same

lemma readsBody_block (opens : IsOpening opening) (separates : separator.isSeparator = true)
    (lines : ReadsLines scope depth loose (separator :: ts) statements) : ReadsBody scope depth false
    (opening ++ separator :: (ts ++ [.keyword .END])) ⟨statements, place⟩ := by
  intro header start n s _ _ ahead _ fits fuel
  simp only [append_assoc, cons_append, length_append, length_cons, length_nil] at ahead fuel
  obtain _ | n := n
  · omega
  change Yields (body (n + 1) header start) s _ _
  rw [body]
  refine (opener_yields_block opens separates ahead).bind ?_
  rintro _ _ kept ahead rfl
  refine look_bind ahead fun _ _ => ?_
  refine lines.closed ahead (by simp) (fits.kept kept) (by simp only [length_cons]; omega)
    fun _ _ _ ahead same => ?_
  exact .pure ahead (by rw [bare, bare, same])

lemma readsBody_inline {opening : TokenKind} (opens : opening.isOpener)
    (only : WritesStmt scope depth loose ts stmt) (reads : ReadsStmt scope depth loose ts stmt) :
    ReadsBody scope depth loose (opening :: ts) ⟨[stmt], place⟩ := by
  intro header start n s follow tail ahead ends fits fuel
  rw [length_cons] at fuel
  obtain _ | n := n
  · omega
  obtain ⟨first, others, begun, starts⟩ := only.begins
  have there : s.kinds = opening :: first :: (others ++ follow :: tail) := by rw [ahead, begun]; rfl
  change Yields (body (n + 1) header start) s _ _
  rw [body]
  refine (opener_yields_inline opens starts there).bind ?_
  rintro _ t kept there rfl
  have ahead : t.kinds = ts ++ follow :: tail := by rw [there, begun]; rfl
  refine look_bind there fun _ _ => ?_
  refine (attempt_yields (reads n t follow tail ahead ends (fits.kept kept) (by omega))).bind ?_
  rintro _ _ _ ahead ⟨_, rfl, bare⟩
  exact .pure ahead (single_bare bare)

lemma ReadsBody.looped (reads : ReadsBody scope.loop depth loose ts block)
    (ahead : s.kinds = ts ++ follow :: tail) (ends : follow.endsStatement loose)
    (fits : Fits scope depth s) (fuel : 16 * ts.length + 1 ≤ n) :
    Yields (insideLoop (body n header start)) s (follow :: tail) (·.bare = block.bare) := by
  refine insideLoop_yields (reads header start n _ follow tail ahead ends ?_ fuel)
  exact ⟨fits.expressions, fun _ => Nat.succ_ne_zero _, fits.functions, fits.statements⟩

end Parser

end Stepper
