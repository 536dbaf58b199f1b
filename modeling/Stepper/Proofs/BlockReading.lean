import Stepper.Proofs.StatementReading

/-! # What is written with bodies is read -/

namespace Stepper

open List TokenKind

namespace Parser
variable {statements : List Stmt}

variable
  {tail : List TokenKind}

/-! ### Declarations and loops -/

lemma reads_function {params : List String} (inner : ReadsBody .function depth loose ts block) :
    ReadsKeyword scope depth loose (.keyword .FUNC :: .identifier name :: .punct .openParen ::
      (paramTokens params ++ .punct .closeParen :: ts))
    (.function ⟨name, params, block, place, unit⟩ outer) := by
  intro n _ follow tail ahead ends fits fuel
  have short := paramTokens_length params
  simp only [append_assoc, cons_append, length_append, length_cons] at ahead fuel
  obtain _ | _ | n := n
  · omega
  · omega
  rw [statementByKeyword]
  refine look_bind ahead fun _ same => ?_
  simp only [same]
  rw [function]
  refine (next_yields ahead (by simp)).bind fun start _ first ahead _ => ?_
  refine (expectName_yields _ ahead (by simp)).bind fun found _ second ahead same => ?_
  subst found
  refine (expect_yields _ _ ahead (by simp) rfl).bind fun _ _ third ahead _ => ?_
  refine (params_yields ahead (by omega)).bind fun found _ fourth ahead same => ?_
  subst found
  refine (expect_yields _ _ ahead (by simp) rfl).bind fun _ x fifth ahead _ => ?_
  have fits := fits.kept ((((first.trans second).trans third).trans fourth).trans fifth)
  have within : Yields (insideFunction (body n .function start)) x (follow :: tail)
      (·.bare = block.bare) := by
    refine insideFunction_yields (inner .function start n _ follow tail ahead ends ?_ (by omega))
    exact ⟨fits.expressions, by rintro ⟨⟩, fun _ => Nat.succ_ne_zero _, fits.statements⟩
  refine within.bind fun found _ _ ahead bare => ?_
  refine spanSince_bind fun _ => currentUnit_bind fun unit => .pure ahead ?_
  simp [Stmt.bare, FunctionDecl.bare, bare]

lemma reads_classDef {superclass : Option String} (writes : WritesBody scope depth loose ts block)
    (inner : ReadsBody scope depth loose ts block)
    (members : ∀ mem ∈ block.statements, mem.isMember = true) : ReadsKeyword scope depth
    loose (.keyword .CLASS :: .identifier name :: (superTokens superclass ++ ts))
    (.classDef ⟨name, superclass, block, place, unit⟩ outer) := by
  intro n _ follow tail ahead ends fits fuel
  simp only [append_assoc, cons_append, length_append, length_cons] at ahead fuel
  obtain _ | _ | n := n
  · omega
  · omega
  rw [statementByKeyword]
  refine look_bind ahead fun _ same => ?_
  simp only [same]
  rw [classDef]
  refine (next_yields ahead (by simp)).bind fun start _ first ahead _ => ?_
  refine (expectName_yields _ ahead (by simp)).bind fun found _ second ahead same => ?_
  subst found
  obtain ⟨head, others, begun, opening⟩ := writes.begins
  have plain : head.isKeyword .EXTENDS = false := isKeyword_of_opening rfl opening
  have follows : ts ++ follow :: tail = head :: (others ++ follow :: tail) := by rw [begun]; rfl
  rw [follows] at ahead
  refine (superclass_yields ahead plain).bind fun found v third ahead same => ?_
  subst found
  rw [← follows] at ahead
  refine (inner .classDef start n v follow tail ahead ends
    (fits.kept ((first.trans second).trans third)) (by omega)).bind fun found _ _ ahead bare => ?_
  have legal : ∀ mem ∈ found.statements, mem.isMember = true :=
    isMember_of_bare bare members
  refine checkMembers_bind legal ?_
  refine spanSince_bind fun _ => currentUnit_bind fun unit => .pure ahead ?_
  simp [Stmt.bare, ClassDecl.bare, bare]

lemma reads_whileLoop (tested : Writes ts condition)
    (writes : WritesBody scope.loop depth loose us block)
    (inner : ReadsBody scope.loop depth loose us block) : ReadsKeyword scope depth loose
    (.keyword .WHILE :: (ts ++ us)) (.whileLoop condition block place) := by
  intro n _ follow tail ahead ends fits fuel
  simp only [append_assoc, cons_append, length_append, length_cons] at ahead fuel
  obtain _ | _ | n := n
  · omega
  · omega
  rw [statementByKeyword]
  refine look_bind ahead fun _ same => ?_
  simp only [same]
  rw [whileLoop]
  refine (next_yields ahead (by simp)).bind fun _ _ first ahead _ => ?_
  obtain ⟨head, others, begun, opening⟩ := writes.begins
  have follows : us ++ follow :: tail = head :: (others ++ follow :: tail) := by rw [begun]; rfl
  rw [follows] at ahead
  refine (headerValue_yields tested ahead (endsExpression_of_opening opening)
    (fits.kept first).expressions (by omega)).bind fun _ _ second ahead bare => ?_
  rw [← follows] at ahead
  refine (inner.looped ahead ends (fits.kept (first.trans second)) (by omega)).bind
    fun _ _ _ ahead same => ?_
  exact spanSince_bind fun _ => .pure ahead (by simp [Stmt.bare, bare, same])

lemma rangeStep_yields (counts : WritesOption (.keyword .STEP) ts step)
    (ahead : s.kinds = ts ++ follow :: tail)
    (opening : follow.isOpener = true ∨ follow.isSeparator = true) (closed : s.expressions = 0)
    (fuel : 16 * ts.length + 1 ≤ n) :
    Yields (rangeStep n) s (follow :: tail) (Option.map Expr.bare · = step.map Expr.bare) := by
  obtain _ | n := n
  · omega
  rw [rangeStep]
  cases counts with
  | none =>
    exact reject_bind ahead (isKeyword_of_opening rfl opening) (.pure ahead rfl)
  | some value =>
    rw [length_cons] at fuel
    refine (accept_yields _ ahead (by simp) rfl).bind ?_
    rintro _ _ taken ahead rfl
    refine (expression_yields value ahead (endsExpression_of_opening opening)
      (taken.expressions.trans closed) (by omega)).bind fun _ _ _ ahead bare => ?_
    exact .pure ahead (congrArg some bare)

lemma rangeStep_begins (tail) (counts : WritesOption (.keyword .STEP) ts step)
    (opening : follow.isOpener = true ∨ follow.isSeparator = true) :
    ∃ first others, ts ++ follow :: tail = first :: others ∧ first.endsExpression = true := by
  cases counts with
  | none => exact ⟨follow, tail, rfl, endsExpression_of_opening opening⟩
  | some => exact ⟨_, _, rfl, rfl⟩

lemma reads_forRange (starts : Writes ts first) (stops : Writes us last)
    (counts : WritesOption (.keyword .STEP) vs step)
    (writes : WritesBody scope.loop depth loose ws block)
    (inner : ReadsBody scope.loop depth loose ws block) : ReadsKeyword scope depth loose (.keyword
      .FOR :: .identifier var :: .operator .assign :: (ts ++ .keyword .TO :: (us ++ (vs ++ ws))))
    (.forRange var first last step block place) := by
  intro n _ follow tail ahead ends fits fuel
  simp only [append_assoc, cons_append, length_append, length_cons] at ahead fuel
  obtain _ | _ | n := n
  · omega
  · omega
  rw [statementByKeyword]
  refine look_bind ahead fun _ same => ?_
  simp only [same]
  rw [forRange]
  refine (next_yields ahead (by simp)).bind fun _ t kept ahead _ => ?_
  refine (expectName_yields _ ahead (by simp)).bind fun found u named ahead same => ?_
  subst found
  replace kept := kept.trans named
  refine (expect_yields _ _ ahead (by simp) rfl).bind fun _ t taken ahead _ => ?_
  replace kept := kept.trans taken
  refine (expression_yields starts ahead rfl (fits.kept kept).expressions (by omega)).bind
    fun _ u read ahead lowBare => ?_
  replace kept := kept.trans read
  refine (expect_yields _ _ ahead (by simp) rfl).bind fun _ t taken ahead _ => ?_
  replace kept := kept.trans taken
  obtain ⟨head, others, begun, opening⟩ := writes.begins
  have follows : ws ++ follow :: tail = head :: (others ++ follow :: tail) := by rw [begun]; rfl
  rw [follows] at ahead
  obtain ⟨_, _, same, ending⟩ := rangeStep_begins (others ++ follow :: tail) counts opening
  rw [same] at ahead
  refine (expression_yields stops ahead ending (fits.kept kept).expressions (by omega)).bind
    fun _ u read ahead highBare => ?_
  replace kept := kept.trans read
  rw [← same] at ahead
  refine (rangeStep_yields counts ahead opening (fits.kept kept).expressions (by omega)).bind
    fun found t read ahead stepBare => ?_
  replace kept := kept.trans read
  rw [← follows] at ahead
  refine (inner.looped ahead ends (fits.kept kept) (by omega)).bind fun _ _ _ ahead same => ?_
  exact spanSince_bind fun _ => .pure ahead (by simp [Stmt.bare, lowBare, highBare, stepBare, same])

lemma loopStart_none (ahead : s.kinds = rest) (unnamed : startsAssignment rest = false) :
    Yields (loopStart n) s rest (· = (none, none)) := by
  refine .inl ⟨(none, none), s, ?_, .refl s, ahead, rfl⟩
  unfold loopStart
  split
  · next _ _ =>
    subst rest
    obtain ⟨left, _⟩ := s
    match left with
    | [] => simp_all [Reading.peek, Reading.peekSecond]
    | [_] | _ :: _ :: _ =>
      simp_all [Reading.peek, Reading.peekSecond, Reading.kinds, startsAssignment]
  · rfl

lemma loopStart_some (starts : Writes ts first) (ahead : s.kinds = .identifier var :: .operator .assign
      :: (ts ++ .keyword .FOR :: tail)) (more : tail ≠ []) (closed : s.expressions = 0)
    (fuel : 16 * ts.length + 12 ≤ n) : Yields (loopStart n) s tail fun found => found.1 = some var ∧
    found.2.map Expr.bare = some first.bare := by
  have reads : Yields (do
      let name ← expectName .loopVariable
      let _ ← next
      let first ← expression embedTemplate n
      let _ ← expect (isKeyword .FOR) .loopCount
      pure (some name, some first)) s tail fun found =>
        found.1 = some var ∧ found.2.map Expr.bare = some first.bare := by
    refine (expectName_yields _ ahead (by simp)).bind fun found _ named ahead _ => ?_
    subst found
    refine (next_yields ahead (by simp)).bind fun _ _ taken ahead _ => ?_
    refine (expression_yields starts ahead rfl ((named.trans taken).expressions.trans closed) fuel).bind
      fun _ _ _ ahead bare => ?_
    exact (expect_yields _ _ ahead more rfl).bind fun _ _ _ ahead _ =>
      .pure ahead ⟨rfl, congrArg some bare⟩
  refine reads.of_eq ?_ (.refl s)
  rw [loopStart, Reading.peek_kind ahead, Reading.peekSecond_kind ahead]

lemma reads_repeatLoop {count : Expr} (counts : Writes ts count)
    (unnamed : ∀ tail, startsAssignment (ts ++ .keyword .TIMES :: tail) = false)
    (inner : ReadsBody scope.loop depth loose us block) : ReadsKeyword scope depth loose
    (.keyword .LOOP :: (ts ++ .keyword .TIMES :: us)) (.repeatLoop none none count block place) := by
  intro n _ _ _ ahead ends fits fuel
  simp only [append_assoc, cons_append, length_append, length_cons] at ahead fuel
  obtain _ | _ | n := n
  · omega
  · omega
  rw [statementByKeyword]
  refine look_bind ahead fun _ same => ?_
  simp only [same]
  rw [repeatLoop]
  refine (next_yields ahead (by simp)).bind fun _ t kept ahead _ => ?_
  refine (loopStart_none ahead (unnamed _)).bind ?_
  rintro _ u started ahead rfl
  replace kept := kept.trans started
  refine (expression_yields counts ahead rfl (fits.kept kept).expressions (by omega)).bind
    fun _ t read ahead bare => ?_
  replace kept := kept.trans read
  refine (expect_yields _ _ ahead (by simp) rfl).bind fun _ u taken ahead _ => ?_
  refine (inner.looped ahead ends (fits.kept (kept.trans taken)) (by omega)).bind
    fun _ _ _ ahead same => ?_
  exact spanSince_bind fun _ => .pure ahead (by simp [Stmt.bare, bare, same])

lemma reads_countLoop {first count : Expr} (starts : Writes ts first) (counts : Writes us count)
    (inner : ReadsBody scope.loop depth loose vs block) : ReadsKeyword scope depth loose (.keyword
      .LOOP :: .identifier var :: .operator .assign :: (ts ++ .keyword .FOR :: (us ++ .keyword .TIMES ::
      vs))) (.repeatLoop (some var) (some first) count block place) := by
  intro n _ _ _ ahead ends fits fuel
  simp only [append_assoc, cons_append, length_append, length_cons] at ahead fuel
  obtain _ | _ | n := n
  · omega
  · omega
  rw [statementByKeyword]
  refine look_bind ahead fun _ same => ?_
  simp only [same]
  rw [repeatLoop]
  refine (next_yields ahead (by simp)).bind fun _ t kept ahead _ => ?_
  refine (loopStart_some starts ahead (by simp) (fits.kept kept).expressions (by omega)).bind ?_
  rintro ⟨_, _⟩ u started ahead ⟨rfl, _⟩
  replace kept := kept.trans started
  refine (expression_yields counts ahead rfl (fits.kept kept).expressions (by omega)).bind
    fun _ t read ahead bare => ?_
  replace kept := kept.trans read
  refine (expect_yields _ _ ahead (by simp) rfl).bind fun _ u taken ahead _ => ?_
  refine (inner.looped ahead ends (fits.kept (kept.trans taken)) (by omega)).bind
    fun _ _ _ ahead same => ?_
  exact spanSince_bind fun _ => .pure ahead (by simp_all [Stmt.bare])

lemma reads_startBlock (colons : IsColon colon)
    (writes : WritesLines scope depth loose ts statements)
    (lines : ReadsLines scope depth loose ts statements) : ReadsKeyword scope depth false
    (.keyword .START :: (colon ++ (ts ++ [.keyword .END]))) (.block ⟨statements, place⟩ outer) := by
  intro n _ follow tail ahead _ fits fuel
  simp only [append_assoc, cons_append, nil_append, length_append,
    length_cons, length_nil] at ahead fuel
  obtain _ | _ | n := n
  · omega
  · omega
  rw [statementByKeyword]
  refine look_bind ahead fun _ same => ?_
  simp only [same]
  rw [startBlock]
  refine (next_yields ahead (by simp)).bind fun _ _ kept ahead _ => ?_
  obtain ⟨_, _, begun, plain⟩ := writes.begins (.keyword .END) (follow :: tail) rfl
  rw [begun] at ahead
  refine (acceptColon_yields colons ahead plain).bind fun _ _ taken ahead _ => ?_
  rw [← begun] at ahead
  refine lines.closed ahead (by simp) (fits.kept (kept.trans taken)) (by omega)
    fun _ _ _ ahead bare => ?_
  exact spanSince_bind fun _ => .pure ahead (by simp [Stmt.bare, Block.bare, bare])

/-! ### Branches -/

lemma reads_branch (inner : ReadsBranch scope depth loose ts stmt) :
    ReadsKeyword scope depth loose (.keyword .IF :: ts) stmt := by
  intro n _ follow tail ahead ends fits fuel
  simp only [cons_append, length_cons] at ahead fuel
  obtain _ | n := n
  · omega
  rw [statementByKeyword]
  refine look_bind ahead fun _ same => ?_
  simp only [same]
  refine (next_yields ahead (by simp)).bind fun start t kept ahead _ => ?_
  exact inner start n t follow tail ahead ends (fits.kept kept) (by omega)

lemma readsBranch_inline (tested : Writes ts condition) (opens : opening.isOpener)
    (only : WritesStmt scope depth loose us stmt) (reads : ReadsStmt scope depth loose us stmt) :
    ReadsBranch scope depth true (ts ++ opening :: us)
    (.branch condition ⟨[stmt], place⟩ none outer) := by
  intro start n s follow tail ahead ends fits fuel
  simp only [append_assoc, cons_append, length_append, length_cons] at ahead fuel
  obtain _ | n := n
  · omega
  obtain ⟨first, others, begun, starts⟩ := only.begins
  have follows : us ++ follow :: tail = first :: (others ++ follow :: tail) := by rw [begun]; rfl
  change Yields (branch (n + 1) start) s _ _
  rw [branch]
  refine (headerValue_yields tested ahead (endsExpression_of_isOpener opens)
    fits.expressions (by omega)).bind fun _ t kept ahead bare => ?_
  rw [follows] at ahead
  refine (opener_yields_inline opens starts ahead).bind ?_
  rintro _ u opened ahead rfl
  replace kept := kept.trans opened
  rw [← follows] at ahead
  have other : follow.isKeyword .ELSE = false := by
    simpa [endsStatement, endsValue_of_ends ends] using ends
  have leaves : follow.endsStatement loose := by
    simp [endsStatement, endsValue_of_ends ends, other]
  refine (reads n u follow tail ahead leaves (fits.kept kept) (by omega)).bind
    fun _ t _ ahead same => ?_
  obtain _ | n := n
  · omega
  have none : Yields (inlineElse (n + 1)) t (follow :: tail) (· = none) := by
    rw [inlineElse]
    exact reject_bind ahead other (.pure ahead rfl)
  refine none.bind ?_
  rintro _ _ _ ahead rfl
  refine spanSince_bind fun _ => .pure ahead ?_
  rw [Stmt.bare, Stmt.bare, bare, Block.single_bare same]

lemma readsBranch_inlineElse (tested : Writes ts condition) (opens : opening.isOpener)
    (only : WritesStmt scope depth false us stmt) (reads : ReadsStmt scope depth false us stmt)
    (otherwise : ReadsElse scope depth loose vs other) : ReadsBranch scope depth loose
    (ts ++ opening :: (us ++ .keyword .ELSE :: vs))
    (.branch condition ⟨[stmt], place⟩ (some other) outer) := by
  intro start n s follow tail ahead ends fits fuel
  simp only [append_assoc, cons_append, length_append, length_cons] at ahead fuel
  obtain _ | n := n
  · omega
  obtain ⟨first, others, begun, starts⟩ := only.begins
  have follows : ∀ rest, us ++ .keyword .ELSE :: rest = first :: (others ++ .keyword .ELSE :: rest) :=
    fun rest => by rw [begun]; rfl
  change Yields (branch (n + 1) start) s _ _
  rw [branch]
  refine (headerValue_yields tested ahead (endsExpression_of_isOpener opens)
    fits.expressions (by omega)).bind fun _ t kept ahead bare => ?_
  rw [follows] at ahead
  refine (opener_yields_inline opens starts ahead).bind ?_
  rintro _ u opened ahead rfl
  replace kept := kept.trans opened
  rw [← follows] at ahead
  refine (reads n u _ _ ahead rfl (fits.kept kept) (by omega)).bind fun _ t read ahead same => ?_
  replace kept := kept.trans read
  refine (otherwise n t follow tail ahead ends (fits.kept kept)
    (by simp only [length_cons]; omega)).bind fun _ u _ ahead agree => ?_
  refine spanSince_bind fun _ => .pure ahead ?_
  rw [Stmt.bare, Stmt.bare, bare, Block.single_bare same, agree, bareOption]

lemma readsBranch_block {opening : List TokenKind} (tested : Writes ts condition)
    (opens : IsOpening opening) (separates : separator.isSeparator)
    (lines : ReadsLines scope depth taken (separator :: us) statements)
    (behind : WritesRest scope depth taken loose vs other)
    (reads : ReadsRest scope depth loose vs other) : ReadsBranch scope depth loose
    (ts ++ (opening ++ separator :: (us ++ vs)))
    (.branch condition ⟨statements, place⟩ other outer) := by
  intro start n s follow tail ahead ends fits fuel
  simp only [append_assoc, cons_append, length_append, length_cons] at ahead fuel
  obtain _ | n := n
  · omega
  obtain ⟨_, _, opened, opening⟩ := opens.begins separates (us ++ (vs ++ follow :: tail))
  obtain ⟨closer, closers, begun, among, closes⟩ := behind.begins
  have follows : vs ++ follow :: tail = closer :: (closers ++ follow :: tail) := by rw [begun]; rfl
  have some : 0 < vs.length := by rw [begun]; exact Nat.succ_pos _
  change Yields (branch (n + 1) start) s _ _
  rw [branch]
  rw [opened] at ahead
  refine (headerValue_yields tested ahead (endsExpression_of_opening opening)
    fits.expressions (by omega)).bind fun _ t kept ahead bare => ?_
  rw [← opened] at ahead
  refine (opener_yields_block opens separates ahead).bind ?_
  rintro _ u opened ahead rfl
  replace kept := kept.trans opened
  refine look_bind ahead fun _ _ => ?_
  rw [follows] at ahead
  refine (lines n [.END, .ELSE, .ELIF] {} u closer _ (List.Subset.refl _) ahead (by simp [among]) closes
    (fits.kept kept) (by simp only [length_cons]; omega)).bind fun _ t read ahead same => ?_
  replace kept := kept.trans read
  rw [← follows] at ahead
  refine (reads start n t follow tail ahead ends (fits.kept kept) (by omega)).bind
    fun _ _ _ ahead agree => ?_
  refine spanSince_bind fun _ => .pure ahead ?_
  simp [Stmt.bare, Block.bare, bare, same, agree]

lemma ReadsBranch.nested (reads : ReadsBranch scope depth loose ts stmt)
    (ahead : s.kinds = ts ++ follow :: tail) (ends : follow.endsStatement loose)
    (fits : Fits scope (depth + 1) s) (fuel : 16 * ts.length + 13 ≤ n) :
    Yields (insideStatement (branch n start)) s (follow :: tail) (·.bare = stmt.bare) := by
  have room := fits.statements
  refine insideStatement_yields (by omega) ?_
  refine reads start n _ follow tail ahead ends ⟨fits.expressions, fits.loops, fits.functions, ?_⟩ fuel
  simp only
  omega

lemma readsElse_branch (inner : ReadsBranch scope depth loose ts stmt) :
    ReadsElse scope (depth + 1) loose (.keyword .IF :: ts) ⟨[stmt], place⟩ := by
  intro n _ _ _ ahead ends fits fuel
  simp only [cons_append, length_cons] at ahead fuel
  obtain _ | n := n
  · omega
  rw [inlineElse]
  refine (accept_yields _ ahead (by simp) rfl).bind ?_
  rintro _ _ kept ahead rfl
  refine lastLocation_bind fun _ => ?_
  refine (accept_yields _ ahead (by simp) rfl).bind ?_
  rintro _ _ taken ahead rfl
  refine (inner.nested ahead ends (fits.kept (kept.trans taken)) (by omega)).bind
    fun _ _ _ ahead bare => ?_
  exact .pure ahead (congrArg some (Block.single_bare bare))

lemma readsElse_inline (colons : IsColon colon) (only : WritesStmt scope depth loose ts stmt)
    (apart : colon = [] → ts.head? ≠ some (.keyword .IF))
    (reads : ReadsStmt scope depth loose ts stmt) :
    ReadsElse scope depth loose (colon ++ ts) ⟨[stmt], place⟩ := by
  intro n _ follow tail ahead ends fits fuel
  simp only [cons_append, append_assoc, length_cons, length_append] at ahead fuel
  obtain _ | n := n
  · omega
  obtain ⟨first, others, begun, starts⟩ := only.begins
  have follows : ts ++ follow :: tail = first :: (others ++ follow :: tail) := by rw [begun]; rfl
  have plain := (not_of_starts starts).2.2.1
  rw [inlineElse]
  refine (accept_yields _ ahead (by simp) rfl).bind ?_
  rintro _ t kept ahead rfl
  refine lastLocation_bind fun _ => ?_
  rw [follows] at ahead
  obtain ⟨head, behind, same, other⟩ : ∃ head behind, t.kinds = head :: behind ∧
      head.isKeyword .IF = false := by
    rcases colons with rfl | rfl
    · refine ⟨first, _, ahead, Bool.eq_false_iff.mpr fun is => apart rfl ?_⟩
      rw [begun, eq_of_isKeyword is]
      rfl
    · exact ⟨_, _, ahead, rfl⟩
  refine reject_bind same other ?_
  refine (acceptColon_yields colons ahead plain).bind fun _ u taken ahead _ => ?_
  rw [← follows] at ahead
  refine (reads n u follow tail ahead ends (fits.kept (kept.trans taken)) (by omega)).bind
    fun _ _ _ ahead bare => ?_
  exact .pure ahead (congrArg some (Block.single_bare bare))

lemma readsRest_done : ReadsRest scope depth false [.keyword .END] none := by
  intro start n s _ _ ahead _ _ _
  obtain _ | n := n
  · omega
  change Yields (blockElse (n + 1) start) s _ _
  rw [blockElse]
  refine reject_bind ahead rfl (reject_bind ahead rfl ?_)
  exact (closeBlock_yields ahead (by simp)).bind fun _ _ _ ahead _ => .pure ahead rfl

lemma readsRest_elif (inner : ReadsBranch scope depth loose ts stmt) :
    ReadsRest scope (depth + 1) loose (.keyword .ELIF :: ts) (some ⟨[stmt], place⟩) := by
  intro start n s _ _ ahead ends fits fuel
  simp only [cons_append, length_cons] at ahead fuel
  obtain _ | n := n
  · omega
  change Yields (blockElse (n + 1) start) s _ _
  rw [blockElse]
  refine (accept_yields _ ahead (by simp) rfl).bind ?_
  rintro _ _ kept ahead rfl
  refine lastLocation_bind fun start => ?_
  refine (inner.nested ahead ends (fits.kept kept) (by omega)).bind fun _ _ _ ahead bare => ?_
  exact .pure ahead (congrArg some (Block.single_bare bare))

lemma readsRest_elseIf (inner : ReadsBranch scope depth loose ts stmt) : ReadsRest scope (depth + 1)
    loose (.keyword .ELSE :: .keyword .IF :: ts) (some ⟨[stmt], place⟩) := by
  intro start n s _ _ ahead ends fits fuel
  simp only [cons_append, length_cons] at ahead fuel
  obtain _ | n := n
  · omega
  change Yields (blockElse (n + 1) start) s _ _
  rw [blockElse]
  refine reject_bind ahead rfl ?_
  refine (accept_yields _ ahead (by simp) rfl).bind ?_
  rintro _ _ kept ahead rfl
  refine lastLocation_bind fun start => ?_
  refine (accept_yields _ ahead (by simp) rfl).bind ?_
  rintro _ _ taken ahead rfl
  refine (inner.nested ahead ends (fits.kept (kept.trans taken)) (by omega)).bind
    fun _ _ _ ahead bare => ?_
  exact .pure ahead (congrArg some (Block.single_bare bare))

lemma readsRest_inline (opens : opening.isOpener)
    (only : WritesStmt scope depth loose ts stmt)
    (separate : ∀ kind ∈ breaks, kind.isSeparator = true)
    (reads : ReadsStmt scope depth loose ts stmt) : ReadsRest scope depth false
    (.keyword .ELSE :: opening :: (ts ++ (breaks ++ [.keyword .END]))) (some ⟨[stmt], place⟩) := by
  intro start n s follow tail ahead _ fits fuel
  simp only [cons_append, append_assoc, nil_append, length_cons,
    length_append, length_nil] at ahead fuel
  obtain _ | n := n
  · omega
  obtain ⟨first, others, begun, starts⟩ := only.begins
  obtain ⟨separates, final, -, -⟩ := not_of_starts starts
  -- The statement ends at a separator, or at `END` on the same line.
  obtain ⟨next, behind, ended, closes⟩ : ∃ next behind,
      breaks ++ .keyword .END :: follow :: tail = next :: behind ∧
        next.endsStatement loose = true := by
    cases breaks with
    | nil => exact ⟨_, _, rfl, by cases loose <;> rfl⟩
    | cons separator =>
      exact ⟨separator, _, rfl,
        endsStatement_of_isSeparator loose (separate separator mem_cons_self)⟩
  have follows : ts ++ next :: behind = first :: (others ++ next :: behind) := by rw [begun]; rfl
  change Yields (blockElse (n + 1) start) s _ _
  rw [blockElse]
  refine reject_bind ahead rfl ?_
  refine (accept_yields _ ahead (by simp) rfl).bind ?_
  rintro _ _ kept ahead rfl
  refine lastLocation_bind fun _ => ?_
  refine reject_bind ahead (isKeyword_of_opening rfl (.inl opens)) ?_
  refine (accept_yields _ ahead (by simp) opens).bind ?_
  rintro _ u taken ahead rfl
  replace kept := kept.trans taken
  rw [ended, follows] at ahead
  refine at_bind ahead ?_
  rw [endsLine, separates, final]
  rw [← follows] at ahead
  refine (reads n u next behind ahead closes (fits.kept kept) (by omega)).bind
    fun _ _ _ ahead bare => ?_
  rw [← ended] at ahead
  refine (skipBreaks_yields ahead separate rfl).bind fun _ _ _ ahead _ => ?_
  refine (closeBlock_yields ahead (by simp)).bind fun _ _ _ ahead _ => ?_
  exact .pure ahead (congrArg some (Block.single_bare bare))

lemma blockElse_lines (lines : ReadsLines scope depth loose ts statements)
    (ahead : s.kinds = ts ++ .keyword .END :: tail) (more : tail ≠ []) (fits : Fits scope depth s)
    (fuel : 16 * ts.length + 15 ≤ n) :
    Yields (do
      let inner ← Parser.statements n [.END] {}
      closeBlock start
      Pure.pure (some ⟨inner, place⟩)) s tail (bareOption · = bareOption (some ⟨statements, place⟩)) := by
  refine lines.closed ahead more fits fuel fun _ _ _ ahead same => ?_
  exact .pure ahead (by simp [bareOption, Block.bare, same])

lemma readsRest_block {opening : List TokenKind} (opens : IsOpening opening)
    (separates : separator.isSeparator)
    (lines : ReadsLines scope depth loose (separator :: ts) statements) : ReadsRest scope depth false
    (.keyword .ELSE :: (opening ++ separator :: (ts ++ [.keyword .END])))
    (some ⟨statements, place⟩) := by
  intro start n s _ _ ahead _ fits fuel
  simp only [cons_append, append_assoc, nil_append, length_cons,
    length_append, length_nil] at ahead fuel
  obtain _ | n := n
  · omega
  have line : separator.endsLine := by simp [endsLine, separates]
  change Yields (blockElse (n + 1) start) s _ _
  rw [blockElse]
  refine reject_bind ahead rfl ?_
  refine (accept_yields _ ahead (by simp) rfl).bind ?_
  rintro _ _ kept ahead rfl
  refine lastLocation_bind fun place => ?_
  rcases opens with rfl | ⟨kind, rfl, opens⟩
  · have plain : separator.isOpener = false := by
      rcases eq_of_isSeparator separates with rfl | rfl <;> rfl
    refine reject_bind ahead (isKeyword_of_opening rfl (.inr separates)) ?_
    refine reject_bind ahead plain (at_bind ahead ?_)
    exact blockElse_lines lines ahead (by simp) (fits.kept kept) (by simp only [length_cons]; omega)
  · refine reject_bind ahead (isKeyword_of_opening rfl (.inl opens)) ?_
    refine (accept_yields _ ahead (by simp) opens).bind ?_
    rintro _ _ taken ahead rfl
    refine at_bind ahead ?_
    rw [line]
    exact blockElse_lines lines ahead (by simp) (fits.kept (kept.trans taken))
      (by simp only [length_cons]; omega)

lemma readsRest_unopened (writes : WritesLines scope depth loose ts statements)
    (apart : ts.head? ≠ some (.keyword .IF)) (lines : ReadsLines scope depth loose ts statements) :
    ReadsRest scope depth false (.keyword .ELSE :: (ts ++ [.keyword .END]))
    (some ⟨statements, place⟩) := by
  intro start n s follow tail ahead _ fits fuel
  simp only [cons_append, append_assoc, nil_append, length_cons,
    length_append, length_nil] at ahead fuel
  obtain _ | n := n
  · omega
  obtain ⟨first, _, begun, plain⟩ := writes.begins (.keyword .END) (follow :: tail) rfl
  have other : first.isKeyword .IF = false := by
    refine Bool.eq_false_iff.mpr fun is => apart ?_
    obtain rfl := eq_of_isKeyword is
    cases ts with
    | nil => cases begun
    | cons => rw [(List.cons.inj begun).1]; rfl
  change Yields (blockElse (n + 1) start) s _ _
  rw [blockElse]
  refine reject_bind ahead rfl ?_
  refine (accept_yields _ ahead (by simp) rfl).bind ?_
  rintro _ _ kept ahead rfl
  refine lastLocation_bind fun place => ?_
  rw [begun] at ahead
  refine reject_bind ahead other (reject_bind ahead plain (at_bind ahead ?_))
  rw [← begun] at ahead
  exact blockElse_lines lines ahead (by simp) (fits.kept kept) (by omega)

end Parser

end Stepper
