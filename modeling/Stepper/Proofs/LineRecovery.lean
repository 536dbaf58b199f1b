import Stepper.Proofs.Progress

/-! # Recovery within a line

Lines without blocks are read one by one. What a line does to the reader, with its errors and the
recovery from them, does not depend on the lines around it, so errors and statements add up. -/

namespace Stepper

open List TokenKind SyntaxProblem

/-- The keywords that open, part or close blocks. -/
def blockKeywords : List Keyword :=
  [.FUNC, .CLASS, .IF, .WHILE, .FOR, .LOOP, .START, .END, .ELSE, .ELIF]

lemma TokenKind.isOneOf_nil (kind : TokenKind) : kind.isOneOf [] = false := by cases kind <;> rfl

/-- Whether a token neither ends a line nor belongs to a block. -/
def TokenKind.isPlain (kind : TokenKind) : Bool := !kind.halts && !kind.isOneOf blockKeywords

namespace Reading
variable {s t u : Reading} {ts : List Token} {new : List Diagnostic} {margin : Margin}

structure Goes (s : Reading) (ts : List Token) (new : List Diagnostic) (t : Reading) : Prop where
  tokens : s.rest = ts ++ t.rest
  state : t = { s with rest := t.rest, last := lastOf s.last ts, errors := new ++ s.errors }

lemma Passes.goes (passes : s.Passes ts t) : s.Goes ts [] t := ⟨passes.tokens, passes.state⟩

lemma Goes.trans (first : s.Goes ts new t) (second : t.Goes us more u) :
    s.Goes (ts ++ us) (more ++ new) u where
  tokens := by rw [first.tokens, second.tokens, append_assoc]
  state := by rw [second.state, first.state, lastOf_append, append_assoc]

lemma goes_report (s : Reading) (error) : s.Goes [] [error] (s.report error) :=
  ⟨rfl, rfl⟩

lemma Goes.length (goes : s.Goes ts new t) : t.rest.length + ts.length = s.rest.length := by
  rw [goes.tokens, length_append, Nat.add_comm]

lemma Goes.covers (goes : s.Goes ts new t) (covers : margin.Covers [] s) : margin.Covers [] t :=
  Nat.le_trans (Nat.le_of_add_right_le (Nat.le_of_eq goes.length)) covers

end Reading

namespace Parser
variable {c n : Nat} {s : Reading}

/-! ### Statements within a line -/

/-- Whether a reply goes over tokens and reports errors only, and a value over some tokens at least. -/
def Keeps (s : Reading) : Reply Stmt → Prop
  | .ok _ t => ∃ ts new, s.Goes ts new t ∧ ts ≠ []
  | .fail _ t | .spent t => ∃ ts new, s.Goes ts new t

structure Lined (c n : Nat) (p q : Parser Stmt) (s : Reading) : Prop where
  keeps : Keeps s (p s)
  settled : 32 * s.rest.length + c ≤ n → q s = p s ∧ (p s).isSpent = false
  within : ∀ margin : Margin, margin.Covers [] s → p (s.framed margin) = (p s).framed margin

variable {p q : Parser Stmt}

lemma Law.lined (law : Law [] c n 1 p q (fun _ _ => True) s) : Lined c n p q s := by
  refine ⟨?_, law.settled, law.within⟩
  have walks := law.walks
  cases reply : p s with
  | ok =>
    rw [reply] at walks
    obtain ⟨ts, passes, many, -⟩ := walks
    exact ⟨ts, [], passes.goes, ne_nil_of_length_pos many⟩
  | fail =>
    rw [reply] at walks
    obtain ⟨ts, passes, -⟩ := walks
    exact ⟨ts, [], passes.goes⟩
  | spent =>
    rw [reply] at walks
    obtain ⟨ts, passes⟩ := walks
    exact ⟨ts, [], passes.goes⟩

lemma isSteady_typeHint : IsSteady 0 n 0 typeHint typeHint fun _ _ _ => True := fun _ _ =>
  steady_accept ⟨rfl, rfl⟩
    (fun _ => (steady_expectName _).bind (by omega) fun _ _ _ _ => steady_pure trivial)
    (steady_pure trivial)

lemma steady_declare (n) (more : s.peek.kind.halts = false) :
    Steady room [] 0 n 1 (declare n) (declare (n + 1)) (fun _ _ => True) s := by
  refine steady_next more ?_
  refine (steady_expectName _).bind (by omega) fun _ t _ _ => ?_
  refine (isSteady_typeHint t).bind (by omega) fun _ _ _ _ => ?_
  refine steady_accept ⟨rfl, rfl⟩ (fun _ => ?_) (steady_span (by simp) (steady_pure trivial))
  refine (isSteady_expression embed_blames n _).bind (by omega) fun _ _ _ _ => ?_
  exact steady_span (by simp) (steady_pure trivial)

lemma steady_print (n) (more : s.peek.kind.halts = false) :
    Steady room [] 0 n 1 (print n) (print (n + 1)) (fun _ _ => True) s := by
  refine steady_next more (steady_at ?_)
  split
  · exact steady_span (by simp) (steady_pure trivial)
  · refine (isSteady_itemsFrom embed_blames n _).bind (by omega) fun _ _ _ _ => ?_
    exact steady_span (by simp) (steady_pure trivial)

lemma steady_expressionStatement (n) :
    Steady room [] 11 n 1 (expressionStatement n) (expressionStatement (n + 1)) (fun _ _ => True) s :=
  (isSteady_expression embed_blames n s).bind (by omega) fun _ _ _ _ => steady_pure trivial

lemma Keeps.after (keeps : Keeps t reply) (goes : s.Goes [] new t) : Keeps s reply := by
  cases reply with
  | ok =>
    obtain ⟨ts, more, further, some⟩ := keeps
    exact ⟨ts, more ++ new, goes.trans further, some⟩
  | fail | spent =>
    obtain ⟨ts, more, further⟩ := keeps
    exact ⟨ts, more ++ new, goes.trans further⟩

lemma lined_reportIf [DecidablePred test] {problem : SyntaxProblem} (stops : s.Stops)
    (more : s.peek.kind.halts = false) (steps : ∀ t, test t.advance ↔ test t)
    (same : ∀ (margin) t, test (t.framed margin) ↔ test t) (rest : ∀ t : Reading, t.peek.kind.halts =
      false → Steady (nestingLimit - t.expressions) [] 0 n 1 (next >>= f) (next >>= g) (fun _ _ => True)
      t) : Lined 0 n (next >>= fun start => (update fun s => if test s then s.report (problem.errorAt
      start) else s) >>= fun _ => f start) (next >>= fun start => (update fun s => if test s then
      s.report (problem.errorAt start) else s) >>= fun _ => g start) s := by
  let error := problem.errorAt s.peek.location
  let noted (r) : Reading := if test r then r.report error else r
  have ahead : s.rest ≠ [] := by simp [(Reading.passes_advance stops more).tokens]
  have commutes (r) : (noted r).advance = noted r.advance := by
    dsimp only [noted]
    by_cases holds : test r
    · rw [if_pos holds, if_pos ((steps r).mpr holds)]
      obtain ⟨_ | _, _⟩ := r <;> rfl
    · rw [if_neg holds, if_neg (mt (steps r).mp holds)]
  have run (h : Location → Parser Stmt) (r : Reading) (ahead : r.rest ≠ [])
      (here : r.peek = s.peek) : (next >>= fun start => (update fun s =>
        if test s then s.report (problem.errorAt start) else s) >>= fun _ => h start) r =
          (next >>= h) (noted r) := by
    have last : (noted r.advance).last = r.advance.last := by dsimp only [noted]; split <;> rfl
    have place := (r.advance_last ahead).trans (congrArg Token.location here)
    change _ = h (noted r).advance.last (noted r).advance
    rw [commutes, last, place]
    change h r.advance.last (if test r.advance then r.advance.report (problem.errorAt r.advance.last)
      else r.advance) = _
    rw [place]
  obtain ⟨new, goes⟩ : ∃ new, s.Goes [] new (noted s) := by
    dsimp only [noted]
    split
    · exact ⟨_, Reading.goes_report _ _⟩
    · exact ⟨[], (Reading.Passes.refl s).goes⟩
  have peek : (noted s).peek = s.peek := by dsimp only [noted]; split <;> rfl
  have law := rest (noted s) (peek ▸ more) (by rw [goes.state]; exact stops) rfl
  refine ⟨?_, fun room => ?_, fun margin covers => ?_⟩
  · rw [run f s ahead rfl]
    exact law.lined.keeps.after goes
  · rw [run f s ahead rfl, run g s ahead rfl]
    exact law.settled (by rwa [goes.tokens] at room)
  · have framed : noted (s.framed margin) = (noted s).framed margin := by
      dsimp only [noted]
      by_cases holds : test s
      · rw [if_pos holds, if_pos ((same _ _).mpr holds)]
        rfl
      · rw [if_neg holds, if_neg (mt (same _ _).mp holds)]
    rw [run f s ahead rfl, run f _ (append_ne_nil_of_right_ne_nil _ (cons_ne_nil _ _))
      (Reading.peek_framed margin s), framed]
    exact law.within margin (goes.covers covers)

lemma lined_giveBack (n) (stops : s.Stops) (more : s.peek.kind.halts = false) :
    Lined 0 n (giveBack n) (giveBack (n + 1)) s := by
  refine lined_reportIf stops more
    (fun _ => by unfold Reading.advance; split <;> rfl) (fun _ _ => .rfl)
    fun _ more => steady_next more (steady_at ?_)
  split
  · exact steady_span (by simp) (steady_pure trivial)
  · refine (isSteady_expression embed_blames n _).bind (by omega) fun _ _ _ _ => ?_
    exact steady_span (by simp) (steady_pure trivial)

lemma lined_loopControl (keyword) (make) (stops : s.Stops) (more : s.peek.kind.halts = false) :
    Lined 0 n (loopControl keyword make) (loopControl keyword make) s :=
  lined_reportIf stops more
    (fun _ => by unfold Reading.advance; split <;> rfl) (fun _ _ => .rfl)
    fun _ more => steady_next more (steady_pure trivial)

structure InLine (s : Reading) : Prop where
  breaks : s.ending.kind = .newline
  plain : ∀ token ∈ s.rest, token.kind.isPlain = true

lemma InLine.stops (inLine : InLine s) : s.Stops := congrArg halts inLine.breaks

lemma InLine.peek (inLine : InLine s) (ahead : s.rest ≠ []) : s.peek.kind.isPlain := by
  obtain ⟨token, _, split⟩ := exists_cons_of_ne_nil ahead
  have first : s.peek = token := by simp [Reading.peek, split]
  exact inLine.plain s.peek (by simp [first, split])

lemma InLine.goesOn (inLine : InLine s) (ahead : s.rest ≠ []) : s.peek.kind.halts = false := by
  simpa using (Bool.and_eq_true_iff.mp (inLine.peek ahead)).1

lemma Lined.succ (lined : Lined c₁ n p q s) (fits : c₁ ≤ c) : Lined (c + 1) (n + 1) p q s :=
  ⟨lined.keeps, fun _ => lined.settled (by omega), lined.within⟩

lemma lined_statementByKeyword (inLine : InLine s) (ahead : s.rest ≠ []) (n) :
    Lined 12 n (statementByKeyword n) (statementByKeyword (n + 1)) s := by
  cases n with
  | zero => exact (steady_exhausted inLine.stops rfl).lined
  | succ n =>
    have plain := inLine.peek ahead
    have more := inLine.goesOn ahead
    have chosen {f g : Token → Parser Stmt} (lined : Lined 12 (n + 1) (f s.peek) (g s.peek) s) :
        Lined 12 (n + 1) (look >>= f) (look >>= g) s := by
      refine ⟨lined.keeps, lined.settled, fun margin covers => ?_⟩
      change f (s.framed margin).peek (s.framed margin) = _
      rw [Reading.peek_framed]
      exact lined.within margin covers
    rw [statementByKeyword, statementByKeyword]
    refine chosen ?_
    split
    case h_1 => exact (steady_declare n more inLine.stops rfl).lined.succ (by omega)
    case h_9 => exact (lined_giveBack n inLine.stops more).succ (by omega)
    case h_10 => exact (steady_print n more inLine.stops rfl).lined.succ (by omega)
    case h_11 => exact (lined_loopControl _ _ inLine.stops more).succ (by omega)
    case h_12 => exact (lined_loopControl _ _ inLine.stops more).succ (by omega)
    case h_16 => exact (steady_expressionStatement n inLine.stops rfl).lined.succ (by omega)
    -- All other keywords open, divide or close a block.
    all_goals
      next kind => exact absurd plain (by rw [kind]; decide)

lemma lined_statement (inLine : InLine s) (ahead : s.rest ≠ []) (top : s.statements < nestingLimit)
    (n) : Lined 13 n (statement n) (statement (n + 1)) s := by
  cases n with
  | zero => exact (steady_exhausted inLine.stops rfl).lined
  | succ n =>
    let inner : Reading := { s with statements := s.statements + 1 }
    have lined := lined_statementByKeyword (s := inner) ⟨inLine.breaks, inLine.plain⟩ ahead n
    have run (r : Parser Stmt) (t) (top : t.statements < nestingLimit) :
        insideStatement r t = (r { t with statements := t.statements + 1 }).update
          fun u => { u with statements := u.statements - 1 } := by
      unfold insideStatement
      simp only [Nat.not_le.mpr top, decide_false, Bool.false_and, Bool.false_eq_true, if_false]
    have outer {ts : List Token} {new : List Diagnostic} {t : Reading} (goes : inner.Goes ts new t) :
        s.Goes ts new { t with statements := t.statements - 1 } :=
      ⟨goes.tokens, by rw [goes.state]; rfl⟩
    rw [statement, statement]
    refine ⟨?_, fun _ => ?_, fun margin covers => ?_⟩
    · rw [run _ _ top]
      have keeps := lined.keeps
      cases reply : statementByKeyword n inner with
      | ok =>
        rw [reply] at keeps
        obtain ⟨ts, new, goes, some⟩ := keeps
        exact ⟨ts, new, outer goes, some⟩
      | fail | spent =>
        rw [reply] at keeps
        obtain ⟨ts, new, goes⟩ := keeps
        exact ⟨ts, new, outer goes⟩
    · obtain ⟨same, unspent⟩ := lined.settled (by dsimp only [inner]; omega)
      rw [run _ _ top, run _ _ top, same]
      exact ⟨rfl, (Reply.isSpent_update _ _).trans unspent⟩
    · have same : statementByKeyword n (inner.framed margin) =
          (statementByKeyword n inner).framed margin := lined.within margin covers
      rw [run _ _ top, run _ (s.framed margin) top]
      change (statementByKeyword n (inner.framed margin)).update _ = _
      rw [same]
      cases statementByKeyword n inner <;> rfl

end Parser

/-! ### Skipping within a line -/

namespace Reading
variable {s : Reading} {margin : Margin}

lemma dropTokens_append {ending : Token} (behind) (last) (rest)
    (stops : (dropTokens test last rest).2 ≠ [] ∨ test ending.kind = false) : dropTokens test last
    (rest ++ ending :: behind) = ((dropTokens test last rest).1, (dropTokens test last rest).2 ++ ending
      :: behind) := by
  induction rest generalizing last with
  | nil =>
    have solid : test ending.kind = false := stops.resolve_left (absurd rfl)
    simp [dropTokens, solid]
  | cons token _ ih =>
    by_cases drops : test token.kind = true
    · simp only [dropTokens, cons_append, drops, if_true] at stops ⊢
      exact ih token.location stops
    · simp [dropTokens, drops]

lemma dropTokens_before (test) (last before) (rest) : dropTokens test before rest = (if (dropTokens test
      last rest).2.length = rest.length then before else (dropTokens test last rest).1, (dropTokens test
      last rest).2) := by
  cases rest with
  | nil => rfl
  | cons token rest =>
    unfold dropTokens
    split
    · have fewer : (dropTokens test token.location rest).2.length ≤ rest.length := by
        obtain ⟨_, passes⟩ := passes_skip test { rest, ending := token, last := token.location }
        exact Nat.le_of_add_right_le (Nat.le_of_eq passes.length)
      have apart : (dropTokens test token.location rest).2.length ≠ (token :: rest).length :=
        Nat.ne_of_lt (Nat.lt_succ_of_le fewer)
      rw [if_neg apart]
    · rw [if_pos rfl]

lemma skipWhile_framed (covers : margin.Covers [] s)
    (stops : (s.skipWhile test).rest ≠ [] ∨ test s.ending.kind = false) :
    (s.framed margin).skipWhile test = (s.skipWhile test).framed margin := by
  have fewer : (s.skipWhile test).rest.length ≤ s.rest.length := by
    obtain ⟨_, passes⟩ := passes_skip test s
    exact Nat.le_of_add_right_le (Nat.le_of_eq passes.length)
  have room : s.rest.length ≤ margin.size := covers
  have kept : (s.skipWhile test).rest.length = s.rest.length → (s.skipWhile test).last = s.last := by
    intro same
    have before := congrArg Prod.fst (dropTokens_before test s.last s.last s.rest)
    exact before.trans (if_pos same)
  have last : (dropTokens test (s.framed margin).last s.rest).1 =
      if (s.skipWhile test).rest.length = margin.size then margin.before
      else (s.skipWhile test).last := by
    rw [dropTokens_before test s.last]
    change (if (s.skipWhile test).rest.length = s.rest.length then
      (if s.rest.length = margin.size then margin.before else s.last)
      else (s.skipWhile test).last) = _
    by_cases same : (s.skipWhile test).rest.length = s.rest.length
    · rw [if_pos same, kept same, same]
    · rw [if_neg same, if_neg (by omega)]
  have rest := dropTokens_append margin.behind (s.framed margin).last s.rest
    (by rw [dropTokens_before test s.last]; exact stops)
  have same : (dropTokens test (s.framed margin).last s.rest).2 = (s.skipWhile test).rest := by
    rw [dropTokens_before test s.last]
    rfl
  rw [last, same] at rest
  change { s.framed margin with
    rest := (dropTokens test (s.framed margin).last (s.rest ++ s.ending :: margin.behind)).2
    last := (dropTokens test (s.framed margin).last (s.rest ++ s.ending :: margin.behind)).1 } = _
  rw [rest]
  rfl

lemma dropTokens_all {rest : List Token} (passes : ∀ token ∈ rest, test token.kind = true) (last)
    (more) : dropTokens test last (rest ++ more) = dropTokens test (lastOf last rest) more := by
  induction rest generalizing last with
  | nil => rfl
  | cons token _ ih =>
    obtain ⟨here, others⟩ := forall_mem_cons.mp passes
    simp only [cons_append, dropTokens, here, if_true]
    exact ih others token.location

lemma dropTokens_eq_nil {last : Location} {rest : List Token}
    (nothing : (dropTokens test last rest).2 = []) : ∀ token ∈ rest, test token.kind = true := by
  induction rest generalizing last with
  | nil => exact forall_mem_nil _
  | cons _ _ ih =>
    unfold dropTokens at nothing
    split at nothing
    next here => exact forall_mem_cons.mpr ⟨here, ih nothing⟩
    next => cases nothing

def behind (margin : Margin) (s : Reading) : Reading :=
  { s.framed margin with rest := margin.behind, last := s.ending.location }

lemma skip_behind (breaks : test s.ending.kind) (nothing : (s.skipWhile test).rest = []) :
    (s.framed margin).skipWhile test = (s.behind margin).skipWhile test := by
  have all : ∀ token ∈ s.rest ++ [s.ending], test token.kind = true :=
    forall_mem_append.mpr ⟨dropTokens_eq_nil nothing, forall_mem_singleton.mpr breaks⟩
  have dropped (last) : dropTokens test last (s.rest ++ s.ending :: margin.behind) =
      dropTokens test s.ending.location margin.behind := by
    rw [append_cons, dropTokens_all all, lastOf_append]
    rfl
  unfold skipWhile behind framed
  rw [dropped]

lemma skip_advance (ends : s.Ends) (passes : test s.peek.kind)
    (solid : test .endOfFile = false) : s.advance.skipWhile test = s.skipWhile test := by
  cases rest : s.rest with
  | nil =>
    have final : s.peek = s.ending := by simp [peek, rest]
    rw [final, ends, solid] at passes
    cases passes
  | cons token =>
    have here : s.peek = token := by simp [peek, rest]
    rw [here] at passes
    simp [advance, skipWhile, rest, dropTokens, passes]

end Reading

namespace Parser
variable {s t : Reading} {before : Preceding}

/-! ### The rest of a program -/

def program (before : Preceding) : Parser (List Stmt) :=
  fun s => statements (parseFuel s.rest) [] before s

lemma program_round (ends : s.Ends) (enough : 32 * s.rest.length + 13 ≤ n) :
    program before s = (round n [] before s).reply program := by
  have settled (k) (room : 32 * s.rest.length + 13 ≤ k) :
      round k [] before s = round (32 * s.rest.length + 13) [] before s := by
    induction k, room using Nat.le_induction with
    | base => rfl
    | succ k room ih => exact (round_settled (vouches_statement k) ends room).1.trans ih
  obtain ⟨k, bound⟩ : ∃ k, parseFuel s.rest = k + 1 := ⟨32 * s.rest.length + 63, rfl⟩
  have room : k = 32 * s.rest.length + 63 := Nat.succ.inj bound.symm
  have same : program before s = statements (k + 1) [] before s := by rw [program, bound]
  have turns : (round n [] before s).Turns s _ := round_turns (vouches_statement n) ends
  rw [same, statements_succ, settled k (by omega), ← settled n enough]
  cases turned : round n [] before s with
  | done | spent => rfl
  | more found after u =>
    rw [turned] at turns
    obtain ⟨onward, _, -⟩ := turns
    have progresses : Progresses (statements · [] after) 0 u :=
      .of_vouches (vouches_statements · [] after) (onward.ends ends) (by omega)
    exact congrArg (Reply.prepend found.toList)
      (progresses.settles k (by unfold parseFuel; omega)).1

lemma program_skip (ends : s.Ends) (ends' : t.Ends)
    (same : s.skipWhile isSeparator = t.skipWhile isSeparator) :
    program before s = program before t := by
  have rounds (n) : round n [] before s = round n [] before t := by
    unfold round
    rw [same]
  let n := 32 * (s.rest.length + t.rest.length) + 13
  rw [program_round (n := n) ends (by omega), program_round (n := n) ends' (by omega), rounds]

lemma program_resumed (ends : s.Ends) : program before (resumed s) = program before
    (s.skipWhile fun kind => !kind.isSeparator && !kind.beginsStatement) := by
  have skipped := Reading.Onward.skipWhile (fun kind => !kind.isSeparator && !kind.beginsStatement) s
  unfold resumed
  dsimp only
  split
  next breaks =>
    have ends := skipped.ends ends
    exact program_skip ((Reading.Onward.advance _).ends ends) ends
      (Reading.skip_advance ends breaks rfl)
  next => rfl

lemma program_end (ends : s.Ends) (nothing : s.rest = []) : program before s = .ok [] s := by
  have here : s.peek = s.ending := by simp [Reading.peek, nothing]
  have skipped : s.skipWhile isSeparator = s := by
    obtain ⟨_⟩ := s
    subst nothing
    rfl
  rw [program_round ends (Nat.le_refl _)]
  unfold round
  dsimp only
  rw [skipped, here, ends]
  rfl

/-! ### A round within a line -/

variable {ts : List Token} {new : List Diagnostic} {margin : Margin}

lemma InLine.after (inLine : InLine s) (goes : s.Goes ts new t) : InLine t where
  breaks := by rw [goes.state]; exact inLine.breaks
  plain token mem := inLine.plain token (goes.tokens ▸ mem_append_right ts mem)

lemma statement_framed (inLine : InLine s) (ahead : s.rest ≠ []) (top : s.statements < nestingLimit)
    (enough : 32 * s.rest.length + 13 ≤ n) (covers : margin.Covers [] s) :
    statement n (s.framed margin) = (statement (32 * s.rest.length + 13) s).framed margin := by
  rw [(lined_statement inLine ahead top n).within margin covers]
  congr 1
  induction n, enough using Nat.le_induction with
  | base => rfl
  | succ k room ih => exact ((lined_statement inLine ahead top k).settled room).1.trans ih

def Brings (s : Reading) (found : List Stmt) (u : Reading) : Prop :=
  ∀ (margin : Margin) (before : Preceding), margin.Covers [] s → margin.ending.kind = .endOfFile →
    ∃ after warnings, program before (s.framed margin) =
      (program after (u.framed { margin with warnings })).prepend found

lemma program_resumed_framed (before) (inLine : InLine s) (covers : margin.Covers [] s)
    (final : margin.ending.kind = .endOfFile) : program before (resumed (s.framed margin)) = program
    before ((s.skipWhile fun kind => !kind.isSeparator && !kind.beginsStatement).framed margin) := by
  have ends : (s.framed margin).Ends := final
  rw [program_resumed ends, Reading.skipWhile_framed covers (.inr (by rw [inLine.breaks]; rfl))]

lemma Round.of_read (before) (s) (margin) (found : Stmt) (quiet : t.warnings = []) :
    ∃ warnings, of [] before s (.ok found (t.framed margin)) =
      .more (some found) { diverged := found.diverges, flagged := before.flagged || before.diverged }
        (if t.peek.kind.endsLine then t.framed { margin with warnings }
         else resumed ((t.report ((expected .endOfStatement t.peek.kind).errorAt
          t.peek.location)).framed { margin with warnings })) := by
  obtain ⟨warnings, warned⟩ : ∃ warnings, (if before.diverged && !before.flagged then
      (t.framed margin).warn (unreachable.warningAt found.location)
      else t.framed margin) = t.framed { margin with warnings } := by
    split
    · exact ⟨unreachable.warningAt found.location :: margin.warnings,
        by simp [Reading.framed, Reading.warn, quiet]⟩
    · exact ⟨margin.warnings, rfl⟩
  refine ⟨warnings, ?_⟩
  unfold of
  dsimp only
  rw [warned, Reading.peek_framed, isOneOf_nil, Bool.or_false]
  rfl

lemma Round.of_failed (inLine : InLine t) (covers : margin.Covers [] t) (ahead : s.rest ≠ []) : of []
    before (s.framed margin) (.fail error (t.framed margin)) = .more none before (resumed ((if
      t.rest.length = s.rest.length then (t.report error).advance else t.report error).framed margin))
      := by
  have same : ((t.framed margin).report error).rest.length = (s.framed margin).rest.length ↔
      t.rest.length = s.rest.length := by
    simp [Reading.report, Reading.framed]
  unfold of
  dsimp only
  by_cases stuck : t.rest.length = s.rest.length
  · have left : (t.report error).rest ≠ [] :=
      ne_nil_of_length_pos (stuck ▸ length_pos_iff.mpr ahead)
    have reported : InLine (t.report error) := inLine.after (Reading.goes_report t error)
    rw [if_pos stuck, if_pos (same.mpr stuck),
      ← Reading.advance_framed reported.stops (reported.goesOn left) covers]
    rfl
  · rw [if_neg stuck, if_neg (mt same.mp stuck)]
    rfl

variable (inLine : InLine s) (top : s.statements < nestingLimit) (quiet : s.warnings = [])
include inLine top quiet

lemma round_line (more : (s.skipWhile isSeparator).rest ≠ []) :
    ∃ found ts new u, s.Goes ts new u ∧ ts ≠ [] ∧ Brings s found u := by
  obtain ⟨_, passes⟩ := Reading.passes_skip isSeparator s
  generalize core : s.skipWhile isSeparator = start at more passes
  have startInLine := inLine.after passes.goes
  have startTop : start.statements < nestingLimit := by rw [passes.state]; exact top
  have run (margin) (before : Preceding) (covers : margin.Covers [] s)
      (final : margin.ending.kind = .endOfFile) : program before (s.framed margin) =
        (Round.of [] before (start.framed margin)
          ((statement (32 * start.rest.length + 13) start).framed margin)).reply program := by
    have ends : (s.framed margin).Ends := final
    have going : start.peek.kind.isEnd = false := by
      have plain := startInLine.peek more
      cases kind : start.peek.kind with
      | endOfFile => rw [kind] at plain; exact absurd plain (by decide)
      | _ => rfl
    have room : 32 * start.rest.length + 13 ≤ 32 * (s.framed margin).rest.length + 13 := by
      have fewer := passes.length
      have all : (s.framed margin).rest.length = s.rest.length + (margin.behind.length + 1) :=
        length_append
      omega
    rw [program_round ends (Nat.le_refl _)]
    unfold round
    dsimp only
    rw [Reading.skipWhile_framed covers (.inl (core ▸ more)), core, Reading.peek_framed, going,
      isOneOf_nil, Bool.or_false, if_neg Bool.false_ne_true,
      statement_framed startInLine more startTop room (passes.goes.covers covers)]
  have lined := lined_statement startInLine more startTop (32 * start.rest.length + 13)
  have keeps := lined.keeps
  cases reply : statement (32 * start.rest.length + 13) start with
  | ok found t =>
    rw [reply] at keeps run
    obtain ⟨_, _, goes, some⟩ := keeps
    have whole := passes.goes.trans goes
    have none : t.warnings = [] := by rw [whole.state]; exact quiet
    have turned (margin) (before) :=
      Round.of_read before (start.framed margin) margin found none
    by_cases ends : t.peek.kind.endsLine = true
    · refine ⟨[found], _, _, t, whole, by simp [some], fun margin before covers final => ?_⟩
      obtain ⟨warnings, turned⟩ := turned margin before
      rw [if_pos ends] at turned
      exact ⟨_, warnings, (run margin before covers final).trans (congrArg (Round.reply program) turned)⟩
    · obtain ⟨_, skips⟩ := Reading.passes_skip (fun kind => !kind.isSeparator && !kind.beginsStatement)
        (t.report ((expected .endOfStatement t.peek.kind).errorAt t.peek.location))
      have reported := whole.trans (Reading.goes_report t
        ((expected .endOfStatement t.peek.kind).errorAt t.peek.location))
      refine ⟨[found], _, _, _, reported.trans skips.goes, by simp [some],
        fun margin before covers final => ?_⟩
      obtain ⟨warnings, turned⟩ := turned margin before
      rw [if_neg ends] at turned
      have covered : Margin.Covers { margin with warnings } [] s := covers
      have resumes := program_resumed_framed
        { diverged := found.diverges, flagged := before.flagged || before.diverged }
        (inLine.after reported) (reported.covers covered) final
      exact ⟨_, warnings, (run margin before covers final).trans
        ((congrArg (Round.reply program) turned).trans (congrArg (Reply.prepend [found]) resumes))⟩
  | spent =>
    have unspent := (lined.settled (Nat.le_refl _)).2
    rw [reply] at unspent
    cases unspent
  | fail error t =>
    rw [reply] at keeps run
    obtain ⟨ts, _, goes⟩ := keeps
    have reported := (passes.goes.trans goes).trans (Reading.goes_report t error)
    have within := inLine.after reported
    generalize moved : (if t.rest.length = start.rest.length then (t.report error).advance
      else t.report error) = next
    obtain ⟨us, moves, some⟩ : ∃ us, (t.report error).Passes us next ∧ ts ++ us ≠ [] := by
      rw [← moved]
      split
      next stuck =>
        have left : (t.report error).rest ≠ [] :=
          ne_nil_of_length_pos (stuck ▸ length_pos_iff.mpr more)
        exact ⟨_, Reading.passes_advance within.stops (within.goesOn left), by simp⟩
      next moved =>
        refine ⟨[], .refl _, fun _ => moved ?_⟩
        have length := goes.length
        simp_all
    obtain ⟨_, skips⟩ := Reading.passes_skip
      (fun kind => !kind.isSeparator && !kind.beginsStatement) next
    have whole := reported.trans moves.goes
    refine ⟨[], _, _, _, whole.trans skips.goes, by simp_all, fun margin before covers final => ?_⟩
    have turned : Round.of [] before (start.framed margin) (.fail error (t.framed margin)) = _ :=
      Round.of_failed (startInLine.after goes) (goes.covers (passes.goes.covers covers)) more
    rw [moved] at turned
    have resumes := program_resumed_framed before (inLine.after whole) (whole.covers covers) final
    exact ⟨_, margin.warnings, (run margin before covers final).trans
      ((congrArg (Round.reply program) turned).trans (congrArg (Reply.prepend []) resumes))⟩

lemma program_line : ∃ found errors, ∀ margin before, margin.Covers [] s
    → margin.ending.kind = .endOfFile → ∃ after warnings, program before (s.framed margin) =
    (program after (Reading.behind { margin with warnings } { s with errors })).prepend found := by
  induction bound : s.rest.length using Nat.strong_induction_on generalizing s with
  | _ size ih =>
  by_cases nothing : (s.skipWhile isSeparator).rest = []
  · refine ⟨[], s.errors, fun margin before covers final => ⟨before, margin.warnings, ?_⟩⟩
    have ends : (s.framed margin).Ends := final
    have ends' : (s.behind margin).Ends := final
    rw [Reply.prepend_nil]
    exact program_skip ends ends' (Reading.skip_behind (by rw [inLine.breaks]; rfl) nothing)
  · obtain ⟨first, _, _, u, goes, some, brings⟩ := round_line inLine top quiet nothing
    have fewer : u.rest.length < size := by
      have length := goes.length
      have passed := length_pos_iff.mpr some
      omega
    obtain ⟨found, errors, others⟩ := ih _ fewer (inLine.after goes)
      (by rw [goes.state]; exact top) (by rw [goes.state]; exact quiet) rfl
    refine ⟨first ++ found, errors, fun margin before covers final => ?_⟩
    obtain ⟨after, noted, brought⟩ := brings margin before covers final
    obtain ⟨last, warnings, rest⟩ := others { margin with warnings := noted } after
      (goes.covers covers) final
    have same : Reading.behind { margin with warnings } { u with errors } =
        Reading.behind { margin with warnings } { s with errors } := by
      rw [goes.state]
      rfl
    exact ⟨last, warnings, by rw [brought, rest, Reply.prepend_prepend, same]⟩

end Parser

/-! ### Lines -/

/-- A line of tokens and its break, where no block is opened, divided or closed. -/
structure PlainLine where
  tokens : List Token
  ending : Token
  breaks : ending.kind = .newline
  plain : ∀ token ∈ tokens, token.kind.isPlain = true

namespace PlainLine
def text (line : PlainLine) : List Token := line.tokens ++ [line.ending]

def start (unit : Nat) (line : PlainLine) : Reading where
  rest := line.tokens.filter fun token => !token.kind.isTrivia
  ending := line.ending
  last := line.ending.location
  unit := unit

lemma start_inLine (line : PlainLine) (unit) : Parser.InLine (line.start unit) :=
  ⟨line.breaks, fun token mem => line.plain token (mem_filter.mp mem).1⟩

def solid (line : PlainLine) : List Token :=
  (line.tokens.filter fun token => !token.kind.isTrivia) ++ [line.ending]

lemma ofTokens_lines (lines : List PlainLine) (unit)
    (closes : ∀ token ∈ closing, token.kind = .endOfFile) :
    (Reading.ofTokens (lines.flatMap text ++ closing) unit).rest = lines.flatMap solid := by
  have filtered : (lines.flatMap text ++ closing).filter (fun token => !token.kind.isTrivia) =
      lines.flatMap solid ++ closing := by
    have each (line : PlainLine) :
        line.text.filter (fun token => !token.kind.isTrivia) = line.solid := by
      simp [text, solid, filter_append, line.breaks, isTrivia]
    rw [filter_append, filter_flatMap, funext each, filter_eq_self.mpr]
    intro token mem
    rw [closes token mem]
    rfl
  have inside : ∀ token ∈ lines.flatMap solid, (!token.kind.isEnd) = true := by
    intro token mem
    obtain ⟨line, -, here⟩ := mem_flatMap.mp mem
    rcases mem_append.mp here with inner | last
    · have plain := line.plain token (mem_filter.mp inner).1
      cases kind : token.kind with
      | endOfFile => rw [kind] at plain; exact absurd plain (by decide)
      | _ => rfl
    · rw [mem_singleton.mp last, line.breaks]
      rfl
  unfold Reading.ofTokens
  dsimp only
  rw [filtered, takeWhile_append_of_pos inside]
  cases closing with
  | nil => rw [takeWhile_nil, append_nil]
  | cons token =>
    rw [takeWhile_cons_of_neg (by rw [closes token mem_cons_self]; decide), append_nil]

end PlainLine

lemma parse_of_program (run : Parser.program {} (Reading.ofTokens tokens unit) = .ok statements t) :
    parse tokens unit = ⟨statements, t.errors.reverse, t.warnings.reverse⟩ := by
  unfold parse
  dsimp only
  rw [Parser.program] at run
  rw [run]

namespace PlainLine
def IsFresh (s : Reading) : Prop :=
  s = { rest := s.rest, ending := s.ending, last := s.last, errors := s.errors, warnings := s.warnings,
        unit := s.unit }

def around (line : PlainLine) (behind : List Token) (s : Reading) : Margin :=
  ⟨(line.start s.unit).rest.length, s.last, behind, s.ending, s.errors, s.warnings⟩

lemma start_framed (line : PlainLine) (behind) (fresh : IsFresh s)
    (rest : s.rest = line.solid ++ behind) : (line.start s.unit).framed (line.around behind s) = s := by
  rw [fresh]
  simp [Reading.framed, around, rest, solid, start]

lemma program_start (line : PlainLine) (unit) (closes : ∀ token ∈ own, token.kind = .endOfFile)
    (margin) (before : Parser.Preceding) (covers : margin.Covers [] (line.start unit)) (final :
    margin.ending.kind = .endOfFile) :
    ∃ after warnings, Parser.program before ((line.start unit).framed margin) =
      (Parser.program after (Reading.behind { margin with warnings }
        { line.start unit with errors := (parse (line.text ++ own) unit).errors.reverse })).prepend
        (parse (line.text ++ own) unit).statements := by
  obtain ⟨found, errors, brings⟩ :=
    Parser.program_line (line.start_inLine unit) (Nat.succ_pos _) rfl
  obtain ⟨warnings, alone⟩ : ∃ warnings,
      parse (line.text ++ own) unit = ⟨found, errors.reverse, warnings⟩ := by
    generalize beginning : Reading.ofTokens (line.text ++ own) unit = s
    have ends : s.Ends := beginning ▸ Reading.ofTokens_ends _ _
    have rest : s.rest = line.solid ++ [] := by
      have only := ofTokens_lines [line] unit closes
      simpa [beginning] using only
    have whole := line.start_framed [] (by rw [← beginning]; rfl) rest
    obtain rfl : s.unit = unit := by rw [← beginning]; rfl
    obtain ⟨after, warnings, run⟩ := brings (line.around [] s) {} (Nat.le_refl _) ends
    rw [whole] at run
    generalize next : Reading.behind _ _ = u at run
    have finished : Parser.program after u = .ok [] u :=
      Parser.program_end (by rw [← next]; exact ends) (by rw [← next]; rfl)
    rw [finished, ← beginning] at run
    refine ⟨u.warnings.reverse, (parse_of_program run).trans ?_⟩
    have collected : u.errors = errors ++ s.errors := by rw [← next]; rfl
    have none : s.errors = [] := by rw [← beginning]; rfl
    rw [collected, none, append_nil, append_nil]
  rw [alone]
  rw [reverse_reverse]
  exact brings margin before covers final

lemma program_lines (closes : ∀ token ∈ own, token.kind = .endOfFile) (lines : List PlainLine) (before)
    (fresh : IsFresh s) (ends : s.Ends) (rest : s.rest = lines.flatMap solid) : ∃ t, Parser.program
    before s = .ok (lines.flatMap fun line => (parse (line.text ++ own) s.unit).statements) t ∧
    t.errors.reverse = s.errors.reverse ++ lines.flatMap fun line =>
    (parse (line.text ++ own) s.unit).errors := by
  induction lines generalizing s before with
  | nil => exact ⟨s, Parser.program_end ends rest, (append_nil _).symm⟩
  | cons line lines ih =>
    have whole := line.start_framed (lines.flatMap solid) fresh rest
    obtain ⟨after, _, brought⟩ := line.program_start s.unit closes
      (line.around (lines.flatMap solid) s) before (Nat.le_refl _) ends
    rw [whole] at brought
    generalize next : Reading.behind _ _ = u at brought
    obtain ⟨t, read, errors⟩ := ih after (s := u) (by rw [← next]; rfl) (by rw [← next]; exact ends)
      (by rw [← next]; rfl)
    have same : u.unit = s.unit := by rw [← next]; rfl
    have collected : u.errors = (parse (line.text ++ own) s.unit).errors.reverse ++ s.errors := by
      rw [← next]
      rfl
    rw [same] at read errors
    refine ⟨t, ?_, ?_⟩
    · rw [brought, read]
      rfl
    · rw [errors, collected, reverse_append, reverse_reverse, append_assoc]
      rfl

/-- The errors and statements of lines are those of each line, read on its own. -/
theorem recovery_stays_in_line (lines : List PlainLine) (closing own : List Token) (unit : Nat)
    (closes : ∀ token ∈ closing ++ own, token.kind = .endOfFile) :
    let whole := parse (lines.flatMap text ++ closing) unit
    let alone (line : PlainLine) := parse (line.text ++ own) unit
    whole.errors = lines.flatMap (fun line => (alone line).errors) ∧
      whole.statements = lines.flatMap fun line => (alone line).statements := by
  intro whole _
  obtain ⟨closed, closedAlone⟩ := List.forall_mem_append.mp closes
  obtain ⟨_, read, errors⟩ := program_lines closedAlone lines {} (by rfl)
    (Reading.ofTokens_ends (lines.flatMap text ++ closing) unit) (ofTokens_lines lines unit closed)
  have parsed : whole = _ := parse_of_program read
  rw [parsed]
  exact ⟨errors, rfl⟩

def nameless : PlainLine := ⟨[⟨.keyword .LET, "LET", {}⟩], ⟨.newline, "", {}⟩, rfl, by simp; rfl⟩

def lone : PlainLine := ⟨[⟨.identifier "x", "x", {}⟩], ⟨.newline, "", {}⟩, rfl, by simp; rfl⟩

/-- The name is read as if there were no mistake in the line before it. -/
theorem lone_is_read_behind_nameless :
    let whole := parse ([nameless, lone].flatMap text ++ [⟨.endOfFile, "", {}⟩])
    whole.errors.length = 1 ∧ whole.statements.length = 1 ∧
      whole.errors = (parse nameless.text).errors ∧ whole.statements = (parse lone.text).statements := by
  obtain ⟨errors, statements⟩ := recovery_stays_in_line [nameless, lone] [⟨.endOfFile, "", {}⟩] [] 0
    (by simp)
  exact ⟨by decide +kernel, by decide +kernel, errors, statements⟩

end PlainLine

end Stepper
