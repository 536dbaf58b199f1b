import Stepper.Analysis
import Stepper.Proofs.Layout
import Stepper.Proofs.Provenance
import Stepper.Proofs.Rounds

/-! # Accepted programs are well formed -/

namespace Stepper

open Reading (lastOf ofTokens ofTokens_ends)
open List

/-! ### What fits in -/

/-- Whether a statement may stand in a scope, nests at most this deep and is read from these tokens. -/
def Stmt.Fits (scope : Scope) (room : Nat) (ts : List Token) (s : Stmt) : Prop :=
  s.isLegal scope = true ∧ s.nesting ≤ room ∧ s.IsReadFrom ts

def ListFits (scope : Scope) (room : Nat) (ts : List Token) (statements : List Stmt) : Prop :=
  listIsLegal scope statements = true ∧ listNesting statements ≤ room ∧ ListIsReadFrom ts statements

def Block.Fits (scope : Scope) (room : Nat) (ts : List Token) (body : Block) : Prop :=
  body.isLegal scope = true ∧ body.nesting ≤ room ∧ ListIsReadFrom ts body.statements

def OptionFits (scope : Scope) (room : Nat) (ts : List Token) (body : Option Block) : Prop :=
  optionIsLegal scope body = true ∧ ∀ other ∈ body, other.Fits scope room ts

section Fits
variable {scope : Scope} {room : Nat} {ts : List Token}

lemma ListFits.nil : ListFits scope room ts [] := ⟨rfl, Nat.zero_le room, .nil⟩

lemma ListFits.cons (here : first.Fits scope room ts) (others : ListFits scope room us rest) :
    ListFits scope room (gap ++ (ts ++ us)) (first :: rest) :=
  ⟨Bool.and_eq_true_iff.mpr ⟨here.1, others.1⟩, Nat.max_le.mpr ⟨here.2.1, others.2.1⟩,
    .cons here.2.2 others.2.2⟩

lemma ListFits.block (fits : ListFits scope room ts statements) (location) :
    (⟨statements, location⟩ : Block).Fits scope room ts :=
  fits

lemma Block.Fits.widen {body : Block} (fits : body.Fits scope room ts) (within : ts <:+: us) :
    body.Fits scope room us :=
  ⟨fits.1, fits.2.1, fits.2.2.widen within⟩

lemma Stmt.Fits.single {s : Stmt} (fits : s.Fits scope room ts) : (Block.single s).Fits scope room ts :=
  ⟨Bool.and_eq_true_iff.mpr ⟨fits.1, rfl⟩, Nat.max_le.mpr ⟨fits.2.1, Nat.zero_le room⟩, fits.2.2.single⟩

lemma Block.Fits.some (fits : body.Fits scope room ts) : OptionFits scope room ts (some body) :=
  ⟨fits.1, fun _ found => Option.mem_some.mp found ▸ fits⟩

lemma OptionFits.none : OptionFits scope room ts none := ⟨rfl, nofun⟩

lemma Stmt.nesting_le {s : Stmt} (fits : ∀ body ∈ s.bodies, body.nesting ≤ room) :
    s.nesting ≤ room + 1 := by
  cases s with
  | branch _ _ elseBranch =>
    obtain ⟨first, second⟩ := forall_mem_cons.mp fits
    refine Nat.succ_le_succ (Nat.max_le.mpr ⟨first, ?_⟩)
    cases elseBranch with
    | none => exact Nat.zero_le room
    | some other => exact second other (mem_singleton_self other)
  | function decl _ | classDef decl _ =>
    cases decl
    exact Nat.succ_le_succ (fits _ (mem_singleton_self _))
  | whileLoop _ _ _ | forRange _ _ _ _ _ _ | repeatLoop _ _ _ _ _ | block _ _ =>
    exact Nat.succ_le_succ (fits _ (mem_singleton_self _))
  | declare _ _ _ _ | giveBack _ _ | print _ _ | leaveLoop _ | nextIteration _ | expression _ _ =>
    exact Nat.le_add_left 1 room

variable {s : Stmt} {first : Token}

lemma Stmt.Fits.of_bodies {inner : Scope} (place : s.location = first.location.upTo last)
    (ends : last = lastOf first.location others)
    (fits : ∀ body ∈ s.bodies, body.Fits inner room (first :: others))
    (legal : (∀ body ∈ s.bodies, body.isLegal inner = true) → s.isLegal scope = true)
    (values : ∀ e ∈ s.expressions, e.IsSpelledIn (first :: others)) :
    s.Fits scope (room + 1) (first :: others) :=
  ⟨legal fun body own => (fits body own).1, Stmt.nesting_le fun body own => (fits body own).2.1,
    .spans (ends ▸ place) values fun body own => (fits body own).2.2⟩

lemma Stmt.Fits.flat (ends : last = lastOf first.location others)
    (place : s.location = first.location.upTo last) (flat : s.bodies = [])
    (legal : s.isLegal scope) (values : ∀ e ∈ s.expressions, e.IsSpelledIn (first :: others)) :
    s.Fits scope (room + 1) (first :: others) :=
  have none : ∀ body ∈ s.bodies, body.Fits scope room (first :: others) := by simp [flat]
  .of_bodies place ends none (fun _ => legal) values

lemma Block.Fits.inside {body : Block} {inner : Scope} (fits : body.Fits inner room ts)
    (ends : last = lastOf first.location others) (within : ts <:+: first :: others)
    (place : s.location = first.location.upTo last) (own : s.bodies = [body])
    (legal : body.isLegal inner = true → s.isLegal scope = true)
    (values : ∀ e ∈ s.expressions, e.IsSpelledIn (first :: others)) :
    s.Fits scope (room + 1) (first :: others) :=
  .of_bodies place ends (by simpa [own] using fits.widen within) (by simpa [own] using legal) values

lemma Block.Fits.branch {condition : Expr} (fits : thenBranch.Fits scope room ts)
    (second : OptionFits scope room us elseBranch) (value : condition.IsSpelledIn (first :: others))
    (ends : last = lastOf first.location others) (before : ts <:+: first :: others)
    (behind : us <:+: first :: others) :
    (Stmt.branch condition thenBranch elseBranch (first.location.upTo last)).Fits scope (room + 1)
    (first :: others) :=
  .of_bodies rfl ends (forall_mem_cons.mpr
      ⟨fits.widen before, fun body other => (second.2 body (Option.mem_toList.mp other)).widen behind⟩)
    (fun _ => Bool.and_eq_true_iff.mpr ⟨fits.1, second.1⟩) (forall_mem_singleton.mpr value)

end Fits

namespace Parser
variable {n : Nat}

lemma vouches_level {p q : Parser Stmt} {tokens : List Token → List Token}
    (inner : Vouches { spot with room := spot.room - 1 } c n d p q fun ts =>
      Stmt.Fits spot.scope (spot.room - 1 + 1) (tokens ts)) :
    Vouches spot c n d (insideStatement p) (insideStatement q) fun ts =>
      Stmt.Fits spot.scope spot.room (tokens ts) :=
  inner.insideStatement.mono (by omega) fun _ _ ⟨positive, fits⟩ => Nat.sub_add_cancel positive ▸ fits

/-! ### Expressions -/

lemma vouches_expression (n) : Vouches spot 11 n 1 (expression embedTemplate n)
    (expression embedTemplate (n + 1)) Expr.IsSpelledIn := by
  refine fun s ends _ => Steady.vouched ((isSteady_expression embed_blames n s).last (by omega) ?_) ends rfl
  exact fun ts e spells => ⟨ts, _, infix_rfl, Nat.sub_le _ _, spells⟩

lemma vouches_itemsFrom (n) : Vouches spot 12 n 1 (itemsFrom embedTemplate n)
    (itemsFrom embedTemplate (n + 1)) fun ts items => ∀ e ∈ items, e.IsSpelledIn ts := by
  refine fun s ends _ => Steady.vouched ((isSteady_itemsFrom embed_blames n s).last (by omega) ?_) ends rfl
  exact fun ts e spells => spells.isSpelledIn (Nat.sub_le _ _)

lemma vouches_headerValue (n) :
    Vouches spot 11 n 0 (headerValue n) (headerValue (n + 1)) Expr.IsSpelledIn := by
  refine vouches_look fun s ends here => ?_
  refine (vouches_expression n s ends here).attempt (by omega) ends (fun _ _ => ?_) fun _ _ onward => ?_
  · exact vouches_pure fun spelled => spelled.widen (by grind)
  · exact vouched_reported onward ends fun _ =>
      proceeds_past (proceeds_update (.skipWhile _)) fun _ => proceeds_pure _

lemma vouches_rangeStep (n) : Vouches spot 1 n 0 (rangeStep n) (rangeStep (n + 1)) fun ts step => ∀ e ∈
    step.toList, e.IsSpelledIn ts := by
  cases n with
  | zero => exact vouches_exhausted
  | succ n =>
    rw [rangeStep, rangeStep]
    refine .succ (vouches_accept rfl (fun _ => ?_) (vouches_pure (forall_mem_nil _)))
    exact (vouches_expression n).bind (by omega) fun _ ts =>
      vouches_pure fun spelled => forall_mem_singleton.mpr (spelled.widen (by grind))

/-! ### Statements without a body -/

lemma vouches_declare (n) :
    VouchesAhead spot 0 n 1 (declare n) (declare (n + 1)) (Stmt.Fits spot.scope (spot.room + 1)) := by
  refine vouches_next fun _ => ?_
  refine vouches_past (proceeds_expectName _) fun _ _ => ?_
  refine vouches_past proceeds_typeHint fun _ _ => ?_
  refine vouches_past (proceeds_accept _) fun _ _ => ?_
  split
  · refine (vouches_expression n).bind (by omega) fun _ _ => ?_
    exact vouches_span (vouches_pure fun spelled =>
      .flat (by simp) rfl rfl rfl (forall_mem_singleton.mpr (spelled.widen (by grind))))
  · exact vouches_span (vouches_pure (.flat (by simp) rfl rfl rfl (forall_mem_nil _)))

lemma vouches_print (n) :
    VouchesAhead spot 0 n 1 (print n) (print (n + 1)) (Stmt.Fits spot.scope (spot.room + 1)) := by
  refine vouches_next fun _ => ?_
  refine vouches_ask fun _ => ?_
  split
  · exact vouches_span (vouches_pure (.flat (by simp) rfl rfl rfl (forall_mem_nil _)))
  · refine (vouches_itemsFrom n).bind (by omega) fun _ _ => ?_
    exact vouches_span (vouches_pure fun spelled =>
      .flat (by simp) rfl rfl rfl fun e mem => (spelled e mem).widen (by grind))

lemma vouches_expressionStatement (n) : Vouches spot 11 n 1 (expressionStatement n)
    (expressionStatement (n + 1)) (Stmt.Fits spot.scope (spot.room + 1)) :=
  (vouches_expression n).bind (by omega) fun _ _ => vouches_pure fun spelled =>
    ⟨rfl, Nat.le_add_left 1 _, .expression (spelled.widen (by grind))⟩

lemma vouches_giveBack (n) :
    VouchesAhead spot 0 n 1 (giveBack n) (giveBack (n + 1)) (Stmt.Fits spot.scope (spot.room + 1)) := by
  refine vouches_nextReportIf (·.functions = 0) _ (·.inFunction = true)
    (fun _ inside => decide_eq_true (Nat.pos_of_ne_zero inside)) fun _ => ?_
  refine vouches_ask fun _ => ?_
  split
  · exact vouches_span (vouches_pure fun legal => .flat (by simp) rfl rfl legal (forall_mem_nil _))
  · refine (vouches_expression n).bind (by omega) fun _ _ => ?_
    exact vouches_span (vouches_pure fun spelled legal =>
      .flat (by simp) rfl rfl legal (forall_mem_singleton.mpr (spelled.widen (by grind))))

lemma vouches_loopControl (keyword) (controls : ∀ scope location, scope.inLoop = true → (make
      location).isLegal scope = true) (flat : ∀ location, (make location).expressions = [] ∧ (make
      location).bodies = [] ∧ (make location).location = location) : VouchesAhead spot 0 n 1
    (loopControl keyword make) (loopControl keyword make) (Stmt.Fits spot.scope (spot.room + 1)) := by
  refine vouches_nextReportIf (·.loops = 0) _ (·.inLoop = true)
    (fun s inside => decide_eq_true (Nat.pos_of_ne_zero inside)) fun start => ?_
  obtain ⟨none, leaf, place⟩ := flat start.location
  have span : start.location = start.location.upTo start.location := by simp [Location.upTo]
  exact vouches_pure fun legal => .flat (by simp) (place.trans span) leaf (controls _ _ legal) (by simp [none])

lemma vouches_loopStart (n) : Vouches spot 0 n 0 (loopStart n) (loopStart (n + 1)) fun ts opening =>
    opening.1.isSome = opening.2.isSome ∧ ∀ e ∈ opening.2.toList, e.IsSpelledIn ts := by
  let named (n) : Parser (Option String × Option Expr) := do
    let name ← expectName .loopVariable
    let _ ← next
    let first ← expression embedTemplate n
    let _ ← expect (TokenKind.isKeyword .FOR) .loopCount
    pure (some name, some first)
  have both : Vouches spot 0 n 0 (named n) (named (n + 1)) fun ts opening =>
      opening.1.isSome = opening.2.isSome ∧ ∀ e ∈ opening.2.toList, e.IsSpelledIn ts := by
    refine vouches_past (proceeds_expectName _) fun name ts => ?_
    refine vouches_past proceeds_next fun _ _ => ?_
    refine (vouches_expression n).bind (by omega) fun first _ => ?_
    exact vouches_past (proceeds_expect _ ⟨rfl, rfl⟩) fun _ _ =>
      vouches_pure fun spelled => ⟨rfl, forall_mem_singleton.mpr (spelled.widen (by grind))⟩
  refine fun s ends here => ⟨?_, fun room => ?_⟩ <;> unfold loopStart <;> split
  · exact (both s ends here).answers
  · exact ⟨.refl s, Nat.le_refl _, fun _ _ => ⟨rfl, forall_mem_nil _⟩⟩
  · exact (both s ends here).settled room
  · exact ⟨rfl, rfl⟩

lemma onward_reports (bad : List Stmt) (s : Reading) : s.Onward (bad.foldl (fun s mem => s.report
      (SyntaxProblem.notAClassMember.errorAt mem.location)) s) := by
  induction bad generalizing s with
  | nil => exact .refl s
  | cons _ _ ih =>
    refine .trans (.report rfl ?_ s) (ih _)
    exact Diagnostic.isBelated_of_message .notAClassMember rfl (by simp)

lemma vouches_checkMembers (members : List Stmt) : Vouches spot 0 n 0 (checkMembers members)
    (checkMembers members) fun _ _ => members.all Stmt.isMember = true := by
  rw [← isClassMember_eq]
  refine fun s _ _ => ⟨⟨onward_reports _ s, (onward_reports _ s).rest.length_le, fun _ clean => ?_⟩,
    fun _ => ⟨rfl, rfl⟩⟩
  cases found : members.filter fun mem => !isClassMember mem with
  | nil =>
    refine all_eq_true.mpr fun mem within => ?_
    simpa using filter_eq_nil_iff.mp found mem within
  | cons _ others =>
    dsimp only at clean
    rw [found, foldl_cons] at clean
    exact absurd ((onward_reports others _).clean clean) (Reading.report_not_clean _ s)

/-! ### Statements with a body -/

mutual

theorem vouches_statements : (n : Nat) → (terminators : List Keyword) → (before : Preceding) →
    {spot : Spot} → Vouches spot 14 n 0 (statements n terminators before)
      (statements (n + 1) terminators before) (ListFits spot.scope spot.room)
  | 0, _, _, _ => vouches_exhausted
  | n + 1, terminators, before, _ => by
    rintro s ends rfl
    have turns : (round n terminators before s).Turns s _ := round_turns (vouches_statement n) ends
    have settled (room : 32 * s.rest.length + 14 ≤ n + 1) :
        round (n + 1) terminators before s = round n terminators before s ∧
          ∀ t, round n terminators before s ≠ .spent t :=
      round_settled (vouches_statement n) ends (by omega)
    cases turned : round n terminators before s with
    | done =>
      rw [turned] at turns
      refine ⟨?_, fun room => ?_⟩
      · rw [statements_succ, turned]
        exact ⟨turns, turns.rest.length_le, fun _ _ => .nil⟩
      · rw [statements_succ, statements_succ, (settled room).1, turned]
        exact ⟨rfl, rfl⟩
    | spent =>
      rw [turned] at turns
      exact ⟨by rw [statements_succ, turned]; exact turns, fun room => absurd turned ((settled room).2 _)⟩
    | more found after u =>
      rw [turned] at turns
      obtain ⟨onward, passes, holds⟩ := turns
      have rest : Vouches (s.spot.after (s.passed u)) (13 + 32 * 1) n 0
          (statements n terminators after >>= fun others => pure (found.toList ++ others))
          (statements (n + 1) terminators after >>= fun others => pure (found.toList ++ others))
          fun us result =>
            (∃ statement gap ts, found = some statement ∧ s.passed u = gap ++ ts ∧
              statement.Fits s.spot.scope s.spot.room ts) →
              ListFits s.spot.scope s.spot.room (s.passed u ++ us) result := by
        refine (vouches_statements n terminators after).bind (by omega) fun others us => vouches_pure ?_
        rintro fits ⟨_, _, _, rfl, passed, here⟩
        rw [passed, append_nil, append_assoc]
        exact .cons here fits
      have later : Vouched s 13 n 0 (ListFits s.spot.scope s.spot.room) _ _ u :=
        Vouched.after (e := 1) (rest u (onward.ends ends) onward.spot) onward passes holds
      refine ⟨?_, fun room => ?_⟩
      · rw [statements_succ, turned, Round.reply, ← bind_prepend]
        exact later.answers
      · rw [statements_succ, statements_succ, (settled room).1, turned, Round.reply, Round.reply,
          ← bind_prepend, ← bind_prepend]
        exact later.settled (by omega)

theorem vouches_statement : (n : Nat) → {spot : Spot} →
    Vouches spot 13 n 1 (statement n) (statement (n + 1)) (Stmt.Fits spot.scope spot.room)
  | 0, _ => vouches_exhausted
  | n + 1, _ => by
    rw [statement, statement]
    exact .succ (vouches_level (vouches_statementByKeyword n))

theorem vouches_statementByKeyword : (n : Nat) → {spot : Spot} →
    Vouches spot 12 n 1 (statementByKeyword n) (statementByKeyword (n + 1))
      (Stmt.Fits spot.scope (spot.room + 1))
  | 0, _ => vouches_exhausted
  | n + 1, _ => by
    rw [statementByKeyword, statementByKeyword]
    refine .succ (vouches_look ?_)
    rintro s ends rfl
    have ahead {word : Keyword} (kind : s.peek.kind = .keyword word) : s.rest ≠ [] :=
      s.ahead ends (by rw [kind]; nofun)
    split
    · next kind => exact (vouches_declare n).here ends (ahead kind) (by omega)
    · next kind => exact (vouches_function n).here ends (ahead kind) (by omega)
    · next kind => exact (vouches_classDef n).here ends (ahead kind) (by omega)
    · next kind =>
      exact vouches_next (fun start => Vouches.last (vouches_branch n start [] rfl) (by omega)) s ends rfl
        (ahead kind)
    · next kind => exact (vouches_whileLoop n).here ends (ahead kind) (by omega)
    · next kind => exact (vouches_forRange n).here ends (ahead kind) (by omega)
    · next kind => exact (vouches_repeatLoop n).here ends (ahead kind) (by omega)
    · next kind => exact (vouches_startBlock n).here ends (ahead kind) (by omega)
    · next kind => exact (vouches_giveBack n).here ends (ahead kind) (by omega)
    · next kind => exact (vouches_print n).here ends (ahead kind) (by omega)
    · next kind =>
      exact VouchesAhead.here (vouches_loopControl _ (fun _ _ legal => legal) fun _ => ⟨rfl, rfl, rfl⟩)
        ends (ahead kind) (by omega)
    · next kind =>
      exact VouchesAhead.here (vouches_loopControl _ (fun _ _ legal => legal) fun _ => ⟨rfl, rfl, rfl⟩)
        ends (ahead kind) (by omega)
    · exact vouches_failNext
    · exact vouches_failNext
    · exact vouches_failNext
    · exact vouches_expressionStatement n s ends rfl

theorem vouches_function : (n : Nat) → {spot : Spot} → VouchesAhead spot 1 n 1 (function n)
    (function (n + 1)) (Stmt.Fits spot.scope (spot.room + 1))
  | 0, _ => fun s ends here _ => vouches_exhausted s ends here
  | n + 1, _ => by
    rw [function, function]
    refine .succ (vouches_next fun _ => ?_)
    refine vouches_past (proceeds_expectName _) fun _ _ => ?_
    refine vouches_past (proceeds_expect _ ⟨rfl, rfl⟩) fun _ _ => ?_
    refine vouches_past (Vouches.last (d := 0) (proceeds_params n) (by omega)) fun _ _ => ?_
    refine vouches_past (proceeds_expect _ ⟨rfl, rfl⟩) fun _ _ => ?_
    refine (vouches_body n _ _).insideFunction.bind (by omega) fun _ _ => ?_
    refine vouches_span (vouches_ask fun _ => vouches_pure fun fits => ?_)
    exact fits.inside (by simp) (by grind) rfl rfl id (forall_mem_nil _)

theorem vouches_classDef : (n : Nat) → {spot : Spot} → VouchesAhead spot 1 n 1 (classDef n)
    (classDef (n + 1)) (Stmt.Fits spot.scope (spot.room + 1))
  | 0, _ => fun s ends here _ => vouches_exhausted s ends here
  | n + 1, _ => by
    rw [classDef, classDef]
    refine .succ (vouches_next fun _ => ?_)
    refine vouches_past (proceeds_expectName _) fun _ _ => ?_
    refine vouches_past proceeds_superclass fun _ _ => ?_
    refine (vouches_body n _ _).bind (by omega) fun body _ => ?_
    refine (vouches_checkMembers body.statements).bind (by omega) fun _ _ => ?_
    refine vouches_span (vouches_ask fun _ => ?_)
    exact vouches_pure fun members fits => fits.inside (by simp) (by grind) rfl rfl
      (fun legal => Bool.and_eq_true_iff.mpr ⟨members, legal⟩) (forall_mem_nil _)

theorem vouches_branch : (n : Nat) → (start : Token) → (passed : List Token) → {spot : Spot} →
    spot.last = lastOf start.location passed →
    Vouches spot 15 n 0 (branch n start.location) (branch (n + 1) start.location) fun ts =>
      Stmt.Fits spot.scope (spot.room + 1) (start :: (passed ++ ts))
  | 0, _, _, _, _ => vouches_exhausted
  | n + 1, start, passed, _, last => by
    rw [branch, branch]
    refine .succ ((vouches_headerValue n).bind (by omega) fun _ ts => ?_)
    refine vouches_past (proceeds_opener _) fun _ _ => ?_
    split
    · refine (vouches_statement n).bind (by omega) fun inner vs => ?_
      refine (vouches_inlineElse n).bind (by omega) fun elseBranch ws => ?_
      exact vouches_span (vouches_pure fun second first spelled =>
        first.single.branch second (spelled.widen (by grind)) (by simp [last]) (by grind) (by grind))
    · refine vouches_ask fun _ => ?_
      refine (vouches_statements n _ _).bind (by omega) fun inner vs => ?_
      refine (vouches_blockElse n start.location).bind (by omega) fun elseBranch ws => ?_
      exact vouches_span (vouches_pure fun second first spelled =>
        (first.block _).branch second (spelled.widen (by grind)) (by simp [last]) (by grind) (by grind))

theorem vouches_inlineElse : (n : Nat) → {spot : Spot} → Vouches spot 1 n 0 (inlineElse n)
    (inlineElse (n + 1)) (OptionFits spot.scope spot.room)
  | 0, _ => vouches_exhausted
  | n + 1, _ => by
    rw [inlineElse, inlineElse]
    refine .succ (vouches_accept rfl (fun start => ?_) (vouches_pure .none))
    refine vouches_last (vouches_accept rfl (fun second => ?_) ?_)
    · exact (vouches_level (vouches_branch n start [second] rfl)).bind (by omega) fun inner ts =>
        vouches_pure fun fits => (fits.single.widen (by grind)).some
    · refine vouches_past (proceeds_accept _) fun _ ts => ?_
      exact (vouches_statement n).bind (by omega) fun inner _ =>
        vouches_pure fun fits => (fits.single.widen (by grind)).some

theorem vouches_blockElse : (n : Nat) → (opened : Location) → {spot : Spot} →
    Vouches spot 1 n 0 (blockElse n opened) (blockElse (n + 1) opened)
      (OptionFits spot.scope spot.room)
  | 0, _, _ => vouches_exhausted
  | n + 1, opened, _ => by
    rw [blockElse, blockElse]
    refine .succ (vouches_accept rfl (fun start => ?_) (vouches_accept rfl (fun start => ?_) ?_))
    · exact vouches_last ((vouches_level (vouches_branch n start [] rfl)).bind (by omega) fun inner ts =>
        vouches_pure fun fits => (fits.single.widen (by grind)).some)
    · refine vouches_last (vouches_accept rfl (fun second => ?_) ?_)
      · exact (vouches_level (vouches_branch n start [second] rfl)).bind (by omega) fun inner ts =>
          vouches_pure fun fits => (fits.single.widen (by grind)).some
      · refine vouches_past (proceeds_accept _) fun _ ts => ?_
        refine vouches_ask fun _ => ?_
        split
        · refine (vouches_statement n).bind (by omega) fun inner vs => ?_
          refine vouches_past proceeds_skipBreaks fun _ ws => ?_
          exact vouches_past (proceeds_closeBlock opened) fun _ _ =>
            vouches_pure fun fits => (fits.single.widen (by grind)).some
        · refine (vouches_statements n _ _).bind (by omega) fun inner vs => ?_
          exact vouches_past (proceeds_closeBlock opened) fun _ ws =>
            vouches_pure fun fits => ((fits.block _).widen (by grind)).some
    · exact vouches_past (proceeds_closeBlock opened) fun _ ts => vouches_pure .none

theorem vouches_whileLoop : (n : Nat) → {spot : Spot} → VouchesAhead spot 1 n 1 (whileLoop n)
    (whileLoop (n + 1)) (Stmt.Fits spot.scope (spot.room + 1))
  | 0, _ => fun s ends here _ => vouches_exhausted s ends here
  | n + 1, _ => by
    rw [whileLoop, whileLoop]
    refine .succ (vouches_next fun _ => ?_)
    refine (vouches_headerValue n).bind (by omega) fun _ _ => ?_
    refine (vouches_body n _ _).insideLoop.bind (by omega) fun _ _ => ?_
    exact vouches_span (vouches_pure fun fits spelled =>
      fits.inside (by simp) (by grind) rfl rfl id (forall_mem_singleton.mpr (spelled.widen (by grind))))

theorem vouches_forRange : (n : Nat) → {spot : Spot} → VouchesAhead spot 1 n 1 (forRange n)
    (forRange (n + 1)) (Stmt.Fits spot.scope (spot.room + 1))
  | 0, _ => fun s ends here _ => vouches_exhausted s ends here
  | n + 1, _ => by
    rw [forRange, forRange]
    refine .succ (vouches_next fun _ => ?_)
    refine vouches_past (proceeds_expectName _) fun _ _ => ?_
    refine vouches_past (proceeds_expect _ ⟨rfl, rfl⟩) fun _ _ => ?_
    refine (vouches_expression n).bind (by omega) fun first _ => ?_
    refine vouches_past (proceeds_expect _ ⟨rfl, rfl⟩) fun _ _ => ?_
    refine (vouches_expression n).bind (by omega) fun last _ => ?_
    refine (vouches_rangeStep n).bind (by omega) fun step _ => ?_
    refine (vouches_body n _ _).insideLoop.bind (by omega) fun _ _ => ?_
    exact vouches_span (vouches_pure fun fits step last first => fits.inside (by simp) (by grind) rfl rfl id
      (forall_mem_cons.mpr ⟨first.widen (by grind), forall_mem_cons.mpr ⟨last.widen (by grind),
        fun e member => (step e member).widen (by grind)⟩⟩))

theorem vouches_repeatLoop : (n : Nat) → {spot : Spot} → VouchesAhead spot 1 n 1 (repeatLoop n)
    (repeatLoop (n + 1)) (Stmt.Fits spot.scope (spot.room + 1))
  | 0, _ => fun s ends here _ => vouches_exhausted s ends here
  | n + 1, _ => by
    rw [repeatLoop, repeatLoop]
    refine .succ (vouches_next fun _ => ?_)
    refine (vouches_loopStart n).bind (by omega) fun opening _ => ?_
    refine (vouches_expression n).bind (by omega) fun _ _ => ?_
    refine vouches_past (proceeds_expect _ ⟨rfl, rfl⟩) fun _ _ => ?_
    refine (vouches_body n _ _).insideLoop.bind (by omega) fun _ _ => ?_
    exact vouches_span (vouches_pure fun fits spelled opening => fits.inside (by simp) (by grind) rfl rfl
      (fun legal => Bool.and_eq_true_iff.mpr ⟨beq_iff_eq.mpr opening.1, legal⟩)
      (forall_mem_cons.mpr ⟨spelled.widen (by grind), fun e member => (opening.2 e member).widen (by grind)⟩))

theorem vouches_startBlock : (n : Nat) → {spot : Spot} → VouchesAhead spot 1 n 1 (startBlock n)
    (startBlock (n + 1)) (Stmt.Fits spot.scope (spot.room + 1))
  | 0, _ => fun s ends here _ => vouches_exhausted s ends here
  | n + 1, _ => by
    rw [startBlock, startBlock]
    refine .succ (vouches_next fun _ => ?_)
    refine vouches_past (proceeds_accept _) fun _ _ => ?_
    refine (vouches_statements n _ _).bind (by omega) fun _ _ => ?_
    refine vouches_past (proceeds_closeBlock _) fun _ _ => ?_
    exact vouches_span (vouches_pure fun fits =>
      (fits.block _).inside (by simp) (by grind) rfl rfl id (forall_mem_nil _))

theorem vouches_body : (n : Nat) → (header : Header) → (start : Location) → {spot : Spot} →
    Vouches spot 15 n 0 (body n header start) (body (n + 1) header start)
      (Block.Fits spot.scope spot.room)
  | 0, _, _, _ => vouches_exhausted
  | n + 1, header, start, _ => by
    rw [body, body]
    refine .succ (vouches_past (proceeds_opener header) fun _ _ => ?_)
    refine vouches_look fun s ends here => ?_
    split
    · refine (vouches_statement n s ends here).attempt (by omega) ends (fun inner us => ?_) fun _ _ onward => ?_
      · exact vouches_pure fun fits => fits.single.widen (by grind)
      · exact vouched_reported onward ends fun _ =>
          proceeds_past proceeds_skipToStatement fun _ => proceeds_pure _
    · refine Vouches.bind (vouches_statements n _ _) (by omega) (fun inner us => ?_) s ends here
      exact vouches_past (proceeds_closeBlock start) fun _ _ =>
        vouches_pure fun fits => (fits.block _).widen (by grind)

end

end Parser

/-! ### Programs -/

lemma parse_fits (accepted : (parse tokens unit).errors = []) :
    ListFits {} nestingLimit (ofTokens tokens unit).rest (parse tokens unit).statements := by
  have answers := (Parser.vouches_statements (parseFuel (ofTokens tokens unit).rest) [] {}
    (ofTokens tokens unit) (ofTokens_ends tokens unit) rfl).answers
  unfold parse at accepted ⊢
  dsimp only at accepted ⊢
  split at accepted
  · next _ t run =>
    rw [run] at answers
    have none : t.errors = [] := reverse_eq_nil_iff.mp accepted
    obtain ⟨legal, nests, read⟩ :=
      answers.2.2 (Nat.zero_le _) ⟨none, answers.1.honest (fun _ => rfl) none⟩
    have front : (ofTokens tokens unit).passed t <+: (ofTokens tokens unit).rest := take_prefix _ _
    exact ⟨legal, nests, read.widen front.isInfix⟩
  · simp at accepted
  · exact .nil

lemma parse_isWellFormed (accepted : (parse tokens unit).errors = []) :
    Program.IsWellFormed ⟨(parse tokens unit).statements⟩ :=
  have fits := parse_fits accepted
  ⟨fits.1, fits.2.1⟩

lemma parse_onward (tokens) (unit) : ∃ t, (ofTokens tokens unit).Onward t ∧ (parse tokens unit).errors =
    t.errors.reverse ∧ (parse tokens unit).warnings = t.warnings.reverse := by
  have answers := (Parser.vouches_statements (parseFuel (ofTokens tokens unit).rest) [] {}
    (ofTokens tokens unit) (ofTokens_ends tokens unit) rfl).answers
  unfold parse
  dsimp only
  split
  · next _ t run =>
    rw [run] at answers
    exact ⟨t, answers.1, rfl, rfl⟩
  · next error t run =>
    rw [run] at answers
    exact ⟨t.report error, answers.2, rfl, rfl⟩
  · next t run =>
    rw [run] at answers
    exact ⟨t, answers, rfl, rfl⟩

lemma parse_errors (tokens) (unit) : ∀ error ∈ (parse tokens unit).errors, error.isError = true := by
  obtain ⟨_, onward, errors, -⟩ := parse_onward tokens unit
  rw [errors]
  exact fun error found => onward.errors (forall_mem_nil _) error (mem_reverse.mp found)

lemma parse_of_accepted (accepted : (analyzeUnit unit source).program = some program) :
    (parse (scan source).tokens unit).errors = [] ∧ program =
    ⟨(parse (scan source).tokens unit).statements⟩ := by
  unfold analyzeUnit at accepted
  dsimp only at accepted
  split at accepted
  · cases accepted
  · next nothing =>
    cases accepted
    refine ⟨eq_nil_iff_forall_not_mem.mpr fun error found => nothing ?_, rfl⟩
    refine any_eq_true.mpr ⟨error, ?_, parse_errors _ _ error found⟩
    exact mem_append_left _ (mem_append_right _ found)

/-- Whatever its source, an accepted program is well formed: `BREAK` and `CONTINUE` stand in a loop of
their function, `RETURN` stands in a function, a class has members only, a loop that counts has both a
variable and a first value or neither, and statements nest no deeper than the limit, where each
`ELIF` of a chain is one level. -/
theorem accepted_program_isWellFormed (source : String) (program : Program)
    (accepted : (analyze source).program = some program) : program.IsWellFormed := by
  obtain ⟨clean, rfl⟩ := parse_of_accepted accepted
  exact parse_isWellFormed clean

def crowded : String :=
  "CLASS C\nFUNC f(n)\nLOOP i = 1 FOR 9 TIMES\n" ++
    "IF i == n:\nRETURN i\nELIF i > 3:\nBREAK\nEND\nEND\nEND\nEND\n"

/-- It is accepted, with seven statements that nest six deep, and well formed. -/
theorem crowded_isWellFormed : ∃ program, (analyze crowded).program = some program ∧
    program.allStatements.length = 7 ∧ listNesting program.statements = 6 ∧
    program.IsWellFormed := by
  have accepted : ((analyze crowded).program.any fun program =>
      program.allStatements.length == 7 && listNesting program.statements == 6) = true := by
    decide +kernel
  obtain ⟨program, found, sizes⟩ := (Option.any_eq_true _ _).mp accepted
  obtain ⟨many, deep⟩ := Bool.and_eq_true_iff.mp sizes
  exact ⟨program, found, beq_iff_eq.mp many, beq_iff_eq.mp deep,
    accepted_program_isWellFormed crowded program found⟩

end Stepper
