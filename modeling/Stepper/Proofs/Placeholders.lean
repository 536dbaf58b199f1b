import Stepper.Proofs.InvalidTokens
import Stepper.Proofs.Restoring

/-! # Placeholders -/

namespace Stepper

open List

/-! ### Templates among the tokens -/

def Reading.All (fits : Token → Prop) (s : Reading) : Prop :=
  ∀ token ∈ s.rest ++ [s.ending], fits token

namespace Parser
variable {α β : Type} {fits : Token → Prop} {p q : Parser α} {f g : α → Parser β}

def Agree (fits : Token → Prop) (p q : Parser α) : Prop :=
  ∀ s, s.All fits → q s = p s ∧ (p s).state.All fits

lemma agree_still (still : ∀ s, (p s).state = s) : Agree fits p p :=
  fun s fit => ⟨rfl, (still s).symm ▸ fit⟩

lemma Agree.bind (first : Agree fits p q) (next : ∀ value, Agree fits (f value) (g value)) :
    Agree fits (p >>= f) (q >>= g) := by
  intro s fit
  obtain ⟨same, left⟩ := first s fit
  change Parser.bind q g s = Parser.bind p f s ∧ (Parser.bind p f s).state.All fits
  unfold Parser.bind
  rw [same]
  cases reply : p s with rw [reply] at left
  | ok value t => exact next value t left
  | fail | spent => exact ⟨rfl, left⟩

lemma agree_look {f g : Token → Parser β}
    (next : ∀ token, fits token → Agree fits (f token) (g token)) :
    Agree fits (look >>= f) (look >>= g) := by
  intro s fit
  obtain ⟨_, ahead⟩ := s.peek_cons
  exact next s.peek (fit _ (ahead ▸ mem_cons_self)) s fit

lemma agree_passing (passes : ∀ s : Reading, ∃ ts, s.Passes ts (p s).state) : Agree fits p p := by
  refine fun s fit => ⟨rfl, ?_⟩
  obtain ⟨_, passes⟩ := passes s
  rw [Reading.All, passes.tokens, append_assoc, forall_mem_append, ← passes.same.1] at fit
  exact fit.2

lemma agree_next : Agree fits next next := agree_passing Reading.passes_step

lemma agree_skipBreaks : Agree fits skipBreaks skipBreaks := agree_passing (Reading.passes_skip _)

lemma agree_accept (test : TokenKind → Bool) : Agree fits (accept test) (accept test) := by
  refine fun s fit => ⟨rfl, ?_⟩
  unfold accept
  split
  · exact (agree_next s fit).2
  · exact fit

lemma Agree.ite [Decidable c] (yes : Agree fits p q) (no : Agree fits p' q') :
    Agree fits (if c then p else p') (if c then q else q') := by
  split
  · exact yes
  · exact no

lemma agree_past (still : ∀ s, (p s).state = s) (next : ∀ value, Agree fits (f value) (g value)) :
    Agree fits (p >>= f) (p >>= g) :=
  (agree_still still).bind next

lemma agree_expect (test : TokenKind → Bool) (what : Expectation) :
    Agree fits (expect test what) (expect test what) :=
  agree_past (fun _ => rfl) fun _ => .ite agree_next (agree_still fun _ => rfl)

lemma agree_expectName (what : Expectation) : Agree fits (expectName what) (expectName what) := by
  refine fun s fit => ⟨rfl, ?_⟩
  unfold expectName
  split
  · exact (agree_next s fit).2
  · exact fit

lemma Agree.insideExpression (inner : Agree fits p q) :
    Agree fits (insideExpression p) (insideExpression q) := by
  intro s fit
  unfold Parser.insideExpression
  split
  · exact ⟨rfl, fit⟩
  · obtain ⟨same, left⟩ := inner { s with expressions := s.expressions + 1 } fit
    rw [same]
    cases reply : p { s with expressions := s.expressions + 1 } <;> rw [reply] at left <;>
      exact ⟨rfl, left⟩

variable {embed other : Embedding} (same : ∀ token, fits token → ∀ body, token.kind = .interpolated body
    → ∀ place, other place body = embed place body)
include same

-- The recursion hands the variables on, which the linter does not see.
set_option linter.unusedSectionVars false in
mutual

theorem agree_expression : (n : Nat) → Agree fits (expression embed n) (expression other n)
  | 0 => agree_still fun _ => rfl
  | n + 1 => (agree_assignment n).insideExpression

theorem agree_assignment : (n : Nat) → Agree fits (assignment embed n) (assignment other n)
  | 0 => agree_still fun _ => rfl
  | n + 1 => by
    rw [assignment, assignment]
    refine (agree_climb n ladder).bind fun target => ?_
    refine agree_past (fun _ => rfl) fun _ => .ite ?_ (agree_still fun _ => rfl)
    refine agree_next.bind fun sign => (agree_assignment n).bind fun value => ?_
    split <;> exact agree_still fun _ => rfl

theorem agree_climb : (n : Nat) → (levels : List Level) →
    Agree fits (climb embed n levels) (climb other n levels)
  | 0, _ => agree_still fun _ => rfl
  | n + 1, [] => agree_unary n
  | n + 1, level :: tighter => by
    rw [climb, climb]
    exact (agree_climb n tighter).bind fun left => agree_climbOn n level tighter left

theorem agree_climbOn : (n : Nat) → (level : Level) → (tighter : List Level) → (left : Expr) →
    Agree fits (climbOn embed n level tighter left) (climbOn other n level tighter left)
  | 0, _, _, _ => agree_still fun _ => rfl
  | n + 1, level, tighter, left => by
    rw [climbOn, climbOn]
    refine agree_past (fun _ => rfl) fun token => ?_
    split
    · exact agree_next.bind fun _ => (agree_climb n tighter).bind fun _ => agree_climbOn n _ _ _
    · exact agree_still fun _ => rfl

theorem agree_unary : (n : Nat) → Agree fits (unary embed n) (unary other n)
  | 0 => agree_still fun _ => rfl
  | n + 1 => by
    rw [unary, unary]
    refine agree_past (fun _ => rfl) fun token => ?_
    split
    · exact agree_next.bind fun _ => (agree_unary n).insideExpression.bind fun _ => agree_still fun _ => rfl
    · exact (agree_primary n).bind fun target => agree_chain n target

theorem agree_chain : (n : Nat) → (target : Expr) →
    Agree fits (chain embed n target) (chain other n target)
  | 0, _ => agree_still fun _ => rfl
  | n + 1, target => by
    rw [chain, chain]
    refine (agree_accept _).bind fun _ => .ite ?_ ((agree_accept _).bind fun _ => .ite ?_
      ((agree_accept _).bind fun _ => .ite ?_ (agree_still fun _ => rfl)))
    · exact (agree_items n _).bind fun _ => (agree_expect _ _).bind fun _ => agree_chain n _
    · exact (agree_expression n).bind fun _ => (agree_expect _ _).bind fun _ => agree_chain n _
    · exact agree_past (fun _ => rfl) fun _ => (agree_expectName _).bind fun _ => agree_chain n _

theorem agree_items : (n : Nat) → (close : Punct) →
    Agree fits (items embed n close) (items other n close)
  | 0, _ => agree_still fun _ => rfl
  | n + 1, close => by
    rw [items, items]
    exact agree_past (fun _ => rfl) fun _ => .ite (agree_still fun _ => rfl) (agree_itemsFrom n)

theorem agree_itemsFrom : (n : Nat) → Agree fits (itemsFrom embed n) (itemsFrom other n)
  | 0 => agree_still fun _ => rfl
  | n + 1 => by
    rw [itemsFrom, itemsFrom]
    refine (agree_expression n).bind fun first => (agree_accept _).bind fun _ => ?_
    refine .ite ?_ (agree_still fun _ => rfl)
    exact (agree_itemsFrom n).bind fun _ => agree_still fun _ => rfl

theorem agree_primary : (n : Nat) → Agree fits (primary embed n) (primary other n)
  | 0 => agree_still fun _ => rfl
  | n + 1 => by
    rw [primary, primary]
    refine agree_look fun token fit => ?_
    split
    case h_3 body kind =>
      refine agree_next.bind fun place => ?_
      rw [same token fit body kind place]
      refine .bind ?_ fun _ => agree_still fun _ => rfl
      cases embed place body <;> exact agree_still fun _ => rfl
    case h_9 =>
      exact agree_next.bind fun _ => (agree_expression n).bind fun _ =>
        (agree_expect _ _).bind fun _ => agree_still fun _ => rfl
    case h_10 =>
      exact agree_next.bind fun _ => (agree_items n _).bind fun _ =>
        (agree_expect _ _).bind fun _ => agree_still fun _ => rfl
    case h_11 => exact agree_still fun _ => rfl
    all_goals exact agree_next.bind fun _ => agree_still fun _ => rfl

end

end Parser

lemma parseExpressionWith_congr (same : ∀ token ∈ (scan source).tokens, ∀
      body, token.kind = .interpolated body → ∀ place, other place body = embed place body) :
    parseExpressionWith other source = parseExpressionWith embed source := by
  let fits (token : Token) : Prop := ∀ body, token.kind = .interpolated body →
    ∀ place, other place body = embed place body
  have agree (n : Nat) : Parser.Agree fits (Parser.expression embed n) (Parser.expression other n) :=
    Parser.agree_expression (fun _ fit => fit) n
  have fit : (Reading.ofTokens (scan source).tokens).All fits := by
    refine forall_mem_append.mpr ⟨fun token mem => same token ?_, ?_⟩
    · exact ((takeWhile_sublist _).trans filter_sublist).subset mem
    · rw [forall_mem_singleton]
      intro _ kind
      cases (Reading.ofTokens_ends (scan source).tokens 0).symm.trans kind
  unfold parseExpressionWith
  dsimp only
  split
  · rfl
  · rw [((Parser.agree_skipBreaks.bind fun _ => (agree _).bind fun _ =>
      Parser.agree_skipBreaks.bind fun _ => Parser.agree_past (fun _ => rfl) fun _ =>
        .ite (Parser.agree_still fun _ => rfl) (Parser.agree_still fun _ => rfl)) _ fit).1]

/-! ### Where tokens come from -/

lemma scanCode_origin (place) (code) : ∀ token ∈ (scanCode place code).tokens, ∃
    first rest, first :: rest <:+ code ∧ token.kind = (lexeme first rest).kind := by
  fun_induction scanCode place code with
  | case1 => exact forall_mem_nil _
  | case2 _ first rest _ _ _ _ ih =>
    refine forall_mem_cons.mpr ⟨⟨first, rest, suffix_rfl, rfl⟩, fun token mem => ?_⟩
    obtain ⟨head, tail, within, kind⟩ := ih token mem
    exact ⟨head, tail, within.trans ((drop_suffix _ _).trans (suffix_cons _ _)), kind⟩

lemma infix_intercalate (mem : line ∈ lines) : line <:+: ['\n'].intercalate lines := by
  induction lines with
  | nil => cases mem
  | cons _ rest ih =>
    cases rest with
    | nil => exact mem_singleton.mp mem ▸ intercalate_singleton ▸ infix_rfl
    | cons =>
      rw [intercalate_cons_cons]
      obtain rfl | behind := mem_cons.mp mem
      · exact ((prefix_append _ _).trans (prefix_append _ _)).isInfix
      · exact (ih behind).trans (suffix_append _ _).isInfix

lemma scan_origin (mem : token ∈ (scan source).tokens)
    (begins : token.kind.beginsExpression) :
    ∃ first rest, first :: rest <:+: source.toList ∧ token.kind = (lexeme first rest).kind := by
  have origin (lines : List SourceLine) (place : Place) (mem : token ∈ (scanLines place lines).tokens) :
      ∃ line ∈ lines, ∃ place, token ∈ (scanCode place line.code).tokens := by
    have solid {other : Token} (found : token ∈ [other]) (stray : other.kind.beginsExpression = false) :
        False := by simp_all
    have inLine {line : SourceLine} {place : Place} (mem : token ∈ (scanLine place line).tokens) :
        ∃ place, token ∈ (scanCode place line.code).tokens := by
      refine (mem_append.mp mem).elim (⟨_, ·⟩) fun inside => ?_
      unfold scanComment at inside
      split at inside
      · cases inside
      · exact (solid inside rfl).elim
    induction lines generalizing place with
    | nil => exact (solid mem rfl).elim
    | cons line rest ih =>
      cases rest with
      | nil =>
        rw [scanLines_last] at mem
        obtain mem | mem := mem_append.mp mem
        · exact ⟨line, mem_cons_self, inLine mem⟩
        · exact (solid mem rfl).elim
      | cons =>
        rw [scanLines_next] at mem
        obtain mem | mem := mem_append.mp mem
        · exact ⟨line, mem_cons_self, inLine mem⟩
        obtain mem | mem := mem_append.mp mem
        · exact (solid mem rfl).elim
        · obtain ⟨line, known, found⟩ := ih _ mem
          exact ⟨line, mem_cons_of_mem _ known, found⟩
  have all := mem_of_mem_filter mem
  rw [scanAll_eq] at all
  obtain ⟨line, known, place, found⟩ := origin _ _ all
  obtain ⟨first, rest, within, kind⟩ := scanCode_origin place line.code token found
  refine ⟨first, rest, within.isInfix.trans ((prefix_append _ line.comment).isInfix.trans ?_), kind⟩
  rw [← joined_sourceLines commentMarker source]
  exact infix_intercalate (mem_map_of_mem known)

lemma template_shorter (mem : token ∈ (scan source).tokens)
    (kind : token.kind = .interpolated body) : body.length < source.length := by
  obtain ⟨first, rest, within, found⟩ := scan_origin mem (by rw [kind]; rfl)
  have inside := (lexeme_isSound first rest).2.2 body (found.symm.trans kind)
  have outside := within.length_le
  have starts := (lexeme_starts first rest).length_le
  rw [length_cons, String.length_toList] at outside
  omega

/-! ### Every template is split -/

section
lemma code_shorter :
    .code text ∈ templatePieces state chars →
    match state with
    | .outside _ => text.length + 2 ≤ chars.length
    | .inside _ code => text.length + 1 ≤ code.length + chars.length := by
  have literal {reversed : List Char} : .code text ∉ literalPiece reversed := by
    unfold literalPiece
    split <;> simp
  fun_induction templatePieces state chars with intro mem
  | case1 => exact (literal mem).elim
  | case2 reversed rest ih | case3 reversed rest ih => exact Nat.le_trans (ih mem) (by simp; omega)
  | case4 _ _ _ _ ih => simpa using ih ((mem_append.mp mem).resolve_left literal)
  | case5 _ _ _ _ _ _ ih => exact Nat.le_succ_of_le (ih mem)
  | case6 => simp at mem
  | case8 _ _ _ ih =>
    obtain own | behind := mem_cons.mp mem
    · cases own
      simp
    · exact Nat.le_trans (Nat.le_trans (Nat.le_succ _) (ih behind)) (by simp; omega)
  | case7 depth code rest ih | case9 code rest outer _ ih | case10 depth code c rest _ _ ih =>
    have inner := ih mem
    simp only [length_cons] at inner ⊢
    omega

lemma partsOfPieces_congr {read reread : List Char → Except Diagnostic Expr} {place : Location}
    (same : ∀ text, .code text ∈ pieces → reread text = read text) :
    partsOfPieces reread place pieces = partsOfPieces read place pieces := by
  induction pieces with
  | nil => rfl
  | cons piece _ ih =>
    have behind := ih fun text mem => same text (mem_cons_of_mem _ mem)
    cases piece with
    | literal => rw [partsOfPieces, partsOfPieces, behind]
    | code own => rw [partsOfPieces, partsOfPieces, behind, same own mem_cons_self]
    | unclosed => rfl

end

lemma templateParts_eq {n m : Nat} {place : Location} {body : String} {below beneath : Embedding}
    (room : body.length < n) (small : body.length < m) :
    templateParts below n place body = templateParts beneath m place body := by
  induction n generalizing m place body with
  | zero => cases room
  | succ _ ih =>
    obtain ⟨m, rfl⟩ : ∃ k, m = k + 1 := ⟨m - 1, by omega⟩
    refine partsOfPieces_congr fun text mem => ?_
    have shorter : text.length + 2 ≤ body.toList.length := code_shorter mem
    rw [String.length_toList] at shorter
    unfold parsePlaceholder
    rw [parseExpressionWith_congr fun token found inner kind there => ?_]
    have deeper := template_shorter found kind
    rw [String.length_ofList] at deeper
    exact ih (by omega) (by omega)

lemma embedTemplate_eq (place : Location) (body : String) : embedTemplate place body = partsOfPieces
    (parsePlaceholder embedTemplate place) place (templatePieces (.outside []) body.toList) := by
  refine partsOfPieces_congr fun text mem => ?_
  have shorter : text.length + 2 ≤ body.toList.length := code_shorter mem
  rw [String.length_toList] at shorter
  unfold parsePlaceholder
  rw [parseExpressionWith_congr fun token found inner kind there => ?_]
  have deeper := template_shorter found kind
  rw [String.length_ofList] at deeper
  exact templateParts_eq (by omega) (by omega)

end Stepper
