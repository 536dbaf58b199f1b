import Stepper.Proofs.Grammar

/-! # Reading in passing

The laws of the readers of expressions: one passes tokens in order and its value is spelled by them; a
larger bound changes nothing once it is large enough for the tokens ahead; and the reader does the same
whatever stands around its line. -/

namespace Stepper

open List TokenKind Reading

/-- Whether the reader never goes past such a token within a line. -/
def TokenKind.halts : TokenKind → Bool
  | .newline | .endOfFile => true
  | _ => false

namespace Reading

def lastOf (before : Location) : List Token → Location
  | [] => before
  | token :: rest => lastOf token.location rest

@[simp] lemma lastOf_nil (before) : lastOf before [] = before := rfl

@[simp] lemma lastOf_cons (before) (token) (rest) :
    lastOf before (token :: rest) = lastOf token.location rest := rfl

@[simp] lemma lastOf_append (before) (ts us) :
    lastOf before (ts ++ us) = lastOf (lastOf before ts) us := by
  induction ts generalizing before with
  | nil => rfl
  | cons token _ ih => exact ih token.location

def Stops (s : Reading) : Prop := s.ending.kind.halts = true

/-- Whether the tokens end with the end of the text. -/
def Ends (s : Reading) : Prop := s.ending.kind = .endOfFile

lemma ofTokens_ends (tokens) (unit) : (ofTokens tokens unit).Ends := by
  unfold Ends ofTokens
  dsimp only
  cases found : (tokens.filter fun token => !token.kind.isTrivia).find? fun token =>
      token.kind.isEnd with
  | none =>
    unfold endingFor
    split <;> rfl
  | some ending =>
    have ends := find?_some found
    unfold isEnd at ends
    split at ends
    · assumption
    · cases ends

lemma Ends.stops {s : Reading} (ends : s.Ends) : s.Stops := congrArg halts ends

structure Passes (s : Reading) (ts : List Token) (t : Reading) : Prop where
  tokens : s.rest = ts ++ t.rest
  state : t = { s with rest := t.rest, last := lastOf s.last ts }

namespace Passes
variable {s t : Reading} {ts : List Token}

lemma refl (s : Reading) : s.Passes [] s := ⟨rfl, rfl⟩

lemma trans (first : s.Passes ts t) (second : t.Passes us u) : s.Passes (ts ++ us) u where
  tokens := by rw [first.tokens, second.tokens, append_assoc]
  state := by
    rw [second.state, first.state, lastOf_append]

lemma stops (passes : s.Passes ts t) (stops : s.Stops) : t.Stops := by
  rw [passes.state]
  exact stops

lemma expressions (passes : s.Passes ts t) : t.expressions = s.expressions := by rw [passes.state]

lemma length (passes : s.Passes ts t) : t.rest.length + ts.length = s.rest.length := by
  rw [passes.tokens, length_append, Nat.add_comm]

lemma deeper (passes : Passes { s with expressions := s.expressions + 1 } ts t) :
    s.Passes ts { t with expressions := t.expressions - 1 } :=
  ⟨passes.tokens, by rw [passes.state]; rfl⟩

end Passes

lemma advance_last (s : Reading) (more : s.rest ≠ []) : s.advance.last = s.peek.location := by
  obtain ⟨_, _, split⟩ := exists_cons_of_ne_nil more
  simp [advance, peek, split]

lemma passes_advance {s : Reading} (stops : s.Stops) (more : s.peek.kind.halts = false) :
    s.Passes [s.peek] s.advance := by
  obtain ⟨rest, _⟩ := s
  cases rest with
  | nil => exact absurd (stops.symm.trans more) (by decide)
  | cons => exact ⟨rfl, rfl⟩

end Reading

/-! ### What stands around a line -/

structure Margin where
  size : Nat
  before : Location
  behind : List Token
  ending : Token
  errors : List Diagnostic
  warnings : List Diagnostic

def Margin.Covers (margin : Margin) (seen : List Token) (s : Reading) : Prop :=
  s.rest.length + seen.length ≤ margin.size

lemma Margin.Covers.fresh {margin : Margin} (covers : margin.Covers seen s) : margin.Covers [] s :=
  Nat.le_of_add_right_le covers

def Reading.framed (margin : Margin) (s : Reading) : Reading :=
  { s with
    rest := s.rest ++ s.ending :: margin.behind
    ending := margin.ending
    last := if s.rest.length = margin.size then margin.before else s.last
    errors := s.errors ++ margin.errors
    warnings := s.warnings ++ margin.warnings }

def Reply.framed {α : Type} (margin : Margin) : Reply α → Reply α
  | .ok value t => .ok value (t.framed margin)
  | .fail error t => .fail error (t.framed margin)
  | .spent t => .spent (t.framed margin)

/-- Whether a reader has come to its bound instead of an answer. -/
def Reply.isSpent {α : Type} : Reply α → Bool
  | .spent _ => true
  | _ => false

lemma Reply.isSpent_update (change) (reply : Reply α) :
    (reply.update change).isSpent = reply.isSpent := by
  cases reply <;> rfl

namespace Reading
variable {s : Reading} {margin : Margin}

lemma peek_framed (margin) (s : Reading) : (s.framed margin).peek = s.peek := by
  cases h : s.rest <;> simp [peek, framed, h]

lemma advance_framed (stops : s.Stops) (more : s.peek.kind.halts = false)
    (covers : margin.Covers seen s) : (s.framed margin).advance = s.advance.framed margin := by
  obtain ⟨rest, _⟩ := s
  cases rest with
  | nil => exact absurd (stops.symm.trans more) (by decide)
  | cons _ rest =>
    have apart : rest.length ≠ margin.size :=
      Nat.ne_of_lt (Nat.lt_of_lt_of_le (Nat.lt_succ_self _) covers.fresh)
    simp [advance, framed, apart]

lemma Passes.covers (passes : s.Passes ts t) (covers : margin.Covers seen s) :
    margin.Covers (seen ++ ts) t := by
  unfold Margin.Covers at covers ⊢
  rw [← passes.length] at covers
  rw [length_append]
  omega

end Reading

lemma TokenKind.eq_of_isPunct {kind : TokenKind} (is : kind.isPunct sign) :
    kind = .punct sign := by
  cases kind <;> simp_all [isPunct]

lemma TokenKind.eq_of_isOperator {kind : TokenKind} (is : kind.isOperator sign) :
    kind = .operator sign := by
  cases kind <;> simp_all [isOperator]

namespace Parser
variable {room c n d : Nat} {s : Reading} {seen : List Token} {post : List Token → α → Prop}

/-! ### The law -/

def Walks (seen : List Token) (d : Nat) (post : List Token → α → Prop) (s : Reading) : Reply α → Prop
  | .ok value t => ∃ ts, s.Passes ts t ∧ d ≤ ts.length ∧ post ts value
  | .fail error t => ∃ ts, s.Passes ts t ∧ error.isError = true ∧
      ∃ token ∈ seen ++ ts ++ [t.peek], error.location = token.location
  | .spent t => ∃ ts, s.Passes ts t

structure Law (seen : List Token) (c n d : Nat) (p q : Parser α) (post : List Token → α → Prop)
    (s : Reading) : Prop where
  walks : Walks seen d post s (p s)
  settled : 32 * s.rest.length + c ≤ n → q s = p s ∧ (p s).isSpent = false
  within : ∀ margin : Margin, margin.Covers seen s → p (s.framed margin) = (p s).framed margin

def Steady (room : Nat) (seen : List Token) (c n d : Nat) (p q : Parser α)
    (post : List Token → α → Prop) (s : Reading) : Prop :=
  s.Stops → nestingLimit - s.expressions = room → Law seen c n d p q post s

abbrev IsSteady (c n d : Nat) (p q : Parser α) (post : Nat → List Token → α → Prop) : Prop :=
  ∀ s {room}, Steady room [] c n d p q (post room) s

lemma Steady.succ (steady : Steady room seen c n d p q post s) :
    Steady room seen (c + 1) (n + 1) d p q post s := by
  intro stops free
  have law := steady stops free
  exact ⟨law.walks, fun _ => law.settled (by omega), law.within⟩

lemma Steady.last (steady : Steady room [] c₁ n d₁ p q mid s)
    (fits : c₁ ≤ c ∧ d ≤ d₁) (weaken : ∀ ts value, mid ts value → post ts value) :
    Steady room seen c n d p q post s := by
  intro stops free
  have law := steady stops free
  refine ⟨?_, fun _ => law.settled (by omega), fun margin covers => law.within margin covers.fresh⟩
  have walks := law.walks
  cases reply : p s with
  | ok value =>
    rw [reply] at walks
    obtain ⟨ts, passes, many, holds⟩ := walks
    exact ⟨ts, passes, Nat.le_trans fits.2 many, weaken ts value holds⟩
  | fail =>
    rw [reply] at walks
    obtain ⟨ts, passes, wrong, token, found, place⟩ := walks
    exact ⟨ts, passes, wrong, token, append_assoc .. ▸ mem_append_right seen found, place⟩
  | spent =>
    rw [reply] at walks
    exact walks

lemma Walks.after (walks : Walks (seen ++ ts) d (fun us => post (ts ++ us)) t reply)
    (passes : s.Passes ts t) (enough : e ≤ ts.length + d) : Walks seen e post s reply := by
  cases reply with
  | ok =>
    obtain ⟨us, passed, _, holds⟩ := walks
    exact ⟨ts ++ us, passes.trans passed, by rw [length_append]; omega, holds⟩
  | fail =>
    obtain ⟨us, passed, wrong, token, found, place⟩ := walks
    exact ⟨ts ++ us, passes.trans passed, wrong, token, by simpa using found, place⟩
  | spent =>
    obtain ⟨us, passed⟩ := walks
    exact ⟨ts ++ us, passes.trans passed⟩

lemma bind_of_ok {f : α → Parser β} (reply : p s = .ok value t) : (p >>= f) s = f value t := by
  change Parser.bind p f s = _
  rw [Parser.bind, reply]

lemma bind_of_fail {f : α → Parser β} (reply : p s = .fail error t) : (p >>= f) s = .fail error t := by
  change Parser.bind p f s = _
  rw [Parser.bind, reply]

lemma bind_of_spent {f : α → Parser β} (reply : p s = .spent t) : (p >>= f) s = .spent t := by
  change Parser.bind p f s = _
  rw [Parser.bind, reply]

lemma ok_of_bind {f : α → Parser β} (replied : (p >>= f) s = .ok value u) :
    ∃ first t, p s = .ok first t ∧ f first t = .ok value u := by
  cases reply : p s with
  | ok first t => exact ⟨first, t, rfl, (bind_of_ok reply).symm.trans replied⟩
  | fail => cases (bind_of_fail reply).symm.trans replied
  | spent => cases (bind_of_spent reply).symm.trans replied

lemma Steady.bind {c₁ d₁ : Nat} {p q : Parser α} (first : Steady room [] c₁ n d₁ p q mid s)
    (fits : c₁ ≤ c) (next : ∀ value t ts, mid ts value → Steady room (seen ++ ts) (c + 32 * d₁) n (d -
      d₁) (f value) (g value) (fun us => goal (ts ++ us)) t) :
    Steady room seen c n d (p >>= f) (q >>= g) goal s := by
  intro stops free
  obtain ⟨walks, settled, within⟩ := first stops free
  cases reply : p s with
  | ok value t =>
    rw [reply] at walks within
    obtain ⟨ts, passes, _, holds⟩ := walks
    have length := passes.length
    have later := next value t ts holds (passes.stops stops) (by rw [passes.expressions, free])
    refine ⟨?_, fun bound => ?_, fun margin covers => ?_⟩
    · rw [bind_of_ok reply]
      exact later.walks.after passes (by omega)
    · rw [bind_of_ok reply, bind_of_ok ((settled (by omega)).1.trans reply)]
      exact later.settled (by omega)
    · rw [bind_of_ok reply, bind_of_ok (within margin covers.fresh)]
      exact later.within margin (passes.covers covers)
  | fail =>
    rw [reply] at walks within
    obtain ⟨ts, passes, wrong, token, found, place⟩ := walks
    refine ⟨?_, fun bound => ?_, fun margin covers => ?_⟩
    · rw [bind_of_fail reply]
      exact ⟨ts, passes, wrong, token, append_assoc .. ▸ mem_append_right seen found, place⟩
    · rw [bind_of_fail reply, bind_of_fail ((settled (by omega)).1.trans reply)]
      exact ⟨rfl, rfl⟩
    · rw [bind_of_fail reply, bind_of_fail (within margin covers.fresh)]
      rfl
  | spent =>
    rw [reply] at walks settled within
    refine ⟨?_, fun bound => ?_, fun margin covers => ?_⟩
    · rw [bind_of_spent reply]
      exact walks
    · cases (settled (by omega)).2
    · rw [bind_of_spent reply, bind_of_spent (within margin covers.fresh)]
      rfl

/-! ### The moves -/

lemma steady_pure (holds : post [] value) : Steady room seen c n 0 (pure value) (pure value) post s :=
  fun _ _ => ⟨⟨[], .refl s, Nat.le_refl 0, holds⟩, fun _ => ⟨rfl, rfl⟩, fun _ _ => rfl⟩

lemma steady_failAt (known : token ∈ seen) :
    Steady room seen c n d (failAt problem token.location) (failAt problem token.location) post s :=
  fun _ _ => ⟨⟨[], .refl s, rfl, token, by simp [known], rfl⟩, fun _ => ⟨rfl, rfl⟩, fun _ _ => rfl⟩

lemma steady_failExpected : Steady room seen c n d (failExpected what) (failExpected what) post s := by
  refine fun _ _ => ⟨⟨[], .refl s, rfl, s.peek, by simp, rfl⟩, fun _ => ⟨rfl, rfl⟩, fun _ _ => ?_⟩
  simp [failExpected, Reply.framed, peek_framed]

lemma steady_exhausted : Steady room seen (c + 1) 0 d exhausted q post s :=
  fun _ _ => ⟨⟨[], .refl s⟩, fun bound => absurd bound (Nat.not_succ_le_zero _), fun _ _ => rfl⟩

lemma steady_look (next : Steady room seen c n d (f s.peek) (g s.peek) post s) :
    Steady room seen c n d (look >>= f) (look >>= g) post s := by
  intro stops free
  have law := next stops free
  refine ⟨law.walks, law.settled, fun margin covers => ?_⟩
  change f (s.framed margin).peek (s.framed margin) = _
  rw [peek_framed]
  exact law.within margin covers

lemma steady_at (next : Steady room seen c n d (f (test s.peek.kind)) (g (test s.peek.kind)) post s) :
    Steady room seen c n d (at? test >>= f) (at? test >>= g) post s :=
  steady_look (f := fun token => f (test token.kind)) (g := fun token => g (test token.kind)) next

lemma steady_next (more : s.peek.kind.halts = false) (next : Steady room (seen ++ [s.peek]) (c + 32) n
      (d - 1) (f s.peek.location) (g s.peek.location) (fun us => post (s.peek :: us)) s.advance) :
    Steady room seen c n d (Parser.next >>= f) (Parser.next >>= g) post s := by
  intro stops free
  have passes := passes_advance stops more
  have last : s.advance.last = s.peek.location := by rw [passes.state]; rfl
  have length := passes.length
  have law := next (passes.stops stops) (by rw [passes.expressions, free])
  rw [← last] at law
  refine ⟨law.walks.after passes (by rw [length_singleton]; omega), fun _ => ?_,
    fun margin covers => ?_⟩
  · exact law.settled (by rw [length_singleton] at length; omega)
  · have place : (s.framed margin).advance.last = s.advance.last := by
      rw [advance_last _ (append_ne_nil_of_right_ne_nil _ (cons_ne_nil _ _)), peek_framed, last]
    change f (s.framed margin).advance.last (s.framed margin).advance = _
    rw [place, advance_framed stops more covers]
    exact law.within margin (passes.covers covers)

lemma goesOn {test : TokenKind → Bool} (solid : test .newline = false ∧ test .endOfFile = false)
    (passes : test kind) : kind.halts = false := by
  cases kind <;> simp_all [halts]

lemma steady_accept (solid : test .newline = false ∧ test .endOfFile = false) (yes : test s.peek.kind =
      true → Steady room (seen ++ [s.peek]) (c + 32) n (d - 1) (f true) (g true) (fun us => post (s.peek
      :: us)) s.advance) (no : Steady room seen c n d (f false) (g false) post s) :
    Steady room seen c n d (accept test >>= f) (accept test >>= g) post s := by
  have same (h : Bool → Parser α) : accept test >>= h =
      (at? test >>= fun passes => if passes then Parser.next >>= fun _ => h true else h false) := by
    funext t
    change Parser.bind (accept test) h t = _
    unfold Parser.bind accept
    by_cases passes : test t.peek.kind = true
    · rw [if_pos passes]
      change _ = (if test t.peek.kind then _ else _ : Parser α) t
      rw [if_pos passes]
      rfl
    · rw [if_neg passes]
      change _ = (if test t.peek.kind then _ else _ : Parser α) t
      rw [if_neg passes]
  rw [same, same]
  refine steady_at ?_
  by_cases passes : test s.peek.kind = true
  · rw [if_pos passes, if_pos passes]
    exact steady_next (goesOn solid passes) (yes passes)
  · rw [if_neg passes, if_neg passes]
    exact no

lemma steady_span (passed : seen ≠ []) (next : Steady room seen c n d (f (start.upTo s.last)) (g
      (start.upTo s.last)) post s) :
    Steady room seen c n d (spanSince start >>= f) (spanSince start >>= g) post s := by
  intro stops free
  have law := next stops free
  refine ⟨law.walks, law.settled, fun margin covers => ?_⟩
  have apart : (s.framed margin).last = s.last := by
    refine if_neg (Nat.ne_of_lt (Nat.lt_of_lt_of_le ?_ covers))
    exact Nat.lt_add_of_pos_right (length_pos_iff.mpr passed)
  change f (start.upTo (s.framed margin).last) (s.framed margin) = _
  rw [apart]
  exact law.within margin covers

lemma isSteady_expect (solid : test .newline = false ∧ test .endOfFile = false) : IsSteady 0 n 1
    (expect test what) (expect test what) fun _ ts place => ∃ token :
    Token, ts = [token] ∧ place = token.location ∧ test token.kind = true := by
  intro s _
  refine steady_at ?_
  split
  · next passes =>
    refine steady_next (f := pure) (g := pure) (goesOn solid passes) (steady_pure ?_)
    exact ⟨s.peek, rfl, rfl, passes⟩
  · exact steady_failExpected

def takeName (what : Expectation) : TokenKind → Parser String
  | .identifier name => next >>= fun _ => pure name
  | _ => failExpected what

lemma steady_expectName (s) : Steady room [] 0 n 1 (expectName what) (expectName what)
    (fun ts name => ts = [s.peek] ∧ s.peek.kind = .identifier name) s := by
  have same : expectName what = look >>= fun token => takeName what token.kind := by
    funext t
    change expectName what t = takeName what t.peek.kind t
    unfold expectName
    cases t.peek.kind <;> rfl
  rw [same]
  refine steady_look ?_
  unfold takeName
  split
  · next _ kind =>
    exact steady_next (by rw [kind]; rfl) (steady_pure ⟨rfl, kind⟩)
  · exact steady_failExpected

lemma IsSteady.insideExpression {post : Nat → List Token → α → Prop} (inner : IsSteady c n d p q post) :
    IsSteady c n d (insideExpression p) (insideExpression q) fun room ts value => ∃ left, room = left +
    1 ∧ post left ts value := by
  intro s _ stops _
  have law := inner { s with expressions := s.expressions + 1 } stops rfl
  have walks := law.walks
  unfold Parser.insideExpression
  refine ⟨?_, fun bound => ?_, fun margin covers => ?_⟩
  · split
    · exact ⟨[], .refl s, rfl, s.peek, by simp, rfl⟩
    · cases reply : p { s with expressions := s.expressions + 1 } with
      | ok =>
        rw [reply] at walks
        obtain ⟨ts, passes, many, holds⟩ := walks
        exact ⟨ts, passes.deeper, many, _, by dsimp only; omega, holds⟩
      | fail =>
        rw [reply] at walks
        obtain ⟨ts, passes, wrong⟩ := walks
        exact ⟨ts, passes.deeper, wrong⟩
      | spent =>
        rw [reply] at walks
        obtain ⟨ts, passes⟩ := walks
        exact ⟨ts, passes.deeper⟩
  · obtain ⟨same, unspent⟩ := law.settled bound
    rw [same]
    refine ⟨rfl, ?_⟩
    split
    · rfl
    · rw [Reply.isSpent_update, unspent]
  · change (if s.expressions ≥ nestingLimit then failAt _ (s.framed margin).peek.location (s.framed margin)
      else (p (framed margin { s with expressions := s.expressions + 1 })).update _) = _
    rw [law.within margin covers, peek_framed]
    split
    · rfl
    · cases p { s with expressions := s.expressions + 1 } <;> rfl

/-! ### Expressions -/

/-- Whether a template that is refused is refused with an error at the template. -/
def BlamesErrors (embed : Embedding) : Prop :=
  ∀ location body error, embed location body = .error error →
    error.isError = true ∧ error.location = location

section
lemma steady_parts (blames : BlamesErrors embed) (known : token ∈ seen) (next : ∀ parts, embed
      token.location body = .ok parts → Steady room seen c n d (f parts) (g parts) post s) : Steady room
    seen c n d (ofExcept (embed token.location body) >>= f) (ofExcept (embed token.location body) >>= g)
    post s := by
  cases found : embed token.location body with
  | ok parts => exact next parts found
  | error =>
    obtain ⟨wrong, place⟩ := blames _ _ _ found
    exact fun _ _ =>
      ⟨⟨[], .refl s, wrong, token, by simp [known], place⟩, fun _ => ⟨rfl, rfl⟩, fun _ _ => rfl⟩

lemma Level.goesOn {level : Level} (joins : level.connective? kind = some connective) :
    kind.halts = false := by
  cases kind <;> first | rfl | (cases level <;> cases joins)

lemma unaryOp_goesOn (signs : unaryOp? kind = some op) : kind.halts = false := by
  cases kind <;> first | rfl | cases signs

-- The loops `climbOn` and `chain` go on from a phrase that was read before.
section
variable (blames : BlamesErrors embed)
include blames

-- The recursion hands the variables on, which the linter does not see.
set_option linter.unusedSectionVars false in
mutual

theorem isSteady_expression : (n : Nat) →
    IsSteady 11 n 1 (expression embed n) (expression embed (n + 1)) (Spells embed .expression)
  | 0 => fun _ _ => steady_exhausted
  | n + 1 => fun s _ => by
    refine (((isSteady_assignment n).insideExpression s).last (by omega) ?_).succ
    rintro _ _ ⟨_, rfl, spells⟩
    exact .expression spells

theorem isSteady_assignment : (n : Nat) →
    IsSteady 10 n 1 (assignment embed n) (assignment embed (n + 1)) (Spells embed .assignment)
  | 0 => fun _ _ => steady_exhausted
  | n + 1 => fun s _ => by
    rw [assignment, assignment]
    refine .succ ((isSteady_climb n ladder s).bind (by decide) fun _ _ _ spells => ?_)
    refine steady_at ?_
    split
    · next assigns =>
      refine steady_next (goesOn ⟨rfl, rfl⟩ assigns) ?_
      refine (isSteady_assignment n _).bind (by omega) fun _ _ _ assigned => ?_
      split
      · exact steady_pure (by simpa using spells.assign (eq_of_isOperator assigns) assigned)
      · exact steady_failAt (by simp)
    · exact steady_pure (by simpa using spells.unassigned)

theorem isSteady_climb : (n : Nat) → (levels : List Level) →
    IsSteady (levels.length + 3) n 1 (climb embed n levels) (climb embed (n + 1) levels)
      (Spells embed (.joined levels))
  | 0, levels => fun _ _ => steady_exhausted
  | n + 1, [] => fun s _ => ((isSteady_unary n s).last (by omega) fun _ _ => .unjoined).succ
  | n + 1, level :: tighter => fun s _ => by
    rw [climb, climb, length_cons, Nat.add_right_comm]
    refine .succ ((isSteady_climb n tighter s).bind (by omega) fun _ t _ spells => ?_)
    exact (steady_climbOn n level tighter spells.operand t).last (by omega) (by simp)

theorem steady_climbOn : (n : Nat) → (level : Level) →
    (tighter : List Level) → {left : Expr} → {depth : Nat} → {ts : List Token} →
    Spells embed (.joined (level :: tighter)) depth ts left → (s : Reading) →
    Steady depth [] (tighter.length + 1) n 0 (climbOn embed n level tighter left)
      (climbOn embed (n + 1) level tighter left)
      (fun us => Spells embed (.joined (level :: tighter)) depth (ts ++ us)) s
  | 0, _, _, _, _, _, _, _ => steady_exhausted
  | n + 1, level, tighter, left, _, ts, spells, s => by
    rw [climbOn, climbOn]
    refine .succ (steady_look ?_)
    split
    · next _ joins =>
      refine steady_next (Level.goesOn joins) ?_
      refine (isSteady_climb n tighter _).bind (by omega) fun _ t us operand => ?_
      have whole := spells.join (Level.connective?_eq_some.mp joins) operand
      rw [← Connective.join_eq_between] at whole
      exact (steady_climbOn n level tighter whole t).last (by omega) (by simp)
    · exact steady_pure (by simpa using spells)

theorem isSteady_unary : (n : Nat) →
    IsSteady 2 n 1 (unary embed n) (unary embed (n + 1)) (Spells embed .signed)
  | 0 => fun _ _ => steady_exhausted
  | n + 1 => fun s _ => by
    rw [unary, unary]
    refine .succ (steady_look ?_)
    split
    · next _ signs =>
      refine steady_next (unaryOp_goesOn signs) ?_
      refine ((isSteady_unary n).insideExpression _).bind (by omega) fun operand t ts ⟨left, free, spells⟩ => ?_
      exact steady_pure (by simpa [free] using spells.sign (unaryOp?_eq_some.mp signs))
    · refine (isSteady_primary n s).bind (by omega) fun _ t ts spells => ?_
      exact (steady_chain n spells.unlinked t).last (by omega) fun _ _ => .unsigned

theorem steady_chain : (n : Nat) → {target : Expr} → {depth : Nat} →
    {ts : List Token} → Spells embed .linked depth ts target → (s : Reading) →
    Steady depth [] 1 n 0 (chain embed n target) (chain embed (n + 1) target)
      (fun us => Spells embed .linked depth (ts ++ us)) s
  | 0, _, _, _, _, _ => steady_exhausted
  | n + 1, target, _, ts, spells, s => by
    rw [chain, chain]
    refine .succ (steady_accept ⟨rfl, rfl⟩ (fun opens => ?_) (steady_accept ⟨rfl, rfl⟩ (fun opens => ?_)
      (steady_accept ⟨rfl, rfl⟩ (fun dots => ?_) (steady_pure (by simpa using spells)))))
    · refine (isSteady_items n _ _).bind (by omega) fun _ t us given => ?_
      refine (isSteady_expect ⟨rfl, rfl⟩ t).bind (by omega) fun close u vs ⟨token, taken, place, closes⟩ => ?_
      subst taken place
      exact (steady_chain n (spells.call (eq_of_isPunct opens) given
        (eq_of_isPunct closes)) u).last (by omega) (by simp)
    · refine (isSteady_expression n _).bind (by omega) fun index t us within => ?_
      refine (isSteady_expect ⟨rfl, rfl⟩ t).bind (by omega) fun close u vs ⟨token, taken, place, closes⟩ => ?_
      subst taken place
      exact (steady_chain n (spells.index (eq_of_isPunct opens) within
        (eq_of_isPunct closes)) u).last (by omega) (by simp)
    · refine steady_look ?_
      refine (steady_expectName _).bind (by omega) fun name t us ⟨taken, word⟩ => ?_
      subst taken
      exact (steady_chain n (spells.member (eq_of_isPunct dots) word) t).last (by omega) (by simp)

theorem isSteady_items : (n : Nat) → (close : Punct) →
    IsSteady 13 n 0 (items embed n close) (items embed (n + 1) close) (SpellsAll embed)
  | 0, _ => fun _ _ => steady_exhausted
  | n + 1, close => fun s _ => by
    rw [items, items]
    refine .succ (steady_at ?_)
    split
    · exact steady_pure .empty
    · exact (isSteady_itemsFrom n s).last (by omega) fun _ _ => .nonempty

theorem isSteady_itemsFrom : (n : Nat) →
    IsSteady 12 n 1 (itemsFrom embed n) (itemsFrom embed (n + 1)) (SpellsItems embed)
  | 0 => fun _ _ => steady_exhausted
  | n + 1 => fun s _ => by
    rw [itemsFrom, itemsFrom]
    refine .succ ((isSteady_expression n s).bind (by omega) fun _ _ _ spells => ?_)
    refine steady_accept ⟨rfl, rfl⟩ (fun separates => ?_) (steady_pure (by simpa using SpellsItems.last spells))
    refine (isSteady_itemsFrom n _).bind (by omega) fun _ _ _ behind => steady_pure ?_
    simpa using SpellsItems.more spells (eq_of_isPunct separates) behind

theorem isSteady_primary : (n : Nat) →
    IsSteady 1 n 1 (primary embed n) (primary embed (n + 1)) (Spells embed .primary)
  | 0 => fun _ _ => steady_exhausted
  | n + 1 => fun _ _ => by
    rw [primary, primary]
    refine .succ (steady_look ?_)
    split
    case h_3 body kind =>
      refine steady_next (by rw [kind]; rfl) (steady_parts blames (by simp) fun _ splits => ?_)
      exact steady_pure (.interpolated kind splits)
    case h_9 kind =>
      refine steady_next (by rw [kind]; rfl) ?_
      refine (isSteady_expression n _).bind (by omega) fun _ t ts spells => ?_
      refine (isSteady_expect ⟨rfl, rfl⟩ t).bind (by omega) fun _ u us ⟨token, taken, _, closes⟩ => ?_
      refine steady_pure ?_
      subst taken
      exact .group kind spells (eq_of_isPunct closes)
    case h_10 kind =>
      refine steady_next (by rw [kind]; rfl) ?_
      refine (isSteady_items n _ _).bind (by omega) fun _ t ts spells => ?_
      refine (isSteady_expect ⟨rfl, rfl⟩ t).bind (by omega) fun close u us ⟨token, taken, place, closes⟩ => ?_
      subst taken place
      exact steady_pure (.array kind spells (eq_of_isPunct closes))
    case h_11 => exact steady_failExpected
    -- All other tokens are an expression by themselves.
    all_goals
      next kind => exact steady_next (by rw [kind]; rfl) (steady_pure (.token (by rw [kind]; rfl)))

end

end

lemma expression_spells (blames : BlamesErrors embed) (stops : s.Stops)
    (read : expression embed n s = .ok e t) :
    ∃ ts, s.Passes ts t ∧ Spells embed .expression (nestingLimit - s.expressions) ts e := by
  have walks := (isSteady_expression blames n s stops rfl).walks
  rw [read] at walks
  obtain ⟨ts, passes, -, spells⟩ := walks
  exact ⟨ts, passes, spells⟩

end

end Parser

end Stepper
