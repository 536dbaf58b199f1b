import Stepper.Proofs.Grammar

/-! # Every spelling is read -/

namespace Stepper

open List

variable {level : Level} {kind : TokenKind} {tighter : List Level}

/-- Whether a token goes on with a call, an index or a member. -/
def TokenKind.opensLink : TokenKind → Bool
  | .punct .openParen | .punct .openBracket | .punct .dot => true
  | _ => false

def TokenKind.joins (levels : List Level) (kind : TokenKind) : Bool :=
  levels.any fun level => (level.connective? kind).isSome

def TokenKind.endsJoined (levels : List Level) (kind : TokenKind) : Bool :=
  !kind.opensLink && !kind.joins levels

/-- Whether a token behind an expression cannot belong to it. -/
def TokenKind.endsExpression (kind : TokenKind) : Bool :=
  kind.endsJoined ladder && !kind.isOperator .assign

lemma ladder_length : ladder.length = 6 := rfl

lemma ladder_nodup : ladder.Nodup := by decide

lemma Level.eq_of_connective? (first : level.connective? kind = some here)
    (second : other.connective? kind = some there) : level = other := by
  unfold connective? at first
  split at first <;> cases other <;> first | rfl | cases second | cases first

lemma TokenKind.endsJoined_of_connective? (joins : level.connective? kind = some connective)
    (apart : level ∉ tighter) : kind.endsJoined tighter := by
  have unlinked : kind.opensLink = false := by
    unfold Level.connective? at joins
    split at joins <;> first | rfl | cases joins
  have unjoined : kind.joins tighter = false := by
    rw [TokenKind.joins, any_eq_false]
    intro _ mem found
    obtain ⟨_, same⟩ := Option.isSome_iff_exists.mp found
    exact apart (Level.eq_of_connective? joins same ▸ mem)
  simp [endsJoined, unlinked, unjoined]

lemma TokenKind.endsJoined_cons : kind.endsJoined (level :: tighter) = true ↔ level.connective? kind =
    none ∧ kind.endsJoined tighter = true := by
  simp only [endsJoined, joins, any_cons, Bool.and_eq_true,
    Bool.not_eq_true', Bool.or_eq_false_iff, Option.isSome_eq_false_iff, Option.isNone_iff_eq_none]
  exact and_left_comm

lemma TokenKind.endsExpression_iff :
    kind.endsExpression = true ↔ kind.endsJoined ladder = true ∧ kind.isOperator .assign = false := by
  simp [endsExpression]

lemma TokenKind.isPunct_of_beginsExpression (begins : kind.beginsExpression)
    (closes : close = .closeParen ∨ close = .closeBracket) : kind.isPunct close = false := by
  cases kind with
  | punct sign => rcases closes with rfl | rfl <;> cases sign <;> first | rfl | cases begins
  | _ => rfl

namespace Parser
variable {follow : TokenKind} {tail : List TokenKind}

def Reads (read : Nat → Parser Expr) (rank : Nat) (ends : TokenKind → Bool) (depth : Nat)
    (ts : List TokenKind) (e : Expr) : Prop :=
  ∀ (deep : Prop) (n : Nat) (s : Reading) (follow : TokenKind) (tail : List TokenKind),
    s.kinds = ts ++ follow :: tail → ends follow = true →
      s.expressions + depth ≤ nestingLimit ∨ deep → 16 * ts.length + rank ≤ n →
        YieldsUnless deep (read n) s (follow :: tail) (·.bare = e)

def Reaches (first : Nat → Parser Expr) (loop : Nat → Expr → Parser Expr) (rank : Nat)
    (ends : TokenKind → Bool) (depth : Nat) (ts : List TokenKind) (e : Expr) : Prop :=
  ∀ (deep : Prop) (n : Nat) (s : Reading) (follow : TokenKind) (tail : List TokenKind),
    s.kinds = ts ++ follow :: tail → ends follow = true →
      s.expressions + depth ≤ nestingLimit ∨ deep → 16 * ts.length + rank ≤ n →
        ∃ m, n ≤ m + ts.length ∧
          LeadsUnless deep (first n >>= loop n) s (follow :: tail) (loop m) (·.bare = e)

def Turns (loop : Nat → Expr → Parser Expr) (rank : Nat) (ends : TokenKind → Bool) (depth : Nat)
    (ts : List TokenKind) (before after : Expr) : Prop :=
  ∀ (deep : Prop) (n : Nat) (s : Reading) (follow : TokenKind) (tail : List TokenKind)
    (left : Expr), s.kinds = ts ++ follow :: tail → ends follow = true →
      s.expressions + depth ≤ nestingLimit ∨ deep → 16 * ts.length + rank ≤ n + 1 →
        left.bare = before → LeadsUnless deep (loop (n + 1) left) s (follow :: tail) (loop n) (·.bare = after)

section Loops
variable {first : Nat → Parser Expr} {rank depth : Nat}
  {ts : List TokenKind} {e before after : Expr}

lemma Reads.reaches (reads : Reads first rank ends depth ts e) :
    Reaches first loop rank ends depth ts e := by
  intro deep n s follow tail ahead ended room fuel
  refine ⟨n, by omega, ?_⟩
  exact (reads deep n s follow tail ahead ended room fuel).bind fun _ _ _ there bare => .here there bare

lemma Reaches.turn (reaches : Reaches first loop rank ends depth ts before)
    (signEnds : ends sign) (turns : Turns loop rank ends depth (sign :: us) before after) :
    Reaches first loop rank ends depth (ts ++ sign :: us) after := by
  intro deep n s follow tail ahead ended room fuel
  rw [append_assoc] at ahead
  rw [length_append, length_cons] at fuel ⊢
  obtain ⟨m, _, leads⟩ := reaches deep n s sign (us ++ follow :: tail) ahead signEnds room (by omega)
  obtain ⟨m, rfl⟩ : ∃ k, m = k + 1 := ⟨m - 1, by omega⟩
  refine ⟨m, by omega, leads.continue fun left t kept there bare => ?_⟩
  exact turns deep m t follow tail left there ended (by rw [kept.expressions]; exact room)
    (by rw [length_cons]; omega) bare

lemma Reaches.stop (reaches : Reaches first loop rank ends depth ts e)
    (ahead : s.kinds = ts ++ follow :: tail) (ended : ends follow)
    (room : s.expressions + depth ≤ nestingLimit ∨ deep) (fuel : 16 * ts.length + rank ≤ n)
    (turning : 0 < rank) (stops : ∀ m left t, t.kinds = follow :: tail → YieldsUnless deep (loop (m + 1)
      left) t (follow :: tail) (· = left)) :
    YieldsUnless deep (first n >>= loop n) s (follow :: tail) (·.bare = e) := by
  obtain ⟨m, _, leads⟩ := reaches deep n s follow tail ahead ended room (by omega)
  obtain ⟨m, rfl⟩ : ∃ k, m = k + 1 := ⟨m - 1, by omega⟩
  refine leads.continue fun left t _ there bare => (stops m left t there).mono ?_
  rintro _ rfl
  exact bare

end Loops

def ReadsPhrase (embed : Embedding) : Phrase → Nat → List TokenKind → Expr → Prop
  | .expression => Reads (expression embed) 12 TokenKind.endsExpression
  | .assignment => Reads (assignment embed) 11 TokenKind.endsExpression
  | .joined [] => Reads (climb embed · []) 4 (TokenKind.endsJoined [])
  | .joined (level :: tighter) =>
    Reaches (climb embed · tighter) (climbOn embed · level tighter) (tighter.length + 4)
      (TokenKind.endsJoined tighter)
  | .signed => Reads (unary embed) 3 (TokenKind.endsJoined [])
  | .linked => Reaches (primary embed) (chain embed) 1 fun _ => true
  | .primary => Reads (primary embed) 1 fun _ => true

variable {embed : Embedding} {depth : Nat} {ts : List TokenKind} {e left : Expr}

/-! ### Levels of operators -/

lemma climbOn_stops (stops : level.connective? follow = none) (ahead : s.kinds = follow :: tail) :
    YieldsUnless deep (climbOn embed (n + 1) level tighter left) s (follow :: tail) (· = left) := by
  rw [climbOn]
  refine look_bind ahead fun _ kind => ?_
  rw [kind, stops]
  exact .pure ahead rfl

lemma ReadsPhrase.climb (reads : ReadsPhrase embed (.joined levels) depth ts e) :
    Reads (climb embed · levels) (levels.length + 4) (TokenKind.endsJoined levels) depth ts e := by
  intro deep n s follow tail ahead ended room fuel
  cases levels with
  | nil => exact reads deep n s follow tail ahead ended room (by omega)
  | cons level tighter =>
    obtain ⟨stops, ended⟩ := TokenKind.endsJoined_cons.mp ended
    rw [length_cons] at fuel
    obtain _ | m := n
    · omega
    change YieldsUnless deep (Parser.climb embed (m + 1) (level :: tighter)) s (follow :: tail) _
    rw [Parser.climb]
    exact Reaches.stop reads ahead ended room (by omega) (by omega) fun _ _ _ => climbOn_stops stops

lemma reads_operand (inner : ReadsPhrase embed (.joined tighter) depth ts e) :
    ReadsPhrase embed (.joined (level :: tighter)) depth ts e :=
  inner.climb.reaches

lemma reads_unjoined (inner : ReadsPhrase embed .signed depth ts e) :
    ReadsPhrase embed (.joined []) depth ts e := by
  intro deep n s follow tail ahead ended room _
  obtain _ | m := n
  · omega
  change YieldsUnless deep (climb embed (m + 1) []) s (follow :: tail) _
  rw [climb]
  exact inner deep m s follow tail ahead ended room (by omega)

lemma climbOn_turns (joins : level.connective? sign = some connective)
    (behind : ReadsPhrase embed (.joined tighter) depth us right) : Turns
    (climbOn embed · level tighter) (tighter.length + 4) (TokenKind.endsJoined tighter) depth
    (sign :: us) left (connective.node left right) := by
  intro deep n s follow tail before ahead ended room fuel bare
  rw [length_cons] at fuel
  change LeadsUnless deep (climbOn embed (n + 1) level tighter before) s (follow :: tail) _ _
  rw [climbOn]
  refine look_bind ahead fun _ kind => ?_
  rw [kind, joins]
  refine (next_yields ahead (by simp)).bind fun _ t kept there _ => ?_
  refine (behind.climb deep n t follow tail there ended (by rw [kept.expressions]; exact room)
    (by omega)).bind fun _ _ _ finish bareBehind => ?_
  exact .here finish (by rw [Connective.bare_join, bare, bareBehind])

lemma reads_join (apart : level ∉ tighter) (joins : level.connective? sign = some connective)
    (before : ReadsPhrase embed (.joined (level :: tighter)) depth ts left)
    (behind : ReadsPhrase embed (.joined tighter) depth us right) : ReadsPhrase embed
    (.joined (level :: tighter)) depth (ts ++ sign :: us) (connective.node left right) :=
  Reaches.turn before (TokenKind.endsJoined_of_connective? joins apart) (climbOn_turns joins behind)

lemma reads_unassigned (inner : ReadsPhrase embed (.joined ladder) depth ts e) :
    ReadsPhrase embed .assignment depth ts e := by
  intro deep n s follow tail ahead ended room _
  obtain ⟨joined, other⟩ := TokenKind.endsExpression_iff.mp ended
  obtain _ | m := n
  · omega
  rw [assignment]
  refine (inner.climb deep m s follow tail ahead joined room (by rw [ladder_length]; omega)).bind
    fun _ _ _ ahead bare => at_bind ahead ?_
  rw [other]
  exact .pure ahead bare

lemma reads_assign (target : ReadsPhrase embed (.joined ladder) depth ts (.identifier name {}))
    (assigned : ReadsPhrase embed .assignment depth us value) :
    ReadsPhrase embed .assignment depth (ts ++ .operator .assign :: us) (.assign name value {}) := by
  intro deep n s follow tail ahead ended room fuel
  rw [append_assoc] at ahead
  rw [length_append, length_cons] at fuel
  obtain _ | m := n
  · omega
  rw [assignment]
  refine (target.climb deep m s _ _ ahead rfl room (by rw [ladder_length]; omega)).bind ?_
  intro _ _ kept ahead bare
  obtain ⟨_, rfl⟩ := Expr.eq_of_bare_identifier bare
  refine at_bind ahead ?_
  refine (next_yields ahead (by simp)).bind fun _ u taken behind _ => ?_
  have fits : u.expressions + depth ≤ nestingLimit ∨ deep := by
    rw [taken.expressions, kept.expressions]
    exact room
  refine (assigned deep m u follow tail behind ended fits (by omega)).bind fun _ _ _ ahead bare => ?_
  exact .pure ahead (by rw [← bare]; rfl)

lemma reads_expression (inner : ReadsPhrase embed .assignment depth ts e) :
    ReadsPhrase embed .expression (depth + 1) ts e := by
  intro deep n s follow tail ahead ended room _
  obtain _ | m := n
  · omega
  rw [expression]
  refine insideExpression_yields (room.imp_left (by omega))
    (inner deep m _ follow tail ahead ended (room.imp_left ?_) (by omega))
  change _ → s.expressions + 1 + depth ≤ nestingLimit
  omega

lemma reads_sign (signs : unaryOp? sign = some op) (operand : ReadsPhrase embed .signed depth ts e) :
    ReadsPhrase embed .signed (depth + 1) (sign :: ts) (.unary op e {}) := by
  intro deep n _ follow tail ahead ended room fuel
  rw [length_cons] at fuel
  obtain _ | m := n
  · omega
  rw [unary]
  refine look_bind ahead fun _ kind => ?_
  rw [kind, signs]
  refine (next_yields ahead (by simp)).bind fun _ t kept behind _ => ?_
  have counted := kept.expressions
  have fits : t.expressions + 1 + depth ≤ nestingLimit ∨ deep := room.imp_left (by omega)
  refine (insideExpression_yields (fits.imp_left (by omega))
    (operand deep m _ follow tail behind ended fits (by omega))).bind fun _ _ _ ahead bare => ?_
  exact .pure ahead (by rw [← bare]; rfl)

lemma chain_stops (unlinked : follow.opensLink = false) (ahead : s.kinds = follow :: tail) :
    YieldsUnless deep (chain embed (n + 1) left) s (follow :: tail) (· = left) := by
  have others : follow.isPunct .openParen = false ∧ follow.isPunct .openBracket = false ∧
      follow.isPunct .dot = false := by
    cases follow with
    | punct sign => cases sign <;> first | exact ⟨rfl, rfl, rfl⟩ | cases unlinked
    | _ => exact ⟨rfl, rfl, rfl⟩
  obtain ⟨paren, bracket, dot⟩ := others
  rw [chain]
  exact reject_bind ahead paren (reject_bind ahead bracket (reject_bind ahead dot (.pure ahead rfl)))

lemma reads_unsigned (begins : first.beginsOperand)
    (inner : ReadsPhrase embed .linked depth (first :: others) e) :
    ReadsPhrase embed .signed depth (first :: others) e := by
  intro _ n _ follow _ ahead ended room _
  have unlinked : follow.opensLink = false := by
    simpa [TokenKind.endsJoined, TokenKind.joins] using ended
  obtain _ | m := n
  · omega
  rw [unary]
  refine look_bind ahead fun _ kind => ?_
  rw [kind, TokenKind.unaryOp?_of_beginsOperand begins]
  exact Reaches.stop inner ahead rfl room (by omega) (by omega) fun _ _ _ => chain_stops unlinked

/-! ### Links -/

def ReadsAll (embed : Embedding) (depth : Nat) (ts : List TokenKind) (items : List Expr) : Prop :=
  ∀ (deep : Prop) (n : Nat) (s : Reading) (close : Punct) (tail : List TokenKind),
    s.kinds = ts ++ .punct close :: tail → close = .closeParen ∨ close = .closeBracket →
      s.expressions + depth ≤ nestingLimit ∨ deep → 16 * ts.length + 14 ≤ n →
        YieldsUnless deep (Parser.items embed n close) s (.punct close :: tail) (relocateAll {} · = items)

def ReadsItems (embed : Embedding) (depth : Nat) (ts : List TokenKind) (items : List Expr) : Prop :=
  ∀ (deep : Prop) (n : Nat) (s : Reading) (follow : TokenKind) (tail : List TokenKind),
    s.kinds = ts ++ follow :: tail → follow.endsExpression = true → follow.isPunct .comma = false →
      s.expressions + depth ≤ nestingLimit ∨ deep → 16 * ts.length + 13 ≤ n →
        YieldsUnless deep (itemsFrom embed n) s (follow :: tail) (relocateAll {} · = items)

section
variable (target : ReadsPhrase embed .linked depth ts e)
include target

lemma reads_call (given : ReadsAll embed depth us args) : ReadsPhrase embed .linked depth
    (ts ++ .punct .openParen :: (us ++ [.punct .closeParen])) (.call e args {}) := by
  refine Reaches.turn target rfl ?_
  intro deep n _ _ _ _ ahead _ room fuel bare
  simp only [cons_append, append_assoc, length_cons, length_append] at ahead fuel
  rw [chain]
  refine (accept_yields _ ahead (by simp) rfl).bind ?_
  rintro _ t kept ahead rfl
  refine (given deep n t _ _ ahead (.inl rfl) (by rw [kept.expressions]; exact room) (by omega)).bind ?_
  rintro _ _ _ ahead rfl
  refine (expect_yields _ _ ahead (by simp) rfl).bind fun _ _ _ ahead _ => ?_
  exact .here ahead (by rw [← bare]; rfl)

lemma reads_index (within : ReadsPhrase embed .expression depth us index) : ReadsPhrase embed .linked
    depth (ts ++ .punct .openBracket :: (us ++ [.punct .closeBracket])) (.index e index {}) := by
  refine Reaches.turn target rfl ?_
  intro deep n _ _ _ _ ahead _ room fuel bare
  simp only [cons_append, append_assoc, length_cons, length_append] at ahead fuel
  rw [chain]
  refine reject_bind ahead rfl ?_
  refine (accept_yields _ ahead (by simp) rfl).bind ?_
  rintro _ t kept ahead rfl
  refine (within deep n t _ _ ahead rfl (by rw [kept.expressions]; exact room) (by omega)).bind ?_
  rintro _ _ _ ahead rfl
  refine (expect_yields _ _ ahead (by simp) rfl).bind fun _ _ _ ahead _ => ?_
  exact .here ahead (by rw [← bare]; rfl)

lemma reads_member :
    ReadsPhrase embed .linked depth (ts ++ [.punct .dot, .identifier name]) (.member e name {}) := by
  refine Reaches.turn target rfl ?_
  intro _ _ _ _ _ _ ahead _ _ _ bare
  rw [chain]
  refine reject_bind ahead rfl (reject_bind ahead rfl ?_)
  refine (accept_yields _ ahead (by simp) rfl).bind ?_
  rintro _ _ _ ahead rfl
  refine look_bind ahead fun _ _ => ?_
  refine (expectName_yields _ ahead (by simp)).bind ?_
  rintro _ _ _ finish rfl
  exact .here finish (by rw [← bare]; rfl)

end

/-! ### Lists -/

lemma readsAll_empty : ReadsAll embed depth [] [] := by
  intro _ n _ close _ ahead _ _ _
  obtain _ | m := n
  · omega
  rw [items]
  refine at_bind ahead ?_
  rw [show TokenKind.isPunct close (.punct close) = true from beq_self_eq_true close]
  exact .pure ahead rfl

lemma ReadsItems.all {items : List Expr} (begins : first.beginsExpression)
    (inner : ReadsItems embed depth (first :: others) items) :
    ReadsAll embed depth (first :: others) items := by
  intro deep n s _ tail ahead closes room _
  obtain _ | m := n
  · omega
  rw [Parser.items]
  refine at_bind ahead ?_
  rw [TokenKind.isPunct_of_beginsExpression begins closes]
  refine inner deep m s _ tail ahead ?_ ?_ room (by omega)
  all_goals rcases closes with rfl | rfl <;> rfl

lemma readsItems_last (only : ReadsPhrase embed .expression depth ts e) :
    ReadsItems embed depth ts [e] := by
  intro deep n s follow tail ahead ended last room _
  obtain _ | m := n
  · omega
  rw [itemsFrom]
  refine (only deep m s follow tail ahead ended room (by omega)).bind ?_
  rintro _ _ _ ahead rfl
  exact reject_bind ahead last (.pure ahead rfl)

lemma readsItems_more (first : ReadsPhrase embed .expression depth ts e)
    (behind : ReadsItems embed depth us others) :
    ReadsItems embed depth (ts ++ .punct .comma :: us) (e :: others) := by
  intro deep n s follow tail ahead ended last room fuel
  simp only [append_assoc, cons_append, length_append, length_cons] at ahead fuel
  obtain _ | m := n
  · omega
  rw [itemsFrom]
  refine (first deep m s _ _ ahead rfl room (by omega)).bind ?_
  rintro _ _ kept ahead rfl
  refine (accept_yields _ ahead (by simp) rfl).bind ?_
  rintro _ u taken ahead rfl
  have fits : u.expressions + depth ≤ nestingLimit ∨ deep := by
    rw [taken.expressions, kept.expressions]
    exact room
  refine (behind deep m u follow tail ahead ended last fits (by omega)).bind ?_
  rintro _ _ _ ahead rfl
  exact .pure ahead rfl

/-! ### Operands -/

lemma reads_token (stands : kind.operand? place = some e) :
    ReadsPhrase embed .primary depth [kind] e.bare := by
  intro _ n _ _ _ ahead _ _ _
  obtain _ | m := n
  · omega
  rw [primary]
  refine look_bind ahead fun _ same => ?_
  unfold TokenKind.operand? at stands
  split at stands <;> cases stands <;> simp only [same] <;>
    exact (next_yields ahead (by simp)).bind fun _ _ _ there _ => .pure there rfl

lemma reads_interpolated (uniform : embed.IsUniform) (splits : embed place body = .ok parts) :
    ReadsPhrase embed .primary depth [.interpolated body]
    (.interpolated (relocateParts {} parts) {}) := by
  intro _ n _ _ _ ahead _ _ _
  obtain _ | m := n
  · omega
  rw [primary]
  refine look_bind ahead fun _ same => ?_
  simp only [same]
  refine (next_yields ahead (by simp)).bind fun here _ _ there _ => ?_
  obtain ⟨_, found, agree⟩ := uniform body place here parts splits
  rw [found]
  exact .pure there (by rw [← agree]; rfl)

lemma reads_group (inner : ReadsPhrase embed .expression depth ts e) :
    ReadsPhrase embed .primary depth (.punct .openParen :: (ts ++ [.punct .closeParen])) e := by
  intro deep n _ _ _ ahead _ room fuel
  simp only [cons_append, append_assoc, length_cons, length_append] at ahead fuel
  obtain _ | m := n
  · omega
  rw [primary]
  refine look_bind ahead fun _ same => ?_
  simp only [same]
  refine (next_yields ahead (by simp)).bind fun _ t kept ahead _ => ?_
  refine (inner deep m t _ _ ahead rfl (by rw [kept.expressions]; exact room) (by omega)).bind
    fun _ _ _ ahead bare => ?_
  exact (expect_yields _ _ ahead (by simp) rfl).bind fun _ _ _ ahead _ => .pure ahead bare

lemma reads_array {items : List Expr} (inner : ReadsAll embed depth ts items) : ReadsPhrase embed
    .primary depth (.punct .openBracket :: (ts ++ [.punct .closeBracket])) (.array items {}) := by
  intro deep n _ _ _ ahead _ room fuel
  simp only [cons_append, append_assoc, length_cons, length_append] at ahead fuel
  obtain _ | m := n
  · omega
  rw [primary]
  refine look_bind ahead fun _ same => ?_
  simp only [same]
  refine (next_yields ahead (by simp)).bind fun _ t kept ahead _ => ?_
  refine (inner deep m t _ _ ahead (.inr rfl) (by rw [kept.expressions]; exact room) (by omega)).bind ?_
  rintro _ _ _ ahead rfl
  exact (expect_yields _ _ ahead (by simp) rfl).bind fun _ _ _ ahead _ => .pure ahead rfl

end Parser

def Phrase.IsProper : Phrase → Prop
  | .joined levels => levels.Nodup
  | _ => True

open Stepper.Parser

mutual

theorem Spells.reads (uniform : embed.IsUniform) (spells : Spells embed phrase depth ts e)
    (proper : phrase.IsProper) : ReadsPhrase embed phrase depth (ts.map Token.kind) e.bare := by
  match spells with
  | .expression inner => exact reads_expression (inner.reads uniform trivial)
  | .unassigned inner => exact reads_unassigned (inner.reads uniform ladder_nodup)
  | .assign target equals assigned =>
    rw [map_append, map_cons, equals]
    exact reads_assign (target.reads uniform ladder_nodup) (assigned.reads uniform trivial)
  | .operand inner => exact reads_operand (inner.reads uniform (nodup_cons.mp proper).2)
  | .join before joins behind =>
    obtain ⟨apart, distinct⟩ := nodup_cons.mp proper
    rw [map_append, map_cons, ← Connective.join_eq_between, Connective.bare_join]
    exact reads_join apart (Level.connective?_eq_some.mpr joins) (before.reads uniform proper)
      (behind.reads uniform distinct)
  | .unjoined inner => exact reads_unjoined (inner.reads uniform trivial)
  | .sign signs operand => exact reads_sign (unaryOp?_eq_some.mpr signs) (operand.reads uniform trivial)
  | .unsigned inner =>
    have reads := inner.reads uniform trivial
    obtain ⟨_, _, rfl, begins⟩ := inner.begins
    exact reads_unsigned begins reads
  | .unlinked inner => exact (inner.reads uniform trivial).reaches
  | .call target opens given closes =>
    rw [map_append, map_cons, map_append, map_singleton, opens, closes]
    exact reads_call (target.reads uniform trivial) (given.reads uniform)
  | .index target opens within closes =>
    rw [map_append, map_cons, map_append, map_singleton, opens, closes]
    exact reads_index (target.reads uniform trivial) (within.reads uniform trivial)
  | .member target dots names =>
    rw [map_append, map_cons, map_singleton, dots, names]
    exact reads_member (target.reads uniform trivial)
  | .token stands => exact reads_token stands
  | .interpolated holds splits =>
    rw [map_singleton, holds]
    exact reads_interpolated uniform splits
  | .group opens inner closes =>
    rw [map_cons, map_append, map_singleton, opens, closes]
    exact reads_group (inner.reads uniform trivial)
  | .array opens inner closes =>
    rw [map_cons, map_append, map_singleton, opens, closes]
    exact reads_array (inner.reads uniform)

theorem SpellsAll.reads {embed : Embedding} (uniform : embed.IsUniform) {items : List Expr}
    (spells : SpellsAll embed depth ts items) :
    ReadsAll embed depth (ts.map Token.kind) (relocateAll {} items) := by
  match spells with
  | .empty => exact readsAll_empty
  | .nonempty inner =>
    have reads := inner.reads uniform
    obtain ⟨_, _, rfl, begins⟩ := inner.begins
    exact reads.all begins

theorem SpellsItems.reads {embed : Embedding} (uniform : embed.IsUniform) {items : List Expr}
    (spells : SpellsItems embed depth ts items) :
    ReadsItems embed depth (ts.map Token.kind) (relocateAll {} items) := by
  match spells with
  | .last only => exact readsItems_last (only.reads uniform trivial)
  | .more first separates behind =>
    rw [map_append, map_cons, separates]
    exact readsItems_more (first.reads uniform trivial) (behind.reads uniform)

end

end Stepper
