import Stepper.Proofs.Reading
import Stepper.Syntax.ExprParser

/-! # The grammar of expressions

The grammar has its own levels and signs. That the parser's tables agree with them is proved here, so
that a parser which accepts more is found out. -/

namespace Stepper

open List StringPart

/-- An expression without its locations. -/
def Expr.bare (e : Expr) : Expr := e.relocate {}

mutual

theorem Expr.relocate_relocate (first second) (e : Expr) :
    (e.relocate first).relocate second = e.relocate second := by
  cases e with
  | number _ _ | string _ _ | bool _ _ | null _ | identifier _ _ => rfl
  | interpolated parts =>
    simp only [Expr.relocate, relocateParts_relocateParts first second parts]
  | array items => simp only [Expr.relocate, relocateAll_relocateAll first second items]
  | assign _ value => simp only [Expr.relocate, value.relocate_relocate first second]
  | binary _ left right _ | logical _ left right _ =>
    simp only [Expr.relocate, left.relocate_relocate first second, right.relocate_relocate first second]
  | unary _ operand => simp only [Expr.relocate, operand.relocate_relocate first second]
  | call callee args =>
    simp only [Expr.relocate, callee.relocate_relocate first second,
      relocateAll_relocateAll first second args]
  | index target index =>
    simp only [Expr.relocate, target.relocate_relocate first second,
      index.relocate_relocate first second]
  | member target => simp only [Expr.relocate, target.relocate_relocate first second]

theorem relocateAll_relocateAll (first second) (items : List Expr) :
    relocateAll second (relocateAll first items) = relocateAll second items := by
  cases items with
  | nil => rfl
  | cons item others =>
    simp only [relocateAll, item.relocate_relocate first second,
      relocateAll_relocateAll first second others]

theorem relocateParts_relocateParts (first second) (parts : List StringPart) :
    relocateParts second (relocateParts first parts) = relocateParts second parts := by
  cases parts with
  | nil => rfl
  | cons part others =>
    cases part with
    | literal =>
      simp only [relocateParts, relocate, relocateParts_relocateParts first second others]
    | placeholder value =>
      simp only [relocateParts, relocate, value.relocate_relocate first second,
        relocateParts_relocateParts first second others]

end

lemma Expr.eq_of_bare_identifier {e : Expr} (bare : e.bare = .identifier name {}) :
    ∃ place, e = .identifier name place := by
  cases e <;> simp_all [Expr.bare, relocate]

@[simp] lemma Expr.relocate_location (place) (e : Expr) : (e.relocate place).location = place := by
  cases e <;> rfl

def Connective.node : Connective → Expr → Expr → Expr
  | .binary op, left, right => .binary op left right {}
  | .logical op, left, right => .logical op left right {}

lemma Connective.bare_join (connective : Connective) (left right) :
    (connective.join left right).bare = connective.node left.bare right.bare := by
  cases connective <;> rfl

/-- The kinds of phrases an expression is made of, each with the operators it may hold outside of
brackets. -/
inductive Phrase where
  | expression
  | assignment
  | joined (levels : List Level)
  | signed
  | linked
  | primary

/-- What a single token stands for. A token that is no token at all stands for null. -/
def TokenKind.operand? (place : Location) : TokenKind → Option Expr
  | .number value => some (.number value place)
  | .string content => some (.string content place)
  | .keyword .TRUE => some (.bool true place)
  | .keyword .FALSE => some (.bool false place)
  | .keyword .NULL => some (.null place)
  | .identifier name => some (.identifier name place)
  | .invalid => some (.null place)
  | _ => none

/-! ### The phrases

The grammar lists its levels and the signs of each on its own; `Level.connective?_eq_some` and
`unaryOp?_eq_some` say that the reader's tables are these. -/

/-- The levels at which operands are joined, from the loosest to the tightest. -/
def precedence : List Level := [.disjunction, .conjunction, .equality, .relation, .sum, .product]

/-- The signs that join operands, each on its level. -/
inductive Joins : Level → TokenKind → Connective → Prop
  | or : Joins .disjunction (.keyword .OR) (.logical .or)
  | orOr : Joins .disjunction (.operator .orOr) (.logical .or)
  | and : Joins .conjunction (.keyword .AND) (.logical .and)
  | andAnd : Joins .conjunction (.operator .andAnd) (.logical .and)
  | equal : Joins .equality (.operator .equalEqual) (.binary .eq)
  | notEqual : Joins .equality (.operator .notEqual) (.binary .ne)
  | less : Joins .relation (.operator .less) (.binary .lt)
  | lessEqual : Joins .relation (.operator .lessEqual) (.binary .le)
  | greater : Joins .relation (.operator .greater) (.binary .gt)
  | greaterEqual : Joins .relation (.operator .greaterEqual) (.binary .ge)
  | plus : Joins .sum (.operator .plus) (.binary .add)
  | minus : Joins .sum (.operator .minus) (.binary .sub)
  | star : Joins .product (.operator .star) (.binary .mul)
  | slash : Joins .product (.operator .slash) (.binary .div)
  | percent : Joins .product (.operator .percent) (.binary .mod)

/-- The signs before an operand. -/
inductive Signs : TokenKind → UnaryOp → Prop
  | minus : Signs (.operator .minus) .neg
  | bang : Signs (.operator .bang) .not
  | not : Signs (.keyword .NOT) .not

/-- Two operands joined, from the start of the left one to the end of the right one. -/
def Connective.between (left right : Expr) : Connective → Expr
  | .binary op => .binary op left right (left.location.upTo right.location)
  | .logical op => .logical op left right (left.location.upTo right.location)

lemma Connective.join_eq_between (connective : Connective) (left right) :
    connective.join left right = connective.between left right := by
  cases connective <;> rfl

lemma ladder_eq_precedence : ladder = precedence := rfl

lemma Level.connective?_eq_some {level : Level} :
    level.connective? kind = some connective ↔ Joins level kind connective := by
  constructor
  · intro found
    unfold connective? at found
    split at found <;> cases found <;> constructor
  · rintro ⟨⟩ <;> rfl

lemma unaryOp?_eq_some : unaryOp? kind = some op ↔ Signs kind op := by
  constructor
  · intro found
    unfold unaryOp? at found
    split at found <;> cases found <;> constructor
  · rintro ⟨⟩ <;> rfl

mutual

/-- The grammar of expressions: which tokens spell which expression, with its locations. The number
bounds how deep expressions may nest. A binary chain is written from the loosest level to the tightest
and leans to the left. -/
inductive Spells (embed : Embedding) : Phrase → Nat → List Token → Expr → Prop where
  | expression (inner : Spells embed .assignment depth ts e) :
      Spells embed .expression (depth + 1) ts e
  | unassigned (inner : Spells embed (.joined precedence) depth ts e) :
      Spells embed .assignment depth ts e
  | assign {depth : Nat} {ts us : List Token} {sign : Token} {name : String} {place : Location}
      {value : Expr} (target : Spells embed (.joined precedence) depth ts (.identifier name place))
      (equals : sign.kind = .operator .assign) (assigned : Spells embed .assignment depth us value) :
      Spells embed .assignment depth (ts ++ sign :: us)
        (.assign name value (place.upTo value.location))
  | operand {depth : Nat} {ts : List Token} {e : Expr} {level : Level} {tighter : List Level}
      (inner : Spells embed (.joined tighter) depth ts e) :
      Spells embed (.joined (level :: tighter)) depth ts e
  | join {depth : Nat} {ts us : List Token} {left right : Expr} {level : Level}
      {tighter : List Level} {sign : Token} {connective : Connective}
      (before : Spells embed (.joined (level :: tighter)) depth ts left)
      (joins : Joins level sign.kind connective)
      (behind : Spells embed (.joined tighter) depth us right) :
      Spells embed (.joined (level :: tighter)) depth (ts ++ sign :: us) (connective.between left right)
  | unjoined (inner : Spells embed .signed depth ts e) : Spells embed (.joined []) depth ts e
  | sign {depth : Nat} {ts : List Token} {e : Expr} {sign : Token} {op : UnaryOp}
      (signs : Signs sign.kind op) (operand : Spells embed .signed depth ts e) :
      Spells embed .signed (depth + 1) (sign :: ts) (.unary op e (sign.location.upTo e.location))
  | unsigned (inner : Spells embed .linked depth ts e) : Spells embed .signed depth ts e
  | unlinked (inner : Spells embed .primary depth ts e) : Spells embed .linked depth ts e
  | call {depth : Nat} {ts us : List Token} {opening closing : Token} {callee : Expr}
      {args : List Expr} (target : Spells embed .linked depth ts callee)
      (opens : opening.kind = .punct .openParen) (given : SpellsAll embed depth us args)
      (closes : closing.kind = .punct .closeParen) :
      Spells embed .linked depth (ts ++ opening :: (us ++ [closing]))
        (.call callee args (callee.location.upTo closing.location))
  | index {depth : Nat} {ts us : List Token} {opening closing : Token} {target index : Expr}
      (inner : Spells embed .linked depth ts target) (opens : opening.kind = .punct .openBracket)
      (within : Spells embed .expression depth us index)
      (closes : closing.kind = .punct .closeBracket) :
      Spells embed .linked depth (ts ++ opening :: (us ++ [closing]))
        (.index target index (target.location.upTo closing.location))
  | member {depth : Nat} {ts : List Token} {dot word : Token} {target : Expr} {name : String}
      (inner : Spells embed .linked depth ts target) (dots : dot.kind = .punct .dot)
      (names : word.kind = .identifier name) :
      Spells embed .linked depth (ts ++ [dot, word])
        (.member target name (target.location.upTo word.location))
  | token {depth : Nat} {token : Token} {e : Expr}
      (stands : token.kind.operand? token.location = some e) : Spells embed .primary depth [token] e
  | interpolated {depth : Nat} {token : Token} {body : String} {parts : List StringPart}
      (holds : token.kind = .interpolated body) (splits : embed token.location body = .ok parts) :
      Spells embed .primary depth [token] (.interpolated parts token.location)
  | group {depth : Nat} {ts : List Token} {opening closing : Token} {e : Expr}
      (opens : opening.kind = .punct .openParen) (inner : Spells embed .expression depth ts e)
      (closes : closing.kind = .punct .closeParen) :
      Spells embed .primary depth (opening :: (ts ++ [closing])) e
  | array {depth : Nat} {ts : List Token} {opening closing : Token} {items : List Expr}
      (opens : opening.kind = .punct .openBracket) (inner : SpellsAll embed depth ts items)
      (closes : closing.kind = .punct .closeBracket) :
      Spells embed .primary depth (opening :: (ts ++ [closing]))
        (.array items (opening.location.upTo closing.location))

/-- Expressions between brackets, of which there may be none. -/
inductive SpellsAll (embed : Embedding) : Nat → List Token → List Expr → Prop where
  | empty : SpellsAll embed depth [] []
  | nonempty (inner : SpellsItems embed depth ts items) : SpellsAll embed depth ts items

/-- One expression or more, with commas between them. -/
inductive SpellsItems (embed : Embedding) : Nat → List Token → List Expr → Prop where
  | last (only : Spells embed .expression depth ts e) : SpellsItems embed depth ts [e]
  | more {depth : Nat} {ts us : List Token} {comma : Token} {e : Expr} {others : List Expr}
      (first : Spells embed .expression depth ts e) (separates : comma.kind = .punct .comma)
      (behind : SpellsItems embed depth us others) :
      SpellsItems embed depth (ts ++ comma :: us) (e :: others)

end

/-! ### Where a phrase begins -/

def TokenKind.beginsOperand : TokenKind → Bool
  | .number _ | .string _ | .interpolated _ | .identifier _ | .invalid => true
  | .keyword .TRUE | .keyword .FALSE | .keyword .NULL => true
  | .punct .openParen | .punct .openBracket => true
  | _ => false

def TokenKind.beginsExpression (kind : TokenKind) : Bool :=
  kind.beginsOperand || (unaryOp? kind).isSome

def Phrase.begins : Phrase → TokenKind → Bool
  | .linked | .primary => TokenKind.beginsOperand
  | .expression | .assignment | .joined _ | .signed => TokenKind.beginsExpression

lemma Phrase.begins_expression {phrase : Phrase} (begins : phrase.begins kind) :
    kind.beginsExpression := by
  cases phrase <;> simp_all [Phrase.begins, TokenKind.beginsExpression]

lemma TokenKind.unaryOp?_of_beginsOperand (begins : kind.beginsOperand) :
    unaryOp? kind = none := by
  unfold beginsOperand at begins
  split at begins <;> first | rfl | cases begins

lemma TokenKind.beginsOperand_of_operand? {kind : TokenKind} (stands : kind.operand? place = some e) :
    kind.beginsOperand := by
  unfold operand? at stands
  split at stands <;> first | rfl | cases stands

lemma Spells.begins (spells : Spells embed phrase depth ts e) :
    ∃ first others, ts = first :: others ∧ phrase.begins first.kind = true := by
  match spells with
  | .expression inner | .unassigned inner | .operand inner | .unjoined inner | .unlinked inner =>
    exact inner.begins
  | .unsigned inner =>
    obtain ⟨first, others, rfl, begins⟩ := inner.begins
    exact ⟨first, others, rfl, Phrase.begins_expression begins⟩
  | .assign inner _ _ | .join inner _ _ | .call inner _ _ _ | .index inner _ _ _
  | .member inner _ _ =>
    obtain ⟨first, _, rfl, begins⟩ := inner.begins
    exact ⟨first, _, rfl, begins⟩
  | .sign signs _ =>
    exact ⟨_, _, rfl, by simp [Phrase.begins, TokenKind.beginsExpression, unaryOp?_eq_some.mpr signs]⟩
  | .token stands => exact ⟨_, _, rfl, TokenKind.beginsOperand_of_operand? stands⟩
  | .interpolated holds _ => exact ⟨_, _, rfl, by rw [holds]; rfl⟩
  | .group opens _ _ | .array opens _ _ => exact ⟨_, _, rfl, by rw [opens]; rfl⟩

lemma SpellsItems.begins (spells : SpellsItems embed depth ts items) :
    ∃ first others, ts = first :: others ∧ first.kind.beginsExpression = true := by
  cases spells with
  | last only => exact only.begins
  | more inner =>
    obtain ⟨first, _, rfl, begins⟩ := inner.begins
    exact ⟨first, _, rfl, begins⟩

/-! ### What a phrase is made of -/

lemma TokenKind.isSolid_of_beginsOperand {kind : TokenKind} (begins : kind.beginsOperand) :
    kind.isSolid := by
  cases kind <;> simp_all [beginsOperand, isSolid, isTrivia, isEnd]

lemma Joins.isSolid (joins : Joins level kind connective) : kind.isSolid := by
  cases joins <;> rfl

lemma Signs.isSolid (signs : Signs kind op) : kind.isSolid := by
  cases signs <;> rfl

mutual

theorem Spells.isSolid (spells : Spells embed phrase depth ts e) :
    ∀ token ∈ ts, token.kind.isSolid = true := by
  match spells with
  | .expression inner | .unassigned inner | .operand inner | .unjoined inner | .unsigned inner
  | .unlinked inner => exact inner.isSolid
  | .assign target equals assigned =>
    exact forall_mem_append.mpr ⟨target.isSolid,
      forall_mem_cons.mpr ⟨by rw [equals]; rfl, assigned.isSolid⟩⟩
  | .join before joins behind =>
    exact forall_mem_append.mpr ⟨before.isSolid,
      forall_mem_cons.mpr ⟨joins.isSolid, behind.isSolid⟩⟩
  | .sign signs operand =>
    exact forall_mem_cons.mpr ⟨signs.isSolid, operand.isSolid⟩
  | .call target opens given closes =>
    exact forall_mem_append.mpr ⟨target.isSolid, forall_mem_cons.mpr ⟨by rw [opens]; rfl,
      forall_mem_append.mpr ⟨given.isSolid, forall_mem_singleton.mpr (by rw [closes]; rfl)⟩⟩⟩
  | .index target opens within closes =>
    exact forall_mem_append.mpr ⟨target.isSolid, forall_mem_cons.mpr ⟨by rw [opens]; rfl,
      forall_mem_append.mpr ⟨within.isSolid, forall_mem_singleton.mpr (by rw [closes]; rfl)⟩⟩⟩
  | .member target dots names =>
    exact forall_mem_append.mpr ⟨target.isSolid, forall_mem_cons.mpr ⟨by rw [dots]; rfl,
      forall_mem_singleton.mpr (by rw [names]; rfl)⟩⟩
  | .token stands =>
    exact forall_mem_singleton.mpr
      (TokenKind.isSolid_of_beginsOperand (TokenKind.beginsOperand_of_operand? stands))
  | .interpolated holds _ => exact forall_mem_singleton.mpr (by rw [holds]; rfl)
  | .group opens inner closes =>
    exact forall_mem_cons.mpr ⟨by rw [opens]; rfl,
      forall_mem_append.mpr ⟨inner.isSolid, forall_mem_singleton.mpr (by rw [closes]; rfl)⟩⟩
  | .array opens inner closes =>
    exact forall_mem_cons.mpr ⟨by rw [opens]; rfl,
      forall_mem_append.mpr ⟨inner.isSolid, forall_mem_singleton.mpr (by rw [closes]; rfl)⟩⟩

theorem SpellsAll.isSolid (spells : SpellsAll embed depth ts items) :
    ∀ token ∈ ts, token.kind.isSolid = true := by
  match spells with
  | .empty => exact forall_mem_nil _
  | .nonempty inner => exact inner.isSolid

theorem SpellsItems.isSolid (spells : SpellsItems embed depth ts items) :
    ∀ token ∈ ts, token.kind.isSolid = true := by
  match spells with
  | .last only => exact only.isSolid
  | .more first separates behind =>
    exact forall_mem_append.mpr ⟨first.isSolid,
      forall_mem_cons.mpr ⟨by rw [separates]; rfl, behind.isSolid⟩⟩

end

/-! ### Names before `=` -/

def startsAssignment : List TokenKind → Bool
  | .identifier _ :: .operator .assign :: _ => true
  | _ => false

lemma Signs.startsAssignment (signs : Signs kind op) : startsAssignment (kind :: kinds) = false := by
  cases signs <;> rfl

def Phrase.isTight : Phrase → Bool
  | .expression | .assignment => false
  | .joined _ | .signed | .linked | .primary => true

lemma Spells.startsAssignment_tight (spells : Spells embed phrase depth ts e)
    (tight : phrase.isTight) {tail : List TokenKind} (other : follow ≠ .operator .assign) :
    startsAssignment (ts.map Token.kind ++ follow :: tail) = false := by
  match spells with
  | .expression _ | .unassigned _ | .assign _ _ _ => cases tight
  | .operand inner | .unjoined inner | .unsigned inner | .unlinked inner =>
    exact inner.startsAssignment_tight rfl other
  | .join inner joins _ =>
    rw [map_append, append_assoc]
    refine inner.startsAssignment_tight rfl fun equals => ?_
    rw [equals] at joins
    cases joins
  | .call inner opens _ _ | .index inner opens _ _ | .member inner opens _ =>
    rw [map_append, append_assoc]
    refine inner.startsAssignment_tight rfl fun equals => ?_
    rw [opens] at equals
    cases equals
  | .sign signs _ =>
    exact signs.startsAssignment
  | .token _ =>
    rw [map_cons, map_nil, singleton_append]
    unfold startsAssignment
    split
    · simp_all
    · rfl
  | .interpolated opens _ | .group opens _ _ | .array opens _ _ =>
    rw [map_cons, opens]
    rfl

lemma Spells.startsAssignment_eq_false (spells : Spells embed .expression depth ts e)
    (unassigned : ∀ name value place, e ≠ .assign name value place) {tail : List TokenKind}
    (other : follow ≠ .operator .assign) :
    startsAssignment (ts.map Token.kind ++ follow :: tail) = false := by
  cases spells with
  | expression inner =>
    cases inner with
    | unassigned joined => exact joined.startsAssignment_tight rfl other
    | assign => exact absurd rfl (unassigned _ _ _)

/-! ### Templates -/

def Embedding.IsUniform (embed : Embedding) : Prop :=
  ∀ (body : String) (here there : Location) (parts : List StringPart),
    embed here body = .ok parts →
      ∃ others, embed there body = .ok others ∧ relocateParts {} others = relocateParts {} parts

lemma partsOfPieces_cons {read : List Char → Except Diagnostic Expr}
    (found : partsOfPieces read place (piece :: rest) = .ok parts) : ∃ part others, parts = part ::
    others ∧ partsOfPieces read place rest = .ok others ∧ ((∃ text, piece = .literal text ∧ part =
      .literal (String.ofList text)) ∨ ∃ text value, piece = .code text ∧ read text = .ok value ∧ part =
      .placeholder value) := by
  cases piece with
  | unclosed => cases found
  | literal text =>
    cases behind : partsOfPieces read place rest with
    | error => simp [partsOfPieces, behind, Except.map] at found
    | ok others =>
      obtain rfl : _ = parts := by simpa [partsOfPieces, behind, Except.map] using found
      exact ⟨_, others, rfl, rfl, .inl ⟨text, rfl, rfl⟩⟩
  | code text =>
    cases value : read text with
    | error => simp [partsOfPieces, value] at found
    | ok first =>
      cases behind : partsOfPieces read place rest with
      | error => simp [partsOfPieces, value, behind, Except.map] at found
      | ok others =>
        obtain rfl : _ = parts := by simpa [partsOfPieces, value, behind, Except.map] using found
        exact ⟨_, others, rfl, rfl, .inr ⟨text, first, rfl, value, rfl⟩⟩

lemma partsOfPieces_uniform {read reread : List Char → Except Diagnostic Expr} (same : ∀ text value,
      read text = .ok value → ∃ other, reread text = .ok other ∧ other.bare = value.bare)
    (found : partsOfPieces read here pieces = .ok parts) : ∃ others, partsOfPieces reread there pieces =
    .ok others ∧ relocateParts {} others = relocateParts {} parts := by
  induction pieces generalizing parts with
  | nil => exact ⟨parts, found, rfl⟩
  | cons _ _ ih =>
    obtain ⟨_, _, rfl, behind, kind⟩ := partsOfPieces_cons found
    obtain ⟨_, run, agree⟩ := ih behind
    obtain ⟨text, rfl, rfl⟩ | ⟨text, value, rfl, first, rfl⟩ := kind
    · exact ⟨_, by simp [partsOfPieces, run, Except.map]; rfl, by
        simp only [relocateParts, relocate, agree]⟩
    · obtain ⟨_, again, bare⟩ := same text value first
      exact ⟨_, by simp [partsOfPieces, again, run, Except.map]; rfl, by
        simp only [Expr.bare] at bare
        simp only [relocateParts, relocate, agree, bare]⟩

lemma parsePlaceholder_uniform (found : parsePlaceholder embed here text = .ok value) :
    ∃ other, parsePlaceholder embed there text = .ok other ∧ other.bare = value.bare := by
  unfold parsePlaceholder at found ⊢
  split at found
  · cases found
  · next filled =>
    rw [if_neg filled]
    cases read : parseExpressionWith embed (String.ofList text) with
    | error => simp [read] at found
    | ok inner =>
      obtain rfl : inner.relocate here = value := by simpa [read] using found
      exact ⟨inner.relocate there, rfl, by simp only [Expr.bare, Expr.relocate_relocate]⟩

lemma embedTemplate_isUniform : embedTemplate.IsUniform := by
  intro _ _ _ _ found
  exact partsOfPieces_uniform (fun _ _ read => parsePlaceholder_uniform read) found

end Stepper
