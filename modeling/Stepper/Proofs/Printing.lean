import Stepper.Proofs.Spelling

/-! # Expressions in tokens -/

namespace Stepper

open TokenKind

/-! ### The ladder in steps -/

/-- The level at which a connective binds. The printer has its own tables of levels and signs. -/
def Connective.level : Connective → Level
  | .logical .or => .disjunction
  | .logical .and => .conjunction
  | .binary .eq | .binary .ne => .equality
  | .binary .lt | .binary .le | .binary .gt | .binary .ge => .relation
  | .binary .add | .binary .sub => .sum
  | .binary .mul | .binary .div | .binary .mod => .product

def Connective.sign : Connective → TokenKind
  | .logical .or => .keyword .OR
  | .logical .and => .keyword .AND
  | .binary .eq => .operator .equalEqual
  | .binary .ne => .operator .notEqual
  | .binary .lt => .operator .less
  | .binary .le => .operator .lessEqual
  | .binary .gt => .operator .greater
  | .binary .ge => .operator .greaterEqual
  | .binary .add => .operator .plus
  | .binary .sub => .operator .minus
  | .binary .mul => .operator .star
  | .binary .div => .operator .slash
  | .binary .mod => .operator .percent

def UnaryOp.sign : UnaryOp → TokenKind
  | .neg => .operator .minus
  | .not => .keyword .NOT

lemma Connective.sign_joins (connective) :
    Joins connective.level connective.sign connective := by
  cases connective with
  | binary op => cases op <;> constructor
  | logical op => cases op <;> constructor

lemma UnaryOp.sign_signs (op) : Signs op.sign op := by
  cases op <;> constructor

def Level.step : Level → Nat
  | .disjunction => 1
  | .conjunction => 2
  | .equality => 3
  | .relation => 4
  | .sum => 5
  | .product => 6

/-- The phrase that stands on a step: assignment, then operands joined by the operators of this step
and of all above, then signs, then calls, indices and member names. -/
def Phrase.onStep : Nat → Phrase
  | 0 => .assignment
  | 8 => .signed
  | 9 => .linked
  | step => .joined (ladder.drop (step - 1))

lemma Phrase.onStep_level (level) : onStep level.step = .joined (level :: ladder.drop level.step) := by
  cases level <;> rfl

lemma Phrase.onStep_succ_level (level : Level) :
    onStep (level.step + 1) = .joined (ladder.drop level.step) := by
  cases level <;> rfl

/-- How tightly an expression holds together, from an assignment to an operand. -/
def Expr.step : Expr → Nat
  | .assign _ _ _ => 0
  | .binary op _ _ _ => (Connective.binary op).level.step
  | .logical op _ _ _ => (Connective.logical op).level.step
  | .unary _ _ _ => 8
  | .number _ _ | .string _ _ | .bool _ _ | .null _ | .interpolated _ _ | .array _ _
  | .identifier _ _ | .call _ _ _ | .index _ _ _ | .member _ _ _ => 9

lemma Level.step_lt (level : Level) : level.step < 7 := by
  cases level <;> decide

lemma Expr.step_le (e : Expr) : e.step ≤ 9 := by
  have low := fun connective : Connective => connective.level.step_lt
  cases e with
  | binary op => exact Nat.le_trans (Nat.le_of_lt (low (.binary op))) (by decide)
  | logical op => exact Nat.le_trans (Nat.le_of_lt (low (.logical op))) (by decide)
  | _ => simp [step]

section Grammar
variable {embed : Embedding} {depth : Nat} {ts : List Token} {e : Expr}

lemma Spells.stepDown (low : step < 9) (spells : Spells embed (.onStep (step + 1)) depth ts e) :
    Spells embed (.onStep step) depth ts e := by
  match step, low with
  | 0, _ => exact .unassigned spells
  | 1, _ | 2, _ | 3, _ | 4, _ | 5, _ | 6, _ => exact .operand spells
  | 7, _ => exact .unjoined spells
  | 8, _ => exact .unsigned spells

lemma Spells.loosen (top : step ≤ 9) (down : lower ≤ step)
    (spells : Spells embed (.onStep step) depth ts e) : Spells embed (.onStep lower) depth ts e := by
  obtain ⟨gap, rfl⟩ := Nat.exists_eq_add_of_le down
  induction gap with
  | zero => exact spells
  | succ _ ih => exact ih (by omega) (by omega) (spells.stepDown (by omega))

mutual

theorem Spells.deepen {depth deeper : Nat} {ts : List Token} {e : Expr}
    (spells : Spells embed phrase depth ts e) (more : depth ≤ deeper) :
    Spells embed phrase deeper ts e := by
  match spells with
  | .expression inner =>
    obtain ⟨_, rfl⟩ := Nat.exists_eq_add_of_le more
    rw [Nat.add_right_comm]
    exact .expression (inner.deepen (Nat.le_add_right _ _))
  | .unassigned inner => exact .unassigned (inner.deepen more)
  | .assign target equals assigned => exact .assign (target.deepen more) equals (assigned.deepen more)
  | .operand inner => exact .operand (inner.deepen more)
  | .join before joins behind => exact .join (before.deepen more) joins (behind.deepen more)
  | .unjoined inner => exact .unjoined (inner.deepen more)
  | .sign signs operand =>
    obtain ⟨_, rfl⟩ := Nat.exists_eq_add_of_le more
    rw [Nat.add_right_comm]
    exact .sign signs (operand.deepen (Nat.le_add_right _ _))
  | .unsigned inner => exact .unsigned (inner.deepen more)
  | .unlinked inner => exact .unlinked (inner.deepen more)
  | .call target opens given closes => exact .call (target.deepen more) opens (given.deepen more) closes
  | .index target opens within closes =>
    exact .index (target.deepen more) opens (within.deepen more) closes
  | .member target dots names => exact .member (target.deepen more) dots names
  | .token stands => exact .token stands
  | .interpolated holds splits => exact .interpolated holds splits
  | .group opens inner closes => exact .group opens (inner.deepen more) closes
  | .array opens inner closes => exact .array opens (inner.deepen more) closes

theorem SpellsAll.deepen {depth deeper : Nat} {ts : List Token}
    (spells : SpellsAll embed depth ts items) (more : depth ≤ deeper) :
    SpellsAll embed deeper ts items := by
  match spells with
  | .empty => exact .empty
  | .nonempty inner => exact .nonempty (inner.deepen more)

theorem SpellsItems.deepen {depth deeper : Nat} {ts : List Token}
    (spells : SpellsItems embed depth ts items) (more : depth ≤ deeper) :
    SpellsItems embed deeper ts items := by
  match spells with
  | .last only => exact .last (only.deepen more)
  | .more first separates behind => exact .more (first.deepen more) separates (behind.deepen more)

end

end Grammar

/-! ### Printing -/

/-- The tokens of an expression, and how many expressions are open inside of it at once. -/
structure Printed where
  tokens : List TokenKind
  nesting : Nat

namespace Printed

def ofToken (kind : TokenKind) : Printed := ⟨[kind], 0⟩

instance : Append Printed where
  append first second := ⟨first.tokens ++ second.tokens, max first.nesting second.nesting⟩

/-- Something printed inside one more expression. -/
def nested (inner : Printed) : Printed := { inner with nesting := inner.nesting + 1 }

def inParens (inner : Printed) : Printed :=
  ofToken (.punct .openParen) ++ inner ++ ofToken (.punct .closeParen)

def inBrackets (inner : Printed) : Printed :=
  ofToken (.punct .openBracket) ++ inner ++ ofToken (.punct .closeBracket)

/-- Puts an expression in parentheses that is looser than its place allows. -/
def onStep (printed : Printed) (step : Nat) (e : Expr) : Printed :=
  if e.step < step then printed.nested.inParens else printed

/-- Two operands around a connective. The right one must be tighter, so that chains lean to the left. -/
def joined (connective : Connective) (left right : Expr) (before behind : Printed) : Printed :=
  before.onStep connective.level.step left ++ ofToken connective.sign ++
    behind.onStep (connective.level.step + 1) right

end Printed

open Printed in
mutual

/-- The tokens of an expression, with no more parentheses than it needs, and how deep it nests. -/
def Expr.printed : Expr → Printed
  | .number value _ => ofToken (.number value)
  | .string content _ => ofToken (.string content)
  | .bool true _ => ofToken (.keyword .TRUE)
  | .bool false _ => ofToken (.keyword .FALSE)
  | .null _ => ofToken (.keyword .NULL)
  -- What a template is written as is not made of tokens.
  | .interpolated _ _ => ⟨[], 0⟩
  | .array items _ => inBrackets (printedItems items)
  | .identifier name _ => ofToken (.identifier name)
  | .assign name value _ => ofToken (.identifier name) ++ ofToken (.operator .assign) ++ value.printed
  | .binary op left right _ => joined (.binary op) left right left.printed right.printed
  | .logical op left right _ => joined (.logical op) left right left.printed right.printed
  | .unary op operand _ => ofToken op.sign ++ (operand.printed.onStep 8 operand).nested
  | .call callee args _ => callee.printed.onStep 9 callee ++ inParens (printedItems args)
  | .index target index _ => target.printed.onStep 9 target ++ inBrackets index.printed.nested
  | .member target name _ =>
    target.printed.onStep 9 target ++ ofToken (.punct .dot) ++ ofToken (.identifier name)

def printedItems : List Expr → Printed
  | [] => ⟨[], 0⟩
  | [last] => last.printed.nested
  | first :: rest => first.printed.nested ++ ofToken (.punct .comma) ++ printedItems rest

end

mutual

/-- Whether no string of an expression has placeholders. -/
def Expr.isUntemplated : Expr → Bool
  | .interpolated _ _ => false
  | .number _ _ | .string _ _ | .bool _ _ | .null _ | .identifier _ _ => true
  | .array items _ => allUntemplated items
  | .assign _ value _ => value.isUntemplated
  | .binary _ left right _ | .logical _ left right _ => left.isUntemplated && right.isUntemplated
  | .unary _ operand _ => operand.isUntemplated
  | .call callee args _ => callee.isUntemplated && allUntemplated args
  | .index target index _ => target.isUntemplated && index.isUntemplated
  | .member target _ _ => target.isUntemplated

def allUntemplated : List Expr → Bool
  | [] => true
  | first :: rest => first.isUntemplated && allUntemplated rest

end

def TokenKind.unplaced (kind : TokenKind) : Token := ⟨kind, "", {}⟩

@[simp] lemma TokenKind.unplaced_kind (kind : TokenKind) : kind.unplaced.kind = kind := rfl

@[simp] lemma TokenKind.unplaced_location (kind : TokenKind) : kind.unplaced.location = {} := rfl

@[simp] lemma Location.empty_upTo : ({} : Location).upTo {} = {} := rfl

namespace Printed

@[simp] lemma ofToken_tokens (kind) : (ofToken kind).tokens = [kind] := rfl

@[simp] lemma ofToken_nesting (kind) : (ofToken kind).nesting = 0 := rfl

@[simp] lemma append_tokens (first second : Printed) :
    (first ++ second).tokens = first.tokens ++ second.tokens := rfl

@[simp] lemma append_nesting (first second : Printed) :
    (first ++ second).nesting = max first.nesting second.nesting := rfl

def Spells (embed : Embedding) (phrase : Phrase) (printed : Printed) (e : Expr) : Prop :=
  Stepper.Spells embed phrase printed.nesting (printed.tokens.map unplaced) e.bare

def SpellsItems (embed : Embedding) (printed : Printed) (items : List Expr) : Prop :=
  Stepper.SpellsItems embed printed.nesting (printed.tokens.map unplaced)
    (relocateAll {} items)

variable {embed : Embedding} {printed : Printed} {e left right : Expr} {before behind : Printed}

lemma spells_inParens (inner : printed.Spells embed (.onStep e.step) e) :
    printed.nested.inParens.Spells embed .linked e := by
  have whole : Stepper.Spells embed .expression (printed.nesting + 1)
      (printed.tokens.map unplaced) e.bare :=
    .expression (inner.loosen e.step_le (Nat.zero_le _))
  have group := Stepper.Spells.group (unplaced_kind (.punct .openParen)) whole (unplaced_kind (.punct .closeParen))
  simpa [Spells, inParens, nested] using Stepper.Spells.unlinked group

lemma spells_onStep (step : Nat) (low : step ≤ 9) (inner : printed.Spells embed (.onStep e.step) e) :
    (printed.onStep step e).Spells embed (.onStep step) e := by
  unfold onStep
  split
  · have top : printed.nested.inParens.Spells embed (.onStep 9) e := spells_inParens inner
    exact top.loosen (Nat.le_refl 9) low
  · exact Stepper.Spells.loosen e.step_le (by omega) inner

lemma spells_joined (connective) (first : before.Spells embed (.onStep left.step) left)
    (second : behind.Spells embed (.onStep right.step) right) : Stepper.Spells embed
    (.onStep connective.level.step) (joined connective left right before behind).nesting
    ((joined connective left right before behind).tokens.map unplaced)
    (connective.node left.bare right.bare) := by
  have low := connective.level.step_lt
  have operand := spells_onStep connective.level.step (by omega) first
  have other := spells_onStep (connective.level.step + 1) (by omega) second
  rw [Spells, Phrase.onStep_level] at operand
  rw [Spells, Phrase.onStep_succ_level] at other
  rw [Phrase.onStep_level]
  have joins : Joins connective.level (unplaced connective.sign).kind connective :=
    connective.sign_joins
  have whole := Stepper.Spells.join (operand.deepen (Nat.le_max_left _ _)) joins
    (other.deepen (Nat.le_max_right _ _))
  have node : connective.between left.bare right.bare = connective.node left.bare right.bare := by
    cases connective <;> simp [Connective.between, Connective.node, Expr.bare]
  simpa [joined, node] using whole

lemma spells_assign (value : printed.Spells embed (.onStep e.step) e) :
    (ofToken (.identifier name) ++ ofToken (.operator .assign) ++ printed).Spells embed .assignment
    (.assign name e {}) := by
  have word : Stepper.Spells embed (.onStep 9) printed.nesting
      [unplaced (.identifier name)] (.identifier name {}) := .unlinked (.token rfl)
  have target : Stepper.Spells embed (.onStep 1) printed.nesting
      [unplaced (.identifier name)] (.identifier name {}) :=
    word.loosen (Nat.le_refl 9) (by decide)
  have whole := Stepper.Spells.assign target (unplaced_kind (.operator .assign))
    (value.loosen e.step_le (Nat.zero_le _))
  simpa [Spells, Expr.bare, Expr.relocate] using whole

lemma spells_sign (op : UnaryOp) (operand : printed.Spells embed (.onStep e.step) e) :
    (ofToken op.sign ++ (printed.onStep 8 e).nested).Spells embed .signed (.unary op e {}) := by
  have signs : Signs (unplaced op.sign).kind op := op.sign_signs
  have whole := Stepper.Spells.sign signs (spells_onStep 8 (by decide) operand)
  simpa [Spells, nested, Expr.bare, Expr.relocate] using whole

lemma spells_index (target : before.Spells embed (.onStep left.step) left)
    (index : behind.Spells embed (.onStep right.step) right) :
    (before.onStep 9 left ++ inBrackets behind.nested).Spells embed .linked (.index left right {}) := by
  have whole : Stepper.Spells embed .expression (behind.nesting + 1)
      (behind.tokens.map unplaced) right.bare :=
    .expression (index.loosen right.step_le (Nat.zero_le _))
  have operand := spells_onStep 9 (Nat.le_refl 9) target
  have linked := Stepper.Spells.index (operand.deepen (Nat.le_max_left _ _)) (unplaced_kind (.punct .openBracket))
    (whole.deepen (Nat.le_max_right _ _)) (unplaced_kind (.punct .closeBracket))
  simpa [Spells, inBrackets, nested, Expr.bare, Expr.relocate] using linked

lemma spells_member (target : printed.Spells embed (.onStep e.step) e) :
    (printed.onStep 9 e ++ ofToken (.punct .dot) ++ ofToken (.identifier name)).Spells embed .linked
    (.member e name {}) := by
  have operand := spells_onStep 9 (Nat.le_refl 9) target
  have linked := Stepper.Spells.member operand (unplaced_kind (.punct .dot))
    (unplaced_kind (.identifier name))
  simpa [Spells, Expr.bare, Expr.relocate] using linked

lemma spellsAll_printedItems (some : items ≠ [] → (printedItems items).SpellsItems embed items) :
    SpellsAll embed (printedItems items).nesting ((printedItems items).tokens.map unplaced)
    (relocateAll {} items) := by
  cases items with
  | nil => exact .empty
  | cons => exact .nonempty (some (by simp))

lemma spells_call (target : before.Spells embed (.onStep e.step) e)
    (given : args ≠ [] → (printedItems args).SpellsItems embed args) :
    (before.onStep 9 e ++ inParens (printedItems args)).Spells embed .linked (.call e args {}) := by
  have operand := spells_onStep 9 (Nat.le_refl 9) target
  have linked := Stepper.Spells.call (operand.deepen (Nat.le_max_left _ _)) (unplaced_kind (.punct .openParen))
    ((spellsAll_printedItems given).deepen (Nat.le_max_right _ _)) (unplaced_kind (.punct .closeParen))
  simpa [Spells, inParens, Expr.bare, Expr.relocate] using linked

lemma spells_array (inner : items ≠ [] → (printedItems items).SpellsItems embed items) :
    (inBrackets (printedItems items)).Spells embed .linked (.array items {}) := by
  have primary := Stepper.Spells.array (unplaced_kind (.punct .openBracket)) (spellsAll_printedItems inner)
    (unplaced_kind (.punct .closeBracket))
  simpa [Spells, inBrackets, Expr.bare, Expr.relocate] using Stepper.Spells.unlinked primary

end Printed

open Printed in
mutual

theorem Expr.printed_spells (embed) (e : Expr) (plain : e.isUntemplated = true) :
    e.printed.Spells embed (.onStep e.step) e := by
  cases e with
  | number => exact .unlinked (.token rfl)
  | string => exact .unlinked (.token rfl)
  | bool value => cases value <;> exact .unlinked (.token rfl)
  | null => exact .unlinked (.token rfl)
  | identifier => exact .unlinked (.token rfl)
  | interpolated => cases plain
  | array items => exact spells_array (printedItems_spells embed items plain)
  | assign _ value => exact spells_assign (value.printed_spells embed plain)
  | binary op left right =>
    obtain ⟨first, second⟩ := Bool.and_eq_true_iff.mp plain
    exact spells_joined (.binary op) (left.printed_spells embed first)
      (right.printed_spells embed second)
  | logical op left right =>
    obtain ⟨first, second⟩ := Bool.and_eq_true_iff.mp plain
    exact spells_joined (.logical op) (left.printed_spells embed first)
      (right.printed_spells embed second)
  | unary op operand => exact spells_sign op (operand.printed_spells embed plain)
  | call callee args =>
    obtain ⟨first, second⟩ := Bool.and_eq_true_iff.mp plain
    exact spells_call (callee.printed_spells embed first) (printedItems_spells embed args second)
  | index target index =>
    obtain ⟨first, second⟩ := Bool.and_eq_true_iff.mp plain
    exact spells_index (target.printed_spells embed first) (index.printed_spells embed second)
  | member target => exact spells_member (target.printed_spells embed plain)

theorem printedItems_spells (embed) (items : List Expr) (plain : allUntemplated items = true)
    (some : items ≠ []) : (printedItems items).SpellsItems embed items := by
  cases items with
  | nil => exact absurd rfl some
  | cons first rest =>
    obtain ⟨here, others⟩ := Bool.and_eq_true_iff.mp plain
    have item : Spells embed .expression (first.printed.nesting + 1)
        (first.printed.tokens.map unplaced) first.bare :=
      .expression ((first.printed_spells embed here).loosen first.step_le (Nat.zero_le _))
    cases rest with
    | nil => exact .last item
    | cons second rest =>
      have behind := printedItems_spells embed (second :: rest) others (by simp)
      have whole := SpellsItems.more (item.deepen (Nat.le_max_left _ _))
        (unplaced_kind (.punct .comma)) (behind.deepen (Nat.le_max_right _ _))
      simpa [Printed.SpellsItems, printedItems, nested, Expr.bare, relocateAll] using whole

end

/-! ### No parentheses are spare -/

lemma Expr.step_bare (e : Expr) : e.bare.step = e.step := by
  cases e <;> rfl

lemma Joins.eq_level (joins : Joins level kind connective) : connective.level = level := by
  cases joins <;> rfl

lemma Connective.step_join (connective : Connective) (left right) :
    (connective.between left right).step = connective.level.step := by
  cases connective <;> rfl

lemma TokenKind.step_of_operand? {kind : TokenKind} (stands : kind.operand? place = some e) :
    e.step = 9 := by
  unfold operand? at stands
  split at stands <;> cases stands <;> rfl

section Necessity
variable {embed : Embedding} {depth : Nat} {ts : List Token} {e : Expr}

/-- Whether tokens are an expression in parentheses. -/
def IsGroup (embed : Embedding) (depth : Nat) (ts : List Token) (e : Expr) : Prop :=
  ∃ opening inner closing, ts = opening :: (inner ++ [closing]) ∧
    opening.kind = .punct .openParen ∧ closing.kind = .punct .closeParen ∧
      Spells embed .expression depth inner e

lemma Spells.joined_cases (spells : Spells embed (.joined (level :: tighter)) depth ts e) :
    e.step = level.step ∨ Spells embed (.joined tighter) depth ts e := by
  cases spells with
  | operand inner => exact .inr inner
  | join _ joins => exact .inl (by rw [Connective.step_join, joins.eq_level])

lemma Spells.stepUp (low : step < 9) (spells : Spells embed (.onStep step) depth ts e)
    (lower : e.step < step) : Spells embed (.onStep (step + 1)) depth ts e := by
  match step, low with
  | 0, _ => exact absurd lower (Nat.not_lt_zero _)
  | 1, _ | 2, _ | 3, _ | 4, _ | 5, _ | 6, _ =>
    rcases spells.joined_cases with here | above
    · exact absurd here (Nat.ne_of_lt lower)
    · exact above
  | 7, _ =>
    cases spells with
    | unjoined above => exact above
  | 8, _ =>
    cases spells with
    | sign => exact absurd lower (Nat.lt_irrefl 8)
    | unsigned above => exact above

lemma Spells.isGroup (top : step ≤ 9) (spells : Spells embed (.onStep step) depth ts e)
    (lower : e.step < step) : IsGroup embed depth ts e := by
  obtain ⟨gap, _⟩ := Nat.exists_eq_add_of_le top
  induction gap generalizing step with
  | succ _ ih =>
    exact ih (by omega) (spells.stepUp (by omega) lower) (Nat.lt_succ_of_lt lower) (by omega)
  | zero =>
    obtain rfl : step = 9 := by omega
    cases spells with
    | call _ _ _ _ | index _ _ _ _ | member _ _ _ => exact absurd lower (Nat.lt_irrefl 9)
    | unlinked above =>
      cases above with
      | token stands => exact absurd (step_of_operand? stands) (Nat.ne_of_lt lower)
      | interpolated _ _ | array _ _ _ => exact absurd lower (Nat.lt_irrefl 9)
      | group opens inner closes => exact ⟨_, _, _, rfl, opens, closes, inner⟩

lemma Spells.isGroup_of_printed (top : step ≤ 9) (same : value.bare = e.bare)
    (changed : (e.printed.onStep step e).tokens ≠ e.printed.tokens)
    (spells : Spells embed (.onStep step) depth ts value) : IsGroup embed depth ts value := by
  refine spells.isGroup top ?_
  have steps : value.step = e.step := by rw [← value.step_bare, same, e.step_bare]
  refine Decidable.byContradiction fun high => changed ?_
  rw [Printed.onStep, if_neg (steps ▸ high)]

end Necessity

/-! ### Reading what was printed -/

lemma Expr.printed_reads (e : Expr) (untemplated : e.isUntemplated)
    (shallow : e.printed.nesting ≤ 255) (tokens : List Token)
    (spelled : tokens.map Token.kind = e.printed.tokens ++ [.endOfFile]) : ∃ value s, Parser.expression
    embedTemplate (parseFuel (Reading.ofTokens tokens).rest) (Reading.ofTokens tokens) = .ok value s ∧
    value.bare = e.bare ∧ s.rest = [] ∧ s.peek.kind = .endOfFile ∧ s.errors = [] := by
  have spells : Spells embedTemplate .expression (e.printed.nesting + 1)
      (e.printed.tokens.map unplaced) e.bare :=
    .expression ((e.printed_spells embedTemplate untemplated).loosen e.step_le (Nat.zero_le _))
  have kinds : (e.printed.tokens.map unplaced).map Token.kind = e.printed.tokens := by
    simp [Function.comp_def]
  have solid : ∀ kind ∈ e.printed.tokens, kind.isSolid = true := fun kind mem =>
    spells.isSolid kind.unplaced (List.mem_map_of_mem mem)
  obtain ⟨ahead, count⟩ := Reading.ofTokens_kinds spelled solid 0
  have reads := spells.reads embedTemplate_isUniform trivial
  rw [kinds] at reads
  have room : (Reading.ofTokens tokens).expressions + (e.printed.nesting + 1) ≤ nestingLimit := by
    change 0 + (e.printed.nesting + 1) ≤ 256
    omega
  obtain ⟨value, s, run, kept, left, bare⟩ := (reads False
    (parseFuel (Reading.ofTokens tokens).rest) (Reading.ofTokens tokens) .endOfFile [] ahead rfl
    (.inl room) (by rw [parseFuel, count]; omega)).found
  have bareAgain : e.bare.bare = e.bare := relocate_relocate {} {} e
  have nothing : s.rest = [] := by
    simpa [Reading.kinds] using congrArg List.length left
  exact ⟨value, s, run, bare.trans bareAgain, nothing, Reading.peek_kind left, kept.errors⟩

/-- A printed expression is read as the expression that was printed, wherever its tokens stand, and
the reader stops at the end of the file. On no step of the ladder could it be written with fewer
parentheses around it. -/
theorem printed_expression_reads_back (e : Expr) (untemplated : e.isUntemplated = true)
    (shallow : e.printed.nesting ≤ 255) (tokens : List Token)
    (spelled : tokens.map Token.kind = e.printed.tokens ++ [.endOfFile]) :
    (∃ value s,
      Parser.expression embedTemplate (parseFuel (Reading.ofTokens tokens).rest)
        (Reading.ofTokens tokens) = .ok value s ∧
      value.bare = e.bare ∧ s.rest = [] ∧ s.peek.kind = .endOfFile ∧ s.errors = []) ∧
    ∀ step ≤ 9, (e.printed.onStep step e).tokens ≠ e.printed.tokens →
      ∀ depth ts value, value.bare = e.bare → Spells embedTemplate (.onStep step) depth ts value →
        IsGroup embedTemplate depth ts value := by
  refine ⟨e.printed_reads untemplated shallow tokens spelled, ?_⟩
  intro _ top changed _ _ _ same inside
  exact inside.isGroup_of_printed top same changed

def tallied : Expr :=
  let name (text : String) : Expr := .identifier text {}
  let link : Expr := .member (.index (.call (name "f") [name "x", .array [.number 1 {}] {}] {})
    (name "i") {}) "size" {}
  .assign "total"
    (.logical .and (.logical .or (name "a") (name "b") {})
      (.binary .eq (.unary .not (name "c") {})
        (.binary .sub link (.binary .sub (name "p") (name "q") {}) {}) {}) {}) {}

def talliedTokens : List Token :=
  (tallied.printed.tokens ++ [endOfFile]).map unplaced

/-- It has two pairs of parentheses besides those of the call, and is read back. -/
theorem tallied_reads_back :
    tallied.isUntemplated = true ∧ tallied.printed.nesting = 2 ∧
      tallied.printed.tokens.length = 30 ∧
      ∃ value s,
        Parser.expression embedTemplate (parseFuel (Reading.ofTokens talliedTokens).rest)
          (Reading.ofTokens talliedTokens) = .ok value s ∧
        value.bare = tallied.bare ∧ s.rest = [] ∧ s.peek.kind = .endOfFile ∧ s.errors = [] :=
  ⟨rfl, rfl, rfl, (printed_expression_reads_back tallied rfl (by decide) talliedTokens
    (by simp [talliedTokens, Function.comp_def])).1⟩

end Stepper
