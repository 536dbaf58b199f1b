import Stepper.Proofs.ReadingLaws

/-! # How deep expressions nest -/

namespace Stepper

open List

mutual

/-- How deep an expression nests: on a path to a leaf every operand, argument, index and element counts
`operand`, and every assigned value counts `assigned`. -/
def Expr.nesting (operand assigned : Nat) : Expr → Nat
  | .number _ _ | .string _ _ | .bool _ _ | .null _ | .identifier _ _ | .interpolated _ _ => 0
  | .array items _ => itemsNesting operand assigned items
  | .assign _ value _ => value.nesting operand assigned + assigned
  | .binary _ left right _ | .logical _ left right _ =>
    max (left.nesting operand assigned) (right.nesting operand assigned)
  | .unary _ inner _ => inner.nesting operand assigned + operand
  | .call callee args _ => max (callee.nesting operand assigned) (itemsNesting operand assigned args)
  | .index target index _ =>
    max (target.nesting operand assigned) (index.nesting operand assigned + operand)
  | .member target _ _ => target.nesting operand assigned

def itemsNesting (operand assigned : Nat) : List Expr → Nat
  | [] => 0
  | first :: rest =>
    max (first.nesting operand assigned + operand) (itemsNesting operand assigned rest)

end

mutual

/-- The expressions in the placeholders of an expression's strings. -/
def Expr.embedded : Expr → List Expr
  | .number _ _ | .string _ _ | .bool _ _ | .null _ | .identifier _ _ => []
  | .interpolated parts _ => embeddedParts parts
  | .array items _ => embeddedItems items
  | .assign _ value _ => value.embedded
  | .binary _ left right _ | .logical _ left right _ => left.embedded ++ right.embedded
  | .unary _ operand _ => operand.embedded
  | .call callee args _ => callee.embedded ++ embeddedItems args
  | .index target index _ => target.embedded ++ index.embedded
  | .member target _ _ => target.embedded

def embeddedItems : List Expr → List Expr
  | [] => []
  | first :: rest => first.embedded ++ embeddedItems rest

def StringPart.embedded : StringPart → List Expr
  | .literal _ => []
  | .placeholder value => value :: value.embedded

def embeddedParts : List StringPart → List Expr
  | [] => []
  | first :: rest => first.embedded ++ embeddedParts rest

end

def Expr.IsShallow (e : Expr) : Prop := ∀ root ∈ e :: e.embedded, root.nesting 1 0 < nestingLimit

/-! ### Sums and places -/

mutual

theorem Expr.nesting_add (a b c d) (e : Expr) :
    e.nesting (a + c) (b + d) ≤ e.nesting a b + e.nesting c d := by
  cases e with
  | number _ _ | string _ _ | bool _ _ | null _ | identifier _ _ | interpolated _ _ =>
    exact Nat.zero_le _
  | array items => exact itemsNesting_add a b c d items
  | assign _ value =>
    have inner := value.nesting_add a b c d
    simp only [Expr.nesting]
    omega
  | binary _ left right _ | logical _ left right _ =>
    have before := left.nesting_add a b c d
    have behind := right.nesting_add a b c d
    simp only [Expr.nesting]
    omega
  | unary _ operand =>
    have inner := operand.nesting_add a b c d
    simp only [Expr.nesting]
    omega
  | call callee args =>
    have called := callee.nesting_add a b c d
    have given := itemsNesting_add a b c d args
    simp only [Expr.nesting]
    omega
  | index target index =>
    have before := target.nesting_add a b c d
    have within := index.nesting_add a b c d
    simp only [Expr.nesting]
    omega
  | member target => exact target.nesting_add a b c d

theorem itemsNesting_add (a b c d) (items : List Expr) :
    itemsNesting (a + c) (b + d) items ≤ itemsNesting a b items + itemsNesting c d items := by
  cases items with
  | nil => exact Nat.zero_le _
  | cons first rest =>
    have here := first.nesting_add a b c d
    have others := itemsNesting_add a b c d rest
    simp only [itemsNesting]
    omega

end

mutual

theorem Expr.nesting_relocate (place) (a b) (e : Expr) :
    (e.relocate place).nesting a b = e.nesting a b := by
  cases e with
  | number _ _ | string _ _ | bool _ _ | null _ | identifier _ _ | interpolated _ _ => rfl
  | array items => exact itemsNesting_relocate place a b items
  | assign _ value => simp only [Expr.relocate, Expr.nesting, value.nesting_relocate place]
  | binary _ left right _ | logical _ left right _ =>
    simp only [Expr.relocate, Expr.nesting, left.nesting_relocate place, right.nesting_relocate place]
  | unary _ operand => simp only [Expr.relocate, Expr.nesting, operand.nesting_relocate place]
  | call callee =>
    simp only [Expr.relocate, Expr.nesting, callee.nesting_relocate place, itemsNesting_relocate place]
  | index target index =>
    simp only [Expr.relocate, Expr.nesting, target.nesting_relocate place, index.nesting_relocate place]
  | member target => simp only [Expr.relocate, Expr.nesting, target.nesting_relocate place]

theorem itemsNesting_relocate (place) (a b) (items : List Expr) :
    itemsNesting a b (relocateAll place items) = itemsNesting a b items := by
  cases items with
  | nil => rfl
  | cons first rest =>
    simp only [relocateAll, itemsNesting, first.nesting_relocate place,
      itemsNesting_relocate place a b rest]

end

mutual

theorem Expr.embedded_relocate (place) (e : Expr) :
    (e.relocate place).embedded = e.embedded.map (Expr.relocate place) := by
  cases e with
  | number _ _ | string _ _ | bool _ _ | null _ | identifier _ _ => rfl
  | interpolated parts => exact embeddedParts_relocate place parts
  | array items => exact embeddedItems_relocate place items
  | assign _ value => simp only [Expr.relocate, Expr.embedded, value.embedded_relocate place]
  | binary _ left right _ | logical _ left right _ =>
    simp only [Expr.relocate, Expr.embedded, left.embedded_relocate place,
      right.embedded_relocate place, map_append]
  | unary _ operand => simp only [Expr.relocate, Expr.embedded, operand.embedded_relocate place]
  | call callee =>
    simp only [Expr.relocate, Expr.embedded, callee.embedded_relocate place,
      embeddedItems_relocate place, map_append]
  | index target index =>
    simp only [Expr.relocate, Expr.embedded, target.embedded_relocate place,
      index.embedded_relocate place, map_append]
  | member target => simp only [Expr.relocate, Expr.embedded, target.embedded_relocate place]

theorem embeddedItems_relocate (place) (items : List Expr) :
    embeddedItems (relocateAll place items) = (embeddedItems items).map (Expr.relocate place) := by
  cases items with
  | nil => rfl
  | cons first rest =>
    simp only [relocateAll, embeddedItems, first.embedded_relocate place,
      embeddedItems_relocate place rest, map_append]

theorem embeddedParts_relocate (place) (parts : List StringPart) :
    embeddedParts (relocateParts place parts) = (embeddedParts parts).map (Expr.relocate place) := by
  match parts with
  | [] => rfl
  | .literal _ :: rest => exact embeddedParts_relocate place rest
  | .placeholder value :: rest =>
    simp only [relocateParts, StringPart.relocate, embeddedParts, StringPart.embedded,
      value.embedded_relocate place, embeddedParts_relocate place rest, map_append, map_cons]

end

lemma Expr.IsShallow.relocate {e : Expr} (shallow : e.IsShallow) (place) :
    (e.relocate place).IsShallow := by
  rw [Expr.IsShallow, Expr.embedded_relocate, ← map_cons, forall_mem_map]
  intro root mem
  rw [Expr.nesting_relocate]
  exact shallow root mem

/-! ### What is spelled -/

lemma Connective.nesting_join (connective : Connective) (a b) (left right) :
    (connective.between left right).nesting a b = max (left.nesting a b) (right.nesting a b) := by
  cases connective <;> rfl

lemma Connective.embedded_join (connective : Connective) (left right) :
    (connective.between left right).embedded = left.embedded ++ right.embedded := by
  cases connective <;> rfl

def Phrase.opened : Phrase → Nat
  | .expression => 1
  | _ => 0

def Embedding.IsShallow (embed : Embedding) : Prop :=
  ∀ place body parts, embed place body = .ok parts →
    ∀ root ∈ embeddedParts parts, root.nesting 1 0 < nestingLimit

mutual

theorem Spells.nesting_le (shallow : embed.IsShallow) {e : Expr}
    (spells : Spells embed phrase depth ts e) :
    e.nesting 1 0 + phrase.opened ≤ depth ∧ ∀ root ∈ e.embedded, root.nesting 1 0 < nestingLimit := by
  match spells with
  | .expression inner =>
    obtain ⟨fits, roots⟩ := inner.nesting_le shallow
    exact ⟨Nat.succ_le_succ fits, roots⟩
  | .unassigned inner | .operand inner | .unjoined inner | .unsigned inner | .unlinked inner
  | .member inner _ _ => exact inner.nesting_le shallow
  | .assign _ _ assigned => exact assigned.nesting_le shallow
  | .join before _ behind =>
    obtain ⟨left, leftRoots⟩ := before.nesting_le shallow
    obtain ⟨right, rightRoots⟩ := behind.nesting_le shallow
    rw [Connective.nesting_join, Connective.embedded_join]
    exact ⟨Nat.max_le.mpr ⟨left, right⟩, forall_mem_append.mpr ⟨leftRoots, rightRoots⟩⟩
  | .sign _ operand =>
    obtain ⟨fits, roots⟩ := operand.nesting_le shallow
    exact ⟨Nat.succ_le_succ fits, roots⟩
  | .call target _ given _ =>
    obtain ⟨called, calleeRoots⟩ := target.nesting_le shallow
    obtain ⟨args, argRoots⟩ := given.nesting_le shallow
    exact ⟨Nat.max_le.mpr ⟨called, args⟩, forall_mem_append.mpr ⟨calleeRoots, argRoots⟩⟩
  | .index target _ within _ =>
    obtain ⟨before, targetRoots⟩ := target.nesting_le shallow
    obtain ⟨inside, indexRoots⟩ := within.nesting_le shallow
    exact ⟨Nat.max_le.mpr ⟨before, inside⟩, forall_mem_append.mpr ⟨targetRoots, indexRoots⟩⟩
  | .token stands =>
    unfold TokenKind.operand? at stands
    split at stands <;> cases stands <;> exact ⟨Nat.zero_le _, forall_mem_nil _⟩
  | .interpolated _ splits => exact ⟨Nat.zero_le _, shallow _ _ _ splits⟩
  | .group _ inner _ =>
    obtain ⟨fits, roots⟩ := inner.nesting_le shallow
    exact ⟨Nat.le_of_succ_le fits, roots⟩
  | .array _ inner _ => exact inner.nesting_le shallow

theorem SpellsAll.nesting_le (shallow : embed.IsShallow) (spells : SpellsAll embed depth ts items) :
    itemsNesting 1 0 items ≤ depth ∧ ∀ root ∈ embeddedItems items, root.nesting 1 0 < nestingLimit := by
  match spells with
  | .empty => exact ⟨Nat.zero_le _, forall_mem_nil _⟩
  | .nonempty inner => exact inner.nesting_le shallow

theorem SpellsItems.nesting_le (shallow : embed.IsShallow) (spells : SpellsItems embed depth ts items) :
    itemsNesting 1 0 items ≤ depth ∧ ∀ root ∈ embeddedItems items, root.nesting 1 0 < nestingLimit := by
  match spells with
  | .last only =>
    obtain ⟨fits, roots⟩ := only.nesting_le shallow
    exact ⟨Nat.max_le.mpr ⟨fits, Nat.zero_le _⟩, by simpa [embeddedItems] using roots⟩
  | .more first _ behind =>
    obtain ⟨fits, roots⟩ := first.nesting_le shallow
    obtain ⟨others, otherRoots⟩ := behind.nesting_le shallow
    exact ⟨Nat.max_le.mpr ⟨fits, others⟩, forall_mem_append.mpr ⟨roots, otherRoots⟩⟩

end

lemma Spells.isShallow (shallow : embed.IsShallow) (spells : Spells embed .expression depth ts e)
    (within : depth ≤ nestingLimit) : e.IsShallow := by
  obtain ⟨fits, roots⟩ := spells.nesting_le shallow
  exact forall_mem_cons.mpr ⟨Nat.lt_of_succ_le (Nat.le_trans fits within), roots⟩

/-! ### Templates -/

lemma parseExpressionWith_spells (blames : Parser.BlamesErrors embed)
    (read : parseExpressionWith embed source = .ok value) :
    ∃ ts ⊆ (scan source).tokens, Spells embed .expression nestingLimit ts value := by
  unfold parseExpressionWith at read
  dsimp only at read
  split at read
  · cases read
  · split at read
    · next _ _ run =>
      cases read
      obtain ⟨_, _, skipped, run⟩ := Parser.ok_of_bind run
      obtain ⟨_, skips⟩ := Reading.passes_skip TokenKind.isSeparator
        (Reading.ofTokens (scan source).tokens)
      cases skipped
      have stops := skips.stops (Reading.ofTokens_ends (scan source).tokens 0).stops
      obtain ⟨_, _, run, rest⟩ := Parser.ok_of_bind run
      obtain ⟨ts, passes, spells⟩ := Parser.expression_spells blames stops run
      rw [skips.expressions] at spells
      have known : ts ⊆ (Reading.ofTokens (scan source).tokens).rest := by
        rw [skips.tokens, passes.tokens]
        exact fun _ mem => mem_append_right _ (mem_append_left _ mem)
      obtain ⟨_, _, -, rest⟩ := Parser.ok_of_bind rest
      obtain ⟨_, _, -, rest⟩ := Parser.ok_of_bind rest
      split at rest <;> cases rest
      exact ⟨ts, List.Subset.trans known ((takeWhile_sublist _).trans filter_sublist).subset, spells⟩
    all_goals cases read

lemma partsOfPieces_isShallow {read : List Char → Except Diagnostic Expr} {place : Location}
    (shallow : ∀ text value, read text = .ok value → value.IsShallow)
    (found : partsOfPieces read place pieces = .ok parts) :
    ∀ root ∈ embeddedParts parts, root.nesting 1 0 < nestingLimit := by
  induction pieces generalizing parts with
  | nil =>
    cases found
    exact forall_mem_nil _
  | cons _ _ ih =>
    obtain ⟨_, _, rfl, behind, kind⟩ := partsOfPieces_cons found
    refine forall_mem_append.mpr ⟨?_, ih behind⟩
    obtain ⟨text, rfl, rfl⟩ | ⟨text, value, rfl, first, rfl⟩ := kind
    · exact forall_mem_nil _
    · exact shallow text value first

lemma templateParts_isShallow (blames : Parser.BlamesErrors below) (shallow : below.IsShallow) (depth) :
    (templateParts below depth).IsShallow := by
  induction depth with
  | zero => exact shallow
  | succ depth ih =>
    intro place _ _ found
    rw [templateParts] at found
    refine partsOfPieces_isShallow (fun _ _ read => ?_) found
    unfold parsePlaceholder at read
    split at read
    · cases read
    · split at read
      · next _ run =>
        cases read
        obtain ⟨_, -, spells⟩ := parseExpressionWith_spells (templateParts_blames blames depth) run
        exact (spells.isShallow ih (Nat.le_refl _)).relocate place
      · cases read

lemma embedTemplate_isShallow : embedTemplate.IsShallow := by
  intro place body parts found
  refine templateParts_isShallow (by rintro _ _ _ ⟨⟩) ?_ (body.length + 1) place body parts found
  rintro _ _ _ ⟨⟩
  exact forall_mem_nil _

end Stepper
