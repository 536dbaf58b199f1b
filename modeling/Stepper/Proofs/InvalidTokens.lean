import Stepper.Proofs.Acceptance

/-! # Invalid tokens -/

namespace Stepper

open List

mutual

/-- The places at which an expression has a null. The expressions in the placeholders of a string are
read from texts of their own, which are refused as a whole if they hold a token that is none. -/
def Expr.nulls : Expr → List Location
  | .null place => [place]
  | .number _ _ | .string _ _ | .bool _ _ | .identifier _ _ | .interpolated _ _ => []
  | .array items _ => nullsAmong items
  | .assign _ inner _ | .unary _ inner _ | .member inner _ _ => inner.nulls
  | .binary _ left right _ | .logical _ left right _ | .index left right _ => left.nulls ++ right.nulls
  | .call callee args _ => callee.nulls ++ nullsAmong args

def nullsAmong : List Expr → List Location
  | [] => []
  | first :: rest => first.nulls ++ nullsAmong rest

end

def StandFor (ts : List Token) (places : List Location) : Prop :=
  ∀ place ∈ places, ∃ token ∈ ts, token.location = place ∧
    (token.kind = .keyword .NULL ∨ token.kind = .invalid)

section Spelling
lemma StandFor.widen (stand : StandFor ts places) (within : ts ⊆ us) : StandFor us places :=
  fun place mem =>
    have ⟨token, found, rest⟩ := stand place mem
    ⟨token, within found, rest⟩

lemma StandFor.append (front : StandFor ts places) (back : StandFor ts others) :
    StandFor ts (places ++ others) :=
  forall_mem_append.mpr ⟨front, back⟩

lemma Connective.nulls_join (connective : Connective) (left right) :
    (connective.between left right).nulls = left.nulls ++ right.nulls := by
  cases connective <;> rfl

mutual

theorem Spells.nulls {ts : List Token} (spells : Spells embed phrase depth ts e) :
    StandFor ts e.nulls := by
  match spells with
  | .expression inner | .unassigned inner | .operand inner | .unjoined inner | .unsigned inner
  | .unlinked inner => exact inner.nulls
  | .assign _ _ assigned => exact assigned.nulls.widen (by grind)
  | .sign _ operand => exact operand.nulls.widen (by grind)
  | .member inner _ _ => exact inner.nulls.widen (by grind)
  | .join before _ behind =>
    rw [Connective.nulls_join]
    exact (before.nulls.widen (by grind)).append (behind.nulls.widen (by grind))
  | .call target _ given _ => exact (target.nulls.widen (by grind)).append (given.nulls.widen (by grind))
  | .index target _ within _ =>
    exact (target.nulls.widen (by grind)).append (within.nulls.widen (by grind))
  | .interpolated _ _ => exact forall_mem_nil _
  | .group _ inner _ => exact inner.nulls.widen (by grind)
  | .array _ inner _ => exact inner.nulls.widen (by grind)
  | .token stands =>
    unfold TokenKind.operand? at stands
    split at stands <;> cases stands <;> simp_all [Expr.nulls, StandFor]

theorem SpellsAll.nulls {ts : List Token} (spells : SpellsAll embed depth ts items) :
    StandFor ts (nullsAmong items) := by
  match spells with
  | .empty => exact forall_mem_nil _
  | .nonempty inner => exact inner.nulls

theorem SpellsItems.nulls {ts : List Token} (spells : SpellsItems embed depth ts items) :
    StandFor ts (nullsAmong items) := by
  match spells with
  | .last only => simpa [nullsAmong] using only.nulls
  | .more first _ behind => exact (first.nulls.widen (by grind)).append (behind.nulls.widen (by grind))

end

end Spelling

lemma valid_of_no_errors (none : (scan source).errors = []) :
    ∀ token ∈ (scan source).tokens, token.kind ≠ .invalid := by
  intro token mem invalid
  have places := (scanAll_blames commentMarker source).places
  have found : token ∈ (scanAll commentMarker source).tokens.filter fun token => token.kind.isInvalid :=
    mem_filter.mpr ⟨mem_of_mem_filter mem, by rw [invalid]; rfl⟩
  have some : token.location ∈ (scan source).errors.map (·.location) :=
    places ▸ mem_map_of_mem found
  rw [none] at some
  cases some

lemma accepted_valid (read : parseExpressionWith embed source = .ok e) :
    ∀ token ∈ (scan source).tokens, token.kind ≠ .invalid := by
  refine valid_of_no_errors ?_
  unfold parseExpressionWith at read
  dsimp only at read
  split at read
  · cases read
  · next none => simpa using none

end Stepper
