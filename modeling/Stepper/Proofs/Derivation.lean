import Stepper.Proofs.ReadingLaws

/-! # Every reading is a spelling -/

namespace Stepper

/-- In every state of reading, the tokens that were consumed for an expression spell it: they are the
next ones, none is left out, and nothing of the expression comes from anywhere else. -/
theorem read_expression_is_spelled (n : Nat) (s t : Reading) (e : Expr)
    (ends : s.ending.kind = .endOfFile) (read : Parser.expression embedTemplate n s = .ok e t) :
    ∃ ts, s.rest = ts ++ t.rest ∧
      Spells embedTemplate .expression (nestingLimit - s.expressions) ts e := by
  obtain ⟨ts, passes, spells⟩ := Parser.expression_spells embed_blames (Reading.Ends.stops ends) read
  exact ⟨ts, passes.tokens, spells⟩

def bracketed : Reading :=
  let kinds : List TokenKind :=
    [.punct .openParen, .identifier "x", .punct .closeParen, .operator .assign, .identifier "a",
      .operator .minus, .identifier "b", .operator .minus, .interpolated "n", .punct .closeBracket]
  .ofTokens (kinds.map fun kind => ⟨kind, "", {}⟩)

/-- All but the bracket is read, as an assignment of differences from the left. -/
theorem bracketed_is_spelled :
    ∃ e t ts, Parser.expression embedTemplate 60 bracketed = .ok e t ∧
      e = .assign "x" (.binary .sub (.binary .sub (.identifier "a" {}) (.identifier "b" {}) {})
        (.interpolated [.literal "n"] {}) {}) {} ∧
      t.rest.map Token.kind = [.punct .closeBracket] ∧ bracketed.rest = ts ++ t.rest ∧
      Spells embedTemplate .expression 256 ts e := by
  obtain ⟨e, t, read, tree, left⟩ : ∃ e t, Parser.expression embedTemplate 60 bracketed = .ok e t ∧
      e = .assign "x" (.binary .sub (.binary .sub (.identifier "a" {}) (.identifier "b" {}) {})
        (.interpolated [.literal "n"] {}) {}) {} ∧
      t.rest.map Token.kind = [.punct .closeBracket] := ⟨_, _, rfl, rfl, rfl⟩
  obtain ⟨ts, consumed, spells⟩ := read_expression_is_spelled 60 bracketed t e rfl read
  exact ⟨e, t, ts, read, tree, left, consumed, spells⟩

end Stepper
