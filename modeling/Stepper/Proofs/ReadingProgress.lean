import Mathlib.Data.List.TakeWhile
import Stepper.Proofs.Placeholders

/-! # Reading makes progress -/

namespace Stepper

open Stepper.Parser

namespace Reading

lemma ofTokens_rest (tokens) (unit) :
    (∀ token ∈ (ofTokens tokens unit).rest, token.kind.isEnd = false) ∧
    ((ofTokens tokens unit).rest = tokens.filter (fun token => !token.kind.isTrivia) ∨
      (ofTokens tokens unit).rest ++ [(ofTokens tokens unit).ending] <+:
        tokens.filter fun token => !token.kind.isTrivia) := by
  unfold ofTokens
  dsimp only
  generalize (tokens.filter fun token => !token.kind.isTrivia) = solid
  refine ⟨fun token mem => by simpa using List.mem_takeWhile_imp mem, ?_⟩
  cases found : solid.find? fun token => token.kind.isEnd with
  | none =>
    refine .inl (List.takeWhile_eq_self_iff.mpr fun token mem => ?_)
    simpa using List.find?_eq_none.mp found token mem
  | some =>
    obtain ⟨ends, _, behind, rfl, before⟩ := List.find?_eq_some_iff_append.mp found
    refine .inr ⟨behind, ?_⟩
    rw [List.takeWhile_append_of_pos (by simpa using before)]
    simp [ends]

lemma Reaches.access {s t : Reading} (reaches : s.Reaches t) : ∃ position, position + t.rest.length =
    s.rest.length ∧ (s.rest ++ [s.ending])[position]? = some t.peek ∧
    (s.rest ++ [s.ending])[min (position + 1) s.rest.length]? = some t.peekSecond := by
  obtain ⟨⟨ts, split⟩, ending⟩ := reaches
  refine ⟨ts.length, by rw [← split, List.length_append], ?_⟩
  rw [← split, ← ending]
  cases rest : t.rest with
  | nil => simp [peek, peekSecond, rest]
  | cons _ others => cases others <;> simp [peek, peekSecond, rest]

end Reading

/-- Reading a token list makes progress. Whatever the list holds, the reader stays before the end of the
file and looks only at tokens that are there; an expression or a statement that is read passes a token, and
so does each round of the loop over statements that goes on. The bounds that make the reader total are
never what it answers: with the bound that `parse` gives, no reader replies that it is spent, and a
template's parts do not depend on what would be read below the depth its text allows. -/
theorem reading_makes_progress (tokens : List Token) (unit : Nat) :
    let start := Reading.ofTokens tokens unit
    BlamesErrors embedTemplate ∧
    (∀ below depth, BlamesErrors below → BlamesErrors (templateParts below depth)) ∧
    (∀ below location body,
      templateParts below (body.length + 1) location body = embedTemplate location body) ∧
    (start.ending.kind = .endOfFile ∧ (∀ token ∈ start.rest, token.kind.isEnd = false) ∧
      (start.rest = tokens.filter (fun token => !token.kind.isTrivia) ∨
        start.rest ++ [start.ending] <+: tokens.filter fun token => !token.kind.isTrivia)) ∧
    ∀ s : Reading, start.Reaches s →
      (∃ position, position + s.rest.length = start.rest.length ∧
        (start.rest ++ [start.ending])[position]? = some s.peek ∧
        (start.rest ++ [start.ending])[min (position + 1) start.rest.length]? = some s.peekSecond) ∧
      (∀ embed, BlamesErrors embed → Parser.Progresses (expression embed) 1 s) ∧
      Parser.Progresses statement 1 s ∧
      ∀ terminators before,
        Parser.Progresses (statements · terminators before) 0 s ∧
        ∀ n, statements (n + 1) terminators before s =
            (round n terminators before s).reply (statements n terminators) ∧
          ∀ found after u, round n terminators before s = .more found after u →
            s.Reaches u ∧ u.rest.length < s.rest.length := by
  intro start
  have final : start.Ends := Reading.ofTokens_ends tokens unit
  refine ⟨embed_blames, fun _ depth blames => templateParts_blames blames depth,
    fun _ _ _ => templateParts_eq (Nat.lt_succ_self _) (Nat.lt_succ_self _),
    ⟨final, Reading.ofTokens_rest tokens unit⟩, fun s reaches => ?_⟩
  have ends : s.Ends := (congrArg Token.kind reaches.2).trans final
  refine ⟨reaches.access,
    fun _ blames => .of_vouches (fun n => proceeds_expressionWith blames n) ends (by omega),
    .of_vouches (fun n => vouches_statement n) ends (by omega), fun terminators before => ?_⟩
  refine ⟨.of_vouches (vouches_statements · terminators before) ends (by omega), fun n => ?_⟩
  refine ⟨statements_succ, fun found after u more => ?_⟩
  have turns : (round n terminators before s).Turns s _ :=
    round_turns (vouches_statement n) ends
  rw [more] at turns
  exact ⟨turns.1.reaches, turns.2.1⟩

end Stepper
