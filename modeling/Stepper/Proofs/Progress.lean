import Stepper.Proofs.Acceptance

/-! # Reading makes progress -/

namespace Stepper

open Stepper.Parser

namespace Reading

/-- Whether one state can come after another: it has fewer tokens left, or as many, and the same end of
the file. -/
def Reaches (s t : Reading) : Prop := t.rest <:+ s.rest ∧ t.ending = s.ending

lemma Onward.reaches {s t : Reading} (onward : s.Onward t) : s.Reaches t :=
  ⟨onward.rest, onward.ending⟩

end Reading

/-- The state in which a reader leaves the tokens, whatever its reply. -/
def Reply.state {α : Type} : Reply α → Reading
  | .ok _ t | .fail _ t | .spent t => t

namespace Parser
variable {α : Type}

/-- Whether a parser, under every bound, stays before the end of the file and passes so many tokens at
least if it replies a value, and under every bound that allows for the tokens left replies the same and
never that its bound is spent. -/
structure Progresses (p : Nat → Parser α) (d : Nat) (s : Reading) : Prop where
  stays : ∀ n, s.Reaches (p n s).state
  passes : ∀ n value t, p n s = .ok value t → t.rest.length + d ≤ s.rest.length
  settles : ∀ n, parseFuel s.rest ≤ n → p n s = p (parseFuel s.rest) s ∧ (p n s).isSpent = false

lemma Progresses.of_vouches (vouches : ∀ n, Vouches s.spot c n d (p n) (p (n + 1)) post)
    (ends : s.Ends) (fits : c ≤ 64) :
    Progresses p d s := by
  refine ⟨fun n => ?_, fun n value t run => ?_, fun n enough => ?_⟩
  · have answers := (vouches n s ends rfl).answers
    cases run : p n s with
    | ok value t | fail error t =>
      rw [run] at answers
      exact answers.1.reaches
    | spent =>
      rw [run] at answers
      exact answers.reaches
  · have answers := (vouches n s ends rfl).answers
    rw [run] at answers
    exact answers.2.1
  · have room : 32 * s.rest.length + c ≤ parseFuel s.rest := by
      unfold parseFuel
      omega
    induction n, enough using Nat.le_induction with
    | base => exact ⟨rfl, ((vouches _ s ends rfl).settled room).2⟩
    | succ n enough ih =>
      obtain ⟨same, unspent⟩ := (vouches n s ends rfl).settled (room.trans enough)
      rw [same]
      exact ih

end Parser

end Stepper
