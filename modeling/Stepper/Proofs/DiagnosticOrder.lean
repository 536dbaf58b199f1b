import Stepper.Proofs.Acceptance

/-! # Diagnostics in order -/

namespace Stepper

open List

lemma InOrder.listed (inOrder : InOrder upTo found) :
    (found.reverse.filter fun d => !d.isBelated).Pairwise (·.location.start ≤ ·.location.start) := by
  rw [filter_reverse, pairwise_reverse]
  exact pairwise_map.mp (pairwise_cons.mp inOrder).2

/-- The diagnostics of every source are its lexical errors, then its syntax errors, then its warnings,
each in the order of the text apart from the belated ones. -/
theorem diagnostics_in_order (source : String) :
    let stream := scan source
    let parsed := parse stream.tokens
    (analyze source).diagnostics = stream.errors ++ parsed.errors ++ parsed.warnings ∧
      (∀ d ∈ stream.errors, d.isError = true ∧ d.kind = .lexical) ∧
      (∀ d ∈ parsed.errors, d.isError = true) ∧ (∀ d ∈ parsed.warnings, d.isError = false) ∧
      stream.errors.Pairwise (·.location.start ≤ ·.location.start) ∧
      (parsed.errors.filter fun d => !d.isBelated).Pairwise (·.location.start ≤ ·.location.start) ∧
      (parsed.warnings.filter fun d => !d.isBelated).Pairwise
        (·.location.start ≤ ·.location.start) := by
  intro stream _
  obtain ⟨lexical, sorted⟩ := scan_errors source
  obtain ⟨_, onward, errors, warnings⟩ := parse_onward stream.tokens 0
  have start : (Reading.ofTokens stream.tokens).Ordered :=
    ⟨(ofTokens_inSource source 0).starts, List.pairwise_singleton _ _, List.pairwise_singleton _ _⟩
  obtain ⟨-, errorsInOrder, warningsInOrder⟩ := onward.ordered start
  refine ⟨rfl, lexical, parse_errors _ _, ?_, sorted, ?_, ?_⟩
  · rw [warnings]
    exact fun d found => onward.warnings (List.forall_mem_nil _) d (List.mem_reverse.mp found)
  · rw [errors]
    exact errorsInOrder.listed
  · rw [warnings]
    exact warningsInOrder.listed

def unclosedBlock : String := "IF a:\nLET\n"

/-- The missing `END` is reported after the missing name, though the block starts before it. -/
theorem unclosed_block_is_reported_late :
    (analyze unclosedBlock).diagnostics.map (fun d => (d.message, d.location.start)) =
      [("Expected variable name after LET, found newline", 9), ("Expected END to close block", 0)] := by
  decide +kernel

end Stepper
