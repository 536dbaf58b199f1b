import Stepper.Proofs.ReadingLaws

/-! # Rounds of the loop over statements -/

namespace Stepper

open TokenKind SyntaxProblem

def Reply.prepend (found : List Stmt) : Reply (List Stmt) → Reply (List Stmt)
  | .ok others t => .ok (found ++ others) t
  | .fail error t => .fail error t
  | .spent t => .spent t

lemma Reply.prepend_nil (reply : Reply (List Stmt)) : reply.prepend [] = reply := by
  cases reply <;> rfl

lemma Reply.prepend_prepend (found others) (reply : Reply (List Stmt)) :
    (reply.prepend others).prepend found = reply.prepend (found ++ others) := by
  cases reply with
  | ok _ t => exact congrArg (ok · t) (List.append_assoc ..).symm
  | fail | spent => rfl

namespace Parser
variable {n : Nat} {s : Reading} {closers : List Keyword} {before : Preceding}

/-- What one round of the loop over statements comes to: the loop ends, or it goes on from a state with
what the next statement follows, and a statement was read unless there was an error, or the bound does
not suffice. -/
inductive Round where
  | done (t : Reading)
  | more (found : Option Stmt) (after : Preceding) (t : Reading)
  | spent (t : Reading)

def Round.reply (rest : Preceding → Parser (List Stmt)) : Round → Reply (List Stmt)
  | .done t => .ok [] t
  | .more found after t => (rest after t).prepend found.toList
  | .spent t => .spent t

lemma bind_prepend (found) (p : Parser (List Stmt)) (s) :
    (p >>= fun others => pure (found ++ others)) s = (p s).prepend found := by
  cases run : p s with
  | ok => exact bind_of_ok run
  | fail => exact bind_of_fail run
  | spent => exact bind_of_spent run

/-- The state at the next place where a statement is likely to start. -/
def resumed (s : Reading) : Reading :=
  let t := s.skipWhile fun kind => !kind.isSeparator && !kind.beginsStatement
  if t.peek.kind.isSeparator then t.advance else t

/-- What a statement's reply makes of a round. After an error the reader goes on at the next statement.
-/
def Round.of (terminators : List Keyword) (before : Preceding) (s : Reading) : Reply Stmt → Round
  | .ok found t =>
    let t :=
      if before.diverged && !before.flagged then
        t.warn (unreachable.warningAt found.location)
      else t
    .more (some found) { diverged := found.diverges, flagged := before.flagged || before.diverged }
      (if t.peek.kind.endsLine || t.peek.kind.isOneOf terminators then t
       else resumed (t.report
        ((expected .endOfStatement t.peek.kind).errorAt t.peek.location)))
  | .fail error t =>
    let t := t.report error
    .more none before (resumed (if t.rest.length = s.rest.length then t.advance else t))
  | .spent t => .spent t

/-- One round of the loop over statements. -/
def round (n : Nat) (terminators : List Keyword) (before : Preceding) (s : Reading) : Round :=
  let s := s.skipWhile isSeparator
  if s.peek.kind.isEnd || s.peek.kind.isOneOf terminators then .done s
  else .of terminators before s (statement n s)

lemma bind_resumed (p : Parser α) (s) : (skipToStatement >>= fun _ => p) s = p (resumed s) := by
  have run : skipToStatement s = .ok () (resumed s) := by
    unfold resumed skipToStatement
    change Parser.bind (accept _) _ _ = _
    unfold Parser.bind accept
    by_cases breaks : (s.skipWhile fun kind =>
      !kind.isSeparator && !kind.beginsStatement).peek.kind.isSeparator = true
    · rw [if_pos breaks, if_pos breaks]
      rfl
    · rw [if_neg breaks, if_neg breaks]
      rfl
  exact bind_of_ok run

lemma statements_succ : statements (n + 1) closers before s = (round n closers before s).reply
    (statements n closers) := by
  rw [statements]
  unfold round
  change (if _ then _ else _ : Parser (List Stmt)) (s.skipWhile isSeparator) = _
  dsimp only
  generalize s.skipWhile isSeparator = s
  split
  · rfl
  change (attempt (statement n) >>= _) s = _
  cases replied : statement n s with
  | ok found t =>
    have run : attempt (statement n) s = .ok (.ok found) t := by rw [attempt, replied]
    rw [bind_of_ok run, Round.of]
    by_cases late : (before.diverged && !before.flagged) = true
    · simp only [late, if_true]
      change (if _ then _ else _ : Parser (List Stmt)) (t.warn _) = _
      split
      · exact bind_prepend [found] _ _
      · exact (bind_resumed _ _).trans (bind_prepend [found] _ _)
    · simp only [late, Bool.false_eq_true, if_false]
      change (if _ then _ else _ : Parser (List Stmt)) t = _
      split
      · exact bind_prepend [found] _ _
      · exact (bind_resumed _ _).trans (bind_prepend [found] _ _)
  | fail error t =>
    have run : attempt (statement n) s = .ok (.error error) t := by rw [attempt, replied]
    rw [bind_of_ok run, Round.of]
    change (if _ then _ else _ : Parser (List Stmt)) (t.report error) = _
    split <;> exact (bind_resumed _ _).trans (Reply.prepend_nil _).symm
  | spent => exact bind_of_spent (by rw [attempt, replied])

lemma onward_resumed (s : Reading) : s.Onward (resumed s) := by
  unfold resumed
  dsimp only
  split
  · exact (Reading.Onward.skipWhile _ s).trans (.advance _)
  · exact .skipWhile _ s

def Round.Turns (s : Reading) (post : List Token → Stmt → Prop) : Round → Prop
  | .done t => s.Onward t
  | .more found _ u => s.Onward u ∧ u.rest.length + 1 ≤ s.rest.length ∧
      (s.statements ≤ nestingLimit → u.IsClean → ∃ statement gap ts, found = some statement ∧
        s.passed u = gap ++ ts ∧ post ts statement)
  | .spent t => s.Onward t

variable {post : Scope → Nat → List Token → Stmt → Prop} (vouches : ∀ {spot : Spot}, Vouches spot 13 n 1
    (statement n) (statement (n + 1)) (post spot.scope spot.room)) (ends : s.Ends)
include vouches ends

lemma round_turns : (round n closers before s).Turns s (post s.spot.scope s.spot.room) := by
  unfold round
  dsimp only
  have skipped := Reading.Onward.skipWhile isSeparator s
  generalize s.skipWhile isSeparator = start at skipped
  split
  · exact skipped
  next going =>
  have answers := (vouches start (skipped.ends ends) skipped.spot).answers
  cases replied : statement n start with
  | ok found t =>
    rw [replied] at answers
    obtain ⟨onward, passed, fits⟩ := answers
    unfold Round.of
    dsimp only
    generalize noted : (if before.diverged && !before.flagged then _ else t) = next
    obtain ⟨further, here⟩ : t.Onward next ∧ next.rest = t.rest := by
      rw [← noted]
      split
      · exact ⟨.warn rfl (Diagnostic.isBelated_of_message .unreachable rfl (by simp)) t, rfl⟩
      · exact ⟨.refl t, rfl⟩
    have whole := skipped.trans (onward.trans further)
    have passes : next.rest.length + 1 ≤ s.rest.length :=
      here ▸ Nat.le_trans passed skipped.rest.length_le
    split
    · refine ⟨whole, passes, fun room clean => ⟨found, s.passed start, start.passed t, rfl, ?_,
        fits (skipped.statements ▸ room) (further.clean clean)⟩⟩
      rw [Reading.passed, here]
      exact Reading.passed_append skipped.rest onward.rest
    · have reported : next.Onward (next.report
          ((expected .endOfStatement next.peek.kind).errorAt next.peek.location)) :=
        blames_next rfl rfl
      have goes := onward_resumed (next.report
        ((expected .endOfStatement next.peek.kind).errorAt next.peek.location))
      exact ⟨whole.trans (reported.trans goes), Nat.le_trans (Nat.add_le_add_right goes.rest.length_le
        1) passes, fun _ clean => absurd (goes.clean clean) (Reading.report_not_clean _ _)⟩
  | fail error t =>
    rw [replied] at answers
    unfold Round.of
    dsimp only
    generalize moved : (if (t.report error).rest.length = start.rest.length then _ else _) = next
    obtain ⟨further, passes⟩ :
        (t.report error).Onward next ∧ next.rest.length + 1 ≤ start.rest.length := by
      rw [← moved]
      split
      · next stuck =>
        have ahead : (t.report error).rest ≠ [] := by
          have more : start.rest ≠ [] := start.ahead (skipped.ends ends) fun final => by
            simp [final, isEnd] at going
          rwa [← List.length_pos_iff, stuck, List.length_pos_iff]
        exact ⟨.advance _, Nat.le_of_eq (((t.report error).advance_length ahead).trans stuck)⟩
      · next moved => exact ⟨.refl _, Nat.lt_of_le_of_ne answers.2.rest.length_le moved⟩
    have goes := further.trans (onward_resumed next)
    have fewer := (onward_resumed next).rest.length_le
    have before := skipped.rest.length_le
    exact ⟨skipped.trans (answers.2.trans goes), by omega,
      fun _ clean => absurd (goes.clean clean) (Reading.report_not_clean _ _)⟩
  | spent =>
    rw [replied] at answers
    exact skipped.trans answers

lemma round_settled (room : 32 * s.rest.length + 13 ≤ n) :
    round (n + 1) closers before s = round n closers before s ∧
      ∀ t, round n closers before s ≠ .spent t := by
  have skipped := Reading.Onward.skipWhile isSeparator s
  have fewer := skipped.rest.length_le
  unfold round
  dsimp only
  obtain ⟨same, unspent⟩ := (vouches _ (skipped.ends ends) rfl).settled (by omega)
  rw [same]
  refine ⟨rfl, fun t spent => ?_⟩
  split at spent
  · cases spent
  · cases replied : statement n (s.skipWhile isSeparator) with rw [replied] at unspent spent
    | ok | fail => cases spent
    | spent => cases unspent

end Parser

end Stepper
