import Mathlib.Tactic.Lemma
import Stepper.Syntax.Parser

/-! # What a parser reads -/

namespace Stepper

open List Reading

namespace Reading

/-- The tokens ahead, with the end of the text. -/
def kinds (s : Reading) : List TokenKind := s.rest.map Token.kind ++ [s.ending.kind]

/-- Whether a reader has changed nothing but its place: no error was found and every depth is what it
was. -/
structure Kept (s t : Reading) : Prop where
  errors : t.errors = s.errors
  loops : t.loops = s.loops
  functions : t.functions = s.functions
  expressions : t.expressions = s.expressions
  statements : t.statements = s.statements

lemma Kept.refl (s : Reading) : s.Kept s := ⟨rfl, rfl, rfl, rfl, rfl⟩

lemma Kept.trans {s t u : Reading} (first : s.Kept t) (second : t.Kept u) : s.Kept u where
  errors := second.errors.trans first.errors
  loops := second.loops.trans first.loops
  functions := second.functions.trans first.functions
  expressions := second.expressions.trans first.expressions
  statements := second.statements.trans first.statements

variable {s : Reading} {kind : TokenKind} {tail : List TokenKind}

lemma peek_kind (ahead : s.kinds = kind :: tail) : s.peek.kind = kind := by
  cases left : s.rest <;> simp_all [kinds, peek]

lemma peekSecond_kind (ahead : s.kinds = kind :: second :: tail) : s.peekSecond.kind = second := by
  obtain ⟨rest, _⟩ := s
  match rest with
  | [] => simp [kinds] at ahead
  | [_] => simp_all [kinds, peekSecond]
  | _ :: _ :: _ => simp_all [kinds, peekSecond]

lemma advance_kinds (ahead : s.kinds = kind :: tail) (more : tail ≠ []) : s.advance.kinds = tail := by
  cases left : s.rest <;> simp_all [kinds, advance]

lemma advance_kept (s : Reading) : s.Kept s.advance := by
  unfold advance
  split <;> exact ⟨rfl, rfl, rfl, rfl, rfl⟩

lemma skipWhile_kinds (ahead : s.kinds = skipped ++ kind :: tail)
    (passed : ∀ other ∈ skipped, test other = true) (stops : test kind = false) :
    (s.skipWhile test).kinds = kind :: tail := by
  obtain ⟨rest, _, last⟩ := s
  simp only [kinds, skipWhile] at ahead ⊢
  induction rest generalizing skipped last with
  | nil =>
    cases skipped with
    | nil => simpa [dropTokens] using ahead
    | cons => simp at ahead
  | cons token _ ih =>
    cases skipped with
    | nil =>
      have first : token.kind = kind := by simp_all
      simpa [dropTokens, first, stops] using ahead
    | cons =>
      have here : test token.kind = true := by simp_all
      have behind := ih (fun other mem => passed other (mem_cons_of_mem _ mem))
        token.location (cons.inj ahead).2
      simpa [dropTokens, here] using behind

lemma skipWhile_kept (test) (s : Reading) : s.Kept (s.skipWhile test) :=
  ⟨rfl, rfl, rfl, rfl, rfl⟩

end Reading

/-- Whether the parser sees a token that is not the end of the text. -/
def TokenKind.isSolid (kind : TokenKind) : Bool := !kind.isTrivia && !kind.isEnd

namespace Reading

lemma ofTokens_kinds (spelled : tokens.map Token.kind = solid ++ [.endOfFile])
    (allSolid : ∀ kind ∈ solid, kind.isSolid = true) (unit) : (ofTokens tokens unit).kinds = solid ++
    [.endOfFile] ∧ (ofTokens tokens unit).rest.length = solid.length := by
  obtain ⟨body, _, rfl, rfl, last⟩ := map_eq_append_iff.mp spelled
  obtain ⟨final, rfl, ends⟩ := map_eq_singleton_iff.mp last
  have bodySolid : ∀ token ∈ body, token.kind.isTrivia = false ∧ token.kind.isEnd = false := by
    intro token mem
    simpa [TokenKind.isSolid] using allSolid token.kind (mem_map_of_mem mem)
  have kept : (body ++ [final]).filter (fun token => !token.kind.isTrivia) = body ++ [final] := by
    refine filter_eq_self.mpr fun token mem => ?_
    rcases mem_append.mp mem with inside | here
    · simp [(bodySolid token inside).1]
    · simp [mem_singleton.mp here, ends, TokenKind.isTrivia]
  have taken : (body ++ [final]).takeWhile (fun token => !token.kind.isEnd) = body := by
    rw [takeWhile_append_of_pos fun token mem => by simp [(bodySolid token mem).2]]
    simp [ends, TokenKind.isEnd]
  have found : (body ++ [final]).find? (fun token => token.kind.isEnd) = some final := by
    rw [find?_append, find?_eq_none.mpr fun token mem => by
      simp [(bodySolid token mem).2]]
    simp [ends, TokenKind.isEnd]
  simp [ofTokens, kinds, kept, taken, found, ends]

end Reading

namespace Parser
variable {α β : Type} {s : Reading} {kind : TokenKind} {tail rest : List TokenKind}

/-- Whether a parser ends because expressions nest too deep. -/
def Refuses (p : Parser α) (s : Reading) : Prop :=
  ∃ place t, p s = .fail (SyntaxProblem.expressionTooDeep.errorAt place) t

/-- Whether a parser comes down to `goal value` in front of these tokens, for a value of this sort, with
no error collected and every count as it was. -/
def LeadsUnless (deep : Prop) (p : Parser α) (s : Reading) (rest : List TokenKind)
    (goal : β → Parser α) (wanted : β → Prop) : Prop :=
  (∃ value t, p s = goal value t ∧ s.Kept t ∧ t.kinds = rest ∧ wanted value) ∨ (deep ∧ Refuses p s)

abbrev YieldsUnless (deep : Prop) (p : Parser α) (s : Reading) (rest : List TokenKind)
    (wanted : α → Prop) : Prop :=
  LeadsUnless deep p s rest Parser.pure wanted

/-- Whether a reader comes down to another one, applied to a value that is as wanted. -/
abbrev Leads (p : Parser α) (s : Reading) (rest : List TokenKind) (goal : β → Parser α)
    (wanted : β → Prop) : Prop :=
  LeadsUnless False p s rest goal wanted

/-- Whether a reader gives a value that is as wanted and leaves the tokens given. -/
abbrev Yields (p : Parser α) (s : Reading) (rest : List TokenKind) (wanted : α → Prop) : Prop :=
  Leads p s rest Parser.pure wanted

variable {deep : Prop} {goal : β → Parser α} {wanted : β → Prop}

lemma LeadsUnless.found (leads : Leads p s rest goal wanted) :
    ∃ value t, p s = goal value t ∧ s.Kept t ∧ t.kinds = rest ∧ wanted value :=
  leads.resolve_right fun refused => refused.1

lemma LeadsUnless.here {value : β} (ahead : s.kinds = rest) (fine : wanted value) :
    LeadsUnless deep (goal value) s rest goal wanted :=
  .inl ⟨value, s, rfl, .refl s, ahead, fine⟩

lemma LeadsUnless.pure {wanted : α → Prop} (ahead : s.kinds = rest) (fine : wanted value) :
    YieldsUnless deep (Pure.pure value) s rest wanted :=
  here ahead fine

lemma LeadsUnless.mono {sharper : β → Prop} (leads : LeadsUnless deep p s rest goal sharper)
    (weaken : ∀ value, sharper value → wanted value) : LeadsUnless deep p s rest goal wanted :=
  leads.imp_left fun ⟨value, t, run, kept, ahead, fine⟩ =>
    ⟨value, t, run, kept, ahead, weaken value fine⟩

lemma LeadsUnless.of_eq (leads : LeadsUnless deep q t rest goal wanted) (same : p s = q t)
    (kept : s.Kept t) : LeadsUnless deep p s rest goal wanted := by
  obtain ⟨value, u, run, later, ahead, fine⟩ | ⟨deep, place, u, run⟩ := leads
  · exact .inl ⟨value, u, same.trans run, kept.trans later, ahead, fine⟩
  · exact .inr ⟨deep, place, u, same.trans run⟩

lemma LeadsUnless.continue {γ : Type} {next : γ → Parser α} {between : γ → Prop} {mid : List TokenKind}
    (leads : LeadsUnless deep p s mid next between) (onward : ∀ value t, s.Kept t → t.kinds = mid →
      between value → LeadsUnless deep (next value) t rest goal wanted) :
    LeadsUnless deep p s rest goal wanted := by
  obtain ⟨value, t, run, kept, ahead, fine⟩ | refused := leads
  · exact (onward value t kept ahead fine).of_eq run kept
  · exact .inr refused

lemma LeadsUnless.bind {γ : Type} {p : Parser γ} {f : γ → Parser α} {mid : List TokenKind}
    {between : γ → Prop} (first : YieldsUnless deep p s mid between) (next : ∀ value t, s.Kept t →
      t.kinds = mid → between value → LeadsUnless deep (f value) t rest goal wanted) :
    LeadsUnless deep (p >>= f) s rest goal wanted := by
  change LeadsUnless deep (Parser.bind p f) s rest goal wanted
  obtain ⟨value, t, run, kept, ahead, fine⟩ | ⟨deep, place, t, run⟩ := first
  · refine (next value t kept ahead fine).of_eq ?_ kept
    rw [Parser.bind, run]
    rfl
  · exact .inr ⟨deep, place, t, by rw [Parser.bind, run]⟩

/-! ### The next token -/

lemma look_bind (ahead : s.kinds = kind :: tail)
    (next : ∀ token, token.kind = kind → LeadsUnless deep (f token) s rest goal wanted) :
    LeadsUnless deep (look >>= f) s rest goal wanted :=
  (next s.peek (peek_kind ahead)).of_eq rfl (.refl s)

lemma at_bind (ahead : s.kinds = kind :: tail)
    (next : LeadsUnless deep (f (test kind)) s rest goal wanted) :
    LeadsUnless deep (at? test >>= f) s rest goal wanted := by
  rw [← peek_kind ahead] at next
  exact next.of_eq rfl (.refl s)

lemma next_yields (ahead : s.kinds = kind :: tail) (more : tail ≠ []) :
    YieldsUnless deep next s tail fun _ => True :=
  .inl ⟨_, _, rfl, advance_kept s, advance_kinds ahead more, trivial⟩

lemma accept_yields (test : TokenKind → Bool) (ahead : s.kinds = kind :: tail) (more : tail ≠ [])
    (passes : test kind = true) : YieldsUnless deep (accept test) s tail (· = true) := by
  refine .inl ⟨true, s.advance, ?_, advance_kept s, advance_kinds ahead more, rfl⟩
  rw [accept, peek_kind ahead, if_pos passes]
  rfl

lemma reject_bind (ahead : s.kinds = kind :: tail) (fails : test kind = false)
    (next : LeadsUnless deep (f false) s rest goal wanted) :
    LeadsUnless deep (accept test >>= f) s rest goal wanted := by
  refine next.of_eq ?_ (.refl s)
  change Parser.bind (accept test) f s = _
  rw [Parser.bind, accept, peek_kind ahead, fails]
  rfl

lemma expect_yields (test) (what) (ahead : s.kinds = kind :: tail) (more : tail ≠ [])
    (passes : test kind = true) : YieldsUnless deep (expect test what) s tail fun _ => True :=
  at_bind ahead (by rw [passes]; exact next_yields ahead more)

lemma expectName_yields (what : Expectation) (ahead : s.kinds = .identifier name :: tail)
    (more : tail ≠ []) : YieldsUnless deep (expectName what) s tail (· = name) := by
  refine .inl ⟨name, s.advance, ?_, advance_kept s, advance_kinds ahead more, rfl⟩
  rw [expectName, peek_kind ahead]
  rfl

lemma skipBreaks_yields (ahead : s.kinds = skipped ++ kind :: tail)
    (breaks : ∀ other ∈ skipped, other.isSeparator = true) (stops : kind.isSeparator = false) :
    YieldsUnless deep skipBreaks s (kind :: tail) fun _ => True :=
  .inl ⟨(), _, rfl, skipWhile_kept _ s, skipWhile_kinds ahead breaks stops, trivial⟩

lemma warn_yields (ahead : s.kinds = rest) :
    YieldsUnless deep (warn problem location) s rest fun _ => True :=
  .inl ⟨(), _, rfl, ⟨rfl, rfl, rfl, rfl, rfl⟩, ahead, trivial⟩

/-! ### Places, errors and counts -/

lemma spanSince_bind (next : ∀ location, LeadsUnless deep (f location) s rest goal wanted) :
    LeadsUnless deep (spanSince start >>= f) s rest goal wanted :=
  (next (start.upTo s.last)).of_eq rfl (.refl s)

lemma currentUnit_bind (next : ∀ unit, LeadsUnless deep (f unit) s rest goal wanted) :
    LeadsUnless deep (currentUnit >>= f) s rest goal wanted :=
  (next s.unit).of_eq rfl (.refl s)

lemma lastLocation_bind (next : ∀ location, LeadsUnless deep (f location) s rest goal wanted) :
    LeadsUnless deep (lastLocation >>= f) s rest goal wanted :=
  (next s.last).of_eq rfl (.refl s)

lemma tokensLeft_bind (next : ∀ count, LeadsUnless deep (f count) s rest goal wanted) :
    LeadsUnless deep (tokensLeft >>= f) s rest goal wanted :=
  (next s.rest.length).of_eq rfl (.refl s)

lemma attempt_yields (yields : Yields p s rest wanted) :
    Yields (attempt p) s rest fun reply => ∃ value, reply = .ok value ∧ wanted value := by
  obtain ⟨value, t, run, kept, ahead, fine⟩ := yields.found
  exact .inl ⟨.ok value, t, by rw [attempt, run]; rfl, kept, ahead, value, rfl, fine⟩

lemma insideExpression_yields (room : s.expressions < nestingLimit ∨ deep)
    (inner : YieldsUnless deep p { s with expressions := s.expressions + 1 } rest wanted) :
    YieldsUnless deep (insideExpression p) s rest wanted := by
  by_cases full : s.expressions ≥ nestingLimit
  · exact .inr ⟨room.resolve_left (by omega), _, _, by rw [insideExpression, if_pos full]; rfl⟩
  obtain ⟨value, t, run, kept, ahead, fine⟩ | ⟨deep, place, t, run⟩ := inner
  · refine .inl ⟨value, { t with expressions := t.expressions - 1 }, ?_,
      { kept with expressions := ?_ }, ahead, fine⟩
    · rw [insideExpression, if_neg full, run]
      rfl
    · have counted := kept.expressions
      simp only at counted ⊢
      omega
  · exact .inr ⟨deep, place, _, by rw [insideExpression, if_neg full, run]; rfl⟩

lemma insideStatement_yields (room : s.statements < nestingLimit)
    (inner : Yields p { s with statements := s.statements + 1 } rest wanted) :
    Yields (insideStatement p) s rest wanted := by
  obtain ⟨value, t, run, kept, ahead, fine⟩ := inner.found
  refine .inl ⟨value, { t with statements := t.statements - 1 }, ?_,
    { kept with statements := ?_ }, ahead, fine⟩
  · have fits : (s.statements ≥ nestingLimit) = False := eq_false (by omega)
    simp only [insideStatement, fits, decide_false, Bool.false_and, Bool.false_eq_true, if_false, run]
    rfl
  · have counted := kept.statements
    simp only at counted ⊢
    omega

lemma insideLoop_yields (inner : Yields p { s with loops := s.loops + 1 } rest wanted) :
    Yields (insideLoop p) s rest wanted := by
  obtain ⟨value, t, run, kept, ahead, fine⟩ := inner.found
  refine .inl ⟨value, { t with loops := t.loops - 1 }, by rw [insideLoop, run]; rfl,
    { kept with loops := ?_ }, ahead, fine⟩
  have counted := kept.loops
  simp only at counted ⊢
  omega

lemma insideFunction_yields
    (inner : Yields p { s with loops := 0, functions := s.functions + 1 } rest wanted) :
    Yields (insideFunction p) s rest wanted := by
  obtain ⟨value, t, run, kept, ahead, fine⟩ := inner.found
  refine .inl ⟨value, { t with loops := s.loops, functions := t.functions - 1 },
    by rw [insideFunction, run]; rfl, { kept with loops := rfl, functions := ?_ }, ahead, fine⟩
  have counted := kept.functions
  simp only at counted ⊢
  omega

end Parser

end Stepper
