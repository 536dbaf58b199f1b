import Mathlib.Data.List.TakeWhile
import Stepper.Proofs.Cutting

/-! # Strings seen twice -/

namespace Stepper

open List

variable {chars : List Char} {p : Char → Bool} (first : Char)

namespace SourceLine.Quoting

def readAll (state : Quoting) (chars : List Char) : Quoting := chars.foldl read state

def IsOutside (state : Quoting) : Prop := state.quote = none ∧ state.escaped = false

variable {state : Quoting}

lemma readAll_append (state : Quoting) (front back) :
    state.readAll (front ++ back) = (state.readAll front).readAll back :=
  foldl_append

lemma isOutside_start : IsOutside {} := ⟨rfl, rfl⟩

lemma IsOutside.read (outside : state.IsOutside) (plain : isQuote c = false) :
    (state.read c).IsOutside := by
  obtain ⟨none, clear⟩ := outside
  have other : ¬ (c = '"' ∨ c = '\'') := by simpa [isQuote] using plain
  simp [Quoting.read, none, IsOutside, other, clear]

lemma IsOutside.readAll (outside : state.IsOutside) (plain : ∀ c ∈ chars, isQuote c = false) :
    (state.readAll chars).IsOutside := by
  induction chars generalizing state with
  | nil => exact outside
  | cons _ _ ih =>
    obtain ⟨first, others⟩ := forall_mem_cons.mp plain
    exact ih (outside.read first) others

def IsInside (state : Quoting) (quote : Char) : Prop :=
  state.quote = some quote ∧ state.escaped = false

variable {quote : Char}

lemma IsOutside.opens (outside : state.IsOutside) (opening : isQuote quote) :
    (state.read quote).IsInside quote := by
  obtain ⟨none, clear⟩ := outside
  have one : quote = '"' ∨ quote = '\'' := by simpa [isQuote] using opening
  simp [Quoting.read, none, one, clear, IsInside]

lemma IsInside.read (inside : state.IsInside quote) (plain : c ≠ '\\') (other : c ≠ quote) :
    (state.read c).IsInside quote := by
  obtain ⟨opened, clear⟩ := inside
  simp [Quoting.read, opened, clear, plain, other, IsInside]

lemma IsInside.escape (inside : state.IsInside quote) (c) :
    ((state.read '\\').read c).IsInside quote := by
  obtain ⟨opened, clear⟩ := inside
  simp [Quoting.read, opened, clear, IsInside]

lemma IsInside.closes (inside : state.IsInside quote) (plain : quote ≠ '\\') :
    (state.read quote).IsOutside := by
  obtain ⟨opened, clear⟩ := inside
  simp [Quoting.read, opened, clear, plain, IsOutside]

lemma ne_backslash (alone : c = '\\' → rest = [] → False)
    (escapes : ∀ next others, c = '\\' → rest = next :: others → False) : c ≠ '\\' := by
  intro same
  cases rest with
  | nil => exact alone same rfl
  | cons next others => exact escapes next others same rfl

lemma IsInside.closed (inside : state.IsInside quote)
    (closed : (stringBody quote chars).closed) :
    (state.readAll (stringBody quote chars).consumed).IsOutside := by
  fun_induction stringBody quote chars generalizing state with
  | case1 | case2 => cases closed
  | @case3 c _ _ ih => exact ih (inside.escape c) closed
  | case4 _ alone escapes => exact inside.closes (ne_backslash alone escapes)
  | @case5 _ _ alone escapes other _ ih =>
    exact ih (inside.read (ne_backslash alone escapes) other) closed

lemma IsInside.unclosed (inside : state.IsInside quote)
    (unclosed : (stringBody quote chars).closed = false) :
    (state.readAll chars).quote = some quote := by
  fun_induction stringBody quote chars generalizing state with
  | case1 => exact inside.1
  | case2 =>
    obtain ⟨opened, clear⟩ := inside
    simp [readAll, Quoting.read, opened, clear]
  | @case3 c _ _ ih => exact ih (inside.escape c) unclosed
  | case4 => cases unclosed
  | @case5 _ _ alone escapes other _ ih =>
    exact ih (inside.read (ne_backslash alone escapes) other) unclosed

end SourceLine.Quoting

lemma SourceLine.settled_of_comment (commented : (split marker state chars).comment ≠ []) :
    (state.readAll (split marker state chars).code).quote = none := by
  induction chars generalizing state with
  | nil => exact absurd rfl commented
  | cons _ _ ih =>
    rw [split] at commented ⊢
    split at commented
    · next starts =>
      simp only [if_pos starts]
      simp only [Quoting.startsComment, Bool.and_eq_true, Option.isNone_iff_eq_none] at starts
      exact starts.1.1
    · next plain =>
      simp only [if_neg plain]
      exact ih commented

/-! ### Lexemes before spaces -/

lemma stringBody_again (closed : (stringBody quote chars).closed) (more) :
    stringBody quote ((stringBody quote chars).consumed ++ more) = stringBody quote chars := by
  fun_induction stringBody quote chars with
  | case1 | case2 => cases closed
  | case3 _ _ body ih => simp only [cons_append, stringBody, ih closed, body]
  | case4 _ alone escapes =>
    have plain := SourceLine.Quoting.ne_backslash alone escapes
    simp [stringBody, plain]
  | case5 _ _ alone escapes other body ih =>
    have plain := SourceLine.Quoting.ne_backslash alone escapes
    simp [stringBody, plain, other, ih closed, body]

lemma stringBody_append (closed : (stringBody quote chars).closed) (more) :
    stringBody quote (chars ++ more) = stringBody quote chars := by
  obtain ⟨rest, split⟩ := stringBody_starts quote chars
  have again := stringBody_again closed (rest ++ more)
  rwa [← append_assoc, split] at again

/-- Whether a text starts with a space or a line break, unless it is empty. -/
def Breaks (after : List Char) : Prop := ∀ c ∈ after.head?, c = ' ' ∨ c = '\n'

lemma breaks_spaces (count) : Breaks (replicate count ' ') := by
  cases count <;> simp [Breaks, replicate_succ]

section Breaks
variable {after : List Char} (breaks : Breaks after)
include breaks

lemma takeWhile_append_break (stops : p ' ' = false ∧ p '\n' = false) (rest) :
    (rest ++ after).takeWhile p = rest.takeWhile p := by
  induction rest with
  | nil =>
    cases after with
    | nil => rfl
    | cons c => obtain rfl | rfl := breaks c rfl <;> simp [stops]
  | cons _ _ ih => simp only [cons_append, takeWhile_cons, ih]

lemma dropWhile_append_break (stops : p ' ' = false ∧ p '\n' = false) (rest) :
    (rest ++ after).dropWhile p = rest.dropWhile p ++ after := by
  induction rest with
  | nil =>
    cases after with
    | nil => rfl
    | cons c => obtain rfl | rfl := breaks c rfl <;> simp [stops]
  | cons _ _ ih =>
    simp only [cons_append, dropWhile_cons, ih]
    split <;> rfl

lemma fractionDigits_break (digits) : fractionDigits (digits ++ after) = fractionDigits digits := by
  cases digits with
  | nil =>
    cases after with
    | nil => rfl
    | cons c => obtain rfl | rfl := breaks c rfl <;> rfl
  | cons c =>
    by_cases point : c = '.'
    · simp [point, fractionDigits, takeWhile_append_break breaks (p := Decimal.isDigit) (by decide)]
    · simp [point, fractionDigits]

lemma numberLexeme_break (rest) : numberLexeme first (rest ++ after) = numberLexeme first rest := by
  have stops : Decimal.isDigit ' ' = false ∧ Decimal.isDigit '\n' = false := by decide
  simp only [numberLexeme_eq, takeWhile_append_break breaks stops, dropWhile_append_break breaks stops,
    fractionDigits_break breaks]

lemma wordLexeme_break (rest) : wordLexeme first (rest ++ after) = wordLexeme first rest := by
  simp only [wordLexeme, takeWhile_append_break breaks (p := Text.isNamePart) (by decide)]

lemma signLexeme_break (rest) : signLexeme first (rest ++ after) = signLexeme first rest := by
  cases rest with
  | nil =>
    cases after with
    | nil => rfl
    | cons c =>
      have alone : doubleSign? first c = none := by
        obtain rfl | rfl := breaks c rfl <;> unfold doubleSign? <;> split <;> simp_all
      simp [signLexeme, alone]
  | cons => simp [signLexeme]

lemma quoted_break (rest) :
    ((rest ++ after).head?.map isQuote).getD false = (rest.head?.map isQuote).getD false := by
  cases rest with
  | nil =>
    cases after with
    | nil => rfl
    | cons c => obtain rfl | rfl := breaks c rfl <;> rfl
  | cons => rfl

end Breaks

/-! ### Lexemes that are not strings -/

lemma isQuote_of_class (double : p '"' = false) (single : p '\'' = false) (holds : p c)
    : isQuote c = false := by
  rw [← Bool.not_eq_true]
  intro quote
  obtain rfl | rfl : c = '"' ∨ c = '\'' := by simpa [isQuote] using quote
  · simp [double] at holds
  · simp [single] at holds

/-- Whether a character neither opens a string nor starts a comment. -/
def isPlain (c : Char) : Bool := !isQuote c && c != commentMarker

lemma isQuote_of_isPlain (plain : isPlain c) : isQuote c = false := by
  simpa using (Bool.and_eq_true_iff.mp plain).1

lemma isPlain_of_class (quotes : p '"' = false ∧ p '\'' = false) (marker : p '#' = false)
    (holds : p c) : isPlain c := by
  have other : c ≠ '#' := by
    rintro rfl
    simp [marker] at holds
  simp [isPlain, isQuote_of_class quotes.1 quotes.2 holds, commentMarker, other]

lemma of_takeWhile (chars : List Char) : ∀ c ∈ chars.takeWhile p, p c = true :=
  fun c mem => all_eq_true.mp all_takeWhile c mem

lemma isPlain_of_takeWhile (quotes : p '"' = false ∧ p '\'' = false) (marker : p '#' = false)
    (chars : List Char) : ∀ c ∈ chars.takeWhile p, isPlain c = true :=
  fun c mem => isPlain_of_class quotes marker (of_takeWhile chars c mem)

lemma digits_of_fraction (after : List Char) :
    ∀ c ∈ fractionDigits after, Decimal.isDigit c = true := by
  unfold fractionDigits
  split
  · exact of_takeWhile _
  · exact forall_mem_nil _

lemma isPlain_of_number (rest : List Char) :
    ∀ c ∈ (numberLexeme first rest).tail, isPlain c = true := by
  have whole := isPlain_of_takeWhile (p := Decimal.isDigit) (by decide) (by decide) rest
  rw [numberLexeme_eq]
  dsimp only
  split
  · exact whole
  · exact forall_mem_append.mpr ⟨whole, forall_mem_cons.mpr ⟨by decide, fun c mem =>
      isPlain_of_class (p := Decimal.isDigit) (by decide) (by decide) (digits_of_fraction _ c mem)⟩⟩

lemma isPlain_of_doubleSign {first second : Char} (double : doubleSign? first second = some sign) :
    isPlain first = true ∧ isPlain second = true := by
  unfold doubleSign? at double
  split at double
  all_goals first | decide | cases double

lemma isPlain_of_sign (rest : List Char) : ∀ c ∈ (signLexeme first rest).tail, isPlain c = true := by
  unfold signLexeme
  split
  · next _ double =>
    obtain ⟨_, head, double⟩ := Option.bind_eq_some_iff.mp double
    obtain ⟨_, rfl⟩ := head?_eq_some_iff.mp head
    simpa using (isPlain_of_doubleSign double).2
  · split <;> exact forall_mem_nil _

/-! ### Lexemes and the reader -/

section Reader
variable {state : SourceLine.Quoting} {first quote : Char} {rest : List Char}

lemma closed_of_settled (inside : state.IsInside quote) (settled : (state.readAll rest).quote = none) :
    (stringBody quote rest).closed := by
  rw [← Bool.not_eq_false]
  intro unclosed
  simp [inside.unclosed unclosed] at settled

lemma isQuote_of_mark (mark : isInterpolationMark first) : isQuote first = false :=
  isQuote_of_class (p := isInterpolationMark) (by decide) (by decide) mark

lemma gap_append (broken : ∃ c ∈ rest, isGap c = false) (more) :
    (rest ++ more).takeWhile isGap = rest.takeWhile isGap := by
  have starts : rest.takeWhile isGap <+: rest := takeWhile_prefix isGap
  rw [takeWhile_append, if_neg]
  intro whole
  obtain ⟨c, mem, other⟩ := broken
  rw [← starts.eq_of_length whole] at mem
  simp [all_eq_true.mp all_takeWhile c mem] at other

variable (outside : state.IsOutside) (settled : (state.readAll (first :: rest)).quote = none)
include outside settled

lemma lexeme_break {after : List Char} (breaks : Breaks after) :
    (isGap first = true ∧ ∀ c ∈ rest, isGap c = true) ∨
    lexeme first (rest ++ after) = lexeme first rest := by
  unfold lexeme
  rw [quoted_break breaks]
  split
  · next gap =>
    by_cases blank : ∀ c ∈ rest, isGap c = true
    · exact .inl ⟨gap, blank⟩
    · exact .inr (by rw [gap_append (by simpa using blank)])
  split
  · next quoted =>
    obtain ⟨mark, opening⟩ := Bool.and_eq_true_iff.mp quoted
    cases rest with
    | nil => cases opening
    | cons =>
      have closed := closed_of_settled ((outside.read (isQuote_of_mark mark)).opens opening) settled
      exact .inr (by simp [stringBody_append closed])
  split
  · next opening =>
    have closed := closed_of_settled (outside.opens opening) settled
    exact .inr (by rw [stringBody_append closed])
  split
  · exact .inr (numberLexeme_break first breaks rest)
  split
  · exact .inr (wordLexeme_break first breaks rest)
  · exact .inr (signLexeme_break first breaks rest)

lemma lexeme_outside : (state.readAll (first :: (lexeme first rest).tail)).IsOutside := by
  unfold lexeme
  split
  · next gap =>
    refine outside.readAll (forall_mem_cons.mpr ⟨?_, ?_⟩)
    · exact isQuote_of_class (p := isGap) (by decide) (by decide) gap
    · exact fun c mem => isQuote_of_isPlain (isPlain_of_takeWhile (by decide) (by decide) rest c mem)
  split
  · next quoted =>
    obtain ⟨mark, opening⟩ := Bool.and_eq_true_iff.mp quoted
    cases rest with
    | nil => cases opening
    | cons =>
      have inside := (outside.read (isQuote_of_mark mark)).opens opening
      rw [stringLexeme_tail]
      exact inside.closed (closed_of_settled inside settled)
  split
  · next opening =>
    have inside := outside.opens opening
    rw [stringLexeme_tail]
    exact inside.closed (closed_of_settled inside settled)
  -- What is left holds no quote.
  next plain =>
  refine outside.readAll (forall_mem_cons.mpr
    ⟨Bool.not_eq_true _ ▸ plain, fun c mem => isQuote_of_isPlain (?_ : isPlain c = true)⟩)
  revert c mem
  split
  · exact isPlain_of_number first rest
  split
  · exact isPlain_of_takeWhile (by decide) (by decide) rest
  · exact isPlain_of_sign first rest

end Reader

section
variable {state : SourceLine.Quoting}

lemma TokenStream.append_withoutTrivia (front back : TokenStream) :
    (front.append back).withoutTrivia = front.withoutTrivia.append back.withoutTrivia := by
  simp [append, withoutTrivia]

lemma scanCode_blank (place) (blank : ∀ c ∈ code, isGap c = true) :
    (scanCode place code).withoutTrivia = {} := by
  cases code with
  | nil => rw [scanCode]; rfl
  | cons _ rest =>
    obtain ⟨gap, others⟩ := forall_mem_cons.mp blank
    have all : rest.takeWhile isGap = rest := takeWhile_eq_self_iff.mpr others
    rw [scanCode]
    simp [lexeme, gap, all, scanCode, TokenStream.withoutTrivia, TokenKind.isTrivia]

lemma scanCode_spaces (outside : state.IsOutside) (place)
    (settled : (state.readAll code).quote = none) (count) :
    (scanCode place (code ++ replicate count ' ')).withoutTrivia =
    (scanCode place code).withoutTrivia := by
  have spaces : ∀ c ∈ replicate count ' ', isGap c = true := by
    intro _ mem
    rw [eq_of_mem_replicate mem]
    rfl
  induction place, code using scanCode.induct generalizing state with
  | case1 place => rw [nil_append, scanCode_blank place spaces, scanCode_blank place (forall_mem_nil _)]
  | @case2 place first rest found _ ih =>
    obtain ⟨gap, blank⟩ | same := lexeme_break outside settled (breaks_spaces count)
    · have all : ∀ c ∈ first :: rest, isGap c = true := forall_mem_cons.mpr ⟨gap, blank⟩
      rw [scanCode_blank place all, scanCode_blank place (forall_mem_append.mpr ⟨all, spaces⟩)]
    · have further : ((state.readAll (first :: found.tail)).readAll
          (rest.drop found.tail.length)).quote = none := by
        rw [← SourceLine.Quoting.readAll_append, cons_append, lexeme_append_rest]
        exact settled
      rw [cons_append, scanCode_cons, scanCode_cons, same, drop_append_of_le_length (lexeme_starts first
        rest).length_le, TokenStream.append_withoutTrivia, TokenStream.append_withoutTrivia, ih
        (lexeme_outside outside settled) further]

end

end Stepper
