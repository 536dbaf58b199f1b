import Mathlib.Tactic.Lemma
import Stepper.Proofs.Linewise

/-! # Cutting a text into lines and lexemes -/

namespace Stepper

open List SourceLine Decimal

/-! ### Bytes -/

namespace Text

@[simp]
lemma byteLength_nil : byteLength [] = 0 := rfl

@[simp]
lemma byteLength_cons (c) (chars) :
    byteLength (c :: chars) = c.utf8Size + byteLength chars := rfl

@[simp]
lemma byteLength_append (front back) :
    byteLength (front ++ back) = byteLength front + byteLength back := by
  induction front with
  | nil => simp
  | cons _ _ ih => simp [ih, Nat.add_assoc]

@[simp]
lemma byteLength_spaces (count) : byteLength (replicate count ' ') = count := by
  induction count with
  | zero => rfl
  | succ _ ih =>
    have space : ' '.utf8Size = 1 := rfl
    rw [replicate_succ, byteLength_cons, ih, space, Nat.add_comm]

lemma byteLength_pos (filled : chars ≠ []) : 0 < byteLength chars := by
  obtain ⟨c, _, rfl⟩ := exists_cons_of_ne_nil filled
  have := c.utf8Size_pos
  simp only [byteLength_cons]
  omega

@[simp]
lemma utf8ByteSize_ofList (chars) : (String.ofList chars).utf8ByteSize = byteLength chars := by
  induction chars with
  | nil => rfl
  | cons _ _ ih =>
    rw [String.ofList_cons, String.utf8ByteSize_append, String.utf8ByteSize_singleton,
      ih, byteLength_cons]

lemma byteLength_toList (text : String) : byteLength text.toList = text.utf8ByteSize := by
  rw [← utf8ByteSize_ofList, String.ofList_toList]

end Text

/-! ### Lines -/

lemma splitBreaks_eq_splitOnPPrepend (current chars) :
    splitBreaks current chars = chars.splitOnPPrepend (· == '\n') current := by
  fun_induction splitBreaks current chars with
  | case1 => rfl
  | case2 _ _ ih =>
    rw [splitOnPPrepend_cons_pos rfl, ih, splitOnPPrepend_nil_right]
  | case3 _ c _ other ih =>
    have differs : (c == '\n') = false := by simpa using other
    rw [splitOnPPrepend_cons_eq_if, differs, ih]
    rfl

lemma splitBreaks_eq_splitOn (chars) : splitBreaks [] chars = chars.splitOn '\n' :=
  splitBreaks_eq_splitOnPPrepend [] chars

lemma not_mem_of_mem_splitBreaks (clear : '\n' ∉ current) (mem : line ∈ splitBreaks current chars) :
    '\n' ∉ line := by
  fun_induction splitBreaks current chars with
  | case1 =>
    obtain rfl := mem_singleton.mp mem
    simpa using clear
  | case2 _ _ ih =>
    obtain rfl | behind := mem_cons.mp mem
    · simpa using clear
    · exact ih not_mem_nil behind
  | case3 _ _ _ other ih =>
    refine ih ?_ mem
    simpa using ⟨fun same => other same.symm, clear⟩

namespace SourceLine

def chars (line : SourceLine) : List Char := line.code ++ line.comment

@[simp]
lemma byteLength_chars (line : SourceLine) : Text.byteLength line.chars = line.byteLength :=
  Text.byteLength_append _ _

@[simp]
lemma chars_split (marker) (state) (rest) : (split marker state rest).chars = rest := by
  induction rest generalizing state with
  | nil => rfl
  | cons c _ ih =>
    rw [split]
    split
    · rfl
    · exact congrArg (c :: ·) (ih _)

@[simp]
lemma chars_ofChars (marker) (rest) : (ofChars marker rest).chars = rest :=
  chars_split _ _ _

lemma byteLength_blanked (line : SourceLine) :
    Text.byteLength line.blanked = Text.byteLength line.chars := by
  simp [blanked, chars]

end SourceLine

section Lines
variable (marker : Char) (source : String)

lemma sourceLines_chars : (sourceLines marker source).map chars = source.toList.splitOn '\n' := by
  rw [← splitBreaks_eq_splitOn, sourceLines, map_map]
  exact map_id'' (chars_ofChars marker) _

lemma joined_sourceLines :
    ['\n'].intercalate ((sourceLines marker source).map chars) = source.toList := by
  rw [sourceLines_chars, intercalate_splitOn]

lemma sourceLines_ne_nil : sourceLines marker source ≠ [] := by
  simp [sourceLines, splitBreaks_eq_splitOn]

lemma no_break_in_sourceLine (mem : line ∈ sourceLines marker source) : '\n' ∉ line.chars := by
  obtain ⟨_, cut, rfl⟩ := mem_map.mp mem
  rw [chars_ofChars]
  exact not_mem_of_mem_splitBreaks not_mem_nil cut

end Lines

/-! ### Lexemes -/

lemma stringBody_starts (quote) (chars) : (stringBody quote chars).consumed <+: chars := by
  fun_induction stringBody quote chars with
  | case1 | case2 => exact prefix_rfl
  | case3 _ _ _ ih =>
    exact (prefix_cons_inj _).mpr ((prefix_cons_inj _).mpr ih)
  | case4 => exact (prefix_cons_inj _).mpr nil_prefix
  | case5 _ _ _ _ _ _ ih => exact (prefix_cons_inj _).mpr ih

lemma stringLexeme_tail (opening) (body) (kind) :
    (stringLexeme opening body kind).tail = opening ++ body.consumed := by
  unfold stringLexeme
  split <;> rfl

def fractionDigits : List Char → List Char
  | '.' :: digits => digits.takeWhile isDigit
  | _ => []

lemma fractionDigits_starts {after : List Char} (pointed : fractionDigits after ≠ []) :
    '.' :: fractionDigits after <+: after := by
  unfold fractionDigits at pointed ⊢
  split at pointed
  · have starts {digits : List Char} : digits.takeWhile isDigit <+: digits := takeWhile_prefix _
    exact (prefix_cons_inj '.').mpr starts
  · exact absurd rfl pointed

section
variable (first : Char) (rest : List Char)
include first rest

lemma numberLexeme_eq :
    numberLexeme first rest =
      let whole := rest.takeWhile isDigit
      let fraction := fractionDigits (rest.dropWhile isDigit)
      { tail := if fraction.isEmpty then whole else whole ++ '.' :: fraction
        kind :=
          .number (ofDecimal false (natural 0 (first :: whole ++ fraction))
            (-(fraction.length : Int))) } :=
  rfl

lemma numberLexeme_starts : (numberLexeme first rest).tail <+: rest := by
  rw [numberLexeme_eq]
  dsimp only
  split
  · exact takeWhile_prefix _
  · next pointed =>
    have fraction := fractionDigits_starts (mt isEmpty_iff.mpr pointed)
    simpa only [takeWhile_append_dropWhile] using
      (prefix_append_right_inj (rest.takeWhile isDigit)).mpr fraction

lemma signLexeme_starts : (signLexeme first rest).tail <+: rest := by
  unfold signLexeme
  split
  · exact take_prefix 1 rest
  · split <;> exact nil_prefix

lemma lexeme_starts : (lexeme first rest).tail <+: rest := by
  unfold lexeme
  split
  · exact takeWhile_prefix isGap
  split
  · next quoted =>
    cases rest with
    | nil => simp at quoted
    | cons quote rest =>
      rw [stringLexeme_tail]
      exact (prefix_cons_inj quote).mpr (stringBody_starts quote rest)
  split
  · rw [stringLexeme_tail]
    exact stringBody_starts first rest
  split
  · exact numberLexeme_starts first rest
  split
  · exact takeWhile_prefix Text.isNamePart
  · exact signLexeme_starts first rest

lemma lexeme_append_rest :
    (lexeme first rest).tail ++ rest.drop (lexeme first rest).tail.length = rest :=
  prefix_iff_eq_append.mp (lexeme_starts first rest)

end

def scanLexeme (place : Place) (first : Char) (found : Lexeme) : TokenStream :=
  let location := place.span (place.after (first :: found.tail)).offset
  { tokens := [{ kind := found.kind, lexeme := String.ofList (first :: found.tail), location }]
    errors := (found.fault.map fun fault => .error .lexical fault.message location).toList }

lemma scanCode_cons (place) (first) (rest) : scanCode place (first :: rest) =
    (scanLexeme place first (lexeme first rest)).append (scanCode (place.after (first :: (lexeme first
      rest).tail)) (rest.drop (lexeme first rest).tail.length)) := by
  rw [scanCode]
  cases fault : (lexeme first rest).fault <;> simp [scanLexeme, TokenStream.append, fault]

/-! ### Walking over a text -/

namespace Place

lemma walk_append (place : Place) (front back) :
    place.walk (front ++ back) = (place.walk front).walk back :=
  foldl_append

lemma after_append (place : Place) (front back) :
    place.after (front ++ back) = (place.after front).after back := by
  simp [after, Nat.add_assoc]

lemma walk_offset (place : Place) (chars) :
    (place.walk chars).offset = place.offset + Text.byteLength chars := by
  induction chars generalizing place with
  | nil => rfl
  | cons c _ ih =>
    have step : (place.past c).offset = place.offset + c.utf8Size := by
      unfold past
      split
      · next isBreak => exact isBreak ▸ rfl
      · rfl
    rw [walk, foldl_cons]
    refine (ih _).trans ?_
    rw [step, Text.byteLength_cons, Nat.add_assoc]

lemma walk_code {chars : List Char} (clear : '\n' ∉ chars) (place : Place) :
    place.walk chars = place.after chars := by
  induction chars generalizing place with
  | nil => rfl
  | cons c chars ih =>
    obtain ⟨other, clear⟩ := not_or.mp (mt mem_cons.mpr clear)
    have step : place.past c = place.after [c] := if_neg (Ne.symm other)
    rw [walk, foldl_cons, step]
    exact (ih clear _).trans (after_append place [c] chars).symm

end Place

/-! ### Lines one after another -/

def Place.behind (place : Place) (line : SourceLine) : Place :=
  (place.after line.code).afterComment line.comment

@[simp]
lemma Place.behind_offset (place : Place) (line) :
    (place.behind line).offset = place.offset + Text.byteLength line.chars := by
  simp [behind, after, afterComment, chars, Nat.add_assoc]

lemma Place.nextLine_behind (number offset : Nat) (line) :
    (behind ⟨number, 1, offset⟩ line).nextLine = ⟨number + 1, 1, offset + line.byteLength + 1⟩ := by
  rw [nextLine, behind_offset, byteLength_chars]
  rfl

def scanLine (place : Place) (line : SourceLine) : TokenStream :=
  (scanCode place line.code).append (scanComment (place.after line.code) line.comment)

def Token.lineBreak (place : Place) : Token :=
  { kind := .newline, lexeme := "\n", location := place.span (place.offset + 1) }

def Token.closing (place : Place) : Token :=
  { kind := .endOfFile, lexeme := "", location := place.span place.offset }

lemma scanLines_last (place) (line) : scanLines place [line] = (scanLine place line).append
    { tokens := [.closing (place.behind line)] } :=
  rfl

lemma scanLines_next (place) (line next) (more) :
    scanLines place (line :: next :: more) =
      (scanLine place line).append
        (TokenStream.append { tokens := [.lineBreak (place.behind line)] }
          (scanLines (place.behind line).nextLine (next :: more))) :=
  rfl

lemma commentsFrom_cons (number offset) (line) (rest) : commentsFrom number offset (line :: rest) =
    commentsFrom number offset [line] ++ commentsFrom (number + 1) (offset + line.byteLength + 1)
    rest := by
  simp only [commentsFrom]
  split <;> rfl

end Stepper
