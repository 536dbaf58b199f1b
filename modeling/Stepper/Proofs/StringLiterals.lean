import Stepper.Proofs.WholeScan

/-! # Writing string literals -/

namespace Stepper

open List SourceLine

/-- The letter that a character is written with behind a backslash. Some escapes are needed, others may
be demanded. -/
def escapeSign? (quote : Char) (demanded : Bool) (c : Char) : Option Char :=
  if c = '\\' ∨ c = quote then some c
  else if c = '\n' then some 'n'
  else if demanded ∧ c = '\t' then some 't'
  else if demanded ∧ c = '\r' then some 'r'
  else none

/-- A content as it is written between quotes, each character with whether its escape is demanded. -/
def encoded (quote : Char) : List (Char × Bool) → List Char
  | [] => []
  | (c, demanded) :: rest =>
    match escapeSign? quote demanded c with
    | some sign => '\\' :: sign :: encoded quote rest
    | none => c :: encoded quote rest

def quoted (quote : Char) (content : List (Char × Bool)) : List Char :=
  quote :: (encoded quote content ++ [quote])

def singleToken (text : List Char) (kind : TokenKind) : TokenStream :=
  { tokens :=
      [{ kind, lexeme := String.ofList text, location := Place.span ⟨1, 1, 0⟩ (Text.byteLength text) },
        .closing ⟨1, 1 + text.length, Text.byteLength text⟩] }

/-- Whether a text is scanned as one token, without an error and without a comment. -/
structure IsToken (text : List Char) (kind : TokenKind) : Prop where
  scanned : scanAll commentMarker (String.ofList text) = singleToken text kind
  kept : scan (String.ofList text) = singleToken text kind
  uncommented : comments commentMarker (String.ofList text) = []

variable {quote : Char} (content : List (Char × Bool))

lemma escapeSign?_unescape (opening : isQuote quote)
    (escaped : escapeSign? quote demanded c = some sign) : unescape sign = c ∧ sign ≠ '\n' := by
  have one : quote = '"' ∨ quote = '\'' := by simpa [isQuote] using opening
  unfold escapeSign? at escaped
  split_ifs at escaped with itself _ <;> cases escaped
  · rcases itself with rfl | rfl
    · decide
    · rcases one with rfl | rfl <;> decide
  all_goals simp_all [unescape]

lemma plain_of_escapeSign? (plain : escapeSign? quote demanded c = none) :
    c ≠ '\\' ∧ c ≠ quote ∧ c ≠ '\n' := by
  unfold escapeSign? at plain
  split_ifs at plain
  simp_all

lemma no_break_in_encoded (opening : isQuote quote) : '\n' ∉ encoded quote content := by
  fun_induction encoded quote content with
  | case1 => exact not_mem_nil
  | case2 _ _ _ _ escaped ih =>
    have other := (escapeSign?_unescape opening escaped).2
    simp [ih, other.symm]
  | case3 _ _ _ plain ih => simp [ih, (plain_of_escapeSign? plain).2.2.symm]

lemma stringBody_encoded (opening : isQuote quote) : stringBody quote
    (encoded quote content ++ [quote]) =
    ⟨encoded quote content ++ [quote], content.map Prod.fst, true⟩ := by
  fun_induction encoded quote content with
  | case1 =>
    have plain : quote ≠ '\\' := by rintro rfl; cases opening
    simp [stringBody, plain]
  | case2 _ _ _ _ escaped ih =>
    simp [stringBody, ih, (escapeSign?_unescape opening escaped).1]
  | case3 _ _ _ plain ih =>
    obtain ⟨backslash, closing, -⟩ := plain_of_escapeSign? plain
    simp [stringBody, ih, backslash, closing]

namespace SourceLine
variable {marker : Char} {state : Quoting}

lemma split_code (code : state.startsComment marker c = false)
    (whole : split marker (state.read c) rest = ⟨rest, []⟩) :
    split marker state (c :: rest) = ⟨c :: rest, []⟩ := by
  simp [split, code, whole]

lemma Quoting.IsInside.startsComment (inside : state.IsInside quote) (c) :
    state.startsComment marker c = false := by
  simp [Quoting.startsComment, inside.1]

lemma split_encoded (inside : state.IsInside quote) :
    split marker state (encoded quote content ++ [quote]) = ⟨encoded quote content ++ [quote], []⟩ := by
  fun_induction encoded quote content generalizing state with
  | case1 => exact split_code (inside.startsComment quote) rfl
  | case2 _ _ _ sign _ ih =>
    refine split_code (inside.startsComment _) (split_code ?_ (ih (inside.escape sign)))
    simp [Quoting.startsComment, Quoting.read, inside.1, inside.2]
  | case3 _ _ _ unescaped ih =>
    obtain ⟨backslash, closing, -⟩ := plain_of_escapeSign? unescaped
    exact split_code (inside.startsComment _) (ih (inside.read backslash closing))

lemma split_quoted (outside : state.IsOutside) (opening : isQuote quote)
    (unmarked : marker ≠ quote) :
    split marker state (quoted quote content) = ⟨quoted quote content, []⟩ := by
  refine split_code ?_ (split_encoded content (outside.opens opening))
  simp [Quoting.startsComment, unmarked.symm]

end SourceLine

lemma isToken_of_lexeme (unbroken : '\n' ∉ first :: rest)
    (uncommented : ofChars commentMarker (first :: rest) = ⟨first :: rest, []⟩)
    (whole : lexeme first rest = { tail := rest, kind }) (solid : kind.isTrivia = false) :
    IsToken (first :: rest) kind := by
  have lines : sourceLines commentMarker (String.ofList (first :: rest)) = [⟨first :: rest, []⟩] := by
    have line := splitOn_intercalate '\n' (forall_mem_singleton.mpr unbroken) (by simp)
    rw [intercalate_singleton] at line
    rw [sourceLines, splitBreaks_eq_splitOn, String.toList_ofList, line, map_singleton, uncommented]
  have scanned : scanAll commentMarker (String.ofList (first :: rest)) =
      singleToken (first :: rest) kind := by
    rw [scanAll_eq, lines, scanLines_last, scanLine, scanCode_cons, whole, drop_length, scanCode]
    simp [scanLexeme, scanComment, TokenStream.append, Place.behind, Place.afterComment, Place.after,
      singleToken]
  refine ⟨scanned, ?_, by rw [comments, lines]; rfl⟩
  rw [scan, scanned]
  have closing : TokenKind.endOfFile.isTrivia = false := rfl
  simp [TokenStream.withoutTrivia, singleToken, solid, Token.closing, closing]

/-- A string written between quotes of either kind is read as one string token with that string, and
behind a mark as one interpolated token, whatever characters it has: its comment markers start no
comment, the quotes in it do not close it, and nothing in it is an error. -/
theorem string_literals_read_back (opening : isQuote quote = true) :
    IsToken (quoted quote content) (.string (String.ofList (content.map Prod.fst))) ∧
    ∀ mark, isInterpolationMark mark = true →
      IsToken (mark :: quoted quote content) (.interpolated (String.ofList (content.map Prod.fst))) := by
  have one : quote = '"' ∨ quote = '\'' := by simpa [isQuote] using opening
  have visible : commentMarker ≠ quote := by rcases one with rfl | rfl <;> decide
  have unbroken : '\n' ∉ quoted quote content := by
    have inner := no_break_in_encoded content opening
    rcases one with rfl | rfl <;> simpa [quoted] using inner
  have outside := SourceLine.Quoting.isOutside_start
  have body := stringBody_encoded content opening
  refine ⟨isToken_of_lexeme unbroken (split_quoted content outside opening visible) ?_ rfl, fun mark
    marks => isToken_of_lexeme ?_ (split_code ?_ (split_quoted content (outside.read ?_) opening
    visible)) ?_ rfl⟩
  · rcases one with rfl | rfl <;> simp [lexeme, isGap, isInterpolationMark, isQuote, body, stringLexeme]
  all_goals
    obtain (rfl | rfl) | rfl : (mark = 'f' ∨ mark = 'F') ∨ mark = '$' := by
      simpa [isInterpolationMark] using marks
  all_goals first
    | rfl
    | simpa using unbroken
    | simp [lexeme, isGap, isInterpolationMark, opening, body, stringLexeme, quoted]

def mixedContent : List (Char × Bool) :=
  ['"', '\'', '\\', '#', 'é', '\n', '\t'].map (·, false) ++ [('\t', true)]

theorem mixedContent_reads_back :
    String.ofList (quoted '"' mixedContent) = "\"\\\"'\\\\#é\\n\t\\t\"" ∧
    IsToken (quoted '"' mixedContent) (.string "\"'\\#é\n\t\t") ∧
    IsToken ('f' :: quoted '"' mixedContent) (.interpolated "\"'\\#é\n\t\t") := by
  obtain ⟨plain, marked⟩ := @string_literals_read_back '"' mixedContent rfl
  exact ⟨by decide, plain, marked 'f' rfl⟩

end Stepper
