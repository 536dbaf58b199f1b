import Stepper.Analysis
import Stepper.Proofs.Quoting
import Stepper.Proofs.Tiling

/-! # Blanked texts -/

namespace Stepper

open List SourceLine

namespace SourceLine

def withoutComment (line : SourceLine) : SourceLine := ⟨line.blanked, []⟩

section Marker
variable (visible : marker ≠ ' ')
include visible

lemma split_spaces (state) (count) :
    split marker state (replicate count ' ') = ⟨replicate count ' ', []⟩ := by
  induction count generalizing state with
  | zero => rfl
  | succ _ ih =>
    have plain : state.startsComment marker ' ' = false := by
      simp [Quoting.startsComment, Ne.symm visible]
    simp [replicate_succ, split, plain, ih]

lemma split_code_spaces (state) (chars) (count) : split marker state
    ((split marker state chars).code ++ replicate count ' ') =
    ⟨(split marker state chars).code ++ replicate count ' ', []⟩ := by
  induction chars generalizing state with
  | nil => exact split_spaces visible state count
  | cons c _ ih =>
    by_cases starts : state.startsComment marker c = true
    · simpa [split, starts] using split_spaces visible state count
    · simp [split, starts, ih]

lemma ofChars_blanked (chars) :
    ofChars marker (ofChars marker chars).blanked = (ofChars marker chars).withoutComment :=
  split_code_spaces visible {} chars _

end Marker

@[simp]
lemma blanked_withoutComment (line : SourceLine) : line.withoutComment.blanked = line.blanked :=
  append_nil _

lemma no_break_in_blanked {line : SourceLine} (clear : '\n' ∉ line.chars) : '\n' ∉ line.blanked := by
  simp only [chars, mem_append, not_or] at clear
  simp [blanked, clear.1]

end SourceLine

/-! ### Lines of the blanked text -/

section Text
variable (source : String)

lemma blankedText_toList :
    (blankedText marker source).toList = ['\n'].intercalate ((sourceLines marker source).map blanked) :=
  String.toList_ofList

lemma sourceLines_blankedText (visible : marker ≠ ' ') : sourceLines marker
    (blankedText marker source) = (sourceLines marker source).map withoutComment := by
  have clear : ∀ line ∈ (sourceLines marker source).map blanked, '\n' ∉ line := by
    refine forall_mem_map.mpr fun line mem => ?_
    exact no_break_in_blanked (no_break_in_sourceLine marker source mem)
  have some : (sourceLines marker source).map blanked ≠ [] :=
    mt map_eq_nil_iff.mp (sourceLines_ne_nil marker source)
  rw [sourceLines, splitBreaks_eq_splitOn, blankedText_toList, splitOn_intercalate '\n' clear some,
    sourceLines, map_map, map_map, map_map]
  exact map_congr_left fun chars _ => ofChars_blanked visible chars

lemma comments_withoutComment (number offset) (lines : List SourceLine) : commentsFrom number
    offset (lines.map withoutComment) = [] := by
  induction lines generalizing number offset with
  | nil => rfl
  | cons _ _ ih => exact ih _ _

lemma comments_blankedText (visible : marker ≠ ' ') :
    comments marker (blankedText marker source) = [] := by
  rw [comments, sourceLines_blankedText source visible, comments_withoutComment]

lemma blankedText_blankedText (visible : marker ≠ ' ') :
    blankedText marker (blankedText marker source) = blankedText marker source := by
  rw [blankedText, sourceLines_blankedText source visible, map_map]
  simp only [Function.comp_def, blanked_withoutComment]
  rfl

end Text

/-! ### Tokens of the blanked text -/

lemma Place.behind_withoutComment (place : Place) (line) :
    place.behind line.withoutComment = place.behind line := by
  simp [behind, after, afterComment, withoutComment, blanked, Nat.add_assoc]

lemma scanComment_withoutTrivia (place) (comment) : (scanComment place comment).withoutTrivia = {} := by
  unfold scanComment
  split <;> rfl

lemma scanLine_withoutComment (marker) (place) (chars) :
    (scanLine place (ofChars marker chars).withoutComment).withoutTrivia =
    (scanLine place (ofChars marker chars)).withoutTrivia := by
  simp only [scanLine, TokenStream.append_withoutTrivia, scanComment_withoutTrivia]
  congr 1
  by_cases plain : (ofChars marker chars).comment = []
  · simp [withoutComment, blanked, plain]
  · exact scanCode_spaces SourceLine.Quoting.isOutside_start place (settled_of_comment plain) _

lemma scanLines_withoutComment (place) (lines : List (List Char)) : (scanLines place
    ((lines.map (ofChars marker)).map withoutComment)).withoutTrivia = (scanLines place (lines.map
    (ofChars marker))).withoutTrivia := by
  induction lines generalizing place with
  | nil => rfl
  | cons line rest ih =>
    cases rest with
    | nil =>
      simp only [map_cons, map_nil, scanLines_last, TokenStream.append_withoutTrivia,
        scanLine_withoutComment, Place.behind_withoutComment]
    | cons =>
      have others := ih
        (place.behind (ofChars marker line)).nextLine
      simp only [map_cons, scanLines_next, TokenStream.append_withoutTrivia,
        scanLine_withoutComment, Place.behind_withoutComment] at others ⊢
      rw [others]

lemma scan_blankedText (source : String) : scan (blankedText commentMarker source) = scan source := by
  rw [scan_eq, scan_eq, sourceLines_blankedText source (by decide)]
  exact scanLines_withoutComment _ _

/-! ### Bytes of the blanked text -/

namespace Text

def bytes (chars : List Char) : List UInt8 := chars.flatMap String.utf8EncodeChar

lemma bytes_append (front back) : bytes (front ++ back) = bytes front ++ bytes back :=
  flatMap_append

lemma length_bytes (chars) : (bytes chars).length = byteLength chars := by
  induction chars with
  | nil => rfl
  | cons c chars ih =>
    have first : bytes (c :: chars) = String.utf8EncodeChar c ++ bytes chars := flatMap_cons
    rw [first, length_append, String.length_utf8EncodeChar, ih, byteLength_cons]

lemma bytes_spaces (count) : bytes (replicate count ' ') = replicate count ' '.toUInt8 := by
  induction count with
  | zero => rfl
  | succ _ ih =>
    rw [replicate_succ, replicate_succ, ← ih]
    rfl

lemma byte_of_text (text : String) (i : Nat) : text.toByteArray.data[i]? = (bytes text.toList)[i]? := by
  rw [← String.utf8Encode_toList, ← Array.getElem?_toList]
  exact congrArg (·[i]?) toList_data_toByteArray

end Text

/-- Whether the byte at an offset belongs to a comment. -/
def Covered (comments : List Comment) (offset : Nat) : Prop :=
  ∃ comment ∈ comments, comment.location.start ≤ offset ∧ offset < comment.location.stop

instance (comments : List Comment) (offset : Nat) : Decidable (Covered comments offset) :=
  inferInstanceAs (Decidable (∃ comment ∈ comments, _ ∧ _))

lemma covered_append : Covered (front ++ back) offset ↔ Covered front offset ∨ Covered back offset := by
  simp [Covered, or_and_right, exists_or]

lemma covered_own (number offset) (line) (place) : Covered (commentsFrom number offset [line]) place ↔
    offset + Text.byteLength line.code ≤ place ∧ place < offset + line.byteLength := by
  simp only [commentsFrom]
  split
  · next empty => simp [Covered, byteLength, isEmpty_iff.mp empty]
  · simp [Covered]

lemma not_covered_early (number) (lines) (early : place < offset) :
    ¬ Covered (commentsFrom number offset lines) place := by
  induction lines generalizing number offset with
  | nil => rintro ⟨_, ⟨⟩, _⟩
  | cons _ _ ih =>
    rw [commentsFrom_cons, covered_append, covered_own]
    rintro (⟨_, -⟩ | behind)
    · omega
    · exact ih _ (by omega) behind

lemma byte_of_blanked (line : SourceLine) (i) : (Text.bytes line.blanked)[i]? = if Text.byteLength
    line.code ≤ i ∧ i < line.byteLength then some ' '.toUInt8 else (Text.bytes line.chars)[i]? := by
  simp only [blanked, chars, byteLength, Text.bytes_append,
    Text.bytes_spaces, getElem?_append, Text.length_bytes, getElem?_replicate]
  by_cases code : i < Text.byteLength line.code
  · simp [code]
  · by_cases inside : i < Text.byteLength line.code + Text.byteLength line.comment
    · have spaced : i - Text.byteLength line.code < Text.byteLength line.comment := by omega
      simp [code, inside, spaced, Nat.le_of_not_lt code]
    · have beyond : Text.byteLength line.comment ≤ i - Text.byteLength line.code := by omega
      have none : (Text.bytes line.comment)[i - Text.byteLength line.code]? = none :=
        getElem?_eq_none (Text.length_bytes line.comment ▸ beyond)
      simp [code, inside, Nat.not_lt.mpr beyond, none]

lemma Text.byte_of_line (front rest) (i) : (bytes (front ++ (['\n'] ++ rest)))[i]? = if i < byteLength
    front then (bytes front)[i]? else if i = byteLength front then some '\n'.toUInt8 else
    (bytes rest)[i - byteLength front - 1]? := by
  have lineBreak : bytes (['\n'] ++ rest) = '\n'.toUInt8 :: bytes rest := rfl
  rw [bytes_append, getElem?_append, length_bytes, lineBreak, getElem?_cons]
  by_cases before : i < byteLength front
  · simp only [if_pos before]
  · simp only [if_neg before]
    congr 1
    exact propext (by omega)

lemma byte_of_blanked_lines (number offset : Nat) (lines : List SourceLine) (i) :
    (Text.bytes (['\n'].intercalate (lines.map blanked)))[i]? = if Covered
    (commentsFrom number offset lines) (offset + i) then some ' '.toUInt8 else
    (Text.bytes (['\n'].intercalate (lines.map chars)))[i]? := by
  induction lines generalizing number offset i with
  | nil => rfl
  | cons line rest ih =>
    have own : Covered (commentsFrom number offset [line]) (offset + i) ↔
        Text.byteLength line.code ≤ i ∧ i < line.byteLength := by
      rw [covered_own, Nat.add_le_add_iff_left, Nat.add_lt_add_iff_left]
    cases rest with
    | nil =>
      simp only [map_cons, map_nil, intercalate_singleton, own]
      exact byte_of_blanked line i
    | cons next more =>
      simp only [map_cons, intercalate_cons_cons, append_assoc] at ih ⊢
      rw [Text.byte_of_line, Text.byte_of_line, byteLength_blanked, byteLength_chars, commentsFrom_cons]
      simp only [covered_append, own]
      obtain inside | rfl | beyond := Nat.lt_trichotomy i line.byteLength
      · have early := not_covered_early (number + 1) (next :: more)
          (show offset + i < offset + line.byteLength + 1 by omega)
        simp [inside, early, byte_of_blanked]
      · have early := not_covered_early (number + 1) (next :: more)
          (Nat.lt_add_one (offset + line.byteLength))
        simp [early]
      · have place : offset + line.byteLength + 1 + (i - line.byteLength - 1) = offset + i := by omega
        have apart : ¬ i < line.byteLength := by omega
        have later : i ≠ line.byteLength := by omega
        simp [apart, later, ih (number + 1) (offset + line.byteLength + 1), place]

lemma byteLength_joined_blanked (lines : List SourceLine) : Text.byteLength
    (['\n'].intercalate (lines.map blanked)) = Text.byteLength
    (['\n'].intercalate (lines.map chars)) := by
  induction lines with
  | nil => rfl
  | cons line rest ih =>
    cases rest with
    | nil => simpa using line.byteLength_blanked
    | cons =>
      simp only [map_cons, intercalate_cons_cons, Text.byteLength_append,
        line.byteLength_blanked] at ih ⊢
      rw [ih]

/-- Comments are invisible: blanking keeps the length of a text, changes nothing but the bytes of its
comments, which become spaces, leaves nothing to blank, and neither tokens nor program nor
diagnostics depend on it. -/
theorem blanking_is_invisible (source : String) :
    let blanked := blankedText commentMarker source
    blanked.utf8ByteSize = source.utf8ByteSize ∧
      (∀ i, blanked.toByteArray.data[i]? =
        if Covered (comments commentMarker source) i then some ' '.toUInt8
        else source.toByteArray.data[i]?) ∧
      blankedText commentMarker blanked = blanked ∧ comments commentMarker blanked = [] ∧
      analyze blanked = analyze source := by
  have visible : commentMarker ≠ ' ' := by decide
  refine ⟨?_, ?_, blankedText_blankedText source visible, comments_blankedText source visible, ?_⟩
  · rw [← Text.byteLength_toList, ← Text.byteLength_toList, blankedText_toList,
      ← joined_sourceLines commentMarker source, byteLength_joined_blanked]
  · intro i
    rw [Text.byte_of_text, Text.byte_of_text, blankedText_toList,
      ← joined_sourceLines commentMarker source]
    have byte := byte_of_blanked_lines 1 0 (sourceLines commentMarker source) i
    rwa [Nat.zero_add] at byte
  · rw [analyze, analyze, analyzeUnit, analyzeUnit, scan_blankedText]

end Stepper
