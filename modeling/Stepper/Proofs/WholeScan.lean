import Stepper.Proofs.Quoting

/-! # Scanning the whole text

The scanner goes over the text without its comments, with the comments in a queue, and gives the tokens
of the lines one after another. Both sides have cut the text on their own: the comments were found by a
reader that tells where strings open and close, and the scanner finds the strings again. They agree since
the scanner is never inside a string where a comment starts (`Quoting.IsOutside`); the spaces in the
comment's place then end every other lexeme, and the queue ends white space. -/

namespace Stepper

open List Text

variable {chars rest after : List Char}

namespace Scanner

/-! ### Lexemes in front of other text -/

lemma stringRest_eq (clear : '\n' ∉ chars)
    (ends : (stringBody quote chars).closed = false → ∀ c ∈ after.head?, c = '\n') :
    stringRest quote false (chars ++ after) = stringBody quote chars := by
  fun_induction stringBody quote chars with
  | case1 =>
    cases after with
    | nil => rfl
    | cons c => simp [stringRest, ends rfl c rfl]
  | case2 =>
    cases after with
    | nil => simp [stringRest]
    | cons c => simp [stringRest, ends rfl c rfl]
  | case3 c rest body ih =>
    simp only [mem_cons, not_or] at clear
    simp [stringRest, Ne.symm clear.2.1, ih clear.2.2 ends, body]
  | case4 rest alone escapes =>
    simp only [mem_cons, not_or] at clear
    simp [stringRest, Ne.symm clear.1, SourceLine.Quoting.ne_backslash alone escapes]
  | case5 c rest alone escapes other body ih =>
    simp only [mem_cons, not_or] at clear
    simp [stringRest, Ne.symm clear.1, SourceLine.Quoting.ne_backslash alone escapes, other,
      ih clear.2 ends, body]

lemma gap_eq (beyond : ∀ start ∈ stop, offset + byteLength rest ≤ start)
    (ends : stop = some (offset + byteLength rest) ∨ ∀ c ∈ after.head?, isGap c = false) :
    gap stop offset (rest ++ after) = rest.takeWhile isGap := by
  induction rest generalizing offset with
  | nil =>
    cases after with
    | nil => rfl
    | cons c =>
      obtain here | other := ends
      · simp [gap, here]
      · simp [gap, other c rfl]
  | cons c rest ih =>
    have apart : stop ≠ some offset := by
      rintro rfl
      have := beyond offset rfl
      have := byteLength_pos (cons_ne_nil c rest)
      omega
    rw [byteLength_cons, ← Nat.add_assoc] at beyond ends
    simp [gap, apart, takeWhile_cons, ih beyond ends]

lemma spanDigits_append (digits : ∀ c ∈ chars, Decimal.isDigit c = true)
    (ends : ∀ c ∈ after.head?, Decimal.isDigit c = false) :
    Decimal.spanDigits (chars ++ after) = (chars, after) := by
  have none : after.takeWhile Decimal.isDigit = [] ∧ after.dropWhile Decimal.isDigit = after := by
    cases after with
    | nil => exact ⟨rfl, rfl⟩
    | cons c => simp [ends c rfl]
  simp [Decimal.spanDigits, takeWhile_append_of_pos digits, dropWhile_append_of_pos digits, none]

lemma unsigned?_whole (filled : chars ≠ []) (digits : ∀ c ∈ chars, Decimal.isDigit c = true) :
    Decimal.unsigned? false chars = some (Decimal.ofDecimal false (Decimal.natural 0 chars) 0) := by
  have split : Decimal.spanDigits (chars ++ []) = (chars, []) := spanDigits_append digits (by simp)
  rw [append_nil] at split
  simp [Decimal.unsigned?, split, filled, Decimal.exponent?]

lemma unsigned?_fraction {fraction : List Char} (filled : chars ≠ [])
    (digits : ∀ c ∈ chars, Decimal.isDigit c = true)
    (behind : ∀ c ∈ fraction, Decimal.isDigit c = true) :
    Decimal.unsigned? false (chars ++ '.' :: fraction) = some (Decimal.ofDecimal false
      (Decimal.natural 0 (chars ++ fraction)) (-(fraction.length : Int))) := by
  have split : Decimal.spanDigits (chars ++ '.' :: fraction) = (chars, '.' :: fraction) :=
    spanDigits_append digits (by simp; decide)
  have rest : Decimal.spanDigits (fraction ++ []) = (fraction, []) := spanDigits_append behind (by simp)
  rw [append_nil] at rest
  simp [Decimal.unsigned?, split, rest, filled, Decimal.exponent?]

lemma read?_digit (digit : Decimal.isDigit first)
    (read : Decimal.unsigned? false (first :: rest) = some value) :
    Decimal.read? (String.ofList (first :: rest)) = some value := by
  have minus : first ≠ '-' := by rintro rfl; revert digit; decide
  have plus : first ≠ '+' := by rintro rfl; revert digit; decide
  unfold Decimal.read?
  rw [String.toList_ofList]
  split
  · next negative body shape =>
    have unsigned : (negative, body) = (false, first :: rest) := by
      rw [← shape]
      split <;> simp_all
    cases unsigned
    rw [read]
    rfl

lemma read?_number {whole fraction : List Char} (digits : ∀ c ∈ first :: whole, Decimal.isDigit c = true)
    (behind : ∀ c ∈ fraction, Decimal.isDigit c = true) :
    Decimal.read? (String.ofList
      (first :: if fraction.isEmpty then whole else whole ++ '.' :: fraction)) =
      some (Decimal.ofDecimal false (Decimal.natural 0 (first :: whole ++ fraction))
        (-(fraction.length : Int))) := by
  refine read?_digit (digits first mem_cons_self) ?_
  split
  · next empty =>
    rw [isEmpty_iff.mp empty, append_nil]
    exact unsigned?_whole (cons_ne_nil _ _) digits
  · exact unsigned?_fraction (cons_ne_nil _ _) digits behind

/-- The text of a number is a number. -/
lemma readNumber_eq (digit : Decimal.isDigit first) :
    readNumber first rest = numberLexeme first rest := by
  have digits : ∀ c ∈ first :: rest.takeWhile Decimal.isDigit, Decimal.isDigit c = true :=
    forall_mem_cons.mpr ⟨digit, of_takeWhile rest⟩
  have read := read?_number digits (digits_of_fraction (rest.dropWhile Decimal.isDigit))
  rw [numberLexeme_eq]
  unfold readNumber
  dsimp only [Decimal.spanDigits]
  split
  · next value found =>
    cases (found.symm.trans read : some value = _)
    rfl
  · next found => cases (found.symm.trans read : none = _)

section Token
variable (clear : '\n' ∉ first :: rest) (breaks : Breaks after)
  (quiet : (∃ state : SourceLine.Quoting, state.IsOutside ∧ (state.readAll (first :: rest)).quote = none) ∨
    ∀ c ∈ after.head?, c = '\n')

include clear quiet in
lemma stringRest_of_quiet (front) (split : first :: rest = front ++ quote :: chars)
    (plain : ∀ c ∈ front, isQuote c = false) (opening : isQuote quote) :
    stringRest quote false (chars ++ after) = stringBody quote chars := by
  rw [split, mem_append, mem_cons, not_or, not_or] at clear
  refine stringRest_eq clear.2.2 fun unclosed => ?_
  obtain ⟨state, outside, settled⟩ | line := quiet
  · have inside := (outside.readAll plain).opens opening
    rw [split, SourceLine.Quoting.readAll_append] at settled
    rw [closed_of_settled inside settled] at unclosed
    cases unclosed
  · exact line

include clear breaks quiet in
lemma token_eq (beyond : ∀ start ∈ stop, place.offset + byteLength (first :: rest) ≤ start)
    (ends : stop = some (place.offset + byteLength (first :: rest)) ∨
      ∀ c ∈ after.head?, isGap c = false) :
    token stop place first (rest ++ after) = lexeme first rest := by
  have solid : first ≠ '\n' := fun same => clear (same ▸ mem_cons_self)
  rw [byteLength_cons, ← Nat.add_assoc] at beyond ends
  unfold token lexeme opensTemplate
  rw [if_neg solid, quoted_break breaks]
  split
  · rw [gap_eq beyond ends]
  split
  · next quoted =>
    obtain ⟨mark, opening⟩ := Bool.and_eq_true_iff.mp quoted
    cases rest with
    | nil => cases opening
    | cons c others =>
      have same := stringRest_of_quiet clear quiet [first] rfl
        (forall_mem_singleton.mpr (isQuote_of_mark mark)) opening
      simp [same]
  split
  · next opening => rw [stringRest_of_quiet clear quiet [] rfl (forall_mem_nil _) opening]
  split
  · next digit => rw [readNumber_eq digit, numberLexeme_break first breaks rest]
  split
  · exact wordLexeme_break first breaks rest
  · exact signLexeme_break first breaks rest

/-- The error of a token is reported where the token is. -/
lemma errorSpan_eq (column : 0 < place.column) (further : place.offset < reached)
    (within : reached ≤ size) :
    errorSpan size reached (errorPlace place first (rest ++ after)) = place.span reached := by
  have same : errorPlace place first (rest ++ after) = place := by
    unfold errorPlace
    split
    · next opens =>
      have mark : isInterpolationMark first := (Bool.and_eq_true_iff.mp opens).1
      obtain rfl | rfl | rfl : first = 'f' ∨ first = 'F' ∨ first = '$' := by
        simpa [isInterpolationMark, or_assoc] using mark
      all_goals
        change Place.mk place.line (max (place.column + 1 - 1) 1) (place.offset + 1 - 1) = _
        rw [Nat.add_sub_cancel, Nat.add_sub_cancel, Nat.max_eq_left column]
    · rfl
  rw [same, errorSpan, Nat.max_eq_left further, Nat.min_eq_left (by omega)]

end Token

/-! ### One line after another -/

lemma due?_eq_none {comments : List Comment}
    (later : ∀ comment ∈ comments.head?, place.offset < comment.location.start) :
    due? comments place = none := by
  cases comments with
  | nil => rfl
  | cons comment => exact if_neg (Nat.ne_of_gt (later comment rfl))

/-- The code of a line, in front of its comment or its end. -/
lemma run_code {comments : List Comment} (clear : '\n' ∉ code)
    (breaks : Breaks after)
    (quiet : (∃ state : SourceLine.Quoting, state.IsOutside ∧ (state.readAll code).quote = none) ∨
      ∀ c ∈ after.head?, c = '\n')
    (beyond : ∀ comment ∈ comments.head?, place.offset + byteLength code ≤ comment.location.start)
    (ends : comments.head?.map (·.location.start) = some (place.offset + byteLength code) ∨
      ∀ c ∈ after.head?, isGap c = false)
    (column : 0 < place.column) (within : place.offset + byteLength code ≤ size) :
    run size comments place (code ++ after) =
      (scanCode place code).append (run size comments (place.after code) after) := by
  induction place, code using scanCode.induct with
  | case1 place => rw [scanCode]; rfl
  | case2 place first rest found next ih =>
    have starts : found.tail <+: rest := lexeme_starts first rest
    have parts : first :: rest = (first :: found.tail) ++ rest.drop found.tail.length := by
      rw [cons_append, lexeme_append_rest]
    have size_eq : byteLength (first :: rest) =
        byteLength (first :: found.tail) + byteLength (rest.drop found.tail.length) := by
      rw [← byteLength_append, ← parts]
    have filled : 0 < byteLength (first :: found.tail) := byteLength_pos (cons_ne_nil _ _)
    have same : token (comments.head?.map (·.location.start)) place first (rest ++ after) =
        lexeme first rest := token_eq clear breaks quiet (by simpa using beyond) ends
    have walk : place.walk (first :: found.tail) = next := by
      refine Place.walk_code (fun inside => clear ?_) place
      rw [parts]
      exact mem_append_left _ inside
    have reached : next.offset = place.offset + byteLength (first :: found.tail) := rfl
    rw [size_eq] at beyond ends within
    rw [← Nat.add_assoc, ← reached] at beyond ends within
    have further := ih ?_ ?_ beyond ends (Nat.lt_of_lt_of_le column (Nat.le_add_right _ _)) within
    · rw [cons_append, run, due?_eq_none fun comment front => by have := beyond comment front; omega]
      simp only [same]
      rw [show place.walk (first :: (lexeme first rest).tail) = next from walk,
        drop_append_of_le_length starts.length_le, further,
        errorSpan_eq column (by omega) (by omega), scanCode_cons]
      have arrives : next.after (rest.drop found.tail.length) = place.after (first :: rest) :=
        (Place.after_append place _ _).symm.trans (congrArg place.after parts.symm)
      rw [arrives]
      cases fault : (lexeme first rest).fault <;>
        simp [scanLexeme, TokenStream.append, fault, next, found]
    · rw [parts, mem_append, not_or] at clear
      exact clear.2
    · obtain ⟨state, outside, settled⟩ | line := quiet
      · refine .inl ⟨_, lexeme_outside outside settled, ?_⟩
        rw [← SourceLine.Quoting.readAll_append, ← parts]
        exact settled
      · exact .inr line

lemma skipTo_spaces (place) (count) (text) :
    skipTo (place.offset + count) place (replicate count ' ' ++ text) =
      ({ place with column := place.column + count, offset := place.offset + count }, text) := by
  induction count generalizing place with
  | zero =>
    cases text with
    | nil => rfl
    | cons c => exact if_neg (Nat.lt_irrefl _)
  | succ count ih =>
    have step : place.past ' ' = { place with column := place.column + 1, offset := place.offset + 1 } :=
      rfl
    have further := ih (place.past ' ')
    rw [step, Nat.add_assoc, Nat.add_assoc, Nat.add_comm 1 count] at further
    rw [replicate_succ, cons_append, skipTo, if_pos (by omega), step]
    exact further

/-- A line without its comment, in front of the end of the text or of the line. -/
lemma run_line {text : List Char} {later : List Comment} (clear : '\n' ∉ chars)
    (ends : ∀ c ∈ text.head?, c = '\n') {line : SourceLine}
    (own : line = .ofChars marker chars)
    (beyond : ∀ comment ∈ later.head?, offset + line.byteLength < comment.location.start)
    (within : offset + line.byteLength ≤ size) :
    run size (commentsFrom number offset [line] ++ later) ⟨number, 1, offset⟩ (line.blanked ++ text) =
      (scanLine ⟨number, 1, offset⟩ line).append
        (run size later (Place.behind ⟨number, 1, offset⟩ line) text) := by
  have whole : line.chars = chars := by rw [own, SourceLine.chars_ofChars]
  have unbroken : '\n' ∉ line.code := fun inside => clear (whole ▸ mem_append_left _ inside)
  let place : Place := ⟨number, 1, offset⟩
  have room : place.offset + byteLength line.code ≤ size := Nat.le_trans (by
    rw [SourceLine.byteLength]
    exact Nat.add_le_add_left (Nat.le_add_right _ _) _) within
  unfold SourceLine.blanked
  rw [append_assoc]
  by_cases bare : line.comment = []
  · have code : run size later place (line.code ++ text) = _ :=
      run_code unbroken (fun c front => .inr (ends c front)) (.inr ends)
        (fun comment front => by
          have := beyond comment front
          rw [SourceLine.byteLength] at this
          exact Nat.le_of_lt (Nat.lt_of_le_of_lt (Nat.add_le_add_left (Nat.le_add_right _ _) _) this))
        (.inr fun c front => by rw [ends c front]; rfl) Nat.one_pos room
    simpa [commentsFrom, bare, scanLine, scanComment, Place.behind, Place.afterComment,
      TokenStream.append] using code
  · obtain ⟨count, length⟩ : ∃ count, byteLength line.comment = count + 1 :=
      Nat.exists_eq_add_one.mpr (byteLength_pos bare)
    let comment : Comment :=
      { text := String.ofList line.comment
        location := ⟨number, line.code.length + 1, offset + byteLength line.code, offset + line.byteLength⟩ }
    have queue : commentsFrom number offset [line] ++ later = comment :: later := by
      simp [commentsFrom, bare, comment]
    have settled : (SourceLine.Quoting.readAll {} line.code).quote = none := by
      rw [own] at bare ⊢
      exact SourceLine.settled_of_comment bare
    have code : run size (comment :: later) place
        (line.code ++ (replicate (byteLength line.comment) ' ' ++ text)) = _ :=
      run_code unbroken (by rw [length]; exact fun c front => .inl (Option.some.inj front).symm)
        (.inl ⟨{}, SourceLine.Quoting.isOutside_start, settled⟩)
        (fun first front => by cases front; exact Nat.le_refl _) (.inl rfl) Nat.one_pos room
    have skipped := skipTo_spaces (place.after line.code) (byteLength line.comment) text
    rw [queue, code, scanLine]
    rw [length, replicate_succ, cons_append] at skipped ⊢
    have due : due? (comment :: later) (place.after line.code) = some (comment, later) := if_pos rfl
    have stop : comment.location.stop = (place.after line.code).offset + (count + 1) := by
      rw [← length]
      exact (Nat.add_assoc _ _ _).symm
    have behind : place.behind line = ⟨(place.after line.code).line,
        (place.after line.code).column + (count + 1), (place.after line.code).offset + (count + 1)⟩ := by
      rw [Place.behind, Place.afterComment, length]
    have scanned : scanComment (place.after line.code) line.comment =
        { tokens := [⟨.comment comment.text, comment.text, comment.location⟩] } := by
      simp [scanComment, bare, Place.after, Place.span, comment, place, SourceLine.byteLength,
        Nat.add_comm 1, Nat.add_assoc]
    rw [run, due]
    simp only [stop, skipped]
    rw [behind, scanned]
    simp [TokenStream.append]
    exact ⟨rfl, rfl⟩

lemma start_of_mem_commentsFrom {lines : List SourceLine} {comment : Comment}
    (mem : comment ∈ commentsFrom number offset lines) : offset ≤ comment.location.start := by
  induction lines generalizing number offset with
  | nil => cases mem
  | cons line rest ih =>
    rw [commentsFrom_cons, mem_append] at mem
    obtain own | later := mem
    · simp only [commentsFrom] at own
      split at own
      · cases own
      · rw [mem_singleton.mp own]
        exact Nat.le_add_right _ _
    · have := ih later
      omega

/-- The end of a line, which has no token but its own. -/
lemma run_break {later : List Comment}
    (beyond : ∀ comment ∈ later.head?, place.offset < comment.location.start) :
    run size later place ('\n' :: text) =
      TokenStream.append { tokens := [.lineBreak place] } (run size later place.nextLine text) := by
  rw [run, due?_eq_none beyond]
  rfl

lemma run_lines {lines : List (List Char)} (number offset)
    (clear : ∀ chars ∈ lines, '\n' ∉ chars) (some : lines ≠ [])
    (within : offset + byteLength (['\n'].intercalate
      ((lines.map (SourceLine.ofChars marker)).map SourceLine.blanked)) ≤ size) :
    run size (commentsFrom number offset (lines.map (SourceLine.ofChars marker))) ⟨number, 1, offset⟩
        (['\n'].intercalate ((lines.map (SourceLine.ofChars marker)).map SourceLine.blanked)) =
      scanLines ⟨number, 1, offset⟩ (lines.map (SourceLine.ofChars marker)) := by
  induction lines generalizing number offset with
  | nil => exact absurd rfl some
  | cons chars rest ih =>
    obtain ⟨own, others⟩ := forall_mem_cons.mp clear
    cases rest with
    | nil =>
      have line : run size (commentsFrom number offset [.ofChars marker chars] ++ []) ⟨number, 1, offset⟩
          ((SourceLine.ofChars marker chars).blanked ++ []) = _ :=
        run_line own (by simp) rfl (by simp) (by
          rw [← SourceLine.byteLength_chars, ← SourceLine.byteLength_blanked]
          simpa using within)
      rw [append_nil, append_nil, run] at line
      simpa [scanLines_last, Token.closing] using line
    | cons next more =>
      let line : SourceLine := .ofChars marker chars
      have joined : ['\n'].intercalate (((chars :: next :: more).map (SourceLine.ofChars marker)).map
          SourceLine.blanked) = line.blanked ++ '\n' :: ['\n'].intercalate
            (((next :: more).map (SourceLine.ofChars marker)).map SourceLine.blanked) := by
        simp [intercalate_cons_cons, line]
      have breakByte : '\n'.utf8Size = 1 := rfl
      rw [joined, byteLength_append, line.byteLength_blanked, line.byteLength_chars,
        byteLength_cons, breakByte] at within
      have beyond : ∀ comment ∈ (commentsFrom (number + 1) (offset + line.byteLength + 1)
          ((next :: more).map (SourceLine.ofChars marker))).head?,
          offset + line.byteLength < comment.location.start :=
        fun comment front => start_of_mem_commentsFrom (mem_of_mem_head? front)
      have later := ih (number + 1) _ others (cons_ne_nil _ _) (by
        rw [Nat.add_assoc, Nat.add_assoc]
        exact within)
      have behind : (Place.behind ⟨number, 1, offset⟩ line).offset = offset + line.byteLength := by
        rw [Place.behind_offset, line.byteLength_chars]
      rw [joined, map_cons, commentsFrom_cons]
      have room : offset + line.byteLength ≤ size := by omega
      refine (run_line own (by simp) rfl beyond room).trans ?_
      rw [run_break (by rw [behind]; exact beyond), Place.nextLine_behind, later, map_cons,
        scanLines_next, Place.nextLine_behind]

end Scanner

/-- The scanner gives the tokens of the lines of a text, one line after another. -/
lemma scanAll_eq (marker) (source) :
    scanAll marker source = scanLines ⟨1, 1, 0⟩ (sourceLines marker source) := by
  unfold scanAll blankedText comments sourceLines
  dsimp only
  rw [String.toList_ofList]
  refine Scanner.run_lines 1 0 (fun chars mem => not_mem_of_mem_splitBreaks not_mem_nil mem) ?_ ?_
  · simp [splitBreaks_eq_splitOn]
  · rw [utf8ByteSize_ofList, Nat.zero_add]

lemma scan_eq (source) : scan source =
    (scanLines ⟨1, 1, 0⟩ (sourceLines commentMarker source)).withoutTrivia := by
  rw [scan, scanAll_eq]

end Stepper
