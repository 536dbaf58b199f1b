import Stepper.Proofs.Blanking

/-! # Lexemes set apart by single spaces -/

namespace Stepper

open List TokenStream Decimal

/-- A source text with the lexemes of its tokens set apart by single spaces. -/
def respaced (source : String) : String :=
  String.ofList ([' '].intercalate ((scan source).tokens.map fun token => token.lexeme.toList))

/-! ### A lexeme before a space -/

section
lemma takeWhile_run (all : ∀ c ∈ run, p c = true) (stops : p stop = false) (more) :
    (run ++ stop :: more).takeWhile p = run := by
  rw [takeWhile_append_of_pos all, takeWhile_cons_of_neg (by simp [stops]), append_nil]

lemma dropWhile_run (all : ∀ c ∈ run, p c = true) (stops : p stop = false) (more) :
    (run ++ stop :: more).dropWhile p = stop :: more := by
  rw [dropWhile_append_of_pos all, dropWhile_cons_of_neg (by simp [stops])]

lemma numberLexeme_again (first) (rest more) :
    numberLexeme first ((numberLexeme first rest).tail ++ ' ' :: more) = numberLexeme first rest := by
  have space : isDigit ' ' = false := by decide
  have point : isDigit '.' = false := by decide
  have whole := of_takeWhile (p := isDigit) rest
  have digits := digits_of_fraction (rest.dropWhile isDigit)
  simp only [numberLexeme_eq]
  generalize fractionDigits (rest.dropWhile isDigit) = fraction at digits ⊢
  cases fraction with
  | nil =>
    simp [takeWhile_run whole space, dropWhile_run whole space, fractionDigits]
  | cons digit others =>
    simp only [isEmpty_cons, Bool.false_eq_true, if_false, append_assoc, cons_append]
    rw [takeWhile_run whole point, dropWhile_run whole point]
    have again := takeWhile_run digits space more
    rw [cons_append] at again
    simp only [fractionDigits, again]
    rfl

lemma wordLexeme_again (first) (rest more) :
    wordLexeme first ((wordLexeme first rest).tail ++ ' ' :: more) = wordLexeme first rest := by
  simp only [wordLexeme, takeWhile_run (of_takeWhile rest) (show Text.isNamePart ' ' = false by decide)]

lemma signLexeme_again (first) (rest more) :
    signLexeme first ((signLexeme first rest).tail ++ ' ' :: more) = signLexeme first rest := by
  have alone : doubleSign? first ' ' = none := by
    unfold doubleSign?
    split <;> simp_all
  cases double : rest.head?.bind (doubleSign? first) with
  | some sign =>
    obtain ⟨second, head, pair⟩ := Option.bind_eq_some_iff.mp double
    obtain ⟨_, rfl⟩ := head?_eq_some_iff.mp head
    simp [signLexeme, pair]
  | none =>
    simp only [signLexeme, double]
    cases singleSign? first <;> simp [alone]

lemma closed_of_clean (clean : (stringLexeme opening body kind).fault = none) : body.closed := by
  unfold stringLexeme at clean
  split at clean
  · assumption
  · cases clean

/-- A lexeme that is cut off before a space is the same again. -/
lemma lexeme_again (solid : isGap first = false) (clean : (lexeme first rest).fault = none) (more) :
    lexeme first ((lexeme first rest).tail ++ ' ' :: more) = lexeme first rest := by
  have starts := lexeme_starts first rest
  by_cases marked : (isInterpolationMark first && (rest.head?.map isQuote).getD false) = true
  · obtain ⟨mark, opening⟩ := Bool.and_eq_true_iff.mp marked
    cases rest with
    | nil => cases opening
    | cons quote rest =>
      have found : lexeme first (quote :: rest) =
          stringLexeme [quote] (stringBody quote rest) .interpolated := by
        rw [lexeme, solid, if_neg Bool.false_ne_true, if_pos marked]
        rfl
      rw [found] at clean ⊢
      rw [stringLexeme_tail, lexeme, solid, if_neg Bool.false_ne_true, if_pos (by simp_all)]
      simp [stringBody_again (closed_of_clean clean)]
  · -- Behind the same first character no quote has come that was not there before.
    have unmarked : ¬(isInterpolationMark first &&
        (((lexeme first rest).tail ++ ' ' :: more).head?.map isQuote).getD false) = true := by
      cases tail : (lexeme first rest).tail with
      | nil =>
        have space : isQuote ' ' = false := by decide
        simp [space]
      | cons c others =>
        obtain ⟨_, same⟩ := tail ▸ starts
        simpa [← same] using marked
    have plain {chars : List Char}
        (other : ¬(isInterpolationMark first && (chars.head?.map isQuote).getD false) = true) :
        lexeme first chars = if isQuote first then stringLexeme [] (stringBody first chars) .string
          else if isDigit first then numberLexeme first chars
          else if Text.isNameStart first then wordLexeme first chars else signLexeme first chars := by
      rw [lexeme, solid, if_neg Bool.false_ne_true, if_neg other]
    rw [plain unmarked]
    rw [plain marked] at clean ⊢
    split
    · next opening =>
      rw [if_pos opening] at clean
      rw [stringLexeme_tail, nil_append, stringBody_again (closed_of_clean clean)]
    split
    · exact numberLexeme_again first rest more
    split
    · exact wordLexeme_again first rest more
    · exact signLexeme_again first rest more

end

/-! ### What a lexeme is made of -/

section Words
/-- Whether no character of a text starts a comment. -/
def IsQuiet (state : SourceLine.Quoting) : List Char → Prop
  | [] => True
  | c :: rest => state.startsComment commentMarker c = false ∧ IsQuiet (state.read c) rest

lemma split_of_quiet (quiet : IsQuiet state chars) (more) : SourceLine.split commentMarker state
    (chars ++ more) = ⟨chars ++ (SourceLine.split commentMarker (state.readAll chars) more).code,
      (SourceLine.split commentMarker (state.readAll chars) more).comment⟩ := by
  induction chars generalizing state with
  | nil => rfl
  | cons c rest ih => simp [SourceLine.split, quiet.1, ih quiet.2, SourceLine.Quoting.readAll]

lemma quiet_of_plain (plain : ∀ c ∈ chars, isPlain c = true) : IsQuiet state chars := by
  induction chars generalizing state with
  | nil => trivial
  | cons c rest ih =>
    obtain ⟨here, others⟩ := forall_mem_cons.mp plain
    refine ⟨?_, ih others⟩
    have other : c ≠ commentMarker := by simpa using (Bool.and_eq_true_iff.mp here).2
    simp [SourceLine.Quoting.startsComment, other]

lemma quiet_of_body (inside : state.IsInside quote) (closed : (stringBody quote chars).closed) :
    IsQuiet state (stringBody quote chars).consumed := by
  have silent {state : SourceLine.Quoting} (inside : state.quote = some quote) (c) :
      state.startsComment commentMarker c = false := by
    simp [SourceLine.Quoting.startsComment, inside]
  fun_induction stringBody quote chars generalizing state with
  | case1 | case2 => cases closed
  | @case3 c _ _ ih =>
    refine ⟨silent inside.1 _, silent ?_ c, ih (inside.escape c) closed⟩
    simp [SourceLine.Quoting.read, inside.1, inside.2]
  | case4 => exact ⟨silent inside.1 _, trivial⟩
  | @case5 _ _ alone escapes other _ ih =>
    exact ⟨silent inside.1 _,
      ih (inside.read (SourceLine.Quoting.ne_backslash alone escapes) other) closed⟩

lemma isPlain_of_clean_sign (clean : (signLexeme first rest).fault = none) : isPlain first := by
  unfold signLexeme at clean
  split at clean
  · next double =>
    obtain ⟨second, -, pair⟩ := Option.bind_eq_some_iff.mp double
    exact (isPlain_of_doubleSign pair).1
  · split at clean
    · next single =>
      unfold singleSign? at single
      split at single
      all_goals first | decide | cases single
    · cases clean

/-- A text that is read as one token of a kind, wherever it stands before a space. -/
structure IsWord (text : List Char) (kind : TokenKind) : Prop where
  reads : ∃ first tail, text = first :: tail ∧ isGap first = false ∧
    ∀ more, lexeme first (tail ++ ' ' :: more) = { tail, kind }
  unbroken : '\n' ∉ text
  solid : kind.isTrivia = false
  quiet {state : SourceLine.Quoting} : state.IsOutside →
    IsQuiet state text ∧ (state.readAll text).IsOutside

lemma quiet_lexeme (solid : isGap first = false) (clean : (lexeme first rest).fault = none)
    (outside : state.IsOutside) : IsQuiet state (first :: (lexeme first rest).tail) ∧
    (state.readAll (first :: (lexeme first rest).tail)).IsOutside := by
  have plain {tail : List Char} (all : ∀ c ∈ first :: tail, isPlain c = true) :
      IsQuiet state (first :: tail) ∧ (state.readAll (first :: tail)).IsOutside :=
    ⟨quiet_of_plain all, outside.readAll fun c mem => isQuote_of_isPlain (all c mem)⟩
  have body {state : SourceLine.Quoting} {quote : Char} {chars : List Char} (outside : state.IsOutside)
      (opening : isQuote quote = true) (closed : (stringBody quote chars).closed = true) :
      IsQuiet state (quote :: (stringBody quote chars).consumed) ∧
        (state.readAll (quote :: (stringBody quote chars).consumed)).IsOutside := by
    refine ⟨⟨?_, quiet_of_body (outside.opens opening) closed⟩, (outside.opens opening).closed closed⟩
    have other : quote ≠ commentMarker := by
      rintro rfl
      cases opening
    simp [SourceLine.Quoting.startsComment, other]
  unfold lexeme at clean ⊢
  rw [solid, if_neg Bool.false_ne_true] at clean ⊢
  split
  · next marked =>
    rw [if_pos marked] at clean
    obtain ⟨mark, opening⟩ := Bool.and_eq_true_iff.mp marked
    cases rest with
    | nil => cases opening
    | cons quote rest =>
      obtain ⟨quiet, after⟩ := body (outside.read (isQuote_of_mark mark)) opening (closed_of_clean clean)
      rw [stringLexeme_tail]
      refine ⟨⟨?_, quiet⟩, after⟩
      have other : first ≠ commentMarker := by
        rintro rfl
        cases mark
      simp [SourceLine.Quoting.startsComment, other]
  next unmarked =>
  rw [if_neg unmarked] at clean
  split
  · next opening =>
    rw [if_pos opening] at clean
    rw [stringLexeme_tail]
    exact body outside opening (closed_of_clean clean)
  next unquoted =>
  rw [if_neg unquoted] at clean
  split
  · next digit =>
    exact plain (forall_mem_cons.mpr
      ⟨isPlain_of_class (by decide) (by decide) digit, isPlain_of_number first rest⟩)
  next undigit =>
  rw [if_neg undigit] at clean
  split
  · next start =>
    exact plain (forall_mem_cons.mpr
      ⟨isPlain_of_class (p := Text.isNameStart) (by decide) (by decide) start,
        isPlain_of_takeWhile (p := Text.isNamePart) (by decide) (by decide) rest⟩)
  · next other =>
    rw [if_neg other] at clean
    exact plain (forall_mem_cons.mpr ⟨isPlain_of_clean_sign clean, isPlain_of_sign first rest⟩)

lemma words_of_code (place) (clean : (scanCode place code).errors = []) (unbroken : '\n' ∉ code) :
    ∀ token ∈ (scanCode place code).withoutTrivia.tokens, IsWord token.lexeme.toList token.kind := by
  induction place, code using scanCode.induct with
  | case1 => simp [scanCode, withoutTrivia]
  | @case2 place first rest found _ ih =>
    rw [scanCode_cons] at clean ⊢
    rw [append_withoutTrivia]
    obtain ⟨here, onward⟩ := append_eq_nil_iff.mp clean
    have parts := lexeme_append_rest first rest
    refine forall_mem_append.mpr ⟨fun token mem => ?_, ih onward fun broken => ?_⟩
    · obtain ⟨single, solid⟩ := mem_filter.mp mem
      obtain rfl := mem_singleton.mp single
      have sound : (lexeme first rest).fault = none := by
        cases fault : (lexeme first rest).fault with
        | none => rfl
        | some => simp [scanLexeme, fault] at here
      have nongap : isGap first = false := by
        rw [← Bool.not_eq_true]
        intro gap
        simp [lexeme, gap, TokenKind.isTrivia] at solid
      refine ⟨⟨first, (lexeme first rest).tail, String.toList_ofList, nongap, fun more => ?_⟩, ?_,
        by simpa using solid, fun outside => ?_⟩
      · rw [lexeme_again nongap sound, ← sound]
      · rw [String.toList_ofList]
        intro broken
        rw [← parts] at unbroken
        exact unbroken (mem_cons.mpr ((mem_cons.mp broken).imp_right (mem_append_left _)))
      · rw [String.toList_ofList]
        exact quiet_lexeme nongap sound outside
    · rw [← parts] at unbroken
      exact unbroken (mem_cons_of_mem _ (mem_append_right _ broken))

end Words

/-! ### Lines of words -/

section Lines
/-- Words on one line, each with a space behind it. -/
def spread (words : List (List Char × TokenKind)) : List Char := words.flatMap fun word => word.1 ++ [' ']

/-- Words with what separates the lines of a source text and what ends it. -/
def layout : List (List (List Char × TokenKind)) → List (List Char × TokenKind)
  | [] => [([], .endOfFile)]
  | [words] => words ++ [([], .endOfFile)]
  | words :: others => words ++ (['\n'], .newline) :: layout others

/-- A line that is read as words, and only as these. -/
structure Carries (line : List Char) (words : List (List Char × TokenKind)) : Prop where
  kinds (place : Place) :
    (scanCode place line).withoutTrivia.tokens.map Token.kind = words.map Prod.snd
  clean (place : Place) : (scanCode place line).errors = []
  uncommented {state : SourceLine.Quoting} : state.IsOutside →
    SourceLine.split commentMarker state line = ⟨line, []⟩
  unbroken : '\n' ∉ line

lemma Carries.behind_space (carries : Carries line words) (starts : line.takeWhile isGap = []) :
    Carries (' ' :: line) words := by
  have gap : lexeme ' ' line = { tail := [], kind := .whitespace } := by
    have space : isGap ' ' := by decide
    rw [lexeme, if_pos space, starts]
  have scanned (place) : scanCode place (' ' :: line) =
      (scanLexeme place ' ' { tail := [], kind := .whitespace }).append
        (scanCode (place.after [' ']) line) := by
    rw [scanCode_cons, gap]
    rfl
  refine ⟨fun place => ?_, fun place => ?_, fun outside => ?_, by simpa using carries.unbroken⟩
  · rw [scanned, append_withoutTrivia]
    exact carries.kinds _
  · rw [scanned]
    exact carries.clean _
  · have space : isQuote ' ' = false := by decide
    have other : ' ' ≠ commentMarker := by decide
    simp [SourceLine.split, SourceLine.Quoting.startsComment, other,
      carries.uncommented (outside.read space)]

lemma Carries.behind_word (word : IsWord text kind) (carries : Carries (' ' :: line) words) :
    Carries (text ++ ' ' :: line) ((text, kind) :: words) := by
  obtain ⟨first, tail, rfl, solid, reads⟩ := word.reads
  have scanned (place) : scanCode place (first :: tail ++ ' ' :: line) =
      (scanLexeme place first { tail, kind }).append
        (scanCode (place.after (first :: tail)) (' ' :: line)) := by
    rw [cons_append, scanCode_cons, reads, drop_left]
  refine ⟨fun place => ?_, fun place => ?_, fun outside => ?_, ?_⟩
  · have kinds := carries.kinds (place.after (first :: tail))
    rw [scanned, append_withoutTrivia, map_cons, ← kinds]
    simp [append, withoutTrivia, scanLexeme, word.solid]
  · rw [scanned]
    exact carries.clean _
  · obtain ⟨quiet, after⟩ := word.quiet outside
    rw [split_of_quiet quiet, carries.uncommented after]
  · exact fun broken => (mem_append.mp broken).elim word.unbroken carries.unbroken

lemma spread_starts (all : ∀ word ∈ words, IsWord word.1 word.2) :
    (spread words).takeWhile isGap = [] := by
  cases words with
  | nil => rfl
  | cons word others =>
    obtain ⟨first, tail, same, solid, -⟩ := (all word mem_cons_self).reads
    simp [spread, same, solid]

lemma carries_spread (all : ∀ word ∈ words, IsWord word.1 word.2) : Carries (spread words) words := by
  induction words with
  | nil =>
    exact ⟨fun _ => by rw [spread, flatMap_nil, scanCode]; rfl,
      fun _ => by rw [spread, flatMap_nil, scanCode], fun _ => rfl, not_mem_nil⟩
  | cons word others ih =>
    obtain ⟨here, behind⟩ := forall_mem_cons.mp all
    have whole : spread (word :: others) = word.1 ++ ' ' :: spread others := by simp [spread]
    rw [whole]
    exact .behind_word here ((ih behind).behind_space (spread_starts behind))

lemma scanLine_withoutTrivia (place) (line) :
    (scanLine place line).withoutTrivia = (scanCode place line.code).withoutTrivia := by
  rw [scanLine, append_withoutTrivia, scanComment_withoutTrivia]
  simp [append]

lemma scanLine_errors (place) (line) :
    (scanLine place line).errors = (scanCode place line.code).errors := by
  have comment : (scanComment (place.after line.code) line.comment).errors = [] := by
    unfold scanComment
    split <;> rfl
  simp [scanLine, append, comment]

/-- Lines that carry words are scanned as these, line by line. -/
lemma scanLines_carried {lines : List (List Char × List (List Char × TokenKind))}
    (all : ∀ line ∈ lines, Carries line.1 line.2) (place) :
    (scanLines place (lines.map fun line => ⟨line.1, []⟩)).withoutTrivia.tokens.map Token.kind =
    (layout (lines.map Prod.snd)).map Prod.snd ∧
    (scanLines place (lines.map fun line => ⟨line.1, []⟩)).errors = [] := by
  induction lines generalizing place with
  | nil => exact ⟨rfl, rfl⟩
  | cons line others ih =>
    obtain ⟨here, behind⟩ := forall_mem_cons.mp all
    have kinds := here.kinds place
    have clean := here.clean place
    cases others with
    | nil =>
      rw [map_singleton, scanLines_last, append_withoutTrivia, scanLine_withoutTrivia]
      refine ⟨?_, by simp [append, scanLine_errors, clean]⟩
      simp only [append, map_append, kinds, map_singleton, layout]
      rfl
    | cons next more =>
      obtain ⟨same, silent⟩ := ih behind ((place.behind ⟨line.1, []⟩).nextLine)
      rw [map_cons, map_cons, scanLines_next, append_withoutTrivia,
        append_withoutTrivia, scanLine_withoutTrivia]
      refine ⟨?_, by simp only [append, scanLine_errors, clean, nil_append]; exact silent⟩
      simp only [append, map_append, kinds, map_cons, layout]
      rw [map_cons] at same
      rw [same]
      rfl

/-- The tokens of lines that are scanned without error are words, line by line. -/
lemma words_of_lines {lines : List SourceLine} (unbroken : ∀ line ∈ lines, '\n' ∉ line.chars) (place)
    (clean : (scanLines place lines).errors = []) : ∃ chunks, chunks.length = lines.length ∧
    (∀ words ∈ chunks, ∀ word ∈ words, IsWord word.1 word.2) ∧
    (scanLines place lines).withoutTrivia.tokens.map (fun token => (token.lexeme.toList, token.kind)) =
    layout chunks := by
  induction lines generalizing place with
  | nil => exact ⟨[], rfl, forall_mem_nil _, rfl⟩
  | cons line others ih =>
    obtain ⟨here, behind⟩ := forall_mem_cons.mp unbroken
    have found (clean : (scanLine place line).errors = []) :
        ∀ word ∈ (scanCode place line.code).withoutTrivia.tokens.map
          (fun token => (token.lexeme.toList, token.kind)), IsWord word.1 word.2 := by
      rw [scanLine_errors] at clean
      refine forall_mem_map.mpr (words_of_code place clean fun broken => here ?_)
      exact mem_append_left _ broken
    cases others with
    | nil =>
      rw [scanLines_last] at clean ⊢
      refine ⟨[_], rfl, forall_mem_singleton.mpr (found (append_eq_nil_iff.mp clean).1), ?_⟩
      rw [append_withoutTrivia, scanLine_withoutTrivia, append, map_append]
      rfl
    | cons next more =>
      rw [scanLines_next] at clean ⊢
      obtain ⟨clean, onward⟩ := append_eq_nil_iff.mp clean
      obtain ⟨chunks, length, all, same⟩ := ih behind _ onward
      cases chunks with
      | nil => cases length
      | cons first rest =>
        refine ⟨_ :: first :: rest, congrArg Nat.succ length,
          forall_mem_cons.mpr ⟨found clean, all⟩, ?_⟩
        rw [append_withoutTrivia, append_withoutTrivia, scanLine_withoutTrivia,
          append, append, map_append, map_append, same]
        have lineBreak : "\n".toList = ['\n'] := by decide
        have kept : TokenKind.newline.isTrivia = false := rfl
        simp [withoutTrivia, Token.lineBreak, layout, lineBreak, kept]

lemma intercalate_next (separator first : List Char) {others : List (List Char)}
    (filled : others ≠ []) :
    separator.intercalate (first :: others) = first ++ separator ++ separator.intercalate others := by
  cases others with
  | nil => exact absurd rfl filled
  | cons => simp [intercalate, intersperse]

lemma intercalate_words (words : List (List Char × TokenKind)) {others : List (List Char)}
    (filled : others ≠ []) :
    [' '].intercalate (words.map Prod.fst ++ others) = spread words ++ [' '].intercalate others := by
  induction words with
  | nil => rfl
  | cons word words ih =>
    rw [map_cons, cons_append, intercalate_next _ _ (by simp [filled]), ih]
    simp [spread]

lemma layout_ne_nil : layout chunks ≠ [] := by
  unfold layout
  split <;> simp

/-- The words of all lines, joined with single spaces, are lines again. -/
lemma intercalate_layout (words : List (List Char × TokenKind))
    (chunks : List (List (List Char × TokenKind))) : [' '].intercalate
    ((layout (words :: chunks)).map Prod.fst) = ['\n'].intercalate
    (spread words :: chunks.map fun words => ' ' :: spread words) := by
  induction chunks generalizing words with
  | nil =>
    rw [layout, map_append, intercalate_words words (by simp)]
    simp [intercalate]
  | cons next more ih =>
    have spaced : ['\n'].intercalate ((' ' :: spread next) :: more.map fun words => ' ' :: spread words) =
        ' ' :: ['\n'].intercalate (spread next :: more.map fun words => ' ' :: spread words) := by
      cases more <;> simp [intercalate]
    rw [layout, map_append, map_cons, intercalate_words words (cons_ne_nil _ _),
      intercalate_next _ _ (by simpa using layout_ne_nil), ih, map_cons,
      intercalate_next _ (spread words) (cons_ne_nil _ _), spaced]
    · simp
    · exact cons_ne_nil _ _

end Lines

/-- Spacing between tokens is insignificant. A source text that is scanned without error, and the text
with its lexemes set apart by single spaces, have tokens of the same kinds, and the latter is scanned
without error too. -/
theorem spacing_insignificant (source : String) (clean : (scan source).errors = []) :
    (scan (respaced source)).tokens.map Token.kind = (scan source).tokens.map Token.kind ∧
      (scan (respaced source)).errors = [] := by
  rw [scan_eq] at clean
  rw [scan_eq, scan_eq]
  obtain ⟨chunks, length, all, same⟩ :=
    words_of_lines (fun _ => no_break_in_sourceLine commentMarker source) ⟨1, 1, 0⟩ clean
  cases chunks with
  | nil => exact absurd (length_eq_zero_iff.mp length.symm) (sourceLines_ne_nil commentMarker source)
  | cons words chunks =>
    obtain ⟨here, behind⟩ := forall_mem_cons.mp all
    let lines := (spread words, words) :: chunks.map fun words => (' ' :: spread words, words)
    have carried : ∀ line ∈ lines, Carries line.1 line.2 := by
      refine forall_mem_cons.mpr ⟨carries_spread here, forall_mem_map.mpr fun words member => ?_⟩
      exact (carries_spread (behind words member)).behind_space (spread_starts (behind words member))
    have text : (respaced source).toList = ['\n'].intercalate (lines.map Prod.fst) := by
      have joined := intercalate_layout words chunks
      rw [← same, map_map] at joined
      rw [respaced, String.toList_ofList, scan_eq]
      refine joined.trans ?_
      simp [lines, Function.comp_def]
    have split : sourceLines commentMarker (respaced source) = lines.map fun line => ⟨line.1, []⟩ := by
      rw [sourceLines, splitBreaks_eq_splitOn, text, splitOn_intercalate '\n', map_map]
      · refine map_congr_left fun line member => ?_
        exact (carried line member).uncommented SourceLine.Quoting.isOutside_start
      · exact forall_mem_map.mpr fun line member => (carried line member).unbroken
      · simp [lines]
    have kinds : lines.map Prod.snd = words :: chunks := by simp [lines, Function.comp_def]
    obtain ⟨read, silent⟩ := scanLines_carried carried ⟨1, 1, 0⟩
    rw [← split, kinds, ← same, map_map] at read
    rw [← split] at silent
    exact ⟨read, by simpa only [withoutTrivia] using silent⟩

def unevenText : String := "PRINT\t'a  b'+f\"x\"  # c\nf(TRUE)\n"

theorem unevenText_respaced :
    respaced unevenText = "PRINT 'a  b' + f\"x\" \n f ( TRUE ) \n " ∧
      (scan (respaced unevenText)).tokens.map Token.kind = (scan unevenText).tokens.map Token.kind ∧
      (scan (respaced unevenText)).errors = [] :=
  ⟨by decide +kernel, spacing_insignificant unevenText (by decide +kernel)⟩

end Stepper
