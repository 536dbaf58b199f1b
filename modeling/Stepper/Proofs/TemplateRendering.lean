import Mathlib.Data.List.TakeWhile
import Stepper.Proofs.Placeholders

/-! # Writing templates -/

namespace Stepper

open List

/-- Whether the braces of a text are closed in order. -/
def isBalanced : Nat → List Char → Bool
  | depth, [] => depth == 0
  | depth, c :: rest =>
    if c = '\x7b' then isBalanced (depth + 1) rest
    else if c = '\x7d' then
      match depth with
      | 0 => false
      | outer + 1 => isBalanced outer rest
    else isBalanced depth rest

/-- A part of a template: a text, or an expression with the text it is written as. -/
inductive WrittenPart where
  | literal (text : List Char) (filled : text ≠ [])
  | placeholder (text : List Char) (value : Expr)
      (accepted : parseExpression (String.ofList text) = .ok value)
      (balanced : isBalanced 0 text = true) (plain : text.head? ≠ some '\x7b')

namespace WrittenPart

def isLiteral : WrittenPart → Bool
  | .literal _ _ => true
  | .placeholder .. => false

/-- A text with its braces doubled, as a template has them. -/
def doubled : List Char → List Char
  | [] => []
  | c :: rest => if c = '\x7b' ∨ c = '\x7d' then c :: c :: doubled rest else c :: doubled rest

def written : WrittenPart → List Char
  | .literal text _ => doubled text
  | .placeholder text .. => '\x7b' :: (text ++ ['\x7d'])

def piece : WrittenPart → TemplatePiece
  | .literal text _ => .literal text
  | .placeholder text .. => .code text

/-- What a written part is read as. -/
def part (place : Location) : WrittenPart → StringPart
  | .literal text _ => .literal (String.ofList text)
  | .placeholder _ value .. => .placeholder (value.relocate place)

end WrittenPart

open WrittenPart

/-! ### Pieces -/

lemma templatePieces_doubled (text reversed rest) : templatePieces (.outside reversed)
    (doubled text ++ rest) = templatePieces (.outside (text.reverse ++ reversed)) rest := by
  induction text generalizing reversed with
  | nil => rfl
  | cons c _ ih =>
    rw [reverse_cons, append_assoc, singleton_append, ← ih, doubled]
    by_cases opening : c = '\x7b'
    · simp [opening, templatePieces]
    by_cases closing : c = '\x7d'
    · simp [closing, templatePieces]
    · simp [opening, closing, templatePieces]

lemma templatePieces_balanced (code rest) (balanced : isBalanced depth text) : templatePieces
    (.inside depth code) (text ++ '\x7d' :: rest) = .code (code.reverse ++ text) :: templatePieces
    (.outside []) rest := by
  induction text generalizing depth code with
  | nil =>
    obtain rfl : depth = 0 := by simpa [isBalanced] using balanced
    simp [templatePieces]
  | cons c _ ih =>
    unfold isBalanced at balanced
    split at balanced
    · next opening => simpa [templatePieces, opening] using ih (c :: code) balanced
    split at balanced
    · next closing =>
      cases depth with
      | zero => cases balanced
      | succ => simpa [templatePieces, closing] using ih (c :: code) balanced
    · next opening closing => simpa [templatePieces, opening, closing] using ih (c :: code) balanced

lemma templatePieces_placeholder (reversed rest) (balanced : isBalanced 0 text)
    (plain : text.head? ≠ some '\x7b') : templatePieces (.outside reversed)
    ('\x7b' :: (text ++ '\x7d' :: rest)) = literalPiece reversed ++ .code text :: templatePieces
    (.outside []) rest := by
  have opens : templatePieces (.outside reversed) ('\x7b' :: (text ++ '\x7d' :: rest)) =
      literalPiece reversed ++ templatePieces (.inside 0 []) (text ++ '\x7d' :: rest) := by
    cases text with
    | nil => simp [templatePieces]
    | cons c =>
      have other : c ≠ '\x7b' := by simpa using plain
      simp [templatePieces, other]
  rw [opens, templatePieces_balanced [] rest balanced]
  rfl

lemma templatePieces_written {parts : List WrittenPart}
    (apart : parts.IsChain fun first second => (first.isLiteral && second.isLiteral) = false)
    (first : reversed ≠ [] → ∀ part ∈ parts.head?, part.isLiteral = false) : templatePieces
    (.outside reversed) (parts.flatMap written) = literalPiece reversed ++ parts.map piece := by
  induction parts generalizing reversed with
  | nil => simp [templatePieces]
  | cons part rest ih =>
    rw [flatMap_cons, map_cons]
    cases part with
    | literal _ filled =>
      obtain rfl : reversed = [] := by
        by_contra more
        cases first more _ rfl
      have next : ∀ part ∈ rest.head?, part.isLiteral = false := by
        cases rest with
        | nil => simp
        | cons => simpa [isLiteral] using apart.rel
      rw [written, templatePieces_doubled, ih apart.tail fun _ => next]
      simp [literalPiece, filled, piece]
    | placeholder _ _ _ balanced plain =>
      have behind := @ih [] apart.tail (fun none => absurd rfl none)
      rw [written, cons_append, append_assoc, singleton_append,
        templatePieces_placeholder _ _ balanced plain, behind]
      rfl

/-! ### Expressions -/

lemma lexeme_blank (rest) (blank : Text.isBlank first)
    (begins : (lexeme first rest).kind.beginsExpression) :
    (lexeme first rest).kind = .invalid := by
  have unfit : ∀ range ∈ Text.blank, ∀ i ≤ range.2 - range.1,
      let c := Char.ofNat (range.1 + i)
      isInterpolationMark c = false ∧ isQuote c = false ∧ Decimal.isDigit c = false ∧
        Text.isNameStart c = false ∧ singleSign? c = none := by decide +kernel
  obtain ⟨range, mem, low, high⟩ : ∃ range ∈ Text.blank, range.1 ≤ first.toNat ∧ first.toNat ≤ range.2 := by
    simpa [Text.isBlank, Text.inRanges] using blank
  have own := unfit range mem (first.toNat - range.1) (by omega)
  rw [Nat.add_sub_cancel' low, Char.ofNat_toNat] at own
  obtain ⟨mark, quote, digit, name, sign⟩ := own
  unfold lexeme at begins ⊢
  split at begins
  · cases begins
  · rw [if_neg ‹_›]
    simp only [mark, quote, digit, name, Bool.false_and, Bool.false_eq_true, if_false] at begins ⊢
    unfold signLexeme at begins ⊢
    cases found : rest.head?.bind (doubleSign? first) with
    | none => simp only [sign]
    | some =>
      obtain ⟨_, -, double⟩ := Option.bind_eq_some_iff.mp found
      rw [found] at begins
      unfold doubleSign? at double
      split at double <;> cases double <;> cases begins

lemma trimmed_of_accepted (blames : Parser.BlamesErrors embed)
    (accepted : parseExpressionWith embed (String.ofList text) = .ok value) :
    (Text.trimmed text).isEmpty = false := by
  obtain ⟨_, known, spells⟩ := parseExpressionWith_spells blames accepted
  obtain ⟨token, _, rfl, begins⟩ := spells.begins
  have mem := known mem_cons_self
  obtain ⟨first, rest, within, kind⟩ := scan_origin mem begins
  have visible : ¬ Text.isBlank first = true := fun blank =>
    accepted_valid accepted token mem
      (kind.trans (lexeme_blank rest blank (kind ▸ Phrase.begins_expression begins)))
  have survives {chars : List Char} (mem : first ∈ chars) : first ∈ chars.dropWhile Text.isBlank := by
    rw [← takeWhile_append_dropWhile (p := Text.isBlank) (l := chars)] at mem
    exact (mem_append.mp mem).resolve_left fun early => visible (mem_takeWhile_imp early)
  have inside : first ∈ text := by simpa using within.subset mem_cons_self
  have left : first ∈ Text.trimmed text :=
    mem_reverse.mpr (survives (mem_reverse.mpr (survives inside)))
  rw [isEmpty_eq_false_iff]
  exact ne_nil_of_mem left

lemma parsePlaceholder_accepted (place) (accepted : parseExpression (String.ofList text) = .ok value) :
    parsePlaceholder embedTemplate place text = .ok (value.relocate place) := by
  unfold parsePlaceholder
  rw [trimmed_of_accepted embed_blames accepted, show parseExpressionWith embedTemplate _ = _ from accepted]
  rfl

lemma partsOfPieces_written (place) (parts : List WrittenPart) : partsOfPieces
    (parsePlaceholder embedTemplate place) place (parts.map piece) = .ok (parts.map (part place)) := by
  induction parts with
  | nil => rfl
  | cons first _ ih =>
    cases first with
    | literal => simp [piece, partsOfPieces, ih, part, Except.map]
    | placeholder _ _ accepted =>
      simp [piece, partsOfPieces, ih, part, Except.map, parsePlaceholder_accepted place accepted]

/-- Splitting a template that was written from parts gives back these parts: its literal text, and the
expression of each placeholder with all of its locations replaced by that of the string. -/
theorem written_templates_read_back (parts : List WrittenPart)
    (apart : parts.IsChain fun first second => (first.isLiteral && second.isLiteral) = false) :
    (∀ place, embedTemplate place (String.ofList (parts.flatMap written)) = .ok (parts.map (part place))) ∧
    parseTemplate (String.ofList (parts.flatMap written)) = .ok (parts.map (part (.point 1 1))) := by
  have split (place : Location) :
      embedTemplate place (String.ofList (parts.flatMap written)) = .ok (parts.map (part place)) := by
    rw [embedTemplate_eq, String.toList_ofList,
      templatePieces_written apart fun none => absurd rfl none]
    exact partsOfPieces_written place parts
  refine ⟨split, ?_⟩
  rw [parseTemplate, split]
  rfl

/-- Braces of literal text on both sides of a placeholder, next to its own. -/
theorem braces_read_back :
    ∃ value, parseExpression "m[\"\x7b\x7d\"]" = .ok value ∧
      embedTemplate (.point 1 1) "a\x7d\x7d\x7b\x7b\x7bm[\"\x7b\x7d\"]\x7d\x7d\x7d" =
        .ok [.literal "a\x7d\x7b", .placeholder (value.relocate (.point 1 1)), .literal "\x7d"] := by
  have accepted : (parseExpression "m[\"\x7b\x7d\"]").toBool = true := by decide +kernel
  cases read : parseExpression "m[\"\x7b\x7d\"]" with
  | error => simp [read, Except.toBool] at accepted
  | ok value =>
    let parts : List WrittenPart :=
      [.literal ['a', '\x7d', '\x7b'] (by decide),
        .placeholder ['m', '[', '"', '\x7b', '\x7d', '"', ']'] value read rfl (by decide),
        .literal ['\x7d'] (by decide)]
    exact ⟨value, rfl, (written_templates_read_back parts (by simp [parts, isLiteral])).1 _⟩

end Stepper
