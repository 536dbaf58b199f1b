import Mathlib.Data.List.Induction
import Stepper.Proofs.Tiling

/-! # Positions -/

namespace Stepper

open List

namespace Text

/-- The characters that end at or before a byte offset. -/
def before (offset : Nat) : List Char → List Char
  | [] => []
  | c :: rest => if c.utf8Size ≤ offset then c :: before (offset - c.utf8Size) rest else []

/-- The line at a byte offset, told from the line breaks in front of it. -/
def lineAt (text : String) (offset : Nat) : Nat := 1 + (before offset text.toList).count '\n'

/-- The column at a byte offset: one more than there are characters since the last line break. -/
def columnAt (text : String) (offset : Nat) : Nat :=
  1 + ((before offset text.toList).reverse.takeWhile (· != '\n')).length

lemma before_append (front back) : before (byteLength front) (front ++ back) = front := by
  induction front with
  | nil =>
    cases back with
    | nil => rfl
    | cons c =>
      exact if_neg (Nat.not_le.mpr c.utf8Size_pos)
  | cons _ _ ih => simp [before, ih]

/-- How many bytes a text takes up beyond one for each character. -/
def excess (chars : List Char) : Nat := byteLength chars - chars.length

lemma length_le_byteLength (chars) : chars.length ≤ byteLength chars := by
  induction chars with
  | nil => exact Nat.le_refl 0
  | cons c =>
    have wide := c.utf8Size_pos
    simp only [length_cons, byteLength_cons]
    omega

lemma excess_append (front back) : excess (front ++ back) = excess front + excess back := by
  have := length_le_byteLength front
  have := length_le_byteLength back
  simp only [excess, byteLength_append, length_append]
  omega

lemma utf8Size_eq_one {c : Char} : c.utf8Size = 1 ↔ c.toNat < 128 := by
  rw [Char.utf8Size_eq_one_iff, UInt32.le_iff_toNat_le]
  exact Nat.lt_succ_iff.symm

lemma excess_eq_zero : excess chars = 0 ↔ ∀ c ∈ chars, c.toNat < 128 := by
  induction chars with
  | nil => simp [excess]
  | cons c chars ih =>
    have wide := c.utf8Size_pos
    have rest := length_le_byteLength chars
    rw [forall_mem_cons, ← ih, ← utf8Size_eq_one]
    simp only [excess, byteLength_cons, length_cons]
    omega

end Text

/-! ### Walking over a text -/

namespace Place

def ahead (place : Place) (columns : Nat) : Place := { place with column := place.column + columns }

lemma walk_start (chars) : walk ⟨1, 1, 0⟩ chars = ⟨1 + chars.count '\n', 1 +
      (chars.reverse.takeWhile (· != '\n')).length, Text.byteLength chars⟩ := by
  induction chars using reverseRecOn with
  | nil => rfl
  | append_singleton _ c ih =>
    rw [walk_append, ih, walk, foldl_cons, foldl_nil, past]
    by_cases isBreak : c = '\n'
    · have byte : '\n'.utf8Size = 1 := rfl
      simp [isBreak, nextLine, Nat.add_assoc, byte]
    · simp [isBreak, after, Nat.add_assoc]

end Place

/-! ### Tokens in their places -/

def Location.BeginsAt (location : Location) (place : Place) : Prop :=
  location.line = place.line ∧ location.column = place.column ∧ location.start = place.offset

lemma scanCode_places (place) (code) : ∀ token ∈ (scanCode place code).tokens, ∃ front back,
    code = front ++ back ∧ back ≠ [] ∧ token.location.BeginsAt (place.after front) := by
  fun_induction scanCode place code with
  | case1 => exact forall_mem_nil _
  | case2 place first rest found _ _ _ ih =>
    refine forall_mem_cons.mpr ⟨⟨[], _, rfl, cons_ne_nil _ _, rfl, rfl, rfl⟩, ?_⟩
    intro token mem
    obtain ⟨front, back, cut, filled, begins⟩ := ih token mem
    refine ⟨first :: found.tail ++ front, back, ?_, filled, ?_⟩
    · rw [append_assoc, ← cut]
      exact congrArg (first :: ·) (lexeme_append_rest first rest).symm
    · exact Place.after_append place _ front ▸ begins

/-- By how much the bytes of a comment that ends there exceed its characters. -/
def excessAt (comments : List Comment) (offset : Nat) : Nat :=
  Text.excess ((comments.filter (·.location.stop = offset)).flatMap fun comment => comment.text.toList)

lemma excessAt_append (front back) (offset) :
    excessAt (front ++ back) offset = excessAt front offset + excessAt back offset := by
  simp only [excessAt, filter_append, flatMap_append, Text.excess_append]

lemma excessAt_eq_zero {comments : List Comment} : excessAt comments offset = 0 ↔ ∀ comment ∈ comments,
    comment.location.stop = offset → ∀ c ∈ comment.text.toList, c.toNat < 128 := by
  rw [excessAt, Text.excess_eq_zero, forall_mem_flatMap]
  simp only [mem_filter, decide_eq_true_eq, and_imp]

def TokenKind.closesLine : TokenKind → Bool
  | .newline | .endOfFile => true
  | _ => false

def Token.Stands (place : Place) (text : List Char) (comments : List Comment) (token : Token) : Prop :=
  ∃ front back, text = front ++ back ∧
    token.location.BeginsAt
      ((place.walk front).ahead (excessAt comments token.location.start)) ∧
    (token.kind.closesLine = true ∨ ∀ comment ∈ comments, comment.location.stop ≠ token.location.start)

/-! ### Comments at the end of lines -/

section Ends
variable (number offset : Nat) (line : SourceLine)

lemma stop_of_mem_own (mem : comment ∈ commentsFrom number offset [line]) :
    comment.location.stop = offset + line.byteLength := by
  simp only [commentsFrom] at mem
  split at mem
  · cases mem
  · obtain rfl := mem_singleton.mp mem
    rfl

lemma stop_of_mem_commentsFrom (mem : comment ∈ commentsFrom number offset lines) :
    offset ≤ comment.location.stop := by
  induction lines generalizing number offset with
  | nil => cases mem
  | cons _ _ ih =>
    rw [commentsFrom_cons, mem_append] at mem
    obtain own | other := mem
    · exact stop_of_mem_own _ _ _ own ▸ Nat.le_add_right _ _
    · exact Nat.le_trans (by omega) (ih _ _ other)

lemma excessAt_own : excessAt (commentsFrom number offset [line]) (offset + line.byteLength) =
    Text.excess line.comment := by
  simp only [commentsFrom, excessAt]
  split
  · next empty =>
    rw [isEmpty_iff.mp empty]
    rfl
  · simp

end Ends

lemma Place.behind_eq_ahead (place : Place) {line : SourceLine} (clear : '\n' ∉ line.chars) :
    place.behind line = (place.walk line.chars).ahead (Text.excess line.comment) := by
  have wide := Text.length_le_byteLength line.comment
  rw [walk_code clear, SourceLine.chars, after_append]
  simp only [behind, after, afterComment, ahead, Text.excess, mk.injEq, true_and, and_true]
  omega

lemma scanLine_places (place) (line) : ∀ token ∈ (scanLine place line).tokens, ∃ front back, line.chars
    = front ++ back ∧ back ≠ [] ∧ token.location.BeginsAt (place.after front) := by
  intro token mem
  obtain code | comment := mem_append.mp mem
  · obtain ⟨front, back, cut, filled, begins⟩ := scanCode_places place line.code token code
    refine ⟨front, back ++ line.comment, ?_, by simp [filled], begins⟩
    rw [SourceLine.chars, cut, append_assoc]
  · unfold scanComment at comment
    split at comment
    · cases comment
    · next filled =>
      obtain rfl := mem_singleton.mp comment
      exact ⟨line.code, line.comment, rfl, mt isEmpty_iff.mpr filled, rfl, rfl, rfl⟩

section Lines
variable {number offset : Nat} {line : SourceLine}

lemma stands_in_line {tail : List Char} (clear : '\n' ∉ line.chars) {token : Token}
    (mem : token ∈ (scanLine ⟨number, 1, offset⟩ line).tokens) : token.Stands ⟨number, 1, offset⟩
    (line.chars ++ tail) (commentsFrom number offset (line :: rest)) := by
  obtain ⟨front, back, cut, filled, begins⟩ := scanLine_places _ line token mem
  have early : token.location.start < offset + line.byteLength := by
    have wide := Text.byteLength_pos filled
    rw [← SourceLine.byteLength_chars, cut, Text.byteLength_append, begins.2.2]
    simp only [Place.after]
    omega
  have apart : ∀ comment ∈ commentsFrom number offset (line :: rest),
      comment.location.stop ≠ token.location.start := by
    intro _ among
    rw [commentsFrom_cons, mem_append] at among
    obtain own | other := among
    · have := stop_of_mem_own _ _ _ own
      omega
    · have := stop_of_mem_commentsFrom _ _ other
      omega
  have none : excessAt (commentsFrom number offset (line :: rest)) token.location.start = 0 :=
    excessAt_eq_zero.mpr fun comment among ends => absurd ends (apart comment among)
  refine ⟨front, back ++ tail, by rw [cut, append_assoc], ?_, .inr apart⟩
  rw [none, Place.walk_code (fun inside => clear (cut ▸ mem_append_left back inside))]
  exact begins

lemma stands_behind_line {tail : List Char} (clear : '\n' ∉ line.chars) {token : Token}
    (begins : token.location.BeginsAt (Place.behind ⟨number, 1, offset⟩ line))
    (ends : token.kind.closesLine = true) : token.Stands ⟨number, 1, offset⟩ (line.chars ++ tail)
    (commentsFrom number offset (line :: rest)) := by
  have start : token.location.start = offset + line.byteLength := by
    rw [begins.2.2, Place.behind_offset, SourceLine.byteLength_chars]
  have others : excessAt (commentsFrom (number + 1) (offset + line.byteLength + 1) rest)
      token.location.start = 0 :=
    excessAt_eq_zero.mpr fun _ among ends => by
      have := stop_of_mem_commentsFrom _ _ among
      omega
  refine ⟨line.chars, tail, rfl, ?_, .inl ends⟩
  rw [commentsFrom_cons, excessAt_append, others, start, excessAt_own, Nat.add_zero,
    ← Place.behind_eq_ahead _ clear]
  exact begins

lemma stands_further {token : Token} (clear : '\n' ∉ line.chars) (stands :
      token.Stands ⟨number + 1, 1, offset + line.byteLength + 1⟩ text (commentsFrom (number + 1) (offset
      + line.byteLength + 1) rest)) : token.Stands ⟨number, 1, offset⟩ (line.chars ++ '\n' :: text)
    (commentsFrom number offset (line :: rest)) := by
  obtain ⟨front, back, cut, begins, ends⟩ := stands
  have late : offset + line.byteLength < token.location.start := by
    rw [begins.2.2]
    simp only [Place.ahead, Place.walk_offset]
    omega
  have apart : ∀ comment ∈ commentsFrom number offset [line],
      comment.location.stop ≠ token.location.start := by
    intro _ among
    have := stop_of_mem_own _ _ _ among
    omega
  have own : excessAt (commentsFrom number offset [line]) token.location.start = 0 :=
    excessAt_eq_zero.mpr fun comment among ends => absurd ends (apart comment among)
  have walked : Place.walk ⟨number, 1, offset⟩ (line.chars ++ '\n' :: front) =
      Place.walk ⟨number + 1, 1, offset + line.byteLength + 1⟩ front := by
    rw [Place.walk_append, Place.walk_code clear]
    simp [Place.walk, Place.past, Place.nextLine, Place.after]
  refine ⟨line.chars ++ '\n' :: front, back, by simp [cut], ?_, ?_⟩
  · rw [walked, commentsFrom_cons, excessAt_append, own, Nat.zero_add]
    exact begins
  · refine ends.imp_right fun behind => ?_
    rw [commentsFrom_cons]
    exact forall_mem_append.mpr ⟨apart, behind⟩

end Lines

lemma scanLines_stand (number offset) (some : lines ≠ []) (clear : ∀ line ∈ lines, '\n' ∉ line.chars) :
    ∀ token ∈ (scanLines ⟨number, 1, offset⟩ lines).tokens, token.Stands ⟨number, 1, offset⟩
    (['\n'].intercalate (lines.map SourceLine.chars)) (commentsFrom number offset lines) := by
  induction lines generalizing number offset with
  | nil => exact absurd rfl some
  | cons line rest ih =>
    obtain ⟨here, further⟩ := forall_mem_cons.mp clear
    intro token mem
    cases rest with
    | nil =>
      rw [scanLines_last, TokenStream.append, mem_append, mem_singleton] at mem
      rw [map_cons, map_nil, intercalate_singleton, ← append_nil line.chars]
      obtain inside | rfl := mem
      · exact stands_in_line here inside
      · exact stands_behind_line here ⟨rfl, rfl, rfl⟩ rfl
    | cons =>
      simp only [scanLines_next, TokenStream.append, singleton_append, mem_append, mem_cons] at mem
      rw [map_cons, map_cons, intercalate_cons_cons, append_assoc, singleton_append]
      obtain inside | rfl | behind := mem
      · exact stands_in_line here inside
      · exact stands_behind_line here ⟨rfl, rfl, rfl⟩ rfl
      · rw [Place.nextLine_behind] at behind
        exact stands_further here (ih _ _ (cons_ne_nil _ _) further token behind)

/-- Every token that the parser reads carries the number of its line. Its column counts the characters
before it on the line, and more exactly if it ends the line and the line's comment holds a
character beyond ASCII: then the column is ahead by the excess of the comment. -/
theorem token_positions (source : String) (token : Token) (member : token ∈ (scan source).tokens) :
    token.location.line = Text.lineAt source token.location.start ∧
      token.location.column = Text.columnAt source token.location.start +
        excessAt (comments commentMarker source) token.location.start ∧
      (token.location.column = Text.columnAt source token.location.start ↔
        ¬ (token.kind.closesLine = true ∧ ∃ comment ∈ comments commentMarker source,
          comment.location.stop = token.location.start ∧
            ∃ c ∈ comment.text.toList, 128 ≤ c.toNat)) := by
  have found := List.mem_of_mem_filter member
  rw [scanAll_eq] at found
  have stands := scanLines_stand 1 0 (sourceLines_ne_nil commentMarker source)
    (fun _ => no_break_in_sourceLine commentMarker source) token found
  rw [joined_sourceLines] at stands
  obtain ⟨front, back, cut, ⟨line, column, start⟩, ends⟩ := stands
  rw [Place.walk_start] at line column start
  have passed : Text.before token.location.start source.toList = front := by
    rw [start, cut]
    exact Text.before_append front back
  have ahead : token.location.column = Text.columnAt source token.location.start +
      excessAt (comments commentMarker source) token.location.start := by
    rw [Text.columnAt, passed]
    exact column
  refine ⟨?_, ahead, ?_⟩
  · rw [Text.lineAt, passed]
    exact line
  · rw [ahead, Nat.add_eq_left, excessAt_eq_zero]
    constructor
    · rintro ascii ⟨-, comment, among, stops, c, inside, beyond⟩
      exact absurd (ascii comment among stops c inside) (Nat.not_lt.mpr beyond)
    · intro plain comment among stops c inside
      obtain last | apart := ends
      · exact Nat.not_le.mp fun beyond => plain ⟨last, comment, among, stops, c, inside, beyond⟩
      · exact absurd stops (apart comment among)

def accented : String := "é #ü\n"

/-- The line break of that line stands at its sixth byte, one column ahead of the five that its
characters give. -/
theorem accented_break_is_ahead : ∃ token ∈ (scan accented).tokens, token.location.start = 6 ∧
    token.location.line = Text.lineAt accented 6 ∧
    token.location.column = Text.columnAt accented 6 + 1 := by
  have there : ((scan accented).tokens.any fun token => token.location.start == 6) = true := by
    decide +kernel
  have excess : excessAt (comments commentMarker accented) 6 = 1 := by decide +kernel
  obtain ⟨token, member, start⟩ := List.any_eq_true.mp there
  replace start : token.location.start = 6 := beq_iff_eq.mp start
  obtain ⟨line, column, -⟩ := token_positions accented token member
  rw [start] at line column
  exact ⟨token, member, start, line, excess ▸ column⟩

/-- So not every column counts the characters before the token. -/
theorem columns_miscount : ¬ ∀ (source : String), ∀ token ∈ (scan source).tokens,
    token.location.line = Text.lineAt source token.location.start ∧
      token.location.column = Text.columnAt source token.location.start := by
  intro law
  have broken : ((scan "#é\nx").tokens.any fun token =>
      token.location.column != Text.columnAt "#é\nx" token.location.start) = true := by
    decide +kernel
  obtain ⟨token, member, differs⟩ := List.any_eq_true.mp broken
  exact bne_iff_ne.mp differs (law "#é\nx" token member).2

end Stepper
