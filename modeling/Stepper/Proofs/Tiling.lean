import Mathlib.Data.List.Chain
import Stepper.Proofs.WholeScan

/-! # Tokens tile the text -/

namespace Stepper

open List Text TokenStream

def Token.comment? (token : Token) : Option Comment :=
  match token.kind with
  | .comment text => some { text, location := token.location }
  | _ => none

inductive Tiles : Nat → List Token → List Char → Prop where
  | nil (start : Nat) : Tiles start [] []
  | cons {start : Nat} {token : Token} {own more : List Char} {others : List Token}
      (spells : token.lexeme = String.ofList own) (filled : own ≠ [])
      (inside : token.kind.isEnd = false) (begins : token.location.start = start)
      (stops : token.location.stop = start + byteLength own)
      (behind : Tiles (start + byteLength own) others more) :
      Tiles start (token :: others) (own ++ more)

namespace Tiles
variable {tokens others : List Token}

lemma append (front : Tiles start tokens chars) (back : Tiles (start + byteLength chars) others more) :
    Tiles start (tokens ++ others) (chars ++ more) := by
  induction front with
  | nil => exact back
  | cons spells filled inside begins stops _ ih =>
    rw [append_assoc]
    refine .cons spells filled inside begins stops (ih ?_)
    rwa [Nat.add_assoc, ← byteLength_append]

lemma single (spells : token.lexeme = String.ofList chars) (filled : chars ≠ [])
    (inside : token.kind.isEnd = false) (begins : token.location.start = start)
    (stops : token.location.stop = start + byteLength chars) : Tiles start [token] chars := by
  simpa using cons spells filled inside begins stops (.nil _)

variable (tiles : Tiles start tokens chars)
include tiles

lemma spelled : String.join (tokens.map Token.lexeme) = String.ofList chars := by
  induction tiles with
  | nil => rfl
  | cons spells _ _ _ _ _ ih =>
    rw [map_cons, String.join_cons, spells, ih, String.ofList_append]

lemma filled : ∀ token ∈ tokens, token.kind.isEnd = false ∧ token.location.start < token.location.stop ∧
    token.lexeme.utf8ByteSize = token.location.stop - token.location.start := by
  induction tiles with
  | nil => exact forall_mem_nil _
  | cons spells filled inside _ _ _ ih =>
    have wide := byteLength_pos filled
    refine forall_mem_cons.mpr ⟨⟨inside, by omega, ?_⟩, ih⟩
    rw [spells, utf8ByteSize_ofList]
    omega

lemma chained (last : Token) (closes : last.location.start = start + byteLength chars) :
    (tokens ++ [last]).head?.map (·.location.start) = some start ∧ (tokens ++ [last]).IsChain fun token
    next => next.location.start = token.location.stop := by
  induction tiles with
  | nil => simpa using closes
  | cons _ _ _ begins stops _ ih =>
    obtain ⟨head, chain⟩ := ih (by
      rw [closes, byteLength_append, Nat.add_assoc])
    refine ⟨congrArg some begins, ?_⟩
    rw [cons_append, isChain_cons]
    refine ⟨fun next follows => ?_, chain⟩
    rw [follows] at head
    rw [stops]
    exact Option.some.inj head

end Tiles

/-! ### Code -/

def TokenKind.isCode : TokenKind → Bool
  | .comment _ | .endOfFile => false
  | _ => true

def TokenKind.isInvalid : TokenKind → Bool
  | .invalid => true
  | _ => false

def Lexeme.IsSound (found : Lexeme) : Prop :=
  found.kind.isCode = true ∧ found.kind.isInvalid = found.fault.isSome ∧
    ∀ body, found.kind = .interpolated body → body.length ≤ found.tail.length

lemma signLexeme_isSound (first) (rest) : (signLexeme first rest).IsSound := by
  unfold signLexeme
  split
  · exact ⟨rfl, rfl, nofun⟩
  · split
    · next sign =>
      unfold singleSign? at sign
      split at sign
      all_goals cases sign
      all_goals exact ⟨rfl, rfl, nofun⟩
    · exact ⟨rfl, rfl, nofun⟩

lemma stringBody_content_length (quote) (chars) :
    (stringBody quote chars).content.length ≤ (stringBody quote chars).consumed.length := by
  fun_induction stringBody quote chars with
  | case1 | case2 | case4 => exact Nat.zero_le _
  | case3 _ _ _ ih => exact Nat.le_succ_of_le (Nat.succ_le_succ ih)
  | case5 _ _ _ _ _ _ ih => exact Nat.succ_le_succ ih

lemma stringLexeme_isSound (opening) (quote) (chars) (sound : ∀ content, (kind content).isCode = true ∧
      (kind content).isInvalid = false ∧ ∀ body, kind content = .interpolated body → body = content) :
    (stringLexeme opening (stringBody quote chars) kind).IsSound := by
  unfold stringLexeme
  split
  · obtain ⟨code, valid, plain⟩ := sound (String.ofList (stringBody quote chars).content)
    refine ⟨code, valid, fun body is => ?_⟩
    rw [plain body is, String.length_ofList, length_append]
    exact Nat.le_add_left_of_le (stringBody_content_length quote chars)
  · exact ⟨rfl, rfl, nofun⟩

lemma lexeme_isSound (first) (rest) : (lexeme first rest).IsSound := by
  unfold lexeme
  split
  · exact ⟨rfl, rfl, nofun⟩
  split
  · exact stringLexeme_isSound _ _ _ fun _ => ⟨rfl, rfl, fun _ same => (TokenKind.interpolated.inj same).symm⟩
  split
  · exact stringLexeme_isSound _ _ _ fun _ => ⟨rfl, rfl, nofun⟩
  split
  · exact ⟨rfl, rfl, nofun⟩
  split
  · unfold wordLexeme Lexeme.IsSound
    dsimp only
    split <;> exact ⟨rfl, rfl, nofun⟩
  · exact signLexeme_isSound first rest

lemma TokenKind.isEnd_of_isCode {kind : TokenKind} (code : kind.isCode) :
    kind.isEnd = false := by
  cases kind <;> first | rfl | cases code

lemma Token.comment?_of_isCode {token : Token} (code : token.kind.isCode) :
    token.comment? = none := by
  unfold comment?
  split
  · next _ kind => simp [kind, TokenKind.isCode] at code
  · rfl

lemma scanCode_isCode (place) (code) :
    ∀ token ∈ (scanCode place code).tokens, token.kind.isCode = true := by
  fun_induction scanCode place code with
  | case1 => exact forall_mem_nil _
  | case2 _ first rest _ _ _ _ ih =>
    exact forall_mem_cons.mpr ⟨(lexeme_isSound first rest).1, ih⟩

lemma scanCode_tiles (place) (code) : Tiles place.offset (scanCode place code).tokens code := by
  fun_induction scanCode place code with
  | case1 => exact .nil _
  | case2 _ first rest found _ _ _ ih =>
    have whole : first :: found.tail ++ rest.drop found.tail.length = first :: rest :=
      congrArg (first :: ·) (lexeme_append_rest first rest)
    rw [← whole]
    exact .cons rfl (cons_ne_nil _ _) (TokenKind.isEnd_of_isCode (lexeme_isSound first rest).1)
      rfl rfl ih

lemma scanComment_tiles (place) (comment) :
    Tiles place.offset (scanComment place comment).tokens comment := by
  unfold scanComment
  split
  · next empty =>
    obtain rfl := isEmpty_iff.mp empty
    exact .nil _
  · next filled => exact .single rfl (mt isEmpty_iff.mpr filled) rfl rfl rfl

lemma scanLine_tiles (place) (line) : Tiles place.offset (scanLine place line).tokens line.chars :=
  (scanCode_tiles place line.code).append (scanComment_tiles (place.after line.code) line.comment)

lemma scanLines_tiles (place) (lines) : ∃ tokens closing, (scanLines place lines).tokens = tokens ++
    [.closing closing] ∧ Tiles place.offset tokens (['\n'].intercalate (lines.map SourceLine.chars)) ∧
    closing.offset = place.offset + byteLength (['\n'].intercalate (lines.map SourceLine.chars)) := by
  induction lines generalizing place with
  | nil => exact ⟨[], place, rfl, .nil _, rfl⟩
  | cons line rest ih =>
    have front := scanLine_tiles place line
    cases rest with
    | nil =>
      refine ⟨_, place.behind line, congrArg tokens (scanLines_last place line), ?_, ?_⟩
      · simpa using front
      · simp
    | cons =>
      obtain ⟨_, closing, stream, tiles, closes⟩ :=
        ih (place.behind line).nextLine
      have broken : (place.behind line).nextLine.offset =
          place.offset + byteLength line.chars + byteLength ['\n'] :=
        congrArg (· + 1) (Place.behind_offset place line)
      have lineBreak :
          Tiles (place.offset + byteLength line.chars) [.lineBreak (place.behind line)] ['\n'] :=
        Place.behind_offset place line ▸ .single rfl (cons_ne_nil _ _) rfl rfl rfl
      rw [map_cons, map_cons, intercalate_cons_cons, append_assoc]
      refine ⟨_, closing, ?_, front.append (lineBreak.append (broken ▸ tiles)), ?_⟩
      · rw [scanLines_next]
        simp [append, stream]
      · rw [closes, broken]
        simp only [byteLength_append, map_cons, Nat.add_assoc]

/-! ### Comments -/

lemma scanCode_comments (place) (code) : (scanCode place code).tokens.filterMap Token.comment? = [] :=
  filterMap_eq_nil_iff.mpr fun token mem =>
    Token.comment?_of_isCode (scanCode_isCode place code token mem)

lemma scanLine_comments (number offset) (line) : (scanLine ⟨number, 1, offset⟩ line).tokens.filterMap
    Token.comment? = commentsFrom number offset [line] := by
  simp only [scanLine, append, filterMap_append, scanCode_comments,
    nil_append, scanComment, commentsFrom]
  split
  · rfl
  · simp only [filterMap_cons, filterMap_nil, Token.comment?, Place.after, Place.span,
      SourceLine.byteLength, Nat.add_comm 1, Nat.add_assoc]

lemma scanLines_comments (number offset) (lines) :
    (scanLines ⟨number, 1, offset⟩ lines).tokens.filterMap Token.comment? = commentsFrom number offset
    lines := by
  induction lines generalizing number offset with
  | nil => rfl
  | cons line rest ih =>
    have own := scanLine_comments number offset line
    cases rest with
    | nil =>
      rw [scanLines_last, append, filterMap_append, own]
      exact append_nil _
    | cons =>
      rw [scanLines_next, Place.nextLine_behind, commentsFrom_cons, ← ih, ← own]
      simp only [append, filterMap_append]
      rfl

/-- With blanks and comments kept, the tokens of a text begin at its first byte, lie side by side
without being empty, end with the only end of the file at its last byte, spell the text, and hold its
comments with their places. -/
theorem tokens_tile_source (marker : Char) (source : String) :
    let tokens := (scanAll marker source).tokens
    tokens.head?.map (·.location.start) = some 0 ∧
      tokens.IsChain (fun token next => next.location.start = token.location.stop) ∧
      (∃ body last, tokens = body ++ [last] ∧
        (∀ token ∈ body, token.kind.isEnd = false ∧ token.location.start < token.location.stop ∧
          token.lexeme.utf8ByteSize = token.location.stop - token.location.start) ∧
        last.kind = .endOfFile ∧ last.location.start = source.utf8ByteSize ∧
        last.location.stop = source.utf8ByteSize) ∧
      String.join (tokens.map Token.lexeme) = source ∧
      tokens.filterMap Token.comment? = comments marker source := by
  obtain ⟨body, closing, stream, tiles, closes⟩ :=
    scanLines_tiles ⟨1, 1, 0⟩ (sourceLines marker source)
  rw [← scanAll_eq] at stream
  rw [joined_sourceLines] at tiles closes
  have size : closing.offset = source.utf8ByteSize := by
    rw [closes, byteLength_toList, Nat.zero_add]
  obtain ⟨head, chain⟩ := tiles.chained (.closing closing) closes
  refine ⟨?_, ?_, ⟨body, .closing closing, stream, tiles.filled, rfl, size, size⟩, ?_, ?_⟩
  · exact stream ▸ head
  · exact stream ▸ chain
  · rw [stream, List.map_append, String.join_append, tiles.spelled]
    simp [Token.closing]
  · rw [scanAll_eq]
    exact scanLines_comments 1 0 (sourceLines marker source)

end Stepper
