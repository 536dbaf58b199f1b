import Stepper.Proofs.Tiling
import Stepper.Syntax.Parser

/-! # Tokens and lexical errors in order -/

namespace Stepper

open Reading (ofTokens)
open List

lemma Tiles.ordered (tiles : Tiles start tokens chars) : (∀ token ∈ tokens, start ≤ token.location.start
      ∧ token.location.stop ≤ start + Text.byteLength chars) ∧ tokens.Pairwise
    (·.location.stop ≤ ·.location.start) := by
  induction tiles with
  | nil => exact ⟨forall_mem_nil _, .nil⟩
  | @cons _ _ _ _ _ _ _ _ _ stops _ ih =>
    obtain ⟨within, sorted⟩ := ih
    rw [Text.byteLength_append]
    refine ⟨forall_mem_cons.mpr ⟨⟨by omega, by omega⟩, fun other mem => ?_⟩,
      pairwise_cons.mpr ⟨fun other mem => ?_, sorted⟩⟩
    · have := within other mem
      omega
    · rw [stops]
      exact (within other mem).1

structure InSource (size : Nat) (tokens : List Token) (ending : Token) : Prop where
  ends : ending.kind = .endOfFile
  behind : ending.location.start = size ∧ ending.location.stop = size
  within : ∀ token ∈ tokens, token.kind.isEnd = false ∧
    token.location.start < token.location.stop ∧ token.location.stop ≤ size
  sorted : tokens.Pairwise (·.location.stop ≤ ·.location.start)

lemma InSource.starts (inSource : InSource size tokens ending) :
    (tokens ++ [ending]).Pairwise (·.location.start ≤ ·.location.start) := by
  refine pairwise_append.mpr ⟨?_, pairwise_singleton _ _, fun token mem _ here => ?_⟩
  · refine inSource.sorted.imp_of_mem fun {token next} mem _ apart => ?_
    exact Nat.le_trans (Nat.le_of_lt (inSource.within token mem).2.1) apart
  · obtain ⟨-, _, _⟩ := inSource.within token mem
    rw [mem_singleton.mp here, inSource.behind.1]
    omega

lemma scanAll_inSource (marker) (source) : ∃ body ending, (scanAll marker source).tokens = body ++
    [ending] ∧ InSource source.utf8ByteSize body ending := by
  obtain ⟨body, closing, stream, tiles, closes⟩ :=
    scanLines_tiles ⟨1, 1, 0⟩ (sourceLines marker source)
  rw [← scanAll_eq] at stream
  rw [joined_sourceLines] at tiles closes
  have size : closing.offset = source.utf8ByteSize := by
    rw [closes, Text.byteLength_toList, Nat.zero_add]
  obtain ⟨within, sorted⟩ := tiles.ordered
  refine ⟨body, .closing closing, stream, rfl, ⟨size, size⟩, fun token mem => ?_, sorted⟩
  obtain ⟨inside, wide, -⟩ := tiles.filled token mem
  exact ⟨inside, wide, size ▸ closes ▸ (within token mem).2⟩

lemma ofTokens_inSource (source) (unit) : InSource source.utf8ByteSize
    (ofTokens (scan source).tokens unit).rest (ofTokens (scan source).tokens unit).ending := by
  obtain ⟨body, ending, stream, inSource⟩ := scanAll_inSource commentMarker source
  let solid := body.filter fun token => !token.kind.isTrivia
  have filtered : (scan source).tokens = solid ++ [ending] := by
    rw [scan, TokenStream.withoutTrivia, stream, filter_append]
    simp [solid, inSource.ends, TokenKind.isTrivia]
  have kept : (scan source).tokens.filter (fun token => !token.kind.isTrivia) = solid ++ [ending] := by
    rw [filtered, filter_append]
    simp [solid, inSource.ends, TokenKind.isTrivia, filter_filter]
  have inside : ∀ token ∈ solid, token ∈ body := fun token mem => mem_of_mem_filter mem
  have final : ending.kind.isEnd := by rw [inSource.ends]; rfl
  have rest : (ofTokens (scan source).tokens unit).rest = solid := by
    rw [ofTokens]
    rw [kept, takeWhile_append_of_pos fun token mem => by
      simp [(inSource.within token (inside token mem)).1]]
    simp [final]
  have last : (ofTokens (scan source).tokens unit).ending = ending := by
    rw [ofTokens]
    rw [kept, find?_append]
    have none : solid.find? (fun token => token.kind.isEnd) = none :=
      find?_eq_none.mpr fun token mem => by
        simp [(inSource.within token (inside token mem)).1]
    simp [none, final]
  rw [rest, last]
  exact ⟨inSource.ends, inSource.behind, fun token mem => inSource.within token (inside token mem),
    inSource.sorted.filter _⟩

/-! ### Lexical errors -/

structure TokenStream.Blames (stream : TokenStream) : Prop where
  errors : ∀ error ∈ stream.errors, error.isError = true ∧ error.kind = .lexical
  places : stream.errors.map (·.location) =
    (stream.tokens.filter fun token => token.kind.isInvalid).map (·.location)

lemma TokenStream.Blames.append {first second : TokenStream} (front : first.Blames)
    (back : second.Blames) : (first.append second).Blames where
  errors := forall_mem_append.mpr ⟨front.errors, back.errors⟩
  places := by
    rw [TokenStream.append, map_append, filter_append, map_append, front.places, back.places]

lemma scanCode_blames (place) (code) : (scanCode place code).Blames := by
  fun_induction scanCode place code with
  | case1 => exact ⟨forall_mem_nil _, rfl⟩
  | case2 _ first rest found _ _ _ ih =>
    obtain ⟨errors, places⟩ := ih
    have invalid : found.kind.isInvalid = found.fault.isSome := (lexeme_isSound first rest).2.1
    cases fault : found.fault with
    | none =>
      rw [fault] at invalid
      exact ⟨errors, by simpa [invalid] using places⟩
    | some fault =>
      rw [fault] at invalid
      exact ⟨forall_mem_cons.mpr ⟨⟨rfl, rfl⟩, errors⟩,
        by simpa [invalid] using ⟨rfl, places⟩⟩

lemma scanLine_blames (place) (line) : (scanLine place line).Blames := by
  refine (scanCode_blames place line.code).append ?_
  unfold scanComment
  split <;> exact ⟨forall_mem_nil _, rfl⟩

lemma scanLines_blames (place) (lines) : (scanLines place lines).Blames := by
  induction lines generalizing place with
  | nil => exact ⟨forall_mem_nil _, rfl⟩
  | cons line rest ih =>
    cases rest with
    | nil =>
      rw [scanLines_last]
      exact (scanLine_blames place line).append ⟨forall_mem_nil _, rfl⟩
    | cons =>
      rw [scanLines_next]
      exact (scanLine_blames place line).append (.append ⟨forall_mem_nil _, rfl⟩ (ih _))

lemma scanAll_blames (marker) (source) : (scanAll marker source).Blames := by
  rw [scanAll_eq]
  exact scanLines_blames _ _

lemma scan_errors (source) :
    (∀ error ∈ (scan source).errors, error.isError = true ∧ error.kind = .lexical) ∧
    (scan source).errors.Pairwise (·.location.start ≤ ·.location.start) := by
  obtain ⟨errors, places⟩ := scanAll_blames commentMarker source
  obtain ⟨_, _, stream, inSource⟩ := scanAll_inSource commentMarker source
  have sorted := inSource.starts
  rw [← stream] at sorted
  have ordered : ((scan source).errors.map (·.location)).Pairwise (·.start ≤ ·.start) :=
    places ▸ pairwise_map.mpr (sorted.sublist filter_sublist)
  rw [pairwise_map] at ordered
  exact ⟨errors, ordered⟩

end Stepper
