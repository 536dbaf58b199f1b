import Stepper.Proofs.BlockReading

/-! # What is written as a program is read -/

namespace Stepper

open List TokenKind

open Stepper.Parser

mutual

theorem WritesStmt.reads {ts : List TokenKind} (writes : WritesStmt scope depth dangling ts s) :
    ReadsStmt scope depth dangling ts s := by
  match writes with
  | .declare given => exact (reads_declare given).statement
  | .giveBack inside => exact (reads_giveBack inside).statement
  | .giveBackValue inside value => exact (reads_giveBackValue inside value).statement
  | .printNothing => exact reads_printNothing.statement
  | .print given => exact (reads_print given).statement
  | .leaveLoop inside => exact (reads_loopControl (.inl ⟨rfl, rfl⟩) inside).statement
  | .nextIteration inside => exact (reads_loopControl (.inr ⟨rfl, rfl⟩) inside).statement
  | .expression value => exact (reads_expressionStatement value).statement
  | .function inner => exact (reads_function inner.reads).statement
  | .classDef inner members => exact (reads_classDef inner inner.reads members).statement
  | .branch inner => exact (reads_branch inner.reads).statement
  | .whileLoop tested inner => exact (reads_whileLoop tested inner inner.reads).statement
  | .forRange starts stops counts inner =>
    exact (reads_forRange starts stops counts inner inner.reads).statement
  | .repeatLoop counts unnamed inner => exact (reads_repeatLoop counts unnamed inner.reads).statement
  | .countLoop starts counts inner => exact (reads_countLoop starts counts inner.reads).statement
  | .block colons lines => exact (reads_startBlock colons lines lines.reads).statement

theorem WritesBody.reads {scope : Scope} {ts : List TokenKind} {body : Block}
    (writes : WritesBody scope depth dangling ts body) : ReadsBody scope depth dangling ts body := by
  match writes with
  | .block opens separates lines => exact readsBody_block opens separates lines.reads
  | .inline opens only => exact readsBody_inline opens only only.reads

theorem WritesBranch.reads {ts : List TokenKind} (writes : WritesBranch scope depth dangling ts s) :
    ReadsBranch scope depth dangling ts s := by
  match writes with
  | .inline tested opens only => exact readsBranch_inline tested opens only only.reads
  | .inlineElse tested opens only otherwise =>
    exact readsBranch_inlineElse tested opens only only.reads otherwise.reads
  | .block tested opens separates lines rest =>
    exact readsBranch_block tested opens separates lines.reads rest rest.reads

theorem WritesElse.reads {ts : List TokenKind} (writes : WritesElse scope depth dangling ts other) :
    ReadsElse scope depth dangling ts other := by
  match writes with
  | .branch inner => exact readsElse_branch inner.reads
  | .inline colons only apart => exact readsElse_inline colons only apart only.reads

theorem WritesRest.reads {ts : List TokenKind}
    (writes : WritesRest scope depth taken dangling ts other) :
    ReadsRest scope depth dangling ts other := by
  match writes with
  | .done => exact readsRest_done
  | .elif inner => exact readsRest_elif inner.reads
  | .elseIf inner => exact readsRest_elseIf inner.reads
  | .inline opens only separate => exact readsRest_inline opens only separate only.reads
  | .block opens separates lines => exact readsRest_block opens separates lines.reads
  | .unopened lines apart => exact readsRest_unopened lines apart lines.reads

theorem WritesLines.reads {scope : Scope} {ts : List TokenKind} {statements : List Stmt}
    (writes : WritesLines scope depth dangling ts statements) :
    ReadsLines scope depth dangling ts statements := by
  match writes with
  | .done separate => exact readsLines_done separate
  | .last separate only => exact readsLines_last separate only only.reads
  | .more separate first separates rest =>
    exact readsLines_more separate first first.reads separates rest.reads

end

/-! ### Whole programs -/

lemma TokenKind.isSolid_of_isSeparator {kind : TokenKind} (separates : kind.isSeparator) :
    kind.isSolid := by
  rcases eq_of_isSeparator separates with rfl | rfl <;> rfl

lemma TokenKind.isSolid_of_isOpener {kind : TokenKind} (opens : kind.isOpener) :
    kind.isSolid := by
  rcases eq_of_isOpener opens with rfl | rfl | rfl <;> rfl

lemma Writes.isSolid (writes : Writes ts e) : ∀ kind ∈ ts, kind.isSolid = true := by
  obtain ⟨_, _, rfl, -, spells⟩ := writes
  exact forall_mem_map.mpr spells.isSolid

lemma WritesItems.isSolid {items : List Expr} (writes : WritesItems ts items) :
    ∀ kind ∈ ts, kind.isSolid = true := by
  induction writes with
  | last only => exact only.isSolid
  | more first _ ih =>
    exact forall_mem_append.mpr ⟨first.isSolid, forall_mem_cons.mpr ⟨rfl, ih⟩⟩

lemma WritesOption.isSolid (signed : sign.isSolid) (writes : WritesOption sign ts value) :
    ∀ kind ∈ ts, kind.isSolid = true := by
  cases writes with
  | none => exact forall_mem_nil _
  | some value => exact forall_mem_cons.mpr ⟨signed, value.isSolid⟩

lemma hintTokens_isSolid (hint) : ∀ kind ∈ hintTokens hint, kind.isSolid = true := by
  cases hint <;> simp [hintTokens, isSolid, isTrivia, isEnd]

lemma superTokens_isSolid (name) : ∀ kind ∈ superTokens name, kind.isSolid = true := by
  cases name <;> simp [superTokens, isSolid, isTrivia, isEnd]

lemma paramTokens_isSolid (names) : ∀ kind ∈ paramTokens names, kind.isSolid = true := by
  induction names with
  | nil => exact forall_mem_nil _
  | cons _ names ih =>
    cases names with
    | nil => exact forall_mem_singleton.mpr rfl
    | cons =>
      exact forall_mem_cons.mpr ⟨rfl, forall_mem_cons.mpr ⟨rfl, ih⟩⟩

lemma IsOpening.isSolid (opens : IsOpening ts) : ∀ kind ∈ ts, kind.isSolid = true := by
  rcases opens with rfl | ⟨kind, rfl, opens⟩
  · exact forall_mem_nil _
  · exact forall_mem_singleton.mpr (isSolid_of_isOpener opens)

lemma IsColon.isSolid (colons : IsColon ts) : ∀ kind ∈ ts, kind.isSolid = true := by
  rcases colons with rfl | rfl
  · exact forall_mem_nil _
  · exact forall_mem_singleton.mpr rfl

mutual

theorem WritesStmt.isSolid {ts : List TokenKind} (writes : WritesStmt scope depth dangling ts s) :
    ∀ kind ∈ ts, kind.isSolid = true := by
  match writes with
  | .declare given =>
    simp only [forall_mem_cons, forall_mem_append]
    exact ⟨rfl, rfl, hintTokens_isSolid _, given.isSolid rfl⟩
  | .giveBack _ | .printNothing | .leaveLoop _ | .nextIteration _ =>
    exact forall_mem_singleton.mpr rfl
  | .giveBackValue _ value => exact forall_mem_cons.mpr ⟨rfl, value.isSolid⟩
  | .print given => exact forall_mem_cons.mpr ⟨rfl, given.isSolid⟩
  | .expression value => exact value.isSolid
  | .function inner =>
    simp only [forall_mem_cons, forall_mem_append]
    exact ⟨rfl, rfl, rfl, paramTokens_isSolid _, rfl, inner.isSolid⟩
  | .classDef inner _ =>
    simp only [forall_mem_cons, forall_mem_append]
    exact ⟨rfl, rfl, superTokens_isSolid _, inner.isSolid⟩
  | .branch inner => exact forall_mem_cons.mpr ⟨rfl, inner.isSolid⟩
  | .whileLoop tested inner =>
    simp only [forall_mem_cons, forall_mem_append]
    exact ⟨rfl, tested.isSolid, inner.isSolid⟩
  | .forRange starts stops counts inner =>
    simp only [forall_mem_cons, forall_mem_append]
    exact ⟨rfl, rfl, rfl, starts.isSolid, rfl, stops.isSolid, counts.isSolid rfl, inner.isSolid⟩
  | .repeatLoop counts _ inner =>
    simp only [forall_mem_cons, forall_mem_append]
    exact ⟨rfl, counts.isSolid, rfl, inner.isSolid⟩
  | .countLoop starts counts inner =>
    simp only [forall_mem_cons, forall_mem_append]
    exact ⟨rfl, rfl, rfl, starts.isSolid, rfl, counts.isSolid, rfl, inner.isSolid⟩
  | .block colons lines =>
    simp only [forall_mem_cons, forall_mem_append]
    exact ⟨rfl, colons.isSolid, lines.isSolid, rfl, forall_mem_nil _⟩

theorem WritesBody.isSolid {scope : Scope} {ts : List TokenKind} {body : Block}
    (writes : WritesBody scope depth dangling ts body) : ∀ kind ∈ ts, kind.isSolid = true := by
  match writes with
  | .block opens _ lines =>
    have inside := forall_mem_cons.mp lines.isSolid
    simp only [forall_mem_cons, forall_mem_append]
    exact ⟨opens.isSolid, inside.1, inside.2, rfl, forall_mem_nil _⟩
  | .inline opens only =>
    exact forall_mem_cons.mpr ⟨isSolid_of_isOpener opens, only.isSolid⟩

theorem WritesBranch.isSolid {ts : List TokenKind} (writes : WritesBranch scope depth dangling ts s) :
    ∀ kind ∈ ts, kind.isSolid = true := by
  match writes with
  | .inline tested opens only =>
    simp only [forall_mem_cons, forall_mem_append]
    exact ⟨tested.isSolid, isSolid_of_isOpener opens, only.isSolid⟩
  | .inlineElse tested opens only otherwise =>
    simp only [forall_mem_cons, forall_mem_append]
    exact ⟨tested.isSolid, isSolid_of_isOpener opens, only.isSolid, rfl, otherwise.isSolid⟩
  | .block tested opens _ lines rest =>
    have inside := forall_mem_cons.mp lines.isSolid
    simp only [forall_mem_cons, forall_mem_append]
    exact ⟨tested.isSolid, opens.isSolid, inside.1, inside.2, rest.isSolid⟩

theorem WritesElse.isSolid {ts : List TokenKind} (writes : WritesElse scope depth dangling ts other) :
    ∀ kind ∈ ts, kind.isSolid = true := by
  match writes with
  | .branch inner => exact forall_mem_cons.mpr ⟨rfl, inner.isSolid⟩
  | .inline colons only _ => exact forall_mem_append.mpr ⟨colons.isSolid, only.isSolid⟩

theorem WritesRest.isSolid {ts : List TokenKind}
    (writes : WritesRest scope depth taken dangling ts other) : ∀ kind ∈ ts, kind.isSolid = true := by
  match writes with
  | .done => exact forall_mem_singleton.mpr rfl
  | .elif inner => exact forall_mem_cons.mpr ⟨rfl, inner.isSolid⟩
  | .elseIf inner =>
    exact forall_mem_cons.mpr ⟨rfl, forall_mem_cons.mpr ⟨rfl, inner.isSolid⟩⟩
  | .inline opens only separate =>
    simp only [forall_mem_cons, forall_mem_append]
    exact ⟨rfl, isSolid_of_isOpener opens, only.isSolid, fun kind member => isSolid_of_isSeparator
      (separate kind member), rfl, forall_mem_nil _⟩
  | .block opens _ lines =>
    have inside := forall_mem_cons.mp lines.isSolid
    simp only [forall_mem_cons, forall_mem_append]
    exact ⟨rfl, opens.isSolid, inside.1, inside.2, rfl, forall_mem_nil _⟩
  | .unopened lines _ =>
    simp only [forall_mem_cons, forall_mem_append]
    exact ⟨rfl, lines.isSolid, rfl, forall_mem_nil _⟩

theorem WritesLines.isSolid {scope : Scope} {ts : List TokenKind} {statements : List Stmt}
    (writes : WritesLines scope depth dangling ts statements) : ∀ kind ∈ ts, kind.isSolid = true := by
  match writes with
  | .done separate => exact fun kind member => isSolid_of_isSeparator (separate kind member)
  | .last separate only =>
    exact forall_mem_append.mpr
      ⟨fun kind member => isSolid_of_isSeparator (separate kind member), only.isSolid⟩
  | .more separate first _ rest =>
    have inside := forall_mem_cons.mp rest.isSolid
    simp only [forall_mem_cons, forall_mem_append]
    exact ⟨fun kind member => isSolid_of_isSeparator (separate kind member), first.isSolid,
      inside.1, inside.2⟩

end

lemma WritesLines.parses {statements : List Stmt}
    (writes : WritesLines {} nestingLimit loose ts statements)
    (spelled : tokens.map Token.kind = ts ++ [.endOfFile]) (unit) : (parse tokens unit).errors = [] ∧
    bareList (parse tokens unit).statements = bareList statements := by
  obtain ⟨ahead, count⟩ := Reading.ofTokens_kinds spelled writes.isSolid unit
  have fits : Fits {} nestingLimit (Reading.ofTokens tokens unit) :=
    ⟨rfl, nofun, nofun, Nat.le_of_eq (Nat.zero_add _)⟩
  have ends : endOfFile.endsStatement loose := by cases loose <;> rfl
  obtain ⟨found, t, run, kept, -, bare⟩ := (writes.reads
    (parseFuel (Reading.ofTokens tokens unit).rest) [] {} (Reading.ofTokens tokens unit) .endOfFile []
    (nil_subset _) ahead rfl ends fits (by rw [parseFuel, count]; omega)).found
  have errors : t.errors = [] := kept.errors
  simp only [parse, run, Parser.pure, errors, reverse_nil, bare, and_self]

end Stepper
