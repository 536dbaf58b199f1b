import Stepper.Proofs.Acceptance

/-! # Spans nest -/

namespace Stepper

open List

open Reading (lastOf)

/-! ### Spans -/

/-- Whether a span lies in another. -/
def Location.Within (inner outer : Location) : Prop :=
  outer.start ≤ inner.start ∧ inner.stop ≤ outer.stop

/-- Whether a span is not empty, lies in the text and starts where a token does. -/
structure Location.IsPlaced (size : Nat) (tokens : List Token) (l : Location) : Prop where
  wide : l.start < l.stop
  inside : l.stop ≤ size
  token : ∃ token ∈ tokens, token.location.start = l.start ∧ token.location.line = l.line ∧
    token.location.column = l.column

def placeholders : List StringPart → List Expr
  | [] => []
  | .literal _ :: rest => placeholders rest
  | .placeholder value :: rest => value :: placeholders rest

namespace Expr

/-- The expressions right below an expression. -/
def children : Expr → List Expr
  | .number _ _ | .string _ _ | .bool _ _ | .null _ | .identifier _ _ => []
  | .interpolated parts _ => placeholders parts
  | .array items _ => items
  | .assign _ value _ => [value]
  | .binary _ left right _ | .logical _ left right _ => [left, right]
  | .unary _ operand _ => [operand]
  | .call callee args _ => callee :: args
  | .index target position _ => [target, position]
  | .member target _ _ => [target]

def isTemplate : Expr → Bool
  | .interpolated _ _ => true
  | _ => false

/-- Whether every location of an expression is of this sort, what is inside of it lies within it, and
what is inside of a template is everywhere at the location of the template. -/
inductive Nests (placed : Location → Prop) : Expr → Prop
  | intro {e : Expr} (here : placed e.location)
      (within : ∀ child ∈ e.children, child.location.Within e.location)
      (deep : ∀ child ∈ e.children, Nests placed child)
      (embedded : e.isTemplate = true → ∀ child ∈ e.children, child.relocate e.location = child) :
      Nests placed e

end Expr

/-- Whether every location of a statement is of this sort, the expressions and statements inside of it
lie within it, and the statements of a body are behind each other. -/
inductive Stmt.Nests (placed : Location → Prop) : Stmt → Prop
  | intro {s : Stmt} (here : placed s.location)
      (values : ∀ e ∈ s.expressions, e.location.Within s.location ∧ e.Nests placed)
      (within : ∀ body ∈ s.bodies, ∀ inner ∈ body.statements, inner.location.Within s.location)
      (deep : ∀ body ∈ s.bodies, ∀ inner ∈ body.statements, Stmt.Nests placed inner)
      (apart : ∀ body ∈ s.bodies, body.statements.Pairwise (·.location.stop ≤ ·.location.start)) :
      Stmt.Nests placed s

/-! ### Templates -/

lemma placeholders_relocate (place) (parts) :
    placeholders (relocateParts place parts) = (placeholders parts).map (Expr.relocate place) := by
  induction parts with
  | nil => rfl
  | cons part _ ih =>
    cases part with
    | literal => exact ih
    | placeholder value => exact congrArg (value.relocate place :: ·) ih

lemma relocateAll_eq_map (place) (items) :
    relocateAll place items = items.map (Expr.relocate place) := by
  induction items with
  | nil => rfl
  | cons item _ ih => exact congrArg (item.relocate place :: ·) ih

lemma Expr.children_relocate (place) (e : Expr) :
    (e.relocate place).children = e.children.map (relocate place) := by
  cases e with
  | interpolated parts => exact placeholders_relocate place parts
  | array items => exact relocateAll_eq_map place items
  | call callee args => exact congrArg (callee.relocate place :: ·) (relocateAll_eq_map place args)
  | _ => rfl

lemma sizeOf_lt_of_mem_placeholders (mem : e ∈ placeholders parts) : sizeOf e < sizeOf parts := by
  induction parts with
  | nil => cases mem
  | cons part _ ih =>
    cases part with
    | literal => exact Nat.lt_of_lt_of_le (ih mem) (by simp)
    | placeholder =>
      obtain rfl | mem := mem_cons.mp mem
      · simp
        omega
      · exact Nat.lt_of_lt_of_le (ih mem) (by simp)

lemma Expr.sizeOf_child_lt {e child : Expr} (mem : child ∈ e.children) :
    sizeOf child < sizeOf e := by
  cases e with
  | interpolated =>
    have small := sizeOf_lt_of_mem_placeholders mem
    simp
    omega
  | array items =>
    have small : sizeOf child < sizeOf items := sizeOf_lt_of_mem mem
    simp
    omega
  | call =>
    obtain rfl | mem := mem_cons.mp mem
    · simp
      omega
    · have small := sizeOf_lt_of_mem mem
      simp
      omega
  | binary _ left right _ | logical _ left right _ | index left right _ =>
    obtain rfl | rfl : child = left ∨ child = right := by simpa [children] using mem
    all_goals
      simp
      omega
  | assign _ inner _ | unary _ inner _ | member inner _ _ =>
    obtain rfl : child = inner := by simpa [children] using mem
    simp
    omega
  | _ => cases mem

lemma Expr.nests_relocate {placed : Location → Prop} (here : placed place) (e : Expr) :
    (e.relocate place).Nests placed := by
  have same : ∀ child ∈ (e.relocate place).children, ∃ inner ∈ e.children,
      inner.relocate place = child := by simp [children_relocate]
  refine .intro (by simpa using here) (fun child own => ?_) (fun child own => ?_) fun _ child own => ?_
  · obtain ⟨_, -, rfl⟩ := same child own
    simp [Location.Within]
  · obtain ⟨inner, mem, rfl⟩ := same child own
    have smaller := sizeOf_child_lt mem
    exact inner.nests_relocate here
  · obtain ⟨_, -, rfl⟩ := same child own
    simp [relocate_relocate]
termination_by sizeOf e

lemma parsePlaceholder_placed (found : parsePlaceholder embed place text = .ok value) :
    value.relocate place = value := by
  unfold parsePlaceholder at found
  split at found
  · cases found
  · split at found
    · cases found
      exact Expr.relocate_relocate _ _ _
    · cases found

lemma partsOfPieces_placed {read : List Char → Except Diagnostic Expr}
    (placed : ∀ text value, read text = .ok value → value.relocate place = value)
    (found : partsOfPieces read place pieces = .ok parts) : relocateParts place parts = parts := by
  induction pieces generalizing parts with
  | nil =>
    cases found
    rfl
  | cons _ _ ih =>
    obtain ⟨_, _, rfl, behind, kind⟩ := partsOfPieces_cons found
    obtain ⟨text, rfl, rfl⟩ | ⟨text, value, rfl, first, rfl⟩ := kind
    · simp only [relocateParts, StringPart.relocate, ih behind]
    · simp only [relocateParts, StringPart.relocate, ih behind, placed text value first]

lemma embedTemplate_placed (found : embedTemplate place body = .ok parts) :
    (Expr.interpolated parts place).relocate place = .interpolated parts place :=
  congrArg (Expr.interpolated · place)
    (partsOfPieces_placed (fun _ _ read => parsePlaceholder_placed read) found)

/-! ### Rows of tokens -/

variable {size low high : Nat} {tokens : List Token}

def InRow (tokens : List Token) : Nat → List Token → Nat → Prop
  | low, [], high => low ≤ high
  | low, token :: rest, high => token ∈ tokens ∧ low ≤ token.location.start ∧
      token.location.start < token.location.stop ∧ InRow tokens token.location.stop rest high

namespace InRow

lemma le (row : InRow tokens low ts high) : low ≤ high := by
  induction ts generalizing low with
  | nil => exact row
  | cons _ _ ih =>
    obtain ⟨-, _, _, behind⟩ := row
    have := ih behind
    omega

lemma split (row : InRow tokens low (ts ++ us) high) :
    ∃ middle, InRow tokens low ts middle ∧ InRow tokens middle us high := by
  induction ts generalizing low with
  | nil => exact ⟨low, Nat.le_refl low, row⟩
  | cons _ _ ih =>
    obtain ⟨known, above, wide, behind⟩ := row
    obtain ⟨middle, before, after⟩ := ih behind
    exact ⟨middle, ⟨known, above, wide, before⟩, after⟩

lemma piece (row : InRow tokens low ts high) (within : us <:+: ts) :
    ∃ lower higher, low ≤ lower ∧ higher ≤ high ∧ InRow tokens lower us higher := by
  obtain ⟨_, _, rfl⟩ := within
  obtain ⟨higher, first, behind⟩ := row.split
  obtain ⟨lower, front, middle⟩ := first.split
  exact ⟨lower, higher, front.le, behind.le, middle⟩

lemma tight (row : InRow tokens low (first :: ts) high) : InRow tokens first.location.start
    (first :: ts) (lastOf first.location ts).stop ∧ low ≤ first.location.start ∧
    (lastOf first.location ts).stop ≤ high := by
  induction ts generalizing low first with
  | nil =>
    obtain ⟨known, above, wide, below⟩ := row
    exact ⟨⟨known, Nat.le_refl _, wide, Nat.le_refl _⟩, above, below⟩
  | cons _ _ ih =>
    obtain ⟨known, above, wide, behind⟩ := row
    obtain ⟨⟨also, -, later, inner⟩, apart, below⟩ := ih behind
    exact ⟨⟨known, Nat.le_refl _, wide, also, apart, later, inner⟩, above, below⟩

lemma of_pairwise (known : ∀ token ∈ ts, token ∈ tokens)
    (within : ∀ token ∈ ts, token.location.start < token.location.stop ∧ token.location.stop ≤ high)
    (above : ∀ token ∈ ts, low ≤ token.location.start) (fits : low ≤ high)
    (sorted : ts.Pairwise (·.location.stop ≤ ·.location.start)) : InRow tokens low ts high := by
  induction ts generalizing low with
  | nil => exact fits
  | cons token _ ih =>
    obtain ⟨apart, sorted⟩ := pairwise_cons.mp sorted
    obtain ⟨first, known⟩ := forall_mem_cons.mp known
    obtain ⟨⟨wide, below⟩, within⟩ := forall_mem_cons.mp within
    exact ⟨first, above token mem_cons_self, wide, ih known within apart below sorted⟩

end InRow

/-! ### Expressions -/

structure Expr.Lies (size : Nat) (tokens : List Token) (low high : Nat) (e : Expr) : Prop where
  above : low ≤ e.location.start
  below : e.location.stop ≤ high
  nests : e.Nests (Location.IsPlaced size tokens)

lemma Expr.Nests.isPlaced {e : Expr} (nests : e.Nests placed) :
    placed e.location := by
  cases nests
  assumption

lemma Token.isPlaced (known : token ∈ tokens) (wide : token.location.start < token.location.stop)
    (fits : token.location.stop ≤ size) : token.location.IsPlaced size tokens :=
  ⟨wide, fits, token, known, rfl, rfl, rfl⟩

lemma Location.IsPlaced.upTo {start last : Location} (placed : start.IsPlaced size tokens)
    (order : start.stop ≤ last.stop) (fits : last.stop ≤ size) :
    (start.upTo last).IsPlaced size tokens ∧ (start.upTo last).stop = last.stop := by
  have stop : (start.upTo last).stop = last.stop := Nat.max_eq_left order
  exact ⟨⟨stop ▸ Nat.lt_of_lt_of_le placed.wide order, stop ▸ fits, placed.token⟩, stop⟩

lemma Expr.Lies.of_children {e : Expr} {start last : Location} (place : e.location = start.upTo last)
    (plain : e.isTemplate = false) (placed : start.IsPlaced size tokens)
    (order : start.stop ≤ last.stop) (above : low ≤ start.start) (below : last.stop ≤ high)
    (fits : high ≤ size) (inside : ∀ child ∈ e.children, child.Lies size tokens start.start last.stop) :
    e.Lies size tokens low high := by
  obtain ⟨here, stop⟩ := placed.upTo order (Nat.le_trans below fits)
  rw [← place] at here stop
  have begins : e.location.start = start.start := by rw [place]; rfl
  refine ⟨begins ▸ above, stop ▸ below, .intro here (fun child own => ?_)
    (fun child own => (inside child own).nests) fun template => ?_⟩
  · rw [Location.Within, begins, stop]
    exact ⟨(inside child own).above, (inside child own).below⟩
  · rw [plain] at template
    cases template

lemma Expr.Lies.of_token (stands : token.kind.operand? token.location = some e) (known : token ∈ tokens)
    (wide : token.location.start < token.location.stop) (above : low ≤ token.location.start)
    (below : token.location.stop ≤ high) (fits : high ≤ size) : e.Lies size tokens low high := by
  have place : e.location = token.location ∧ e.relocate token.location = e := by
    unfold TokenKind.operand? at stands
    split at stands <;> cases stands <;> exact ⟨rfl, rfl⟩
  obtain ⟨place, same⟩ := place
  exact ⟨place ▸ above, place ▸ below,
    same ▸ e.nests_relocate (token.isPlaced known wide (Nat.le_trans below fits))⟩

lemma Expr.Lies.rebound {e : Expr} (lies : e.Lies size tokens lower higher)
    (above : low ≤ e.location.start) (below : e.location.stop ≤ high) : e.Lies size tokens low high :=
  ⟨above, below, lies.nests⟩

lemma Expr.Lies.wide {e : Expr} (lies : e.Lies size tokens low high) :
    low ≤ e.location.start ∧ e.location.start < e.location.stop ∧ e.location.stop ≤ high :=
  ⟨lies.above, lies.nests.isPlaced.wide, lies.below⟩

-- In each case the tokens of a phrase are cut at those between its parts; the rest is arithmetic.
mutual

theorem Spells.lies {phrase : Phrase} {depth low high : Nat} {ts : List Token}
    (spells : Spells embedTemplate phrase depth ts e) (row : InRow tokens low ts high)
    (fits : high ≤ size) : e.Lies size tokens low high := by
  match spells with
  | .expression inner | .unassigned inner | .operand inner | .unjoined inner | .unsigned inner
  | .unlinked inner => exact inner.lies row fits
  | @Spells.assign _ _ _ _ _ _ place _ target _ assigned =>
    obtain ⟨middle, first, -, _, wide, second⟩ := row.split
    have most := second.le
    have before := target.lies first (by omega)
    have behind := assigned.lies second fits
    have name : low ≤ place.start ∧ place.start < place.stop ∧ place.stop ≤ middle := before.wide
    have inner := behind.wide
    refine .of_children rfl rfl before.nests.isPlaced ?_ name.1 inner.2.2 fits ?_
    · omega
    · exact forall_mem_singleton.mpr (behind.rebound (by omega) (Nat.le_refl _))
  | @Spells.join _ _ _ _ left right _ _ _ connective before joins behind =>
    obtain ⟨_, first, -, _, wide, second⟩ := row.split
    have most := second.le
    have before := before.lies first (by omega)
    have behind := behind.lies second fits
    have one := before.wide
    have two := behind.wide
    have children : (connective.between left right).children = [left, right] := by cases connective <;> rfl
    refine .of_children (by cases connective <;> rfl) (by cases connective <;> rfl)
      before.nests.isPlaced (by omega) one.1 two.2.2 fits ?_
    rw [children]
    exact forall_mem_cons.mpr ⟨before.rebound (Nat.le_refl _) (by omega),
      forall_mem_singleton.mpr (behind.rebound (by omega) (Nat.le_refl _))⟩
  | .sign _ operand =>
    obtain ⟨known, above, wide, behind⟩ := row
    have operand := operand.lies behind fits
    have inner := operand.wide
    refine .of_children rfl rfl (Token.isPlaced known wide (by omega)) (by omega) above inner.2.2 fits ?_
    exact forall_mem_singleton.mpr (operand.rebound (by omega) (Nat.le_refl _))
  | .call target _ given _ =>
    obtain ⟨_, first, -, _, wide, second⟩ := row.split
    obtain ⟨further, between, -, apart, last, (below : _ ≤ high)⟩ := second.split
    have most := between.le
    have target := target.lies first (by omega)
    have args := given.lies between (by omega)
    have callee := target.wide
    refine .of_children rfl rfl target.nests.isPlaced (by omega) callee.1 below fits ?_
    refine forall_mem_cons.mpr ⟨target.rebound (Nat.le_refl _) (by omega), fun e member => ?_⟩
    have arg := (args e member).wide
    exact (args e member).rebound (by omega) (by omega)
  | .index target _ within _ =>
    obtain ⟨_, first, -, _, wide, second⟩ := row.split
    obtain ⟨further, between, -, apart, last, (below : _ ≤ high)⟩ := second.split
    have most := between.le
    have target := target.lies first (by omega)
    have within := within.lies between (by omega)
    have one := target.wide
    have two := within.wide
    refine .of_children rfl rfl target.nests.isPlaced (by omega) one.1 below fits ?_
    exact forall_mem_cons.mpr ⟨target.rebound (Nat.le_refl _) (by omega),
      forall_mem_singleton.mpr (within.rebound (by omega) (by omega))⟩
  | .member target _ _ =>
    obtain ⟨middle, first, -, gap, wide, -, apart, last, (below : _ ≤ high)⟩ := row.split
    have target := target.lies first (by omega)
    have one := target.wide
    refine .of_children rfl rfl target.nests.isPlaced (by omega) one.1 below fits ?_
    exact forall_mem_singleton.mpr (target.rebound (Nat.le_refl _) (by omega))
  | .token stands =>
    obtain ⟨known, above, wide, below⟩ := row
    exact .of_token stands known wide above below fits
  | .interpolated _ splits =>
    obtain ⟨known, above, wide, below⟩ := row
    refine ⟨above, below, embedTemplate_placed splits ▸ ?_⟩
    exact Expr.nests_relocate (Token.isPlaced known wide (Nat.le_trans below fits)) _
  | .group _ inner _ =>
    obtain ⟨-, _, wide, behind⟩ := row
    obtain ⟨further, between, -, apart, last, (below : _ ≤ high)⟩ := behind.split
    have inner := inner.lies between (by omega)
    have one := inner.wide
    exact inner.rebound (by omega) (by omega)
  | .array _ inner _ =>
    obtain ⟨known, above, wide, behind⟩ := row
    obtain ⟨further, between, -, apart, last, (below : _ ≤ high)⟩ := behind.split
    have most := between.le
    have items := inner.lies between (by omega)
    refine .of_children rfl rfl (Token.isPlaced known wide (by omega)) (by omega) above below fits ?_
    intro e member
    have item := (items e member).wide
    exact (items e member).rebound (by omega) (by omega)

theorem SpellsAll.lies {depth low high : Nat} {ts : List Token}
    (spells : SpellsAll embedTemplate depth ts items) (row : InRow tokens low ts high)
    (fits : high ≤ size) : ∀ e ∈ items, e.Lies size tokens low high := by
  match spells with
  | .empty => exact forall_mem_nil _
  | .nonempty inner => exact inner.lies row fits

theorem SpellsItems.lies {depth low high : Nat} {ts : List Token} {items : List Expr}
    (spells : SpellsItems embedTemplate depth ts items) (row : InRow tokens low ts high)
    (fits : high ≤ size) : ∀ e ∈ items, e.Lies size tokens low high := by
  match spells with
  | .last only => exact forall_mem_singleton.mpr (only.lies row fits)
  | .more first _ behind =>
    obtain ⟨_, before, -, _, wide, after⟩ := row.split
    have most := after.le
    have here := first.lies before (by omega)
    have others := behind.lies after fits
    have one := here.wide
    refine forall_mem_cons.mpr ⟨here.rebound one.1 (by omega), fun e member => ?_⟩
    have other := (others e member).wide
    exact (others e member).rebound (by omega) other.2.2

end

lemma Expr.IsSpelledIn.lies {e : Expr} (spelled : e.IsSpelledIn ts)
    (row : InRow tokens low ts high) (fits : high ≤ size) : e.Lies size tokens low high := by
  obtain ⟨_, _, within, -, spells⟩ := spelled
  obtain ⟨_, _, above, below, inner⟩ := row.piece within
  have lies := spells.lies inner (Nat.le_trans below fits)
  exact lies.rebound (Nat.le_trans above lies.above) (Nat.le_trans lies.below below)

/-! ### Statements -/

structure Stmt.Lies (size : Nat) (tokens : List Token) (low high : Nat) (s : Stmt) : Prop where
  above : low ≤ s.location.start
  below : s.location.stop ≤ high
  nests : s.Nests (Location.IsPlaced size tokens)

mutual

theorem Stmt.IsReadFrom.lies {low high : Nat} {ts : List Token} {s : Stmt} (read : s.IsReadFrom ts)
    (row : InRow tokens low ts high) (fits : high ≤ size) : s.Lies size tokens low high := by
  match read with
  | @Stmt.IsReadFrom.spans first others _ place values bodies =>
    obtain ⟨tight, above, below⟩ := row.tight
    have known : first.location.IsPlaced size tokens ∧
        first.location.stop ≤ (lastOf first.location others).stop := by
      obtain ⟨known, -, wide, behind⟩ := tight
      have := behind.le
      exact ⟨Token.isPlaced known wide (by omega), behind.le⟩
    obtain ⟨here, stop⟩ := known.1.upTo known.2 (Nat.le_trans below fits)
    rw [← place] at here stop
    have start : s.location.start = first.location.start := by rw [place]; rfl
    have inner := Nat.le_trans below fits
    refine ⟨start ▸ above, stop ▸ below, .intro here (fun e own => ?_) (fun body own s member => ?_)
      (fun body own s member => ?_) fun body own => ?_⟩
    · have value := (values e own).lies tight inner
      exact ⟨⟨start ▸ value.above, stop ▸ value.below⟩, value.nests⟩
    · have nested := ((bodies body own).lies tight inner).1 s member
      exact ⟨start ▸ nested.above, stop ▸ nested.below⟩
    · exact (((bodies body own).lies tight inner).1 s member).nests
    · exact ((bodies body own).lies tight inner).2
  | .expression spelled =>
    have value := spelled.lies row fits
    refine ⟨value.above, value.below, .intro value.nests.isPlaced ?_ nofun nofun nofun⟩
    exact forall_mem_singleton.mpr ⟨⟨Nat.le_refl _, Nat.le_refl _⟩, value.nests⟩

theorem ListIsReadFrom.lies {low high : Nat} {ts : List Token} {statements : List Stmt}
    (read : ListIsReadFrom ts statements) (row : InRow tokens low ts high) (fits : high ≤ size) :
    (∀ s ∈ statements, s.Lies size tokens low high) ∧ statements.Pairwise
    (·.location.stop ≤ ·.location.start) := by
  match read with
  | .nil => exact ⟨forall_mem_nil _, .nil⟩
  | .cons here behind =>
    obtain ⟨_, gap, row⟩ := row.split
    obtain ⟨_, before, after⟩ := row.split
    have first := here.lies before (Nat.le_trans after.le fits)
    obtain ⟨others, apart⟩ := behind.lies after fits
    refine ⟨forall_mem_cons.mpr ⟨⟨?_, ?_, first.nests⟩, fun s member => ?_⟩,
      pairwise_cons.mpr ⟨fun s member => ?_, apart⟩⟩
    · exact Nat.le_trans gap.le first.above
    · exact Nat.le_trans first.below after.le
    · have other := others s member
      exact ⟨Nat.le_trans (Nat.le_trans gap.le before.le) other.above, other.below, other.nests⟩
    · exact Nat.le_trans first.below (others s member).above

end

/-- In every accepted source what is inside of a statement or an expression lies within its span, and
statements of one body do not overlap. -/
theorem accepted_spans_nest (source : String) (program : Program)
    (accepted : (analyze source).program = some program) :
    program.statements.Pairwise (·.location.stop ≤ ·.location.start) ∧
      ∀ s ∈ program.statements, s.Nests (Location.IsPlaced source.utf8ByteSize (scan source).tokens) := by
  obtain ⟨clean, rfl⟩ := parse_of_accepted accepted
  obtain ⟨-, -, read⟩ := parse_fits clean
  have inSource := ofTokens_inSource source 0
  have known : ∀ token ∈ (Reading.ofTokens (scan source).tokens).rest, token ∈ (scan source).tokens :=
    ((List.takeWhile_sublist _).trans List.filter_sublist).subset
  have row : InRow (scan source).tokens 0 (Reading.ofTokens (scan source).tokens).rest
      source.utf8ByteSize :=
    .of_pairwise known (fun token member => (inSource.within token member).2)
      (fun _ _ => Nat.zero_le _) (Nat.zero_le _) inSource.sorted
  obtain ⟨lies, apart⟩ := read.lies row (Nat.le_refl _)
  exact ⟨apart, fun s member => (lies s member).nests⟩

def nestedSpans : String := "WHILE (a = 1):\nPRINT f\"\x7bb[0] + 1\x7d\"\nEND\nx\n"

theorem nestedSpans_nest : ∃ program, (analyze nestedSpans).program = some program ∧
    program.allStatements.map (fun s => (s.location.start, s.location.stop)) = [(0, 38), (15, 34), (39, 40)] ∧
    program.statements.Pairwise (·.location.stop ≤ ·.location.start) ∧
    ∀ s ∈ program.statements,
      s.Nests (Location.IsPlaced nestedSpans.utf8ByteSize (scan nestedSpans).tokens) := by
  have accepted : ((analyze nestedSpans).program.any fun program =>
      program.allStatements.map (fun s => (s.location.start, s.location.stop)) ==
        [(0, 38), (15, 34), (39, 40)]) = true := by
    decide +kernel
  obtain ⟨program, found, spans⟩ := (Option.any_eq_true _ _).mp accepted
  exact ⟨program, found, beq_iff_eq.mp spans, accepted_spans_nest nestedSpans program found⟩

end Stepper
