import Stepper.Proofs.Derivation
import Stepper.Proofs.Printing
import Stepper.Proofs.ProgramReading

/-! # Programs in lines -/

namespace Stepper

open List TokenKind

/-! ### Well-formed programs -/

mutual

def Stmt.isLegal (scope : Scope) : Stmt → Bool
  | .declare _ _ _ _ | .print _ _ | .expression _ _ => true
  | .giveBack _ _ => scope.inFunction
  | .leaveLoop _ | .nextIteration _ => scope.inLoop
  | .function decl _ => decl.isLegal
  | .classDef decl _ => decl.isLegal scope
  | .branch _ thenBranch elseBranch _ => thenBranch.isLegal scope && optionIsLegal scope elseBranch
  | .whileLoop _ body _ | .forRange _ _ _ _ body _ => body.isLegal scope.loop
  -- A loop that counts a variable has a name for it and a value to start with.
  | .repeatLoop var start _ body _ => var.isSome == start.isSome && body.isLegal scope.loop
  | .block body _ => body.isLegal scope

/-- Whether statements stand where they may: jumps in loops and functions, members in classes. -/
def listIsLegal (scope : Scope) : List Stmt → Bool
  | [] => true
  | first :: rest => first.isLegal scope && listIsLegal scope rest

def Block.isLegal (scope : Scope) : Block → Bool
  | ⟨statements, _⟩ => listIsLegal scope statements

def optionIsLegal (scope : Scope) : Option Block → Bool
  | none => true
  | some body => body.isLegal scope

def FunctionDecl.isLegal : FunctionDecl → Bool
  | ⟨_, _, body, _, _⟩ => body.isLegal .function

def ClassDecl.isLegal (scope : Scope) : ClassDecl → Bool
  | ⟨_, _, body, _, _⟩ => body.statements.all Stmt.isMember && body.isLegal scope

end

mutual

def Stmt.nesting : Stmt → Nat
  | .declare _ _ _ _ | .print _ _ | .expression _ _ | .giveBack _ _ | .leaveLoop _
  | .nextIteration _ => 1
  | .function decl _ => decl.nesting + 1
  | .classDef decl _ => decl.nesting + 1
  | .branch _ thenBranch elseBranch _ => max thenBranch.nesting (optionNesting elseBranch) + 1
  | .whileLoop _ body _ | .forRange _ _ _ _ body _ | .repeatLoop _ _ _ body _ | .block body _ =>
    body.nesting + 1

/-- How deep statements nest. -/
def listNesting : List Stmt → Nat
  | [] => 0
  | first :: rest => max first.nesting (listNesting rest)

def Block.nesting : Block → Nat
  | ⟨statements, _⟩ => listNesting statements

def optionNesting : Option Block → Nat
  | none => 0
  | some body => body.nesting

def FunctionDecl.nesting : FunctionDecl → Nat
  | ⟨_, _, body, _, _⟩ => body.nesting

def ClassDecl.nesting : ClassDecl → Nat
  | ⟨_, _, body, _, _⟩ => body.nesting

end

/-- Whether every statement of a program may stand where it stands, and none is nested too deep. -/
structure Program.IsWellFormed (program : Program) : Prop where
  legal : listIsLegal {} program.statements = true
  shallow : listNesting program.statements ≤ nestingLimit

/-! ### Layouts -/

/-- Whether the body on a path, if it is one statement, is put on the line of its head. -/
abbrev Layout := List Nat → Bool

section Laying
variable (write : Expr → List TokenKind) (layout : Layout)

def laidItems : List Expr → List TokenKind
  | [] => []
  | [last] => write last
  | first :: rest => write first ++ .punct .comma :: laidItems rest

def laidOption (sign : TokenKind) : Option Expr → List TokenKind
  | none => []
  | some value => sign :: write value

/-- The count of a loop. An assignment is put in parentheses, since its sign would belong to the loop. -/
def laidCount (count : Expr) : List TokenKind :=
  match count with
  | .assign _ _ _ => .punct .openParen :: (write count ++ [.punct .closeParen])
  | _ => write count

mutual

def Stmt.laid (path : List Nat) : Stmt → List TokenKind
  | .declare name hint value _ =>
    .keyword .LET :: .identifier name :: (hintTokens hint ++ laidOption write (.operator .assign) value)
  | .giveBack none _ => [.keyword .RETURN]
  | .giveBack (some value) _ => .keyword .RETURN :: write value
  | .print args _ => .keyword .PRINT :: laidItems write args
  | .leaveLoop _ => [.keyword .BREAK]
  | .nextIteration _ => [.keyword .CONTINUE]
  | .expression value _ => write value
  | .function decl _ => .keyword .FUNC :: decl.laid path
  | .classDef decl _ => .keyword .CLASS :: decl.laid path
  | .branch condition thenBranch none _ => .keyword .IF :: (write condition ++ thenBranch.laid path)
  | .branch condition thenBranch (some elseBranch) _ =>
    .keyword .IF :: (write condition ++ .punct .colon :: .newline ::
      (thenBranch.laidLines (0 :: path) ++ .keyword .ELSE :: .punct .colon :: .newline ::
        (elseBranch.laidLines (1 :: path) ++ [.keyword .END])))
  | .whileLoop condition body _ => .keyword .WHILE :: (write condition ++ body.laid path)
  | .forRange var first last step body _ =>
    .keyword .FOR :: .identifier var :: .operator .assign ::
      (write first ++ .keyword .TO :: (write last ++
        (laidOption write (.keyword .STEP) step ++ body.laid path)))
  | .repeatLoop (some var) (some first) count body _ =>
    .keyword .LOOP :: .identifier var :: .operator .assign ::
      (write first ++ .keyword .FOR :: (write count ++ .keyword .TIMES :: body.laid path))
  | .repeatLoop _ _ count body _ =>
    .keyword .LOOP :: (laidCount write count ++ .keyword .TIMES :: body.laid path)
  | .block body _ =>
    .keyword .START :: .punct .colon :: .newline :: (body.laidLines path ++ [.keyword .END])

/-- Statements on lines of their own. -/
def laidLines (path : List Nat) (index : Nat) : List Stmt → List TokenKind
  | [] => []
  | first :: rest => first.laid (index :: path) ++ .newline :: laidLines path (index + 1) rest

def laidFirst (path : List Nat) : List Stmt → List TokenKind
  | [] => []
  | first :: _ => first.laid (0 :: path)

def Block.laidLines (path : List Nat) : Block → List TokenKind
  | ⟨statements, _⟩ => Stepper.laidLines path 0 statements

def Block.laid (path : List Nat) : Block → List TokenKind
  | ⟨statements, _⟩ =>
    if layout path && statements.length == 1 then .punct .colon :: laidFirst path statements
    else .punct .colon :: .newline :: (Stepper.laidLines path 0 statements ++ [.keyword .END])

def FunctionDecl.laid (path : List Nat) : FunctionDecl → List TokenKind
  | ⟨name, params, body, _, _⟩ =>
    .identifier name :: .punct .openParen ::
      (paramTokens params ++ .punct .closeParen :: body.laid path)

def ClassDecl.laid (path : List Nat) : ClassDecl → List TokenKind
  | ⟨name, superclass, body, _, _⟩ => .identifier name :: (superTokens superclass ++ body.laid path)

end

/-- The tokens of a program in a layout. -/
def Program.laid (program : Program) : List TokenKind := laidLines write layout [] 0 program.statements

end Laying

/-! ### Expressions that are read back -/

/-- The state before tokens that stand nowhere, with the end of the file behind them. -/
def Reading.alone (ts : List TokenKind) : Reading :=
  .ofTokens ((ts ++ [endOfFile]).map unplaced)

/-- Whether tokens are read as an expression when they stand alone. -/
structure ReadsBack (ts : List TokenKind) (e : Expr) : Prop where
  solid : ∀ kind ∈ ts, kind.isSolid = true
  reads : ∃ value s,
    Parser.expression embedTemplate (parseFuel (Reading.alone ts).rest) (.alone ts) = .ok value s ∧
      value.bare = e.bare ∧ s.rest = []

lemma unplaced_kinds (ts : List TokenKind) : (ts.map unplaced).map Token.kind = ts := by
  simp [Function.comp_def]

lemma ReadsBack.writes (back : ReadsBack ts e) : Writes ts e := by
  obtain ⟨value, _, run, bare, nothing⟩ := back.reads
  have kinds := (Reading.ofTokens_kinds (unplaced_kinds (ts ++ [.endOfFile])) back.solid 0).1
  obtain ⟨inner, ending⟩ := append_inj' kinds rfl
  obtain ⟨tokens, passes, spells⟩ := Parser.expression_spells embed_blames
    (Reading.Ends.stops (singleton_inj.mp ending)) run
  have all := passes.tokens
  rw [nothing, append_nil] at all
  exact ⟨tokens, value, all ▸ inner, bare, spells⟩

lemma Expr.printed_readsBack (e : Expr) (plain : e.isUntemplated)
    (shallow : e.printed.nesting ≤ 255) : ReadsBack e.printed.tokens e where
  solid kind mem := (e.printed_spells embedTemplate plain).isSolid kind.unplaced
    (mem_map_of_mem mem)
  reads := by
    obtain ⟨value, s, run, bare, nothing, -⟩ := e.printed_reads plain shallow _ (unplaced_kinds _)
    exact ⟨value, s, run, bare, nothing⟩

/-- The expressions of a statement, each with the tokens it is written with. -/
def Stmt.writings (write : Expr → List TokenKind) : Stmt → List (List TokenKind × Expr)
  | .declare _ _ value _ | .giveBack value _ => value.toList.map fun e => (write e, e)
  | .print args _ => args.map fun e => (write e, e)
  | .expression e _ | .branch e _ _ _ | .whileLoop e _ _ => [(write e, e)]
  | .forRange _ first last step _ _ => (first :: last :: step.toList).map fun e => (write e, e)
  | .repeatLoop (some _) (some first) count _ _ => [(write first, first), (write count, count)]
  | .repeatLoop _ _ count _ _ => [(laidCount write count, count)]
  | .function _ _ | .classDef _ _ | .block _ _ | .leaveLoop _ | .nextIteration _ => []

def Program.writings (program : Program) (write : Expr → List TokenKind) :
    List (List TokenKind × Expr) :=
  program.allStatements.flatMap (Stmt.writings write)

/-! ### What is laid out is written -/

section Writing
variable {layout : Layout}

def Stmt.IsWritten (write : Expr → List TokenKind) (s : Stmt) : Prop :=
  ∀ writing ∈ s.writings write, Writes writing.1 writing.2

lemma laidItems_writes (some : items ≠ []) (written : ∀ e ∈ items, Writes (write e) e) :
    WritesItems (laidItems write items) items := by
  induction items with
  | nil => exact absurd rfl some
  | cons _ rest ih =>
    obtain ⟨here, others⟩ := forall_mem_cons.mp written
    cases rest with
    | nil => exact .last here
    | cons => exact .more here (ih (by simp) others)

lemma laidOption_writes (sign) (written : ∀ e ∈ value, Writes (write e) e) :
    WritesOption sign (laidOption write sign value) value := by
  cases value with
  | none => exact .none
  | some value => exact .some (written value rfl)

lemma laidCount_unnamed {count : Expr} (written : Writes (laidCount write count) count) (tail) :
    startsAssignment (laidCount write count ++ .keyword .TIMES :: tail) = false := by
  obtain ⟨_, _, kinds, bare, spells⟩ := written
  cases count with
  | assign => rfl
  | _ =>
    rw [← kinds]
    refine spells.startsAssignment_eq_false ?_ nofun
    rintro _ _ _ rfl
    simp [Expr.bare, Expr.relocate] at bare

lemma WritesBody.branch (inner : WritesBody scope depth loose us body)
    (tested : Writes ts condition) :
    ∃ loose, WritesBranch scope depth loose (ts ++ us) (.branch condition body none place) := by
  cases inner with
  | block opens separates lines => exact ⟨_, .block tested opens separates lines .done⟩
  | inline opens only => exact ⟨_, .inline tested opens only⟩

lemma Stmt.nesting_pos (s : Stmt) : 0 < s.nesting := by
  cases s <;> simp [Stmt.nesting]

mutual

theorem Stmt.laid_writes (s) (path) (legal : s.isLegal scope = true) (shallow : s.nesting ≤ depth)
    (written : ∀ inner ∈ s.preorder, inner.IsWritten write) :
    ∃ dangling, WritesStmt scope depth dangling (s.laid write layout path) s := by
  obtain ⟨depth, rfl⟩ : ∃ d, depth = d + 1 := ⟨depth - 1, by have := s.nesting_pos; omega⟩
  have own : s.IsWritten write := written s (by cases s <;> simp [Stmt.preorder])
  match s with
  | .declare name hint value _ =>
    refine ⟨_, .declare (laidOption_writes _ fun e given => ?_)⟩
    exact own (write e, e) (by simp_all [Stmt.writings])
  | .giveBack none _ => exact ⟨_, .giveBack legal⟩
  | .giveBack (some value) _ =>
    exact ⟨_, .giveBackValue legal (own (write value, value) (by simp [Stmt.writings]))⟩
  | .print [] _ => exact ⟨_, .printNothing⟩
  | .print (first :: rest) _ =>
    refine ⟨_, .print (laidItems_writes (by simp) fun e member => ?_)⟩
    exact own (write e, e) (mem_map_of_mem member)
  | .leaveLoop _ => exact ⟨_, .leaveLoop legal⟩
  | .nextIteration _ => exact ⟨_, .nextIteration legal⟩
  | .expression value _ =>
    exact ⟨_, .expression (own (write value, value) (by simp [Stmt.writings]))⟩
  | .function ⟨name, params, body, place, unit⟩ _ =>
    obtain ⟨dangling, inner⟩ := body.laid_writes path legal (Nat.le_of_succ_le_succ shallow)
      fun inner member => written inner (mem_cons_of_mem _ member)
    exact ⟨dangling, .function inner⟩
  | .classDef ⟨name, superclass, body, place, unit⟩ _ =>
    obtain ⟨members, legal⟩ := Bool.and_eq_true_iff.mp legal
    obtain ⟨dangling, inner⟩ := body.laid_writes path legal (Nat.le_of_succ_le_succ shallow)
      fun inner member => written inner (mem_cons_of_mem _ member)
    exact ⟨dangling, .classDef inner (all_eq_true.mp members)⟩
  | .branch condition thenBranch none _ =>
    obtain ⟨low, -⟩ := Nat.max_le.mp (Nat.le_of_succ_le_succ shallow)
    obtain ⟨here, -⟩ := Bool.and_eq_true_iff.mp legal
    obtain ⟨dangling, inner⟩ := thenBranch.laid_writes path here low
      fun inner member => written inner (mem_cons_of_mem _ (mem_append_left _ member))
    obtain ⟨dangling, whole⟩ :=
      inner.branch (own (write condition, condition) (by simp [Stmt.writings]))
    exact ⟨dangling, .branch whole⟩
  | .branch condition ⟨first, _⟩ (some ⟨second, _⟩) _ =>
    obtain ⟨low, high⟩ := Nat.max_le.mp (Nat.le_of_succ_le_succ shallow)
    obtain ⟨here, there⟩ := Bool.and_eq_true_iff.mp legal
    have lines := laidLines_writes first (0 :: path) 0 here low
      fun inner member => written inner (mem_cons_of_mem _ (mem_append_left _ member))
    have others := laidLines_writes second (1 :: path) 0 there high
      fun inner member => written inner (mem_cons_of_mem _ (mem_append_right _ member))
    have colon : IsOpening [.punct .colon] := .inr ⟨_, rfl, rfl⟩
    exact ⟨_, .branch (.block (own (write condition, condition) (by simp [Stmt.writings])) colon rfl
      lines (.block colon rfl others))⟩
  | .whileLoop condition body _ =>
    obtain ⟨dangling, inner⟩ := body.laid_writes path legal (Nat.le_of_succ_le_succ shallow)
      fun inner member => written inner (mem_cons_of_mem _ member)
    exact ⟨dangling, .whileLoop (own (write condition, condition) (by simp [Stmt.writings])) inner⟩
  | .forRange var first last step body _ =>
    obtain ⟨dangling, inner⟩ := body.laid_writes path legal (Nat.le_of_succ_le_succ shallow)
      fun inner member => written inner (mem_cons_of_mem _ member)
    refine ⟨dangling, .forRange (own (write first, first) (by simp [Stmt.writings]))
      (own (write last, last) (by simp [Stmt.writings])) (laidOption_writes _ fun e given => ?_) inner⟩
    exact own (write e, e) (by simp_all [Stmt.writings])
  | .repeatLoop (some var) (some first) count body _ =>
    obtain ⟨dangling, inner⟩ := body.laid_writes path legal (Nat.le_of_succ_le_succ shallow)
      fun inner member => written inner (mem_cons_of_mem _ member)
    exact ⟨dangling, .countLoop (own (write first, first) (by simp [Stmt.writings]))
      (own (write count, count) (by simp [Stmt.writings])) inner⟩
  | .repeatLoop none none count body _ =>
    obtain ⟨dangling, inner⟩ := body.laid_writes path legal (Nat.le_of_succ_le_succ shallow)
      fun inner member => written inner (mem_cons_of_mem _ member)
    have counted : Writes (laidCount write count) count :=
      own (laidCount write count, count) (by simp [Stmt.writings])
    exact ⟨dangling, .repeatLoop counted (laidCount_unnamed counted) inner⟩
  | .repeatLoop (some _) none _ _ _ | .repeatLoop none (some _) _ _ _ => cases legal
  | .block ⟨statements, _⟩ _ =>
    have lines := laidLines_writes statements path 0 legal (Nat.le_of_succ_le_succ shallow)
      fun inner member => written inner (mem_cons_of_mem _ member)
    exact ⟨_, .block (.inr rfl) lines⟩

theorem laidLines_writes (statements) (path) (index) (legal : listIsLegal scope statements = true)
    (shallow : listNesting statements ≤ depth)
    (written : ∀ inner ∈ listStatements statements, inner.IsWritten write) : WritesLines scope depth
    false (.newline :: laidLines write layout path index statements) statements := by
  have line : ∀ kind ∈ [newline], kind.isSeparator = true := forall_mem_singleton.mpr rfl
  match statements with
  | [] => exact .done line
  | first :: rest =>
    obtain ⟨here, others⟩ := Bool.and_eq_true_iff.mp legal
    obtain ⟨low, deep⟩ := Nat.max_le.mp shallow
    obtain ⟨_, inner⟩ := first.laid_writes (index :: path) here low
      fun inner member => written inner (mem_append_left _ member)
    exact .more line inner rfl (laidLines_writes rest path (index + 1) others deep
      fun inner member => written inner (mem_append_right _ member))

theorem Block.laid_writes (body) (path) (legal : body.isLegal scope = true)
    (shallow : body.nesting ≤ depth) (written : ∀ inner ∈ blockStatements body, inner.IsWritten write) :
    ∃ dangling, WritesBody scope depth dangling (body.laid write layout path) body := by
  match body with
  | ⟨statements, _⟩ =>
    by_cases inline : (layout path && statements.length == 1) = true
    · match statements with
      | [only] =>
        obtain ⟨here, -⟩ := Bool.and_eq_true_iff.mp legal
        obtain ⟨dangling, inner⟩ := only.laid_writes (0 :: path) here (Nat.max_le.mp shallow).1
          fun inner member => written inner (mem_append_left _ member)
        rw [Block.laid, if_pos inline]
        exact ⟨dangling, .inline rfl inner⟩
      | [] | _ :: _ :: _ => simp at inline
    · have lines := laidLines_writes statements path 0 legal shallow written
      rw [Block.laid, if_neg inline]
      exact ⟨_, .block (.inr ⟨_, rfl, rfl⟩) rfl lines⟩

end

end Writing

lemma WritesLines.unbroken (separates : separator.isSeparator)
    (lines : WritesLines scope depth loose (separator :: ts) statements) :
    WritesLines scope depth loose ts statements := by
  generalize all : separator :: ts = whole at lines
  cases lines with
  | done separate =>
    subst all
    exact .done (forall_mem_cons.mp separate).2
  | @last _ _ _ breaks _ _ separate only =>
    cases breaks with
    | cons =>
      obtain rfl := (List.cons.inj all).2
      exact .last (forall_mem_cons.mp separate).2 only
    | nil =>
      obtain ⟨_, _, rfl, starts⟩ := only.begins
      obtain rfl := (List.cons.inj all).1
      simp [not_of_starts starts] at separates
  | @more _ _ _ _ breaks _ _ _ _ others separate first apart rest =>
    cases breaks with
    | cons =>
      obtain rfl := (List.cons.inj all).2
      exact .more (forall_mem_cons.mp separate).2 first apart rest
    | nil =>
      obtain ⟨_, _, rfl, starts⟩ := first.begins
      obtain rfl := (List.cons.inj all).1
      simp [not_of_starts starts] at separates

/-- A program that was laid out is read back without an error, whatever the layout and wherever its
tokens stand. -/
theorem laid_program_reads_back (program : Program) (write : Expr → List TokenKind) (layout : Layout)
    (wellFormed : program.IsWellFormed)
    (written : ∀ writing ∈ program.writings write, ReadsBack writing.1 writing.2)
    (tokens : List Token) (unit : Nat)
    (spelled : tokens.map Token.kind = program.laid write layout ++ [.endOfFile]) :
    (parse tokens unit).errors = [] ∧
      bareList (parse tokens unit).statements = bareList program.statements := by
  have spelt : ∀ s ∈ program.allStatements, s.IsWritten write := fun s member writing inside =>
    (written writing (List.mem_flatMap.mpr ⟨s, member, inside⟩)).writes
  have lines : WritesLines {} nestingLimit false (.newline :: program.laid write layout)
      program.statements :=
    laidLines_writes program.statements [] 0 wellFormed.legal wellFormed.shallow spelt
  exact (lines.unbroken rfl).parses spelled unit

def drilled : Program :=
  let name (text : String) : Expr := .identifier text {}
  let call : Expr := .call (name "double") [name "n"] {}
  { statements :=
      [.function ⟨"double", ["x"],
          ⟨[.giveBack (some (.binary .mul (name "x") (.number 2 {}) {})) {}], {}⟩, {}, 0⟩ {},
        .branch (name "ready")
          ⟨[.repeatLoop none none (.assign "n" (.number 3 {}) {}) ⟨[.print [name "n", call] {}], {}⟩ {}],
            {}⟩
          (some ⟨[.whileLoop (.bool true {})
            ⟨[.expression (.assign "n" call {}) {}, .leaveLoop {}], {}⟩ {}], {}⟩) {}] }

def drilledTokens : List Token :=
  (drilled.laid (·.printed.tokens) (fun _ => true) ++ [endOfFile]).map unplaced

/-- The program is well-formed and is read back; its first line is `FUNC double(x): RETURN x * 2`. -/
theorem drilled_reads_back :
    drilled.IsWellFormed ∧
      (drilledTokens.take 11).map Token.kind =
        [.keyword .FUNC, .identifier "double", .punct .openParen, .identifier "x", .punct .closeParen,
          .punct .colon, .keyword .RETURN, .identifier "x", .operator .star, .number 2, .newline] ∧
      (parse drilledTokens).errors = [] ∧
      bareList (parse drilledTokens).statements = bareList drilled.statements := by
  have wellFormed : drilled.IsWellFormed := ⟨rfl, by decide⟩
  have written : ∀ writing ∈ drilled.writings (·.printed.tokens), ReadsBack writing.1 writing.2 := by
    -- All but the count in parentheses are written as the printer writes them.
    have printed := Expr.printed_readsBack
    refine List.forall_mem_cons.mpr ⟨printed _ rfl (by decide), ?_⟩
    refine List.forall_mem_cons.mpr ⟨printed _ rfl (by decide), ?_⟩
    refine List.forall_mem_cons.mpr ⟨⟨by decide, _, _, rfl, rfl, rfl⟩, ?_⟩
    refine List.forall_mem_cons.mpr ⟨printed _ rfl (by decide), ?_⟩
    refine List.forall_mem_cons.mpr ⟨printed _ rfl (by decide), ?_⟩
    refine List.forall_mem_cons.mpr ⟨printed _ rfl (by decide), ?_⟩
    refine List.forall_mem_cons.mpr ⟨printed _ rfl (by decide), ?_⟩
    exact List.forall_mem_nil _
  exact ⟨wellFormed, rfl, laid_program_reads_back drilled (·.printed.tokens) (fun _ => true) wellFormed
    written drilledTokens 0 (unplaced_kinds _)⟩

end Stepper
