import Stepper.Proofs.Printing
import Stepper.Proofs.ProgramReading

/-! # Chains of branches -/

namespace Stepper

open List TokenKind WritesRest

/-- The body of one arm as it is written: lines up to the next arm, or one statement on the line of its
head. -/
inductive BranchBody where
  | block (opening : List TokenKind) (separator : TokenKind) (lines : List TokenKind)
      (statements : List Stmt)
  | inline (opening : TokenKind) (words : List TokenKind) (statement : Stmt)
      (breaks : List TokenKind)

namespace BranchBody

def tokens : BranchBody → List TokenKind
  | .block opening separator lines _ => opening ++ separator :: lines
  | .inline opening words _ breaks => opening :: (words ++ breaks)

/-- The block that a body stands for. -/
def toBlock : BranchBody → Block
  | .block _ _ _ statements => ⟨statements, {}⟩
  | .inline _ _ statement _ => ⟨[statement], {}⟩

def isBlock : BranchBody → Bool
  | .block _ _ _ _ => true
  | .inline _ _ _ _ => false

/-- Whether the tokens of a body write its statements, of which none takes an `ELSE` behind the body. -/
def IsWritten (scope : Scope) (depth : Nat) : BranchBody → Prop
  | .block opening separator lines statements =>
    IsOpening opening ∧ separator.isSeparator = true ∧
      WritesLines scope depth false (separator :: lines) statements
  | .inline opening words statement breaks =>
    opening.isOpener = true ∧ (∃ dangling, WritesStmt scope depth dangling words statement) ∧
      ∀ kind ∈ breaks, kind.isSeparator = true

end BranchBody

/-- A condition with the body behind it, and the tokens that write the condition. -/
structure Arm where
  header : List TokenKind
  condition : Expr
  body : BranchBody

def Arm.tokens (arm : Arm) : List TokenKind := arm.header ++ arm.body.tokens

/-- Whether an arm's tokens write its condition and its body, as deep as that may stand. -/
def Arm.IsWritten (scope : Scope) (depth : Nat) (arm : Arm) : Prop :=
  Writes arm.header arm.condition ∧ arm.body.IsWritten scope depth

/-- The two spellings that join an arm to the one before it. -/
inductive Joint where
  | elif
  | elseIf

def Joint.tokens : Joint → List TokenKind
  | .elif => [.keyword .ELIF]
  | .elseIf => [.keyword .ELSE, .keyword .IF]

/-- A chain of arms with an optional `ELSE`, under one shared `END`. -/
structure Chain where
  first : Arm
  later : List (Joint × Arm)
  last : Option BranchBody

namespace Chain

def laterTokens (later : List (Joint × Arm)) : List TokenKind :=
  later.flatMap fun (joint, arm) => joint.tokens ++ arm.tokens

def lastTokens : Option BranchBody → List TokenKind
  | none => []
  | some body => .keyword .ELSE :: body.tokens

/-- The tokens of a chain, with the one `END` that closes it. -/
def tokens (chain : Chain) : List TokenKind :=
  .keyword .IF :: (chain.first.tokens ++
    (laterTokens chain.later ++ (lastTokens chain.last ++ [.keyword .END])))

/-- The tree of a chain: each later arm is the only statement of the `ELSE` of the arm before it. -/
def treeFrom (arm : Arm) (last : Option BranchBody) : List (Joint × Arm) → Stmt
  | [] => .branch arm.condition arm.body.toBlock (last.map BranchBody.toBlock) {}
  | (_, next) :: later =>
    .branch arm.condition arm.body.toBlock (some ⟨[treeFrom next last later], {}⟩) {}

def tree (chain : Chain) : Stmt := treeFrom chain.first chain.last chain.later

/-- Whether every body behind a condition starts on the next line. -/
def isBlock (chain : Chain) : Bool :=
  chain.first.body.isBlock && chain.later.all fun (_, arm) => arm.body.isBlock

/-- Whether the arms of a chain are written in turn. Each later arm stands one level deeper. -/
def WrittenFrom (scope : Scope) (depth : Nat) (arm : Arm) (last : Option BranchBody) :
    List (Joint × Arm) → Prop
  | [] => arm.IsWritten scope depth ∧ ∀ body ∈ last, body.IsWritten scope depth
  | (_, next) :: later => arm.IsWritten scope depth ∧
    ∃ inner, depth = inner + 1 ∧ WrittenFrom scope inner next last later

def IsWritten (scope : Scope) (depth : Nat) (chain : Chain) : Prop :=
  WrittenFrom scope depth chain.first chain.last chain.later

end Chain

/-! ### Chains in the grammar -/

section Grammar
lemma Chain.rest_of_last {last : Option BranchBody}
    (written : ∀ body ∈ last, body.IsWritten scope depth) : WritesRest scope depth false false
    (lastTokens last ++ [.keyword .END]) (last.map BranchBody.toBlock) := by
  cases last with
  | none => exact .done
  | some body =>
    have inside := written body rfl
    cases body with
    | block _ _ lines =>
      obtain ⟨opens, separates, lines⟩ := inside
      simpa [lastTokens, BranchBody.tokens, BranchBody.toBlock] using block opens separates lines
    | inline =>
      obtain ⟨opens, ⟨_, only⟩, separate⟩ := inside
      simpa [lastTokens, BranchBody.tokens, BranchBody.toBlock] using inline opens only separate

lemma Arm.branch {arm : Arm} (written : arm.IsWritten scope depth) (block : arm.body.isBlock)
    (behind : WritesRest scope depth false loose rest other) : WritesBranch scope depth loose
    (arm.tokens ++ rest) (.branch arm.condition arm.body.toBlock other {}) := by
  obtain ⟨_, _, body⟩ := arm
  cases body with
  | inline => cases block
  | block _ _ lines =>
    obtain ⟨tested, opens, separates, lines⟩ := written
    simpa [tokens, BranchBody.tokens, BranchBody.toBlock] using
      WritesBranch.block tested opens separates lines behind

lemma Chain.writesBranch {arm : Arm} {last : Option BranchBody} {later : List (Joint × Arm)}
    (written : WrittenFrom scope depth arm last later) (block : arm.body.isBlock)
    (blocks : later.all (fun (_, arm) => arm.body.isBlock)) : WritesBranch scope depth false
    (arm.tokens ++ (laterTokens later ++ (lastTokens last ++ [.keyword .END])))
    (treeFrom arm last later) := by
  induction later generalizing arm depth with
  | nil => exact arm.branch written.1 block (rest_of_last written.2)
  | cons next _ ih =>
    obtain ⟨joint, _⟩ := next
    obtain ⟨here, _, rfl, there⟩ := written
    obtain ⟨nextBlock, others⟩ := Bool.and_eq_true_iff.mp blocks
    have inner := ih there nextBlock others
    refine arm.branch here block ?_
    cases joint with
    | elif => simpa [laterTokens, Joint.tokens] using elif inner
    | elseIf => simpa [laterTokens, Joint.tokens] using elseIf inner

end Grammar

/-- A chain of blocks is read without an error as the nested tree, in any scope where it may stand, and
the `END` behind its branches is the last token that is consumed. -/
theorem chain_closes_with_one_end (chain : Chain) (scope : Scope) (depth : Nat)
    (blocks : chain.isBlock = true) (written : chain.IsWritten scope depth) (n : Nat) (s : Reading)
    (follow : TokenKind) (tail : List TokenKind) (ahead : s.kinds = chain.tokens ++ follow :: tail)
    (ends : follow.endsValue = true) (fits : Parser.Fits scope (depth + 1) s)
    (fuel : 16 * chain.tokens.length + 14 ≤ n) :
    ∃ found t, Parser.statement n s = .ok found t ∧ found.bare = chain.tree.bare ∧
      t.kinds = follow :: tail ∧ t.errors = s.errors := by
  obtain ⟨block, others⟩ := Bool.and_eq_true_iff.mp blocks
  have writes : WritesStmt scope (depth + 1) false chain.tokens chain.tree :=
    .branch (Chain.writesBranch written block others)
  obtain ⟨found, t, run, kept, left, bare⟩ :=
    (writes.reads n s follow tail ahead (by simp [endsStatement, ends]) fits fuel).found
  exact ⟨found, t, run, bare, left, kept.errors⟩

/-! ### Chains to look at -/

namespace Chain

def source (chain : Chain) : List Token :=
  (chain.tokens ++ [endOfFile]).map unplaced

def named (name : String) (body : BranchBody) : Arm := ⟨[.identifier name], .identifier name {}, body⟩

def emptyBody : BranchBody := .block [.punct .colon] .newline [] []

def wordBody (word : Keyword) (s : Stmt) : BranchBody :=
  .block [.punct .colon] .newline [.keyword word, .newline] [s]

lemma named_isWritten (name) (inside : body.IsWritten scope depth) :
    (named name body).IsWritten scope depth := by
  have word : Spells embedTemplate (.onStep 9) 255 [unplaced (.identifier name)]
      (.identifier name {}) := .unlinked (.token rfl)
  have spells : Spells embedTemplate .expression nestingLimit
      [unplaced (.identifier name)] (.identifier name {}) :=
    .expression (word.loosen (Nat.le_refl 9) (Nat.zero_le _))
  exact ⟨⟨_, _, rfl, rfl, spells⟩, inside⟩

lemma emptyBody_isWritten (scope) (depth) : emptyBody.IsWritten scope depth :=
  ⟨.inr ⟨_, rfl, rfl⟩, rfl, .done (forall_mem_singleton.mpr rfl)⟩

lemma wordBody_isWritten (only : WritesStmt scope depth false [.keyword word] s) :
    (wordBody word s).IsWritten scope depth := by
  have line : ∀ kind ∈ [newline], kind.isSeparator = true := forall_mem_singleton.mpr rfl
  exact ⟨.inr ⟨_, rfl, rfl⟩, rfl, .more line only rfl (.done line)⟩

def guarded : Chain where
  first := named "a" (wordBody .PRINT (.print [] {}))
  later := [(.elif, named "b" (wordBody .CONTINUE (.nextIteration {}))), (.elseIf, named "c" emptyBody)]
  last := some (.inline (.punct .colon) [.keyword .BREAK] (.leaveLoop {}) [.newline])

/-- It is read inside of a loop, up to the end of the file behind its `END`. -/
theorem guarded_closes :
    guarded.isBlock = true ∧ guarded.IsWritten { inLoop := true } 3 ∧
      ∃ found t, Parser.statement 400 { Reading.ofTokens guarded.source with loops := 1 } = .ok found t ∧
        found.bare = guarded.tree.bare ∧ t.kinds = [.endOfFile] ∧ t.errors = [] := by
  have written : guarded.IsWritten { inLoop := true } 3 := by
    refine ⟨named_isWritten _ (wordBody_isWritten .printNothing), 2, rfl, ?_⟩
    refine ⟨named_isWritten _ (wordBody_isWritten (.nextIteration rfl)), 1, rfl, ?_⟩
    refine ⟨named_isWritten _ (emptyBody_isWritten _ _), ?_⟩
    rintro _ ⟨⟩
    exact ⟨rfl, ⟨false, .leaveLoop rfl⟩, List.forall_mem_singleton.mpr rfl⟩
  have fits : Parser.Fits { inLoop := true } 4 { Reading.ofTokens guarded.source with loops := 1 } :=
    ⟨rfl, fun _ => Nat.one_ne_zero, nofun, by decide⟩
  exact ⟨rfl, written, chain_closes_with_one_end guarded _ 3 rfl written 400 _ .endOfFile [] rfl rfl fits
    (by decide)⟩

def tall : Chain := ⟨named "a" emptyBody, List.replicate 256 (.elif, named "a" emptyBody), none⟩

def uneven : Chain where
  first := named "a" emptyBody
  later := [(.elif, named "b" (.inline (.punct .colon) [.keyword .PRINT] (.print [] {}) [.newline]))]
  last := none

/-- Not every chain is accepted. One of blocks may be too long: its branches nest too deep. One with a
branch on a single line is over at that line, and its `END` closes nothing. -/
theorem tall_and_uneven_fail :
    (tall.isBlock = true ∧ tall.first.IsWritten {} 1 ∧ (∀ next ∈ tall.later, next.2.IsWritten {} 1) ∧
      (parse tall.source).errors.map (·.message) = ["Block nested too deeply"]) ∧
    (uneven.first.IsWritten {} 1 ∧ (∀ next ∈ uneven.later, next.2.IsWritten {} 1) ∧
      (parse uneven.source).errors.map (·.message) = ["Unexpected END without an open block"]) := by
  have plain : ∀ name, (named name emptyBody).IsWritten {} 1 := fun name =>
    named_isWritten name (emptyBody_isWritten _ _)
  refine ⟨⟨by decide +kernel, plain _, ?_, by decide +kernel⟩, plain _, ?_, by decide +kernel⟩
  · intro _ member
    rw [List.eq_of_mem_replicate member]
    exact plain _
  · refine List.forall_mem_singleton.mpr (named_isWritten _ ?_)
    exact ⟨rfl, ⟨false, .printNothing⟩, List.forall_mem_singleton.mpr rfl⟩

end Chain

end Stepper
