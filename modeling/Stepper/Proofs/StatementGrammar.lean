import Stepper.Proofs.Grammar
import Stepper.Syntax.StmtParser

/-! # The grammar of statements -/

namespace Stepper

/-! ### Statements without places -/

mutual

/-- A statement without its locations. -/
def Stmt.bare : Stmt → Stmt
  | .declare name hint value _ => .declare name hint (value.map Expr.bare) {}
  | .function decl _ => .function decl.bare {}
  | .classDef decl _ => .classDef decl.bare {}
  | .branch condition thenBranch elseBranch _ =>
    .branch condition.bare thenBranch.bare (bareOption elseBranch) {}
  | .whileLoop condition body _ => .whileLoop condition.bare body.bare {}
  | .forRange var first last step body _ =>
    .forRange var first.bare last.bare (step.map Expr.bare) body.bare {}
  | .repeatLoop var start count body _ =>
    .repeatLoop var (start.map Expr.bare) count.bare body.bare {}
  | .block body _ => .block body.bare {}
  | .giveBack value _ => .giveBack (value.map Expr.bare) {}
  | .print args _ => .print (relocateAll {} args) {}
  | .leaveLoop _ => .leaveLoop {}
  | .nextIteration _ => .nextIteration {}
  | .expression value _ => .expression value.bare {}

def bareList : List Stmt → List Stmt
  | [] => []
  | first :: rest => first.bare :: bareList rest

def Block.bare : Block → Block
  | ⟨statements, _⟩ => ⟨bareList statements, {}⟩

def bareOption : Option Block → Option Block
  | none => none
  | some body => some body.bare

def FunctionDecl.bare : FunctionDecl → FunctionDecl
  | ⟨name, params, body, _, _⟩ => ⟨name, params, body.bare, {}, 0⟩

def ClassDecl.bare : ClassDecl → ClassDecl
  | ⟨name, superclass, body, _, _⟩ => ⟨name, superclass, body.bare, {}, 0⟩

end

/-- Whether a statement may stand in a class: a `LET` for a field, or a `FUNC` for a method. -/
def Stmt.isMember : Stmt → Bool
  | .declare _ _ _ _ | .function _ _ => true
  | _ => false

lemma Parser.isClassMember_eq : isClassMember = Stmt.isMember := by
  funext s
  cases s <;> rfl

lemma Stmt.isMember_bare (s : Stmt) : s.bare.isMember = s.isMember := by
  cases s <;> rfl

/-! ### Parts of statements -/

/-- Whether tokens spell an expression, up to locations and within the limit on nesting. -/
def Writes (ts : List TokenKind) (e : Expr) : Prop :=
  ∃ tokens value, tokens.map Token.kind = ts ∧ value.bare = e.bare ∧
    Spells embedTemplate .expression nestingLimit tokens value

inductive WritesItems : List TokenKind → List Expr → Prop where
  | last {ts : List TokenKind} {e : Expr} (only : Writes ts e) : WritesItems ts [e]
  | more {ts us : List TokenKind} {e : Expr} {others : List Expr} (first : Writes ts e)
      (behind : WritesItems us others) : WritesItems (ts ++ .punct .comma :: us) (e :: others)

inductive WritesOption (sign : TokenKind) : List TokenKind → Option Expr → Prop where
  | none : WritesOption sign [] none
  | some (value : Writes ts e) : WritesOption sign (sign :: ts) (some e)

def hintTokens : Option String → List TokenKind
  | none => []
  | some name => [.punct .colon, .identifier name]

def superTokens : Option String → List TokenKind
  | none => []
  | some name => [.keyword .EXTENDS, .identifier name]

def paramTokens : List String → List TokenKind
  | [] => []
  | [name] => [.identifier name]
  | name :: names => .identifier name :: .punct .comma :: paramTokens names

/-- What may open the lines of a body: one token or none. -/
def IsOpening (ts : List TokenKind) : Prop := ts = [] ∨ ∃ kind, ts = [kind] ∧ kind.isOpener = true

def IsColon (ts : List TokenKind) : Prop := ts = [] ∨ ts = [.punct .colon]

/-- Whether breaks and returns may stand here. -/
structure Scope where
  inLoop : Bool := false
  inFunction : Bool := false

def Scope.loop (scope : Scope) : Scope := { scope with inLoop := true }

def Scope.function : Scope := { inFunction := true }

/-! ### Statements -/

mutual

/-- The grammar of statements: which tokens write which statement, up to locations. The number bounds how
deep statements may nest. The flag says that the tokens end in a branch on one line without an `ELSE`,
which would take one that came next. -/
inductive WritesStmt : Scope → Nat → Bool → List TokenKind → Stmt → Prop where
  | declare {scope : Scope} {depth : Nat} {ts : List TokenKind} {name : String}
      {hint : Option String} {value : Option Expr} {place : Location}
      (given : WritesOption (.operator .assign) ts value) :
      WritesStmt scope (depth + 1) false
        (.keyword .LET :: .identifier name :: (hintTokens hint ++ ts)) (.declare name hint value place)
  | giveBack (inside : scope.inFunction = true) :
      WritesStmt scope (depth + 1) false [.keyword .RETURN] (.giveBack none place)
  | giveBackValue {scope : Scope} {depth : Nat} {ts : List TokenKind} {e : Expr} {place : Location}
      (inside : scope.inFunction = true) (value : Writes ts e) :
      WritesStmt scope (depth + 1) false (.keyword .RETURN :: ts) (.giveBack (some e) place)
  | printNothing : WritesStmt scope (depth + 1) false [.keyword .PRINT] (.print [] place)
  | print {scope : Scope} {depth : Nat} {ts : List TokenKind} {args : List Expr} {place : Location}
      (given : WritesItems ts args) :
      WritesStmt scope (depth + 1) false (.keyword .PRINT :: ts) (.print args place)
  | leaveLoop (inside : scope.inLoop = true) :
      WritesStmt scope (depth + 1) false [.keyword .BREAK] (.leaveLoop place)
  | nextIteration (inside : scope.inLoop = true) :
      WritesStmt scope (depth + 1) false [.keyword .CONTINUE] (.nextIteration place)
  | expression {scope : Scope} {depth : Nat} {ts : List TokenKind} {e : Expr} {place : Location}
      (value : Writes ts e) : WritesStmt scope (depth + 1) false ts (.expression e place)
  | function {scope : Scope} {depth : Nat} {dangling : Bool} {ts : List TokenKind} {name : String}
      {params : List String} {body : Block} {unit : Nat} {place outer : Location}
      (inner : WritesBody .function depth dangling ts body) :
      WritesStmt scope (depth + 1) dangling
        (.keyword .FUNC :: .identifier name :: .punct .openParen ::
          (paramTokens params ++ .punct .closeParen :: ts))
        (.function ⟨name, params, body, place, unit⟩ outer)
  | classDef {scope : Scope} {depth : Nat} {dangling : Bool} {ts : List TokenKind} {name : String}
      {superclass : Option String} {body : Block} {unit : Nat} {place outer : Location}
      (inner : WritesBody scope depth dangling ts body)
      (members : ∀ member ∈ body.statements, member.isMember = true) :
      WritesStmt scope (depth + 1) dangling
        (.keyword .CLASS :: .identifier name :: (superTokens superclass ++ ts))
        (.classDef ⟨name, superclass, body, place, unit⟩ outer)
  | branch (inner : WritesBranch scope depth dangling ts s) : WritesStmt scope (depth + 1) dangling
      (.keyword .IF :: ts) s
  | whileLoop {scope : Scope} {depth : Nat} {dangling : Bool} {ts us : List TokenKind}
      {condition : Expr} {body : Block} {place : Location} (tested : Writes ts condition)
      (inner : WritesBody scope.loop depth dangling us body) :
      WritesStmt scope (depth + 1) dangling (.keyword .WHILE :: (ts ++ us))
        (.whileLoop condition body place)
  | forRange {scope : Scope} {depth : Nat} {dangling : Bool} {ts us vs ws : List TokenKind}
      {var : String} {first last : Expr} {step : Option Expr} {body : Block} {place : Location}
      (starts : Writes ts first) (stops : Writes us last)
      (counts : WritesOption (.keyword .STEP) vs step)
      (inner : WritesBody scope.loop depth dangling ws body) :
      WritesStmt scope (depth + 1) dangling
        (.keyword .FOR :: .identifier var :: .operator .assign ::
          (ts ++ .keyword .TO :: (us ++ (vs ++ ws))))
        (.forRange var first last step body place)
  -- A count that starts with a name and `=` would be taken for the start of a named loop.
  | repeatLoop {scope : Scope} {depth : Nat} {dangling : Bool} {ts us : List TokenKind}
      {count : Expr} {body : Block} {place : Location} (counts : Writes ts count)
      (unnamed : ∀ tail, startsAssignment (ts ++ .keyword .TIMES :: tail) = false)
      (inner : WritesBody scope.loop depth dangling us body) :
      WritesStmt scope (depth + 1) dangling (.keyword .LOOP :: (ts ++ .keyword .TIMES :: us))
        (.repeatLoop none none count body place)
  | countLoop {scope : Scope} {depth : Nat} {dangling : Bool} {ts us vs : List TokenKind}
      {var : String} {first count : Expr} {body : Block} {place : Location}
      (starts : Writes ts first) (counts : Writes us count)
      (inner : WritesBody scope.loop depth dangling vs body) :
      WritesStmt scope (depth + 1) dangling
        (.keyword .LOOP :: .identifier var :: .operator .assign ::
          (ts ++ .keyword .FOR :: (us ++ .keyword .TIMES :: vs)))
        (.repeatLoop (some var) (some first) count body place)
  | block {scope : Scope} {depth : Nat} {dangling : Bool} {colon ts : List TokenKind}
      {statements : List Stmt} {inner outer : Location} (colons : IsColon colon)
      (lines : WritesLines scope depth dangling ts statements) :
      WritesStmt scope (depth + 1) false (.keyword .START :: (colon ++ (ts ++ [.keyword .END])))
        (.block ⟨statements, inner⟩ outer)

/-- The body of a loop or of a declaration, on lines up to its `END` or on the line of its head. -/
inductive WritesBody : Scope → Nat → Bool → List TokenKind → Block → Prop where
  | block {scope : Scope} {depth : Nat} {dangling : Bool} {opening ts : List TokenKind}
      {separator : TokenKind} {statements : List Stmt} {place : Location}
      (opens : IsOpening opening) (separates : separator.isSeparator = true)
      (lines : WritesLines scope depth dangling (separator :: ts) statements) :
      WritesBody scope depth false (opening ++ separator :: (ts ++ [.keyword .END]))
        ⟨statements, place⟩
  | inline {scope : Scope} {depth : Nat} {dangling : Bool} {opening : TokenKind}
      {ts : List TokenKind} {s : Stmt} {place : Location} (opens : opening.isOpener = true)
      (only : WritesStmt scope depth dangling ts s) :
      WritesBody scope depth dangling (opening :: ts) ⟨[s], place⟩

/-- A branch from behind its `IF` to the end of its chain. -/
inductive WritesBranch : Scope → Nat → Bool → List TokenKind → Stmt → Prop where
  | inline {scope : Scope} {depth : Nat} {dangling : Bool} {opening : TokenKind}
      {ts us : List TokenKind} {condition : Expr} {s : Stmt} {inner place : Location}
      (tested : Writes ts condition) (opens : opening.isOpener = true)
      (only : WritesStmt scope depth dangling us s) :
      WritesBranch scope depth true (ts ++ opening :: us) (.branch condition ⟨[s], inner⟩ none place)
  -- The inner statement must leave the `ELSE` to this one.
  | inlineElse {scope : Scope} {depth : Nat} {dangling : Bool} {opening : TokenKind}
      {ts us vs : List TokenKind} {condition : Expr} {s : Stmt} {other : Block}
      {inner place : Location} (tested : Writes ts condition) (opens : opening.isOpener = true)
      (only : WritesStmt scope depth false us s) (otherwise : WritesElse scope depth dangling vs other) :
      WritesBranch scope depth dangling (ts ++ opening :: (us ++ .keyword .ELSE :: vs))
        (.branch condition ⟨[s], inner⟩ (some other) place)
  | block {scope : Scope} {depth : Nat} {taken dangling : Bool} {opening ts us vs : List TokenKind}
      {separator : TokenKind} {condition : Expr} {statements : List Stmt} {other : Option Block}
      {inner place : Location} (tested : Writes ts condition) (opens : IsOpening opening)
      (separates : separator.isSeparator = true)
      (lines : WritesLines scope depth taken (separator :: us) statements)
      (rest : WritesRest scope depth taken dangling vs other) :
      WritesBranch scope depth dangling (ts ++ (opening ++ separator :: (us ++ vs)))
        (.branch condition ⟨statements, inner⟩ other place)

/-- What follows the `ELSE` of a branch on one line. -/
inductive WritesElse : Scope → Nat → Bool → List TokenKind → Block → Prop where
  | branch (inner : WritesBranch scope depth dangling ts s) : WritesElse scope (depth + 1) dangling
      (.keyword .IF :: ts) ⟨[s], place⟩
  | inline {scope : Scope} {depth : Nat} {dangling : Bool} {colon ts : List TokenKind} {s : Stmt}
      {place : Location} (colons : IsColon colon) (only : WritesStmt scope depth dangling ts s)
      (apart : colon = [] → ts.head? ≠ some (.keyword .IF)) :
      WritesElse scope depth dangling (colon ++ ts) ⟨[s], place⟩

/-- What follows the lines of an arm, up to the `END` of the chain. -/
inductive WritesRest : Scope → Nat → Bool → Bool → List TokenKind → Option Block → Prop where
  | done {scope : Scope} {depth : Nat} {taken : Bool} :
      WritesRest scope depth taken false [.keyword .END] none
  | elif {scope : Scope} {depth : Nat} {taken dangling : Bool} {ts : List TokenKind} {s : Stmt}
      {place : Location} (inner : WritesBranch scope depth dangling ts s) :
      WritesRest scope (depth + 1) taken dangling (.keyword .ELIF :: ts) (some ⟨[s], place⟩)
  | elseIf (inner : WritesBranch scope depth dangling ts s) : WritesRest scope (depth + 1) false
      dangling (.keyword .ELSE :: .keyword .IF :: ts) (some ⟨[s], place⟩)
  | inline {scope : Scope} {depth : Nat} {dangling : Bool} {opening : TokenKind}
      {ts breaks : List TokenKind} {s : Stmt} {place : Location} (opens : opening.isOpener = true)
      (only : WritesStmt scope depth dangling ts s)
      (separate : ∀ kind ∈ breaks, kind.isSeparator = true) :
      WritesRest scope depth false false
        (.keyword .ELSE :: opening :: (ts ++ (breaks ++ [.keyword .END]))) (some ⟨[s], place⟩)
  | block {scope : Scope} {depth : Nat} {dangling : Bool} {opening ts : List TokenKind}
      {separator : TokenKind} {statements : List Stmt} {place : Location}
      (opens : IsOpening opening) (separates : separator.isSeparator = true)
      (lines : WritesLines scope depth dangling (separator :: ts) statements) :
      WritesRest scope depth false false
        (.keyword .ELSE :: (opening ++ separator :: (ts ++ [.keyword .END])))
        (some ⟨statements, place⟩)
  -- Without an opener the statements may start on the same line, unless with `IF`.
  | unopened (lines : WritesLines scope depth dangling ts statements)
      (apart : ts.head? ≠ some (.keyword .IF)) : WritesRest scope depth false false
      (.keyword .ELSE :: (ts ++ [.keyword .END])) (some ⟨statements, place⟩)

/-- Statements with separators between them. -/
inductive WritesLines : Scope → Nat → Bool → List TokenKind → List Stmt → Prop where
  | done {scope : Scope} {depth : Nat} {breaks : List TokenKind}
      (separate : ∀ kind ∈ breaks, kind.isSeparator = true) :
      WritesLines scope depth false breaks []
  | last {scope : Scope} {depth : Nat} {dangling : Bool} {breaks ts : List TokenKind} {s : Stmt}
      (separate : ∀ kind ∈ breaks, kind.isSeparator = true)
      (only : WritesStmt scope depth dangling ts s) :
      WritesLines scope depth dangling (breaks ++ ts) [s]
  | more {scope : Scope} {depth : Nat} {taken dangling : Bool} {breaks ts us : List TokenKind}
      {separator : TokenKind} {s : Stmt} {others : List Stmt}
      (separate : ∀ kind ∈ breaks, kind.isSeparator = true)
      (first : WritesStmt scope depth taken ts s) (separates : separator.isSeparator = true)
      (rest : WritesLines scope depth dangling (separator :: us) others) :
      WritesLines scope depth dangling (breaks ++ (ts ++ separator :: us)) (s :: others)

end

end Stepper
