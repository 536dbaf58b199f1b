import Stepper.Syntax.Expr

/-! # Statements and programs -/

namespace Stepper

mutual

structure Block where
  statements : List Stmt
  location : Location

structure FunctionDecl where
  name : String
  params : List String
  body : Block
  location : Location
  unit : Nat

structure ClassDecl where
  name : String
  superclass : Option String
  body : Block
  location : Location
  unit : Nat

inductive Stmt where
  | declare (name : String) (typeHint : Option String) (value : Option Expr) (location : Location)
  | function (decl : FunctionDecl) (location : Location)
  | classDef (decl : ClassDecl) (location : Location)
  | branch (condition : Expr) (thenBranch : Block) (elseBranch : Option Block)
      (location : Location)
  | whileLoop (condition : Expr) (body : Block) (location : Location)
  | forRange (var : String) (first last : Expr) (step : Option Expr) (body : Block)
      (location : Location)
  | repeatLoop (var : Option String) (start : Option Expr) (count : Expr) (body : Block)
      (location : Location)
  | block (body : Block) (location : Location)
  | giveBack (value : Option Expr) (location : Location)
  | print (args : List Expr) (location : Location)
  | leaveLoop (location : Location)
  | nextIteration (location : Location)
  | expression (value : Expr) (location : Location)

end

structure Program where
  statements : List Stmt

namespace Stmt

def location : Stmt → Location
  | .declare _ _ _ l | .function _ l | .classDef _ l | .branch _ _ _ l | .whileLoop _ _ l
  | .forRange _ _ _ _ _ l | .repeatLoop _ _ _ _ l | .block _ l | .giveBack _ l | .print _ l
  | .leaveLoop l | .nextIteration l | .expression _ l => l

def line (s : Stmt) : Nat := s.location.line

def diverges : Stmt → Bool
  | .giveBack _ _ | .leaveLoop _ | .nextIteration _ => true
  | _ => false

def bodies : Stmt → List Block
  | .function decl _ => [decl.body]
  | .classDef decl _ => [decl.body]
  | .branch _ thenBranch elseBranch _ => thenBranch :: elseBranch.toList
  | .whileLoop _ body _ | .forRange _ _ _ _ body _ | .repeatLoop _ _ _ body _ | .block body _ =>
    [body]
  | .declare _ _ _ _ | .giveBack _ _ | .print _ _ | .leaveLoop _ | .nextIteration _
  | .expression _ _ => []

def sharesLineWithBody (s : Stmt) : Bool :=
  match s.bodies with
  | [] => false
  | body :: _ =>
    match body.statements with
    | [] => false
    | inner :: _ => inner.line == s.line

end Stmt

def Block.single (s : Stmt) : Block := ⟨[s], s.location⟩

mutual

def Stmt.preorder : Stmt → List Stmt
  | .function decl l => .function decl l :: functionStatements decl
  | .classDef decl l => .classDef decl l :: classStatements decl
  | .branch condition thenBranch elseBranch l =>
    .branch condition thenBranch elseBranch l ::
      (blockStatements thenBranch ++ optionStatements elseBranch)
  | .whileLoop condition body l => .whileLoop condition body l :: blockStatements body
  | .forRange var first last step body l =>
    .forRange var first last step body l :: blockStatements body
  | .repeatLoop var start count body l =>
    .repeatLoop var start count body l :: blockStatements body
  | .block body l => .block body l :: blockStatements body
  | .declare name hint value l => [.declare name hint value l]
  | .giveBack value l => [.giveBack value l]
  | .print args l => [.print args l]
  | .leaveLoop l => [.leaveLoop l]
  | .nextIteration l => [.nextIteration l]
  | .expression value l => [.expression value l]

def listStatements : List Stmt → List Stmt
  | [] => []
  | first :: rest => first.preorder ++ listStatements rest

def blockStatements : Block → List Stmt
  | ⟨statements, _⟩ => listStatements statements

def optionStatements : Option Block → List Stmt
  | none => []
  | some body => blockStatements body

def functionStatements : FunctionDecl → List Stmt
  | ⟨_, _, body, _, _⟩ => blockStatements body

def classStatements : ClassDecl → List Stmt
  | ⟨_, _, body, _, _⟩ => blockStatements body

end

def Program.allStatements (p : Program) : List Stmt := listStatements p.statements

end Stepper
