import Stepper.Syntax.Parser
import Stepper.Syntax.Template
import Stepper.Token.Scan

/-! # Reading expressions -/

namespace Stepper

inductive Level where
  | disjunction
  | conjunction
  | equality
  | relation
  | sum
  | product
deriving DecidableEq, Repr

def ladder : List Level := [.disjunction, .conjunction, .equality, .relation, .sum, .product]

inductive Connective where
  | binary (op : BinaryOp)
  | logical (op : LogicalOp)
deriving DecidableEq, Repr

def Connective.join : Connective → Expr → Expr → Expr
  | .binary op => Expr.ofBinary op
  | .logical op => Expr.ofLogical op

def Level.connective? : Level → TokenKind → Option Connective
  | .disjunction, .keyword .OR => some (.logical .or)
  | .disjunction, .operator .orOr => some (.logical .or)
  | .conjunction, .keyword .AND => some (.logical .and)
  | .conjunction, .operator .andAnd => some (.logical .and)
  | .equality, .operator .equalEqual => some (.binary .eq)
  | .equality, .operator .notEqual => some (.binary .ne)
  | .relation, .operator .less => some (.binary .lt)
  | .relation, .operator .lessEqual => some (.binary .le)
  | .relation, .operator .greater => some (.binary .gt)
  | .relation, .operator .greaterEqual => some (.binary .ge)
  | .sum, .operator .plus => some (.binary .add)
  | .sum, .operator .minus => some (.binary .sub)
  | .product, .operator .star => some (.binary .mul)
  | .product, .operator .slash => some (.binary .div)
  | .product, .operator .percent => some (.binary .mod)
  | _, _ => none

def unaryOp? : TokenKind → Option UnaryOp
  | .operator .minus => some .neg
  | .operator .bang => some .not
  | .keyword .NOT => some .not
  | _ => none

abbrev Embedding : Type := Location → String → Except Diagnostic (List StringPart)

def parseFuel (tokens : List Token) : Nat := 32 * (tokens.length + 2)

namespace Parser

def exhausted {α : Type} : Parser α := fun s => .spent s

mutual

def expression (embed : Embedding) : Nat → Parser Expr
  | 0 => exhausted
  | n + 1 => insideExpression (assignment embed n)

def assignment (embed : Embedding) : Nat → Parser Expr
  | 0 => exhausted
  | n + 1 => do
    let target ← climb embed n ladder
    if ← at? (TokenKind.isOperator .assign) then
      let sign ← next
      let value ← assignment embed n
      match target with
      | .identifier name location => pure (.assign name value (location.upTo value.location))
      | _ => failAt .invalidTarget sign
    else pure target

/-- Operands of the first level, joined from left to right; below the last level, a unary
expression. -/
def climb (embed : Embedding) : Nat → List Level → Parser Expr
  | 0, _ => exhausted
  | n + 1, [] => unary embed n
  | n + 1, level :: tighter => do
    let left ← climb embed n tighter
    climbOn embed n level tighter left

def climbOn (embed : Embedding) : Nat → Level → List Level → Expr → Parser Expr
  | 0, _, _, _ => exhausted
  | n + 1, level, tighter, left => do
    match level.connective? (← look).kind with
    | some connective =>
      let _ ← next
      let right ← climb embed n tighter
      climbOn embed n level tighter (connective.join left right)
    | none => pure left

def unary (embed : Embedding) : Nat → Parser Expr
  | 0 => exhausted
  | n + 1 => do
    match unaryOp? (← look).kind with
    | some op =>
      let start ← next
      let operand ← insideExpression (unary embed n)
      pure (.unary op operand (start.upTo operand.location))
    | none =>
      let target ← primary embed n
      chain embed n target

def chain (embed : Embedding) : Nat → Expr → Parser Expr
  | 0, _ => exhausted
  | n + 1, target => do
    if ← accept (TokenKind.isPunct .openParen) then
      let args ← items embed n .closeParen
      let close ← expect (TokenKind.isPunct .closeParen) .endOfArguments
      chain embed n (.call target args (target.location.upTo close))
    else if ← accept (TokenKind.isPunct .openBracket) then
      let index ← expression embed n
      let close ← expect (TokenKind.isPunct .closeBracket) .endOfIndex
      chain embed n (.index target index (target.location.upTo close))
    else if ← accept (TokenKind.isPunct .dot) then
      let nameToken ← look
      let name ← expectName .memberName
      chain embed n (.member target name (target.location.upTo nameToken.location))
    else pure target

def items (embed : Embedding) : Nat → Punct → Parser (List Expr)
  | 0, _ => exhausted
  | n + 1, close => do
    if ← at? (TokenKind.isPunct close) then pure [] else itemsFrom embed n

def itemsFrom (embed : Embedding) : Nat → Parser (List Expr)
  | 0 => exhausted
  | n + 1 => do
    let first ← expression embed n
    if ← accept (TokenKind.isPunct .comma) then
      let others ← itemsFrom embed n
      pure (first :: others)
    else pure [first]

def primary (embed : Embedding) : Nat → Parser Expr
  | 0 => exhausted
  | n + 1 => do
    let token ← look
    match token.kind with
    | .number value =>
      let location ← next
      pure (.number value location)
    | .string content =>
      let location ← next
      pure (.string content location)
    | .interpolated body =>
      let location ← next
      let parts ← ofExcept (embed location body)
      pure (.interpolated parts location)
    | .keyword .TRUE =>
      let location ← next
      pure (.bool true location)
    | .keyword .FALSE =>
      let location ← next
      pure (.bool false location)
    | .keyword .NULL =>
      let location ← next
      pure (.null location)
    | .identifier name =>
      let location ← next
      pure (.identifier name location)
    | .invalid =>
      let location ← next
      pure (.null location)
    | .punct .openParen =>
      let _ ← next
      let inner ← expression embed n
      let _ ← expect (TokenKind.isPunct .closeParen) .endOfGroup
      pure inner
    | .punct .openBracket =>
      let location ← next
      let elements ← items embed n .closeBracket
      let close ← expect (TokenKind.isPunct .closeBracket) .endOfArray
      pure (.array elements (location.upTo close))
    | _ => failExpected .expression

end

end Parser

def parseExpressionWith (embed : Embedding) (source : String) : Except (List Diagnostic) Expr :=
  let stream := scan source
  if !stream.errors.isEmpty then .error stream.errors
  else
    let start := Reading.ofTokens stream.tokens
    let parser : Parser Expr := do
      Parser.skipBreaks
      let value ← Parser.expression embed (parseFuel start.rest)
      Parser.skipBreaks
      let token ← Parser.look
      if token.kind.isEnd then pure value
      else Parser.failAt (.trailing token.kind) token.location
    match parser start with
    | .ok value _ => .ok value
    | .fail error _ => .error [error]
    | .spent _ => .error []

def parsePlaceholder (embed : Embedding) (location : Location) (text : List Char) :
    Except Diagnostic Expr :=
  if (Text.trimmed text).isEmpty then .error (SyntaxProblem.emptyPlaceholder.errorAt location)
  else
    match parseExpressionWith embed (String.ofList text) with
    | .ok value => .ok (value.relocate location)
    | .error errors =>
      .error { errors.head?.getD (SyntaxProblem.emptyPlaceholder.errorAt location) with location }

/-- The parts of a template whose placeholders hold templates of their own, down to a depth below which
another reader takes over. -/
def templateParts (below : Embedding) : Nat → Embedding
  | 0 => below
  | depth + 1 => fun location body =>
    partsOfPieces (parsePlaceholder (templateParts below depth) location) location
      (templatePieces (.outside []) body.toList)

def embedTemplate : Embedding := fun location body =>
  templateParts (fun _ _ => .ok []) (body.length + 1) location body

def parseExpression (source : String) : Except (List Diagnostic) Expr :=
  parseExpressionWith embedTemplate source

def parseTemplate (source : String) : Except (List Diagnostic) (List StringPart) :=
  (embedTemplate (.point 1 1) source).mapError fun error => [error]

end Stepper
