import Stepper.Syntax.ExprParser
import Stepper.Syntax.Stmt

/-! # Reading statements -/

namespace Stepper

namespace Parser

def opener (header : Header) : Parser Bool := do
  if ← accept TokenKind.isOpener then
    return !(← at? TokenKind.endsLine)
  if ← at? TokenKind.endsLine then
    return false
  let token ← look
  report (.expected (.opener header) token.kind) token.location
  update (Reading.skipWhile fun kind => !kind.endsLine)
  return false

def closeBlock (opened : Location) : Parser Unit := do
  if ← accept (TokenKind.isKeyword .END) then pure ()
  else report .missingEnd opened

def headerValue (n : Nat) : Parser Expr := do
  let token ← look
  match ← attempt (expression embedTemplate n) with
  | .ok value => pure value
  | .error error =>
    update (Reading.report error)
    update (Reading.skipWhile fun kind => !kind.endsLine && !kind.isOpener)
    pure (.null token.location)

def paramsFrom : Nat → Parser (List String)
  | 0 => exhausted
  | n + 1 => do
    let first ← expectName .parameterName
    if ← accept (TokenKind.isPunct .comma) then
      let others ← paramsFrom n
      pure (first :: others)
    else pure [first]

def params (n : Nat) : Parser (List String) := do
  if ← at? (TokenKind.isPunct .closeParen) then pure [] else paramsFrom n

def typeHint : Parser (Option String) := do
  if ← accept (TokenKind.isPunct .colon) then
    let name ← expectName .typeName
    pure (some name)
  else pure none

def declare (n : Nat) : Parser Stmt := do
  let start ← next
  let name ← expectName .variableName
  let hint ← typeHint
  if ← accept (TokenKind.isOperator .assign) then
    let value ← expression embedTemplate n
    pure (.declare name hint (some value) (← spanSince start))
  else pure (.declare name hint none (← spanSince start))

def giveBack (n : Nat) : Parser Stmt := do
  let start ← next
  update fun s =>
    if s.functions = 0 then s.report (SyntaxProblem.returnOutsideFunction.errorAt start) else s
  if ← at? TokenKind.endsValue then pure (.giveBack none (← spanSince start))
  else
    let value ← expression embedTemplate n
    pure (.giveBack (some value) (← spanSince start))

def print (n : Nat) : Parser Stmt := do
  let start ← next
  if ← at? TokenKind.endsValue then pure (.print [] (← spanSince start))
  else
    let args ← itemsFrom embedTemplate n
    pure (.print args (← spanSince start))

def loopControl (keyword : Keyword) (make : Location → Stmt) : Parser Stmt := do
  let start ← next
  update fun s =>
    if s.loops = 0 then s.report ((SyntaxProblem.outsideLoop keyword).errorAt start) else s
  pure (make start)

def expressionStatement (n : Nat) : Parser Stmt := do
  let value ← expression embedTemplate n
  pure (.expression value value.location)

/-- The variable and the first value of a counting loop, up to its `FOR`; absent unless a name and
`=` follow. -/
def loopStart (n : Nat) : Parser (Option String × Option Expr) := fun s =>
  match s.peek.kind, s.peekSecond.kind with
  | .identifier _, .operator .assign =>
    (do
      let name ← expectName .loopVariable
      let _ ← next
      let first ← expression embedTemplate n
      let _ ← expect (TokenKind.isKeyword .FOR) .loopCount
      pure (some name, some first) : Parser (Option String × Option Expr)) s
  | _, _ => .ok (none, none) s

def superclass : Parser (Option String) := do
  if ← accept (TokenKind.isKeyword .EXTENDS) then
    let token ← look
    let name ← expectName .superclassName
    warn (.unresolvedSuperclass name) token.location
    pure (some name)
  else pure none

def isClassMember : Stmt → Bool
  | .declare _ _ _ _ | .function _ _ => true
  | _ => false

def checkMembers (members : List Stmt) : Parser Unit :=
  update fun s =>
    (members.filter fun member => !isClassMember member).foldl
      (fun s member => s.report (SyntaxProblem.notAClassMember.errorAt member.location)) s

structure Preceding where
  diverged : Bool := false
  flagged : Bool := false

mutual

def statements : Nat → List Keyword → Preceding → Parser (List Stmt)
  | 0, _, _ => exhausted
  | n + 1, terminators, before => do
    skipBreaks
    if ← at? fun kind => kind.isEnd || kind.isOneOf terminators then pure []
    else
      let remaining ← tokensLeft
      match ← attempt (statement n) with
      | .ok found =>
        if before.diverged && !before.flagged then
          warn .unreachable found.location
        unless ← at? fun kind => kind.endsLine || kind.isOneOf terminators do
          let token ← look
          report (.expected .endOfStatement token.kind) token.location
          skipToStatement
        let others ← statements n terminators
          { diverged := found.diverges, flagged := before.flagged || before.diverged }
        pure (found :: others)
      | .error error =>
        update (Reading.report error)
        if (← tokensLeft) = remaining then
          let _ ← next
        skipToStatement
        statements n terminators before

def statement : Nat → Parser Stmt
  | 0 => exhausted
  | n + 1 => insideStatement (statementByKeyword n)

def statementByKeyword : Nat → Parser Stmt
  | 0 => exhausted
  | n + 1 => do
    let token ← look
    match token.kind with
    | .keyword .LET => declare n
    | .keyword .FUNC => function n
    | .keyword .CLASS => classDef n
    | .keyword .IF =>
      let start ← next
      branch n start
    | .keyword .WHILE => whileLoop n
    | .keyword .FOR => forRange n
    | .keyword .LOOP => repeatLoop n
    | .keyword .START => startBlock n
    | .keyword .RETURN => giveBack n
    | .keyword .PRINT => print n
    | .keyword .BREAK => loopControl .BREAK .leaveLoop
    | .keyword .CONTINUE => loopControl .CONTINUE .nextIteration
    | .keyword .END => failAt .strayEnd token.location
    | .keyword .ELSE => failAt (.strayBranch .ELSE) token.location
    | .keyword .ELIF => failAt (.strayBranch .ELIF) token.location
    | _ => expressionStatement n

def function : Nat → Parser Stmt
  | 0 => exhausted
  | n + 1 => do
    let start ← next
    let name ← expectName .functionName
    let _ ← expect (TokenKind.isPunct .openParen) .startOfParameters
    let names ← params n
    let _ ← expect (TokenKind.isPunct .closeParen) .endOfParameters
    let body ← insideFunction (body n .function start)
    let location ← spanSince start
    let unit ← currentUnit
    pure (.function { name, params := names, body, location, unit } location)

def classDef : Nat → Parser Stmt
  | 0 => exhausted
  | n + 1 => do
    let start ← next
    let name ← expectName .className
    let super ← superclass
    let body ← body n .classDef start
    checkMembers body.statements
    let location ← spanSince start
    let unit ← currentUnit
    pure (.classDef { name, superclass := super, body, location, unit } location)

/-- Everything behind `IF`, `ELIF` or `ELSE IF`, with the `END` that the whole chain shares. -/
def branch : Nat → Location → Parser Stmt
  | 0, _ => exhausted
  | n + 1, start => do
    let condition ← headerValue n
    if ← opener .branch then
      let thenBranch := Block.single (← statement n)
      let elseBranch ← inlineElse n
      pure (.branch condition thenBranch elseBranch (← spanSince start))
    else
      let token ← look
      let inner ← statements n [.END, .ELSE, .ELIF] {}
      let thenBranch : Block := ⟨inner, token.location⟩
      let elseBranch ← blockElse n start
      pure (.branch condition thenBranch elseBranch (← spanSince start))

def inlineElse : Nat → Parser (Option Block)
  | 0 => exhausted
  | n + 1 => do
    if ← accept (TokenKind.isKeyword .ELSE) then
      let start ← lastLocation
      if ← accept (TokenKind.isKeyword .IF) then
        let inner ← insideStatement (branch n start)
        pure (some (.single inner))
      else
        let _ ← accept (TokenKind.isPunct .colon)
        let inner ← statement n
        pure (some (.single inner))
    else pure none

/-- What follows the first block of a chain opened at a location: another condition, a last branch,
or its `END`. -/
def blockElse : Nat → Location → Parser (Option Block)
  | 0, _ => exhausted
  | n + 1, opened => do
    if ← accept (TokenKind.isKeyword .ELIF) then
      let start ← lastLocation
      let inner ← insideStatement (branch n start)
      pure (some (.single inner))
    else if ← accept (TokenKind.isKeyword .ELSE) then
      let start ← lastLocation
      if ← accept (TokenKind.isKeyword .IF) then
        let inner ← insideStatement (branch n start)
        pure (some (.single inner))
      else if (← accept TokenKind.isOpener) && !(← at? TokenKind.endsLine) then
        let inner ← statement n
        skipBreaks
        closeBlock opened
        pure (some (.single inner))
      else
        let inner ← statements n [.END] {}
        closeBlock opened
        pure (some ⟨inner, start⟩)
    else
      closeBlock opened
      pure none

def whileLoop : Nat → Parser Stmt
  | 0 => exhausted
  | n + 1 => do
    let start ← next
    let condition ← headerValue n
    let body ← insideLoop (body n .whileLoop start)
    pure (.whileLoop condition body (← spanSince start))

def forRange : Nat → Parser Stmt
  | 0 => exhausted
  | n + 1 => do
    let start ← next
    let var ← expectName .rangeVariable
    let _ ← expect (TokenKind.isOperator .assign) .rangeAssign
    let first ← expression embedTemplate n
    let _ ← expect (TokenKind.isKeyword .TO) .rangeEnd
    let last ← expression embedTemplate n
    let step ← rangeStep n
    let body ← insideLoop (body n .forRange start)
    pure (.forRange var first last step body (← spanSince start))

def rangeStep : Nat → Parser (Option Expr)
  | 0 => exhausted
  | n + 1 => do
    if ← accept (TokenKind.isKeyword .STEP) then
      let value ← expression embedTemplate n
      pure (some value)
    else pure none

def repeatLoop : Nat → Parser Stmt
  | 0 => exhausted
  | n + 1 => do
    let start ← next
    let (var, first) ← loopStart n
    let count ← expression embedTemplate n
    let _ ← expect (TokenKind.isKeyword .TIMES) .loopTimes
    let body ← insideLoop (body n .repeatLoop start)
    pure (.repeatLoop var first count body (← spanSince start))

def startBlock : Nat → Parser Stmt
  | 0 => exhausted
  | n + 1 => do
    let start ← next
    let _ ← accept (TokenKind.isPunct .colon)
    let inner ← statements n [.END] {}
    closeBlock start
    pure (.block ⟨inner, start⟩ (← spanSince start))

def body : Nat → Header → Location → Parser Block
  | 0, _, _ => exhausted
  | n + 1, header, start => do
    let inline ← opener header
    let token ← look
    if inline then
      match ← attempt (statement n) with
      | .ok inner => pure (.single inner)
      | .error error =>
        update (Reading.report error)
        skipToStatement
        pure ⟨[], token.location⟩
    else
      let inner ← statements n [.END] {}
      closeBlock start
      pure ⟨inner, token.location⟩

end

end Parser

/-- What reading a token list gives: the statements, and what is wrong with them in order. -/
structure Parsed where
  statements : List Stmt
  errors : List Diagnostic
  warnings : List Diagnostic

def parse (tokens : List Token) (unit : Nat := 0) : Parsed :=
  let start := Reading.ofTokens tokens unit
  match Parser.statements (parseFuel start.rest) [] {} start with
  | .ok statements s => ⟨statements, s.errors.reverse, s.warnings.reverse⟩
  | .fail error s => ⟨[], (error :: s.errors).reverse, s.warnings.reverse⟩
  | .spent s => ⟨[], s.errors.reverse, s.warnings.reverse⟩

end Stepper
