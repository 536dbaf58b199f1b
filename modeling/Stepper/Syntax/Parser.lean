import Stepper.Syntax.Problem

/-! # Reading tokens -/

namespace Stepper

def nestingLimit : Nat := 256

structure Reading where
  rest : List Token
  ending : Token
  last : Location
  errors : List Diagnostic := []
  warnings : List Diagnostic := []
  loops : Nat := 0
  functions : Nat := 0
  expressions : Nat := 0
  statements : Nat := 0
  depthReported : Bool := false
  unit : Nat := 0

/-- What a parser replies: a value, an error, or that its bound did not suffice, which says nothing
about the text. -/
inductive Reply (α : Type) where
  | ok (value : α) (next : Reading)
  | fail (error : Diagnostic) (next : Reading)
  | spent (next : Reading)

def Reply.update {α : Type} (change : Reading → Reading) : Reply α → Reply α
  | .ok value t => .ok value (change t)
  | .fail error t => .fail error (change t)
  | .spent t => .spent (change t)

def Parser (α : Type) : Type := Reading → Reply α

namespace Reading

def endingFor (tokens : List Token) : Token :=
  match tokens.getLast? with
  | some token =>
    { kind := .endOfFile
      lexeme := ""
      location := { token.location with start := token.location.stop } }
  | none => { kind := .endOfFile, lexeme := "", location := .point 1 1 }

def ofTokens (tokens : List Token) (unit : Nat := 0) : Reading :=
  let solid := tokens.filter fun token => !token.kind.isTrivia
  let rest := solid.takeWhile fun token => !token.kind.isEnd
  let ending := (solid.find? fun token => token.kind.isEnd).getD (endingFor solid)
  { rest, ending, last := ((rest.head?).getD ending).location, unit }

def peek (s : Reading) : Token := s.rest.head?.getD s.ending

def peekSecond (s : Reading) : Token := (s.rest.drop 1).head?.getD s.ending

def advance (s : Reading) : Reading :=
  match s.rest with
  | [] => s
  | token :: rest => { s with rest, last := token.location }

def dropTokens (test : TokenKind → Bool) (last : Location) : List Token → Location × List Token
  | [] => (last, [])
  | token :: rest =>
    if test token.kind then dropTokens test token.location rest else (last, token :: rest)

def skipWhile (test : TokenKind → Bool) (s : Reading) : Reading :=
  let (last, rest) := dropTokens test s.last s.rest
  { s with rest, last }

def report (error : Diagnostic) (s : Reading) : Reading := { s with errors := error :: s.errors }

def warn (warning : Diagnostic) (s : Reading) : Reading :=
  { s with warnings := warning :: s.warnings }

end Reading

namespace TokenKind

def isKeyword (keyword : Keyword) : TokenKind → Bool
  | .keyword word => word == keyword
  | _ => false

def isOneOf (keywords : List Keyword) : TokenKind → Bool
  | .keyword word => keywords.contains word
  | _ => false

def isPunct (sign : Punct) : TokenKind → Bool
  | .punct p => p == sign
  | _ => false

def isOperator (sign : Operator) : TokenKind → Bool
  | .operator o => o == sign
  | _ => false

def isSeparator : TokenKind → Bool
  | .newline => true
  | .punct .semicolon => true
  | _ => false

def endsLine (kind : TokenKind) : Bool := kind.isSeparator || kind.isEnd

def endsValue (kind : TokenKind) : Bool := kind.endsLine || kind.isOneOf [.END, .ELSE, .ELIF]

def isOpener (kind : TokenKind) : Bool := kind.isPunct .colon || kind.isOneOf [.THEN, .DO]

def beginsStatement : TokenKind → Bool
  | .keyword word => word.beginsStatement
  | _ => false

end TokenKind

namespace Parser

protected def pure {α : Type} (value : α) : Parser α := fun s => .ok value s

protected def bind {α β : Type} (first : Parser α) (next : α → Parser β) : Parser β := fun s =>
  match first s with
  | .ok value t => next value t
  | .fail error t => .fail error t
  | .spent t => .spent t

instance : Monad Parser where
  pure := Parser.pure
  bind := Parser.bind

def look : Parser Token := fun s => .ok s.peek s

def next : Parser Location := fun s => .ok s.advance.last s.advance

def lastLocation : Parser Location := fun s => .ok s.last s

def spanSince (start : Location) : Parser Location := fun s => .ok (start.upTo s.last) s

def tokensLeft : Parser Nat := fun s => .ok s.rest.length s

def currentUnit : Parser Nat := fun s => .ok s.unit s

def update (change : Reading → Reading) : Parser Unit := fun s => .ok () (change s)

def failAt {α : Type} (problem : SyntaxProblem) (location : Location) : Parser α := fun s =>
  .fail (problem.errorAt location) s

/-- Ends the construct because the next token is not what the grammar asks for. -/
def failExpected {α : Type} (what : Expectation) : Parser α := fun s =>
  .fail ((SyntaxProblem.expected what s.peek.kind).errorAt s.peek.location) s

def report (problem : SyntaxProblem) (location : Location) : Parser Unit :=
  update (Reading.report (problem.errorAt location))

def warn (problem : SyntaxProblem) (location : Location) : Parser Unit :=
  update (Reading.warn (problem.warningAt location))

def at? (test : TokenKind → Bool) : Parser Bool := fun s => .ok (test s.peek.kind) s

def accept (test : TokenKind → Bool) : Parser Bool := fun s =>
  if test s.peek.kind then .ok true s.advance else .ok false s

/-- Consumes a token that passes a test and replies where it stands; anything else is an error. -/
def expect (test : TokenKind → Bool) (what : Expectation) : Parser Location := do
  if ← at? test then next else failExpected what

def expectName (what : Expectation) : Parser String := fun s =>
  match s.peek.kind with
  | .identifier name => .ok name s.advance
  | _ => failExpected what s

def attempt {α : Type} (parser : Parser α) : Parser (Except Diagnostic α) := fun s =>
  match parser s with
  | .ok value t => .ok (.ok value) t
  | .fail error t => .ok (.error error) t
  | .spent t => .spent t

def ofExcept {α : Type} : Except Diagnostic α → Parser α
  | .ok value => pure value
  | .error error => fun s => .fail error s

def skipBreaks : Parser Unit := update (Reading.skipWhile TokenKind.isSeparator)

/-- Skips to the next place where a statement is likely to start: behind a line break or a
semicolon, or before a keyword that starts a statement. -/
def skipToStatement : Parser Unit := do
  update (Reading.skipWhile fun kind => !kind.isSeparator && !kind.beginsStatement)
  let _ ← accept TokenKind.isSeparator

/-- Reads one level deeper into expressions; past the deepest accepted level it is an error. -/
def insideExpression {α : Type} (parser : Parser α) : Parser α := fun s =>
  if s.expressions ≥ nestingLimit then failAt .expressionTooDeep s.peek.location s
  else
    (parser { s with expressions := s.expressions + 1 }).update fun t =>
      { t with expressions := t.expressions - 1 }

def insideStatement {α : Type} (parser : Parser α) : Parser α := fun s =>
  let s :=
    if s.statements ≥ nestingLimit && !s.depthReported then
      { s.report (SyntaxProblem.blockTooDeep.errorAt s.peek.location) with depthReported := true }
    else s
  (parser { s with statements := s.statements + 1 }).update fun t =>
    { t with statements := t.statements - 1 }

def insideLoop {α : Type} (parser : Parser α) : Parser α := fun s =>
  (parser { s with loops := s.loops + 1 }).update fun t => { t with loops := t.loops - 1 }

def insideFunction {α : Type} (parser : Parser α) : Parser α := fun s =>
  (parser { s with loops := 0, functions := s.functions + 1 }).update fun t =>
    { t with loops := s.loops, functions := t.functions - 1 }

end Parser

end Stepper
