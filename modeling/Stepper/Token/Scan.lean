import Stepper.Decimal.Reader
import Stepper.Diagnostic
import Stepper.Token.Basic
import Stepper.Token.SourceLine

/-! # Scanning

A text is scanned after its comments have been taken out of it. Spaces stand where they were, as many as
the comment has bytes, so every place in the text is a place in the source. The scanner knows nothing of
how the comments were found: it is given them in a queue, and it goes over each as it comes to its start.
It keeps its own account of strings, which end at their quote or before the end of the line.

A token and an error that is reported for it are placed apart. What is left out is the table of the
tokens' names; see `Token.Basic`. -/

namespace Stepper

inductive LexicalFault where
  | unrecognized (c : Char)
  | unterminated
  | malformed (text : String)
deriving DecidableEq, Repr

def LexicalFault.message : LexicalFault → String
  | .unrecognized c => "Unrecognized character '" ++ c.toString ++ "'"
  | .unterminated => "Unterminated string"
  | .malformed text => "Invalid number literal '" ++ text ++ "'"

/-- A lexeme cut off the front of a text: what follows its first character, and what it is. -/
structure Lexeme where
  tail : List Char
  kind : TokenKind
  fault : Option LexicalFault := none

def isGap (c : Char) : Bool := c == ' ' || c == '\t' || c == '\r' || c == '\ufeff'

def isQuote (c : Char) : Bool := c == '"' || c == '\''

def isInterpolationMark (c : Char) : Bool := c == 'f' || c == 'F' || c == '$'

def unescape : Char → Char
  | 'n' => '\n'
  | 't' => '\t'
  | 'r' => '\r'
  | other => other

structure StringBody where
  consumed : List Char
  content : List Char
  closed : Bool

/-- A string behind its opening quote, up to the quote that closes it or the end of the line. -/
def stringRest (quote : Char) (escaped : Bool) : List Char → StringBody
  | [] => ⟨[], [], false⟩
  | c :: rest =>
    if c = '\n' then ⟨[], [], false⟩
    else if escaped then
      let body := stringRest quote false rest
      ⟨c :: body.consumed, unescape c :: body.content, body.closed⟩
    else if c = '\\' then
      let body := stringRest quote true rest
      ⟨c :: body.consumed, body.content, body.closed⟩
    else if c = quote then ⟨[c], [], true⟩
    else
      let body := stringRest quote false rest
      ⟨c :: body.consumed, c :: body.content, body.closed⟩

def stringLexeme (opening : List Char) (body : StringBody) (kind : String → TokenKind) : Lexeme :=
  if body.closed then { tail := opening ++ body.consumed, kind := kind (String.ofList body.content) }
  else { tail := opening ++ body.consumed, kind := .invalid, fault := some .unterminated }

/-- A number; its text is read back, and reported if it is none. -/
def readNumber (first : Char) (rest : List Char) : Lexeme :=
  let (whole, after) := Decimal.spanDigits rest
  let fraction :=
    match after with
    | '.' :: digits => digits.takeWhile Decimal.isDigit
    | _ => []
  let tail := if fraction.isEmpty then whole else whole ++ '.' :: fraction
  let text := String.ofList (first :: tail)
  match Decimal.read? text with
  | some value => { tail, kind := .number value }
  | none => { tail, kind := .invalid, fault := some (.malformed text) }

def wordLexeme (first : Char) (rest : List Char) : Lexeme :=
  let tail := rest.takeWhile Text.isNamePart
  let word := String.ofList (first :: tail)
  { tail
    kind :=
      match Keyword.ofWord? word with
      | some keyword => .keyword keyword
      | none => .identifier word }

def doubleSign? (first second : Char) : Option Operator :=
  match first, second with
  | '=', '=' => some .equalEqual
  | '!', '=' => some .notEqual
  | '<', '=' => some .lessEqual
  | '>', '=' => some .greaterEqual
  | '&', '&' => some .andAnd
  | '|', '|' => some .orOr
  | _, _ => none

def singleSign? (c : Char) : Option TokenKind :=
  match c with
  | '+' => some (.operator .plus)
  | '-' => some (.operator .minus)
  | '*' => some (.operator .star)
  | '/' => some (.operator .slash)
  | '%' => some (.operator .percent)
  | '=' => some (.operator .assign)
  | '<' => some (.operator .less)
  | '>' => some (.operator .greater)
  | '!' => some (.operator .bang)
  | '(' => some (.punct .openParen)
  | ')' => some (.punct .closeParen)
  | '[' => some (.punct .openBracket)
  | ']' => some (.punct .closeBracket)
  | '\x7b' => some (.punct .openBrace)
  | '\x7d' => some (.punct .closeBrace)
  | ',' => some (.punct .comma)
  | ':' => some (.punct .colon)
  | '.' => some (.punct .dot)
  | ';' => some (.punct .semicolon)
  | _ => none

/-- An operator or a grouping sign, the longer one where two are possible; anything else is not
recognized. -/
def signLexeme (first : Char) (rest : List Char) : Lexeme :=
  match rest.head?.bind (doubleSign? first) with
  | some sign => { tail := rest.take 1, kind := .operator sign }
  | none =>
    match singleSign? first with
    | some kind => { tail := [], kind }
    | none => { tail := [], kind := .invalid, fault := some (.unrecognized first) }

structure TokenStream where
  tokens : List Token := []
  errors : List Diagnostic := []

namespace TokenStream

def append (first second : TokenStream) : TokenStream :=
  ⟨first.tokens ++ second.tokens, first.errors ++ second.errors⟩

def withoutTrivia (stream : TokenStream) : TokenStream :=
  { stream with tokens := stream.tokens.filter fun token => !token.kind.isTrivia }

end TokenStream

/-- Where the scanner is. Columns count the characters of the text, offsets its bytes. -/
structure Place where
  line : Nat
  column : Nat
  offset : Nat
deriving DecidableEq, Repr

namespace Place

def after (p : Place) (chars : List Char) : Place :=
  { p with column := p.column + chars.length, offset := p.offset + Text.byteLength chars }

def nextLine (p : Place) : Place := ⟨p.line + 1, 1, p.offset + 1⟩

def past (p : Place) (c : Char) : Place := if c = '\n' then p.nextLine else p.after [c]

def walk (p : Place) (chars : List Char) : Place := chars.foldl past p

def span (p : Place) (stop : Nat) : Location :=
  { line := p.line, column := p.column, start := p.offset, stop }

end Place

namespace Scanner

/-- White space, which ends where the next comment starts. -/
def gap (stop : Option Nat) (offset : Nat) : List Char → List Char
  | [] => []
  | c :: rest =>
    if isGap c && stop != some offset then c :: gap stop (offset + c.utf8Size) rest else []

def opensTemplate (first : Char) (rest : List Char) : Bool :=
  isInterpolationMark first && (rest.head?.map isQuote).getD false

def token (stop : Option Nat) (place : Place) (first : Char) (rest : List Char) : Lexeme :=
  if first = '\n' then { tail := [], kind := .newline }
  else if isGap first then
    { tail := gap stop (place.offset + first.utf8Size) rest, kind := .whitespace }
  else if opensTemplate first rest then
    let quote := rest.head?.getD '"'
    stringLexeme [quote] (stringRest quote false (rest.drop 1)) .interpolated
  else if isQuote first then stringLexeme [] (stringRest first false rest) .string
  else if Decimal.isDigit first then readNumber first rest
  else if Text.isNameStart first then wordLexeme first rest
  else signLexeme first rest

/-- Where an error is reported. A template's error is found at its quote and moved back over its mark. -/
def errorPlace (place : Place) (first : Char) (rest : List Char) : Place :=
  if opensTemplate first rest then
    let quote := place.past first
    { quote with column := max (quote.column - 1) 1, offset := quote.offset - 1 }
  else place

/-- The span of an error, of one byte at least and within the text. -/
def errorSpan (size reached : Nat) (place : Place) : Location :=
  place.span (min (max reached (place.offset + 1)) (max size place.offset))

def due? (comments : List Comment) (place : Place) : Option (Comment × List Comment) :=
  match comments with
  | [] => none
  | comment :: later => if comment.location.start = place.offset then some (comment, later) else none

def skipTo (stop : Nat) (place : Place) : List Char → Place × List Char
  | [] => (place, [])
  | c :: rest =>
    if place.offset < stop then skipTo stop (place.past c) rest else (place, c :: rest)

theorem skipTo_length_le (stop : Nat) (place : Place) (chars : List Char) :
    (skipTo stop place chars).2.length ≤ chars.length := by
  induction chars generalizing place with
  | nil => exact Nat.le_refl _
  | cons c rest ih =>
    unfold skipTo
    split
    · exact Nat.le_succ_of_le (ih _)
    · exact Nat.le_refl _

theorem length_of_due? {comments later : List Comment} {place : Place} {comment : Comment}
    (due : due? comments place = some (comment, later)) : later.length < comments.length := by
  unfold due? at due
  split at due
  · cases due
  · split at due <;> cases due
    exact Nat.lt_succ_self _

/-- The tokens of a text of so many bytes from a place on, with the comments that are still to come. -/
def run (size : Nat) (comments : List Comment) (place : Place) : List Char → TokenStream
  | [] => { tokens := [{ kind := .endOfFile, lexeme := "", location := place.span place.offset }] }
  | first :: rest =>
    match _ : due? comments place with
    | some (comment, later) =>
      let behind := skipTo comment.location.stop place (first :: rest)
      let others := run size later behind.1 behind.2
      { others with
        tokens :=
          { kind := .comment comment.text, lexeme := comment.text, location := comment.location } ::
            others.tokens }
    | none =>
      let found := token (comments.head?.map (·.location.start)) place first rest
      let next := place.walk (first :: found.tail)
      let others := run size comments next (rest.drop found.tail.length)
      { tokens :=
          { kind := found.kind
            lexeme := String.ofList (first :: found.tail)
            location := place.span next.offset } :: others.tokens
        errors :=
          match found.fault with
          | some fault =>
            .error .lexical fault.message
              (errorSpan size next.offset (errorPlace place first rest)) :: others.errors
          | none => others.errors }
termination_by chars => chars.length + comments.length
decreasing_by
  · have fewer := length_of_due? ‹_›
    have shorter := skipTo_length_le comment.location.stop place (first :: rest)
    omega
  · simp only [List.length_cons, List.length_drop]
    omega

end Scanner

def scanAll (marker : Char) (source : String) : TokenStream :=
  let text := blankedText marker source
  Scanner.run text.utf8ByteSize (comments marker source) ⟨1, 1, 0⟩ text.toList

def scan (source : String) : TokenStream := (scanAll commentMarker source).withoutTrivia

end Stepper
