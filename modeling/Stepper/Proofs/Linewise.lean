import Stepper.Token.Scan

/-! # Scanning line by line

The same tokens, one line after another and a comment apart from the code before it. Nothing here runs:
`scanAll_eq` says that the scanner gives these tokens, and what is proved of them holds of its own. -/

namespace Stepper

def stringBody (quote : Char) : List Char → StringBody
  | [] => ⟨[], [], false⟩
  | '\\' :: [] => ⟨['\\'], [], false⟩
  | '\\' :: c :: rest =>
    let body := stringBody quote rest
    ⟨'\\' :: c :: body.consumed, unescape c :: body.content, body.closed⟩
  | c :: rest =>
    if c = quote then ⟨[c], [], true⟩
    else
      let body := stringBody quote rest
      ⟨c :: body.consumed, c :: body.content, body.closed⟩

def numberLexeme (first : Char) (rest : List Char) : Lexeme :=
  let (whole, after) := Decimal.spanDigits rest
  let fraction :=
    match after with
    | '.' :: digits => digits.takeWhile Decimal.isDigit
    | _ => []
  let digits := first :: whole ++ fraction
  { tail := if fraction.isEmpty then whole else whole ++ '.' :: fraction
    kind := .number (Decimal.ofDecimal false (Decimal.natural 0 digits) (-(fraction.length : Int))) }

def lexeme (first : Char) (rest : List Char) : Lexeme :=
  if isGap first then { tail := rest.takeWhile isGap, kind := .whitespace }
  else if isInterpolationMark first && (rest.head?.map isQuote).getD false then
    let quote := rest.head?.getD '"'
    stringLexeme [quote] (stringBody quote (rest.drop 1)) .interpolated
  else if isQuote first then stringLexeme [] (stringBody first rest) .string
  else if Decimal.isDigit first then numberLexeme first rest
  else if Text.isNameStart first then wordLexeme first rest
  else signLexeme first rest

def Place.afterComment (p : Place) (comment : List Char) : Place :=
  { p with
    column := p.column + Text.byteLength comment
    offset := p.offset + Text.byteLength comment }

def scanCode (place : Place) : List Char → TokenStream
  | [] => {}
  | first :: rest =>
    let found := lexeme first rest
    let next := place.after (first :: found.tail)
    let location := place.span next.offset
    let others := scanCode next (rest.drop found.tail.length)
    { tokens :=
        { kind := found.kind, lexeme := String.ofList (first :: found.tail), location } ::
          others.tokens
      errors :=
        match found.fault with
        | some fault => .error .lexical fault.message location :: others.errors
        | none => others.errors }
termination_by code => code.length
decreasing_by simp only [List.length_cons, List.length_drop]; omega

def scanComment (place : Place) (comment : List Char) : TokenStream :=
  if comment.isEmpty then {}
  else
    let text := String.ofList comment
    { tokens :=
        [{ kind := .comment text, lexeme := text
           location := place.span (place.offset + Text.byteLength comment) }] }

def scanLines (place : Place) : List SourceLine → TokenStream
  | [] => { tokens := [{ kind := .endOfFile, lexeme := "", location := place.span place.offset }] }
  | line :: rest =>
    let code := scanCode place line.code
    let behindCode := place.after line.code
    let comment := scanComment behindCode line.comment
    let behind := behindCode.afterComment line.comment
    let others :=
      match rest with
      | [] => scanLines behind []
      | next :: more =>
        let lineBreak : TokenStream :=
          { tokens :=
              [{ kind := .newline, lexeme := "\n", location := behind.span (behind.offset + 1) }] }
        lineBreak.append (scanLines behind.nextLine (next :: more))
    (code.append comment).append others

end Stepper
