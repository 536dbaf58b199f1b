import Stepper.Config
import Stepper.Decimal.Reader

/-! # Configuration files -/

namespace Stepper.Config

def isBlank (c : Char) : Bool := c == ' ' || c == '\t'

def isCommentChar (c : Char) : Bool := c == '\t' || (' ' ≤ c && c != '\x7f')

def isKeyChar (c : Char) : Bool := c.isAlphanum || c == '_' || c == '-'

def endsLine (text : List Char) : Bool :=
  match text.dropWhile isBlank with
  | [] => true
  | '#' :: comment => comment.all isCommentChar
  | _ => false

def digitIn? (base : Nat) (c : Char) : Option Nat :=
  let value :=
    if '0' ≤ c ∧ c ≤ '9' then c.toNat - '0'.toNat
    else if 'a' ≤ c ∧ c ≤ 'f' then c.toNat - 'a'.toNat + 10
    else if 'A' ≤ c ∧ c ≤ 'F' then c.toNat - 'A'.toNat + 10
    else 16
  if value < base then some value else none

def digitsFrom (base : Nat) (seen : Nat) : List Char → Nat × List Char
  | [] => (seen, [])
  | '_' :: c :: rest =>
    match digitIn? base c with
    | some d => digitsFrom base (seen * base + d) rest
    | none => (seen, '_' :: c :: rest)
  | c :: rest =>
    match digitIn? base c with
    | some d => digitsFrom base (seen * base + d) rest
    | none => (seen, c :: rest)

def numberIn? (base : Nat) : List Char → Option (Nat × List Char)
  | c :: rest => (digitIn? base c).map fun d => digitsFrom base d rest
  | [] => none

def decimal? : List Char → Option (Nat × List Char)
  | '0' :: rest => some (0, rest)
  | text => numberIn? 10 text

def integer? (text : List Char) : Option (Nat × List Char) :=
  match text with
  | '0' :: 'x' :: rest => numberIn? 16 rest
  | '0' :: 'o' :: rest => numberIn? 8 rest
  | '0' :: 'b' :: rest => numberIn? 2 rest
  | '+' :: rest => decimal? rest
  | '-' :: rest => (decimal? rest).filter fun (n, _) => n == 0
  | text => decimal? text

def greatestInteger : Nat := Nat.pow 2 63 - 1

def escapedChar? (digits : List Char) : Option Char :=
  match digits.mapM (digitIn? 16) with
  | some values =>
    let code := values.foldl (fun seen d => seen * 16 + d) 0
    if code.isValidChar then some (Char.ofNat code) else none
  | none => none

def quotedKey? (seen : List Char) : List Char → Option (String × List Char)
  | [] => none
  | '"' :: rest => some (String.ofList seen.reverse, rest)
  | '\\' :: 'u' :: a :: b :: c :: d :: rest =>
    match escapedChar? [a, b, c, d] with
    | some character => quotedKey? (character :: seen) rest
    | none => none
  | '\\' :: 'U' :: a :: b :: c :: d :: e :: f :: g :: h :: rest =>
    match escapedChar? [a, b, c, d, e, f, g, h] with
    | some character => quotedKey? (character :: seen) rest
    | none => none
  | '\\' :: _ => none
  | c :: rest => if isCommentChar c then quotedKey? (c :: seen) rest else none

def key? (text : List Char) : Option (String × List Char) :=
  match text with
  | '"' :: rest => quotedKey? [] rest
  | '\'' :: rest =>
    match rest.dropWhile (· ≠ '\'') with
    | _ :: after => some (String.ofList (rest.takeWhile (· ≠ '\'')), after)
    | [] => none
  | text =>
    let name := text.takeWhile isKeyChar
    if name.isEmpty then none else some (String.ofList name, text.dropWhile isKeyChar)

def entry? (text : List Char) : Option (Setting × Nat) :=
  match key? text with
  | none => none
  | some (name, rest) =>
    match Setting.ofName? name, rest.dropWhile isBlank with
    | some setting, '=' :: rest =>
      match integer? (rest.dropWhile isBlank) with
      | some (value, rest) =>
        if value ≤ greatestInteger && endsLine rest then some (setting, value) else none
      | none => none
    | _, _ => none

/-- Cuts a text into lines; a carriage return in front of a line feed belongs to the line's end. -/
def fileLines (line : List Char) : List Char → List (List Char)
  | [] => [line.reverse]
  | '\r' :: '\n' :: rest => line.reverse :: fileLines [] rest
  | '\n' :: rest => line.reverse :: fileLines [] rest
  | c :: rest => fileLines (c :: line) rest

def applyLines (config : Config) (seen : List Setting) : List (List Char) → Option Config
  | [] => some config
  | line :: rest =>
    if endsLine line then applyLines config seen rest
    else
      match entry? (line.dropWhile isBlank) with
      | some (setting, value) =>
        if seen.contains setting then none
        else applyLines (config.set setting value) (setting :: seen) rest
      | none => none

def byteOrderMark : Char := '\ufeff'

def read? (text : String) : Option Config :=
  let characters :=
    match text.toList with
    | c :: rest => if c = byteOrderMark then rest else c :: rest
    | [] => []
  applyLines {} [] (fileLines [] characters)

end Stepper.Config
