import Stepper.Location
import Stepper.Text.Basic

/-! # Source lines and their comments -/

namespace Stepper

structure SourceLine where
  code : List Char
  comment : List Char
deriving DecidableEq, Repr

structure Comment where
  text : String
  location : Location
deriving DecidableEq, Repr

namespace SourceLine

/-- What the reader of a line knows about the characters before: the quote of the string that is
open, whether the next character of the string is escaped, and the character just read. -/
structure Quoting where
  quote : Option Char := none
  escaped : Bool := false
  previous : Option Char := none

def Quoting.read (state : Quoting) (c : Char) : Quoting :=
  match state.quote with
  | some quote =>
    if state.escaped then { quote := some quote, escaped := false, previous := some c }
    else if c = '\\' then { quote := some quote, escaped := true, previous := some c }
    else { quote := if c = quote then none else some quote, escaped := false, previous := some c }
  | none =>
    { quote := if c = '"' ∨ c = '\'' then some c else none
      escaped := state.escaped
      previous := some c }

def Quoting.startsComment (state : Quoting) (marker c : Char) : Bool :=
  state.quote.isNone && c == marker && state.previous != some '\\'

def split (marker : Char) (state : Quoting) : List Char → SourceLine
  | [] => ⟨[], []⟩
  | c :: rest =>
    if state.startsComment marker c then ⟨[], c :: rest⟩
    else
      let line := split marker (state.read c) rest
      ⟨c :: line.code, line.comment⟩

def ofChars (marker : Char) (chars : List Char) : SourceLine := split marker {} chars

def blanked (line : SourceLine) : List Char :=
  line.code ++ List.replicate (Text.byteLength line.comment) ' '

def byteLength (line : SourceLine) : Nat :=
  Text.byteLength line.code + Text.byteLength line.comment

end SourceLine

def splitBreaks (current : List Char) : List Char → List (List Char)
  | [] => [current.reverse]
  | '\n' :: rest => current.reverse :: splitBreaks [] rest
  | c :: rest => splitBreaks (c :: current) rest

def sourceLines (marker : Char) (source : String) : List SourceLine :=
  (splitBreaks [] source.toList).map (SourceLine.ofChars marker)

def commentMarker : Char := '#'

def commentsFrom (number offset : Nat) : List SourceLine → List Comment
  | [] => []
  | line :: rest =>
    let start := offset + Text.byteLength line.code
    let stop := offset + line.byteLength
    let others := commentsFrom (number + 1) (stop + 1) rest
    if line.comment.isEmpty then others
    else
      { text := String.ofList line.comment
        location := { line := number, column := line.code.length + 1, start, stop } } :: others

def comments (marker : Char) (source : String) : List Comment :=
  commentsFrom 1 0 (sourceLines marker source)

def blankedText (marker : Char) (source : String) : String :=
  String.ofList
    (List.intercalate ['\n'] ((sourceLines marker source).map SourceLine.blanked))

end Stepper
