import Stepper.Token.Basic
import Stepper.Token.SourceLine

/-! # Line sketches -/

namespace Stepper

inductive SketchKind where
  | declare
  | print
  | function
  | classDef
  | branch
  | loop
  | block
  | giveBack
  | close
  | expression
deriving DecidableEq, Repr

namespace SketchKind

def ofKeyword? : Option Keyword → SketchKind
  | some .LET => .declare
  | some .PRINT => .print
  | some .FUNC => .function
  | some .CLASS => .classDef
  | some .IF | some .ELSE | some .ELIF => .branch
  | some .WHILE | some .FOR | some .LOOP => .loop
  | some .START => .block
  | some .RETURN | some .BREAK | some .CONTINUE => .giveBack
  | some .END => .close
  | _ => .expression

def standsAlone : SketchKind → Bool
  | .declare | .print | .expression => true
  | _ => false

def startsBlock : SketchKind → Bool
  | .function | .classDef | .branch | .loop | .block => true
  | _ => false

end SketchKind

structure SketchLine where
  number : Nat
  text : String
  kind : SketchKind
  depth : Nat
deriving DecidableEq, Repr

def hasTextBehindColon (quote : Option Char) : List Char → Bool
  | [] => false
  | c :: rest =>
    match quote with
    | some q => hasTextBehindColon (if c = q then none else some q) rest
    | none =>
      if c = '"' ∨ c = '\'' then hasTextBehindColon (some c) rest
      else if c = ':' then !(Text.trimmed rest).isEmpty
      else hasTextBehindColon none rest

def firstKeyword? (text : List Char) : Option Keyword :=
  Keyword.ofWord? (String.ofList (text.takeWhile fun c => Text.isAlphanumeric c || c == '_'))

def sketchFrom (number depth : Nat) : List String → List SketchLine
  | [] => []
  | line :: rest =>
    let text := Text.trim line
    if text.isEmpty then sketchFrom (number + 1) depth rest
    else
      let keyword := firstKeyword? text.toList
      let kind := SketchKind.ofKeyword? keyword
      let isElse := keyword == some .ELSE || keyword == some .ELIF
      let here := if kind == .close || isElse then depth - 1 else depth
      let opens := (kind.startsBlock && !hasTextBehindColon none text.toList) || isElse
      ⟨number, text, kind, here⟩ ::
        sketchFrom (number + 1) (if opens then here + 1 else here) rest

def sketch (source : String) : List SketchLine :=
  sketchFrom 1 0 (Text.lines (blankedText commentMarker source))

end Stepper
