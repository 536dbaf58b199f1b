import Stepper.CommandLine.Style
import Stepper.Diagnostic

/-! # Excerpts -/

namespace Stepper

def sourceLine (source : String) (line : Nat) : String := ((Text.lines source)[line - 1]?).getD ""

def underline (line : String) (location : Location) : String :=
  let margin := location.column - 1
  let remaining := max (line.length - margin) 1
  "".pushn ' ' margin ++ "".pushn '^' (min (max location.width 1) remaining)

def Diagnostic.excerpt (d : Diagnostic) (color : Bool) (file source : String) : String :=
  let label := if d.isError then Style.errorLabel else .warningLabel
  let number := padLeft 4 (toString d.location.line)
  let gutter := "".pushn ' ' number.length
  let bar := Style.faint.paint color "|"
  let line := sourceLine source d.location.line
  label.paint color (d.severity.text ++ ":") ++ " " ++
    Style.faint.paint color ("[" ++ d.kind.label ++ "]") ++ " " ++
    Style.emphasis.paint color d.message ++ "\n" ++
  Style.notice.paint color "-->" ++ " " ++
    Style.emphasis.paint color (file ++ ":" ++ d.location.text) ++ "\n" ++
  " " ++ Style.faint.paint color gutter ++ " " ++ bar ++ "\n" ++
  Style.faint.paint color number ++ " " ++ bar ++ " " ++ line ++ "\n" ++
  " " ++ Style.faint.paint color gutter ++ " " ++ bar ++ " " ++
    Style.error.paint color (underline line d.location) ++ "\n" ++
  String.join (d.suggestions.map fun fix =>
    " " ++ gutter ++ " " ++ Style.notice.paint color "=" ++ " " ++
      Style.hint.paint color ("help: " ++ fix) ++ "\n") ++
  "\n"

end Stepper
