import Stepper.Text.Basic

/-! # Styled text -/

namespace Stepper

inductive Style where
  | error
  | errorLabel
  | warningLabel
  | success
  | notice
  | noticeLabel
  | hint
  | emphasis
  | faint
deriving DecidableEq, Repr

namespace Style

def codes : Style → String
  | .error => "91"
  | .errorLabel => "1;91"
  | .warningLabel => "1;33"
  | .success => "92"
  | .notice => "94"
  | .noticeLabel => "1;94"
  | .hint => "96"
  | .emphasis => "97"
  | .faint => "2"

def start (style : Style) : String := "\x1b[" ++ style.codes ++ "m"

def reset : String := "\x1b[0m"

def paint (style : Style) (color : Bool) (text : String) : String :=
  if color then style.start ++ text.replace reset (reset ++ style.start) ++ reset else text

end Style

def padLeft (width : Nat) (text : String) : String := "".pushn ' ' (width - text.length) ++ text

end Stepper
