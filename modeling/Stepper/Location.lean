/-! # Source locations -/

namespace Stepper

structure Location where
  line : Nat := 0
  column : Nat := 0
  start : Nat := 0
  stop : Nat := 0
deriving DecidableEq, Repr, Inhabited

namespace Location

def point (line column : Nat) : Location := { line, column }

def upTo (first last : Location) : Location := { first with stop := max last.stop first.stop }

def width (l : Location) : Nat := l.stop - l.start

def text (l : Location) : String := toString l.line ++ ":" ++ toString l.column

end Location

end Stepper
