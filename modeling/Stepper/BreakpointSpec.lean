import Stepper.Decimal.Reader
import Stepper.Text.Basic

/-! # Breakpoints on the command line -/

namespace Stepper

structure BreakpointSpec where
  line : Nat
  condition : Option String
deriving DecidableEq, Repr

inductive BreakpointSpecError where
  | invalidLine (spec : String)
  | lineZero (spec : String)
deriving DecidableEq, Repr

def BreakpointSpecError.message : BreakpointSpecError → String
  | .invalidLine spec => "invalid breakpoint line in '" ++ spec ++ "'"
  | .lineZero spec => "breakpoint lines start at 1, got '" ++ spec ++ "'"

def greatestWord : Nat := Nat.pow 2 64 - 1

def readWord? (text : String) : Option Nat :=
  let digits :=
    match text.toList with
    | '+' :: rest => rest
    | all => all
  if digits.isEmpty || !digits.all Decimal.isDigit then none
  else
    let n := Decimal.natural 0 digits
    if n ≤ greatestWord then some n else none

def BreakpointSpec.parse (spec : String) : Except BreakpointSpecError BreakpointSpec :=
  let characters := spec.toList
  let before := String.ofList (characters.takeWhile (· ≠ ':'))
  let after := Text.trim (String.ofList ((characters.dropWhile (· ≠ ':')).drop 1))
  match readWord? (Text.trim before) with
  | none => .error (.invalidLine spec)
  | some 0 => .error (.lineZero spec)
  | some line => .ok ⟨line, if after.isEmpty then none else some after⟩

end Stepper
