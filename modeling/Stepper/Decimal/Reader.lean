import Stepper.Decimal.Binary

/-! # Reading doubles -/

namespace Stepper.Decimal

def digit? (c : Char) : Option Nat :=
  if '0' ≤ c ∧ c ≤ '9' then some (c.toNat - '0'.toNat) else none

def isDigit (c : Char) : Bool := (digit? c).isSome

def natural (seen : Nat) : List Char → Nat
  | [] => seen
  | c :: rest => natural (seen * 10 + (digit? c).getD 0) rest

def spanDigits (text : List Char) : List Char × List Char :=
  (text.takeWhile isDigit, text.dropWhile isDigit)

def ofDecimal (negative : Bool) (digits : Nat) (exponent : Int) : Float :=
  let length : Int := (toString digits).length
  if digits = 0 then nearest negative 0 1
  else if exponent + length > 400 then nearest negative (tenTo 400) 1
  else if exponent + length < -400 then nearest negative 0 1
  else if exponent < 0 then nearest negative digits (tenTo (-exponent).toNat)
  else nearest negative (digits * tenTo exponent.toNat) 1

/-- An exponent part: nothing, or `e` with an optional sign and at least one digit. -/
def exponent? : List Char → Option Int
  | [] => some 0
  | mark :: rest =>
    if mark = 'e' ∨ mark = 'E' then
      let (negative, digits) :=
        match rest with
        | '-' :: digits => (true, digits)
        | '+' :: digits => (false, digits)
        | digits => (false, digits)
      if digits.isEmpty || !digits.all isDigit then none
      else some (if negative then -(natural 0 digits : Int) else natural 0 digits)
    else none

def unsigned? (negative : Bool) (text : List Char) : Option Float :=
  let (whole, rest) := spanDigits text
  let (fraction, tail) :=
    match rest with
    | '.' :: after => spanDigits after
    | other => ([], other)
  if whole.isEmpty && fraction.isEmpty then none
  else (exponent? tail).map fun exponent =>
    ofDecimal negative (natural 0 (whole ++ fraction)) (exponent - fraction.length)

def word? (negative : Bool) (text : List Char) : Option Float :=
  match String.ofList (text.map Char.toLower) with
  | "inf" => some (ofFields negative (twoTo 11 - 1) 0)
  | "infinity" => some (ofFields negative (twoTo 11 - 1) 0)
  | "nan" => some (ofFields negative (twoTo 11 - 1) (twoTo 51))
  | _ => none

def read? (text : String) : Option Float :=
  let (negative, body) :=
    match text.toList with
    | '-' :: rest => (true, rest)
    | '+' :: rest => (false, rest)
    | rest => (false, rest)
  (unsigned? negative body).or (word? negative body)

end Stepper.Decimal
