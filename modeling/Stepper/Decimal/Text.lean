import Stepper.Decimal.Shortest

/-! # Decimal text of doubles -/

namespace Stepper.Decimal

def zeros (n : Nat) : String := "".pushn '0' n

def Digits.positional (d : Digits) : String :=
  let text := d.text
  if d.exponent ≥ 0 then text ++ zeros d.exponent.toNat
  else
    let places := (-d.exponent).toNat
    if places < text.length then
      (text.take (text.length - places)).toString ++ "." ++
        (text.drop (text.length - places)).toString
    else "0." ++ zeros (places - text.length) ++ text

def plain (x : Float) : String :=
  match Binary.ofFloat? x with
  | none => if x.isNaN then "NaN" else if x < 0 then "-inf" else "inf"
  | some b =>
    (if b.negative then "-" else "") ++
      (if b.mantissa = 0 then "0" else (shortest .up b).positional)

def exponentText (exponent : Int) : String :=
  (if exponent < 0 then "e-" else "e+") ++ toString exponent.natAbs

def Digits.marked (d : Digits) : String :=
  let text := d.text
  let point : Int := text.length + d.exponent
  if 0 ≤ d.exponent && point ≤ 16 then d.positional ++ ".0"
  else if -5 < point && point ≤ 16 then d.positional
  else
    let tail := if text.length = 1 then "" else "." ++ (text.drop 1).toString
    (text.take 1).toString ++ tail ++ exponentText (point - 1)

/-- A finite double as a number that cannot be taken for an integer; `none` when it is not
finite. -/
def marked? (x : Float) : Option String :=
  (Binary.ofFloat? x).map fun b =>
    (if b.negative then "-" else "") ++
      (if b.mantissa = 0 then "0.0" else (shortest .toEven b).marked)

end Stepper.Decimal
