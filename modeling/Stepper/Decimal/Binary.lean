/-! # Double-precision numbers as exact binary fractions -/

namespace Stepper.Decimal

def twoTo (exponent : Nat) : Nat := Nat.pow 2 exponent

def tenTo (exponent : Nat) : Nat := Nat.pow 10 exponent

structure Binary where
  negative : Bool
  mantissa : Nat
  exponent : Int
deriving DecidableEq, Repr

namespace Binary

def leastExponent : Int := -1074

/-- The parts of a finite double; `none` for an infinity or a value that is not a number. -/
def ofFloat? (x : Float) : Option Binary :=
  let bits := x.toBits.toNat
  let biased : Nat := bits / twoTo 52 % twoTo 11
  let fraction : Nat := bits % twoTo 52
  let negative := decide (bits / twoTo 63 = 1)
  if biased = twoTo 11 - 1 then none
  else if biased = 0 then some ⟨negative, fraction, leastExponent⟩
  else some ⟨negative, fraction + twoTo 52, (biased : Int) - 1075⟩

def floor (b : Binary) : Nat :=
  if b.exponent < 0 then b.mantissa / twoTo (-b.exponent).toNat
  else b.mantissa * twoTo b.exponent.toNat

def isIntegral (b : Binary) : Bool :=
  b.exponent ≥ 0 || b.mantissa % twoTo (-b.exponent).toNat == 0

def toInt? (b : Binary) : Option Int :=
  if b.isIntegral then some (if b.negative then -(b.floor : Int) else b.floor) else none

end Binary

def ofFields (negative : Bool) (biased fraction : Nat) : Float :=
  Float.ofBits (UInt64.ofNat ((if negative then twoTo 63 else 0) + biased * twoTo 52 + fraction))

def roundHalfEven (numerator denominator : Nat) : Nat :=
  let quotient := numerator / denominator
  let twice := 2 * (numerator % denominator)
  if twice < denominator then quotient
  else if twice > denominator then quotient + 1
  else quotient + quotient % 2

def scaleBy (numerator denominator : Nat) (exponent : Int) : Nat × Nat :=
  if exponent < 0 then (numerator * twoTo (-exponent).toNat, denominator)
  else (numerator, denominator * twoTo exponent.toNat)

/-- The nearest double to `numerator / denominator`, a half to the even neighbour; infinite when the
quotient is beyond the largest double by half a place or more. -/
def nearest (negative : Bool) (numerator denominator : Nat) : Float :=
  if numerator = 0 then ofFields negative 0 0
  else
    let guess : Int := (numerator.log2 : Int) - denominator.log2 - 52
    let high := scaleBy numerator denominator guess
    let exponent := max (if high.1 / high.2 < twoTo 52 then guess - 1 else guess) Binary.leastExponent
    let scaled := scaleBy numerator denominator exponent
    let mantissa := roundHalfEven scaled.1 scaled.2
    let (mantissa, exponent) :=
      if mantissa = twoTo 53 then (twoTo 52, exponent + 1) else (mantissa, exponent)
    if mantissa < twoTo 52 then ofFields negative 0 mantissa
    else if exponent + 1075 < 2047 then
      ofFields negative (exponent + 1075).toNat (mantissa - twoTo 52)
    else ofFields negative (twoTo 11 - 1) 0

/-- The remainder of `x / y` with the quotient cut off towards zero; it has the sign of `x` and is
exact, since it is a multiple of the smaller last place and below both operands. -/
def remainder (x y : Float) : Float :=
  match Binary.ofFloat? x with
  | none => Float.ofBits 0x7FF8000000000000
  | some a =>
    match Binary.ofFloat? y with
    | none => if y.isNaN then y else x
    | some b =>
      if b.mantissa = 0 then Float.ofBits 0x7FF8000000000000
      else
        let unit := min a.exponent b.exponent
        let left := a.mantissa * twoTo (a.exponent - unit).toNat
        let right := b.mantissa * twoTo (b.exponent - unit).toNat
        let rest := left % right
        if unit < 0 then nearest a.negative rest (twoTo (-unit).toNat)
        else nearest a.negative (rest * twoTo unit.toNat) 1

end Stepper.Decimal
