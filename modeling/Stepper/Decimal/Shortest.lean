import Stepper.Decimal.Binary

/-! # The fewest digits that read back -/

namespace Stepper.Decimal

structure Digits where
  digits : Nat
  exponent : Int
deriving DecidableEq, Repr

namespace Digits

def trim : Nat → Digits → Digits
  | 0, d => d
  | n + 1, d => if d.digits % 10 = 0 then trim n ⟨d.digits / 10, d.exponent + 1⟩ else d

def text (d : Digits) : String := toString d.digits

end Digits

inductive Tie where
  | up
  | toEven
deriving DecidableEq, Repr

def Tie.takesLower (tie : Tie) (lower : Nat) : Bool :=
  match tie with
  | .up => false
  | .toEven => lower % 2 == 0

structure Interval where
  low : Nat
  middle : Nat
  high : Nat
  denominator : Nat
  closed : Bool

namespace Interval

def around (b : Binary) : Interval :=
  let shift := b.exponent - 2
  let scale := if shift < 0 then 1 else twoTo shift.toNat
  let below := if b.mantissa = twoTo 52 && b.exponent > Binary.leastExponent then 1 else 2
  { low := (4 * b.mantissa - below) * scale
    middle := 4 * b.mantissa * scale
    high := (4 * b.mantissa + 2) * scale
    denominator := if shift < 0 then twoTo (-shift).toNat else 1
    closed := b.mantissa % 2 == 0 }

def contains (i : Interval) (d : Digits) : Bool :=
  let up := if d.exponent < 0 then 1 else tenTo d.exponent.toNat
  let down := if d.exponent < 0 then tenTo (-d.exponent).toNat else 1
  let point := d.digits * up * i.denominator
  if i.closed then i.low * down ≤ point && point ≤ i.high * down
  else i.low * down < point && point < i.high * down

def below (i : Interval) (exponent : Int) : Nat :=
  if exponent < 0 then i.middle * tenTo (-exponent).toNat / i.denominator
  else i.middle / (i.denominator * tenTo exponent.toNat)

def compareHalfway (i : Interval) (lower : Nat) (exponent : Int) : Ordering :=
  let up := if exponent < 0 then 1 else tenTo exponent.toNat
  let down := if exponent < 0 then tenTo (-exponent).toNat else 1
  compare (2 * i.middle * down) ((2 * lower + 1) * up * i.denominator)

/-- Whether the lower of two neighbours stands for the middle: it is the nearer one, or equally near
and the tie goes to it. -/
def prefersLower (i : Interval) (tie : Tie) (lower : Nat) (exponent : Int) : Bool :=
  match i.compareHalfway lower exponent with
  | .lt => true
  | .eq => tie.takesLower lower
  | .gt => false

def leadingPower (i : Interval) : Int :=
  if i.denominator ≤ i.middle then ((toString (i.middle / i.denominator)).length : Int) - 1
  else
    let whole := (toString (i.denominator / i.middle)).length
    if i.denominator ≤ i.middle * tenTo (whole - 1) then -((whole : Int) - 1) else -(whole : Int)

/-- The first grid, from `10 ^ power` on to finer ones, that has a point in the interval next to the
middle. -/
def search (i : Interval) (tie : Tie) (power : Int) : Nat → Digits
  | 0 => ⟨i.below power, power⟩
  | n + 1 =>
    let lower : Digits := ⟨i.below power, power⟩
    let upper : Digits := ⟨lower.digits + 1, power⟩
    match lower.digits != 0 && i.contains lower, i.contains upper with
    | true, true => if i.prefersLower tie lower.digits power then lower else upper
    | true, false => lower
    | false, true => upper
    | false, false => search i tie (power - 1) n

end Interval

def shortest (tie : Tie) (b : Binary) : Digits :=
  let interval := Interval.around b
  (interval.search tie interval.leadingPower 17).trim 400

end Stepper.Decimal
