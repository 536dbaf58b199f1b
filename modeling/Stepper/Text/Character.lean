import Stepper.Text.NamePart
import Stepper.Text.Alphanumeric
import Stepper.Text.Invisible

/-! # Character classes -/

namespace Stepper.Text

def inRanges (ranges : List (Nat × Nat)) (code : Nat) : Bool :=
  ranges.any fun (first, last) => first ≤ code && code ≤ last

def inClass (ascii : Char → Bool) (ranges : List (Nat × Nat)) (c : Char) : Bool :=
  if c.toNat < 128 then ascii c else inRanges ranges c.toNat

def isNameStart (c : Char) : Bool := c == '_' || inClass Char.isAlpha nameStart c

def isNamePart (c : Char) : Bool := c == '_' || inClass Char.isAlphanum namePart c

def isAlphanumeric (c : Char) : Bool :=
  if c.toNat < 128 then c.isAlphanum
  else inRanges unnamedAlphanumeric c.toNat ||
    inRanges namePart c.toNat && !inRanges namedOther c.toNat

def isVisible (c : Char) : Bool :=
  if c.toNat < 128 then ' ' ≤ c && c ≤ '~' else !inRanges invisible c.toNat

def blank : List (Nat × Nat) :=
  [(0x9, 0xD), (0x20, 0x20), (0x85, 0x85), (0xA0, 0xA0), (0x1680, 0x1680), (0x2000, 0x200A),
   (0x2028, 0x2029), (0x202F, 0x202F), (0x205F, 0x205F), (0x3000, 0x3000)]

def isBlank (c : Char) : Bool := inRanges blank c.toNat

end Stepper.Text
