import DomainFlow.Number.Numeral

/-!
Magnitudes of double-precision reals: a significand of at most 53 bits times a power of two. Products
and quotients are formed exactly and then rounded once, to the nearest magnitude and to an even
significand on a tie.
-/
namespace DomainFlow

/-- The magnitude `significand * 2 ^ exponent`. In normal form the significand has 53 bits, or the
exponent is the least one. -/
structure Magnitude where
  significand : Nat
  exponent : Int
deriving DecidableEq

namespace Magnitude

def precision : Nat := 53

def leastExponent : Int := -1074

def greatestExponent : Int := 971

def zero : Magnitude := ⟨0, leastExponent⟩

def isZero (magnitude : Magnitude) : Bool := magnitude.significand == 0

def twoTo (bits : Nat) : Nat := Nat.pow 2 bits

/-- The quotient of two numbers rounded to a whole number, a tie going to the even one. -/
def roundedQuotient (numerator denominator : Nat) : Nat :=
  let quotient := numerator / denominator
  let twice := 2 * (numerator % denominator)
  if denominator < twice ∨ (twice = denominator ∧ quotient % 2 = 1) then quotient + 1 else quotient

/-- The fraction `numerator / denominator / 2 ^ power` as a numerator and a denominator. -/
def unscaled (numerator denominator : Nat) (power : Int) : Nat × Nat :=
  if 0 ≤ power then (numerator, denominator * twoTo power.toNat)
  else (numerator * twoTo (-power).toNat, denominator)

/-- The power of two at which a fraction has a significand of full precision. -/
def exponentFor (numerator denominator : Nat) : Int :=
  let estimate : Int := (numerator.log2 : Int) - denominator.log2 - precision
  let (above, below) := unscaled numerator denominator estimate
  let exponent := if twoTo precision ≤ above / below then estimate + 1 else estimate
  max exponent leastExponent

/-- The magnitude nearest to a fraction, or nothing if the fraction is beyond all magnitudes. -/
def nearest? (numerator denominator : Nat) : Option Magnitude :=
  if numerator = 0 then some zero
  else
    let exponent := exponentFor numerator denominator
    let (above, below) := unscaled numerator denominator exponent
    let rounded := roundedQuotient above below
    let result : Magnitude :=
      if rounded = twoTo precision then ⟨twoTo (precision - 1), exponent + 1⟩ else ⟨rounded, exponent⟩
    if result.exponent ≤ greatestExponent then some result else none

def ofNat? (number : Nat) : Option Magnitude := nearest? number 1

def toFraction (magnitude : Magnitude) : Nat × Nat :=
  unscaled magnitude.significand 1 (-magnitude.exponent)

def mul? (first second : Magnitude) : Option Magnitude :=
  nearest? (first.toFraction.1 * second.toFraction.1) (first.toFraction.2 * second.toFraction.2)

def div? (first second : Magnitude) : Option Magnitude :=
  nearest? (first.toFraction.1 * second.toFraction.2) (first.toFraction.2 * second.toFraction.1)

def greatestPowerOfTen : Nat := 308

def powerOfTen? (power : Nat) : Option Magnitude := ofNat? (tenTo power)

/-- Divides by a power of ten in steps of the greatest one, rounding after each. -/
def shrink (magnitude : Magnitude) (power : Nat) : Option Magnitude :=
  if power ≤ greatestPowerOfTen then (powerOfTen? power).bind magnitude.div?
  else if magnitude.isZero then some magnitude
  else ((powerOfTen? greatestPowerOfTen).bind magnitude.div?).bind fun quotient =>
    shrink quotient (power - greatestPowerOfTen)
termination_by power
decreasing_by
  have positive : 0 < greatestPowerOfTen := by decide
  omega

def grow (magnitude : Magnitude) (power : Nat) : Option Magnitude :=
  if power ≤ greatestPowerOfTen then (powerOfTen? power).bind magnitude.mul?
  else if magnitude.isZero then some magnitude
  else none

def scale (magnitude : Magnitude) (power : Int) : Option Magnitude :=
  if 0 ≤ power then magnitude.grow power.toNat else magnitude.shrink (-power).toNat

end Magnitude

def gatherLimit : Nat := 18446744073709551615

/-- Appends digits to a significand as long as it stays within the limit. The rest of the digits,
from the first one that does not fit, is returned beside it. -/
def gather (significand : Nat) : List Digit → Nat × List Digit
  | [] => (significand, [])
  | digit :: rest =>
    if significand * 10 + digit.val ≤ gatherLimit then gather (significand * 10 + digit.val) rest
    else (significand, digit :: rest)

namespace Numeral

/-- The magnitude of a numeral, from as many of its digits as fit 64 bits and rounded when those are
scaled by a power of ten. There is none for a numeral beyond all magnitudes. -/
def magnitude? (numeral : Numeral) : Option Magnitude :=
  let (gathered, dropped) := gather 0 (digitsOf numeral.whole)
  let fraction := numeral.fraction.getD []
  let (significand, unused) := gather gathered fraction
  let power : Int := dropped.length - (fraction.length - unused.length) + numeral.exponent.getD 0
  (Magnitude.ofNat? significand).bind fun magnitude => magnitude.scale power

end Numeral

end DomainFlow
