import DomainFlow.Number.Shortest

/-!
Numbers of a document: integers of 64 bits, signed or not, and double-precision reals. A numeral
without point and exponent is an integer if it fits, and every other one is a real.
-/
namespace DomainFlow

/-- A number of a document. Integers reach from the least one of 64 bits with a sign to the greatest one
of 64 bits without. -/
inductive Number where
  | integer (value : Int) (lower : -9223372036854775808 ≤ value) (upper : value < 18446744073709551616)
  | real (negative : Bool) (magnitude : Magnitude)
deriving DecidableEq

namespace Number

def ofInt? (value : Int) : Option Number :=
  if bounds : -9223372036854775808 ≤ value ∧ value < 18446744073709551616 then
    some (.integer value bounds.1 bounds.2)
  else none

/-- What a numeral denotes. A numeral beyond all reals denotes nothing. -/
def ofNumeral? (numeral : Numeral) : Option Number :=
  match numeral.integer?.bind ofInt? with
  | some number => some number
  | none => numeral.magnitude?.map (.real numeral.negative)

/-- Reals are spelled out from this power of ten of the first digit on. -/
def leastPlainExponent : Int := -5

/-- Reals are spelled out up to this power of ten of the first digit. -/
def greatestPlainExponent : Int := 15

/-- The spelling of a real by its shortest digits: with a point and at least one digit after it, or,
for very small and very large ones, with one digit before the point and a power of ten. -/
def realNumeral (negative : Bool) (magnitude : Magnitude) : Numeral :=
  if magnitude.isZero then ⟨negative, 0, some [Digit.zero], none⟩
  else
    let (digits, power) := magnitude.shortest
    let leading : Int := power + (digitCount digits - 1 : Nat)
    if leastPlainExponent ≤ leading ∧ leading ≤ greatestPlainExponent then
      if 0 ≤ power then ⟨negative, digits * tenTo power.toNat, some [Digit.zero], none⟩
      else
        let places := (-power).toNat
        ⟨negative, digits / tenTo places, some (Digit.lastOf places digits), none⟩
    else
      let places := digitCount digits - 1
      let fraction := if places = 0 then none else some (Digit.lastOf places digits)
      ⟨negative, digits / tenTo places, fraction, some leading⟩

def toNumeral : Number → Numeral
  | .integer value _ _ => Numeral.ofInt value
  | .real negative magnitude => realNumeral negative magnitude

def render (number : Number) : String := number.toNumeral.render

def isZero : Number → Bool
  | .integer value _ _ => value == 0
  | .real _ magnitude => magnitude.isZero

end Number

end DomainFlow
