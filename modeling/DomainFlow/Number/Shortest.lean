import DomainFlow.Number.Magnitude

/-!
The shortest decimal spelling of a magnitude: the fewest digits that still lie nearer to it than to any
other magnitude, and of those the nearest to it.
-/
namespace DomainFlow

namespace Magnitude

def decimalExponent (numerator denominator : Nat) : Int :=
  if denominator ≤ numerator then digitCount (numerator / denominator) - 1
  else
    let quotient := denominator / numerator
    let count := digitCount quotient
    if quotient = tenTo (count - 1) ∧ denominator % numerator = 0 then -((count - 1 : Nat) : Int)
    else -(count : Int)

/-- Half the distance to the next lower magnitude, in quarters of the last bit. -/
def lowerGap (magnitude : Magnitude) : Nat :=
  if magnitude.significand = twoTo (precision - 1) ∧ leastExponent < magnitude.exponent then 1 else 2

/-- Whether `digits * 10 ^ power` is read back as this magnitude. The ends of the interval belong to
an even significand. -/
def readsBack (magnitude : Magnitude) (digits : Nat) (power : Int) : Bool :=
  let lower := unscaled (4 * magnitude.significand - magnitude.lowerGap) 1 (2 - magnitude.exponent)
  let upper := unscaled (4 * magnitude.significand + 2) 1 (2 - magnitude.exponent)
  let value := if 0 ≤ power then (digits * tenTo power.toNat, 1) else (digits, tenTo (-power).toNat)
  let below := lower.1 * value.2
  let above := upper.1 * value.2
  if magnitude.significand % 2 = 0 then
    decide (below ≤ value.1 * lower.2) && decide (value.1 * upper.2 ≤ above)
  else
    decide (below < value.1 * lower.2) && decide (value.1 * upper.2 < above)

/-- The spelling with a given number of digits: of the two decimals of that length around the
magnitude, one that reads back, and the nearer one if both do. -/
def spelledWith? (magnitude : Magnitude) (count : Nat) : Option (Nat × Int) :=
  let (numerator, denominator) := magnitude.toFraction
  let power := decimalExponent numerator denominator - (count - 1 : Nat)
  let (above, below) :=
    if 0 ≤ power then (numerator, denominator * tenTo power.toNat)
    else (numerator * tenTo (-power).toNat, denominator)
  let lower := above / below
  let nearest := roundedQuotient above below
  let other := if nearest = lower then lower + 1 else lower
  if magnitude.readsBack nearest power then some (nearest, power)
  else if magnitude.readsBack other power then some (other, power)
  else none

/-- Drops trailing zeros of the digits and moves them into the power of ten. -/
def withoutTrailingZeros : (fuel digits : Nat) → Int → Nat × Int
  | 0, digits, power => (digits, power)
  | fuel + 1, digits, power =>
    if digits ≠ 0 ∧ digits % 10 = 0 then withoutTrailingZeros fuel (digits / 10) (power + 1)
    else (digits, power)

/-- The fewest digits, with the power of ten that goes with them. Seventeen always suffice. -/
def shortest (magnitude : Magnitude) : Nat × Int :=
  let (digits, power) :=
    ((List.range 17).findSome? fun index => magnitude.spelledWith? (index + 1)).getD (0, 0)
  withoutTrailingZeros (digitCount digits) digits power

end Magnitude

end DomainFlow
