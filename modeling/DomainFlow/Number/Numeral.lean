/-!
Decimal numerals: a number as a text spells it, with its digits before and after the point and its
power of ten. What a numeral denotes is decided by who reads it, so an exact integer and a rounded
real can come from the same spelling rules.
-/
namespace DomainFlow

abbrev Digit := Fin 10

namespace Digit

def zero : Digit := ⟨0, by decide⟩

def toChar (digit : Digit) : Char := Nat.digitChar digit.val

def ofChar? (char : Char) : Option Digit :=
  if h : '0'.toNat ≤ char.toNat ∧ char.toNat ≤ '9'.toNat then
    some ⟨char.toNat - '0'.toNat, by
      have upper : char.toNat ≤ 57 := h.2
      have lower : 48 ≤ char.toNat := h.1
      show char.toNat - 48 < 10
      omega⟩
  else none

def value (start : Nat) (digits : List Digit) : Nat :=
  digits.foldl (fun total digit => total * 10 + digit.val) start

def lastOf : (count number : Nat) → List Digit
  | 0, _ => []
  | count + 1, number => lastOf count (number / 10) ++ [⟨number % 10, Nat.mod_lt _ (by decide)⟩]

end Digit

def tenTo (power : Nat) : Nat := Nat.pow 10 power

def digitCount (number : Nat) : Nat := (Nat.toDigits 10 number).length

def digitsOf (number : Nat) : List Digit := Digit.lastOf (digitCount number) number

/-- A decimal number as written. The part before the point has no leading zeros, the part after it
keeps its own, and the power of ten is kept apart from both. -/
structure Numeral where
  negative : Bool
  whole : Nat
  fraction : Option (List Digit)
  exponent : Option Int
deriving DecidableEq

namespace Numeral

def ofInt (number : Int) : Numeral :=
  ⟨decide (number < 0), number.natAbs, none, none⟩

def integer? (numeral : Numeral) : Option Int :=
  if numeral.fraction.isSome || numeral.exponent.isSome then none
  else if !numeral.negative then some numeral.whole
  else if numeral.whole = 0 then none
  else some (-numeral.whole)

@[simp] theorem integer?_ofInt (number : Int) : (ofInt number).integer? = some number := by
  by_cases negative : number < 0
  · simp only [integer?, ofInt, Option.isSome_none, Bool.or_false, Bool.false_eq_true, if_false,
      negative, decide_true, Bool.not_true]
    rw [if_neg (by omega)]
    congr 1
    omega
  · simp only [integer?, ofInt, Option.isSome_none, Bool.or_false, Bool.false_eq_true, if_false,
      negative, decide_false, Bool.not_false, if_true]
    congr 1
    omega

/-- The text of a numeral. The exponent always shows its sign. -/
def render (numeral : Numeral) : String :=
  let sign := if numeral.negative then "-" else ""
  let fraction := match numeral.fraction with
    | none => ""
    | some digits => "." ++ String.ofList (digits.map Digit.toChar)
  let exponent := match numeral.exponent with
    | none => ""
    | some power => (if power < 0 then "e-" else "e+") ++ power.natAbs.repr
  sign ++ numeral.whole.repr ++ fraction ++ exponent

end Numeral

end DomainFlow
