import DomainFlow.Toml.Basic
import DomainFlow.Toml.Text

/-!
Values of TOML that hold no others: numbers, truth values, dates and times, and texts.
-/
namespace DomainFlow

namespace Toml

def oneOf? (chars : List Char) : Reading Char
  | char :: rest => if chars.contains char then some (char, rest) else none
  | [] => none

def digitsAfter? (isDigit : Char → Bool) (done : List Char) : Reading (List Char)
  | '_' :: char :: rest => if isDigit char then digitsAfter? isDigit (char :: done) rest else none
  | '_' :: [] => none
  | char :: rest =>
    if isDigit char then digitsAfter? isDigit (char :: done) rest else some (done.reverse, char :: rest)
  | [] => some (done.reverse, [])

def digits? (isDigit : Char → Bool) : Reading (List Char)
  | char :: rest => if isDigit char then digitsAfter? isDigit [char] rest else none
  | [] => none

def sign : List Char → Option Char × List Char
  | '+' :: rest => (some '+', rest)
  | '-' :: rest => (some '-', rest)
  | input => (none, input)

/-- Reads a decimal integer without sign. Only zero starts with a zero. -/
def wholeDigits? : Reading (List Char)
  | '0' :: rest => some (['0'], rest)
  | input => digits? Char.isDigit input

def numberOf (base : Nat) (digits : List Char) : Nat :=
  digits.foldl (fun number digit => base * number + (JsonToken.hexValue? digit).getD 0) 0

def bounded? (number : Int) : Option Toml :=
  if -9223372036854775808 ≤ number ∧ number < 9223372036854775808 then some (.integer number) else none

def integer? : Reading Toml
  | '0' :: 'x' :: rest => do
    let (digits, after) ← digits? (fun char => (JsonToken.hexValue? char).isSome) rest
    return (← bounded? (numberOf 16 digits), after)
  | '0' :: 'o' :: rest => do
    let (digits, after) ← digits? (fun char => decide ('0' ≤ char ∧ char ≤ '7')) rest
    return (← bounded? (numberOf 8 digits), after)
  | '0' :: 'b' :: rest => do
    let (digits, after) ← digits? (fun char => char == '0' || char == '1') rest
    return (← bounded? (numberOf 2 digits), after)
  | input => do
    let (mark, unsigned) := sign input
    let (digits, after) ← wholeDigits? unsigned
    let number : Int := numberOf 10 digits
    return (← bounded? (if mark = some '-' then -number else number), after)

def fraction? : Reading (List Char)
  | '.' :: rest => digits? Char.isDigit rest
  | _ => none

def exponent? (input : List Char) : Option (Int × List Char) := do
  let (_, rest) ← oneOf? ['e', 'E'] input
  let (mark, unsigned) := sign rest
  let (digits, after) ← digits? Char.isDigit unsigned
  let number : Int := numberOf 10 digits
  return (if mark = some '-' then -number else number, after)

/-- Whether a decimal number is so large that the nearest binary number of double precision is
infinite: it is at least half a unit above the largest one. -/
def isBeyondDouble (digits : List Char) (exponent : Int) : Bool :=
  let significand := numberOf 10 digits
  let magnitude := exponent + (significand.repr.length : Int)
  let limit := (Magnitude.twoTo 54 - 1) * Magnitude.twoTo 970
  if significand = 0 ∨ magnitude < 300 then false
  else if 320 < magnitude then true
  else if 0 ≤ exponent then decide (limit ≤ significand * tenTo exponent.toNat)
  else decide (limit * tenTo (-exponent).toNat ≤ significand)

def consumed (input rest : List Char) : String := String.ofList (input.take (input.length - rest.length))

/-- Reads a number with a fraction or an exponent. A positive one must be finite. -/
def finiteReal? (input : List Char) : Option (Toml × List Char) := do
  let (mark, unsigned) := sign input
  let (whole, afterWhole) ← wholeDigits? unsigned
  let (digits, power, after) ← match exponent? afterWhole with
    | some (power, after) => some (whole, power, after)
    | none => do
      let (fraction, afterFraction) ← fraction? afterWhole
      let (power, after) := (exponent? afterFraction).getD (0, afterFraction)
      some (whole ++ fraction, power - fraction.length, after)
  if mark ≠ some '-' && isBeyondDouble digits power then none
  else return (.real (consumed input after), after)

def specialReal? (input : List Char) : Option (Toml × List Char) :=
  match (sign input).2 with
  | 'i' :: 'n' :: 'f' :: rest => some (.real (consumed input rest), rest)
  | 'n' :: 'a' :: 'n' :: rest => some (.real (consumed input rest), rest)
  | _ => none

def fixed? (count low high : Nat) (input : List Char) : Option (Nat × List Char) :=
  let digits := input.take count
  let number := numberOf 10 digits
  if digits.length = count ∧ digits.all Char.isDigit ∧ low ≤ number ∧ number ≤ high then
    some (number, input.drop count)
  else none

def daysOfMonth (year month : Nat) : Nat :=
  let isLeap := (year % 4 = 0 ∧ year % 100 ≠ 0) ∨ year % 400 = 0
  if month = 2 then (if isLeap then 29 else 28)
  else if month = 4 ∨ month = 6 ∨ month = 9 ∨ month = 11 then 30
  else 31

def date? (input : List Char) : Option (List Char) := do
  let (year, rest) ← fixed? 4 0 9999 input
  let (_, rest) ← oneOf? ['-'] rest
  let (month, rest) ← fixed? 2 1 12 rest
  let (_, rest) ← oneOf? ['-'] rest
  let (_, rest) ← fixed? 2 1 (daysOfMonth year month) rest
  return rest

def skipSecondFraction : List Char → List Char
  | '.' :: char :: rest => if char.isDigit then rest.dropWhile Char.isDigit else '.' :: char :: rest
  | input => input

/-- What is left after a time of day. A minute may have a leap second. -/
def time? (input : List Char) : Option (List Char) := do
  let (_, rest) ← fixed? 2 0 23 input
  let (_, rest) ← oneOf? [':'] rest
  let (_, rest) ← fixed? 2 0 59 rest
  let (_, rest) ← oneOf? [':'] rest
  let (_, rest) ← fixed? 2 0 60 rest
  return skipSecondFraction rest

def offset? : List Char → Option (List Char)
  | 'Z' :: rest => some rest
  | 'z' :: rest => some rest
  | input => do
    let (_, rest) ← oneOf? ['+', '-'] input
    let (_, rest) ← fixed? 2 0 23 rest
    let (_, rest) ← oneOf? [':'] rest
    let (_, rest) ← fixed? 2 0 59 rest
    return rest

def skipTimeOfDate (input : List Char) : List Char :=
  match (oneOf? ['T', 't', ' '] input).bind fun (_, rest) => time? rest with
  | none => input
  | some rest => (offset? rest).getD rest

def moment? (input : List Char) : Option (Toml × List Char) :=
  ((date? input).map skipTimeOfDate <|> time? input).map fun rest => (.moment (consumed input rest), rest)

def truth? : Reading Toml
  | 't' :: 'r' :: 'u' :: 'e' :: rest => some (.truth true, rest)
  | 'f' :: 'a' :: 'l' :: 's' :: 'e' :: rest => some (.truth false, rest)
  | _ => none

def scalar? (input : List Char) : Option (Toml × List Char) :=
  (anyText? input).map (fun (value, rest) => (.text value, rest)) <|> moment? input <|> finiteReal? input <|>
    specialReal? input <|> integer? input <|> truth? input

end Toml

end DomainFlow
