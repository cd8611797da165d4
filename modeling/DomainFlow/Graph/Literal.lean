import DomainFlow.Json.Decode

/-!
Literal values of places in the source and of objects: texts, numbers, truth values, and markers for
values that could not be determined.
-/
namespace DomainFlow

inductive Literal where
  | text (value : String)
  | number (value : Number)
  | truth (value : Bool)
  | special (marker : String)
deriving DecidableEq

namespace Literal

def wildcard : Literal := .special "*"

def isWildcard (literal : Literal) : Bool := literal = wildcard

/-- Whether the value is present and known: a text with characters, a number that is not zero, or the
truth. -/
def isTruthy : Literal → Bool
  | .text value => !value.isEmpty
  | .number value => !value.isZero
  | .truth value => value
  | .special _ => false

def display : Literal → String
  | .text value => value
  | .number value => value.render
  | .truth value => if value then "true" else "false"
  | .special marker => marker

def toJson : Literal → Json
  | .text value => .ofString value
  | .number value => .number value.toNumeral
  | .truth value => .bool value
  | .special marker => .ofMembers [("special", .ofString marker)]

def ofJson? : Json → Option Literal
  | .string quoted => quoted.text?.map .text
  | .number numeral => (Number.ofNumeral? numeral).map .number
  | .bool value => some (.truth value)
  | .object members =>
    match (Json.object members).fields? ["special"] with
    | some [marker] => (Json.required? Json.text? marker).map .special
    | _ => none
  | _ => none

def ofDocument? (value : Json) : Option Literal :=
  if value.canBeHeld 0 then ofJson? value else none

end Literal

end DomainFlow
