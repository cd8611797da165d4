import DomainFlow.Number.Basic

/-!
JSON values. Numbers stay numerals and objects keep every member in the order written, repeated keys
included, because what is made of them depends on the place where a value stands.
-/
namespace DomainFlow

structure QuotedText where
  /-- The characters, absent when an escape names one half of a surrogate pair alone. -/
  text? : Option String
  /-- Whether the characters stand in the text as they are, without escapes. -/
  verbatim : Bool
deriving DecidableEq

namespace QuotedText

/-- Whether a character stands within quotes as it is. Quotes, backslashes and control characters are
escaped. -/
def isPlain (char : Char) : Bool := char != '"' && char != '\\' && !decide (char < ' ')

def ofString (text : String) : QuotedText := ⟨some text, text.toList.all isPlain⟩

@[simp] theorem text?_ofString (text : String) : (ofString text).text? = some text := rfl

end QuotedText

inductive Json where
  | null
  | bool (value : Bool)
  | number (numeral : Numeral)
  | string (quoted : QuotedText)
  | array (elements : List Json)
  | object (members : List (QuotedText × Json))

namespace Json

def ofString (text : String) : Json := .string (.ofString text)

def ofInt (number : Int) : Json := .number (.ofInt number)

def ofNat (number : Nat) : Json := .ofInt number

def ofMembers (members : List (String × Json)) : Json :=
  .object (members.map fun member => (.ofString member.1, member.2))

def ofOption {α : Type} (encode : α → Json) : Option α → Json
  | none => .null
  | some value => encode value

mutual

def nesting : Json → Nat
  | .array elements => nestingOfElements elements + 1
  | .object members => nestingOfMembers members + 1
  | _ => 0

def nestingOfElements : List Json → Nat
  | [] => 0
  | element :: rest => max element.nesting (nestingOfElements rest)

def nestingOfMembers : List (QuotedText × Json) → Nat
  | [] => 0
  | (_, value) :: rest => max value.nesting (nestingOfMembers rest)

end

mutual

def isReadable : Json → Bool
  | .number numeral => (Number.ofNumeral? numeral).isSome
  | .string quoted => quoted.text?.isSome
  | .array elements => areReadable elements
  | .object members => areReadableMembers members
  | _ => true

def areReadable : List Json → Bool
  | [] => true
  | element :: rest => element.isReadable && areReadable rest

def areReadableMembers : List (QuotedText × Json) → Bool
  | [] => true
  | (key, value) :: rest => key.text?.isSome && value.isReadable && areReadableMembers rest

end

end Json

end DomainFlow
