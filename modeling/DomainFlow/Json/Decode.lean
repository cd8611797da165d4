import DomainFlow.Json.Basic

/-!
Taking JSON values apart. A record is given as an object, whose unknown members are ignored and whose
known ones may occur once, or as an array of its fields in order, of which the last ones may be left
out. A choice between names is given as the name, or as an object with that one member.
-/
namespace DomainFlow

namespace Json

def text? : Json → Option String
  | .string quoted => quoted.text?
  | _ => none

def truth? : Json → Option Bool
  | .bool value => some value
  | _ => none

def integer? : Json → Option Int
  | .number numeral => numeral.integer?
  | _ => none

def nat64? (value : Json) : Option UInt64 :=
  value.integer?.bind fun number =>
    if 0 ≤ number ∧ number < 18446744073709551616 then some (UInt64.ofNat number.toNat) else none

def nat32? (value : Json) : Option UInt32 :=
  value.integer?.bind fun number =>
    if 0 ≤ number ∧ number < 4294967296 then some (UInt32.ofNat number.toNat) else none

def int64? (value : Json) : Option Int64 :=
  value.integer?.bind fun number =>
    if -9223372036854775808 ≤ number ∧ number < 9223372036854775808 then some (Int64.ofInt number)
    else none

def list? {α : Type} (element? : Json → Option α) : Json → Option (List α)
  | .array elements => elements.mapM element?
  | _ => none

def nullable? {α : Type} (content? : Json → Option α) : Json → Option (Option α)
  | .null => some none
  | value => (content? value).map some

def keyed? (members : List (QuotedText × Json)) : Option (List (String × Json)) :=
  members.mapM fun member => member.1.text?.map fun key => (key, member.2)

/-- The only member of a name. It is a fault if there are several, and none if there is none. -/
def member? (name : String) (members : List (String × Json)) : Option (Option Json) :=
  match members.filter fun member => member.1 == name with
  | [] => some none
  | [member] => some (some member.2)
  | _ => none

/-- The fields of a record in the order of their names. A field may be absent. -/
def fields? (names : List String) : Json → Option (List (Option Json))
  | .object members => (keyed? members).bind fun members => names.mapM fun name => member? name members
  | .array elements =>
    if elements.length ≤ names.length then
      some (elements.map some ++ List.replicate (names.length - elements.length) none)
    else none
  | _ => none

def required? {α : Type} (content? : Json → Option α) (field : Option Json) : Option α :=
  field.bind content?

def defaulted? {α : Type} (default : α) (content? : Json → Option α) : Option Json → Option α
  | none => some default
  | some value => content? value

/-- A record that names its kind, in a member or in the first place of an array: the name and the
record without it. -/
def tagged? (tag : String) : Json → Option (String × Json)
  | .object members => do
    let keyed ← keyed? members
    let name ← (← member? tag keyed).bind text?
    return (name, .object (members.filter fun member => member.1.text? != some tag))
  | .array (first :: rest) => first.text?.map fun name => (name, .array rest)
  | _ => none

/-- How many arrays and objects may lie within each other where values are held as a whole. -/
def nestingLimit : Nat := 127

/-- Whether a value that lies within `level` arrays and objects can be held as a whole before it is
taken apart. All of it must then be readable, also the parts that are ignored later. -/
def canBeHeld (level : Nat) (value : Json) : Bool :=
  decide (level + value.nesting ≤ nestingLimit) && value.isReadable

/-- The name that a choice gives: as a string, or as the key of an object whose only value counts as
nothing. -/
def choice? (isNothing : Json → Bool) : Json → Option String
  | .string quoted => quoted.text?
  | .object [(key, value)] => if isNothing value then key.text? else none
  | _ => none

def isNull : Json → Bool
  | .null => true
  | _ => false

def isNullOrEmpty : Json → Bool
  | .null => true
  | .object [] => true
  | _ => false

end Json

end DomainFlow
