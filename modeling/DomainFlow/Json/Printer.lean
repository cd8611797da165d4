import DomainFlow.Json.Basic

/-!
Writing JSON values: on one line without blanks, or spread over lines that are indented by two blanks
for each level.
-/
namespace DomainFlow

namespace Json

def hexDigit (value : Nat) : Char := Nat.digitChar (value % 16)

def escapedChar (char : Char) : List Char :=
  match char with
  | '"' => ['\\', '"']
  | '\\' => ['\\', '\\']
  | '\x08' => ['\\', 'b']
  | '\x0c' => ['\\', 'f']
  | '\n' => ['\\', 'n']
  | '\r' => ['\\', 'r']
  | '\t' => ['\\', 't']
  | _ =>
    if char < ' ' then ['\\', 'u', '0', '0', hexDigit (char.toNat / 16), hexDigit char.toNat]
    else [char]

def quote (text : String) : String :=
  "\"" ++ String.ofList (text.toList.flatMap escapedChar) ++ "\""

/-- A string in quotes. One without characters is written empty. -/
def quoteText (quoted : QuotedText) : String := quote (quoted.text?.getD "")

mutual

def compact : Json → String
  | .null => "null"
  | .bool value => if value then "true" else "false"
  | .number numeral => numeral.render
  | .string quoted => quoteText quoted
  | .array elements => "[" ++ ",".intercalate (compactElements elements) ++ "]"
  | .object members => "\x7b" ++ ",".intercalate (compactMembers members) ++ "\x7d"

def compactElements : List Json → List String
  | [] => []
  | element :: rest => element.compact :: compactElements rest

def compactMembers : List (QuotedText × Json) → List String
  | [] => []
  | (key, value) :: rest => (quoteText key ++ ":" ++ value.compact) :: compactMembers rest

end

def newLine (level : Nat) : String := "\n" ++ String.ofList (List.replicate (2 * level) ' ')

def spread (opening closing : String) (level : Nat) (items : List String) : String :=
  if items.isEmpty then opening ++ closing
  else
    opening ++ newLine (level + 1) ++ ("," ++ newLine (level + 1)).intercalate items ++
      newLine level ++ closing

mutual

def prettyAt (level : Nat) : Json → String
  | .null => "null"
  | .bool value => if value then "true" else "false"
  | .number numeral => numeral.render
  | .string quoted => quoteText quoted
  | .array elements => spread "[" "]" level (prettyElements (level + 1) elements)
  | .object members => spread "\x7b" "\x7d" level (prettyMembers (level + 1) members)

def prettyElements (level : Nat) : List Json → List String
  | [] => []
  | element :: rest => element.prettyAt level :: prettyElements level rest

def prettyMembers (level : Nat) : List (QuotedText × Json) → List String
  | [] => []
  | (key, value) :: rest =>
    (quoteText key ++ ": " ++ value.prettyAt level) :: prettyMembers level rest

end

def pretty (value : Json) : String := value.prettyAt 0

end Json

end DomainFlow
