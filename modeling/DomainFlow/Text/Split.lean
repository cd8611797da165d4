/-!
Cutting a text at a character, and looking for a text in another one.
-/
namespace DomainFlow

namespace Text

/-- The parts of a sequence of characters between the occurrences of one character. There is one more
part than there are occurrences. -/
def splitAt (separator : Char) : List Char → List (List Char)
  | [] => [[]]
  | char :: rest =>
    if char = separator then [] :: splitAt separator rest
    else match splitAt separator rest with
      | [] => [[char]]
      | first :: others => (char :: first) :: others

def split (separator : Char) (text : String) : List String :=
  (splitAt separator text.toList).map String.ofList

def startsWith (text start : String) : Bool := start.toList.isPrefixOf text.toList

def containsChars (part : List Char) : List Char → Bool
  | [] => part.isEmpty
  | char :: rest => part.isPrefixOf (char :: rest) || containsChars part rest

def contains (text part : String) : Bool := containsChars part.toList text.toList

end Text

end DomainFlow
