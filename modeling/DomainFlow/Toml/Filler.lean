/-!
What stands between the parts of a TOML document: blanks, ends of lines and comments.
-/
namespace DomainFlow

namespace Toml

/-- Reads something at the start of a text, and gives it with what is left. -/
abbrev Reading (α : Type) := List Char → Option (α × List Char)

def isLineBlank (char : Char) : Bool := char == ' ' || char == '\t'

def skipBlanks (input : List Char) : List Char := input.dropWhile isLineBlank

/-- Whether a character may stand in any text: it is a tab or no control character. -/
def isPrintable (char : Char) : Bool := char == '\t' || (decide (' ' ≤ char) && char != '\x7f')

def newline? : List Char → Option (List Char)
  | '\n' :: rest => some rest
  | '\r' :: '\n' :: rest => some rest
  | _ => none

def skipComment : List Char → List Char
  | '#' :: rest => rest.dropWhile isPrintable
  | input => input

/-- What is left after the rest of a line, which may hold blanks and a comment only. -/
def lineEnd? (input : List Char) : Option (List Char) :=
  match skipComment (skipBlanks input) with
  | [] => some []
  | rest => newline? rest

def skipFiller (inComment : Bool) : List Char → List Char
  | '\n' :: rest => skipFiller false rest
  | '\r' :: '\n' :: rest => skipFiller false rest
  | char :: rest =>
    if inComment then
      if isPrintable char then skipFiller true rest else char :: rest
    else if isLineBlank char then skipFiller false rest
    else if char == '#' then skipFiller true rest
    else char :: rest
  | [] => []

end Toml

end DomainFlow
