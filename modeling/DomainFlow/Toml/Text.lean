import DomainFlow.Json.Token
import DomainFlow.Toml.Filler

/-!
Texts of TOML: between quotes, in which a backslash starts an escape, or between apostrophes, in which
all characters stand for themselves. Between three of either a text may span lines.
-/
namespace DomainFlow

namespace Toml

def escaped? : Char → Option Char
  | 'b' => some '\x08'
  | 't' => some '\t'
  | 'n' => some '\n'
  | 'f' => some '\x0c'
  | 'r' => some '\r'
  | '"' => some '"'
  | '\\' => some '\\'
  | _ => none

def codePoint? (digits : List Char) : Option Char := do
  let values ← digits.mapM JsonToken.hexValue?
  let code := values.foldl (fun code value => 16 * code + value) 0
  if code < 0xD800 ∨ (0xE000 ≤ code ∧ code ≤ 0x10FFFF) then some (Char.ofNat code) else none

def quoted? (done : List Char) : Reading String
  | '"' :: rest => some (String.ofList done.reverse, rest)
  | '\\' :: 'u' :: a :: b :: c :: d :: rest => do quoted? ((← codePoint? [a, b, c, d]) :: done) rest
  | '\\' :: 'U' :: a :: b :: c :: d :: e :: f :: g :: h :: rest => do
    quoted? ((← codePoint? [a, b, c, d, e, f, g, h]) :: done) rest
  | '\\' :: char :: rest => do quoted? ((← escaped? char) :: done) rest
  | char :: rest => if isPrintable char then quoted? (char :: done) rest else none
  | [] => none

def verbatim? (done : List Char) : Reading String
  | '\x27' :: rest => some (String.ofList done.reverse, rest)
  | char :: rest => if isPrintable char then verbatim? (char :: done) rest else none
  | [] => none

def joinsLines (input : List Char) : Bool := (newline? (skipBlanks input)).isSome

/-- Closes a text over several lines behind three quotes or apostrophes. Up to two more of them belong
to the text. -/
def closeLines (mark : Char) (done : List Char) : List Char → String × List Char
  | first :: second :: rest =>
    if first = mark ∧ second = mark then (String.ofList (second :: first :: done).reverse, rest)
    else if first = mark then (String.ofList (first :: done).reverse, second :: rest)
    else (String.ofList done.reverse, first :: second :: rest)
  | [first] =>
    if first = mark then (String.ofList (first :: done).reverse, [])
    else (String.ofList done.reverse, [first])
  | [] => (String.ofList done.reverse, [])

/-- Reads a text over several lines, from behind the opening quotes. After a backslash at the end of a
line all white space is left out. -/
def quotedLines? (joining : Bool) (done : List Char) : Reading String
  | '"' :: '"' :: '"' :: rest => some (closeLines '"' done rest)
  | '\n' :: rest => if joining then quotedLines? true done rest else quotedLines? false ('\n' :: done) rest
  | '\r' :: '\n' :: rest =>
    if joining then quotedLines? true done rest else quotedLines? false ('\n' :: done) rest
  | '\\' :: 'u' :: a :: b :: c :: d :: rest => do
    quotedLines? false ((← codePoint? [a, b, c, d]) :: done) rest
  | '\\' :: 'U' :: a :: b :: c :: d :: e :: f :: g :: h :: rest => do
    quotedLines? false ((← codePoint? [a, b, c, d, e, f, g, h]) :: done) rest
  | '\\' :: char :: rest =>
    if joinsLines (char :: rest) then quotedLines? true done (char :: rest)
    else do quotedLines? false ((← escaped? char) :: done) rest
  | char :: rest =>
    if joining && isLineBlank char then quotedLines? true done rest
    else if isPrintable char then quotedLines? false (char :: done) rest
    else none
  | [] => none

def verbatimLines? (done : List Char) : Reading String
  | '\x27' :: '\x27' :: '\x27' :: rest => some (closeLines '\x27' done rest)
  | '\n' :: rest => verbatimLines? ('\n' :: done) rest
  | '\r' :: '\n' :: rest => verbatimLines? ('\n' :: done) rest
  | char :: rest => if isPrintable char then verbatimLines? (char :: done) rest else none
  | [] => none

/-- What is left after an end of line that follows the opening marks at once. -/
def skipFirstNewline (input : List Char) : List Char := (newline? input).getD input

def anyText? : Reading String
  | '"' :: '"' :: '"' :: rest => quotedLines? false [] (skipFirstNewline rest)
  | '"' :: rest => quoted? [] rest
  | '\x27' :: '\x27' :: '\x27' :: rest => verbatimLines? [] (skipFirstNewline rest)
  | '\x27' :: rest => verbatim? [] rest
  | _ => none

end Toml

end DomainFlow
