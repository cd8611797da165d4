import DomainFlow.Toml.Assemble
import DomainFlow.Toml.Scalar

/-!
Reading TOML documents. Arrays and inline tables may be nested to a fixed depth, and dotted keys have a
greatest length. Where a loop goes on with the rest of a text, the rest is shorter.
-/
namespace DomainFlow

namespace Toml

def isKeyChar (char : Char) : Bool := char.isAlphanum || char == '_' || char == '-'

def keyPart? (input : List Char) : Option (String × List Char) :=
  match input with
  | '"' :: rest => quoted? [] rest
  | '\x27' :: rest => verbatim? [] rest
  | _ =>
    let name := input.takeWhile isKeyChar
    if name.isEmpty then none else some (String.ofList name, input.dropWhile isKeyChar)

/-- Reads the parts of a dotted key. There may be blanks around each part. -/
def keyParts? (done : List String) (input : List Char) : Option (List String × List Char) :=
  match keyPart? (skipBlanks input) with
  | none => none
  | some (part, after) =>
    match skipBlanks after with
    | '.' :: rest =>
      if rest.length < input.length then keyParts? (part :: done) rest else none
    | rest => some ((part :: done).reverse, rest)
termination_by input.length

/-- Fewer parts than these may a dotted key have, and fewer arrays and inline tables may lie within each
other. -/
def nestingLimit : Nat := 80

def dottedKey? (input : List Char) : Option ((List String × String) × List Char) := do
  let (parts, rest) ← keyParts? [] input
  let key ← parts.getLast?
  if parts.length < nestingLimit then some ((parts.dropLast, key), rest) else none

def assignment? (value? : Reading Toml) (input : List Char) :
    Option ((List String × String × Toml) × List Char) := do
  let ((path, key), rest) ← dottedKey? input
  let (_, rest) ← oneOf? ['='] rest
  let (value, rest) ← value? (skipBlanks rest)
  return ((path, key, value), rest)

/-- Reads the elements of an array, from behind the opening bracket or a comma. A comma may follow the
last one. -/
def elements? (value? : Reading Toml) (done : List Toml) (input : List Char) :
    Option (List Toml × List Char) :=
  match skipFiller false input with
  | ']' :: rest => some (done.reverse, rest)
  | start =>
    match value? start with
    | none => none
    | some (value, after) =>
      match skipFiller false after with
      | ',' :: rest => if rest.length < input.length then elements? value? (value :: done) rest else none
      | ']' :: rest => some ((value :: done).reverse, rest)
      | _ => none
termination_by input.length

/-- Reads the entries of an inline table, from behind the opening brace or a comma. -/
def members? (value? : Reading Toml) (done : TomlTable) (input : List Char) : Option (TomlTable × List Char) :=
  match assignment? value? input with
  | none => none
  | some ((path, key, value), after) =>
    match assignInline done path key value with
    | none => none
    | some entries =>
      match skipBlanks after with
      | ',' :: rest => if rest.length < input.length then members? value? entries rest else none
      | '\x7d' :: rest => some (entries, rest)
      | _ => none
termination_by input.length

def inlineTable? (value? : Reading Toml) (input : List Char) : Option (Toml × List Char) :=
  match skipBlanks input with
  | '\x7d' :: rest => some (.table .inline [], rest)
  | _ => (members? value? [] input).map fun (entries, rest) => (close (.table .inline entries), rest)

/-- Reads a value in which so many arrays and inline tables may lie within each other. -/
def value? : Nat → Reading Toml
  | 0, input => scalar? input
  | depth + 1, '[' :: rest => (elements? (value? depth) [] rest).map fun (elements, after) =>
      (.array elements, after)
  | depth + 1, '\x7b' :: rest => inlineTable? (value? depth) rest
  | _ + 1, input => scalar? input

def arrayHeader? (input : List Char) : Option (Statement × List Char) := do
  let ((path, key), rest) ← dottedKey? input
  match rest with
  | ']' :: ']' :: rest => return (.arrayHeader path key, ← lineEnd? rest)
  | _ => failure

def header? (input : List Char) : Option (Statement × List Char) := do
  let ((path, key), rest) ← dottedKey? input
  let (_, rest) ← oneOf? [']'] rest
  return (.header path key, ← lineEnd? rest)

def line? (input : List Char) : Option (Option Statement × List Char) :=
  match input with
  | '[' :: '[' :: rest => (arrayHeader? rest).map fun (statement, after) => (some statement, after)
  | '[' :: rest => (header? rest).map fun (statement, after) => (some statement, after)
  | '#' :: _ => (lineEnd? input).map fun after => (none, after)
  | '\n' :: rest => some (none, rest)
  | '\r' :: '\n' :: rest => some (none, rest)
  | _ => do
    let ((path, key, value), rest) ← assignment? (value? (nestingLimit - 1)) input
    return (some (.assign path key value), ← lineEnd? rest)

def statements? (done : List Statement) (input : List Char) : Option (List Statement) :=
  match skipBlanks input with
  | [] => some done.reverse
  | start =>
    match line? start with
    | none => none
    | some (statement, rest) =>
      if rest.length < input.length then statements? (statement.toList ++ done) rest else none
termination_by input.length

/-- What is left after a mark that only says how the text is encoded. -/
def skipByteOrderMark : List Char → List Char
  | '\ufeff' :: rest => rest
  | input => input

def read? (text : String) : Option TomlTable :=
  (statements? [] (skipByteOrderMark text.toList)).bind assemble?

end Toml

end DomainFlow
