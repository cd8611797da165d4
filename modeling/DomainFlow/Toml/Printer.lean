import DomainFlow.Json.Printer
import DomainFlow.Toml.Basic

/-!
Printing texts and lists of texts as TOML. Of the ways in which a text can be written, the plainest one
that needs no escapes is taken: on one line between quotes, on one line between apostrophes, between
three quotes, or between three apostrophes. Only if none will do, characters are escaped.
-/
namespace DomainFlow

namespace Toml

def needsEscape (char : Char) : Bool :=
  (decide (char < ' ') && char != '\t' && char != '\n') || char == '\x7f'

def longestRun (mark : Char) (current longest : Nat) : List Char → Nat
  | [] => max current longest
  | char :: rest =>
    if char = mark then longestRun mark (current + 1) longest rest
    else longestRun mark 0 (max current longest) rest

def codeEscape (char : Char) : List Char :=
  '\\' :: 'u' :: ([char.toNat / 4096, char.toNat / 256, char.toNat / 16, char.toNat].map fun digits =>
    (Json.hexDigit digits).toUpper)

/-- The characters of a text between quotes. So many quotes next to each other need no escape; between
three quotes an end of line needs none. -/
def escapedBody (overLines : Bool) (freeQuotes : Nat) (quotes : Nat) : List Char → List Char
  | [] => []
  | '"' :: rest =>
    if quotes < freeQuotes then '"' :: escapedBody overLines freeQuotes (quotes + 1) rest
    else '\\' :: '"' :: escapedBody overLines freeQuotes 0 rest
  | char :: rest =>
    let written := match char with
      | '\x08' => ['\\', 'b']
      | '\t' => ['\\', 't']
      | '\n' => if overLines then ['\n'] else ['\\', 'n']
      | '\x0c' => ['\\', 'f']
      | '\r' => ['\\', 'r']
      | '\\' => ['\\', '\\']
      | _ => if needsEscape char then codeEscape char else [char]
    written ++ escapedBody overLines freeQuotes 0 rest

def basicText (chars : List Char) : String := String.ofList (['"'] ++ escapedBody false 0 0 chars ++ ['"'])

/-- What follows three opening marks: a text over several lines starts on a line of its own. -/
def firstLine (chars : List Char) : List Char := if chars.contains '\n' then ['\n'] else []

def longText (chars : List Char) : String :=
  String.ofList (['"', '"', '"'] ++ firstLine chars ++ escapedBody true 2 0 chars ++ ['"', '"', '"'])

def literalText (chars : List Char) : String := String.ofList (['\x27'] ++ chars ++ ['\x27'])

def longLiteralText (chars : List Char) : String :=
  String.ofList (['\x27', '\x27', '\x27'] ++ firstLine chars ++ chars ++ ['\x27', '\x27', '\x27'])

def renderText (text : String) : String :=
  let chars := text.toList
  let hasCodes := chars.any needsEscape
  let hasBackslash := chars.contains '\\'
  let hasNewline := chars.contains '\n'
  let quotes := longestRun '"' 0 0 chars
  let apostrophes := longestRun '\x27' 0 0 chars
  if !hasCodes && !hasBackslash && quotes == 0 && !hasNewline then basicText chars
  else if !hasCodes && apostrophes == 0 && !hasNewline then literalText chars
  else if !hasCodes && !hasBackslash && quotes ≤ 2 then longText chars
  else if !hasCodes && apostrophes ≤ 2 then longLiteralText chars
  else if hasNewline then longText chars
  else basicText chars

/-- A list of texts as a value. Several stand on lines of their own. -/
def renderTexts (texts : List String) : String :=
  match texts with
  | [] => "[]"
  | [single] => "[" ++ renderText single ++ "]"
  | _ => "[\n" ++ String.join (texts.map fun element => "    " ++ renderText element ++ ",\n") ++ "]"

def renderTruth (value : Bool) : String := if value then "true" else "false"

end Toml

end DomainFlow
