import DomainFlow.Text.Split

/-!
Styled text for terminals. A style is switched on before a text and off after it; where the text itself
switches styles off, the style is switched on again.
-/
namespace DomainFlow

inductive Color where
  | red
  | green
  | yellow
  | blue
  | cyan
deriving DecidableEq, Repr

def Color.code : Color → String
  | .red => "31"
  | .green => "32"
  | .yellow => "33"
  | .blue => "34"
  | .cyan => "36"

structure Style where
  isBold : Bool := false
  isDim : Bool := false
  color : Option Color := none
deriving DecidableEq, Repr

namespace Style

def bold : Style := { isBold := true }

def dim : Style := { isDim := true }

def colored (color : Color) : Style := { color := some color }

def strong (color : Color) : Style := { isBold := true, color := some color }

def escape : Char := '\x1b'

def opening (style : Style) : List Char :=
  let codes := (if style.isBold then ["1"] else []) ++ (if style.isDim then ["2"] else []) ++
    (style.color.map Color.code).toList
  [escape, '['] ++ (";".intercalate codes).toList ++ ['m']

def closing : List Char := [escape, '[', '0', 'm']

def reopened (opening : List Char) : List Char → List Char
  | '\x1b' :: '[' :: '0' :: 'm' :: rest => closing ++ opening ++ reopened opening rest
  | char :: rest => char :: reopened opening rest
  | [] => []

def apply (inUse : Bool) (style : Style) (text : String) : String :=
  if inUse then String.ofList (style.opening ++ reopened style.opening text.toList ++ closing) else text

end Style

end DomainFlow
