import DomainFlow.Json.Basic

/-!
Tokens of a JSON text: punctuation, the three words, numerals and strings. Scanning takes one token at
a time, and each takes at least one character.
-/
namespace DomainFlow

inductive JsonToken where
  | openBrace
  | closeBrace
  | openBracket
  | closeBracket
  | comma
  | colon
  | null
  | bool (value : Bool)
  | number (numeral : Numeral)
  | string (quoted : QuotedText)

namespace JsonToken

/-- A part of a string: a character, a character written by a letter after a backslash, or a code unit
written by its number. -/
inductive Piece where
  | char (value : Char)
  | letter (value : Char)
  | unit (code : Nat)

def hexValue? (char : Char) : Option Nat :=
  if '0' ≤ char ∧ char ≤ '9' then some (char.toNat - '0'.toNat)
  else if 'a' ≤ char ∧ char ≤ 'f' then some (char.toNat - 'a'.toNat + 10)
  else if 'A' ≤ char ∧ char ≤ 'F' then some (char.toNat - 'A'.toNat + 10)
  else none

def codeUnit? (first second third fourth : Char) : Option Nat := do
  let first ← hexValue? first
  let second ← hexValue? second
  let third ← hexValue? third
  let fourth ← hexValue? fourth
  return ((first * 16 + second) * 16 + third) * 16 + fourth

def escaped? : Char → Option Char
  | '"' => some '"'
  | '\\' => some '\\'
  | '/' => some '/'
  | 'b' => some '\x08'
  | 'f' => some '\x0c'
  | 'n' => some '\n'
  | 'r' => some '\r'
  | 't' => some '\t'
  | _ => none

/-- The parts of a string up to its closing quote, last part first, and the input after the quote.
Control characters are refused. -/
def pieces? (done : List Piece) : List Char → Option (List Piece × List Char)
  | [] => none
  | '"' :: rest => some (done, rest)
  | '\\' :: 'u' :: first :: second :: third :: fourth :: rest =>
    match codeUnit? first second third fourth with
    | none => none
    | some code => pieces? (.unit code :: done) rest
  | '\\' :: letter :: rest =>
    match escaped? letter with
    | none => none
    | some char => pieces? (.letter char :: done) rest
  | char :: rest => if char < ' ' ∨ char = '\\' then none else pieces? (.char char :: done) rest

theorem length_of_pieces? {done pieces : List Piece} {input rest : List Char}
    (found : pieces? done input = some (pieces, rest)) : rest.length < input.length := by
  fun_induction pieces? done input <;> simp_all <;> grind

def isHighSurrogate (code : Nat) : Bool := decide (0xD800 ≤ code ∧ code < 0xDC00)

def isLowSurrogate (code : Nat) : Bool := decide (0xDC00 ≤ code ∧ code < 0xE000)

/-- Puts the parts of a string together, last character first. Code units of a pair become one
character, and a half without the other makes the string unreadable. -/
def assemble? (done : List Char) : List Piece → Option (List Char)
  | [] => some done
  | .char char :: rest => assemble? (char :: done) rest
  | .letter char :: rest => assemble? (char :: done) rest
  | .unit high :: .unit low :: rest =>
    if isHighSurrogate high then
      if isLowSurrogate low then
        assemble? (Char.ofNat (0x10000 + (high - 0xD800) * 0x400 + (low - 0xDC00)) :: done) rest
      else none
    else if isLowSurrogate high then none
    else assemble? (Char.ofNat high :: done) (.unit low :: rest)
  | .unit code :: rest =>
    if isHighSurrogate code || isLowSurrogate code then none
    else assemble? (Char.ofNat code :: done) rest

def Piece.isPlain : Piece → Bool
  | .char _ => true
  | _ => false

def quoted? (input : List Char) : Option (QuotedText × List Char) :=
  match pieces? [] input with
  | none => none
  | some (pieces, rest) =>
    let text := (assemble? [] pieces.reverse).map fun chars => String.ofList chars.reverse
    some (⟨text, pieces.all Piece.isPlain⟩, rest)

theorem length_of_quoted? {input rest : List Char} {quoted : QuotedText}
    (found : quoted? input = some (quoted, rest)) : rest.length < input.length := by
  unfold quoted? at found
  split at found
  · simp at found
  · next pieces after scanned =>
    simp only [Option.some.injEq, Prod.mk.injEq] at found
    exact found.2 ▸ length_of_pieces? scanned

def leadingDigits : List Char → List Digit × List Char
  | [] => ([], [])
  | char :: rest =>
    match Digit.ofChar? char with
    | none => ([], char :: rest)
    | some digit =>
      let (digits, after) := leadingDigits rest
      (digit :: digits, after)

theorem length_leadingDigits (input : List Char) :
    (leadingDigits input).1.length + (leadingDigits input).2.length = input.length := by
  induction input with
  | nil => rfl
  | cons char rest ih =>
    unfold leadingDigits
    split
    · simp
    · simp only [List.length_cons]
      omega

def someDigits? (input : List Char) : Option (List Digit × List Char) :=
  if (leadingDigits input).1.isEmpty then none else some (leadingDigits input)

theorem length_of_someDigits? {input rest : List Char} {digits : List Digit}
    (found : someDigits? input = some (digits, rest)) : rest.length < input.length := by
  unfold someDigits? at found
  split at found
  · simp at found
  · next present =>
    have total := length_leadingDigits input
    simp only [Option.some.injEq] at found
    rw [found] at total present
    have positive : 0 < digits.length := by
      cases digits with
      | nil => simp at present
      | cons => simp
    simp only at total
    omega

/-- The digits before the point: one zero, or digits that do not start with it. -/
def whole? (input : List Char) : Option (Nat × List Char) :=
  match someDigits? input with
  | none => none
  | some (digits, rest) =>
    if digits.head? = some Digit.zero ∧ 1 < digits.length then none
    else some (Digit.value 0 digits, rest)

def fraction? : List Char → Option (Option (List Digit) × List Char)
  | '.' :: rest => (someDigits? rest).map fun (digits, after) => (some digits, after)
  | input => some (none, input)

/-- The power of ten after an exponent mark and a sign, if there is a mark. -/
def exponent? : List Char → Option (Option Int × List Char)
  | mark :: rest =>
    if mark = 'e' ∨ mark = 'E' then
      let (negative, digits) := match rest with
        | '-' :: after => (true, after)
        | '+' :: after => (false, after)
        | _ => (false, rest)
      (someDigits? digits).map fun (digits, after) =>
        let power : Int := Digit.value 0 digits
        (some (if negative then -power else power), after)
    else some (none, mark :: rest)
  | [] => some (none, [])

theorem length_of_whole? {input rest : List Char} {number : Nat}
    (found : whole? input = some (number, rest)) : rest.length < input.length := by
  unfold whole? at found
  split at found
  · simp at found
  · next scanned =>
    split at found
    · simp at found
    · simp only [Option.some.injEq, Prod.mk.injEq] at found
      exact found.2 ▸ length_of_someDigits? scanned

theorem length_of_fraction? {input rest : List Char} {digits : Option (List Digit)}
    (found : fraction? input = some (digits, rest)) : rest.length ≤ input.length := by
  unfold fraction? at found
  split at found
  · simp only [Option.map_eq_some_iff, Prod.mk.injEq, Prod.exists] at found
    obtain ⟨_, _, scanned, _, rfl⟩ := found
    have shorter := length_of_someDigits? scanned
    simp only [List.length_cons]
    omega
  · simp only [Option.some.injEq, Prod.mk.injEq] at found
    exact found.2 ▸ Nat.le_refl _

theorem length_of_exponent? {input rest : List Char} {power : Option Int}
    (found : exponent? input = some (power, rest)) : rest.length ≤ input.length := by
  unfold exponent? at found
  split at found
  · split at found
    · simp only [Option.map_eq_some_iff, Prod.mk.injEq, Prod.exists] at found
      obtain ⟨_, _, scanned, _, rfl⟩ := found
      have shorter := length_of_someDigits? scanned
      split at shorter <;> simp_all <;> omega
    · simp only [Option.some.injEq, Prod.mk.injEq] at found
      exact found.2 ▸ Nat.le_refl _
  · simp only [Option.some.injEq, Prod.mk.injEq] at found
    exact found.2 ▸ Nat.le_refl _

/-- The rest of a numeral after its sign. -/
def unsigned? (negative : Bool) (input : List Char) : Option (Numeral × List Char) :=
  match whole? input with
  | none => none
  | some (whole, afterWhole) =>
    match fraction? afterWhole with
    | none => none
    | some (fraction, afterFraction) =>
      match exponent? afterFraction with
      | none => none
      | some (exponent, rest) => some (⟨negative, whole, fraction, exponent⟩, rest)

theorem length_of_unsigned? {negative : Bool} {input rest : List Char} {numeral : Numeral}
    (found : unsigned? negative input = some (numeral, rest)) : rest.length < input.length := by
  unfold unsigned? at found
  split at found
  · simp at found
  · next wholeFound =>
    split at found
    · simp at found
    · next fractionFound =>
      split at found
      · simp at found
      · next exponentFound =>
        simp only [Option.some.injEq, Prod.mk.injEq] at found
        have first := length_of_whole? wholeFound
        have second := length_of_fraction? fractionFound
        have third := length_of_exponent? exponentFound
        rw [found.2] at third
        omega

def next? : List Char → Option (JsonToken × List Char)
  | '{' :: rest => some (.openBrace, rest)
  | '}' :: rest => some (.closeBrace, rest)
  | '[' :: rest => some (.openBracket, rest)
  | ']' :: rest => some (.closeBracket, rest)
  | ',' :: rest => some (.comma, rest)
  | ':' :: rest => some (.colon, rest)
  | 'n' :: 'u' :: 'l' :: 'l' :: rest => some (.null, rest)
  | 't' :: 'r' :: 'u' :: 'e' :: rest => some (.bool true, rest)
  | 'f' :: 'a' :: 'l' :: 's' :: 'e' :: rest => some (.bool false, rest)
  | '"' :: rest => (quoted? rest).map fun (quoted, after) => (.string quoted, after)
  | '-' :: rest => (unsigned? true rest).map fun (numeral, after) => (.number numeral, after)
  | input => (unsigned? false input).map fun (numeral, after) => (.number numeral, after)

theorem length_of_next? {input rest : List Char} {token : JsonToken}
    (found : next? input = some (token, rest)) : rest.length < input.length := by
  unfold next? at found
  split at found
  case h_10 =>
    simp only [Option.map_eq_some_iff, Prod.mk.injEq, Prod.exists] at found
    obtain ⟨_, _, scanned, _, rfl⟩ := found
    have shorter := length_of_quoted? scanned
    simp only [List.length_cons]
    omega
  case h_11 =>
    simp only [Option.map_eq_some_iff, Prod.mk.injEq, Prod.exists] at found
    obtain ⟨_, _, scanned, _, rfl⟩ := found
    have shorter := length_of_unsigned? scanned
    simp only [List.length_cons]
    omega
  case h_12 =>
    simp only [Option.map_eq_some_iff, Prod.mk.injEq, Prod.exists] at found
    obtain ⟨_, _, scanned, _, rfl⟩ := found
    exact length_of_unsigned? scanned
  all_goals
    simp only [Option.some.injEq, Prod.mk.injEq] at found
    simp only [← found.2, List.length_cons]
    omega

def isBlank (char : Char) : Bool := char == ' ' || char == '\t' || char == '\n' || char == '\r'

/-- The tokens of an input, after those in `done`, which are last first. -/
def scanFrom (done : List JsonToken) (input : List Char) : Option (List JsonToken) :=
  match input with
  | [] => some done.reverse
  | char :: rest =>
    if isBlank char then scanFrom done rest
    else
      match _found : next? (char :: rest) with
      | none => none
      | some (token, after) => scanFrom (token :: done) after
termination_by input.length
decreasing_by
  · simp
  · exact length_of_next? _found

def scan (text : String) : Option (List JsonToken) := scanFrom [] text.toList

end JsonToken

end DomainFlow
