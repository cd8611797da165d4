import DomainFlow.Json.Token

/-!
Numerals as texts. The decimal digits of a number spell it, and a numeral is read back from its text where
the text does not go on as a numeral could.
-/
namespace DomainFlow

section Digits

theorem Digit.ofChar?_toChar (digit : Digit) : ofChar? digit.toChar = some digit := by
  revert digit
  decide

theorem digitsOf_of_lt {number : Nat} (small : number < 10) : digitsOf number = [⟨number, small⟩] := by
  simp only [digitsOf, digitCount, Nat.toDigits_of_lt_base small, List.length_singleton, Digit.lastOf, List.nil_append,
    Nat.mod_eq_of_lt small]

theorem digitsOf_append {number : Nat} (positive : 0 < number) (digit : Digit) :
    digitsOf (number * 10 + digit.val) = digitsOf number ++ [digit] := by
  have large : 10 ≤ number * 10 + digit.val := by omega
  have whole : (number * 10 + digit.val) / 10 = number := by omega
  have last : (number * 10 + digit.val) % 10 = digit.val := by omega
  simp only [digitsOf, digitCount, Nat.toDigits_of_base_le (by decide : 1 < 10) large, List.length_append,
    List.length_singleton, Digit.lastOf, whole, last]

/-- The digits of a number grow one by one at their end. -/
theorem digitsOf_induction {motive : Nat → List Digit → Prop} (single : ∀ digit : Digit, motive digit.val [digit])
    (append : ∀ number digit, 0 < number → motive number (digitsOf number) →
      motive (number * 10 + digit.val) (digitsOf number ++ [digit])) (number : Nat) : motive number (digitsOf number) := by
  induction number using Nat.strongRecOn with
  | ind number ih =>
    by_cases small : number < 10
    · rw [digitsOf_of_lt small]
      exact single ⟨number, small⟩
    · let last : Digit := ⟨number % 10, by omega⟩
      have grown : number / 10 * 10 + last.val = number := by
        show number / 10 * 10 + number % 10 = number
        omega
      have shorter := append (number / 10) last (by omega) (ih (number / 10) (by omega))
      rw [← digitsOf_append (by omega), grown] at shorter
      exact shorter

theorem toList_repr (number : Nat) : number.repr.toList = (digitsOf number).map Digit.toChar := by
  rw [Nat.toList_repr]
  apply digitsOf_induction (motive := fun number digits => Nat.toDigits 10 number = digits.map Digit.toChar)
  · intro digit
    rw [Nat.toDigits_of_lt_base digit.isLt]
    rfl
  · intro number digit positive spelled
    have large : 10 ≤ number * 10 + digit.val := by omega
    have whole : (number * 10 + digit.val) / 10 = number := by omega
    have last : (number * 10 + digit.val) % 10 = digit.val := by omega
    rw [Nat.toDigits_of_base_le (by decide) large, whole, last, spelled, List.map_append]
    rfl

theorem value_digitsOf (number : Nat) : Digit.value 0 (digitsOf number) = number := by
  apply digitsOf_induction (motive := fun number digits => Digit.value 0 digits = number)
  · intro digit
    exact (Nat.zero_add _).trans rfl
  · intro number digit _ spelled
    rw [Digit.value, List.foldl_append]
    rw [Digit.value] at spelled
    rw [spelled]
    rfl

theorem digitsOf_ne_nil (number : Nat) : digitsOf number ≠ [] := by
  apply digitsOf_induction (motive := fun _ digits => digits ≠ [])
  · exact fun _ => List.cons_ne_nil _ _
  · exact fun _ _ _ _ => List.append_ne_nil_of_right_ne_nil _ (List.cons_ne_nil _ _)

theorem head?_digitsOf_ne_zero {number : Nat} (positive : 0 < number) : (digitsOf number).head? ≠ some Digit.zero := by
  revert positive
  apply digitsOf_induction (motive := fun number digits => 0 < number → digits.head? ≠ some Digit.zero)
  · intro digit positive same
    cases same
    exact absurd positive (by decide)
  · intro number digit positive ih _
    obtain ⟨first, rest, spelled⟩ := List.exists_cons_of_ne_nil (digitsOf_ne_nil number)
    rw [spelled] at ih ⊢
    exact ih positive

/-- No number is spelled with a zero before its digits. -/
theorem digitsOf_not_padded (number : Nat) :
    ¬((digitsOf number).head? = some Digit.zero ∧ 1 < (digitsOf number).length) := by
  rintro ⟨starts, long⟩
  rcases Nat.eq_zero_or_pos number with rfl | positive
  · exact absurd long (by decide)
  · exact head?_digitsOf_ne_zero positive starts

end Digits

namespace JsonToken
variable {digits : List Digit} {rest : List Char}

def NoDigit (rest : List Char) : Prop := ∀ char ∈ rest.head?, Digit.ofChar? char = none

theorem leadingDigits_append (stops : NoDigit rest) : leadingDigits (digits.map Digit.toChar ++ rest) = (digits, rest) := by
  induction digits with
  | nil =>
    cases rest with
    | nil => rfl
    | cons char after =>
      have noDigit : Digit.ofChar? char = none := stops char rfl
      simp only [List.map_nil, List.nil_append, leadingDigits, noDigit]
  | cons digit more ih =>
    simp only [List.map_cons, List.cons_append, leadingDigits, Digit.ofChar?_toChar, ih]

theorem someDigits?_append (present : digits ≠ []) (stops : NoDigit rest) :
    someDigits? (digits.map Digit.toChar ++ rest) = some (digits, rest) := by
  rw [someDigits?, leadingDigits_append stops, if_neg (by simpa using present)]

theorem whole?_repr (number : Nat) (stops : NoDigit rest) : whole? (number.repr.toList ++ rest) = some (number, rest) := by
  simp only [whole?, toList_repr, someDigits?_append (digitsOf_ne_nil number) stops, if_neg (digitsOf_not_padded number),
    value_digitsOf]

def fractionText : Option (List Digit) → List Char
  | none => []
  | some digits => '.' :: digits.map Digit.toChar

def exponentText : Option Int → List Char
  | none => []
  | some power => 'e' :: (if power < 0 then '-' else '+') :: power.natAbs.repr.toList

theorem toList_render (numeral : Numeral) : numeral.render.toList = (if numeral.negative then ['-'] else []) ++
    (numeral.whole.repr.toList ++ (fractionText numeral.fraction ++ exponentText numeral.exponent)) := by
  obtain ⟨negative, whole, fraction, exponent⟩ := numeral
  have signText : (if negative then "-" else "").toList = if negative then ['-'] else [] := by
    cases negative <;> rfl
  unfold Numeral.render
  simp only [String.toList_append, signText, List.append_assoc]
  congr 3
  · cases fraction with
    | none => rfl
    | some digits => simp [fractionText]
  · cases exponent with
    | none => rfl
    | some power =>
      by_cases below : power < 0
      · simp [exponentText, below]
      · simp [exponentText, below]

/-- The input does not go on as a numeral could: it ends, or a value ends here. -/
def Ends (rest : List Char) : Prop := ∀ char ∈ rest.head?, char = ',' ∨ char = ']' ∨ char = '}'

theorem Ends.noDigit (ends : Ends rest) : NoDigit rest := by
  intro char isHead
  rcases ends char isHead with rfl | rfl | rfl <;> decide

theorem noDigit_exponentText (ends : Ends rest) (exponent : Option Int) : NoDigit (exponentText exponent ++ rest) := by
  cases exponent with
  | none => exact ends.noDigit
  | some power =>
    rintro char ⟨⟩
    decide

theorem noDigit_fractionText {rest : List Char} (stops : NoDigit rest) (fraction : Option (List Digit)) :
    NoDigit (fractionText fraction ++ rest) := by
  cases fraction with
  | none => exact stops
  | some digits =>
    rintro char ⟨⟩
    decide

theorem fraction?_fractionText {fraction : Option (List Digit)} (present : fraction ≠ some []) (stops : NoDigit rest)
    (noPoint : rest.head? ≠ some '.') : fraction? (fractionText fraction ++ rest) = some (fraction, rest) := by
  cases fraction with
  | none =>
    simp only [fractionText, List.nil_append]
    unfold fraction?
    split
    next after => exact absurd rfl noPoint
    next => rfl
  | some digits =>
    have nonempty : digits ≠ [] := fun nothing => present (congrArg some nothing)
    simp only [fractionText, List.cons_append, fraction?, someDigits?_append nonempty stops, Option.map_some]

theorem exponent?_minus (input : List Char) : exponent? ('e' :: '-' :: input) =
    (someDigits? input).map fun found => (some (-(Digit.value 0 found.1 : Int)), found.2) := rfl

theorem exponent?_plus (input : List Char) : exponent? ('e' :: '+' :: input) =
    (someDigits? input).map fun found => (some (Digit.value 0 found.1 : Int), found.2) := rfl

theorem exponent?_exponentText (ends : Ends rest) (exponent : Option Int) :
    exponent? (exponentText exponent ++ rest) = some (exponent, rest) := by
  cases exponent with
  | none =>
    cases rest with
    | nil => rfl
    | cons char after =>
      have noMark : ¬(char = 'e' ∨ char = 'E') := by
        rcases ends char rfl with rfl | rfl | rfl <;> decide
      simp only [exponentText, List.nil_append, exponent?, if_neg noMark]
  | some power =>
    have found := someDigits?_append (digitsOf_ne_nil power.natAbs) ends.noDigit
    rw [← toList_repr] at found
    by_cases below : power < 0
    · rw [exponentText, if_pos below, List.cons_append, List.cons_append, exponent?_minus, found, Option.map_some,
        value_digitsOf]
      congr 3
      omega
    · rw [exponentText, if_neg below, List.cons_append, List.cons_append, exponent?_plus, found, Option.map_some,
        value_digitsOf]
      congr 3
      omega

theorem unsigned?_text {numeral : Numeral} (spelled : numeral.fraction ≠ some []) (ends : Ends rest) :
    unsigned? numeral.negative (numeral.whole.repr.toList ++ (fractionText numeral.fraction ++
      (exponentText numeral.exponent ++ rest))) = some (numeral, rest) := by
  have stops := noDigit_exponentText ends numeral.exponent
  have noPoint : (exponentText numeral.exponent ++ rest).head? ≠ some '.' := by
    cases numeral.exponent with
    | none =>
      intro point
      rcases ends '.' point with same | same | same <;> exact absurd same (by decide)
    | some power =>
      intro point
      cases point
  simp only [unsigned?, whole?_repr _ (noDigit_fractionText stops numeral.fraction),
    fraction?_fractionText spelled stops noPoint, exponent?_exponentText ends]

end JsonToken

end DomainFlow
