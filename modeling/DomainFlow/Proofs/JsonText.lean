import DomainFlow.Json.Printer
import DomainFlow.Json.Reader
import DomainFlow.Proofs.Numeral

/-!
Reading back what was written. A value on one line is taken apart into the tokens that stand for it, and
these give the value again. What may follow a value is part of each statement, so that values can stand
within others.
-/
namespace DomainFlow

namespace JsonToken
variable {done : List Piece} {rest : List Char} {char : Char}

section Strings
open Json QuotedText

/-- How a character is written within quotes: as it is, by a letter, or by its number. -/
theorem escapedChar_cases (char : Char) : (escapedChar char = [char] ∧ isPlain char = true) ∨
    (∃ letter, escapedChar char = ['\\', letter] ∧ letter ≠ 'u' ∧ escaped? letter = some char ∧ isPlain char = false) ∨
    (escapedChar char = ['\\', 'u', '0', '0', hexDigit (char.toNat / 16), hexDigit char.toNat] ∧ char.toNat < 32 ∧
      isPlain char = false) := by
  unfold escapedChar
  split
  case h_8 =>
    split
    next control =>
      refine .inr (.inr ⟨rfl, control, ?_⟩)
      simp [isPlain, control]
    next printable =>
      refine .inl ⟨rfl, ?_⟩
      simp_all [isPlain]
  all_goals exact .inr (.inl ⟨_, rfl, by decide, rfl, by decide⟩)

/-- The part of a string that a written character is read as. -/
def pieceOf (char : Char) : Piece :=
  match escapedChar char with
  | [_] => .char char
  | [_, _] => .letter char
  | _ => .unit char.toNat

theorem isPlain_pieceOf : (pieceOf char).isPlain = isPlain char := by
  rcases escapedChar_cases char with ⟨written, plain⟩ | ⟨letter, written, -, -, special⟩ | ⟨written, -, special⟩
  · simp only [pieceOf, written, Piece.isPlain, plain]
  · simp only [pieceOf, written, Piece.isPlain, special]
  · simp only [pieceOf, written, Piece.isPlain, special]

theorem hexValue?_hexDigit (value : Nat) : hexValue? (hexDigit value) = some (value % 16) := by
  have digits : ∀ digit : Fin 16, hexValue? (Nat.digitChar digit.val) = some digit.val := by decide
  exact digits ⟨value % 16, Nat.mod_lt _ (by decide)⟩

theorem pieces?_plain (plain : isPlain char = true) : pieces? done (char :: rest) = pieces? (.char char :: done) rest := by
  obtain ⟨⟨noQuote, noBackslash⟩, printable⟩ : (char ≠ '"' ∧ char ≠ '\\') ∧ ¬char < ' ' := by
    simpa [isPlain] using plain
  rw [pieces?.eq_def]
  split
  case h_5 same =>
    cases same
    exact if_neg (not_or.2 ⟨printable, noBackslash⟩)
  all_goals simp_all

theorem pieces?_letter {letter : Char} (notNumber : letter ≠ 'u') (found : escaped? letter = some char) :
    pieces? done ('\\' :: letter :: rest) = pieces? (.letter char :: done) rest := by
  rw [pieces?]
  · rw [found]
  · rintro _ _ _ _ _ rfl
    exact absurd rfl notNumber

theorem codeUnit?_hexDigits {code : Nat} (small : code < 256) :
    codeUnit? '0' '0' (hexDigit (code / 16)) (hexDigit code) = some code := by
  have zero : hexValue? '0' = some 0 := rfl
  have whole : code / 16 % 16 * 16 + code % 16 = code := by omega
  simp [codeUnit?, zero, hexValue?_hexDigit, whole]

/-- A written character is read as one part. -/
theorem pieces?_escapedChar : pieces? done (escapedChar char ++ rest) = pieces? (pieceOf char :: done) rest := by
  rcases escapedChar_cases char with ⟨written, plain⟩ | ⟨letter, written, notNumber, found, -⟩ | ⟨written, control, -⟩
  · simp only [pieceOf, written, List.cons_append, List.nil_append, pieces?_plain plain]
  · simp only [pieceOf, written, List.cons_append, List.nil_append, pieces?_letter notNumber found]
  · have code := codeUnit?_hexDigits (Nat.lt_trans control (by decide : 32 < 256))
    simp only [pieceOf, written, List.cons_append, List.nil_append, pieces?, code]

theorem pieces?_text (chars : List Char) : pieces? done (chars.flatMap escapedChar ++ '"' :: rest) =
    some ((chars.map pieceOf).reverse ++ done, rest) := by
  induction chars generalizing done with
  | nil => rfl
  | cons char more ih =>
    rw [List.flatMap_cons, List.append_assoc, pieces?_escapedChar, ih, List.map_cons, List.reverse_cons, List.append_assoc]
    rfl

theorem assemble?_unit {done : List Char} {more : List Piece} {code : Nat} (small : code < 0xD800) :
    assemble? done (.unit code :: more) = assemble? (Char.ofNat code :: done) more := by
  have notHigh : isHighSurrogate code = false := by simp [isHighSurrogate]; omega
  have notLow : isLowSurrogate code = false := by simp [isLowSurrogate]; omega
  rw [assemble?.eq_def]
  split <;> simp_all

theorem assemble?_pieceOf {done : List Char} {more : List Piece} :
    assemble? done (pieceOf char :: more) = assemble? (char :: done) more := by
  rcases escapedChar_cases char with ⟨written, -⟩ | ⟨letter, written, -⟩ | ⟨written, control, -⟩
  · simp only [pieceOf, written, assemble?]
  · simp only [pieceOf, written, assemble?]
  · simp only [pieceOf, written]
    rw [assemble?_unit (Nat.lt_trans control (by decide)), Char.ofNat_toNat]

theorem assemble?_map_pieceOf {done : List Char} (chars : List Char) :
    assemble? done (chars.map pieceOf) = some (chars.reverse ++ done) := by
  induction chars generalizing done with
  | nil => rfl
  | cons char more ih => rw [List.map_cons, assemble?_pieceOf, ih, List.reverse_cons, List.append_assoc]; rfl

/-- A text in quotes is read back, and so is whether it has been escaped. -/
theorem quoted?_text (text : String) :
    quoted? (text.toList.flatMap escapedChar ++ '"' :: rest) = some (.ofString text, rest) := by
  have plain : (text.toList.map pieceOf).reverse.all Piece.isPlain = text.toList.all isPlain := by
    rw [List.all_reverse, List.all_map]
    congr 1
    funext char
    exact isPlain_pieceOf
  simp only [quoted?, pieces?_text, List.append_nil, plain, List.reverse_reverse, assemble?_map_pieceOf, Option.map_some,
    String.ofList_toList, QuotedText.ofString]

end Strings

theorem next?_string (text : String) :
    next? ('"' :: (text.toList.flatMap Json.escapedChar ++ '"' :: rest)) = some (.string (.ofString text), rest) := by
  simp only [next?, quoted?_text, Option.map_some]

theorem next?_digit (digit : Digit) (input : List Char) :
    next? (digit.toChar :: input) =
      (unsigned? false (digit.toChar :: input)).map fun found => (.number found.1, found.2) := by
  match digit with
  | 0 | 1 | 2 | 3 | 4 | 5 | 6 | 7 | 8 | 9 => rfl

theorem next?_render {numeral : Numeral} (spelled : numeral.fraction ≠ some []) (ends : Ends rest) :
    next? (numeral.render.toList ++ rest) = some (.number numeral, rest) := by
  have found := unsigned?_text spelled ends
  rw [toList_render]
  cases sign : numeral.negative with
  | true =>
    rw [sign] at found
    simp only [if_true, List.append_assoc, List.cons_append, List.nil_append, next?, found, Option.map_some]
  | false =>
    obtain ⟨first, more, digits⟩ := List.exists_cons_of_ne_nil (digitsOf_ne_nil numeral.whole)
    rw [sign, toList_repr, digits, List.map_cons, List.cons_append] at found
    rw [toList_repr, digits]
    simp only [Bool.false_eq_true, if_false, List.append_assoc, List.map_cons, List.cons_append, List.nil_append, next?_digit,
      found, Option.map_some]

theorem next?_blank (blank : isBlank char = true) : next? (char :: rest) = none := by
  obtain ((rfl | rfl) | rfl) | rfl : ((char = ' ' ∨ char = '\t') ∨ char = '\n') ∨ char = '\r' := by
    simpa [isBlank] using blank
  all_goals rfl

theorem scanFrom_of_next? {done : List JsonToken} {input after : List Char} {token : JsonToken}
    (found : next? input = some (token, after)) : scanFrom done input = scanFrom (token :: done) after := by
  cases input with
  | nil => cases found
  | cons char rest =>
    have visible : ¬isBlank char = true := fun blank => by simp [next?_blank blank] at found
    rw [scanFrom, if_neg visible]
    split <;> simp_all

/-- Tokens that have been scanned stay in front. -/
theorem scanFrom_eq_map (done : List JsonToken) (input : List Char) :
    scanFrom done input = (scanFrom [] input).map (done.reverse ++ ·) := by
  induction length : input.length using Nat.strongRecOn generalizing done input with
  | ind size ih =>
    cases input with
    | nil => simp [scanFrom]
    | cons char rest =>
      subst length
      by_cases blank : isBlank char = true
      · have skipped (done : List JsonToken) : scanFrom done (char :: rest) = scanFrom done rest := by
          rw [scanFrom, if_pos blank]
        rw [skipped, skipped]
        exact ih rest.length (by simp) done rest rfl
      · cases found : next? (char :: rest) with
        | none =>
          have failed (done : List JsonToken) : scanFrom done (char :: rest) = none := by
            rw [scanFrom, if_neg blank]
            split <;> simp_all
          rw [failed, failed, Option.map_none]
        | some pair =>
          have shorter := length_of_next? found
          rw [scanFrom_of_next? found, scanFrom_of_next? found, ih _ shorter _ pair.2 rfl, ih _ shorter [pair.1] pair.2 rfl,
            Option.map_map]
          congr 1
          funext tokens
          simp

end JsonToken

namespace Json
open JsonToken
variable {stage : Stage} {frames : List Frame} {rest : List Char}

def Stage.after? (stage : Stage) (input : List Char) : Option Stage :=
  (scanFrom [] input).bind fun tokens => tokens.foldlM step? stage

theorem read?_eq (text : String) : read? text = ((Stage.awaitValue []).after? text.toList).bind Stage.result? := by
  rw [Stage.after?, Option.bind_assoc]
  rfl

theorem Stage.after?_of_next? {next : Stage} {input after : List Char} {token : JsonToken}
    (found : next? input = some (token, after)) (taken : stage.step? token = some next) :
    stage.after? input = next.after? after := by
  rw [after?, scanFrom_of_next? found, scanFrom_eq_map, Option.bind_map, after?]
  congr 1
  funext tokens
  show (token :: tokens).foldlM step? stage = _
  rw [List.foldlM_cons, taken]
  rfl

/-- Stages in which a value may start, with the arrays and objects that it would lie in. -/
inductive Stage.Awaits : List Frame → Stage → Prop where
  | value (frames : List Frame) : Awaits frames (.awaitValue frames)
  | element (frames : List Frame) : Awaits (.array [] :: frames) (.awaitElement frames)

/-- Stages in which a key may start, with the members before it and the arrays and objects around them. -/
inductive Stage.AwaitsKey : List (QuotedText × Json) → List Frame → Stage → Prop where
  | first (frames : List Frame) : AwaitsKey [] frames (.awaitFirstKey frames)
  | next (before : List (QuotedText × Json)) (frames : List Frame) : AwaitsKey before frames (.awaitKey before frames)

theorem Stage.Awaits.step? {next : Stage} {token : JsonToken} (awaits : stage.Awaits frames)
    (started : startValue? frames token = some next) : stage.step? token = some next := by
  cases awaits with
  | value => exact started
  | element =>
    cases token with
    | closeBracket => cases started
    | _ => exact started

theorem Stage.AwaitsKey.step? {before : List (QuotedText × Json)} (awaits : stage.AwaitsKey before frames) (key : QuotedText) :
    stage.step? (.string key) = some (.awaitColon before key frames) := by
  cases awaits <;> rfl

/-- A value is read back from its line wherever a value may stand. -/
def ReadsBack (value : Json) : Prop :=
  ∀ ⦃stage frames rest⦄, Stage.Awaits frames stage → Ends rest →
    stage.after? (value.compact.toList ++ rest) = (Stage.complete value frames).after? rest

/-- Values whose texts are spelled as they are written: numerals have digits after their point, and strings are
escaped only where they have to be. -/
inductive Written : Json → Prop where
  | null : Written .null
  | bool (value : Bool) : Written (.bool value)
  | number {numeral : Numeral} (spelled : numeral.fraction ≠ some []) : Written (.number numeral)
  | string (text : String) : Written (.ofString text)
  | array {elements : List Json} (each : ∀ element ∈ elements, Written element) : Written (.array elements)
  | object {members : List (String × Json)} (each : ∀ member ∈ members, Written member.2) : Written (.ofMembers members)

theorem toList_quote (text : String) :
    (quote text).toList = '"' :: (text.toList.flatMap escapedChar ++ ['"']) := by
  simp [quote]

theorem compactElements_eq (elements : List Json) : compactElements elements = elements.map compact := by
  induction elements with
  | nil => rfl
  | cons element more ih => rw [compactElements, ih, List.map_cons]

theorem compactMembers_eq (members : List (String × Json)) :
    compactMembers (members.map fun member => (QuotedText.ofString member.1, member.2)) =
      members.map fun member => quote member.1 ++ ":" ++ member.2.compact := by
  induction members with
  | nil => rfl
  | cons member more ih =>
    simp only [List.map_cons, compactMembers, ih]
    rfl

theorem ends_cons {char : Char} (closes : char = ',' ∨ char = ']' ∨ char = '}') : Ends (char :: rest) := by
  rintro _ ⟨⟩
  exact closes

section Items
variable {α : Type} {items before : List α} {text : α → String} {close : Char}
  -- the stages in which an item may start, the one after an item, and the one after the closing character,
  -- each with the items taken so far, last first
  (Awaiting : List α → Stage → Prop) (taken : α → List α → Stage) (closed : List α → Stage)

/-- Items between commas are taken one after the other, up to the character that closes them. -/
theorem after?_items (closes : close = ']' ∨ close = '}')
    (item : ∀ one ∈ items, ∀ ⦃before stage rest⦄, Awaiting before stage → Ends rest →
      stage.after? ((text one).toList ++ rest) = (taken one before).after? rest)
    (comma : ∀ one before, ∃ next, (taken one before).step? .comma = some next ∧ Awaiting (one :: before) next)
    (closing : ∀ one before, (taken one before).after? (close :: rest) = (closed (one :: before)).after? rest)
    (present : items ≠ []) (awaits : Awaiting before stage) :
    stage.after? ((",".intercalate (items.map text)).toList ++ close :: rest) =
      (closed (items.reverse ++ before)).after? rest := by
  rw [String.toList_intercalate, List.map_map]
  induction items generalizing stage before with
  | nil => exact absurd rfl present
  | cons one more ih =>
    have oneTaken := item one List.mem_cons_self
    cases more with
    | nil =>
      rw [List.map_singleton, List.intercalate_singleton, Function.comp_apply, oneTaken awaits (ends_cons (.inr closes)), closing]
      rfl
    | cons second more =>
      obtain ⟨next, stepped, awaitsNext⟩ := comma one before
      have moreTaken := ih (fun other listed => item other (List.mem_cons_of_mem _ listed)) (List.cons_ne_nil _ _) awaitsNext
      have separated : [','].intercalate ((one :: second :: more).map (String.toList ∘ text)) ++ close :: rest =
          (text one).toList ++ ',' :: ([','].intercalate ((second :: more).map (String.toList ∘ text)) ++ close :: rest) := by
        simp
      show stage.after? ([','].intercalate _ ++ close :: rest) = _
      rw [separated, oneTaken awaits (ends_cons (.inl rfl)), Stage.after?_of_next? rfl stepped, List.reverse_cons,
        List.append_assoc]
      exact moreTaken

end Items

theorem after?_elements {elements : List Json} (present : elements ≠ []) (each : ∀ element ∈ elements, ReadsBack element) :
    (Stage.awaitElement frames).after? ((",".intercalate (compactElements elements)).toList ++ ']' :: rest) =
      (Stage.complete (.array elements) frames).after? rest := by
  rw [compactElements_eq, after?_items (fun before stage => stage.Awaits (.array before :: frames))
    (fun element before => .complete element (.array before :: frames)) (fun taken => .complete (.array taken.reverse) frames)
    (.inl rfl) _ _ _ present (.element frames), List.append_nil, List.reverse_reverse]
  · exact fun element listed before stage rest awaits ends => each element listed awaits ends
  · exact fun element before => ⟨_, rfl, .value _⟩
  · exact fun element before => Stage.after?_of_next? rfl rfl

theorem after?_member {key : String} {value : Json} {before : List (QuotedText × Json)} (valueRead : ReadsBack value)
    (awaits : stage.AwaitsKey before frames) (ends : Ends rest) :
    stage.after? ((quote key ++ ":" ++ value.compact).toList ++ rest) =
      (Stage.complete value (.object before (.ofString key) :: frames)).after? rest := by
  have spelled : (quote key ++ ":" ++ value.compact).toList ++ rest =
      '"' :: (key.toList.flatMap escapedChar ++ '"' :: ':' :: (value.compact.toList ++ rest)) := by
    simp [toList_quote]
  rw [spelled, Stage.after?_of_next? (next?_string key) (awaits.step? _), Stage.after?_of_next? rfl rfl,
    valueRead (.value _) ends]

theorem after?_members {members : List (String × Json)} (present : members ≠ [])
    (each : ∀ member ∈ members, ReadsBack member.2) : (Stage.awaitFirstKey frames).after?
      ((",".intercalate (members.map fun member => quote member.1 ++ ":" ++ member.2.compact)).toList ++ '}' :: rest) =
        (Stage.complete (.ofMembers members) frames).after? rest := by
  let quoted (members : List (String × Json)) : List (QuotedText × Json) :=
    members.map fun member => (.ofString member.1, member.2)
  have start : (Stage.awaitFirstKey frames).AwaitsKey (quoted []) frames := .first frames
  rw [after?_items (fun before stage => stage.AwaitsKey (quoted before) frames)
    (fun member before => .complete member.2 (.object (quoted before) (.ofString member.1) :: frames))
    (fun taken => .complete (.ofMembers taken.reverse) frames) (.inr rfl) _ _ _ present start, List.append_nil,
    List.reverse_reverse]
  · exact fun member listed before stage rest awaits ends => after?_member (each member listed) awaits ends
  · exact fun member before => ⟨_, rfl, .next _ _⟩
  · intro member before
    rw [ofMembers, List.map_reverse]
    exact Stage.after?_of_next? rfl rfl

theorem Written.readsBack {value : Json} (written : value.Written) : ReadsBack value := by
  induction written with
  | null => exact fun _ _ _ awaits _ => Stage.after?_of_next? rfl (awaits.step? rfl)
  | bool value =>
    intro stage frames rest awaits _
    cases value <;> exact Stage.after?_of_next? rfl (awaits.step? rfl)
  | number spelled => exact fun _ _ _ awaits ends => Stage.after?_of_next? (next?_render spelled ends) (awaits.step? rfl)
  | string text =>
    intro stage frames rest awaits _
    have spelled : (Json.ofString text).compact.toList ++ rest = '"' :: (text.toList.flatMap escapedChar ++ '"' :: rest) := by
      rw [← List.singleton_append (l := rest), ← List.append_assoc, ← List.cons_append, ← toList_quote]
      rfl
    rw [spelled]
    exact Stage.after?_of_next? (next?_string text) (awaits.step? rfl)
  | @array elements _ each =>
    intro stage frames rest awaits _
    have spelled : (Json.array elements).compact.toList ++ rest =
        '[' :: ((",".intercalate (compactElements elements)).toList ++ ']' :: rest) := by
      simp [compact]
    rw [spelled, Stage.after?_of_next? rfl (awaits.step? rfl)]
    by_cases nothing : elements = []
    · subst nothing
      exact Stage.after?_of_next? rfl rfl
    · exact after?_elements nothing each
  | @object members _ each =>
    intro stage frames rest awaits _
    have spelled : (Json.ofMembers members).compact.toList ++ rest =
        '{' :: ((",".intercalate (members.map fun member => quote member.1 ++ ":" ++ member.2.compact)).toList ++
          '}' :: rest) := by
      simp [ofMembers, compact, compactMembers_eq]
    rw [spelled, Stage.after?_of_next? rfl (awaits.step? rfl)]
    by_cases nothing : members = []
    · subst nothing
      exact Stage.after?_of_next? rfl rfl
    · exact after?_members nothing each

theorem read?_compact {value : Json} (written : value.Written) : read? value.compact = some value := by
  have finished : (Stage.awaitValue []).after? (value.compact.toList ++ []) = (Stage.complete value []).after? [] :=
    written.readsBack (.value []) (by rintro _ ⟨⟩)
  rw [List.append_nil] at finished
  rw [read?_eq, finished]
  simp [Stage.after?, scanFrom, Stage.result?]

end Json

end DomainFlow
