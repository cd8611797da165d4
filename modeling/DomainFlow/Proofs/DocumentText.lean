import Mathlib.Tactic.SplitIfs
import DomainFlow.Proofs.JsonRecord
import DomainFlow.Proofs.SortedMap

/-!
Documents as texts. A document is read back from its text with each number replaced by what its spelling
denotes, and with everything else as it was. Integers are denoted by their spelling; a real may not be,
because a numeral is read with less care than it is written.
-/
namespace DomainFlow

section Values
open Json

theorem nat64?_toJson (id : NodeId) : nat64? id.toJson = some id := by
  have bounds : (0 : Int) ≤ id.toNat ∧ (id.toNat : Int) < 18446744073709551616 :=
    ⟨Int.natCast_nonneg _, Int.ofNat_lt.2 id.toNat_lt⟩
  rw [nat64?, NodeId.toJson, ofNat, ofInt, integer?, Numeral.integer?_ofInt, Option.bind_some, if_pos bounds, Int.toNat_natCast,
    UInt64.ofNat_toNat]

theorem int64?_ofInt (number : Int64) : (ofInt number.toInt).int64? = some number := by
  have bounds : -9223372036854775808 ≤ number.toInt ∧ number.toInt < 9223372036854775808 :=
    ⟨number.le_toInt, number.toInt_lt⟩
  rw [int64?, ofInt, integer?, Numeral.integer?_ofInt, Option.bind_some, if_pos bounds, Int64.ofInt_toInt]

theorem EdgeKind.ofJson?_toJson (kind : EdgeKind) : ofJson? kind.toJson = some kind := by
  cases kind <;> rfl

theorem FakeArgument.ofJson?_toJson (isNothing : Json → Bool) (argument : FakeArgument) :
    ofJson? isNothing argument.toJson = some argument := by
  cases argument <;> rfl

theorem ObjectType.ofJson?_toJson (isNothing : Json → Bool) (type : ObjectType) : ofJson? isNothing type.toJson = some type := by
  cases type <;> rfl

/-- The key of a number is written with its digits and spells it. -/
theorem keyNumber?_repr (id : UInt64) : keyNumber? (.ofString id.toNat.repr) = some id := by
  have plain : id.toNat.repr.toList.all QuotedText.isPlain = true := by
    have digits : ∀ digit : Digit, QuotedText.isPlain digit.toChar = true := by decide
    rw [toList_repr, List.all_map, List.all_eq_true]
    exact fun digit _ => digits digit
  have digits : id.toNat.repr.toList.mapM Digit.ofChar? = some (digitsOf id.toNat) := by
    rw [toList_repr, List.mapM_map]
    exact mapM_eq_some_self_iff.2 fun digit _ => digit.ofChar?_toChar
  have spelled : ¬((digitsOf id.toNat).isEmpty ||
      ((digitsOf id.toNat).head? == some Digit.zero && decide (1 < (digitsOf id.toNat).length))) = true := by
    have present := digitsOf_ne_nil id.toNat
    have notPadded := digitsOf_not_padded id.toNat
    simp_all
  unfold keyNumber?
  simp only [QuotedText.ofString, plain, Bool.not_true, Bool.false_eq_true, if_false, Option.bind_some, digits, value_digitsOf,
    if_neg spelled, if_pos id.toNat_lt, UInt64.ofNat_toNat]

theorem namedBuiltinsOfJson?_toJson (builtins : SortedMap UInt64 String) :
    namedBuiltinsOfJson? (namedBuiltinsToJson builtins) = some builtins := by
  have each (entry : UInt64 × String) : namedBuiltin? (.ofString entry.1.toNat.repr, .ofString entry.2) = some entry := by
    rw [namedBuiltin?, keyNumber?_repr]
    rfl
  rw [namedBuiltinsToJson, ofMembers, namedBuiltinsOfJson?, List.map_map, List.mapM_map]
  apply Option.map_eq_some_iff.2
  exact ⟨builtins.entries, mapM_eq_some_self_iff.2 fun entry _ => each entry, SortedMap.ofList_entries⟩

theorem written_ofInt (number : Int) : (Json.ofInt number).Written := .number (by rintro ⟨⟩)

theorem written_id (id : NodeId) : id.toJson.Written := written_ofInt id.toNat

theorem isReadable_ofInt {number : Int} (lower : -9223372036854775808 ≤ number) (upper : number < 18446744073709551616) :
    (Json.ofInt number).isReadable = true := by
  simp [Json.ofInt, isReadable, Number.ofNumeral?, Number.ofInt?, lower, upper]

theorem isReadable_id (id : NodeId) : id.toJson.isReadable = true :=
  isReadable_ofInt (by omega) (Int.ofNat_lt.2 id.toNat_lt)

end Values

/-- The number is what its own spelling denotes. -/
def Number.IsSteady (number : Number) : Prop := ofNumeral? number.toNumeral = some number

def Number.isInteger : Number → Bool
  | .integer _ _ _ => true
  | .real _ _ => false

theorem Number.isSteady_of_isInteger {number : Number} (whole : number.isInteger = true) : number.IsSteady := by
  cases number with
  | integer value lower upper => simp [IsSteady, toNumeral, ofNumeral?, ofInt?, lower, upper]
  | real => cases whole

theorem Digit.lastOf_ne_nil {count : Nat} (positive : 0 < count) (number : Nat) : lastOf count number ≠ [] := by
  obtain ⟨count, rfl⟩ := Nat.exists_eq_succ_of_ne_zero (Nat.ne_of_gt positive)
  exact List.append_ne_nil_of_right_ne_nil _ (List.cons_ne_nil _ _)

/-- A spelled number has digits after its point, if it has a point. -/
theorem Number.fraction_toNumeral_ne (number : Number) : number.toNumeral.fraction ≠ some [] := by
  cases number with
  | integer => rintro ⟨⟩
  | real negative magnitude =>
    unfold toNumeral realNumeral
    dsimp only
    split_ifs with isZero inRange whole single
    · rintro ⟨⟩
    · rintro ⟨⟩
    · intro empty
      exact Digit.lastOf_ne_nil (by omega) _ (Option.some.inj empty)
    · rintro ⟨⟩
    · intro empty
      exact Digit.lastOf_ne_nil (by omega) _ (Option.some.inj empty)

namespace Literal

def number? : Literal → Option Number
  | .number value => some value
  | _ => none

/-- The literal with its number replaced by what its spelling denotes. -/
def reread? : Literal → Option Literal
  | .number value => (Number.ofNumeral? value.toNumeral).map .number
  | literal => some literal

theorem ofJson?_toJson (literal : Literal) : ofJson? literal.toJson = literal.reread? := by
  cases literal <;> rfl

theorem reread?_eq_some_self_iff {literal : Literal} :
    literal.reread? = some literal ↔ ∀ number ∈ literal.number?, number.IsSteady := by
  cases literal with
  | number value => simp [reread?, number?, Number.IsSteady]
  | _ => simp [reread?, number?]

theorem written_toJson (literal : Literal) : literal.toJson.Written := by
  cases literal with
  | text value => exact .string value
  | number value => exact .number value.fraction_toNumeral_ne
  | truth value => exact .bool value
  | special marker => exact .object (List.forall_mem_singleton.2 (.string marker))

theorem isReadable_toJson (literal : Literal) : literal.toJson.isReadable = literal.reread?.isSome := by
  cases literal with
  | number value => simp [toJson, reread?, Json.isReadable]
  | _ => rfl

theorem toJson_ne_null (literal : Literal) : literal.toJson ≠ .null := by
  cases literal <;> exact Json.noConfusion

end Literal

/-! The slots of a record stand in the order in which its fields are read. -/

section Records
open Json

def AstRecord.slots (ast : AstRecord) : List (String × Option Json) :=
  [("id", some ast.id.toJson), ("type", some (.ofString ast.type)), ("code", ast.code.map Literal.toJson),
    ("childnum", ast.childNumber.map fun number => .ofInt number.toInt), ("funcid", ast.functionId.map NodeId.toJson),
    ("namespace", ast.location.map Json.ofString), ("doccomment", ast.docComment.map Json.ofString),
    ("labels", listSlot Json.ofString ast.labels), ("flags", listSlot Json.ofString ast.flags),
    ("filename", ast.fileName.map Json.ofString), ("name", ast.name.map Json.ofString),
    ("module_exports", listSlot NodeId.toJson ast.moduleExports)]

def ObjectRecord.slots (object : ObjectRecord) : List (String × Option Json) :=
  [("id", some object.id.toJson), ("type", object.valueType.map Json.ofString), ("code", object.code.map Literal.toJson),
    ("name", object.name.map Json.ofString), ("defined_in", object.definedIn.map NodeId.toJson),
    ("exported", some (.bool object.isExported)), ("tainted", some (.bool object.isTainted)),
    ("trust_domain", object.trustDomain.map Json.ofString), ("fake_arg", object.fakeArgument.map FakeArgument.toJson),
    ("obj_type", object.objectType.map ObjectType.toJson), ("native_func", object.nativeFunction.map Json.ofString)]

def NameRecord.slots (name : NameRecord) : List (String × Option Json) :=
  [("id", some name.id.toJson), ("name", name.name.map Literal.toJson)]

def ScopeRecord.slots (scope : ScopeRecord) : List (String × Option Json) := [("id", some scope.id.toJson)]

def EdgeRecord.slots (edge : EdgeRecord) : List (String × Option Json) :=
  [("from", some edge.source.toJson), ("to", some edge.target.toJson), ("type", some edge.kind.toJson),
    ("module_name", edge.moduleName.map Json.ofString)]

theorem AstRecord.members_eq (ast : AstRecord) : ast.members = present ast.slots := by
  simp only [members, slots, optionalMember_eq, listMember_eq, present_cons_cons, present_cons_some, List.append_assoc]
  rfl

theorem ObjectRecord.members_eq (object : ObjectRecord) : object.members = present object.slots := by
  simp only [members, slots, optionalMember_eq, present_cons_cons, present_cons_some, List.append_assoc]
  rfl

theorem NameRecord.members_eq (name : NameRecord) : name.members = present name.slots := by
  simp only [members, slots, optionalMember_eq, present_cons_cons, present_cons_some]
  rfl

theorem optionalField?_text (field : Option String) : optionalField? text? (field.map Json.ofString) = some field := by
  apply optionalField?_eq_some
  · rintro _ ⟨⟩
  · exact fun _ => rfl

-- both are stated for numbers of nodes, so that no proof has to unfold how such a number is bounded
theorem required?_id (id : NodeId) : required? nat64? (some id.toJson) = some id := by
  rw [required?, Option.bind_some, nat64?_toJson]

theorem defaulted?_id (default id : NodeId) : defaulted? default nat64? (some id.toJson) = some id := by
  rw [defaulted?, nat64?_toJson]

theorem optionalField?_id (field : Option NodeId) : optionalField? nat64? (field.map NodeId.toJson) = some field := by
  apply optionalField?_eq_some
  · rintro _ ⟨⟩
  · exact nat64?_toJson

theorem optionalField?_literal (field : Option Literal) :
    optionalField? Literal.ofJson? (field.map Literal.toJson) = field.mapM Literal.reread? := by
  rw [optionalField?_map Literal.toJson_ne_null]
  simp only [Literal.ofJson?_toJson]

theorem listField?_text (values : List String) : listField? text? (listSlot Json.ofString values) = some values := by
  rw [listField?_listSlot]
  exact mapM_eq_some_self_iff.2 fun _ _ => rfl

theorem listField?_id (values : List NodeId) : listField? nat64? (listSlot NodeId.toJson values) = some values := by
  rw [listField?_listSlot]
  exact mapM_eq_some_self_iff.2 fun id _ => nat64?_toJson id

theorem AstRecord.ofJson?_slots (ast : AstRecord) :
    ofJson? (.ofMembers (present ast.slots)) = (ast.code.mapM Literal.reread?).map fun code => { ast with code } := by
  have found : (Json.ofMembers (present ast.slots)).fields? fieldNames = some (ast.slots.map Prod.snd) :=
    fields?_present (by show fieldNames.Nodup; decide)
  have number : optionalField? int64? (ast.childNumber.map fun number => .ofInt number.toInt) = some ast.childNumber := by
    apply optionalField?_eq_some
    · rintro _ ⟨⟩
    · exact int64?_ofInt
  have typed : defaulted? "" text? (some (.ofString ast.type)) = some ast.type := rfl
  simp only [ofJson?, found]
  simp only [slots, List.map_cons, List.map_nil, defaulted?_id, typed, optionalField?_literal, number,
    optionalField?_id, optionalField?_text, listField?_text, listField?_id, Option.bind_eq_bind, Option.bind_some,
    Option.pure_def]
  exact Option.map_eq_bind.symm

theorem ObjectRecord.ofJson?_slots (object : ObjectRecord) :
    ofJson? (.ofMembers (present object.slots)) = (object.code.mapM Literal.reread?).map fun code => { object with code } := by
  have found : (Json.ofMembers (present object.slots)).fields? fieldNames = some (object.slots.map Prod.snd) :=
    fields?_present (by show fieldNames.Nodup; decide)
  have truth (value : Bool) : defaulted? false truth? (some (.bool value)) = some value := rfl
  have argument : optionalField? (FakeArgument.ofJson? isNullOrEmpty) (object.fakeArgument.map FakeArgument.toJson) =
      some object.fakeArgument := by
    apply optionalField?_eq_some
    · rintro _ ⟨⟩
    · exact FakeArgument.ofJson?_toJson _
  have type : optionalField? (ObjectType.ofJson? isNullOrEmpty) (object.objectType.map ObjectType.toJson) =
      some object.objectType := by
    apply optionalField?_eq_some
    · rintro _ ⟨⟩
    · exact ObjectType.ofJson?_toJson _
  simp only [ofJson?, found]
  simp only [slots, List.map_cons, List.map_nil, defaulted?_id, optionalField?_literal, truth, argument, type,
    optionalField?_id, optionalField?_text, Option.bind_eq_bind, Option.bind_some, Option.pure_def]
  exact Option.map_eq_bind.symm

theorem NameRecord.ofJson?_slots (name : NameRecord) :
    ofJson? (.ofMembers (present name.slots)) = (name.name.mapM Literal.reread?).map fun text => { name with name := text } := by
  have found : (Json.ofMembers (present name.slots)).fields? ["id", "name"] = some (name.slots.map Prod.snd) :=
    fields?_present (by show ["id", "name"].Nodup; decide)
  simp only [ofJson?, found]
  simp only [slots, List.map_cons, List.map_nil, defaulted?_id, optionalField?_literal, Option.bind_eq_bind,
    Option.bind_some, Option.pure_def]
  exact Option.map_eq_bind.symm

theorem ScopeRecord.ofJson?_slots (scope : ScopeRecord) : ofJson? (.ofMembers (present scope.slots)) = some scope := by
  have found : (Json.ofMembers (present scope.slots)).fields? ["id"] = some (scope.slots.map Prod.snd) :=
    fields?_present (by show ["id"].Nodup; decide)
  simp only [ofJson?, found]
  simp only [slots, List.map_cons, List.map_nil, required?_id, Option.bind_eq_bind, Option.bind_some,
    Option.pure_def]

theorem EdgeRecord.toJson_eq (edge : EdgeRecord) : edge.toJson = .ofMembers (present edge.slots) := by
  simp only [toJson, slots, optionalMember_eq, present_cons_some, List.cons_append, List.nil_append]

theorem EdgeRecord.ofJson?_toJson (edge : EdgeRecord) : ofJson? edge.toJson = some edge := by
  have found : (Json.ofMembers (present edge.slots)).fields? ["from", "to", "type", "module_name"] =
      some (edge.slots.map Prod.snd) :=
    fields?_present (by show ["from", "to", "type", "module_name"].Nodup; decide)
  have kind : required? EdgeKind.ofJson? (some edge.kind.toJson) = some edge.kind := by
    rw [required?, Option.bind_some, EdgeKind.ofJson?_toJson]
  simp only [toJson_eq, ofJson?, found]
  simp only [slots, List.map_cons, List.map_nil, required?_id, kind, optionalField?_text,
    Option.bind_eq_bind, Option.bind_some, Option.pure_def]

theorem EdgeRecord.written_toJson (edge : EdgeRecord) : edge.toJson.Written := by
  rw [toJson_eq]
  apply Written.object
  apply forall_present
  simp only [slots, List.forall_mem_cons]
  exact ⟨forall_mem_some (written_id _), forall_mem_some (written_id _), forall_mem_some (.string _),
    forall_mem_map fun _ _ => .string _, List.forall_mem_nil _⟩

end Records

namespace NodeRecord
open Json

def tag : NodeRecord → String
  | .ast _ => "ast"
  | .object _ => "object"
  | .name _ => "name"
  | .scope _ => "scope"

def slots : NodeRecord → List (String × Option Json)
  | .ast record => record.slots
  | .object record => record.slots
  | .name record => record.slots
  | .scope record => record.slots

def literal? : NodeRecord → Option Literal
  | .ast record => record.code
  | .object record => record.code
  | .name record => record.name
  | .scope _ => none

def withLiteral (literal : Option Literal) : NodeRecord → NodeRecord
  | .ast record => .ast { record with code := literal }
  | .object record => .object { record with code := literal }
  | .name record => .name { record with name := literal }
  | .scope record => .scope record

/-- The node with its number replaced by what its spelling denotes. -/
def reread? (node : NodeRecord) : Option NodeRecord :=
  (node.literal?.mapM Literal.reread?).map node.withLiteral

theorem toJson_eq (node : NodeRecord) : node.toJson = .ofMembers (("kind", .ofString node.tag) :: present node.slots) := by
  cases node with
  | ast record => rw [toJson, record.members_eq]; rfl
  | object record => rw [toJson, record.members_eq]; rfl
  | name record => rw [toJson, record.members_eq]; rfl
  | scope record => rfl

theorem kind_not_mem_slots (node : NodeRecord) : "kind" ∉ node.slots.map Prod.fst := by
  cases node with
  | ast => show "kind" ∉ AstRecord.fieldNames; decide
  | object => show "kind" ∉ ObjectRecord.fieldNames; decide
  | name => show "kind" ∉ ["id", "name"]; decide
  | scope => show "kind" ∉ ["id"]; decide

/-- What holds of truth values, numbers, texts and lists of them holds of every member of a node, if it holds of the
node's literal. -/
theorem forall_members (P : Json → Prop) (node : NodeRecord) (truth : ∀ value, P (.bool value)) (id : ∀ id : NodeId, P id.toJson)
    (number : ∀ number : Int64, P (.ofInt number.toInt)) (text : ∀ text, P (.ofString text))
    (texts : ∀ texts : List String, P (.array (texts.map Json.ofString)))
    (ids : ∀ ids : List NodeId, P (.array (ids.map NodeId.toJson)))
    (literal : ∀ literal ∈ node.literal?, P literal.toJson) :
    ∀ member ∈ ("kind", Json.ofString node.tag) :: present node.slots, P member.2 := by
  have slots : ∀ slot ∈ node.slots, ∀ value ∈ slot.2, P value := by
    cases node with
    | ast record =>
      simp only [slots, AstRecord.slots, List.forall_mem_cons]
      exact ⟨forall_mem_some (id _), forall_mem_some (text _), forall_mem_map literal, forall_mem_map fun _ _ => number _,
        forall_mem_map fun _ _ => id _, forall_mem_map fun _ _ => text _, forall_mem_map fun _ _ => text _,
        forall_mem_listSlot (texts _), forall_mem_listSlot (texts _), forall_mem_map fun _ _ => text _,
        forall_mem_map fun _ _ => text _, forall_mem_listSlot (ids _), List.forall_mem_nil _⟩
    | object record =>
      simp only [slots, ObjectRecord.slots, List.forall_mem_cons]
      exact ⟨forall_mem_some (id _), forall_mem_map fun _ _ => text _, forall_mem_map literal, forall_mem_map fun _ _ => text _,
        forall_mem_map fun _ _ => id _, forall_mem_some (truth _), forall_mem_some (truth _),
        forall_mem_map fun _ _ => text _, forall_mem_map fun _ _ => text _, forall_mem_map fun _ _ => text _,
        forall_mem_map fun _ _ => text _, List.forall_mem_nil _⟩
    | name record =>
      simp only [slots, NameRecord.slots, List.forall_mem_cons]
      exact ⟨forall_mem_some (id _), forall_mem_map literal, List.forall_mem_nil _⟩
    | scope record =>
      simp only [slots, ScopeRecord.slots, List.forall_mem_cons]
      exact ⟨forall_mem_some (id _), List.forall_mem_nil _⟩
  intro member listed
  rcases List.mem_cons.1 listed with rfl | written
  · exact text node.tag
  · exact forall_present slots member written

theorem written_toJson (node : NodeRecord) : node.toJson.Written := by
  rw [toJson_eq]
  apply Written.object
  apply node.forall_members Written
  case truth => exact .bool
  case id => exact written_id
  case number => exact fun number => written_ofInt number.toInt
  case text => exact .string
  case texts => exact fun texts => .array (List.forall_mem_map.2 fun text _ => .string text)
  case ids => exact fun ids => .array (List.forall_mem_map.2 fun id _ => written_id id)
  case literal => exact fun literal _ => literal.written_toJson

theorem nesting_toJson_le (node : NodeRecord) : node.toJson.nesting ≤ 2 := by
  rw [toJson_eq]
  apply nesting_ofMembers_le
  apply node.forall_members (fun value => value.nesting ≤ 1)
  case truth => exact fun _ => Nat.zero_le 1
  case id => exact fun _ => Nat.zero_le 1
  case number => exact fun _ => Nat.zero_le 1
  case text => exact fun _ => Nat.zero_le 1
  case texts =>
    exact fun texts => Nat.succ_le_succ (nestingOfElements_le (List.forall_mem_map.2 fun _ _ => Nat.le_refl 0))
  case ids =>
    exact fun ids => Nat.succ_le_succ (nestingOfElements_le (List.forall_mem_map.2 fun _ _ => Nat.le_refl 0))
  case literal =>
    intro literal _
    cases literal with
    | special => exact Nat.le_refl 1
    | _ => exact Nat.zero_le 1

theorem isReadable_toJson {node : NodeRecord} (readable : ∀ literal ∈ node.literal?, literal.toJson.isReadable = true) :
    node.toJson.isReadable = true := by
  rw [toJson_eq]
  apply isReadable_ofMembers
  apply node.forall_members (fun value => value.isReadable = true)
  case truth => exact fun _ => rfl
  case id => exact isReadable_id
  case number =>
    intro number
    have lower := number.le_toInt
    have upper := number.toInt_lt
    exact isReadable_ofInt (by omega) (by omega)
  case text => exact fun _ => rfl
  case texts => exact fun texts => areReadable_of_forall (List.forall_mem_map.2 fun _ _ => rfl)
  case ids => exact fun ids => areReadable_of_forall (List.forall_mem_map.2 fun id _ => isReadable_id id)
  case literal => exact readable

theorem canBeHeld_toJson {node : NodeRecord} (readable : ∀ literal ∈ node.literal?, literal.toJson.isReadable = true) :
    node.toJson.canBeHeld 2 = true := by
  have nesting := node.nesting_toJson_le
  have shallow : 2 + node.toJson.nesting ≤ nestingLimit := by
    show 2 + node.toJson.nesting ≤ 127
    omega
  rw [canBeHeld, decide_eq_true shallow, isReadable_toJson readable]
  rfl

/-- A node is read back from what is written for it, up to what the spelling of its number denotes. -/
theorem ofJson?_toJson (node : NodeRecord) : ofJson? node.toJson = node.reread? := by
  by_cases held : node.toJson.canBeHeld 2 = true
  · have tagged : node.toJson.tagged? "kind" = some (node.tag, .ofMembers (present node.slots)) := by
      rw [toJson_eq, tagged?_present node.kind_not_mem_slots]
    rw [ofJson?, held, tagged]
    cases node with
    | ast record =>
      simp only [tag, slots, record.ofJson?_slots, Option.map_map]
      rfl
    | object record =>
      simp only [tag, slots, record.ofJson?_slots, Option.map_map]
      rfl
    | name record =>
      simp only [tag, slots, record.ofJson?_slots, Option.map_map]
      rfl
    | scope record =>
      simp only [tag, slots, record.ofJson?_slots, Option.map_some]
      rfl
  · -- only a literal whose number cannot be read back keeps a node from being held
    have failed : node.literal?.mapM Literal.reread? = none := by
      cases found : node.literal? with
      | none => exact absurd (canBeHeld_toJson (by simp [found])) held
      | some literal =>
        have unreadable : ¬literal.reread?.isSome = true := fun readable =>
          held (canBeHeld_toJson (by simpa [found, Literal.isReadable_toJson] using readable))
        simpa using unreadable
    rw [ofJson?, Bool.eq_false_iff.2 held, reread?, failed]
    rfl

theorem literal?_withLiteral {node : NodeRecord} {literal : Option Literal}
    (found : node.literal?.mapM Literal.reread? = some literal) : (node.withLiteral literal).literal? = literal := by
  cases node with
  | scope => exact Option.some.inj found
  | _ => rfl

theorem withLiteral_literal? (node : NodeRecord) : node.withLiteral node.literal? = node := by
  cases node <;> rfl

theorem reread?_eq_some_self_iff {node : NodeRecord} :
    node.reread? = some node ↔ ∀ number ∈ node.literal?.bind Literal.number?, number.IsSteady := by
  have kept : node.reread? = some node ↔ node.literal?.mapM Literal.reread? = some node.literal? := by
    constructor
    · intro same
      obtain ⟨literal, found, again⟩ := Option.map_eq_some_iff.1 same
      rw [found, ← literal?_withLiteral found, again]
    · intro found
      rw [reread?, found, Option.map_some, withLiteral_literal?]
  rw [kept]
  cases node.literal? with
  | none => simp
  | some literal => simpa using Literal.reread?_eq_some_self_iff

end NodeRecord

namespace Document
open Json

def numbers (document : Document) : List Number :=
  document.nodes.filterMap fun node => node.literal?.bind Literal.number?

/-- The document with each number replaced by what its spelling denotes. -/
def reread? (document : Document) : Option Document :=
  (document.nodes.mapM NodeRecord.reread?).map fun nodes => { document with nodes }

def rewrite? (text : String) : Option String := (read? text).map Document.text

def slots (document : Document) : List (String × Option Json) :=
  [("package_root", document.packageRoot.map Json.ofString), ("last_builtin_id", document.lastBuiltinId.map NodeId.toJson),
    ("named_builtins", if document.namedBuiltins.isEmpty then none else some (namedBuiltinsToJson document.namedBuiltins)),
    ("nodes", some (.array (document.nodes.map NodeRecord.toJson))),
    ("edges", some (.array (document.edges.map EdgeRecord.toJson)))]

theorem toJson_eq (document : Document) : document.toJson = .ofMembers (present document.slots) := by
  have builtins : (if document.namedBuiltins.isEmpty then [] else
      [("named_builtins", namedBuiltinsToJson document.namedBuiltins)]) = present [("named_builtins",
        if document.namedBuiltins.isEmpty then none else some (namedBuiltinsToJson document.namedBuiltins))] := by
    split <;> rfl
  simp only [toJson, slots, builtins, optionalMember_eq, present_cons_cons, present_cons_some, List.append_assoc]
  rfl

theorem ofJson?_toJson (document : Document) : ofJson? document.toJson = document.reread? := by
  have found : (Json.ofMembers (present document.slots)).fields?
      ["package_root", "last_builtin_id", "named_builtins", "nodes", "edges"] = some (document.slots.map Prod.snd) :=
    fields?_present (by show ["package_root", "last_builtin_id", "named_builtins", "nodes", "edges"].Nodup; decide)
  have builtins : defaulted? .empty namedBuiltinsOfJson?
      (if document.namedBuiltins.isEmpty then none else some (namedBuiltinsToJson document.namedBuiltins)) =
        some document.namedBuiltins := by
    split
    next nothing => rw [SortedMap.eq_empty_of_isEmpty nothing, defaulted?]
    next => exact namedBuiltinsOfJson?_toJson _
  have nodes : listField? NodeRecord.ofJson? (some (.array (document.nodes.map NodeRecord.toJson))) =
      document.nodes.mapM NodeRecord.reread? := by
    rw [listField?, defaulted?, list?, List.mapM_map]
    exact congrArg (document.nodes.mapM ·) (funext NodeRecord.ofJson?_toJson)
  have edges : listField? EdgeRecord.ofJson? (some (.array (document.edges.map EdgeRecord.toJson))) = some document.edges := by
    rw [listField?, defaulted?, list?, List.mapM_map]
    exact mapM_eq_some_self_iff.2 fun edge _ => edge.ofJson?_toJson
  simp only [toJson_eq, ofJson?, found]
  simp only [slots, List.map_cons, List.map_nil, optionalField?_text, optionalField?_id, builtins, nodes, edges,
    Option.bind_eq_bind, Option.bind_some, Option.pure_def]
  exact Option.map_eq_bind.symm

theorem written_toJson (document : Document) : document.toJson.Written := by
  have builtins : ∀ value ∈ (if document.namedBuiltins.isEmpty then none else
      some (namedBuiltinsToJson document.namedBuiltins)), value.Written := by
    split
    · rintro _ ⟨⟩
    · exact forall_mem_some (.object (List.forall_mem_map.2 fun entry _ => .string entry.2))
  rw [toJson_eq]
  apply Written.object
  apply forall_present (P := Written)
  simp only [slots, List.forall_mem_cons]
  exact ⟨forall_mem_map fun _ _ => .string _, forall_mem_map fun id _ => written_id id, builtins,
    forall_mem_some (.array (List.forall_mem_map.2 fun node _ => node.written_toJson)),
    forall_mem_some (.array (List.forall_mem_map.2 fun edge _ => edge.written_toJson)), List.forall_mem_nil _⟩

/-- A document is read back from its text, up to what the spellings of its numbers denote. -/
theorem read?_text (document : Document) : read? document.text = document.reread? := by
  rw [read?, text, read?_compact document.written_toJson]
  exact document.ofJson?_toJson

theorem reread?_eq_some_self_iff {document : Document} :
    document.reread? = some document ↔ ∀ number ∈ document.numbers, number.IsSteady := by
  have kept : document.reread? = some document ↔ document.nodes.mapM NodeRecord.reread? = some document.nodes := by
    constructor
    · intro same
      obtain ⟨nodes, found, again⟩ := Option.map_eq_some_iff.1 same
      rw [found, ← again]
    · intro found
      rw [reread?, found, Option.map_some]
  rw [kept, mapM_eq_some_self_iff]
  simp only [NodeRecord.reread?_eq_some_self_iff, numbers, List.mem_filterMap]
  constructor
  · rintro each number ⟨node, listed, found⟩
    exact each node listed number found
  · exact fun each node listed number found => each number ⟨node, listed, found⟩

/-- A document whose numbers are integers is read back from its text, and in general it is read back exactly if each of
its numbers is what its own spelling denotes. The text that is then written for an accepted text is written for itself. -/
theorem text_reads_back (document : Document) :
    ((∀ number ∈ document.numbers, number.isInteger = true) → read? document.text = some document) ∧
    (read? document.text = some document ↔ ∀ number ∈ document.numbers, number.IsSteady) ∧
    ∀ accepted, read? accepted = some document → (∀ number ∈ document.numbers, number.IsSteady) →
      rewrite? accepted = some document.text ∧ rewrite? document.text = some document.text := by
  have exact_iff : read? document.text = some document ↔ ∀ number ∈ document.numbers, number.IsSteady := by
    rw [read?_text, reread?_eq_some_self_iff]
  refine ⟨fun whole => exact_iff.2 fun number listed => Number.isSteady_of_isInteger (whole number listed), exact_iff, ?_⟩
  intro accepted found steady
  constructor
  · rw [rewrite?, found, Option.map_some]
  · rw [rewrite?, exact_iff.2 steady, Option.map_some]

/-- A document that uses every kind of node and of literal, and the greatest number of a node. -/
def mixed : Document where
  packageRoot := some "/srv/app"
  lastBuiltinId := some 18446744073709551615
  namedBuiltins := .ofList [(18446744073709551615, "eval"), (10, "Object")]
  nodes := [
    .ast { id := 1, type := "AST_CALL", code := some (.number (.integer (-9223372036854775808) (by decide) (by decide))),
           childNumber := some (-1), labels := ["Artificial"], moduleExports := [3, 18446744073709551615] },
    .object { id := 18446744073709551615, code := some (.number (.integer 18446744073709551615 (by decide) (by decide))),
              isTainted := true, fakeArgument := some .callback, objectType := some .apiRetVal },
    .object { id := 3, code := some (.truth false) },
    .object { id := 4, code := some (.special "*") },
    .name { id := 5, name := some (.text "a \"quoted\"\n\x01 name") },
    .scope { id := 6 }]
  edges := [
    { source := 3, target := 1, kind := .objToAst },
    { source := 6, target := 6, kind := .other, moduleName := some "fs" }]

/-- The document whose only node names a property by a real. -/
def holding (magnitude : Magnitude) : Document where
  nodes := [.name { id := 1, name := some (.number (.real false magnitude)) }]

theorem text_reads_back_mixed : (∀ number ∈ mixed.numbers, number.isInteger = true) ∧ read? mixed.text = some mixed ∧
    rewrite? mixed.text = some mixed.text := by
  have whole : ∀ number ∈ mixed.numbers, number.isInteger = true := by decide
  have back := (text_reads_back mixed).1 whole
  have steady := (text_reads_back mixed).2.1.1 back
  exact ⟨whole, back, ((text_reads_back mixed).2.2 mixed.text back steady).2⟩

theorem reread?_holding {magnitude again : Magnitude}
    (found : Number.ofNumeral? (Number.real false magnitude).toNumeral = some (.real false again)) :
    (holding magnitude).reread? = some (holding again) := by
  have node : NodeRecord.reread? (.name { id := 1, name := some (.number (.real false magnitude)) }) =
      some (.name { id := 1, name := some (.number (.real false again)) }) := by
    simp [NodeRecord.reread?, NodeRecord.literal?, NodeRecord.withLiteral, Literal.reread?, found]
  simp [reread?, holding, node]

/-- A real whose text changes each time it is read and written. -/
theorem tiny_real_alternates :
    rewrite? "\x7b\"nodes\":[\x7b\"kind\":\"name\",\"id\":1,\"name\":1e-24\x7d],\"edges\":[]\x7d" =
      some "\x7b\"nodes\":[\x7b\"kind\":\"name\",\"id\":1,\"name\":1.0000000000000001e-24\x7d],\"edges\":[]\x7d" ∧
    rewrite? "\x7b\"nodes\":[\x7b\"kind\":\"name\",\"id\":1,\"name\":1.0000000000000001e-24\x7d],\"edges\":[]\x7d" =
      some "\x7b\"nodes\":[\x7b\"kind\":\"name\",\"id\":1,\"name\":1e-24\x7d],\"edges\":[]\x7d" := by
  let lower : Magnitude := ⟨5444517870735015, -132⟩
  let upper : Magnitude := ⟨5444517870735016, -132⟩
  have short : (holding lower).text =
      "\x7b\"nodes\":[\x7b\"kind\":\"name\",\"id\":1,\"name\":1e-24\x7d],\"edges\":[]\x7d" := by decide +kernel
  have long : (holding upper).text =
      "\x7b\"nodes\":[\x7b\"kind\":\"name\",\"id\":1,\"name\":1.0000000000000001e-24\x7d],\"edges\":[]\x7d" := by
    decide +kernel
  have raised : Number.ofNumeral? (Number.real false lower).toNumeral = some (.real false upper) := by decide +kernel
  have lowered : Number.ofNumeral? (Number.real false upper).toNumeral = some (.real false lower) := by decide +kernel
  rw [← short, ← long, rewrite?, rewrite?, read?_text, read?_text, reread?_holding raised, reread?_holding lowered]
  exact ⟨rfl, rfl⟩

end Document

end DomainFlow
