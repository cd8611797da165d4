import DomainFlow.Graph.DocumentJson
import DomainFlow.Proofs.JsonText

/-!
Records as JSON objects. A record is a list of slots, each a name with a value or without one. Only the
slots with values are written, and the names find exactly these again. What a field decodes to follows
from what its value decodes to.
-/
namespace DomainFlow

section Traversal
variable {α β : Type} {items : List α} {visit : α → Option β}

theorem mapM_eq_some_map {image : α → β} (each : ∀ item ∈ items, visit item = some (image item)) :
    items.mapM visit = some (items.map image) := by
  induction items with
  | nil => rfl
  | cons item more ih =>
    have rest := ih fun other listed => each other (List.mem_cons_of_mem _ listed)
    rw [List.mapM_cons, each item List.mem_cons_self, rest]
    rfl

theorem mapM_eq_some_self_iff {visit : α → Option α} :
    items.mapM visit = some items ↔ ∀ item ∈ items, visit item = some item := by
  constructor
  · intro kept
    induction items with
    | nil => simp
    | cons item more ih =>
      rw [List.mapM_cons] at kept
      cases first : visit item <;> cases rest : more.mapM visit <;> simp_all
  · intro each
    simpa using mapM_eq_some_map each

end Traversal

namespace Json
variable {α : Type} {encode : α → Json} {content? : Json → Option α} {slots : List (String × Option Json)}

section Slots

/-- The members that are written for some slots. -/
def present (slots : List (String × Option Json)) : List (String × Json) :=
  slots.filterMap fun slot => slot.2.map fun value => (slot.1, value)

theorem present_cons_none (name : String) : present ((name, none) :: slots) = present slots := rfl

theorem present_cons_some (name : String) (value : Json) :
    present ((name, some value) :: slots) = (name, value) :: present slots := rfl

theorem present_cons_cons (first second : String × Option Json) :
    present (first :: second :: slots) = present [first] ++ present (second :: slots) :=
  List.filterMap_append (l := [first])

theorem mem_names_of_mem_present {member : String × Json} (written : member ∈ present slots) :
    member.1 ∈ slots.map Prod.fst := by
  obtain ⟨slot, listed, found⟩ := List.mem_filterMap.1 written
  obtain ⟨value, -, rfl⟩ := Option.map_eq_some_iff.1 found
  exact List.mem_map_of_mem listed

theorem keyed?_ofMembers (members : List (String × Json)) :
    keyed? (members.map fun member => (.ofString member.1, member.2)) = some members := by
  rw [keyed?, List.mapM_map]
  exact mapM_eq_some_self_iff.2 fun _ _ => rfl

theorem filter_present_of_not_mem {name : String} (absent : name ∉ slots.map Prod.fst) :
    (present slots).filter (fun member => member.1 == name) = [] := by
  rw [List.filter_eq_nil_iff]
  intro member written named
  exact absent (beq_iff_eq.1 named ▸ mem_names_of_mem_present written)

theorem member?_present (distinct : (slots.map Prod.fst).Nodup) {slot : String × Option Json} (listed : slot ∈ slots) :
    member? slot.1 (present slots) = some slot.2 := by
  induction slots with
  | nil => cases listed
  | cons first more ih =>
    obtain ⟨absent, distinctMore⟩ := List.nodup_cons.1 distinct
    obtain ⟨name, value⟩ := first
    rcases List.mem_cons.1 listed with rfl | later
    · have others := filter_present_of_not_mem absent
      cases value with
      | none => rw [present_cons_none, member?, others]
      | some value => rw [present_cons_some, member?, List.filter_cons, if_pos (beq_self_eq_true _), others]
    · have different : ¬(name == slot.1) = true := fun same => by
        have listedName : slot.1 ∈ more.map Prod.fst := List.mem_map_of_mem later
        exact absent (beq_iff_eq.1 same ▸ listedName)
      rw [← ih distinctMore later]
      cases value with
      | none => rfl
      | some value => rw [present_cons_some, member?, List.filter_cons, if_neg different, member?]

/-- The slots of a record are found again by their names. -/
theorem fields?_present (distinct : (slots.map Prod.fst).Nodup) :
    (Json.ofMembers (present slots)).fields? (slots.map Prod.fst) = some (slots.map Prod.snd) := by
  rw [ofMembers, fields?, keyed?_ofMembers, Option.bind_some, List.mapM_map]
  exact mapM_eq_some_map fun slot listed => member?_present distinct listed

theorem forall_present {P : Json → Prop} (each : ∀ slot ∈ slots, ∀ value ∈ slot.2, P value) :
    ∀ member ∈ present slots, P member.2 := by
  intro member written
  obtain ⟨slot, listed, found⟩ := List.mem_filterMap.1 written
  obtain ⟨value, filled, rfl⟩ := Option.map_eq_some_iff.1 found
  exact each slot listed value filled

/-- A record that names its kind first is its kind and the record without it. -/
theorem tagged?_present {tag kind : String} (untagged : tag ∉ slots.map Prod.fst) :
    (Json.ofMembers ((tag, .ofString kind) :: present slots)).tagged? tag = some (kind, .ofMembers (present slots)) := by
  have found : member? tag ((tag, .ofString kind) :: present slots) = some (some (.ofString kind)) := by
    rw [member?, List.filter_cons, if_pos (beq_self_eq_true _), filter_present_of_not_mem untagged]
  have others :
      ((tag, Json.ofString kind) :: present slots).filter (fun member => some member.1 != some tag) = present slots := by
    rw [List.filter_cons, if_neg (by simp), List.filter_eq_self]
    intro member written
    have different : member.1 ≠ tag := fun same => untagged (same ▸ mem_names_of_mem_present written)
    simpa using different
  rw [ofMembers, tagged?, keyed?_ofMembers, List.filter_map]
  simp only [Option.bind_eq_bind, Option.bind_some, found]
  exact congrArg (fun members => some (kind, Json.ofMembers members)) others

end Slots

section Fields

/-- The slot of a list that is left out when it is empty. -/
def listSlot (encode : α → Json) : List α → Option Json
  | [] => none
  | values => some (.array (values.map encode))

theorem optionalMember_eq (name : String) (encode : α → Json) (field : Option α) :
    optionalMember name encode field = present [(name, field.map encode)] := by
  cases field <;> rfl

theorem listMember_eq (name : String) (encode : α → Json) (values : List α) :
    listMember name encode values = present [(name, listSlot encode values)] := by
  cases values <;> rfl

theorem optionalField?_map (notNull : ∀ value, encode value ≠ .null) (field : Option α) :
    optionalField? content? (field.map encode) = field.mapM fun value => content? (encode value) := by
  cases field with
  | none => rfl
  | some value =>
    rw [Option.map_some, optionalField?, defaulted?, nullable?.eq_2 _ _ (notNull value)]
    simp

theorem optionalField?_eq_some (notNull : ∀ value, encode value ≠ .null) (decoded : ∀ value, content? (encode value) = some value)
    (field : Option α) : optionalField? content? (field.map encode) = some field := by
  rw [optionalField?_map notNull]
  cases field with
  | none => rfl
  | some value => simp [decoded]

theorem listField?_listSlot (values : List α) :
    listField? content? (listSlot encode values) = values.mapM fun value => content? (encode value) := by
  cases values with
  | nil => rfl
  | cons value more => exact List.mapM_map

section Contents
variable {P : Json → Prop}

theorem forall_mem_some {value : Json} (holds : P value) : ∀ content ∈ some value, P content :=
  fun _ same => Option.some.inj same ▸ holds

theorem forall_mem_map {field : Option α} (each : ∀ value ∈ field, P (encode value)) :
    ∀ content ∈ field.map encode, P content := by
  intro content found
  obtain ⟨value, filled, rfl⟩ := Option.map_eq_some_iff.1 found
  exact each value filled

theorem forall_mem_listSlot {values : List α} (all : P (.array (values.map encode))) :
    ∀ content ∈ listSlot encode values, P content := by
  intro content found
  cases values with
  | nil => cases found
  | cons => exact Option.some.inj found ▸ all

end Contents

end Fields

section Holding

theorem nestingOfElements_le {bound : Nat} {elements : List Json} (each : ∀ element ∈ elements, element.nesting ≤ bound) :
    nestingOfElements elements ≤ bound := by
  induction elements with
  | nil => exact Nat.zero_le bound
  | cons element more ih =>
    rw [nestingOfElements]
    exact Nat.max_le.2 ⟨each element List.mem_cons_self, ih fun other listed => each other (List.mem_cons_of_mem _ listed)⟩

theorem areReadable_of_forall {elements : List Json} (each : ∀ element ∈ elements, element.isReadable = true) :
    areReadable elements = true := by
  induction elements with
  | nil => rfl
  | cons element more ih =>
    rw [areReadable, each element List.mem_cons_self, ih fun other listed => each other (List.mem_cons_of_mem _ listed)]
    rfl

theorem nesting_ofMembers_le {bound : Nat} {members : List (String × Json)}
    (each : ∀ member ∈ members, member.2.nesting ≤ bound) : (Json.ofMembers members).nesting ≤ bound + 1 := by
  rw [ofMembers, nesting]
  apply Nat.succ_le_succ
  induction members with
  | nil => exact Nat.zero_le bound
  | cons member more ih =>
    rw [List.map_cons, nestingOfMembers]
    exact Nat.max_le.2 ⟨each member List.mem_cons_self, ih fun other listed => each other (List.mem_cons_of_mem _ listed)⟩

theorem isReadable_ofMembers {members : List (String × Json)} (each : ∀ member ∈ members, member.2.isReadable = true) :
    (Json.ofMembers members).isReadable = true := by
  rw [ofMembers, isReadable]
  induction members with
  | nil => rfl
  | cons member more ih =>
    rw [List.map_cons, areReadableMembers, each member List.mem_cons_self,
      ih fun other listed => each other (List.mem_cons_of_mem _ listed)]
    rfl

end Holding

end Json

end DomainFlow
