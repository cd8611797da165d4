import Mathlib.Data.String.Basic
import DomainFlow.Proofs.DocumentText
import DomainFlow.Proofs.RelationMap
import DomainFlow.Relation.Json

/-!
Relation maps as texts. What a text lists is kept apart from what it is read as: a listing has relations and
witnesses in any order and any number of times, and the map of a listing forgets all that. So each map has one
text, and two texts are read as the same map exactly if they list the same.
-/
namespace DomainFlow

/-- The version, the relations and the witnesses that a text lists, as they follow each other there. -/
structure RelationListing where
  schemaVersion : UInt32
  entries : List (Relation × List Witness)
deriving DecidableEq

section Order

theorem compare_list_eq_lt_iff {first second : List NodeId} : compare first second = .lt ↔ first < second := by
  induction first generalizing second with
  | nil => cases second <;> simp
  | cons head rest ih =>
    cases second with
    | nil => simp
    | cons other more =>
      have step : compare (head :: rest) (other :: more) = (compare head other).then (compare rest more) := by
        simp [List.compare_eq_compareLex]
      rw [step, Ordering.then_eq_lt, ih, List.cons_lt_cons_iff, Std.compare_eq_lt, Std.LawfulEqCmp.compare_eq_iff_eq]

/-- Relations are ordered by their sources, and then by their targets. -/
def Relation.Precedes (first second : Relation) : Prop :=
  first.source < second.source ∨ first.source = second.source ∧ first.target < second.target

/-- Witnesses are ordered by their ways, and then by their properties. -/
def Witness.Precedes (first second : Witness) : Prop :=
  first.path < second.path ∨ first.path = second.path ∧ first.propertyPath < second.propertyPath

theorem Relation.precedes_of_before {first second : Relation} (before : Before first second) : first.Precedes second := by
  have order : (compare first.source second.source).then (compare first.target second.target) = .lt := before
  rw [Ordering.then_eq_lt, compare_lt_iff_lt, compare_lt_iff_lt, Std.LawfulEqCmp.compare_eq_iff_eq] at order
  exact order

theorem Witness.precedes_of_before {first second : Witness} (before : Before first second) : first.Precedes second := by
  have order : (compare first.path second.path).then (compare first.propertyPath second.propertyPath) = .lt := before
  rw [Ordering.then_eq_lt, compare_list_eq_lt_iff, compare_list_eq_lt_iff, Std.LawfulEqCmp.compare_eq_iff_eq] at order
  exact order

end Order

section Fields
open Json

def versionToJson (version : UInt32) : Json := .ofNat version.toNat

theorem nat32?_versionToJson (version : UInt32) : nat32? (versionToJson version) = some version := by
  have bounds : (0 : Int) ≤ version.toNat ∧ (version.toNat : Int) < 4294967296 :=
    ⟨Int.natCast_nonneg _, Int.ofNat_lt.2 version.toNat_lt⟩
  rw [nat32?, versionToJson, ofNat, ofInt, integer?, Numeral.integer?_ofInt, Option.bind_some, if_pos bounds,
    Int.toNat_natCast, UInt32.ofNat_toNat]

theorem required?_version (version : UInt32) : required? nat32? (some (versionToJson version)) = some version := by
  rw [required?, Option.bind_some, nat32?_versionToJson]

theorem written_version (version : UInt32) : (versionToJson version).Written := written_ofInt version.toNat

theorem required?_text (text : String) : required? text? (some (.ofString text)) = some text := rfl

theorem list?_map {α : Type} {encode : α → Json} {content? : Json → Option α} (items : List α)
    (decoded : ∀ item, content? (encode item) = some item) : list? content? (.array (items.map encode)) = some items := by
  rw [list?, List.mapM_map]
  exact mapM_eq_some_self_iff.2 fun item _ => decoded item

theorem required?_ids (ids : List NodeId) :
    required? (list? nat64?) (some (.array (ids.map NodeId.toJson))) = some ids := by
  rw [required?, Option.bind_some, list?_map ids nat64?_toJson]

theorem written_map {α : Type} {encode : α → Json} (items : List α) (written : ∀ item, (encode item).Written) :
    (Json.array (items.map encode)).Written :=
  .array (List.forall_mem_map.2 fun item _ => written item)

end Fields

namespace Witness
open Json

def slots (witness : Witness) : List (String × Option Json) :=
  [("path", some (.array (witness.path.map NodeId.toJson))),
    ("prop_path", some (.array (witness.propertyPath.map NodeId.toJson)))]

theorem toJson_eq (witness : Witness) : witness.toJson = .ofMembers (present witness.slots) := rfl

theorem ofJson?_toJson (witness : Witness) : ofJson? witness.toJson = some witness := by
  have found : (Json.ofMembers (present witness.slots)).fields? ["path", "prop_path"] = some (witness.slots.map Prod.snd) :=
    fields?_present (by show ["path", "prop_path"].Nodup; decide)
  simp only [toJson_eq, ofJson?, found]
  simp only [slots, List.map_cons, List.map_nil, required?_ids, Option.bind_eq_bind, Option.bind_some, Option.pure_def]

theorem written_toJson (witness : Witness) : witness.toJson.Written := by
  rw [toJson_eq]
  apply Written.object
  apply forall_present (P := Written)
  simp only [slots, List.forall_mem_cons]
  exact ⟨forall_mem_some (written_map _ written_id), forall_mem_some (written_map _ written_id), List.forall_mem_nil _⟩

end Witness

/-- A map is determined by its version, its relations, and the witnesses of each of them. -/
theorem RelationMap.eq_of_same {first second : RelationMap} (sameSchema : first.schemaVersion = second.schemaVersion)
    (sameRelations : ∀ relation, relation ∈ first.relationSet ↔ relation ∈ second.relationSet)
    (sameWitnesses : ∀ relation witness, witness ∈ first.witnessesOf relation ↔ witness ∈ second.witnessesOf relation) :
    first = second := by
  have same : first.relations = second.relations := by
    apply SortedMap.ext_get?
    intro relation
    have present : (first.get? relation).isSome ↔ (second.get? relation).isSome := by
      rw [← mem_relationSet, sameRelations, mem_relationSet]
    have shown : first.witnessesOf relation = second.witnessesOf relation := SortedSet.ext_mem (sameWitnesses relation)
    unfold witnessesOf at shown
    show first.get? relation = second.get? relation
    cases one : first.get? relation <;> cases other : second.get? relation <;> simp_all
  cases first
  cases second
  congr

namespace RelationListing
open Json
variable {listing first second : RelationListing} {relation : Relation} {witness : Witness}

def entrySlots (entry : Relation × List Witness) : List (String × Option Json) :=
  [("source", some (.ofString entry.1.source)), ("target", some (.ofString entry.1.target)),
    ("witnesses", some (.array (entry.2.map Witness.toJson)))]

def entryToJson (entry : Relation × List Witness) : Json := .ofMembers (present (entrySlots entry))

def slots (listing : RelationListing) : List (String × Option Json) :=
  [("schema_version", some (versionToJson listing.schemaVersion)),
    ("entries", some (.array (listing.entries.map entryToJson)))]

def toJson (listing : RelationListing) : Json := .ofMembers (present listing.slots)

def ofJson? (value : Json) : Option RelationListing := do
  match ← value.fields? ["schema_version", "entries"] with
  | [schemaVersion, entries] =>
    return ⟨← required? nat32? schemaVersion, ← defaulted? [] (list? RelationMap.entryOfJson?) entries⟩
  | _ => failure

def text (listing : RelationListing) : String := listing.toJson.compact

def read? (text : String) : Option RelationListing := (Json.read? text).bind ofJson?

theorem entryOfJson?_entryToJson (entry : Relation × List Witness) :
    RelationMap.entryOfJson? (entryToJson entry) = some entry := by
  have found : (Json.ofMembers (present (entrySlots entry))).fields? ["source", "target", "witnesses"] =
      some ((entrySlots entry).map Prod.snd) :=
    fields?_present (by show ["source", "target", "witnesses"].Nodup; decide)
  simp only [entryToJson, RelationMap.entryOfJson?, found]
  simp only [entrySlots, List.map_cons, List.map_nil, required?_text, defaulted?, list?_map _ Witness.ofJson?_toJson,
    Option.bind_eq_bind, Option.bind_some, Option.pure_def]

theorem written_entryToJson (entry : Relation × List Witness) : (entryToJson entry).Written := by
  apply Written.object
  apply forall_present (P := Written)
  simp only [entrySlots, List.forall_mem_cons]
  exact ⟨forall_mem_some (.string _), forall_mem_some (.string _), forall_mem_some (written_map _ Witness.written_toJson),
    List.forall_mem_nil _⟩

-- the fields stay variables here, so that checking the proof does not compute with the bound of versions
theorem ofJson?_of_fields {value : Json} {version entries : Option Json}
    (found : value.fields? ["schema_version", "entries"] = some [version, entries])
    (isVersion : required? nat32? version = some listing.schemaVersion)
    (areEntries : defaulted? [] (list? RelationMap.entryOfJson?) entries = some listing.entries) :
    ofJson? value = some listing := by
  simp only [ofJson?, found, isVersion, areEntries, Option.bind_eq_bind, Option.bind_some, Option.pure_def]

theorem ofJson?_toJson (listing : RelationListing) : ofJson? listing.toJson = some listing := by
  have found : (Json.ofMembers (present listing.slots)).fields? ["schema_version", "entries"] =
      some (listing.slots.map Prod.snd) :=
    fields?_present (by show ["schema_version", "entries"].Nodup; decide)
  apply ofJson?_of_fields
  · exact found
  · exact required?_version listing.schemaVersion
  · exact list?_map listing.entries entryOfJson?_entryToJson

theorem written_toJson (listing : RelationListing) : listing.toJson.Written := by
  apply Written.object
  apply forall_present (P := Written)
  simp only [slots, List.forall_mem_cons]
  exact ⟨forall_mem_some (written_version _), forall_mem_some (written_map _ written_entryToJson), List.forall_mem_nil _⟩

/-- A listing is read back from its text as it was, repetitions included. -/
theorem read?_text (listing : RelationListing) : read? listing.text = some listing := by
  rw [read?, text, read?_compact listing.written_toJson, Option.bind_some, ofJson?_toJson]

def toMap (listing : RelationListing) : RelationMap := .ofEntries listing.schemaVersion listing.entries

def Lists (listing : RelationListing) (relation : Relation) : Prop :=
  ∃ witnesses, (relation, witnesses) ∈ listing.entries

def Shows (listing : RelationListing) (relation : Relation) (witness : Witness) : Prop :=
  ∃ witnesses, (relation, witnesses) ∈ listing.entries ∧ witness ∈ witnesses

/-- Two listings have the same version, name the same relations, and give each of them the same witnesses. -/
structure Alike (first second : RelationListing) : Prop where
  version : first.schemaVersion = second.schemaVersion
  relations : ∀ relation, first.Lists relation ↔ second.Lists relation
  witnesses : ∀ relation witness, first.Shows relation witness ↔ second.Shows relation witness

section Merging

theorem toMap_eq_foldl (listing : RelationListing) :
    listing.toMap = (listing.entries.map fun entry => (entry.1, SortedSet.ofList entry.2)).foldl
      (fun result entry => result.insertAll (id entry.1) entry.2) ⟨listing.schemaVersion, .empty⟩ := by
  rw [List.foldl_map]
  rfl

theorem schemaVersion_toMap : listing.toMap.schemaVersion = listing.schemaVersion := by
  have kept : ∀ (entries : List (Relation × List Witness)) (map : RelationMap),
      (entries.foldl (fun map entry => map.insertAll entry.1 (.ofList entry.2)) map).schemaVersion = map.schemaVersion := by
    intro entries
    induction entries with
    | nil => exact fun _ => rfl
    | cons entry rest ih => exact fun map => ih _
  exact kept _ _

theorem mem_relationSet_toMap : relation ∈ listing.toMap.relationSet ↔ listing.Lists relation := by
  have nothing : relation ∉ (⟨listing.schemaVersion, .empty⟩ : RelationMap).relationSet := List.not_mem_nil
  rw [toMap_eq_foldl, RelationMap.mem_relationSet_foldl_insertAll]
  simp [nothing, Lists]

theorem mem_witnessesOf_toMap : witness ∈ listing.toMap.witnessesOf relation ↔ listing.Shows relation witness := by
  have nothing : witness ∉ (⟨listing.schemaVersion, .empty⟩ : RelationMap).witnessesOf relation := SortedSet.not_mem_empty
  rw [toMap_eq_foldl, RelationMap.mem_witnessesOf_foldl_insertAll]
  simp [nothing, Shows]

/-- Two listings are read as one map exactly if they list the same. -/
theorem toMap_eq_iff : first.toMap = second.toMap ↔ first.Alike second := by
  constructor
  · intro same
    refine ⟨?_, fun relation => ?_, fun relation witness => ?_⟩
    · rw [← schemaVersion_toMap, same, schemaVersion_toMap]
    · rw [← mem_relationSet_toMap, same, mem_relationSet_toMap]
    · rw [← mem_witnessesOf_toMap, same, mem_witnessesOf_toMap]
  · intro alike
    apply RelationMap.eq_of_same
    · rw [schemaVersion_toMap, alike.version, schemaVersion_toMap]
    · intro relation
      rw [mem_relationSet_toMap, alike.relations, mem_relationSet_toMap]
    · intro relation witness
      rw [mem_witnessesOf_toMap, alike.witnesses, mem_witnessesOf_toMap]

end Merging

/-- Two entries for one relation, with a witness in both of them, after a relation without witnesses. -/
def scattered : RelationListing :=
  ⟨1, [(⟨"fs", "net"⟩, [⟨[7, 9], [3]⟩, ⟨[7, 8], [3]⟩]), (⟨"env", "fs"⟩, []), (⟨"fs", "net"⟩, [⟨[7, 9], [3]⟩])]⟩

/-- The same relations and witnesses in their order. -/
def gathered : RelationListing :=
  ⟨1, [(⟨"env", "fs"⟩, []), (⟨"fs", "net"⟩, [⟨[7, 8], [3]⟩, ⟨[7, 9], [3]⟩])]⟩

theorem alike_scattered_gathered : scattered.Alike gathered := by
  refine ⟨rfl, fun relation => ?_, fun relation witness => ?_⟩
  · simp only [Lists, scattered, gathered, List.mem_cons, Prod.mk.injEq, List.not_mem_nil]
    grind
  · simp only [Shows, scattered, gathered, List.mem_cons, Prod.mk.injEq, List.not_mem_nil]
    grind

end RelationListing

namespace RelationMap
variable {map first second : RelationMap} {relation : Relation} {witness : Witness}

/-- What the text of a map lists: the relations in their order, each once with its witnesses in their order. -/
def listing (map : RelationMap) : RelationListing :=
  ⟨map.schemaVersion, map.relations.entries.map fun entry => (entry.1, entry.2.toList)⟩

theorem text_eq (map : RelationMap) : map.text = map.listing.text := by
  unfold text RelationListing.text toJson RelationListing.toJson RelationListing.slots listing
  rw [List.map_map]
  rfl

theorem ofJson?_eq (value : Json) : ofJson? value = (RelationListing.ofJson? value).map RelationListing.toMap := by
  unfold ofJson? RelationListing.ofJson?
  cases value.fields? ["schema_version", "entries"] with
  | none => rfl
  | some fields =>
    rcases fields with _ | ⟨schemaVersion, _ | ⟨entries, _ | ⟨third, more⟩⟩⟩
    case cons.cons.nil =>
      simp only [Option.bind_eq_bind, Option.bind_some, Option.pure_def]
      cases Json.required? Json.nat32? schemaVersion <;>
        cases Json.defaulted? [] (Json.list? entryOfJson?) entries <;> rfl
    all_goals rfl

theorem read?_eq (text : String) : read? text = (RelationListing.read? text).map RelationListing.toMap := by
  unfold read? RelationListing.read?
  cases Json.read? text with
  | none => rfl
  | some value => exact ofJson?_eq value

theorem lists_listing : map.listing.Lists relation ↔ relation ∈ map.relationSet := by
  rw [mem_relationSet, Option.isSome_iff_exists]
  simp only [RelationListing.Lists, listing, List.mem_map, Prod.exists, Prod.mk.injEq, mem_entries_iff]
  grind

theorem shows_listing : map.listing.Shows relation witness ↔ witness ∈ map.witnessesOf relation := by
  simp only [RelationListing.Shows, listing, List.mem_map, Prod.exists, Prod.mk.injEq, mem_entries_iff]
  constructor
  · rintro ⟨_, ⟨_, witnesses, found, rfl, rfl⟩, shown⟩
    rw [witnessesOf, found]
    exact shown
  · intro shown
    obtain ⟨witnesses, found⟩ := Option.isSome_iff_exists.1 (mem_relationSet.1 (mem_relationSet_of_witness shown))
    rw [witnessesOf, found] at shown
    exact ⟨_, ⟨_, witnesses, found, rfl, rfl⟩, shown⟩

theorem toMap_listing : map.listing.toMap = map := by
  apply eq_of_same RelationListing.schemaVersion_toMap
  · intro relation
    rw [RelationListing.mem_relationSet_toMap, lists_listing]
  · intro relation witness
    rw [RelationListing.mem_witnessesOf_toMap, shows_listing]

theorem read?_listing (listing : RelationListing) : read? listing.text = some listing.toMap := by
  rw [read?_eq, RelationListing.read?_text, Option.map_some]

theorem read?_text (map : RelationMap) : read? map.text = some map := by
  rw [text_eq, read?_listing, toMap_listing]

theorem text_injective (same : first.text = second.text) : first = second := by
  have read : some first = some second := by rw [← read?_text, same, read?_text]
  exact Option.some.inj read

theorem pairwise_listing : (map.listing.entries.map Prod.fst).Pairwise Relation.Precedes := by
  have inOrder : (map.relations.entries.map Prod.fst).Pairwise Before := map.relations.increasing
  rw [listing, List.map_map]
  exact inOrder.imp Relation.precedes_of_before

theorem pairwise_witnesses_listing {entry : Relation × List Witness} (listed : entry ∈ map.listing.entries) :
    entry.2.Pairwise Witness.Precedes := by
  obtain ⟨⟨relation, witnesses⟩, _, rfl⟩ := List.mem_map.1 listed
  exact witnesses.increasing.imp Witness.precedes_of_before

/-- Texts of relation maps are canonical: a map is read back from its text, which lists relations and witnesses in
strictly increasing order; and two accepted texts give the same map, and so are written alike, exactly if they list the
same. -/
theorem text_canonical :
    (∀ map : RelationMap, read? map.text = some map ∧
      ∃ listing, RelationListing.read? map.text = some listing ∧ listing.schemaVersion = map.schemaVersion ∧
        (listing.entries.map Prod.fst).Pairwise Relation.Precedes ∧
        ∀ entry ∈ listing.entries, entry.2.Pairwise Witness.Precedes) ∧
    ∀ (firstText secondText : String) (first second : RelationMap),
      read? firstText = some first → read? secondText = some second →
      ∃ firstListing secondListing,
        RelationListing.read? firstText = some firstListing ∧ RelationListing.read? secondText = some secondListing ∧
        (firstListing.Alike secondListing ↔ first = second) ∧ (first = second ↔ first.text = second.text) := by
  refine ⟨fun map => ⟨map.read?_text, map.listing, ?_, rfl, pairwise_listing, fun entry => pairwise_witnesses_listing⟩, ?_⟩
  · rw [text_eq, RelationListing.read?_text]
  · intro firstText secondText first second readFirst readSecond
    rw [read?_eq, Option.map_eq_some_iff] at readFirst readSecond
    obtain ⟨firstListing, foundFirst, rfl⟩ := readFirst
    obtain ⟨secondListing, foundSecond, rfl⟩ := readSecond
    exact ⟨firstListing, secondListing, foundFirst, foundSecond, RelationListing.toMap_eq_iff.symm,
      congrArg text, text_injective⟩

theorem text_canonical_scattered :
    read? RelationListing.scattered.text = some RelationListing.scattered.toMap ∧
    read? RelationListing.gathered.text = some RelationListing.gathered.toMap ∧
    RelationListing.scattered.text ≠ RelationListing.gathered.text ∧
    RelationListing.scattered.toMap.text = RelationListing.gathered.toMap.text := by
  have readScattered := read?_listing RelationListing.scattered
  have readGathered := read?_listing RelationListing.gathered
  obtain ⟨first, second, foundFirst, foundSecond, alike, written⟩ :=
    text_canonical.2 _ _ _ _ readScattered readGathered
  rw [RelationListing.read?_text, Option.some.injEq] at foundFirst foundSecond
  subst foundFirst foundSecond
  refine ⟨readScattered, readGathered, fun same => ?_, written.1 (alike.1 RelationListing.alike_scattered_gathered)⟩
  have equal : some RelationListing.scattered = some RelationListing.gathered := by
    rw [← RelationListing.read?_text, same, RelationListing.read?_text]
  exact absurd (Option.some.inj equal) (by decide)

end RelationMap

end DomainFlow
