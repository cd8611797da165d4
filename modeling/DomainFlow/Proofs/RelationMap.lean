import Mathlib.Data.List.Basic
import DomainFlow.Proofs.SortedMap
import DomainFlow.Relation.Map

/-!
The relations of a map, and their witnesses, after each operation. A map is looked at through the
witnesses that it has for each relation.
-/
namespace DomainFlow

namespace RelationMap
variable {map : RelationMap} {relation other : Relation} {witness : Witness}

/-- The witnesses of a relation; none if the relation is not in the map. -/
def witnessesOf (map : RelationMap) (relation : Relation) : SortedSet Witness :=
  (map.get? relation).getD .empty

theorem mem_relationSet : relation ∈ map.relationSet ↔ (map.get? relation).isSome := SortedMap.mem_keySet

theorem mem_relationSet_of_witness (shown : witness ∈ map.witnessesOf relation) : relation ∈ map.relationSet := by
  rw [mem_relationSet]
  cases found : map.get? relation with
  | some set => rfl
  | none =>
    rw [witnessesOf, found] at shown
    exact absurd shown SortedSet.not_mem_empty

theorem get?_insert : (map.insert relation witness).get? other =
    if other = relation then some ((map.witnessesOf relation).insert witness) else map.get? other :=
  SortedMap.get?_alter

theorem get?_insertAll {witnesses : SortedSet Witness} : (map.insertAll relation witnesses).get? other =
    if other = relation then some ((map.witnessesOf relation).union witnesses) else map.get? other :=
  SortedMap.get?_alter

theorem mem_witnessesOf_insert {added : Witness} : witness ∈ (map.insert relation added).witnessesOf other ↔
    witness ∈ map.witnessesOf other ∨ other = relation ∧ witness = added := by
  rw [witnessesOf, get?_insert]
  by_cases same : other = relation
  · subst same
    simp [or_comm]
  · simp [same, witnessesOf]

theorem mem_witnessesOf_insertAll {witnesses : SortedSet Witness} :
    witness ∈ (map.insertAll relation witnesses).witnessesOf other ↔
      witness ∈ map.witnessesOf other ∨ other = relation ∧ witness ∈ witnesses := by
  rw [witnessesOf, get?_insertAll]
  by_cases same : other = relation
  · subst same
    simp
  · simp [same, witnessesOf]

section OfWitnesses
variable {entries : List (Relation × Witness)}

theorem mem_witnessesOf_foldl_insert :
    witness ∈ (entries.foldl (fun map entry => map.insert entry.1 entry.2) map).witnessesOf relation ↔
      witness ∈ map.witnessesOf relation ∨ (relation, witness) ∈ entries := by
  induction entries generalizing map with
  | nil => simp
  | cons entry rest ih =>
    rw [List.foldl_cons, ih, mem_witnessesOf_insert, List.mem_cons, or_assoc, Prod.ext_iff]

@[simp] theorem mem_witnessesOf_ofWitnesses :
    witness ∈ (ofWitnesses entries).witnessesOf relation ↔ (relation, witness) ∈ entries := by
  rw [ofWitnesses, mem_witnessesOf_foldl_insert]
  simp [witnessesOf, get?, empty, SortedMap.get?, SortedMap.empty]

end OfWitnesses

section Noise

theorem get?_withoutNoise : map.withoutNoise.get? relation =
    (map.get? relation).filter fun witnesses => !relation.isNoise && !witnesses.isEmpty :=
  SortedMap.get?_filter

theorem isEmpty_eq_false_iff {set : SortedSet Witness} : set.isEmpty = false ↔ ∃ witness, witness ∈ set := by
  rw [SortedSet.isEmpty, List.isEmpty_eq_false_iff_exists_mem]
  rfl

/-- What is left says something and is shown by a witness. -/
theorem mem_relationSet_withoutNoise : relation ∈ map.withoutNoise.relationSet ↔
    relation.isNoise = false ∧ ∃ witness, witness ∈ map.witnessesOf relation := by
  rw [mem_relationSet, get?_withoutNoise, witnessesOf]
  cases map.get? relation with
  | none => simp
  | some witnesses => simp [Option.isSome_filter, isEmpty_eq_false_iff]

theorem mem_witnessesOf_withoutNoise : witness ∈ map.withoutNoise.witnessesOf relation ↔
    relation.isNoise = false ∧ witness ∈ map.witnessesOf relation := by
  rw [witnessesOf, get?_withoutNoise, witnessesOf]
  cases found : map.get? relation with
  | none => simp
  | some witnesses =>
    by_cases keeps : relation.isNoise = false ∧ ∃ witness, witness ∈ witnesses
    · have test : (!relation.isNoise && !witnesses.isEmpty) = true := by
        simpa [isEmpty_eq_false_iff] using keeps
      rw [Option.filter_some, if_pos test]
      simp [keeps.1]
    · have test : (!relation.isNoise && !witnesses.isEmpty) = false := by
        rw [← Bool.not_eq_true]
        simpa [isEmpty_eq_false_iff] using keeps
      rw [Option.filter_some, if_neg (by simp [test])]
      simp only [Option.getD_none, SortedSet.not_mem_empty, Option.getD_some, false_iff]
      exact fun both => keeps ⟨both.1, witness, both.2⟩

def Shown (map : RelationMap) : Prop :=
  ∀ relation ∈ map.relationSet, ∃ witness, witness ∈ map.witnessesOf relation

theorem shown_withoutNoise : map.withoutNoise.Shown := by
  intro relation member
  obtain ⟨informs, witness, isWitness⟩ := mem_relationSet_withoutNoise.mp member
  exact ⟨witness, mem_witnessesOf_withoutNoise.mpr ⟨informs, isWitness⟩⟩

end Noise

section Remap
variable {change : Relation → Relation} {entries : List (Relation × SortedSet Witness)}

theorem mem_relationSet_insertAll {witnesses : SortedSet Witness} :
    other ∈ (map.insertAll relation witnesses).relationSet ↔ other ∈ map.relationSet ∨ other = relation := by
  rw [mem_relationSet, mem_relationSet, get?_insertAll]
  by_cases same : other = relation <;> simp [same]

theorem mem_relationSet_foldl_insertAll :
    relation ∈ (entries.foldl (fun result entry => result.insertAll (change entry.1) entry.2) map).relationSet ↔
      relation ∈ map.relationSet ∨ ∃ entry ∈ entries, change entry.1 = relation := by
  induction entries generalizing map with
  | nil => simp
  | cons entry rest ih =>
    rw [List.foldl_cons, ih, mem_relationSet_insertAll, or_assoc, List.exists_mem_cons_iff, eq_comm]

theorem mem_witnessesOf_foldl_insertAll :
    witness ∈ (entries.foldl (fun result entry => result.insertAll (change entry.1) entry.2) map).witnessesOf relation ↔
      witness ∈ map.witnessesOf relation ∨ ∃ entry ∈ entries, change entry.1 = relation ∧ witness ∈ entry.2 := by
  induction entries generalizing map with
  | nil => simp
  | cons entry rest ih =>
    rw [List.foldl_cons, ih, mem_witnessesOf_insertAll, or_assoc, List.exists_mem_cons_iff, eq_comm]

theorem mem_entries_iff {witnesses : SortedSet Witness} :
    (relation, witnesses) ∈ map.relations.entries ↔ map.get? relation = some witnesses :=
  SortedMap.get?_eq_some_iff.symm

theorem mem_relationSet_remap : relation ∈ (map.remap change).relationSet ↔
    ∃ original ∈ map.relationSet, change original = relation := by
  have nothing : relation ∉ (⟨map.schemaVersion, .empty⟩ : RelationMap).relationSet := List.not_mem_nil
  simp only [remap, mem_relationSet_foldl_insertAll, nothing, false_or, Prod.exists, mem_entries_iff]
  constructor
  · intro found
    obtain ⟨original, witnesses, present, changed⟩ := found
    exact ⟨original, mem_relationSet.mpr (Option.isSome_of_eq_some present), changed⟩
  · intro found
    obtain ⟨original, member, changed⟩ := found
    obtain ⟨witnesses, present⟩ := Option.isSome_iff_exists.mp (mem_relationSet.mp member)
    exact ⟨original, witnesses, present, changed⟩

/-- Relations that become equal share their witnesses. -/
theorem mem_witnessesOf_remap : witness ∈ (map.remap change).witnessesOf relation ↔
    ∃ original, change original = relation ∧ witness ∈ map.witnessesOf original := by
  have nothing : witness ∉ (⟨map.schemaVersion, .empty⟩ : RelationMap).witnessesOf relation := SortedSet.not_mem_empty
  simp only [remap, mem_witnessesOf_foldl_insertAll, nothing, false_or, Prod.exists, mem_entries_iff]
  constructor
  · intro found
    obtain ⟨original, witnesses, present, changed, shown⟩ := found
    exact ⟨original, changed, by rw [witnessesOf, present]; exact shown⟩
  · intro found
    obtain ⟨original, changed, shown⟩ := found
    obtain ⟨witnesses, present⟩ := Option.isSome_iff_exists.mp (mem_relationSet.mp (mem_relationSet_of_witness shown))
    rw [witnessesOf, present] at shown
    exact ⟨original, witnesses, present, changed, shown⟩

theorem mem_relationSet_consolidate (shown : map.Shown) : relation ∈ map.consolidate.relationSet ↔
    relation.isNoise = false ∧ ∃ original ∈ map.relationSet, original.consolidated = relation := by
  simp only [consolidate, mem_relationSet_withoutNoise, mem_witnessesOf_remap]
  refine and_congr_right fun _ => ?_
  constructor
  · intro found
    obtain ⟨witness, original, changed, member⟩ := found
    exact ⟨original, mem_relationSet_of_witness member, changed⟩
  · intro found
    obtain ⟨original, member, changed⟩ := found
    obtain ⟨witness, isWitness⟩ := shown original member
    exact ⟨witness, original, changed, isWitness⟩

theorem get?_aggregateLocals : map.aggregateLocals.get? relation =
    ((map.remap Relation.generalizeLocals).get? relation).filter fun _ => relation.source != relation.target :=
  SortedMap.get?_filter

theorem mem_relationSet_aggregateLocals : relation ∈ map.aggregateLocals.relationSet ↔
    relation.source ≠ relation.target ∧ ∃ original ∈ map.relationSet, original.generalizeLocals = relation := by
  rw [← mem_relationSet_remap, mem_relationSet, mem_relationSet, get?_aggregateLocals, Option.isSome_filter]
  cases (map.remap Relation.generalizeLocals).get? relation <;> simp

theorem mem_witnessesOf_aggregateLocals : witness ∈ map.aggregateLocals.witnessesOf relation ↔
    relation.source ≠ relation.target ∧
      ∃ original, original.generalizeLocals = relation ∧ witness ∈ map.witnessesOf original := by
  rw [← mem_witnessesOf_remap, witnessesOf, get?_aggregateLocals]
  cases found : (map.remap Relation.generalizeLocals).get? relation with
  | none => simp [witnessesOf, found]
  | some witnesses => by_cases same : relation.source = relation.target <;> simp [witnessesOf, found, Option.filter_some, same]

theorem Shown.aggregateLocals (shown : map.Shown) : map.aggregateLocals.Shown := by
  intro relation member
  obtain ⟨different, original, isOriginal, merged⟩ := mem_relationSet_aggregateLocals.mp member
  obtain ⟨witness, isWitness⟩ := shown original isOriginal
  exact ⟨witness, mem_witnessesOf_aggregateLocals.mpr ⟨different, original, merged, isWitness⟩⟩

end Remap

section Schema

theorem schemaVersion_ofWitnesses {entries : List (Relation × Witness)} :
    (ofWitnesses entries).schemaVersion = currentSchema := by
  have kept : ∀ map : RelationMap,
      (entries.foldl (fun map entry => map.insert entry.1 entry.2) map).schemaVersion = map.schemaVersion := by
    induction entries with
    | nil => exact fun _ => rfl
    | cons entry rest ih => exact fun map => ih _
  exact kept _

theorem schemaVersion_remap {map : RelationMap} {change : Relation → Relation} :
    (map.remap change).schemaVersion = map.schemaVersion := by
  have kept : ∀ (entries : List (Relation × SortedSet Witness)) (map : RelationMap),
      (entries.foldl (fun map entry => map.insertAll (change entry.1) entry.2) map).schemaVersion = map.schemaVersion := by
    intro entries
    induction entries with
    | nil => exact fun _ => rfl
    | cons entry rest ih => exact fun map => ih _
  exact kept _ _

end Schema

end RelationMap

end DomainFlow
