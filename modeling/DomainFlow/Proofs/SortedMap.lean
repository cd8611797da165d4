import DomainFlow.Sorted.Map

/-!
Looking up in a sorted map. Keys strictly increase, so a key has one value, and a change under one key
leaves all other keys as they are.
-/
namespace DomainFlow

namespace SortedMap
variable {κ ν : Type} [Ord κ] [DecidableEq κ] [Std.TransOrd κ] [Std.LawfulEqOrd κ]
  {map : SortedMap κ ν} {key other : κ} {value : ν}

omit [Std.TransOrd κ] [Std.LawfulEqOrd κ] in
theorem mem_keySet : key ∈ map.keySet ↔ (map.get? key).isSome := by
  simp only [keySet, keys, get?, SortedSet.mem_iff, List.lookup_isSome_iff, List.mem_map, beq_iff_eq]
  exact ⟨fun ⟨entry, member, same⟩ => ⟨entry, member, same.symm⟩,
    fun ⟨entry, member, same⟩ => ⟨entry, member, same.symm⟩⟩

omit [Std.TransOrd κ] [Std.LawfulEqOrd κ] in
theorem contains_iff : map.contains key = true ↔ (map.get? key).isSome := by
  rw [contains, List.contains_iff_mem]
  exact mem_keySet

omit [Std.LawfulEqOrd κ] in
/-- The entries of a map are exactly its values under their keys. -/
theorem get?_eq_some_iff : map.get? key = some value ↔ (key, value) ∈ map.entries := by
  have distinct : (map.entries.map Prod.fst).Nodup := SortedSet.nodup_of_increasing map.increasing
  simp only [get?, List.lookup_eq_findSome?]
  constructor
  · intro found
    obtain ⟨entry, member, same⟩ := List.exists_of_findSome?_eq_some found
    by_cases matching : key = entry.1
    · simp only [matching, beq_self_eq_true, ↓reduceIte, Option.some.injEq] at same
      rw [matching, ← same]
      exact member
    · simp [matching] at same
  · intro member
    obtain ⟨before, after, split⟩ := List.append_of_mem member
    have absent : ∀ entry ∈ before, key ≠ entry.1 := by
      intro entry earlier same
      rw [split, List.map_append, List.nodup_append] at distinct
      exact distinct.2.2 entry.1 (List.mem_map_of_mem earlier) key (by simp) same.symm
    rw [split, List.findSome?_append, List.findSome?_eq_none_iff.mpr]
    · simp
    · intro entry earlier
      simp [absent entry earlier]

omit [Ord κ] [Std.TransOrd κ] [Std.LawfulEqOrd κ] in
theorem lookup_cons_eq_ite {head : κ} {rest : List (κ × ν)} :
    ((head, value) :: rest).lookup key = if key = head then some value else rest.lookup key := by
  rw [List.lookup_cons]
  by_cases same : key = head
  · simp [same]
  · simp [same, beq_eq_false_iff_ne.mpr same]

omit [DecidableEq κ] [Std.LawfulEqOrd κ] in
theorem ne_of_before {first second : κ} (before : Before first second) : first ≠ second := by
  intro same
  rw [same] at before
  simp [Before, Std.ReflCmp.compare_self] at before

omit [Std.LawfulEqOrd κ] in
/-- Entries that all come later do not hold the key. -/
theorem lookup_eq_none_of_before {entries : List (κ × ν)}
    (later : ∀ entry ∈ entries, Before key entry.1) : entries.lookup key = none := by
  rw [List.lookup_eq_none_iff]
  intro entry member
  simpa using ne_of_before (later entry member)

theorem lookup_alterIn {change : Option ν → ν} {entries : List (κ × ν)}
    (increasing : (entries.map Prod.fst).Pairwise Before) :
    (alterIn key change entries).lookup other =
      if other = key then some (change (entries.lookup key)) else entries.lookup other := by
  induction entries with
  | nil =>
    rw [alterIn, lookup_cons_eq_ite]
    rfl
  | cons entry rest ih =>
    obtain ⟨head, value⟩ := entry
    rw [List.map_cons, List.pairwise_cons] at increasing
    unfold alterIn
    cases order : compare key head with
    | lt =>
      have absent : ((head, value) :: rest).lookup key = none := by
        apply lookup_eq_none_of_before
        intro entry member
        rcases List.mem_cons.mp member with same | later
        · exact same ▸ order
        · exact Std.TransCmp.lt_trans order (increasing.1 entry.1 (List.mem_map_of_mem later))
      simp only [absent]
      exact lookup_cons_eq_ite
    | eq =>
      have equal : key = head := Std.LawfulEqOrd.eq_of_compare order
      subst equal
      simp only [lookup_cons_eq_ite]
      by_cases same : other = key
      · simp only [if_pos same, if_true]
      · simp only [if_neg same]
    | gt =>
      have different : key ≠ head := (ne_of_before (Std.OrientedCmp.lt_of_gt order)).symm
      simp only [lookup_cons_eq_ite, ih increasing.2, if_neg different]
      by_cases same : other = key
      · simp only [same, if_neg different, if_true]
      · simp only [if_neg same]

/-- A change under one key is seen there and nowhere else. -/
theorem get?_alter {change : Option ν → ν} :
    (map.alter key change).get? other = if other = key then some (change (map.get? key)) else map.get? other :=
  lookup_alterIn map.increasing

theorem get?_insert : (map.insert key value).get? other = if other = key then some value else map.get? other :=
  get?_alter

omit [Std.LawfulEqOrd κ] in
theorem get?_filter {test : κ → ν → Bool} : (map.filter test).get? key = (map.get? key).filter (test key) := by
  apply Option.ext
  intro value
  rw [get?_eq_some_iff, Option.filter_eq_some_iff, get?_eq_some_iff, filter, List.mem_filter]

omit [Std.LawfulEqOrd κ] in
theorem ext_get? {first second : SortedMap κ ν} (same : ∀ key, first.get? key = second.get? key) : first = second := by
  have sameMembers : ∀ entry, entry ∈ first.entries ↔ entry ∈ second.entries := by
    intro entry
    rw [← get?_eq_some_iff, same, get?_eq_some_iff]
  have distinct : ∀ map : SortedMap κ ν, map.entries.Nodup := fun map =>
    (List.pairwise_map.mp map.increasing).imp fun before equal => ne_of_before before (congrArg Prod.fst equal)
  have sameListing : first.entries = second.entries := by
    refine List.Perm.eq_of_pairwise ?_ (List.pairwise_map.mp first.increasing) (List.pairwise_map.mp second.increasing) ?_
    · exact fun _ _ _ _ forward backward => False.elim (Std.OrientedCmp.not_lt_of_lt forward backward)
    · exact (List.perm_ext_iff_of_nodup (distinct first) (distinct second)).mpr sameMembers
  cases first
  cases second
  congr

theorem get?_foldl_insert {entries : List (κ × ν)} (increasing : (entries.map Prod.fst).Pairwise Before) :
    (entries.foldl (fun map entry => map.insert entry.1 entry.2) map).get? key = (entries.lookup key).or (map.get? key) := by
  induction entries generalizing map with
  | nil => rfl
  | cons entry more ih =>
    obtain ⟨first, increasingMore⟩ := List.pairwise_cons.1 increasing
    rw [List.foldl_cons, ih increasingMore, get?_insert, lookup_cons_eq_ite]
    by_cases same : key = entry.1
    · have absent := lookup_eq_none_of_before fun later listed => first later.1 (List.mem_map_of_mem listed)
      rw [if_pos same, if_pos same, same, absent]
      rfl
    · rw [if_neg same, if_neg same]

omit [DecidableEq κ] [Std.TransOrd κ] [Std.LawfulEqOrd κ] in
theorem eq_empty_of_isEmpty (nothing : map.isEmpty = true) : map = empty := by
  obtain ⟨entries, increasing⟩ := map
  obtain rfl : entries = [] := List.isEmpty_iff.1 nothing
  rfl

theorem ofList_entries : ofList map.entries = map := by
  apply ext_get?
  intro key
  rw [ofList, get?_foldl_insert map.increasing]
  exact Option.or_none

end SortedMap

end DomainFlow
