/-!
Finite sets of ordered values, kept as strictly increasing lists. A set has one listing only, so two
sets with the same members are equal and printing one gives the same text each time.
-/
namespace DomainFlow

def Before {α : Type} [Ord α] (first second : α) : Prop :=
  compare first second = .lt

instance {α : Type} [Ord α] (first second : α) : Decidable (Before first second) :=
  inferInstanceAs (Decidable (compare first second = .lt))

/-- A finite set, listed in strictly increasing order. -/
structure SortedSet (α : Type) [Ord α] where
  toList : List α
  increasing : toList.Pairwise Before
deriving DecidableEq

namespace SortedSet
variable {α : Type} [Ord α]

def empty : SortedSet α := ⟨[], List.Pairwise.nil⟩

instance : Inhabited (SortedSet α) := ⟨empty⟩

instance : Membership α (SortedSet α) := ⟨fun set value => value ∈ set.toList⟩

instance [DecidableEq α] (value : α) (set : SortedSet α) : Decidable (value ∈ set) :=
  inferInstanceAs (Decidable (value ∈ set.toList))

theorem mem_iff {value : α} {set : SortedSet α} : value ∈ set ↔ value ∈ set.toList := Iff.rfl

section Extensionality
variable [Std.OrientedOrd α]

theorem nodup_of_increasing {list : List α} (increasing : list.Pairwise Before) : list.Nodup :=
  increasing.imp fun {first second} before equal => by
    subst equal
    simp [Before, Std.ReflCmp.compare_self] at before

theorem increasing_ext {first second : List α} (firstIncreasing : first.Pairwise Before)
    (secondIncreasing : second.Pairwise Before) (same : ∀ value, value ∈ first ↔ value ∈ second) :
    first = second := by
  refine List.Perm.eq_of_pairwise ?_ firstIncreasing secondIncreasing ?_
  · exact fun _ _ _ _ forward backward => False.elim (Std.OrientedCmp.not_lt_of_lt forward backward)
  · exact (List.perm_ext_iff_of_nodup (nodup_of_increasing firstIncreasing)
      (nodup_of_increasing secondIncreasing)).mpr same

theorem ext_mem {first second : SortedSet α} (same : ∀ value, value ∈ first ↔ value ∈ second) :
    first = second := by
  cases first
  cases second
  congr
  exact increasing_ext (by assumption) (by assumption) same

end Extensionality

/-- Puts a value at its place in an increasing list, unless it is there already. -/
def insertInto (value : α) : List α → List α
  | [] => [value]
  | head :: rest =>
    match compare value head with
    | .lt => value :: head :: rest
    | .eq => head :: rest
    | .gt => head :: insertInto value rest

variable [Std.TransOrd α] [Std.LawfulEqOrd α]

omit [Std.TransOrd α] in
theorem mem_insertInto {value other : α} {list : List α} :
    other ∈ insertInto value list ↔ other = value ∨ other ∈ list := by
  induction list with
  | nil => simp [insertInto]
  | cons head rest ih =>
    unfold insertInto
    split
    · simp
    · next same =>
      have equal : value = head := Std.LawfulEqOrd.eq_of_compare same
      simp [equal]
    · simp only [List.mem_cons, ih]
      grind

theorem pairwise_insertInto {value : α} {list : List α} (increasing : list.Pairwise Before) :
    (insertInto value list).Pairwise Before := by
  induction list with
  | nil => simp [insertInto]
  | cons head rest ih =>
    have aboveHead := (List.pairwise_cons.mp increasing).1
    have restIncreasing := (List.pairwise_cons.mp increasing).2
    unfold insertInto
    split
    · next below =>
      refine List.pairwise_cons.mpr ⟨?_, increasing⟩
      intro member present
      rcases List.mem_cons.mp present with equal | later
      · exact equal ▸ below
      · exact Std.TransCmp.lt_trans below (aboveHead member later)
    · exact increasing
    · next above =>
      refine List.pairwise_cons.mpr ⟨?_, ih restIncreasing⟩
      intro member present
      rcases mem_insertInto.mp present with equal | later
      · exact equal ▸ Std.OrientedCmp.lt_of_gt above
      · exact aboveHead member later

def insert (value : α) (set : SortedSet α) : SortedSet α :=
  ⟨insertInto value set.toList, pairwise_insertInto set.increasing⟩

@[simp] theorem mem_insert {value other : α} {set : SortedSet α} :
    other ∈ set.insert value ↔ other = value ∨ other ∈ set := mem_insertInto

/-- The set of the values of a list, in whatever order and however often they occur there. -/
def ofList (list : List α) : SortedSet α :=
  list.foldl (fun set value => set.insert value) empty

theorem mem_foldl_insert {value : α} {list : List α} {set : SortedSet α} :
    value ∈ list.foldl (fun set value => set.insert value) set ↔ value ∈ list ∨ value ∈ set := by
  induction list generalizing set with
  | nil => simp
  | cons head rest ih =>
    simp only [List.foldl_cons, ih, mem_insert, List.mem_cons]
    grind

omit [Std.TransOrd α] [Std.LawfulEqOrd α] in
@[simp] theorem not_mem_empty {value : α} : value ∉ (empty : SortedSet α) := List.not_mem_nil

@[simp] theorem mem_ofList {value : α} {list : List α} : value ∈ ofList list ↔ value ∈ list := by
  simp [ofList, mem_foldl_insert]

def union (first second : SortedSet α) : SortedSet α :=
  second.toList.foldl (fun set value => set.insert value) first

@[simp] theorem mem_union {value : α} {first second : SortedSet α} :
    value ∈ first.union second ↔ value ∈ first ∨ value ∈ second := by
  rw [union, mem_foldl_insert, ← mem_iff, or_comm]

def filter (test : α → Bool) (set : SortedSet α) : SortedSet α :=
  ⟨set.toList.filter test, set.increasing.filter test⟩

omit [Std.TransOrd α] [Std.LawfulEqOrd α] in
@[simp] theorem mem_filter {value : α} {test : α → Bool} {set : SortedSet α} :
    value ∈ set.filter test ↔ value ∈ set ∧ test value = true := List.mem_filter

def map {β : Type} [Ord β] [Std.TransOrd β] [Std.LawfulEqOrd β] (image : α → β) (set : SortedSet α) :
    SortedSet β :=
  ofList (set.toList.map image)

omit [Std.TransOrd α] [Std.LawfulEqOrd α] in
@[simp] theorem mem_map {β : Type} [Ord β] [Std.TransOrd β] [Std.LawfulEqOrd β] {image : α → β}
    {set : SortedSet α} {value : β} :
    value ∈ set.map image ↔ ∃ member ∈ set, image member = value := by
  rw [map, mem_ofList, List.mem_map]
  rfl

def size (set : SortedSet α) : Nat := set.toList.length

def isEmpty (set : SortedSet α) : Bool := set.toList.isEmpty

end SortedSet

end DomainFlow
