import DomainFlow.Sorted.Set

/-!
Finite maps with ordered keys, kept as association lists whose keys strictly increase. Like a sorted
set, a map has one listing only.
-/
namespace DomainFlow

/-- A finite map, listed by strictly increasing keys. -/
structure SortedMap (κ : Type) (ν : Type) [Ord κ] where
  entries : List (κ × ν)
  increasing : (entries.map Prod.fst).Pairwise Before
deriving DecidableEq

namespace SortedMap
variable {κ ν : Type} [Ord κ]

def empty : SortedMap κ ν := ⟨[], by simp⟩

instance : Inhabited (SortedMap κ ν) := ⟨empty⟩

def keys (map : SortedMap κ ν) : List κ := map.entries.map Prod.fst

def values (map : SortedMap κ ν) : List ν := map.entries.map Prod.snd

def size (map : SortedMap κ ν) : Nat := map.entries.length

def isEmpty (map : SortedMap κ ν) : Bool := map.entries.isEmpty

def keySet (map : SortedMap κ ν) : SortedSet κ := ⟨map.keys, map.increasing⟩

def get? [DecidableEq κ] (key : κ) (map : SortedMap κ ν) : Option ν :=
  map.entries.lookup key

def contains [DecidableEq κ] (key : κ) (map : SortedMap κ ν) : Bool :=
  map.keys.contains key

/-- Replaces the value of a key by what `change` makes of it, at the key's place in the listing. -/
def alterIn (key : κ) (change : Option ν → ν) : List (κ × ν) → List (κ × ν)
  | [] => [(key, change none)]
  | (head, value) :: rest =>
    match compare key head with
    | .lt => (key, change none) :: (head, value) :: rest
    | .eq => (head, change (some value)) :: rest
    | .gt => (head, value) :: alterIn key change rest

/-- Only the keys decide where an entry stands. -/
theorem map_fst_alterIn (key : κ) (change : Option ν → ν) (entries : List (κ × ν)) :
    (alterIn key change entries).map Prod.fst = SortedSet.insertInto key (entries.map Prod.fst) := by
  induction entries with
  | nil => rfl
  | cons entry rest ih =>
    simp only [alterIn, List.map_cons, SortedSet.insertInto]
    cases compare key entry.1 <;> simp [ih]

def filter (test : κ → ν → Bool) (map : SortedMap κ ν) : SortedMap κ ν where
  entries := map.entries.filter fun entry => test entry.1 entry.2
  increasing := map.increasing.sublist (List.filter_sublist.map Prod.fst)

variable [Std.TransOrd κ] [Std.LawfulEqOrd κ]

def alter (key : κ) (change : Option ν → ν) (map : SortedMap κ ν) : SortedMap κ ν where
  entries := alterIn key change map.entries
  increasing := by
    rw [map_fst_alterIn]
    exact SortedSet.pairwise_insertInto map.increasing

/-- The map with a value stored under a key, in place of any earlier one. -/
def insert (key : κ) (value : ν) (map : SortedMap κ ν) : SortedMap κ ν :=
  map.alter key fun _ => value

/-- The map of a list of entries, in which the last value given for a key counts. -/
def ofList (entries : List (κ × ν)) : SortedMap κ ν :=
  entries.foldl (fun map entry => map.insert entry.1 entry.2) empty

end SortedMap

end DomainFlow
