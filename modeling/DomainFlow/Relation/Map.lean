import DomainFlow.Sorted.Map
import DomainFlow.Relation.Basic

/-!
Relation maps: the relations of one version of a package, each with its witnesses.
-/
namespace DomainFlow

/-- Relations with their witnesses, and the version of the scheme by which domains are named. -/
structure RelationMap where
  schemaVersion : UInt32
  relations : SortedMap Relation (SortedSet Witness)
deriving DecidableEq

namespace RelationMap

def currentSchema : UInt32 := 1

def empty : RelationMap := ⟨currentSchema, .empty⟩

def insertAll (map : RelationMap) (relation : Relation) (witnesses : SortedSet Witness) : RelationMap :=
  { map with relations := map.relations.alter relation fun known => (known.getD .empty).union witnesses }

def insert (map : RelationMap) (relation : Relation) (witness : Witness) : RelationMap :=
  { map with relations := map.relations.alter relation fun known => (known.getD .empty).insert witness }

def ofWitnesses (witnesses : List (Relation × Witness)) : RelationMap :=
  witnesses.foldl (fun map entry => map.insert entry.1 entry.2) .empty

def get? (map : RelationMap) (relation : Relation) : Option (SortedSet Witness) := map.relations.get? relation

def contains (map : RelationMap) (relation : Relation) : Bool := map.relations.contains relation

def size (map : RelationMap) : Nat := map.relations.size

def isEmpty (map : RelationMap) : Bool := map.relations.isEmpty

def relationSet (map : RelationMap) : SortedSet Relation := map.relations.keySet

def witnessNodes (map : RelationMap) : SortedSet NodeId :=
  .ofList (map.relations.values.flatMap fun witnesses => witnesses.toList.flatMap Witness.nodes)

/-- Only the relations that say something and have a witness. -/
def withoutNoise (map : RelationMap) : RelationMap :=
  { map with relations := map.relations.filter fun relation witnesses =>
      !relation.isNoise && !witnesses.isEmpty }

def remap (map : RelationMap) (change : Relation → Relation) : RelationMap :=
  map.relations.entries.foldl (fun result entry => result.insertAll (change entry.1) entry.2)
    ⟨map.schemaVersion, .empty⟩

def consolidate (map : RelationMap) : RelationMap := (map.remap Relation.consolidated).withoutNoise

/-- All local domains become one. Relations from a domain to itself are left out. -/
def aggregateLocals (map : RelationMap) : RelationMap :=
  let merged := map.remap Relation.generalizeLocals
  { merged with relations := merged.relations.filter fun relation _ => relation.source != relation.target }

end RelationMap

end DomainFlow
