import DomainFlow.Graph.Kind
import DomainFlow.Sorted.Set
import DomainFlow.Domain.Label

/-!
Relations between domains, and the nodes that show that a relation holds. Both are ordered: relations
by source and then by target, witnesses by their paths.
-/
namespace DomainFlow

/-- Data of one domain reaches another one. -/
structure Relation where
  source : Domain
  target : Domain
deriving DecidableEq, Repr

namespace Relation

instance : Ord Relation := ⟨compareLex (compareOn source) (compareOn target)⟩

instance : Std.TransOrd Relation :=
  inferInstanceAs (Std.TransCmp (compareLex (compareOn source) (compareOn target)))

instance : Std.LawfulEqOrd Relation where
  eq_of_compare {first second} equal := by
    have both := Ordering.then_eq_eq.mp (show (compare first.source second.source).then
      (compare first.target second.target) = .eq from equal)
    cases first
    cases second
    simp_all

def display (relation : Relation) : String := relation.source ++ " -> " ++ relation.target

def map (change : Domain → Domain) (relation : Relation) : Relation :=
  ⟨change relation.source, change relation.target⟩

/-- Whether the relation says nothing: it always holds, or the domains contain each other. -/
def isNoise (relation : Relation) : Bool :=
  relation.source == relation.target ||
  (relation.source.isLocal && relation.target.isLocal) ||
  (Text.startsWith relation.source Domain.caller && relation.target.isLocal) ||
  Text.startsWith relation.source relation.target ||
  Text.startsWith relation.target relation.source

def generalizeLocals (relation : Relation) : Relation := relation.map Domain.generalizeLocal

def generalizeNew (relation : Relation) : Relation := relation.map Domain.generalizeNew

def consolidated (relation : Relation) : Relation :=
  relation.map fun domain => (Domain.consolidate domain).generalizeLocal

end Relation

/-- The nodes by which a relation was shown: the path of the data, and the path by which the last node
got its domain. -/
structure Witness where
  path : List NodeId
  propertyPath : List NodeId
deriving DecidableEq, Repr

namespace Witness

instance : Ord Witness := ⟨compareLex (compareOn path) (compareOn propertyPath)⟩

instance : Std.TransOrd Witness :=
  inferInstanceAs (Std.TransCmp (compareLex (compareOn path) (compareOn propertyPath)))

instance : Std.LawfulEqOrd Witness where
  eq_of_compare {first second} equal := by
    have both := Ordering.then_eq_eq.mp (show (compare first.path second.path).then
      (compare first.propertyPath second.propertyPath) = .eq from equal)
    cases first
    cases second
    simp_all

def none : Witness := ⟨[], []⟩

def nodes (witness : Witness) : List NodeId := witness.path ++ witness.propertyPath

end Witness

end DomainFlow
