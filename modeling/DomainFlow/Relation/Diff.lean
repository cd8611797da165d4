import DomainFlow.Json.Decode
import DomainFlow.Relation.Map

/-!
Comparing the relations of two versions of a package. There are three policies, of increasing
precision: every new relation counts; a relation does not count if local code that was there before
explains it; or all local code counts as one domain.
-/
namespace DomainFlow

/-- Which new relations count. -/
inductive DiffPolicy where
  | broad
  | newLocal
  | singleLocal
deriving DecidableEq, Repr

namespace DiffPolicy

def label : DiffPolicy → String
  | .broad => "broad"
  | .newLocal => "new-local"
  | .singleLocal => "single-local"

def all : List DiffPolicy := [.broad, .newLocal, .singleLocal]

def ofLabel? (name : String) : Option DiffPolicy := all.find? fun policy => policy.label == name

def standard : DiffPolicy := .singleLocal

/-- The policy of a name, in which letters may be large, hyphens may be underscores, and the hyphen may
be missing. -/
def ofName? (name : String) : Option DiffPolicy :=
  match name.map fun char => if char == '_' then '-' else char.toLower with
  | "broad" => some .broad
  | "new-local" => some .newLocal
  | "newlocal" => some .newLocal
  | "single-local" => some .singleLocal
  | "singlelocal" => some .singleLocal
  | _ => none

def unknownMessage (name : String) : String :=
  "Unknown diff policy '" ++ name ++ "' (expected broad, new-local or single-local)"

def toJson (policy : DiffPolicy) : Json := .ofString policy.label

def ofJson? (value : Json) : Option DiffPolicy := (value.choice? Json.isNull).bind ofLabel?

end DiffPolicy

abbrev RelationSet := SortedSet Relation

namespace RelationSet

def broad (before after : RelationSet) : RelationSet := after.filter fun relation => relation ∉ before

def localDomains (relations : RelationSet) : List Domain :=
  (relations.toList.flatMap fun relation => [relation.source, relation.target]).filter Domain.isLocal

def localRelations (relations : RelationSet) : List Relation :=
  (relations.toList.filter fun relation => relation.source.isLocal || relation.target.isLocal).map
    Relation.generalizeLocals

/-- Whether a relation was there before, when the local domains that were there before count as one. -/
def isExplained (before : RelationSet) (relation : Relation) : Bool :=
  let known := before.localDomains
  before.localRelations.contains (relation.map fun domain =>
    if known.contains domain then domain.generalizeLocal else domain)

/-- The relations that local code which was there before does not explain. Their local domains become
new local code. -/
def newLocal (before after : RelationSet) : RelationSet :=
  (SortedSet.map Relation.generalizeNew (after.filter fun relation =>
    relation ∉ before && !before.isExplained relation)).filter fun relation => relation ∉ before

def isInternal (relation : Relation) : Bool :=
  let pair (first second : Domain) := first.isLocal && (second.isLocal || second == Domain.caller)
  pair relation.source relation.target || pair relation.target relation.source

/-- Without the relations that join a local domain with another one or with the caller. -/
def withoutInternal (relations : RelationSet) : RelationSet :=
  relations.filter fun relation => !isInternal relation

def singleLocal (before after : RelationSet) : RelationSet :=
  (broad (before.map Relation.generalizeLocals) (after.map Relation.generalizeLocals)).withoutInternal

def flagged (policy : DiffPolicy) (before after : RelationSet) : RelationSet :=
  match policy with
  | .broad => broad before after
  | .newLocal => newLocal before after
  | .singleLocal => singleLocal before after

end RelationSet

inductive DiffError where
  | schemaMismatch (before after : UInt32)
deriving DecidableEq, Repr

def DiffError.message : DiffError → String
  | .schemaMismatch before after =>
    "Cannot diff relation maps with different schema versions (before: " ++ before.toNat.repr ++
      ", after: " ++ after.toNat.repr ++ ")"

def RelationMap.diff (policy : DiffPolicy) (before after : RelationMap) : Except DiffError RelationSet :=
  if before.schemaVersion = after.schemaVersion then
    .ok (RelationSet.flagged policy before.relationSet after.relationSet)
  else .error (.schemaMismatch before.schemaVersion after.schemaVersion)

end DomainFlow
