import DomainFlow.Json.Decode
import DomainFlow.Json.Printer
import DomainFlow.Json.Reader
import DomainFlow.Relation.Map

/-!
Relation maps as JSON: the relations in increasing order, each with its witnesses in increasing order.
A map is read from relations in any order, and a relation may occur several times.
-/
namespace DomainFlow

namespace Witness

def toJson (witness : Witness) : Json :=
  .ofMembers [("path", .array (witness.path.map NodeId.toJson)),
    ("prop_path", .array (witness.propertyPath.map NodeId.toJson))]

def ofJson? (value : Json) : Option Witness := do
  match ← value.fields? ["path", "prop_path"] with
  | [path, propertyPath] =>
    return ⟨← Json.required? (Json.list? Json.nat64?) path,
      ← Json.required? (Json.list? Json.nat64?) propertyPath⟩
  | _ => failure

end Witness

namespace RelationMap

def entryToJson (relation : Relation) (witnesses : SortedSet Witness) : Json :=
  .ofMembers [("source", .ofString relation.source), ("target", .ofString relation.target),
    ("witnesses", .array (witnesses.toList.map Witness.toJson))]

def entryOfJson? (value : Json) : Option (Relation × List Witness) := do
  match ← value.fields? ["source", "target", "witnesses"] with
  | [source, target, witnesses] =>
    return (⟨← Json.required? Json.text? source, ← Json.required? Json.text? target⟩,
      ← Json.defaulted? [] (Json.list? Witness.ofJson?) witnesses)
  | _ => failure

def toJson (map : RelationMap) : Json :=
  .ofMembers [("schema_version", .ofNat map.schemaVersion.toNat),
    ("entries", .array (map.relations.entries.map fun entry => entryToJson entry.1 entry.2))]

def ofEntries (schemaVersion : UInt32) (entries : List (Relation × List Witness)) : RelationMap :=
  entries.foldl (fun map entry => map.insertAll entry.1 (.ofList entry.2)) ⟨schemaVersion, .empty⟩

def ofJson? (value : Json) : Option RelationMap := do
  match ← value.fields? ["schema_version", "entries"] with
  | [schemaVersion, entries] =>
    return ofEntries (← Json.required? Json.nat32? schemaVersion)
      (← Json.defaulted? [] (Json.list? entryOfJson?) entries)
  | _ => failure

def text (map : RelationMap) : String := map.toJson.compact

def read? (text : String) : Option RelationMap := (Json.read? text).bind ofJson?

end RelationMap

end DomainFlow
