import DomainFlow.Json.Printer
import DomainFlow.Relation.Diff
import DomainFlow.Package.Flow

/-!
Reports for other programs, as JSON.
-/
namespace DomainFlow

/-- Where a report comes from: the directory in which the program runs, and what was analysed. -/
structure ReportOrigin where
  workingDirectory : String
  analyzedPath : String

abbrev Locations := List (NodeId × String)

namespace JsonReport

def programVersion : String := "0.1.0"

def formatVersion : String := "1.0"

def header (origin : ReportOrigin) : List (String × Json) :=
  [("version", .ofString formatVersion), ("metadata", .ofMembers [
    ("trustflow_version", .ofString programVersion),
    ("working_directory", .ofString origin.workingDirectory),
    ("analyzed_path", .ofString origin.analyzedPath)])]

def node (locations : Locations) (id : NodeId) : Json :=
  .ofMembers (("id", id.toJson) :: match locations.lookup id with
    | some location => [("location", .ofString location)]
    | none => [])

def witness (locations : Locations) (witness : Witness) : Json :=
  .ofMembers [("path", .array (witness.path.map (node locations))),
    ("prop_path", .array (witness.propertyPath.map (node locations)))]

def relation (locations : Locations) (relation : Relation) (witnesses : List Witness) : Json :=
  .ofMembers ([("source", .ofString relation.source), ("target", .ofString relation.target)] ++
    match witnesses with
    | [] => []
    | _ => [("witnesses", .array (witnesses.map (witness locations)))])

def relations (origin : ReportOrigin) (locations : Locations) (map : RelationMap) : String :=
  (Json.ofMembers (header origin ++ [("schema_version", .ofNat map.schemaVersion.toNat),
    ("total_relations", .ofNat map.size),
    ("relations", .array (map.relations.entries.map fun entry =>
      relation locations entry.1 entry.2.toList))])).pretty

def flagged (origin : ReportOrigin) (policy : DiffPolicy) (flagged : RelationSet) : String :=
  (Json.ofMembers (header origin ++ [("policy", .ofString policy.label),
    ("total_flagged", .ofNat flagged.size),
    ("flagged", .array (flagged.toList.map fun new => relation [] new []))])).pretty

def crossResult (package : String) (diff : Option CrossDiff) : Json :=
  let names (part : CrossDiff → SortedSet String) : Json :=
    .array (((diff.map fun diff => (part diff).toList).getD []).map .ofString)
  .ofMembers [("package", .ofString package), ("analyzed", .bool diff.isSome),
    ("static_data", names CrossDiff.staticData), ("caller_input", names CrossDiff.callerInput)]

def cross (origin : ReportOrigin) (results : List (String × Option CrossDiff)) : String :=
  (Json.ofMembers (header origin ++ [("results", .array (results.map fun (package, diff) =>
    crossResult package diff))])).pretty

end JsonReport

end DomainFlow
