import DomainFlow.Traversal
import DomainFlow.Relation.Json

/-!
The flow of data between packages. The relation maps of a package and of the packages that it depends on
are joined to one graph. Comparing what the data of the root package can reach in two versions shows the
flows that exist only through a changed dependency.
-/
namespace DomainFlow

/-- The relation maps of a version of a package and of its dependencies, and the dependencies that have
none. -/
structure VersionData where
  data : SortedMap String RelationMap
  notIncluded : List String
deriving DecidableEq

structure VersionPair where
  packageName : String
  before : VersionData
  after : VersionData
deriving DecidableEq

/-- Names that are never ends of a flow, and packages whose relation maps are not used. -/
structure CrossOptions where
  excluded : List String
  alwaysExclude : List String
deriving DecidableEq

def CrossOptions.standard : CrossOptions := ⟨["util"], ["jquery", "underscore", "lodash"]⟩

/-- Names and the flows between them, in the order in which they were added. -/
structure PackageFlow where
  names : List String
  hops : List (String × String)
deriving DecidableEq

namespace PackageFlow

def empty : PackageFlow := ⟨[], []⟩

def staticData (root : String) : String := root ++ ":static_data"

def callerInput (root : String) : String := root ++ ":caller_input"

def addName (flow : PackageFlow) (name : String) : PackageFlow :=
  if name ∈ flow.names then flow else { flow with names := flow.names ++ [name] }

/-- Adds a flow and its ends, unless they are there. -/
def addHop (flow : PackageFlow) (hop : String × String) : PackageFlow :=
  let named := (flow.addName hop.1).addName hop.2
  if hop ∈ named.hops then named else { named with hops := named.hops ++ [hop] }

/-- Whether a domain is the border of a package: its own code or its caller. -/
def isBorder (domain : Domain) : Bool := domain == Domain.localCode || domain == Domain.caller

def rootName (root : String) (domain : Domain) : String :=
  if domain == Domain.localCode then staticData root
  else if domain == Domain.caller then callerInput root
  else domain

/-- The flow that a relation of a package stands for. In a dependency, the border stands for the
dependency itself. -/
def hop? (root : String) (excluded : List String) (package : String) (relation : Relation) :
    Option (String × String) :=
  if excluded.contains relation.source || excluded.contains relation.target then none
  else if isBorder relation.source && isBorder relation.target then none
  else if package == root then some (rootName root relation.source, rootName root relation.target)
  else if isBorder relation.source then some (package, relation.target)
  else if isBorder relation.target then some (relation.source, package)
  else some (relation.source, relation.target)

def packageHops (root : String) (excluded : List String) (package : String) (map : RelationMap) :
    List (String × String) :=
  (map.relationSet.map Relation.generalizeLocals).toList.filterMap (hop? root excluded package)

/-- The flow of a version. Relation maps of skipped and of excluded packages are not used. -/
def ofData (data : SortedMap String RelationMap) (root : String) (skipped excluded : List String) : PackageFlow :=
  let hops := (data.entries.filter fun entry =>
    !(skipped.contains entry.1 || excluded.contains entry.1)).flatMap fun entry =>
      packageHops root excluded entry.1 entry.2
  hops.foldl addHop ((empty.addName (staticData root)).addName (callerInput root))

def targets (flow : PackageFlow) (name : String) : List String :=
  (flow.hops.filter fun hop => hop.1 == name).map Prod.snd

/-- Everything that can be reached from a name, the name included. A name that is not there reaches
nothing. -/
def reachable (flow : PackageFlow) (start : String) : SortedSet String :=
  .ofList (depthFirst flow.targets flow.names [start])

def newlyReachable (before after : PackageFlow) (start : String) : SortedSet String :=
  (after.reachable start).filter fun name => name ∉ before.reachable start

end PackageFlow

structure CrossDiff where
  staticData : SortedSet String
  callerInput : SortedSet String
deriving DecidableEq

def CrossDiff.isEmpty (diff : CrossDiff) : Bool := diff.staticData.isEmpty && diff.callerInput.isEmpty

namespace VersionPair

/-- The packages whose relation maps are used in neither version. -/
def skippedPackages (pair : VersionPair) (options : CrossOptions) : SortedSet String :=
  .ofList (pair.before.notIncluded ++ pair.after.notIncluded ++ options.excluded ++ options.alwaysExclude)

/-- What the data of the package can newly reach, if both versions have the package. -/
def crossDiff? (pair : VersionPair) (options : CrossOptions) : Option CrossDiff :=
  let root := pair.packageName
  if pair.before.data.contains root && pair.after.data.contains root then
    let skipped := (pair.skippedPackages options).toList
    let before := PackageFlow.ofData pair.before.data root skipped options.excluded
    let after := PackageFlow.ofData pair.after.data root skipped options.excluded
    some ⟨before.newlyReachable after (PackageFlow.staticData root),
      before.newlyReachable after (PackageFlow.callerInput root)⟩
  else none

end VersionPair

namespace VersionData

def empty : VersionData := ⟨.empty, []⟩

def packageOfJson? (member : QuotedText × Json) : Option (String × RelationMap) := do
  return (← member.1.text?, ← RelationMap.ofJson? member.2)

def dataOfJson? : Json → Option (SortedMap String RelationMap)
  | .object members => (members.mapM packageOfJson?).map SortedMap.ofList
  | _ => none

/-- Reads the data of a version. Nothing of it has to be there. -/
def ofJson? (value : Json) : Option VersionData := do
  match ← value.fields? ["data", "not_included_dependencies"] with
  | [data, notIncluded] =>
    return ⟨← Json.defaulted? .empty dataOfJson? data,
      ← Json.defaulted? [] (Json.list? Json.text?) notIncluded⟩
  | _ => failure

end VersionData

namespace VersionPair

def ofJson? (value : Json) : Option VersionPair := do
  match ← value.fields? ["package_name", "before", "after"] with
  | [packageName, before, after] =>
    return ⟨← Json.required? Json.text? packageName, ← Json.required? VersionData.ofJson? before,
      ← Json.required? VersionData.ofJson? after⟩
  | _ => failure

end VersionPair

namespace CrossDiff

def toJson (diff : CrossDiff) : Json :=
  .ofMembers [("static_data", .array (diff.staticData.toList.map .ofString)),
    ("caller_input", .array (diff.callerInput.toList.map .ofString))]

def ofJson? (value : Json) : Option CrossDiff := do
  match ← value.fields? ["static_data", "caller_input"] with
  | [staticData, callerInput] =>
    return ⟨.ofList (← Json.required? (Json.list? Json.text?) staticData),
      .ofList (← Json.required? (Json.list? Json.text?) callerInput)⟩
  | _ => failure

end CrossDiff

end DomainFlow
