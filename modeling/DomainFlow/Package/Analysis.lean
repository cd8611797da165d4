import DomainFlow.DataFlow.Extract
import DomainFlow.Package.Metadata
import DomainFlow.Relation.Build

/-!
The analysis of one version of a package, from its object graph to its relation map, and the places in
the source that belong to the nodes of the map.
-/
namespace DomainFlow

/-- How a version is analysed: which directory holds modeled builtin modules, and how far domains are
merged. -/
structure AnalysisOptions where
  builtinsDirectory : Option String
  consolidate : Bool
  aggregateLocals : Bool
deriving DecidableEq

namespace AnalysisOptions

/-- No builtin modules, and nothing is merged. -/
def standard : AnalysisOptions := ⟨none, false, false⟩

def merge (options : AnalysisOptions) (map : RelationMap) : RelationMap :=
  let consolidated := if options.consolidate then map.consolidate else map
  if options.aggregateLocals then consolidated.aggregateLocals else consolidated

end AnalysisOptions

structure VersionAnalysis where
  flow : DataFlowGraph
  relations : RelationMap
  builtinsDirectory : Option String
deriving DecidableEq

namespace VersionAnalysis

/-- The relation map of a data-flow graph, before domains are merged. -/
def relationsOf (flow : DataFlowGraph) (builtinsDirectory : Option String) (scripts : Option LifecycleScripts) :
    RelationMap :=
  let domains := DirectDomains.assign flow builtinsDirectory
  flow.relationMap domains (Propagation.spread flow domains) scripts

def run (options : AnalysisOptions) (graph : ObjectGraph) (metadata : Metadata) :
    Except AnalysisError VersionAnalysis :=
  (graph.extract metadata.exportedObjects).map fun flow =>
    ⟨flow, options.merge (relationsOf flow options.builtinsDirectory metadata.lifecycleScripts),
      options.builtinsDirectory⟩

/-- The text of a place. Files of modeled builtin modules are named as such. -/
def placeText? (analysis : VersionAnalysis) (ast : FlowAst) : Option String :=
  ast.fileName.map fun file =>
    let location := ast.location.getD ""
    match analysis.builtinsDirectory.bind (Path.strip? file) with
    | some inner => "JS-Modeled Builtin Package: " ++ inner ++ ":" ++ location
    | none => file ++ ":" ++ location

/-- The text of the place of a node, or of the builtin that it stands for. -/
def codeLocation? (analysis : VersionAnalysis) (id : NodeId) : Option String :=
  (analysis.flow.node? id).bind fun node =>
    match node.content with
    | .ast ast => analysis.placeText? ast
    | .object object =>
      match object.builtinName with
      | some name => some ("Builtin object: " ++ name)
      | none => (analysis.flow.definition? id).bind analysis.placeText?

def codeLocations (analysis : VersionAnalysis) : List (NodeId × String) :=
  analysis.relations.witnessNodes.toList.filterMap fun id =>
    (analysis.codeLocation? id).map fun location => (id, location)

end VersionAnalysis

end DomainFlow
