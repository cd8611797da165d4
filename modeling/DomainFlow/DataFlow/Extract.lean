import DomainFlow.Traversal
import DomainFlow.Graph.Classify
import DomainFlow.DataFlow.Graph

/-!
Data-flow graphs of object graphs. All places of the source are kept. Objects are kept if they are
seeds or can be met from one: results of calls that leave the package, exported objects and required
modules are seeds, and from an object one meets the objects that its value comes from, its properties
and the objects of which it is a property.
-/
namespace DomainFlow

structure Seeds where
  callReturns : List NodeId
  exported : List NodeId
  requireResults : List NodeId
deriving DecidableEq

def Seeds.toList (seeds : Seeds) : List NodeId := seeds.callReturns ++ seeds.exported ++ seeds.requireResults

/-- An edge to add, with the object to which the walk goes on, if any. -/
structure FlowStep where
  edge : FlowEdge
  next? : Option NodeId
deriving DecidableEq

namespace ObjectGraph

def exportFault? (graph : ObjectGraph) (id : NodeId) : Option AnalysisError :=
  match graph.node? id with
  | none => some (.unknownExportedObject id)
  | some node => if node.object?.isNone then some (.exportedNonObject id) else none

/-- The objects that are exported, because they are listed or because they say so. -/
def exportedObjects (graph : ObjectGraph) (listed : List NodeId) : List NodeId :=
  ((graph.nodes.filterMap NodeRecord.object?).filter fun object =>
    listed.contains object.id || object.isExported).map ObjectRecord.id

def requireResults (graph : ObjectGraph) : List NodeId :=
  (graph.edges.filter fun edge => edge.kind == .astRequireToObj).map EdgeRecord.target

def seeds (graph : ObjectGraph) (listed : List NodeId) : Except AnalysisError Seeds :=
  match listed.findSome? graph.exportFault? with
  | some error => .error error
  | none => .ok ⟨graph.callReturns, graph.exportedObjects listed, graph.requireResults⟩

/-- The type of a place, which always names that it is one. -/
def flowType (type : String) : String := if Text.contains type "AST" then type else "AST_" ++ type

def flowAst (graph : ObjectGraph) (ast : AstRecord) : FlowNode where
  id := ast.id
  content := .ast {
    type := flowType ast.type
    code := ast.code
    childNumber := ast.childNumber
    nearestFunction := ast.functionId
    location := ast.location
    docComment := ast.docComment
    isArtificial := ast.isArtificial
    fileName := (graph.sourceFile? ast.id).map graph.context.relativize }

/-- The node of an object. The result of a call that requires a module has a type of its own. -/
def flowObject (graph : ObjectGraph) (seeds : Seeds) (object : ObjectRecord) : FlowNode where
  id := object.id
  content := .object {
    valueType := object.valueType
    code := object.code
    name := object.name
    definedIn := object.definedIn
    isExported := seeds.exported.contains object.id
    isTainted := object.isTainted
    trustDomain := object.trustDomain
    nativeFunction := object.nativeFunction
    objectType :=
      if seeds.requireResults.contains object.id then .require
      else graph.classify seeds.callReturns object.id
    builtinName := graph.context.builtinName? object.id }

/-- The node of a name or scope, which is there only because a module exports it. -/
def flowStub (node : NodeRecord) : FlowNode where
  id := node.id
  content := .object {
    valueType := some node.kind.label
    code := none
    name := none
    definedIn := none
    isExported := false
    isTainted := false
    trustDomain := none
    nativeFunction := none
    objectType := .other
    builtinName := none }

def flowNode (graph : ObjectGraph) (seeds : Seeds) : NodeRecord → FlowNode
  | .ast ast => graph.flowAst ast
  | .object object => graph.flowObject seeds object
  | node => flowStub node

def incomingStep? (edge : EdgeRecord) : Option FlowStep :=
  match edge.kind with
  | .contributesTo | .funcObjToSymParam =>
    some ⟨⟨edge.source, edge.target, .contributesTo, none⟩, some edge.source⟩
  | .funcObjToRetVal => some ⟨⟨edge.source, edge.target, .funcObjToRetVal, none⟩, some edge.source⟩
  | .astRequireToObj => some ⟨⟨edge.source, edge.target, .astRequireToObj, edge.moduleName⟩, none⟩
  | _ => none

/-- What an object adds: where its value comes from, where it was created, its properties, and the
objects of which it is a property. -/
def flowSteps (graph : ObjectGraph) (id : NodeId) : List FlowStep :=
  (graph.inEdges id).filterMap incomingStep? ++
  (graph.outNeighbors id .objToAst).map (fun place => ⟨⟨id, place, .objToAst, none⟩, none⟩) ++
  (graph.properties id).map (fun (name, child) =>
    ⟨⟨id, child, .parentToChild, graph.propertyName? name⟩, some child⟩) ++
  (graph.parentObjects id).map (fun (parent, name) =>
    ⟨⟨parent, id, .parentToChild, graph.propertyName? name⟩, some parent⟩)

/-- The objects to which the walk goes on from an object. The last one found is the first one met. -/
def flowNext (graph : ObjectGraph) (id : NodeId) : List NodeId :=
  ((graph.flowSteps id).filterMap FlowStep.next?).reverse

/-- The objects that are met from the seeds, in order. The last seed is the first one met. -/
def flowOrder (graph : ObjectGraph) (seeds : Seeds) : List NodeId :=
  depthFirst graph.flowNext graph.ids seeds.toList.reverse

/-- The edges from the places that stand for modules to what the modules export. -/
def exportEdges (graph : ObjectGraph) : List FlowEdge :=
  (graph.nodes.filterMap NodeRecord.ast?).flatMap fun ast =>
    ast.moduleExports.map fun target => ⟨ast.id, target, .astToModuleExport, none⟩

def parentEdges (graph : ObjectGraph) : List FlowEdge :=
  (graph.edges.filter fun edge => edge.kind == .parentOf).map fun edge =>
    ⟨edge.source, edge.target, .parentOf, none⟩

def placesOnly (graph : ObjectGraph) : DataFlowGraph :=
  graph.parentEdges.foldl DataFlowGraph.addEdge
    ((graph.nodes.filterMap NodeRecord.ast?).foldl (fun flow ast => flow.addNode (graph.flowAst ast)) .empty)

def addFlowNode (graph : ObjectGraph) (seeds : Seeds) (flow : DataFlowGraph) (id : NodeId) :
    DataFlowGraph :=
  match graph.node? id with
  | none => flow
  | some node => flow.addNode (graph.flowNode seeds node)

/-- Adds an edge after the nodes that it joins. -/
def addFlowEdge (graph : ObjectGraph) (seeds : Seeds) (flow : DataFlowGraph) (edge : FlowEdge) :
    DataFlowGraph :=
  (graph.addFlowNode seeds (graph.addFlowNode seeds flow edge.source) edge.target).addEdge edge

def extractFrom (graph : ObjectGraph) (seeds : Seeds) : DataFlowGraph :=
  let seeded := seeds.toList.foldl (graph.addFlowNode seeds) graph.placesOnly
  let edges := (graph.flowOrder seeds).flatMap fun id => (graph.flowSteps id).map FlowStep.edge
  (edges ++ graph.exportEdges).foldl (graph.addFlowEdge seeds) seeded

/-- The data-flow graph of an object graph in which the listed objects are exported too. -/
def extract (graph : ObjectGraph) (listed : List NodeId) : Except AnalysisError DataFlowGraph :=
  (graph.seeds listed).map graph.extractFrom

end ObjectGraph

end DomainFlow
