import DomainFlow.Graph.Context
import DomainFlow.Graph.Error

/-!
Object graphs: documents whose rules have been checked. Nodes have different numbers, every edge joins
known nodes of the kinds that go with it, an object is created at one place at most, and a place
exports known nodes. Edges of other kinds are left out.
-/
namespace DomainFlow

structure ObjectGraph where
  context : Context
  nodes : List NodeRecord
  edges : List EdgeRecord
deriving DecidableEq

def findNode? (nodes : List NodeRecord) (id : NodeId) : Option NodeRecord :=
  nodes.find? fun node => node.id == id

namespace ObjectGraph

def node? (graph : ObjectGraph) (id : NodeId) : Option NodeRecord := findNode? graph.nodes id

def ast? (graph : ObjectGraph) (id : NodeId) : Option AstRecord := (graph.node? id).bind NodeRecord.ast?

def object? (graph : ObjectGraph) (id : NodeId) : Option ObjectRecord :=
  (graph.node? id).bind NodeRecord.object?

def ids (graph : ObjectGraph) : List NodeId := graph.nodes.map NodeRecord.id

def outEdges (graph : ObjectGraph) (id : NodeId) : List EdgeRecord :=
  graph.edges.filter fun edge => edge.source == id

def inEdges (graph : ObjectGraph) (id : NodeId) : List EdgeRecord :=
  graph.edges.filter fun edge => edge.target == id

def outNeighbors (graph : ObjectGraph) (id : NodeId) (kind : EdgeKind) : List NodeId :=
  ((graph.outEdges id).filter fun edge => edge.kind == kind).map EdgeRecord.target

def inNeighbors (graph : ObjectGraph) (id : NodeId) (kind : EdgeKind) : List NodeId :=
  ((graph.inEdges id).filter fun edge => edge.kind == kind).map EdgeRecord.source

/-- The first node whose number occurred before it. -/
def repeatedNode? (earlier : List NodeId) : List NodeRecord → Option NodeId
  | [] => none
  | node :: rest =>
    if node.id ∈ earlier then some node.id else repeatedNode? (node.id :: earlier) rest

/-- The rule that an edge breaks, if any. The number of the edge counts all edges of the document. -/
def edgeFault? (nodes : List NodeRecord) (edge : EdgeRecord) (index : Nat) : Option GraphError :=
  match edge.kind.endpoints? with
  | none => none
  | some (expectedSource, expectedTarget) =>
    match findNode? nodes edge.source with
    | none => some (.unknownNode index edge.kind edge.source)
    | some source =>
      match findNode? nodes edge.target with
      | none => some (.unknownNode index edge.kind edge.target)
      | some target =>
        if source.kind = expectedSource ∧ target.kind = expectedTarget then none
        else some (.edgeEndpoint index edge.kind edge.source edge.target expectedSource expectedTarget
          source.kind target.kind)

def nodeFault? (graph : ObjectGraph) : NodeRecord → Option GraphError
  | .object object =>
    let count := (graph.outNeighbors object.id .objToAst).length
    if 1 < count then some (.multipleDefinitions object.id count) else none
  | .ast ast =>
    (ast.moduleExports.find? fun target => (graph.node? target).isNone).map (.unknownExport ast.id)
  | _ => none

/-- The graph of a document, before its rules are checked. -/
def ofParts (document : Document) : ObjectGraph where
  context := ⟨document.namedBuiltins, document.lastBuiltinId, document.packageRoot⟩
  nodes := document.nodes
  edges := document.edges.filter fun edge => edge.kind != .other

/-- The first rule that a document breaks: repeated numbers come first, then faults of edges, then
faults of nodes. -/
def fault? (document : Document) : Option GraphError :=
  match repeatedNode? [] document.nodes with
  | some node => some (.duplicateNode node)
  | none =>
    match document.edges.zipIdx.findSome? fun (edge, index) => edgeFault? document.nodes edge index with
    | some error => some error
    | none => document.nodes.findSome? (nodeFault? (ofParts document))

def ofDocument (document : Document) : Except GraphError ObjectGraph :=
  match fault? document with
  | some error => .error error
  | none => .ok (ofParts document)

end ObjectGraph

end DomainFlow
