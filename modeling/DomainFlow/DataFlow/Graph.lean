import DomainFlow.Graph.Kind
import DomainFlow.Graph.Literal

/-!
Data-flow graphs: the part of an object graph that matters for the flow of data. Its nodes are places
in the source and objects, and its edges say how data gets from one to another. No two nodes have the
same number and no edge occurs twice.
-/
namespace DomainFlow

inductive FlowKind where
  | contributesTo
  | funcObjToRetVal
  | parentToChild
  | astRequireToObj
  | objToAst
  | parentOf
  | astToModuleExport
deriving DecidableEq, Repr

def FlowKind.label : FlowKind → String
  | .contributesTo => "CONTRIBUTES_TO"
  | .funcObjToRetVal => "FUNC_OBJ_TO_RET_VAL"
  | .parentToChild => "PARENT_TO_CHILD"
  | .astRequireToObj => "AST_REQUIRE_TO_OBJ"
  | .objToAst => "OBJ_TO_AST"
  | .parentOf => "PARENT_OF"
  | .astToModuleExport => "AST_TO_MODULE_EXPORT"

structure FlowAst where
  type : String
  code : Option Literal
  childNumber : Option Int64
  nearestFunction : Option UInt64
  location : Option String
  docComment : Option String
  isArtificial : Bool
  fileName : Option String
deriving DecidableEq

structure FlowObject where
  valueType : Option String
  code : Option Literal
  name : Option String
  definedIn : Option NodeId
  isExported : Bool
  isTainted : Bool
  trustDomain : Option String
  nativeFunction : Option String
  objectType : ObjectType
  builtinName : Option String
deriving DecidableEq

namespace FlowObject

def isBuiltin (object : FlowObject) : Bool := object.builtinName.isSome || object.objectType == .builtin

def moduleLoader : String := "handle_require"

def isModuleLoader (object : FlowObject) : Bool := object.nativeFunction == some moduleLoader

end FlowObject

inductive FlowContent where
  | ast (ast : FlowAst)
  | object (object : FlowObject)
deriving DecidableEq

structure FlowNode where
  id : NodeId
  content : FlowContent
deriving DecidableEq

namespace FlowNode

def ast? (node : FlowNode) : Option FlowAst :=
  match node.content with
  | .ast ast => some ast
  | .object _ => none

def object? (node : FlowNode) : Option FlowObject :=
  match node.content with
  | .ast _ => none
  | .object object => some object

def isBuiltin (node : FlowNode) : Bool := node.object?.any FlowObject.isBuiltin

end FlowNode

/-- An edge of a data-flow graph. The label is the name of a property or of a module. -/
structure FlowEdge where
  source : NodeId
  target : NodeId
  kind : FlowKind
  label : Option String
deriving DecidableEq

/-- The nodes and edges of a data-flow graph, in the order in which they were added. -/
structure DataFlowGraph where
  nodes : List FlowNode
  edges : List FlowEdge
deriving DecidableEq

namespace DataFlowGraph

def empty : DataFlowGraph := ⟨[], []⟩

def ids (graph : DataFlowGraph) : List NodeId := graph.nodes.map FlowNode.id

def node? (graph : DataFlowGraph) (id : NodeId) : Option FlowNode :=
  graph.nodes.find? fun node => node.id == id

def object? (graph : DataFlowGraph) (id : NodeId) : Option FlowObject :=
  (graph.node? id).bind FlowNode.object?

def isBuiltin (graph : DataFlowGraph) (id : NodeId) : Bool := (graph.node? id).any FlowNode.isBuiltin

def objects (graph : DataFlowGraph) : List (NodeId × FlowObject) :=
  graph.nodes.filterMap fun node => node.object?.map fun object => (node.id, object)

/-- The edges that leave a node, with their positions among all edges. -/
def outEdges (graph : DataFlowGraph) (id : NodeId) : List (FlowEdge × Nat) :=
  graph.edges.zipIdx.filter fun entry => entry.1.source == id

def inEdges (graph : DataFlowGraph) (id : NodeId) : List (FlowEdge × Nat) :=
  graph.edges.zipIdx.filter fun entry => entry.1.target == id

def definition? (graph : DataFlowGraph) (id : NodeId) : Option FlowAst :=
  ((graph.edges.find? fun edge => edge.source == id && edge.kind == .objToAst).bind fun edge =>
    graph.node? edge.target).bind FlowNode.ast?

def addNode (graph : DataFlowGraph) (node : FlowNode) : DataFlowGraph :=
  if node.id ∈ graph.ids then graph else { graph with nodes := graph.nodes ++ [node] }

def addEdge (graph : DataFlowGraph) (edge : FlowEdge) : DataFlowGraph :=
  if edge ∈ graph.edges then graph else { graph with edges := graph.edges ++ [edge] }

end DataFlowGraph

end DomainFlow
