import DomainFlow.Proofs.Extraction
import DomainFlow.Proofs.NodeChange
import DomainFlow.Proofs.Places

/-!
Other texts in place of the texts of objects. Where a text with characters gives way to another text with
characters, nothing that extraction looks at changes: the document is accepted or refused as before, and
the data-flow graph is the earlier one with the other texts in its objects.
-/
namespace DomainFlow

/-- What to put in place of the texts of objects. A text with characters never becomes the empty one. -/
structure Recoding where
  change : NodeId → String → String
  nonempty : ∀ id text, text ≠ "" → change id text ≠ ""

namespace Recoding

/-- Other literals of an object: a text with characters changes, and nothing else does. -/
def literal (recoding : Recoding) (id : NodeId) : Literal → Literal
  | .text value => .text (if value = "" then value else recoding.change id value)
  | literal => literal

def object (recoding : Recoding) (object : ObjectRecord) : ObjectRecord :=
  { object with code := object.code.map (recoding.literal object.id) }

def node (recoding : Recoding) : NodeRecord → NodeRecord
  | .object object => .object (recoding.object object)
  | node => node

def document (recoding : Recoding) (document : Document) : Document :=
  { document with nodes := document.nodes.map recoding.node }

def graph (recoding : Recoding) (graph : ObjectGraph) : ObjectGraph :=
  { graph with nodes := graph.nodes.map recoding.node }

def flowObject (recoding : Recoding) (id : NodeId) (object : FlowObject) : FlowObject :=
  { object with code := object.code.map (recoding.literal id) }

def flowContent (recoding : Recoding) (id : NodeId) : FlowContent → FlowContent
  | .object object => .object (recoding.flowObject id object)
  | content => content

def flowNode (recoding : Recoding) (node : FlowNode) : FlowNode :=
  { node with content := recoding.flowContent node.id node.content }

def flow (recoding : Recoding) (flow : DataFlowGraph) : DataFlowGraph :=
  { flow with nodes := flow.nodes.map recoding.flowNode }

variable {recoding : Recoding}

section Nodes
variable {record : NodeRecord} {nodes : List NodeRecord} {id : NodeId}

@[simp] theorem isTruthy_literal {literal : Literal} : (recoding.literal id literal).isTruthy = literal.isTruthy := by
  cases literal with
  | text value =>
    by_cases empty : value = ""
    · simp [Recoding.literal, empty]
    · have before : value.isEmpty = false := String.isEmpty_eq_false_iff.mpr empty
      have after : (recoding.change id value).isEmpty = false :=
        String.isEmpty_eq_false_iff.mpr (recoding.nonempty id value empty)
      simp [Recoding.literal, Literal.isTruthy, empty, before, after]
  | _ => rfl

@[simp] theorem isWildcard_literal {literal : Literal} :
    (recoding.literal id literal).isWildcard = literal.isWildcard := by
  cases literal with
  | text value => simp [Recoding.literal, Literal.isWildcard, Literal.wildcard]
  | _ => rfl

@[simp] theorem id_node : (recoding.node record).id = record.id := by
  cases record <;> rfl

@[simp] theorem kind_node : (recoding.node record).kind = record.kind := by
  cases record <;> rfl

@[simp] theorem ast?_node : (recoding.node record).ast? = record.ast? := by
  cases record <;> rfl

@[simp] theorem name?_node : (recoding.node record).name? = record.name? := by
  cases record <;> rfl

@[simp] theorem object?_node : (recoding.node record).object? = record.object?.map recoding.object := by
  cases record <;> rfl

theorem keepsRules : ObjectGraph.KeepsRules recoding.node where
  id _ := id_node
  kind _ := kind_node
  moduleExports _ := congrArg (Option.map AstRecord.moduleExports) ast?_node

theorem filterMap_ast? : (nodes.map recoding.node).filterMap NodeRecord.ast? = nodes.filterMap NodeRecord.ast? := by
  simp [List.filterMap_map]

end Nodes

section Graphs
variable {graph : ObjectGraph} {id : NodeId}

@[simp] theorem node?_graph : (recoding.graph graph).node? id = (graph.node? id).map recoding.node :=
  ObjectGraph.node?_mapNodes keepsRules

@[simp] theorem ids_graph : (recoding.graph graph).ids = graph.ids := ObjectGraph.ids_mapNodes keepsRules

@[simp] theorem ast?_graph : (recoding.graph graph).ast? id = graph.ast? id := by
  simp only [ObjectGraph.ast?, node?_graph]
  cases graph.node? id <;> simp

@[simp] theorem object?_graph : (recoding.graph graph).object? id = (graph.object? id).map recoding.object := by
  simp only [ObjectGraph.object?, node?_graph]
  cases graph.node? id <;> simp

@[simp] theorem propertyName?_graph : (recoding.graph graph).propertyName? id = graph.propertyName? id := by
  simp only [ObjectGraph.propertyName?, node?_graph]
  cases graph.node? id <;> simp

/-- A document is accepted or refused whatever texts its objects have. -/
theorem ofDocument_document {document : Document} :
    ObjectGraph.ofDocument (recoding.document document) = (ObjectGraph.ofDocument document).map recoding.graph :=
  ObjectGraph.ofDocument_map keepsRules

theorem samePlaces : (recoding.graph graph).SamePlaces graph where
  context := rfl
  ids := ids_graph
  places := filterMap_ast?
  ast _ := ast?_graph
  parents _ := rfl
  definitions _ := rfl
  callees _ := rfl

theorem callReturns_graph : (recoding.graph graph).callReturns = graph.callReturns := by
  rw [ObjectGraph.callReturns, samePlaces.callSites_eq]
  rfl

@[simp] theorem hasKnownLiteral_object {object : ObjectRecord} :
    ObjectGraph.hasKnownLiteral (recoding.object object) = ObjectGraph.hasKnownLiteral object := by
  obtain ⟨_, _, code⟩ := object
  cases code <;> simp [ObjectGraph.hasKnownLiteral, Recoding.object]

@[simp] theorem hasWildcard_object {object : ObjectRecord} :
    ObjectGraph.hasWildcard (recoding.object object) = ObjectGraph.hasWildcard object := by
  obtain ⟨_, _, code⟩ := object
  cases code <;> simp [ObjectGraph.hasWildcard, Recoding.object]

/-- The type of an object does not depend on which text it has. -/
theorem classify_graph {returns : List NodeId} :
    (recoding.graph graph).classify returns id = graph.classify returns id := by
  have byDefinition : ∀ object place ast, (recoding.graph graph).typeByDefinition (recoding.object object) place ast =
      graph.typeByDefinition object place ast := by
    intro object place ast
    simp only [ObjectGraph.typeByDefinition, hasKnownLiteral_object, hasWildcard_object]
    rfl
  simp only [ObjectGraph.classify, object?_graph, samePlaces.sameOrigins.usableDefinition?_eq]
  cases graph.object? id with
  | none => rfl
  | some object =>
    simp only [Option.map_some, byDefinition]
    rfl

theorem exportedObjects_graph {listed : List NodeId} :
    (recoding.graph graph).exportedObjects listed = graph.exportedObjects listed := by
  have objects : (recoding.graph graph).nodes.filterMap NodeRecord.object? =
      (graph.nodes.filterMap NodeRecord.object?).map recoding.object := by
    rw [Recoding.graph, List.filterMap_map, List.map_filterMap]
    exact congrArg (graph.nodes.filterMap ·) (funext fun _ => object?_node)
  rw [ObjectGraph.exportedObjects, objects, List.filter_map, List.map_map]
  rfl

theorem exportFault?_graph : (recoding.graph graph).exportFault? id = graph.exportFault? id := by
  simp only [ObjectGraph.exportFault?, node?_graph]
  cases graph.node? id <;> simp

theorem seeds_graph {listed : List NodeId} : (recoding.graph graph).seeds listed = graph.seeds listed := by
  have faults : (recoding.graph graph).exportFault? = graph.exportFault? := funext fun _ => exportFault?_graph
  rw [ObjectGraph.seeds, faults, callReturns_graph, exportedObjects_graph]
  rfl

end Graphs

section Flows
variable {graph : ObjectGraph} {seeds : Seeds} {flow : DataFlowGraph} {id : NodeId}

theorem flowNode_node {record : NodeRecord} :
    (recoding.graph graph).flowNode seeds (recoding.node record) = recoding.flowNode (graph.flowNode seeds record) := by
  cases record with
  | ast ast => exact samePlaces.sameOrigins.flowAst_eq
  | object object =>
    have sameType : (recoding.graph graph).classify seeds.callReturns object.id =
        graph.classify seeds.callReturns object.id := classify_graph
    simp only [node, ObjectGraph.flowNode, ObjectGraph.flowObject, Recoding.flowNode, flowContent, Recoding.object]
    rw [sameType]
    rfl
  | _ => rfl

theorem flowSteps_graph : (recoding.graph graph).flowSteps = graph.flowSteps := by
  funext id
  simp only [ObjectGraph.flowSteps, propertyName?_graph]
  rfl

theorem flowOrder_graph : (recoding.graph graph).flowOrder seeds = graph.flowOrder seeds := by
  have next : (recoding.graph graph).flowNext = graph.flowNext := by
    funext id
    rw [ObjectGraph.flowNext, flowSteps_graph, ObjectGraph.flowNext]
  rw [ObjectGraph.flowOrder, next, ids_graph, ObjectGraph.flowOrder]

@[simp] theorem ids_flow : (recoding.flow flow).ids = flow.ids := by
  simp [DataFlowGraph.ids, Recoding.flow, Function.comp_def, flowNode]

theorem flow_addNode {node : FlowNode} :
    (recoding.flow flow).addNode (recoding.flowNode node) = recoding.flow (flow.addNode node) := by
  simp only [DataFlowGraph.addNode, ids_flow]
  by_cases present : node.id ∈ flow.ids
  · simp [present, flowNode]
  · simp [present, flowNode, Recoding.flow]

theorem flow_addEdge {edge : FlowEdge} : (recoding.flow flow).addEdge edge = recoding.flow (flow.addEdge edge) := by
  unfold DataFlowGraph.addEdge
  by_cases present : edge ∈ flow.edges
  · simp [present, Recoding.flow]
  · simp [present, Recoding.flow]

theorem flow_addFlowNode :
    (recoding.graph graph).addFlowNode seeds (recoding.flow flow) id = recoding.flow (graph.addFlowNode seeds flow id) := by
  simp only [ObjectGraph.addFlowNode, node?_graph]
  cases graph.node? id with
  | none => rfl
  | some record => simp only [Option.map_some, flowNode_node, flow_addNode]

theorem flow_addFlowEdge {edge : FlowEdge} : (recoding.graph graph).addFlowEdge seeds (recoding.flow flow) edge =
    recoding.flow (graph.addFlowEdge seeds flow edge) := by
  simp only [ObjectGraph.addFlowEdge, flow_addFlowNode, flow_addEdge]

theorem flow_placesOnly : (recoding.graph graph).placesOnly = recoding.flow graph.placesOnly := by
  have same : (recoding.graph graph).SamePlaces graph := samePlaces
  have nothing : recoding.flow .empty = .empty := rfl
  rw [ObjectGraph.placesOnly, same.places, ObjectGraph.placesOnly, ← List.foldl_hom recoding.flow fun _ _ => flow_addEdge]
  congr 1
  rw [← nothing]
  refine List.foldl_hom recoding.flow fun flow ast => ?_
  rw [← flow_addNode, same.sameOrigins.flowAst_eq]
  rfl

/-- The data-flow graph is the earlier one with the other texts. -/
theorem extractFrom_graph : (recoding.graph graph).extractFrom seeds = recoding.flow (graph.extractFrom seeds) := by
  rw [ObjectGraph.extractFrom, flowOrder_graph, flowSteps_graph, samePlaces.exportEdges_eq, flow_placesOnly,
    List.foldl_hom recoding.flow fun _ _ => flow_addFlowNode, List.foldl_hom recoding.flow fun _ _ => flow_addFlowEdge]
  rfl

theorem node?_flow : (recoding.flow flow).node? id = (flow.node? id).map recoding.flowNode := by
  rw [DataFlowGraph.node?, Recoding.flow, List.find?_map]
  rfl

theorem object?_flowNode {node : FlowNode} :
    (recoding.flowNode node).object? = node.object?.map (recoding.flowObject node.id) := by
  obtain ⟨id, content⟩ := node
  cases content <;> rfl

theorem ast?_flowNode {node : FlowNode} : (recoding.flowNode node).ast? = node.ast? := by
  obtain ⟨id, content⟩ := node
  cases content <;> rfl

theorem object?_flow : (recoding.flow flow).object? id = (flow.object? id).map (recoding.flowObject id) := by
  rw [DataFlowGraph.object?, DataFlowGraph.object?, node?_flow]
  cases found : flow.node? id with
  | none => rfl
  | some node =>
    rw [Option.map_some, Option.bind_some, object?_flowNode, DataFlowGraph.id_of_node? found]
    rfl

theorem definition?_flow : (recoding.flow flow).definition? id = flow.definition? id := by
  have asts : ∀ place, ((recoding.flow flow).node? place).bind FlowNode.ast? = (flow.node? place).bind FlowNode.ast? := by
    intro place
    rw [node?_flow]
    cases flow.node? place with
    | none => rfl
    | some node => exact ast?_flowNode
  simp only [DataFlowGraph.definition?, Option.bind_assoc, asts]
  rfl

end Flows

end Recoding

end DomainFlow
