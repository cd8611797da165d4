import DomainFlow.Proofs.WellFormed
import DomainFlow.DataFlow.Extract

/-!
How a data-flow graph grows. Adding a node or an edge that is there changes nothing, so nodes keep
distinct numbers and no edge occurs twice. What is looked for among the edges is found as among the
edges that were offered, in their order.
-/
namespace DomainFlow

namespace FlowNode

theorem object?_eq_some_iff {node : FlowNode} {object : FlowObject} :
    node.object? = some object ↔ node.content = .object object := by
  unfold object?
  split <;> simp_all

theorem ast?_eq_some_iff {node : FlowNode} {ast : FlowAst} : node.ast? = some ast ↔ node.content = .ast ast := by
  unfold ast?
  split <;> simp_all

end FlowNode

namespace DataFlowGraph
variable {flow : DataFlowGraph} {node : FlowNode} {id : NodeId} {edge other : FlowEdge} {edges : List FlowEdge}

/-- The kinds of edges over which data or domains move. -/
def movingKinds : List FlowKind := [.contributesTo, .funcObjToRetVal, .parentToChild]

@[simp] theorem edges_addNode : (flow.addNode node).edges = flow.edges := by
  unfold addNode
  split <;> rfl

@[simp] theorem nodes_addEdge : (flow.addEdge edge).nodes = flow.nodes := by
  unfold addEdge
  split <;> rfl

@[simp] theorem ids_addEdge : (flow.addEdge edge).ids = flow.ids := by
  simp [ids]

@[simp] theorem mem_ids_addNode : id ∈ (flow.addNode node).ids ↔ id ∈ flow.ids ∨ id = node.id := by
  unfold addNode
  split
  next present =>
    constructor
    · exact Or.inl
    · intro either
      rcases either with member | rfl
      · exact member
      · exact present
  next absent => simp [ids]

theorem mem_nodes_of_mem_addNode {added : FlowNode} (member : added ∈ (flow.addNode node).nodes) :
    added ∈ flow.nodes ∨ added = node := by
  unfold addNode at member
  split at member
  · exact Or.inl member
  · simpa using member

theorem nodup_ids_addNode (distinct : flow.ids.Nodup) : (flow.addNode node).ids.Nodup := by
  unfold addNode
  split
  next present => exact distinct
  next absent =>
    simp only [ids, List.map_append, List.map_cons, List.map_nil]
    exact List.nodup_append.mpr ⟨distinct, by simp, fun first earlier second later same =>
      absent (List.mem_singleton.mp later ▸ same ▸ earlier)⟩

@[simp] theorem mem_edges_addEdge : other ∈ (flow.addEdge edge).edges ↔ other ∈ flow.edges ∨ other = edge := by
  unfold addEdge
  split
  next present =>
    constructor
    · exact Or.inl
    · intro either
      rcases either with member | rfl
      · exact member
      · exact present
  next absent => simp

theorem nodup_edges_addEdge (distinct : flow.edges.Nodup) : (flow.addEdge edge).edges.Nodup := by
  unfold addEdge
  split
  next present => exact distinct
  next absent =>
    exact List.nodup_append.mpr ⟨distinct, by simp, fun first earlier second later same =>
      absent (List.mem_singleton.mp later ▸ same ▸ earlier)⟩

@[simp] theorem mem_edges_foldl_addEdge :
    other ∈ (edges.foldl addEdge flow).edges ↔ other ∈ flow.edges ∨ other ∈ edges := by
  induction edges generalizing flow with
  | nil => simp
  | cons first rest ih =>
    rw [List.foldl_cons, ih, mem_edges_addEdge, List.mem_cons, or_assoc]

theorem nodup_edges_foldl_addEdge (distinct : flow.edges.Nodup) : (edges.foldl addEdge flow).edges.Nodup := by
  induction edges generalizing flow with
  | nil => exact distinct
  | cons first rest ih => exact ih (nodup_edges_addEdge distinct)

@[simp] theorem nodes_foldl_addEdge : (edges.foldl addEdge flow).nodes = flow.nodes := by
  induction edges generalizing flow with
  | nil => rfl
  | cons first rest ih => rw [List.foldl_cons, ih, nodes_addEdge]

/-- Which edges come to be depends on the edges alone. -/
theorem edges_foldl_addEdge_congr {first second : DataFlowGraph} (same : first.edges = second.edges) :
    (edges.foldl addEdge first).edges = (edges.foldl addEdge second).edges := by
  induction edges generalizing first second with
  | nil => exact same
  | cons head rest ih =>
    apply ih
    unfold addEdge
    rw [same]
    split
    · exact same
    · rfl

theorem find?_addEdge (test : FlowEdge → Bool) :
    (flow.addEdge edge).edges.find? test = (flow.edges ++ [edge]).find? test := by
  unfold addEdge
  split
  next present =>
    rw [List.find?_append]
    cases found : flow.edges.find? test with
    | some value => rfl
    | none =>
      have missed : ¬test edge = true := List.find?_eq_none.mp found edge present
      simp [missed]
  next absent => rfl

/-- Leaving out repeated edges does not change what is found first. -/
theorem find?_foldl_addEdge (test : FlowEdge → Bool) :
    (edges.foldl addEdge flow).edges.find? test = (flow.edges ++ edges).find? test := by
  induction edges generalizing flow with
  | nil => simp
  | cons first rest ih =>
    rw [List.foldl_cons, ih, List.find?_append, find?_addEdge, ← List.find?_append, List.append_assoc]
    rfl

theorem node?_eq_some_iff (distinct : flow.ids.Nodup) :
    flow.node? id = some node ↔ node ∈ flow.nodes ∧ node.id = id :=
  find?_key_eq_some_iff distinct

theorem mem_ids_iff : id ∈ flow.ids ↔ (flow.node? id).isSome := by
  simp [ids, node?]

theorem id_of_node? (found : flow.node? id = some node) : node.id = id := by
  simpa using List.find?_some found

theorem object?_eq_some_iff {object : FlowObject} :
    flow.object? id = some object ↔ ∃ node, flow.node? id = some node ∧ node.content = .object object := by
  simp [object?, Option.bind_eq_some_iff, FlowNode.object?_eq_some_iff]

theorem isBuiltin_eq_any : flow.isBuiltin id = (flow.object? id).any FlowObject.isBuiltin := by
  rw [isBuiltin, object?]
  cases flow.node? id <;> rfl

/-- The listed objects are those that are found by their numbers. -/
theorem mem_objects_iff (distinct : flow.ids.Nodup) {object : FlowObject} :
    (id, object) ∈ flow.objects ↔ flow.object? id = some object := by
  simp only [objects, List.mem_filterMap, Option.map_eq_some_iff, Prod.mk.injEq, object?_eq_some_iff,
    FlowNode.object?_eq_some_iff, node?_eq_some_iff distinct]
  constructor
  · intro isListed
    obtain ⟨node, member, _, content, same, rfl⟩ := isListed
    exact ⟨node, ⟨member, same⟩, content⟩
  · intro isFound
    obtain ⟨node, ⟨member, same⟩, content⟩ := isFound
    exact ⟨node, member, object, content, same, rfl⟩

end DataFlowGraph

end DomainFlow
