import DomainFlow.Proofs.Traversal
import DomainFlow.Proofs.FlowGraph

/-!
Extraction is exact. The objects from which edges are taken are the least set that contains the seeds
and is closed under where values come from, under properties and under the objects that have them. The
nodes of the data-flow graph are the places, these objects and what modules export besides; its edges
are those of the object graph around these objects, each once.
-/
namespace DomainFlow

namespace ObjectGraph
variable {graph : ObjectGraph} {listed : List NodeId} {seeds : Seeds} {flow : DataFlowGraph} {id : NodeId}

/-- The kinds of edges over which an object gets its value. -/
def valueKinds : List EdgeKind := [.contributesTo, .funcObjToRetVal, .funcObjToSymParam]

/-- The objects that extraction looks at, as the least set that the rules allow. -/
inductive Needed (graph : ObjectGraph) (listed : List NodeId) : NodeId → Prop where
  | callReturn {id : NodeId} : id ∈ graph.callReturns → Needed graph listed id
  | exported {id : NodeId} {object : ObjectRecord} : graph.object? id = some object →
      object.isExported = true ∨ id ∈ listed → Needed graph listed id
  | required {place id : NodeId} : graph.Joins .astRequireToObj place id → Needed graph listed id
  | source {kind : EdgeKind} {source target : NodeId} : kind ∈ valueKinds →
      graph.Joins kind source target → Needed graph listed target → Needed graph listed source
  | child {parent name child : NodeId} : graph.HasProperty parent name child →
      Needed graph listed parent → Needed graph listed child
  | parent {parent name child : NodeId} : graph.HasProperty parent name child →
      Needed graph listed child → Needed graph listed parent

/-- The edges that extraction takes over. -/
inductive Taken (graph : ObjectGraph) (listed : List NodeId) : FlowEdge → Prop where
  | place {outer inner : NodeId} : graph.Joins .parentOf outer inner →
      Taken graph listed ⟨outer, inner, .parentOf, none⟩
  | contribution {kind : EdgeKind} {source target : NodeId} : kind = .contributesTo ∨ kind = .funcObjToSymParam →
      graph.Joins kind source target → graph.Needed listed target →
      Taken graph listed ⟨source, target, .contributesTo, none⟩
  | result {function value : NodeId} : graph.Joins .funcObjToRetVal function value →
      graph.Needed listed value → Taken graph listed ⟨function, value, .funcObjToRetVal, none⟩
  | module {place object : NodeId} {name : Option String} :
      ⟨place, object, .astRequireToObj, name⟩ ∈ graph.edges → graph.Needed listed object →
      Taken graph listed ⟨place, object, .astRequireToObj, name⟩
  | definition {object place : NodeId} : graph.Joins .objToAst object place →
      graph.Needed listed object → Taken graph listed ⟨object, place, .objToAst, none⟩
  | property {parent name child : NodeId} : graph.HasProperty parent name child →
      graph.Needed listed parent → Taken graph listed ⟨parent, child, .parentToChild, graph.propertyName? name⟩
  | moduleExport {place target : NodeId} {ast : AstRecord} : graph.ast? place = some ast →
      target ∈ ast.moduleExports → Taken graph listed ⟨place, target, .astToModuleExport, none⟩

def IsModuleExport (graph : ObjectGraph) (id : NodeId) : Prop :=
  ∃ place ast, graph.ast? place = some ast ∧ id ∈ ast.moduleExports

section Kinds
variable {kind : EdgeKind} {source target : NodeId}

theorem WellFormed.source_kind (rules : graph.WellFormed) (joined : graph.Joins kind source target)
    {expected : NodeKind × NodeKind} (ends : kind.endpoints? = some expected) :
    ∃ node, graph.node? source = some node ∧ node.kind = expected.1 := by
  obtain ⟨first, second, found, -, kinds⟩ := rules.joined kind source target joined
  exact ⟨first, found, by rw [← Option.some.inj (kinds.symm.trans ends)]⟩

theorem WellFormed.target_kind (rules : graph.WellFormed) (joined : graph.Joins kind source target)
    {expected : NodeKind × NodeKind} (ends : kind.endpoints? = some expected) :
    ∃ node, graph.node? target = some node ∧ node.kind = expected.2 := by
  obtain ⟨first, second, -, found, kinds⟩ := rules.joined kind source target joined
  exact ⟨second, found, by rw [← Option.some.inj (kinds.symm.trans ends)]⟩

theorem isSome_object?_of_kind {node : NodeRecord} (found : graph.node? id = some node)
    (isObject : node.kind = .object) : (graph.object? id).isSome := by
  simp only [object?, found, Option.bind_some]
  exact NodeRecord.isSome_object?_iff.mpr isObject

theorem isSome_ast?_of_kind {node : NodeRecord} (found : graph.node? id = some node)
    (isPlace : node.kind = .ast) : (graph.ast? id).isSome := by
  simp only [ast?, found, Option.bind_some]
  exact NodeRecord.isSome_ast?_iff.mpr isPlace

theorem isSome_node?_of_object? (isObject : (graph.object? id).isSome) : (graph.node? id).isSome := by
  obtain ⟨object, found⟩ := Option.isSome_iff_exists.mp isObject
  rw [object?_eq_some_iff.mp found]
  rfl

theorem isSome_node?_of_ast? (isPlace : (graph.ast? id).isSome) : (graph.node? id).isSome := by
  obtain ⟨ast, found⟩ := Option.isSome_iff_exists.mp isPlace
  rw [ast?_eq_some_iff.mp found]
  rfl

end Kinds

section Seeds

theorem exportFault?_eq_none_iff : graph.exportFault? id = none ↔ (graph.object? id).isSome := by
  unfold exportFault? object?
  cases graph.node? id with
  | none => simp
  | some node => cases node <;> simp [NodeRecord.object?]

/-- A list is accepted exactly if it names objects only. -/
theorem seeds_eq_ok_iff : graph.seeds listed = .ok seeds ↔
    (∀ id ∈ listed, (graph.object? id).isSome) ∧
      seeds = ⟨graph.callReturns, graph.exportedObjects listed, graph.requireResults⟩ := by
  unfold ObjectGraph.seeds
  cases fault : listed.findSome? graph.exportFault? with
  | some error =>
    obtain ⟨id, member, found⟩ := List.exists_of_findSome?_eq_some fault
    have missing : ¬(graph.object? id).isSome := by
      rw [← exportFault?_eq_none_iff, found]
      simp
    simp only [reduceCtorEq, false_iff, not_and]
    exact fun known => absurd (known id member) missing
  | none =>
    rw [List.findSome?_eq_none_iff] at fault
    have known : ∀ id ∈ listed, (graph.object? id).isSome := fun id member =>
      exportFault?_eq_none_iff.mp (fault id member)
    rw [Except.ok.injEq]
    exact ⟨fun same => ⟨known, same.symm⟩, fun both => both.2.symm⟩

theorem mem_exportedObjects (distinct : graph.ids.Nodup) : id ∈ graph.exportedObjects listed ↔
    ∃ object, graph.object? id = some object ∧ (object.isExported = true ∨ id ∈ listed) := by
  simp only [exportedObjects, List.mem_map, List.mem_filter, List.mem_filterMap, Bool.or_eq_true,
    List.contains_iff_mem, NodeRecord.object?_eq_some_iff, object?_eq_some_iff, node?_eq_some_iff distinct]
  constructor
  · intro isExport
    obtain ⟨object, ⟨⟨node, member, rfl⟩, shown⟩, rfl⟩ := isExport
    exact ⟨object, ⟨member, rfl⟩, shown.symm⟩
  · intro isKnown
    obtain ⟨object, ⟨member, rfl⟩, shown⟩ := isKnown
    exact ⟨object, ⟨⟨_, member, rfl⟩, shown.symm⟩, rfl⟩

theorem mem_requireResults : id ∈ graph.requireResults ↔ ∃ place, graph.Joins .astRequireToObj place id := by
  simp only [requireResults, List.mem_map, List.mem_filter, beq_iff_eq]
  constructor
  · intro isResult
    obtain ⟨edge, ⟨member, kind⟩, rfl⟩ := isResult
    exact ⟨edge.source, kind ▸ joins_of_mem member⟩
  · intro isRequired
    obtain ⟨place, name, member⟩ := isRequired
    exact ⟨_, ⟨member, rfl⟩, rfl⟩

theorem joins_of_mem_callReturns (returned : id ∈ graph.callReturns) :
    ∃ function, graph.Joins .funcObjToRetVal function id := by
  simp only [callReturns, returnObjects, List.mem_eraseDups, List.mem_flatMap, List.mem_filter,
    mem_outNeighbors] at returned
  obtain ⟨site, -, ⟨function, -, joined⟩, -⟩ := returned
  exact ⟨function, joined⟩

theorem Needed.isObject (rules : graph.WellFormed) (needed : graph.Needed listed id) :
    (graph.object? id).isSome := by
  cases needed with
  | callReturn returned =>
    obtain ⟨function, joined⟩ := joins_of_mem_callReturns returned
    obtain ⟨node, found, kind⟩ := rules.target_kind joined rfl
    exact isSome_object?_of_kind found kind
  | exported found => exact Option.isSome_of_eq_some found
  | required joined =>
    obtain ⟨node, found, kind⟩ := rules.target_kind joined rfl
    exact isSome_object?_of_kind found kind
  | source carries joined =>
    obtain ⟨first, second, found, -, kinds⟩ := rules.joined _ _ _ joined
    refine isSome_object?_of_kind found ?_
    simp only [valueKinds, List.mem_cons, List.not_mem_nil, or_false] at carries
    rcases carries with rfl | rfl | rfl <;> simp_all [EdgeKind.endpoints?]
  | child property =>
    obtain ⟨node, found, kind⟩ := rules.target_kind property.2 rfl
    exact isSome_object?_of_kind found kind
  | parent property =>
    obtain ⟨node, found, kind⟩ := rules.source_kind property.1 rfl
    exact isSome_object?_of_kind found kind

end Seeds

section Order

/-- What an object adds, and where the walk goes on from it. -/
theorem mem_flowSteps {step : FlowStep} : step ∈ graph.flowSteps id ↔
    (∃ edge ∈ graph.edges, edge.target = id ∧ incomingStep? edge = some step) ∨
    (∃ place, graph.Joins .objToAst id place ∧ step = ⟨⟨id, place, .objToAst, none⟩, none⟩) ∨
    (∃ name child, graph.HasProperty id name child ∧
      step = ⟨⟨id, child, .parentToChild, graph.propertyName? name⟩, some child⟩) ∨
    ∃ parent name, graph.HasProperty parent name id ∧
      step = ⟨⟨parent, id, .parentToChild, graph.propertyName? name⟩, some parent⟩ := by
  simp only [flowSteps, List.mem_append, List.mem_filterMap, mem_inEdges, List.mem_map, mem_outNeighbors,
    Prod.exists, mem_properties, mem_parentObjects, or_assoc, and_assoc, eq_comm (b := step)]

theorem mem_flowNext {next : NodeId} : next ∈ graph.flowNext id ↔
    (∃ kind ∈ valueKinds, graph.Joins kind next id) ∨ (∃ name, graph.HasProperty id name next) ∨
      ∃ name, graph.HasProperty next name id := by
  simp only [flowNext, List.mem_reverse, List.mem_filterMap, mem_flowSteps]
  constructor
  · intro follows
    obtain ⟨step, ⟨edge, member, rfl, offered⟩ | ⟨place, -, rfl⟩ | ⟨name, child, property, rfl⟩ |
      ⟨parent, name, property, rfl⟩, goesOn⟩ := follows
    · refine .inl ⟨edge.kind, ?_⟩
      unfold incomingStep? at offered
      split at offered <;> cases offered <;> cases goesOn
      all_goals exact ⟨by simp [valueKinds, *], joins_of_mem member⟩
    · cases goesOn
    · cases goesOn
      exact .inr (.inl ⟨name, property⟩)
    · cases goesOn
      exact .inr (.inr ⟨name, property⟩)
  · intro linked
    rcases linked with ⟨kind, carries, moduleName, member⟩ | ⟨name, property⟩ | ⟨name, property⟩
    · simp only [valueKinds, List.mem_cons, List.not_mem_nil, or_false] at carries
      rcases carries with rfl | rfl | rfl
      all_goals exact ⟨_, .inl ⟨_, member, rfl, rfl⟩, rfl⟩
    · exact ⟨_, .inr (.inr (.inl ⟨name, next, property, rfl⟩)), rfl⟩
    · exact ⟨_, .inr (.inr (.inr ⟨next, name, property, rfl⟩)), rfl⟩

theorem Needed.next {next : NodeId} (needed : graph.Needed listed id) (follows : next ∈ graph.flowNext id) :
    graph.Needed listed next := by
  rcases mem_flowNext.mp follows with ⟨kind, carries, joined⟩ | ⟨name, property⟩ | ⟨name, property⟩
  · exact .source carries joined needed
  · exact .child property needed
  · exact .parent property needed

theorem mem_seeds (distinct : graph.ids.Nodup) (accepted : graph.seeds listed = .ok seeds) :
    id ∈ seeds.toList ↔ id ∈ graph.callReturns ∨
      (∃ object, graph.object? id = some object ∧ (object.isExported = true ∨ id ∈ listed)) ∨
      ∃ place, graph.Joins .astRequireToObj place id := by
  obtain ⟨-, rfl⟩ := seeds_eq_ok_iff.mp accepted
  simp only [Seeds.toList, List.mem_append, mem_exportedObjects distinct, mem_requireResults, or_assoc]

theorem WellFormed.mem_ids_of_joins (rules : graph.WellFormed) {kind : EdgeKind} {source target : NodeId}
    (joined : graph.Joins kind source target) : source ∈ graph.ids ∧ target ∈ graph.ids := by
  obtain ⟨first, second, foundSource, foundTarget, -⟩ := rules.joined kind source target joined
  exact ⟨mem_ids_iff.mpr (Option.isSome_of_eq_some foundSource), mem_ids_iff.mpr (Option.isSome_of_eq_some foundTarget)⟩

theorem mem_ids_of_mem_flowNext (rules : graph.WellFormed) {next : NodeId} (follows : next ∈ graph.flowNext id) :
    next ∈ graph.ids := by
  rcases mem_flowNext.mp follows with ⟨kind, -, joined⟩ | ⟨name, property⟩ | ⟨name, property⟩
  · exact (rules.mem_ids_of_joins joined).1
  · exact (rules.mem_ids_of_joins property.2).2
  · exact (rules.mem_ids_of_joins property.1).1

/-- The walk from the seeds meets exactly what is needed. -/
theorem mem_flowOrder (rules : graph.WellFormed) (accepted : graph.seeds listed = .ok seeds) :
    id ∈ graph.flowOrder seeds ↔ graph.Needed listed id := by
  have isSeed : ∀ {seed}, seed ∈ seeds.toList.reverse ↔ seed ∈ graph.callReturns ∨
      (∃ object, graph.object? seed = some object ∧ (object.isExported = true ∨ seed ∈ listed)) ∨
      ∃ place, graph.Joins .astRequireToObj place seed := List.mem_reverse.trans (mem_seeds rules.distinct accepted)
  have seedNeeded : ∀ {seed}, seed ∈ seeds.toList.reverse → graph.Needed listed seed := by
    intro seed member
    rcases isSeed.mp member with returned | ⟨object, found, shown⟩ | ⟨place, joined⟩
    · exact .callReturn returned
    · exact .exported found shown
    · exact .required joined
  have known : ∀ seed ∈ seeds.toList.reverse, seed ∈ graph.ids := fun seed member =>
    mem_ids_iff.mpr (isSome_node?_of_object? ((seedNeeded member).isObject rules))
  rw [flowOrder, mem_depthFirst_iff known fun _ _ _ => mem_ids_of_mem_flowNext rules]
  constructor
  · intro reachable
    obtain ⟨start, waiting, reached⟩ := reachable
    induction reached with
    | refl => exact seedNeeded waiting
    | tail _ follows ih => exact ih.next follows
  · intro needed
    induction needed with
    | callReturn returned => exact ⟨_, isSeed.mpr (.inl returned), .refl⟩
    | exported found shown => exact ⟨_, isSeed.mpr (.inr (.inl ⟨_, found, shown⟩)), .refl⟩
    | required joined => exact ⟨_, isSeed.mpr (.inr (.inr ⟨_, joined⟩)), .refl⟩
    | source carries joined _ ih =>
      obtain ⟨start, waiting, reached⟩ := ih
      exact ⟨start, waiting, reached.tail (mem_flowNext.mpr (.inl ⟨_, carries, joined⟩))⟩
    | child property _ ih =>
      obtain ⟨start, waiting, reached⟩ := ih
      exact ⟨start, waiting, reached.tail (mem_flowNext.mpr (.inr (.inl ⟨_, property⟩)))⟩
    | parent property _ ih =>
      obtain ⟨start, waiting, reached⟩ := ih
      exact ⟨start, waiting, reached.tail (mem_flowNext.mpr (.inr (.inr ⟨_, property⟩)))⟩

end Order

section Construction
variable {edge : FlowEdge} {edges : List FlowEdge} {nodes : List NodeId}

@[simp] theorem id_flowNode {record : NodeRecord} : (graph.flowNode seeds record).id = record.id := by
  cases record <;> rfl

/-- Nodes with distinct numbers that are made of nodes of the object graph. -/
structure Copies (graph : ObjectGraph) (seeds : Seeds) (flow : DataFlowGraph) : Prop where
  distinct : flow.ids.Nodup
  content : ∀ node ∈ flow.nodes, ∃ record, graph.node? node.id = some record ∧
    node = graph.flowNode seeds record

theorem Copies.addNode (copies : graph.Copies seeds flow) {record : NodeRecord}
    (found : graph.node? record.id = some record) : graph.Copies seeds (flow.addNode (graph.flowNode seeds record)) := by
  refine ⟨DataFlowGraph.nodup_ids_addNode copies.distinct, ?_⟩
  intro node member
  rcases DataFlowGraph.mem_nodes_of_mem_addNode member with earlier | rfl
  · exact copies.content node earlier
  · exact ⟨record, by rw [id_flowNode, found], rfl⟩

theorem Copies.addEdge (copies : graph.Copies seeds flow) : graph.Copies seeds (flow.addEdge edge) :=
  ⟨by simpa using copies.distinct, by simpa using copies.content⟩

theorem Copies.addFlowNode (copies : graph.Copies seeds flow) :
    graph.Copies seeds (graph.addFlowNode seeds flow id) := by
  unfold ObjectGraph.addFlowNode
  split
  next => exact copies
  next record found => exact copies.addNode (by rw [id_of_node? found, found])

theorem Copies.foldl_addFlowNode (copies : graph.Copies seeds flow) :
    graph.Copies seeds (nodes.foldl (graph.addFlowNode seeds) flow) := by
  induction nodes generalizing flow with
  | nil => exact copies
  | cons first rest ih => exact ih copies.addFlowNode

theorem Copies.foldl_addEdge (copies : graph.Copies seeds flow) :
    graph.Copies seeds (edges.foldl DataFlowGraph.addEdge flow) := by
  induction edges generalizing flow with
  | nil => exact copies
  | cons first rest ih => exact ih copies.addEdge

theorem Copies.foldl_addFlowEdge (copies : graph.Copies seeds flow) :
    graph.Copies seeds (edges.foldl (graph.addFlowEdge seeds) flow) := by
  induction edges generalizing flow with
  | nil => exact copies
  | cons first rest ih => exact ih copies.addFlowNode.addFlowNode.addEdge

theorem copies_places {places : List AstRecord} (copies : graph.Copies seeds flow)
    (known : ∀ ast ∈ places, graph.node? ast.id = some (.ast ast)) :
    graph.Copies seeds (places.foldl (fun flow ast => flow.addNode (graph.flowAst ast)) flow) := by
  induction places generalizing flow with
  | nil => exact copies
  | cons first rest ih =>
    have found : graph.node? (NodeRecord.ast first).id = some (.ast first) := known first List.mem_cons_self
    exact ih (copies.addNode found) (fun ast member => known ast (List.mem_cons_of_mem _ member))

theorem mem_places (distinct : graph.ids.Nodup) {ast : AstRecord} :
    ast ∈ graph.nodes.filterMap NodeRecord.ast? ↔ graph.node? ast.id = some (.ast ast) := by
  simp only [List.mem_filterMap, NodeRecord.ast?_eq_some_iff, node?_eq_some_iff distinct]
  constructor
  · intro isPlace
    obtain ⟨node, member, rfl⟩ := isPlace
    exact ⟨member, rfl⟩
  · intro isKnown
    obtain ⟨member, -⟩ := isKnown
    exact ⟨_, member, rfl⟩

/-- At every node, extraction has copied the node of the object graph. -/
theorem copies_extractFrom (distinct : graph.ids.Nodup) : graph.Copies seeds (graph.extractFrom seeds) := by
  have nothing : graph.Copies seeds .empty := ⟨List.nodup_nil, fun node member => absurd member List.not_mem_nil⟩
  exact (copies_places nothing fun ast member => (mem_places distinct).mp member).foldl_addEdge
    |>.foldl_addFlowNode |>.foldl_addFlowEdge

@[simp] theorem edges_addFlowNode : (graph.addFlowNode seeds flow id).edges = flow.edges := by
  unfold addFlowNode
  split <;> simp

@[simp] theorem edges_foldl_addFlowNode : (nodes.foldl (graph.addFlowNode seeds) flow).edges = flow.edges := by
  induction nodes generalizing flow with
  | nil => rfl
  | cons first rest ih => rw [List.foldl_cons, ih, edges_addFlowNode]

theorem edges_foldl_addFlowEdge : (edges.foldl (graph.addFlowEdge seeds) flow).edges =
    (edges.foldl DataFlowGraph.addEdge flow).edges := by
  induction edges generalizing flow with
  | nil => rfl
  | cons first rest ih =>
    rw [List.foldl_cons, ih]
    apply DataFlowGraph.edges_foldl_addEdge_congr
    simp [addFlowEdge, DataFlowGraph.addEdge]
    split <;> simp

/-- The edges around the objects that are met, in order. -/
def stepEdges (graph : ObjectGraph) (seeds : Seeds) : List FlowEdge :=
  (graph.flowOrder seeds).flatMap fun id => (graph.flowSteps id).map FlowStep.edge

/-- The edges that extraction offers, in order. -/
def offeredEdges (graph : ObjectGraph) (seeds : Seeds) : List FlowEdge :=
  graph.parentEdges ++ (graph.stepEdges seeds ++ graph.exportEdges)

theorem edges_foldl_addPlace {places : List AstRecord} :
    (places.foldl (fun flow ast => flow.addNode (graph.flowAst ast)) flow).edges = flow.edges := by
  induction places generalizing flow with
  | nil => rfl
  | cons first rest ih => rw [List.foldl_cons, ih, DataFlowGraph.edges_addNode]

theorem edges_extractFrom : (graph.extractFrom seeds).edges =
    ((graph.offeredEdges seeds).foldl DataFlowGraph.addEdge .empty).edges := by
  rw [extractFrom, edges_foldl_addFlowEdge, offeredEdges]
  conv_rhs => rw [List.foldl_append]
  apply DataFlowGraph.edges_foldl_addEdge_congr
  rw [edges_foldl_addFlowNode, placesOnly]
  apply DataFlowGraph.edges_foldl_addEdge_congr
  rw [edges_foldl_addPlace]

theorem mem_edges_extractFrom : edge ∈ (graph.extractFrom seeds).edges ↔ edge ∈ graph.offeredEdges seeds := by
  rw [edges_extractFrom, DataFlowGraph.mem_edges_foldl_addEdge]
  simp [DataFlowGraph.empty]

theorem nodup_edges_extractFrom : (graph.extractFrom seeds).edges.Nodup := by
  rw [edges_extractFrom]
  exact DataFlowGraph.nodup_edges_foldl_addEdge List.nodup_nil

variable {other : NodeId}

theorem mem_ids_addFlowNode : other ∈ (graph.addFlowNode seeds flow id).ids ↔
    other ∈ flow.ids ∨ (graph.node? other).isSome ∧ other = id := by
  unfold addFlowNode
  split
  next missing =>
    constructor
    · exact Or.inl
    · intro either
      rcases either with member | ⟨found, rfl⟩
      · exact member
      · simp [missing] at found
  next record found =>
    rw [DataFlowGraph.mem_ids_addNode, id_flowNode, id_of_node? found]
    constructor
    · intro either
      rcases either with member | rfl
      · exact .inl member
      · exact .inr ⟨Option.isSome_of_eq_some found, rfl⟩
    · exact Or.imp_right And.right

theorem mem_ids_foldl_addFlowNode : other ∈ (nodes.foldl (graph.addFlowNode seeds) flow).ids ↔
    other ∈ flow.ids ∨ (graph.node? other).isSome ∧ other ∈ nodes := by
  induction nodes generalizing flow with
  | nil => simp
  | cons first rest ih =>
    rw [List.foldl_cons, ih, mem_ids_addFlowNode, List.mem_cons, and_or_left, or_assoc]

theorem mem_ids_foldl_addFlowEdge : other ∈ (edges.foldl (graph.addFlowEdge seeds) flow).ids ↔
    other ∈ flow.ids ∨ (graph.node? other).isSome ∧ ∃ edge ∈ edges, other = edge.source ∨ other = edge.target := by
  induction edges generalizing flow with
  | nil => simp
  | cons first rest ih =>
    rw [List.foldl_cons, ih, addFlowEdge, DataFlowGraph.ids_addEdge, mem_ids_addFlowNode, mem_ids_addFlowNode]
    rw [List.exists_mem_cons_iff, and_or_left, and_or_left, or_assoc, or_assoc, or_assoc]

theorem mem_ids_foldl_addPlace {places : List AstRecord} :
    other ∈ (places.foldl (fun flow ast => flow.addNode (graph.flowAst ast)) flow).ids ↔
      other ∈ flow.ids ∨ ∃ ast ∈ places, other = ast.id := by
  induction places generalizing flow with
  | nil => simp
  | cons first rest ih =>
    rw [List.foldl_cons, ih, DataFlowGraph.mem_ids_addNode]
    simp only [List.mem_cons, exists_eq_or_imp, or_assoc]
    rfl

theorem mem_ids_placesOnly (distinct : graph.ids.Nodup) :
    other ∈ graph.placesOnly.ids ↔ (graph.ast? other).isSome := by
  rw [placesOnly, DataFlowGraph.ids, DataFlowGraph.nodes_foldl_addEdge, ← DataFlowGraph.ids, mem_ids_foldl_addPlace]
  simp only [mem_places distinct, DataFlowGraph.ids, DataFlowGraph.empty, List.map_nil, List.not_mem_nil, false_or,
    Option.isSome_iff_exists, ast?_eq_some_iff]
  constructor
  · intro added
    obtain ⟨ast, found, rfl⟩ := added
    exact ⟨ast, found⟩
  · intro isPlace
    obtain ⟨ast, found⟩ := isPlace
    have same : ast.id = other := id_of_node? found
    exact ⟨ast, same ▸ found, same.symm⟩

theorem mem_ids_extractFrom (distinct : graph.ids.Nodup) : other ∈ (graph.extractFrom seeds).ids ↔
    (graph.ast? other).isSome ∨ (graph.node? other).isSome ∧ other ∈ seeds.toList ∨
      (graph.node? other).isSome ∧ ∃ edge ∈ graph.stepEdges seeds ++ graph.exportEdges,
        other = edge.source ∨ other = edge.target := by
  rw [extractFrom, mem_ids_foldl_addFlowEdge, mem_ids_foldl_addFlowNode, mem_ids_placesOnly distinct, or_assoc]
  rfl

end Construction

section Exactness
variable {edge : FlowEdge}

theorem mem_parentEdges : edge ∈ graph.parentEdges ↔
    ∃ outer inner, graph.Joins .parentOf outer inner ∧ edge = ⟨outer, inner, .parentOf, none⟩ := by
  simp only [parentEdges, List.mem_map, List.mem_filter, beq_iff_eq]
  constructor
  · intro isEdge
    obtain ⟨record, ⟨member, kind⟩, rfl⟩ := isEdge
    exact ⟨record.source, record.target, kind ▸ joins_of_mem member, rfl⟩
  · intro encloses
    obtain ⟨outer, inner, ⟨name, member⟩, rfl⟩ := encloses
    exact ⟨_, ⟨member, rfl⟩, rfl⟩

theorem mem_exportEdges (distinct : graph.ids.Nodup) : edge ∈ graph.exportEdges ↔
    ∃ place ast target, graph.ast? place = some ast ∧ target ∈ ast.moduleExports ∧
      edge = ⟨place, target, .astToModuleExport, none⟩ := by
  simp only [exportEdges, List.mem_flatMap, mem_places distinct, List.mem_map, ast?_eq_some_iff]
  constructor
  · intro isEdge
    obtain ⟨ast, found, target, exported, rfl⟩ := isEdge
    exact ⟨ast.id, ast, target, found, exported, rfl⟩
  · intro exports
    obtain ⟨place, ast, target, found, exported, rfl⟩ := exports
    have same : ast.id = place := id_of_node? found
    exact ⟨ast, by rw [same, found], target, exported, by rw [same]⟩

theorem mem_stepEdges (rules : graph.WellFormed) (accepted : graph.seeds listed = .ok seeds) :
    edge ∈ graph.stepEdges seeds ↔ ∃ id, graph.Needed listed id ∧ ∃ step ∈ graph.flowSteps id, step.edge = edge := by
  simp only [stepEdges, List.mem_flatMap, mem_flowOrder rules accepted, List.mem_map]

/-- Everything that a needed object adds is taken over. -/
theorem taken_of_mem_flowSteps {step : FlowStep} (needed : graph.Needed listed id)
    (offered : step ∈ graph.flowSteps id) : graph.Taken listed step.edge := by
  rcases mem_flowSteps.mp offered with ⟨record, member, rfl, incoming⟩ | ⟨place, joined, rfl⟩ |
    ⟨name, child, property, rfl⟩ | ⟨parent, name, property, rfl⟩
  · obtain ⟨source, target, kind, name⟩ := record
    cases kind <;> simp only [incomingStep?, reduceCtorEq, Option.some.injEq] at incoming <;> subst incoming
    · exact .contribution (.inl rfl) ⟨name, member⟩ needed
    · exact .result ⟨name, member⟩ needed
    · exact .contribution (.inr rfl) ⟨name, member⟩ needed
    · exact .module member needed
  · exact .definition joined needed
  · exact .property property needed
  · exact .property property (.parent property needed)

theorem mem_offeredEdges (rules : graph.WellFormed) (accepted : graph.seeds listed = .ok seeds) :
    edge ∈ graph.offeredEdges seeds ↔ graph.Taken listed edge := by
  simp only [offeredEdges, List.mem_append, mem_parentEdges, mem_stepEdges rules accepted,
    mem_exportEdges rules.distinct]
  constructor
  · intro isOffered
    rcases isOffered with ⟨outer, inner, joined, rfl⟩ | ⟨id, needed, step, offered, rfl⟩ |
      ⟨place, ast, target, found, exported, rfl⟩
    · exact .place joined
    · exact taken_of_mem_flowSteps needed offered
    · exact .moduleExport found exported
  · intro taken
    cases taken with
    | place joined => exact .inl ⟨_, _, joined, rfl⟩
    | contribution kinds joined needed =>
      obtain ⟨name, member⟩ := joined
      rcases kinds with rfl | rfl
      all_goals exact .inr (.inl ⟨_, needed, _, mem_flowSteps.mpr (.inl ⟨_, member, rfl, rfl⟩), rfl⟩)
    | result joined needed =>
      obtain ⟨name, member⟩ := joined
      exact .inr (.inl ⟨_, needed, _, mem_flowSteps.mpr (.inl ⟨_, member, rfl, rfl⟩), rfl⟩)
    | module member needed =>
      exact .inr (.inl ⟨_, needed, _, mem_flowSteps.mpr (.inl ⟨_, member, rfl, rfl⟩), rfl⟩)
    | definition joined needed =>
      exact .inr (.inl ⟨_, needed, _, mem_flowSteps.mpr (.inr (.inl ⟨_, joined, rfl⟩)), rfl⟩)
    | property property needed =>
      exact .inr (.inl ⟨_, needed, _, mem_flowSteps.mpr (.inr (.inr (.inl ⟨_, _, property, rfl⟩))), rfl⟩)
    | moduleExport found exported => exact .inr (.inr ⟨_, _, _, found, exported, rfl⟩)

/-- The nodes that extraction keeps: all places, what is needed, and what modules export besides. -/
def Kept (graph : ObjectGraph) (listed : List NodeId) (id : NodeId) : Prop :=
  (graph.ast? id).isSome ∨ graph.Needed listed id ∨ graph.IsModuleExport id

theorem Kept.isNode (rules : graph.WellFormed) (kept : graph.Kept listed id) : (graph.node? id).isSome := by
  rcases kept with isPlace | needed | ⟨place, ast, found, exported⟩
  · exact isSome_node?_of_ast? isPlace
  · exact isSome_node?_of_object? (needed.isObject rules)
  · exact rules.exportsKnown place ast found id exported

/-- An edge that is taken over joins nodes that are kept. -/
theorem Taken.ends_kept (rules : graph.WellFormed) (taken : graph.Taken listed edge) :
    graph.Kept listed edge.source ∧ graph.Kept listed edge.target := by
  cases taken with
  | place joined =>
    obtain ⟨first, found, kind⟩ := rules.source_kind joined rfl
    obtain ⟨second, foundToo, kindToo⟩ := rules.target_kind joined rfl
    exact ⟨.inl (isSome_ast?_of_kind found kind), .inl (isSome_ast?_of_kind foundToo kindToo)⟩
  | @contribution kind _ _ kinds joined needed =>
    have carries : kind ∈ valueKinds := by
      rcases kinds with rfl | rfl <;> simp [valueKinds]
    exact ⟨.inr (.inl (.source carries joined needed)), .inr (.inl needed)⟩
  | result joined needed =>
    exact ⟨.inr (.inl (.source (by simp [valueKinds]) joined needed)), .inr (.inl needed)⟩
  | module member needed =>
    obtain ⟨node, found, kind⟩ := rules.source_kind ⟨_, member⟩ rfl
    exact ⟨.inl (isSome_ast?_of_kind found kind), .inr (.inl needed)⟩
  | definition joined needed =>
    obtain ⟨node, found, kind⟩ := rules.target_kind joined rfl
    exact ⟨.inr (.inl needed), .inl (isSome_ast?_of_kind found kind)⟩
  | property property needed => exact ⟨.inr (.inl needed), .inr (.inl (.child property needed))⟩
  | moduleExport found exported =>
    exact ⟨.inl (Option.isSome_of_eq_some found), .inr (.inr ⟨_, _, found, exported⟩)⟩

/-- Data and domains move between objects that are needed. -/
theorem Taken.ends_needed (taken : graph.Taken listed edge) (moving : edge.kind ∈ DataFlowGraph.movingKinds) :
    graph.Needed listed edge.source ∧ graph.Needed listed edge.target := by
  cases taken with
  | @contribution kind _ _ kinds joined needed =>
    exact ⟨.source (by rcases kinds with rfl | rfl <;> simp [valueKinds]) joined needed, needed⟩
  | result joined needed => exact ⟨.source (by simp [valueKinds]) joined needed, needed⟩
  | property property needed => exact ⟨needed, .child property needed⟩
  | _ => simp [DataFlowGraph.movingKinds] at moving

/-- What is needed is a seed, or an end of an edge that is taken over. -/
theorem Needed.seed_or_end (needed : graph.Needed listed id) :
    (id ∈ graph.callReturns ∨ (∃ object, graph.object? id = some object ∧ (object.isExported = true ∨ id ∈ listed)) ∨
      ∃ place, graph.Joins .astRequireToObj place id) ∨
    ∃ first, graph.Needed listed first ∧ ∃ step ∈ graph.flowSteps first,
      id = step.edge.source ∨ id = step.edge.target := by
  cases needed with
  | callReturn returned => exact .inl (.inl returned)
  | exported found shown => exact .inl (.inr (.inl ⟨_, found, shown⟩))
  | required joined => exact .inl (.inr (.inr ⟨_, joined⟩))
  | source carries joined needed =>
    obtain ⟨name, member⟩ := joined
    simp only [valueKinds, List.mem_cons, List.not_mem_nil, or_false] at carries
    rcases carries with rfl | rfl | rfl
    all_goals exact .inr ⟨_, needed, _, mem_flowSteps.mpr (.inl ⟨_, member, rfl, rfl⟩), .inl rfl⟩
  | child property needed =>
    exact .inr ⟨_, needed, _, mem_flowSteps.mpr (.inr (.inr (.inl ⟨_, _, property, rfl⟩))), .inr rfl⟩
  | parent property needed =>
    exact .inr ⟨_, needed, _, mem_flowSteps.mpr (.inr (.inr (.inr ⟨_, _, property, rfl⟩))), .inl rfl⟩

theorem mem_ids_extractFrom_iff_kept (rules : graph.WellFormed) (accepted : graph.seeds listed = .ok seeds) :
    id ∈ (graph.extractFrom seeds).ids ↔ graph.Kept listed id := by
  rw [mem_ids_extractFrom rules.distinct, mem_seeds rules.distinct accepted]
  constructor
  · intro isThere
    rcases isThere with isPlace | ⟨-, returned | ⟨object, found, shown⟩ | ⟨place, joined⟩⟩ | ⟨-, edge, offered, ends⟩
    · exact .inl isPlace
    · exact .inr (.inl (.callReturn returned))
    · exact .inr (.inl (.exported found shown))
    · exact .inr (.inl (.required joined))
    · have taken := (mem_offeredEdges rules accepted).mp (List.mem_append_right _ offered)
      rcases ends with rfl | rfl
      · exact (taken.ends_kept rules).1
      · exact (taken.ends_kept rules).2
  · intro kept
    have isNode := kept.isNode rules
    rcases kept with isPlace | needed | ⟨place, ast, found, exported⟩
    · exact .inl isPlace
    · rcases needed.seed_or_end with seed | ⟨first, firstNeeded, step, offered, ends⟩
      · exact .inr (.inl ⟨isNode, seed⟩)
      · exact .inr (.inr ⟨isNode, step.edge, List.mem_append_left _
          ((mem_stepEdges rules accepted).mpr ⟨first, firstNeeded, step, offered, rfl⟩), ends⟩)
    · exact .inr (.inr ⟨isNode, _, List.mem_append_right _
        ((mem_exportEdges rules.distinct).mpr ⟨place, ast, id, found, exported, rfl⟩), .inr rfl⟩)

theorem mem_edges_extractFrom_iff_taken (rules : graph.WellFormed) (accepted : graph.seeds listed = .ok seeds) :
    edge ∈ (graph.extractFrom seeds).edges ↔ graph.Taken listed edge :=
  mem_edges_extractFrom.trans (mem_offeredEdges rules accepted)

theorem target_mem_ids_extractFrom (rules : graph.WellFormed) (accepted : graph.seeds listed = .ok seeds)
    (member : edge ∈ (graph.extractFrom seeds).edges) : edge.target ∈ (graph.extractFrom seeds).ids := by
  have taken := (mem_edges_extractFrom_iff_taken rules accepted).mp member
  exact (mem_ids_extractFrom_iff_kept rules accepted).mpr (taken.ends_kept rules).2

theorem extract_eq_of_seeds (accepted : graph.seeds listed = .ok seeds) :
    graph.extract listed = .ok (graph.extractFrom seeds) := by
  rw [extract, accepted]
  rfl

theorem exists_seeds_of_extract (extracted : graph.extract listed = .ok flow) :
    ∃ seeds, graph.seeds listed = .ok seeds ∧ flow = graph.extractFrom seeds := by
  unfold extract at extracted
  cases accepted : graph.seeds listed with
  | error error =>
    rw [accepted] at extracted
    cases extracted
  | ok seeds =>
    rw [accepted] at extracted
    cases extracted
    exact ⟨seeds, rfl, rfl⟩

/-- Extraction gives a graph for every list of objects, and its nodes and edges are exactly the ones
that the rules name, each once and each node a copy of the one that it stands for. -/
theorem extract_exact {document : Document} (valid : ofDocument document = .ok graph)
    (accepted : graph.seeds listed = .ok seeds) :
    ∃ flow, graph.extract listed = .ok flow ∧
      flow.ids.Nodup ∧ (∀ id, id ∈ flow.ids ↔ graph.Kept listed id) ∧
      (∀ node ∈ flow.nodes, ∃ record, graph.node? node.id = some record ∧ node = graph.flowNode seeds record) ∧
      flow.edges.Nodup ∧ ∀ edge, edge ∈ flow.edges ↔ graph.Taken listed edge := by
  have rules := wellFormed_of_ofDocument valid
  have copies : graph.Copies seeds (graph.extractFrom seeds) := copies_extractFrom rules.distinct
  exact ⟨graph.extractFrom seeds, extract_eq_of_seeds accepted, copies.distinct,
    fun _ => mem_ids_extractFrom_iff_kept rules accepted, copies.content, nodup_edges_extractFrom,
    fun _ => mem_edges_extractFrom_iff_taken rules accepted⟩

/-- A version that requires a module and hands a text of its own to a function of the module. -/
def leakingDocument : Document where
  nodes := [.ast ⟨1, "AST_CALL", none, none, none, none, none, [], ["REQUIRE"], none, none, []⟩,
    .ast { id := 2, type := "AST_ASSIGN" }, .object { id := 10 }, .name { id := 11, name := some (.text "write") },
    .object { id := 12 }, .object { id := 13, code := some (.text "secret") }]
  edges := [⟨1, 10, .astRequireToObj, some "net"⟩, ⟨10, 11, .objToProp, none⟩, ⟨11, 12, .nameToObj, none⟩,
    ⟨13, 12, .contributesTo, none⟩, ⟨13, 2, .objToAst, none⟩, ⟨12, 13, .contributesTo, none⟩]

def leakingGraph : ObjectGraph := ofParts leakingDocument

def leakingFlow : DataFlowGraph := leakingGraph.extractFrom ⟨[], [12], [10]⟩

theorem flowOrder_leaking : leakingGraph.flowOrder ⟨[], [12], [10]⟩ = [10, 12, 13] := by
  have ids : leakingGraph.ids = [1, 2, 10, 11, 12, 13] := rfl
  have next : leakingGraph.flowNext 10 = [12] ∧ leakingGraph.flowNext 12 = [10, 13] ∧ leakingGraph.flowNext 13 = [12] :=
    ⟨rfl, rfl, rfl⟩
  simp [flowOrder, depthFirst, Seeds.toList, ids, next]

theorem extract_exact_leaking : ofDocument leakingDocument = .ok leakingGraph ∧
    leakingGraph.seeds [12] = .ok ⟨[], [12], [10]⟩ ∧
    ∃ flow, leakingGraph.extract [12] = .ok flow ∧ 13 ∈ flow.ids ∧ ⟨13, 12, .contributesTo, none⟩ ∈ flow.edges := by
  refine ⟨rfl, rfl, ?_⟩
  obtain ⟨flow, extracted, -, ids, -, -, edges⟩ :=
    extract_exact (show ofDocument leakingDocument = .ok leakingGraph from rfl)
      (show leakingGraph.seeds [12] = .ok ⟨[], [12], [10]⟩ from rfl)
  have isObject : leakingGraph.object? 12 = some { id := 12 } := rfl
  have exported : leakingGraph.Needed [12] 12 := .exported isObject (.inr (by decide))
  have contributes : leakingGraph.Joins .contributesTo 13 12 := ⟨none, by decide⟩
  exact ⟨flow, extracted, (ids 13).mpr (.inr (.inl (.source (by decide) contributes exported))),
    (edges _).mpr (.contribution (.inl rfl) contributes exported)⟩

end Exactness

end ObjectGraph

end DomainFlow
