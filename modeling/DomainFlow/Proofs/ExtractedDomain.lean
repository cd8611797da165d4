import DomainFlow.Proofs.Extraction
import DomainFlow.Domain.Assign

/-!
What extraction leaves to find about a node: the node itself, the place at which its object was created,
and the names by which it was required. All three can be read off the object graph.
-/
namespace DomainFlow

namespace ObjectGraph
variable {graph : ObjectGraph} {listed : List NodeId} {seeds : Seeds} {id : NodeId}

theorem node?_extractFrom (rules : graph.WellFormed) (accepted : graph.seeds listed = .ok seeds)
    (kept : graph.Kept listed id) {record : NodeRecord} (found : graph.node? id = some record) :
    (graph.extractFrom seeds).node? id = some (graph.flowNode seeds record) := by
  have copies : graph.Copies seeds (graph.extractFrom seeds) := copies_extractFrom rules.distinct
  have present := DataFlowGraph.mem_ids_iff.mp ((mem_ids_extractFrom_iff_kept rules accepted).mpr kept)
  obtain ⟨node, isNode⟩ := Option.isSome_iff_exists.mp present
  have member := (DataFlowGraph.node?_eq_some_iff copies.distinct).mp isNode
  obtain ⟨original, isOriginal, same⟩ := copies.content node member.1
  rw [member.2, found] at isOriginal
  cases isOriginal
  rw [isNode, same]

/-- The objects of a data-flow graph are made of the kept nodes. -/
theorem object?_extractFrom (rules : graph.WellFormed) (accepted : graph.seeds listed = .ok seeds)
    {object : FlowObject} (found : (graph.extractFrom seeds).object? id = some object) :
    graph.Kept listed id ∧ ∃ record, graph.node? id = some record ∧
      (graph.flowNode seeds record).object? = some object := by
  obtain ⟨node, isNode, content⟩ := DataFlowGraph.object?_eq_some_iff.mp found
  have kept := (mem_ids_extractFrom_iff_kept rules accepted).mp
    (DataFlowGraph.mem_ids_iff.mpr (Option.isSome_of_eq_some isNode))
  obtain ⟨record, isRecord⟩ := Option.isSome_iff_exists.mp (kept.isNode rules)
  rw [node?_extractFrom rules accepted kept isRecord] at isNode
  cases isNode
  exact ⟨kept, record, isRecord, FlowNode.object?_eq_some_iff.mpr content⟩

theorem needed_of_isExported (rules : graph.WellFormed) (accepted : graph.seeds listed = .ok seeds)
    {object : FlowObject} (found : (graph.extractFrom seeds).object? id = some object)
    (exported : object.isExported = true) : graph.Needed listed id := by
  obtain ⟨-, record, isRecord, content⟩ := object?_extractFrom rules accepted found
  obtain ⟨-, rfl⟩ := seeds_eq_ok_iff.mp accepted
  have same : record.id = id := id_of_node? isRecord
  cases record with
  | ast ast => cases content
  | object original =>
    cases content
    have shown : original.id ∈ graph.exportedObjects listed := List.contains_iff_mem.mp exported
    obtain ⟨known, isKnown, reason⟩ := (mem_exportedObjects rules.distinct).mp shown
    exact same ▸ .exported isKnown reason
  | name name =>
    cases content
    cases exported
  | scope scope =>
    cases content
    cases exported

section Definition

theorem definition?_eq_some_iff (rules : graph.WellFormed) (isObject : (graph.object? id).isSome) {place : NodeId} :
    graph.definition? id = some place ↔ graph.Joins .objToAst id place := by
  have single := rules.oneDefinition id isObject
  rw [definition?, ← mem_outNeighbors]
  match places : graph.outNeighbors id .objToAst with
  | [] => simp
  | [only] => simp [eq_comm]
  | first :: second :: rest =>
    rw [places] at single
    simp at single

/-- The place of creation is the same one as in the object graph. -/
theorem definition?_extractFrom (rules : graph.WellFormed) (accepted : graph.seeds listed = .ok seeds)
    (needed : graph.Needed listed id) : (graph.extractFrom seeds).definition? id =
      ((graph.definition? id).bind graph.ast?).bind fun ast => (graph.flowAst ast).ast? := by
  have isObject := needed.isObject rules
  have created : ∀ edge ∈ (graph.extractFrom seeds).edges, (edge.source == id && edge.kind == .objToAst) = true →
      graph.Joins .objToAst id edge.target := by
    intro edge member matching
    simp only [Bool.and_eq_true, beq_iff_eq] at matching
    have taken := (mem_edges_extractFrom_iff_taken rules accepted).mp member
    cases taken with
    | definition joined => exact matching.1 ▸ joined
    | _ => cases matching.2
  cases own : graph.definition? id with
  | none =>
    have missing : ((graph.extractFrom seeds).edges.find? fun edge => edge.source == id && edge.kind == .objToAst) = none := by
      rw [List.find?_eq_none]
      intro edge member matching
      rw [(definition?_eq_some_iff rules isObject).mpr (created edge member matching)] at own
      cases own
    rw [DataFlowGraph.definition?, missing]
    rfl
  | some place =>
    have joined := (definition?_eq_some_iff rules isObject).mp own
    have taken := (mem_edges_extractFrom_iff_taken rules accepted).mpr (.definition joined needed)
    have present : ((graph.extractFrom seeds).edges.find? fun edge =>
        edge.source == id && edge.kind == .objToAst).isSome := by
      rw [List.find?_isSome]
      exact ⟨_, taken, by simp⟩
    obtain ⟨edge, found⟩ := Option.isSome_iff_exists.mp present
    have matching := List.find?_some found
    have sameTarget := (definition?_eq_some_iff rules isObject).mpr
      (created edge (List.mem_of_find?_eq_some found) matching)
    rw [own] at sameTarget
    obtain ⟨node, isNode, kind⟩ := rules.target_kind joined rfl
    obtain ⟨ast, isPlace⟩ := Option.isSome_iff_exists.mp (isSome_ast?_of_kind isNode kind)
    have kept : graph.Kept listed place := .inl (Option.isSome_of_eq_some isPlace)
    rw [DataFlowGraph.definition?, found, Option.bind_some, ← Option.some.inj sameTarget,
      node?_extractFrom rules accepted kept (ast?_eq_some_iff.mp isPlace)]
    rw [Option.bind_some, Option.bind_some, isPlace]
    rfl

end Definition

section Module

/-- Whether a name is one of a module: it is not empty and not a path. -/
def isModuleName (name : String) : Bool := name != "" && !name.toList.contains '/'

/-- The first name by which an object was required that is one of a module. -/
def requiredName? (graph : ObjectGraph) (id : NodeId) : Option String :=
  ((graph.edges.filter fun edge => edge.target == id && edge.kind == .astRequireToObj).filterMap
    EdgeRecord.moduleName).find? isModuleName

/-- An edge by which an object is required under the name of a module. -/
def requiresInto (id : NodeId) (edge : FlowEdge) : Bool :=
  edge.target == id && edge.kind == .astRequireToObj && edge.label.any isModuleName

theorem requiredModule?_eq_find? {flow : DataFlowGraph} :
    flow.requiredModule? id = (flow.edges.find? (requiresInto id)).bind FlowEdge.label := by
  rw [DataFlowGraph.requiredModule?, List.find?_filterMap, List.find?_filter]
  congr 2
  funext edge
  rw [Bool.eq_iff_iff]
  simp only [requiresInto, decide_eq_true_eq, Bool.and_eq_true]
  rfl

theorem requiredName?_eq_find? : graph.requiredName? id = (graph.edges.find? fun edge =>
    edge.target == id && edge.kind == .astRequireToObj && edge.moduleName.any isModuleName).bind
      EdgeRecord.moduleName := by
  rw [requiredName?, List.find?_filterMap, List.find?_filter]
  congr 2
  funext edge
  rw [Bool.eq_iff_iff]
  simp only [decide_eq_true_eq, Bool.and_eq_true]

theorem requiresInto_of_kind {edge : FlowEdge} (other : edge.kind ≠ .astRequireToObj) : requiresInto id edge = false := by
  simp [requiresInto, other]

/-- An object is required by the edges that it adds itself. -/
theorem find?_flowSteps_of_ne {other : NodeId} (different : other ≠ id) :
    ((graph.flowSteps other).map FlowStep.edge).find? (requiresInto id) = none := by
  rw [List.find?_eq_none]
  intro edge offered
  obtain ⟨step, member, rfl⟩ := List.mem_map.mp offered
  rw [Bool.not_eq_true]
  rcases mem_flowSteps.mp member with ⟨record, -, rfl, incoming⟩ | ⟨place, -, rfl⟩ | ⟨name, child, -, rfl⟩ |
    ⟨parent, name, -, rfl⟩
  · obtain ⟨source, target, kind, moduleName⟩ := record
    cases kind <;> simp only [incomingStep?, reduceCtorEq, Option.some.injEq] at incoming <;> subst incoming
    all_goals simp [requiresInto, different]
  all_goals exact requiresInto_of_kind (by simp)

/-- Beside the edges into it, an object adds only edges of other kinds. -/
theorem flowSteps_eq_append (graph : ObjectGraph) (id : NodeId) : ∃ others, graph.flowSteps id =
      (graph.inEdges id).filterMap incomingStep? ++ others ∧ ∀ step ∈ others, step.edge.kind ≠ .astRequireToObj := by
  refine ⟨_, by rw [flowSteps, List.append_assoc, List.append_assoc], ?_⟩
  intro step member
  simp only [List.mem_append, List.mem_map, Prod.exists] at member
  rcases member with ⟨place, -, rfl⟩ | ⟨name, child, -, rfl⟩ | ⟨parent, name, -, rfl⟩
  all_goals simp

theorem find?_flowSteps_self : (((graph.flowSteps id).map FlowStep.edge).find? (requiresInto id)).bind FlowEdge.label =
    graph.requiredName? id := by
  obtain ⟨others, steps, kinds⟩ := flowSteps_eq_append graph id
  have noOther : (others.map FlowStep.edge).find? (requiresInto id) = none := by
    rw [List.find?_eq_none]
    intro edge offered
    obtain ⟨step, member, rfl⟩ := List.mem_map.mp offered
    simp [requiresInto_of_kind (kinds step member)]
  have test : ∀ record : EdgeRecord, decide ((record.target == id) = true ∧
      ((incomingStep? record).map FlowStep.edge).any (requiresInto id) = true) =
        (record.target == id && record.kind == .astRequireToObj && record.moduleName.any isModuleName) := by
    intro record
    obtain ⟨source, target, kind, moduleName⟩ := record
    rw [Bool.eq_iff_iff]
    cases kind <;> simp +contextual [incomingStep?, requiresInto]
  rw [steps, List.map_append, List.find?_append, noOther, Option.or_none, List.map_filterMap, List.find?_filterMap,
    inEdges, List.find?_filter, requiredName?_eq_find?]
  simp only [test]
  cases found : graph.edges.find? fun record =>
      record.target == id && record.kind == .astRequireToObj && record.moduleName.any isModuleName with
  | none => rfl
  | some record =>
    have matching := List.find?_some found
    simp only [Bool.and_eq_true, beq_iff_eq] at matching
    simp [incomingStep?, matching.1.2]

/-- The module by which an object is known is the one that the object graph names. -/
theorem requiredModule?_extractFrom (rules : graph.WellFormed) (accepted : graph.seeds listed = .ok seeds) :
    (graph.extractFrom seeds).requiredModule? id = graph.requiredName? id := by
  have noPlace : graph.parentEdges.find? (requiresInto id) = none := by
    rw [List.find?_eq_none]
    intro edge member
    obtain ⟨outer, inner, -, rfl⟩ := mem_parentEdges.mp member
    simp [requiresInto]
  have noExport : graph.exportEdges.find? (requiresInto id) = none := by
    rw [List.find?_eq_none]
    intro edge member
    obtain ⟨place, ast, target, -, -, rfl⟩ := (mem_exportEdges rules.distinct).mp member
    simp [requiresInto]
  have nothing : DataFlowGraph.empty.edges = [] := rfl
  rw [requiredModule?_eq_find?, edges_extractFrom, DataFlowGraph.find?_foldl_addEdge, nothing, List.nil_append,
    offeredEdges, List.find?_append, List.find?_append, noPlace, noExport, Option.or_none, Option.none_or, stepEdges,
    List.find?_flatMap]
  have found : ∀ order : List NodeId, (order.findSome? fun other =>
      ((graph.flowSteps other).map FlowStep.edge).find? (requiresInto id)) =
        if id ∈ order then ((graph.flowSteps id).map FlowStep.edge).find? (requiresInto id) else none := by
    intro order
    induction order with
    | nil => rfl
    | cons first rest ih =>
      rw [List.findSome?_cons, ih]
      by_cases same : first = id
      · subst same
        cases ((graph.flowSteps first).map FlowStep.edge).find? (requiresInto first) <;> simp
      · simp [find?_flowSteps_of_ne same, Ne.symm same]
  rw [found]
  split
  next => exact find?_flowSteps_self
  next unmet =>
    -- An object that nothing needs is not required either.
    have unrequired : (graph.edges.find? fun edge =>
        edge.target == id && edge.kind == .astRequireToObj && edge.moduleName.any isModuleName) = none := by
      rw [List.find?_eq_none]
      intro record member matching
      simp only [Bool.and_eq_true, beq_iff_eq] at matching
      have joined : graph.Joins .astRequireToObj record.source id :=
        matching.1.1 ▸ matching.1.2 ▸ joins_of_mem member
      exact unmet ((mem_flowOrder rules accepted).mpr (.required joined))
    rw [requiredName?_eq_find?, unrequired]
    rfl

end Module

end ObjectGraph

end DomainFlow
