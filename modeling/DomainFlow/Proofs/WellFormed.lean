import Mathlib.Data.List.Nodup
import DomainFlow.Graph.Classify

/-!
What the rules of documents promise about an object graph, and the queries in terms of its edges.
-/
namespace DomainFlow

/-- When keys are distinct, the entry found by its key is the one that has it. -/
theorem find?_key_eq_some_iff {α κ : Type} [DecidableEq κ] {list : List α} {key : α → κ} {value : κ}
    {entry : α} (distinct : (list.map key).Nodup) :
    (list.find? fun other => key other == value) = some entry ↔ entry ∈ list ∧ key entry = value := by
  constructor
  · intro found
    exact ⟨List.mem_of_find?_eq_some found, by simpa using List.find?_some found⟩
  · intro isMatch
    obtain ⟨member, same⟩ := isMatch
    cases found : list.find? fun other => key other == value with
    | none =>
      rw [List.find?_eq_none] at found
      exact absurd (beq_iff_eq.mpr same) (found entry member)
    | some other =>
      have otherSame : key other = value := by simpa using List.find?_some found
      have equal := List.inj_on_of_nodup_map distinct (List.mem_of_find?_eq_some found) member
        (otherSame.trans same.symm)
      rw [equal]

namespace EdgeKind
variable {kind : EdgeKind}

theorem ne_other_of_endpoints? {kinds : NodeKind × NodeKind} (expected : kind.endpoints? = some kinds) :
    kind ≠ .other := by
  rintro rfl
  cases expected

theorem exists_endpoints?_of_ne_other (named : kind ≠ .other) : ∃ kinds, kind.endpoints? = some kinds := by
  cases kind with
  | other => exact absurd rfl named
  | _ => exact ⟨_, rfl⟩

end EdgeKind

namespace NodeRecord

theorem object?_eq_some_iff {node : NodeRecord} {object : ObjectRecord} :
    node.object? = some object ↔ node = .object object := by
  cases node <;> simp [object?]

theorem ast?_eq_some_iff {node : NodeRecord} {ast : AstRecord} : node.ast? = some ast ↔ node = .ast ast := by
  cases node <;> simp [ast?]

theorem isSome_object?_iff {node : NodeRecord} : node.object?.isSome ↔ node.kind = .object := by
  cases node <;> simp [object?, kind]

theorem isSome_ast?_iff {node : NodeRecord} : node.ast?.isSome ↔ node.kind = .ast := by
  cases node <;> simp [ast?, kind]

end NodeRecord

namespace ObjectGraph
variable {graph : ObjectGraph} {document : Document}

def Joins (graph : ObjectGraph) (kind : EdgeKind) (source target : NodeId) : Prop :=
  ∃ moduleName, ⟨source, target, kind, moduleName⟩ ∈ graph.edges

theorem joins_of_mem {edge : EdgeRecord} (member : edge ∈ graph.edges) :
    graph.Joins edge.kind edge.source edge.target := ⟨edge.moduleName, member⟩

@[simp] theorem mem_outEdges {id : NodeId} {edge : EdgeRecord} :
    edge ∈ graph.outEdges id ↔ edge ∈ graph.edges ∧ edge.source = id := by
  simp [outEdges]

@[simp] theorem mem_inEdges {id : NodeId} {edge : EdgeRecord} :
    edge ∈ graph.inEdges id ↔ edge ∈ graph.edges ∧ edge.target = id := by
  simp [inEdges]

@[simp] theorem mem_outNeighbors {source target : NodeId} {kind : EdgeKind} :
    target ∈ graph.outNeighbors source kind ↔ graph.Joins kind source target := by
  simp only [outNeighbors, List.mem_map, List.mem_filter, mem_outEdges, beq_iff_eq]
  constructor
  · intro isNeighbor
    obtain ⟨edge, ⟨⟨member, rfl⟩, rfl⟩, rfl⟩ := isNeighbor
    exact joins_of_mem member
  · intro joined
    obtain ⟨moduleName, member⟩ := joined
    exact ⟨_, ⟨⟨member, rfl⟩, rfl⟩, rfl⟩

@[simp] theorem mem_inNeighbors {source target : NodeId} {kind : EdgeKind} :
    source ∈ graph.inNeighbors target kind ↔ graph.Joins kind source target := by
  simp only [inNeighbors, List.mem_map, List.mem_filter, mem_inEdges, beq_iff_eq]
  constructor
  · intro isNeighbor
    obtain ⟨edge, ⟨⟨member, rfl⟩, rfl⟩, rfl⟩ := isNeighbor
    exact joins_of_mem member
  · intro joined
    obtain ⟨moduleName, member⟩ := joined
    exact ⟨_, ⟨⟨member, rfl⟩, rfl⟩, rfl⟩

/-- An object is a property of another one, by the name that stands between them. -/
def HasProperty (graph : ObjectGraph) (parent name child : NodeId) : Prop :=
  graph.Joins .objToProp parent name ∧ graph.Joins .nameToObj name child

@[simp] theorem mem_properties {parent name child : NodeId} :
    (name, child) ∈ graph.properties parent ↔ graph.HasProperty parent name child := by
  simp [properties, HasProperty]

@[simp] theorem mem_parentObjects {parent name child : NodeId} :
    (parent, name) ∈ graph.parentObjects child ↔ graph.HasProperty parent name child := by
  simp only [parentObjects, HasProperty, List.mem_flatMap, List.mem_map, mem_inNeighbors, Prod.mk.injEq]
  constructor
  · intro isParent
    obtain ⟨other, inner, _, outer, rfl, rfl⟩ := isParent
    exact ⟨outer, inner⟩
  · intro property
    obtain ⟨outer, inner⟩ := property
    exact ⟨name, inner, parent, outer, rfl, rfl⟩

structure WellFormed (graph : ObjectGraph) : Prop where
  distinct : graph.ids.Nodup
  joined : ∀ kind source target, graph.Joins kind source target → ∃ first second,
    graph.node? source = some first ∧ graph.node? target = some second ∧
      kind.endpoints? = some (first.kind, second.kind)
  oneDefinition : ∀ id, (graph.object? id).isSome → (graph.outNeighbors id .objToAst).length ≤ 1
  exportsKnown : ∀ id ast, graph.ast? id = some ast → ∀ target ∈ ast.moduleExports,
    (graph.node? target).isSome

theorem repeatedNode?_eq_none_iff {earlier : List NodeId} {nodes : List NodeRecord} :
    repeatedNode? earlier nodes = none ↔
      (nodes.map NodeRecord.id).Nodup ∧ ∀ node ∈ nodes, node.id ∉ earlier := by
  induction nodes generalizing earlier with
  | nil => simp [repeatedNode?]
  | cons node rest ih =>
    simp only [repeatedNode?, List.map_cons, List.nodup_cons, List.mem_map, List.forall_mem_cons]
    by_cases occurred : node.id ∈ earlier
    · simp [occurred]
    · simp only [if_neg occurred, ih, List.mem_cons]
      grind

/-- An edge without a fault joins known nodes of the kinds that go with it. -/
theorem endpoints_of_edgeFault? {nodes : List NodeRecord} {edge : EdgeRecord} {index : Nat}
    (sound : edgeFault? nodes edge index = none) (named : edge.kind ≠ .other) :
    ∃ first second, findNode? nodes edge.source = some first ∧ findNode? nodes edge.target = some second ∧
      edge.kind.endpoints? = some (first.kind, second.kind) := by
  unfold edgeFault? at sound
  split at sound
  next unexpected =>
    obtain ⟨kinds, expected⟩ := EdgeKind.exists_endpoints?_of_ne_other named
    cases expected.symm.trans unexpected
  next expectedSource expectedTarget expected =>
    split at sound
    next unknown => cases sound
    next first foundSource =>
      split at sound
      next unknown => cases sound
      next second foundTarget =>
        split at sound
        next fits => exact ⟨first, second, foundSource, foundTarget, by rw [expected, fits.1, fits.2]⟩
        next wrong => cases sound

theorem node?_eq_some_iff (distinct : graph.ids.Nodup) {id : NodeId} {node : NodeRecord} :
    graph.node? id = some node ↔ node ∈ graph.nodes ∧ node.id = id :=
  find?_key_eq_some_iff distinct

theorem id_of_node? {id : NodeId} {node : NodeRecord} (found : graph.node? id = some node) :
    node.id = id := by
  simpa using List.find?_some found

theorem mem_ids_iff {id : NodeId} : id ∈ graph.ids ↔ (graph.node? id).isSome := by
  simp [ids, node?, findNode?]

theorem object?_eq_some_iff {id : NodeId} {object : ObjectRecord} :
    graph.object? id = some object ↔ graph.node? id = some (.object object) := by
  simp [object?, Option.bind_eq_some_iff, NodeRecord.object?_eq_some_iff]

theorem ast?_eq_some_iff {id : NodeId} {ast : AstRecord} :
    graph.ast? id = some ast ↔ graph.node? id = some (.ast ast) := by
  simp [ast?, Option.bind_eq_some_iff, NodeRecord.ast?_eq_some_iff]

/-- Whether an edge has a fault does not depend on its number. -/
theorem edgeFault?_eq_none_congr {nodes : List NodeRecord} {edge : EdgeRecord} {index other : Nat} :
    edgeFault? nodes edge index = none ↔ edgeFault? nodes edge other = none := by
  unfold edgeFault?
  cases edge.kind.endpoints? with
  | none => rfl
  | some expected =>
    cases findNode? nodes edge.source with
    | none => simp
    | some first =>
      cases findNode? nodes edge.target with
      | none => simp
      | some second =>
        dsimp only
        split <;> simp

/-- Numbers that repeat come first, then faults of edges, then faults of nodes. -/
theorem fault?_eq_or : fault? document = ((repeatedNode? [] document.nodes).map .duplicateNode).or
    ((document.edges.zipIdx.findSome? fun entry => edgeFault? document.nodes entry.1 entry.2).or
      (document.nodes.findSome? (nodeFault? (ofParts document)))) := by
  unfold fault?
  cases repeatedNode? [] document.nodes with
  | some node => rfl
  | none =>
    rw [Option.map_none, Option.none_or]
    dsimp only
    split
    next error found =>
      have faulty : (document.edges.zipIdx.findSome? fun entry => edgeFault? document.nodes entry.1 entry.2) =
        some error := found
      rw [faulty, Option.some_or]
    next quiet =>
      have sound : (document.edges.zipIdx.findSome? fun entry => edgeFault? document.nodes entry.1 entry.2) = none := quiet
      rw [sound, Option.none_or]

theorem fault?_eq_none_iff : fault? document = none ↔ (document.nodes.map NodeRecord.id).Nodup ∧
    (∀ edge ∈ document.edges, edgeFault? document.nodes edge 0 = none) ∧
    ∀ node ∈ document.nodes, nodeFault? (ofParts document) node = none := by
  have edgesSound : (document.edges.zipIdx.findSome? fun entry => edgeFault? document.nodes entry.1 entry.2) = none ↔
      ∀ edge ∈ document.edges, edgeFault? document.nodes edge 0 = none := by
    rw [List.findSome?_eq_none_iff]
    constructor
    · intro sound edge member
      obtain ⟨index, found⟩ := List.mem_iff_getElem?.mp member
      exact edgeFault?_eq_none_congr.mp (sound (edge, index) (List.mk_mem_zipIdx_iff_getElem?.mpr found))
    · intro sound entry member
      exact edgeFault?_eq_none_congr.mp (sound entry.1 (List.fst_mem_of_mem_zipIdx member))
  have distinct : repeatedNode? [] document.nodes = none ↔ (document.nodes.map NodeRecord.id).Nodup := by
    simp [repeatedNode?_eq_none_iff]
  rw [fault?_eq_or, Option.or_eq_none_iff, Option.or_eq_none_iff, Option.map_eq_none_iff, distinct, edgesSound,
    List.findSome?_eq_none_iff]

theorem ofDocument_eq_ok_iff : ofDocument document = .ok graph ↔ fault? document = none ∧ graph = ofParts document := by
  unfold ofDocument
  cases fault? document with
  | some error => simp
  | none => simp [eq_comm]

theorem wellFormed_of_ofDocument (valid : ofDocument document = .ok graph) : graph.WellFormed := by
  obtain ⟨sound, rfl⟩ := ofDocument_eq_ok_iff.mp valid
  obtain ⟨fresh, edgesSound, nodesSound⟩ := fault?_eq_none_iff.mp sound
  have distinct : (ofParts document).ids.Nodup := fresh
  refine ⟨distinct, ?_, ?_, ?_⟩
  · intro kind source target joined
    obtain ⟨moduleName, member⟩ := joined
    obtain ⟨present, named⟩ := List.mem_filter.mp member
    exact endpoints_of_edgeFault? (edgesSound _ present) (by simpa using named)
  · intro id isObject
    obtain ⟨object, found⟩ := Option.isSome_iff_exists.mp isObject
    obtain ⟨present, rfl⟩ := (node?_eq_some_iff distinct).mp (object?_eq_some_iff.mp found)
    have quiet := nodesSound _ present
    simp only [nodeFault?] at quiet
    split at quiet
    next => cases quiet
    next few => exact Nat.le_of_not_lt few
  · intro id ast found target exported
    obtain ⟨present, -⟩ := (node?_eq_some_iff distinct).mp (ast?_eq_some_iff.mp found)
    have quiet := nodesSound _ present
    simp only [nodeFault?, Option.map_eq_none_iff, List.find?_eq_none] at quiet
    simpa [Option.isSome_iff_ne_none] using quiet target exported

end ObjectGraph

end DomainFlow
