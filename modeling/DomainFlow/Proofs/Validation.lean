import DomainFlow.Proofs.GraphStore

/-!
Which documents are accepted, and what is said about the others. The rules of documents are stated without
the checks: numbers of nodes are different, edges join nodes of the right kinds, objects are created at one
place at most, and exports are known. A document that keeps them has a graph. For any other document exactly
one violation comes first, and it is the one that is reported.
-/
namespace DomainFlow

namespace Document
variable {document : Document} {edge : EdgeRecord} {node : NodeRecord} {index : Nat} {error : GraphError}

def ids (document : Document) : List NodeId := document.nodes.map NodeRecord.id

def definitions (document : Document) (id : NodeId) : Nat :=
  document.edges.countP fun edge => edge.kind == .objToAst && edge.source == id

/-- An edge of a named kind joins two nodes of the kinds that go with it. -/
def EdgeSound (document : Document) (edge : EdgeRecord) : Prop :=
  edge.kind ≠ .other → ∃ source ∈ document.nodes, ∃ target ∈ document.nodes, source.id = edge.source ∧
    target.id = edge.target ∧ edge.kind.endpoints? = some (source.kind, target.kind)

/-- An object is created at one place at most, and a place exports known nodes. -/
def NodeSound (document : Document) : NodeRecord → Prop
  | .object object => document.definitions object.id ≤ 1
  | .ast ast => ∀ target ∈ ast.moduleExports, target ∈ document.ids
  | _ => True

structure WellFormed (document : Document) : Prop where
  distinct : document.ids.Nodup
  edgesSound : ∀ edge ∈ document.edges, document.EdgeSound edge
  nodesSound : ∀ node ∈ document.nodes, document.NodeSound node

/-- What is wrong with an edge. An unknown source counts before an unknown target, and both before wrong kinds. -/
inductive EdgeFault (document : Document) (edge : EdgeRecord) (index : Nat) : GraphError → Prop where
  | unknownSource : edge.kind ≠ .other → edge.source ∉ document.ids →
      EdgeFault document edge index (.unknownNode index edge.kind edge.source)
  | unknownTarget : edge.kind ≠ .other → edge.source ∈ document.ids → edge.target ∉ document.ids →
      EdgeFault document edge index (.unknownNode index edge.kind edge.target)
  | wrongKinds {source target : NodeRecord} {expectedSource expectedTarget : NodeKind} :
      source ∈ document.nodes → target ∈ document.nodes → source.id = edge.source → target.id = edge.target →
      edge.kind.endpoints? = some (expectedSource, expectedTarget) →
      ¬(source.kind = expectedSource ∧ target.kind = expectedTarget) →
      EdgeFault document edge index (.edgeEndpoint index edge.kind edge.source edge.target expectedSource expectedTarget
        source.kind target.kind)

/-- What is wrong with a node. Of several unknown exports the first counts. -/
inductive NodeFault (document : Document) : NodeRecord → GraphError → Prop where
  | manyDefinitions {object : ObjectRecord} : 1 < document.definitions object.id →
      NodeFault document (.object object) (.multipleDefinitions object.id (document.definitions object.id))
  | unknownExport {ast : AstRecord} {before after : List NodeId} {target : NodeId} :
      ast.moduleExports = before ++ target :: after → (∀ earlier ∈ before, earlier ∈ document.ids) →
      target ∉ document.ids → NodeFault document (.ast ast) (.unknownExport ast.id target)

/-- The violation that comes first: a number that occurred before; else the first fault of an edge, whose number counts
all edges; else the first fault of a node. -/
inductive FirstFault (document : Document) : GraphError → Prop where
  | repeatedNode {before after : List NodeRecord} {node : NodeRecord} : document.nodes = before ++ node :: after →
      (before.map NodeRecord.id).Nodup → node.id ∈ before.map NodeRecord.id →
      FirstFault document (.duplicateNode node.id)
  | ofEdge {before after : List EdgeRecord} {edge : EdgeRecord} {error : GraphError} : document.ids.Nodup →
      document.edges = before ++ edge :: after → (∀ earlier ∈ before, document.EdgeSound earlier) →
      document.EdgeFault edge before.length error → FirstFault document error
  | ofNode {before after : List NodeRecord} {node : NodeRecord} {error : GraphError} : document.ids.Nodup →
      (∀ edge ∈ document.edges, document.EdgeSound edge) → document.nodes = before ++ node :: after →
      (∀ earlier ∈ before, document.NodeSound earlier) → document.NodeFault node error → FirstFault document error

end Document

namespace ObjectGraph
variable {document : Document} {graph : ObjectGraph} {edge : EdgeRecord} {node : NodeRecord} {index : Nat}
  {error : GraphError}

section Nodes

/-- The node that is reported is the first one whose number occurred before it. -/
theorem repeatedNode?_eq_some_iff {earlier : List NodeId} {nodes : List NodeRecord} {id : NodeId} :
    repeatedNode? earlier nodes = some id ↔ ∃ before node after, nodes = before ++ node :: after ∧
      repeatedNode? earlier before = none ∧ (node.id ∈ earlier ∨ node.id ∈ before.map NodeRecord.id) ∧ node.id = id := by
  induction nodes generalizing earlier with
  | nil => simp [repeatedNode?]
  | cons head rest ih =>
    by_cases occurred : head.id ∈ earlier
    · rw [repeatedNode?, if_pos occurred]
      constructor
      · rintro ⟨⟩
        exact ⟨[], head, rest, rfl, rfl, .inl occurred, rfl⟩
      · rintro ⟨before, node, after, split, fresh, -, rfl⟩
        cases before with
        | nil =>
          cases split
          rfl
        | cons first more =>
          cases split
          rw [repeatedNode?, if_pos occurred] at fresh
          cases fresh
    · rw [repeatedNode?, if_neg occurred, ih]
      constructor
      · rintro ⟨before, node, after, rfl, fresh, repeats, rfl⟩
        refine ⟨head :: before, node, after, rfl, by rw [repeatedNode?, if_neg occurred, fresh], ?_, rfl⟩
        rw [List.mem_cons, or_assoc, or_left_comm] at repeats
        exact repeats.imp_right List.mem_cons.mpr
      · rintro ⟨before, node, after, split, fresh, repeats, rfl⟩
        cases before with
        | nil =>
          cases split
          exact absurd (repeats.resolve_right List.not_mem_nil) occurred
        | cons first more =>
          cases split
          rw [repeatedNode?, if_neg occurred] at fresh
          refine ⟨more, node, after, rfl, fresh, ?_, rfl⟩
          rw [List.map_cons, List.mem_cons, or_left_comm, ← or_assoc] at repeats
          exact repeats.imp_left List.mem_cons.mpr

theorem repeatedNode?_nil_eq_some_iff {id : NodeId} : repeatedNode? [] document.nodes = some id ↔
    ∃ before node after, document.nodes = before ++ node :: after ∧ (before.map NodeRecord.id).Nodup ∧
      node.id ∈ before.map NodeRecord.id ∧ node.id = id := by
  simp only [repeatedNode?_eq_some_iff, repeatedNode?_eq_none_iff, List.not_mem_nil, not_false_eq_true, implies_true,
    and_true, false_or]

theorem repeatedNode?_nil_eq_none_iff : repeatedNode? [] document.nodes = none ↔ document.ids.Nodup := by
  simp only [repeatedNode?_eq_none_iff, List.not_mem_nil, not_false_eq_true, implies_true, and_true]
  rfl

theorem findNode?_eq_none_iff {id : NodeId} : findNode? document.nodes id = none ↔ id ∉ document.ids := by
  simp [findNode?, Document.ids]

theorem findNode?_eq_some_iff (distinct : document.ids.Nodup) {id : NodeId} :
    findNode? document.nodes id = some node ↔ node ∈ document.nodes ∧ node.id = id :=
  find?_key_eq_some_iff distinct

end Nodes

section Edges

variable (distinct : document.ids.Nodup)
include distinct

theorem edgeFault?_eq_none_iff_sound : edgeFault? document.nodes edge index = none ↔ document.EdgeSound edge := by
  constructor
  · intro sound named
    obtain ⟨source, target, foundSource, foundTarget, fits⟩ := endpoints_of_edgeFault? sound named
    obtain ⟨isSource, sameSource⟩ := (findNode?_eq_some_iff distinct).mp foundSource
    obtain ⟨isTarget, sameTarget⟩ := (findNode?_eq_some_iff distinct).mp foundTarget
    exact ⟨source, isSource, target, isTarget, sameSource, sameTarget, fits⟩
  · intro sound
    unfold edgeFault?
    cases expected : edge.kind.endpoints? with
    | none => rfl
    | some kinds =>
      obtain ⟨source, isSource, target, isTarget, sameSource, sameTarget, fits⟩ :=
        sound (EdgeKind.ne_other_of_endpoints? expected)
      cases expected.symm.trans fits
      simp only [(findNode?_eq_some_iff distinct).mpr ⟨isSource, sameSource⟩,
        (findNode?_eq_some_iff distinct).mpr ⟨isTarget, sameTarget⟩, and_self, if_true]

theorem edgeFault?_eq_some_iff :
    edgeFault? document.nodes edge index = some error ↔ document.EdgeFault edge index error := by
  constructor
  · intro found
    unfold edgeFault? at found
    split at found
    next => cases found
    next expectedSource expectedTarget expected =>
      have named := EdgeKind.ne_other_of_endpoints? expected
      split at found
      next unknown =>
        cases found
        exact .unknownSource named (findNode?_eq_none_iff.mp unknown)
      next source foundSource =>
        obtain ⟨isSource, sameSource⟩ := (findNode?_eq_some_iff distinct).mp foundSource
        split at found
        next unknown =>
          cases found
          exact .unknownTarget named (List.mem_map.mpr ⟨source, isSource, sameSource⟩) (findNode?_eq_none_iff.mp unknown)
        next target foundTarget =>
          obtain ⟨isTarget, sameTarget⟩ := (findNode?_eq_some_iff distinct).mp foundTarget
          split at found
          next => cases found
          next wrong =>
            cases found
            exact .wrongKinds isSource isTarget sameSource sameTarget expected wrong
  · intro fault
    unfold edgeFault?
    cases fault with
    | unknownSource named unknown =>
      obtain ⟨kinds, expected⟩ := EdgeKind.exists_endpoints?_of_ne_other named
      simp only [expected, findNode?_eq_none_iff.mpr unknown]
    | unknownTarget named known unknown =>
      obtain ⟨kinds, expected⟩ := EdgeKind.exists_endpoints?_of_ne_other named
      obtain ⟨source, isSource, sameSource⟩ := List.mem_map.mp known
      simp only [expected, (findNode?_eq_some_iff distinct).mpr ⟨isSource, sameSource⟩,
        findNode?_eq_none_iff.mpr unknown]
    | wrongKinds isSource isTarget sameSource sameTarget expected wrong =>
      simp only [expected, (findNode?_eq_some_iff distinct).mpr ⟨isSource, sameSource⟩,
        (findNode?_eq_some_iff distinct).mpr ⟨isTarget, sameTarget⟩, if_neg wrong]

/-- The fault of an edge that is reported is the first one, and the number of the edge is its place among all edges. -/
theorem findSome?_edgeFault?_eq_some_iff :
    (document.edges.zipIdx.findSome? fun entry => edgeFault? document.nodes entry.1 entry.2) = some error ↔
      ∃ before edge after, document.edges = before ++ edge :: after ∧ (∀ earlier ∈ before, document.EdgeSound earlier) ∧
        document.EdgeFault edge before.length error := by
  rw [List.findSome?_eq_some_iff]
  constructor
  · rintro ⟨first, entry, rest, split, fault, quiet⟩
    obtain ⟨before, others, whole, rfl, tail⟩ := List.zipIdx_eq_append_iff.mp split
    obtain ⟨edge, after, rfl, rfl, -⟩ := List.zipIdx_eq_cons_iff.mp tail.symm
    rw [Nat.zero_add] at fault
    refine ⟨before, edge, after, whole, fun earlier member => ?_, (edgeFault?_eq_some_iff distinct).mp fault⟩
    obtain ⟨position, found⟩ := List.mem_iff_getElem?.mp member
    exact (edgeFault?_eq_none_iff_sound distinct).mp
      (quiet (earlier, position) (List.mk_mem_zipIdx_iff_getElem?.mpr found))
  · rintro ⟨before, edge, after, whole, sound, fault⟩
    refine ⟨before.zipIdx, (edge, before.length), after.zipIdx (before.length + 1), ?_,
      (edgeFault?_eq_some_iff distinct).mpr fault, fun entry member => ?_⟩
    · rw [whole, List.zipIdx_append, List.zipIdx_cons, Nat.zero_add]
    · exact (edgeFault?_eq_none_iff_sound distinct).mpr (sound entry.1 (List.fst_mem_of_mem_zipIdx member))

theorem findSome?_edgeFault?_eq_none_iff :
    (document.edges.zipIdx.findSome? fun entry => edgeFault? document.nodes entry.1 entry.2) = none ↔
      ∀ edge ∈ document.edges, document.EdgeSound edge := by
  rw [List.findSome?_eq_none_iff]
  constructor
  · intro quiet edge member
    obtain ⟨position, found⟩ := List.mem_iff_getElem?.mp member
    exact (edgeFault?_eq_none_iff_sound distinct).mp (quiet (edge, position) (List.mk_mem_zipIdx_iff_getElem?.mpr found))
  · intro sound entry member
    exact (edgeFault?_eq_none_iff_sound distinct).mpr (sound entry.1 (List.fst_mem_of_mem_zipIdx member))

end Edges

section Definitions

theorem length_outNeighbors_ofParts {id : NodeId} :
    ((ofParts document).outNeighbors id .objToAst).length = document.definitions id := by
  simp only [outNeighbors, outEdges, ofParts, List.length_map, List.filter_filter, Document.definitions,
    List.countP_eq_length_filter]
  congr 1
  apply List.filter_congr
  intro edge _
  by_cases creates : edge.kind = .objToAst
  · simp [creates]
  · simp [beq_eq_false_iff_ne.mpr creates]

theorem isNone_node?_ofParts {id : NodeId} : ((ofParts document).node? id).isNone = decide (id ∉ document.ids) := by
  rw [Bool.eq_iff_iff, Option.isNone_iff_eq_none, decide_eq_true_iff]
  exact findNode?_eq_none_iff

theorem nodeFault?_eq_none_iff : nodeFault? (ofParts document) node = none ↔ document.NodeSound node := by
  cases node with
  | object object =>
    simp only [nodeFault?, length_outNeighbors_ofParts, Document.NodeSound]
    split
    next many => simp [many]
    next few => simpa using few
  | ast ast =>
    simp only [nodeFault?, isNone_node?_ofParts, Option.map_eq_none_iff, List.find?_eq_none, decide_eq_true_iff, not_not,
      Document.NodeSound]
  | name name => exact iff_of_true rfl trivial
  | scope scope => exact iff_of_true rfl trivial

theorem nodeFault?_eq_some_iff : nodeFault? (ofParts document) node = some error ↔ document.NodeFault node error := by
  constructor
  · intro found
    cases node with
    | object object =>
      simp only [nodeFault?, length_outNeighbors_ofParts] at found
      split at found
      next many =>
        cases found
        exact .manyDefinitions many
      next => cases found
    | ast ast =>
      simp only [nodeFault?, isNone_node?_ofParts, Option.map_eq_some_iff, List.find?_eq_some_iff_append] at found
      obtain ⟨target, ⟨missing, before, after, split, known⟩, rfl⟩ := found
      refine .unknownExport split (fun earlier member => ?_) (of_decide_eq_true missing)
      simpa using known earlier member
    | name name => cases found
    | scope scope => cases found
  · intro fault
    cases fault with
    | manyDefinitions many => simp only [nodeFault?, length_outNeighbors_ofParts, if_pos many]
    | @unknownExport ast before after target split known missing =>
      have found : (ast.moduleExports.find? fun target => decide (target ∉ document.ids)) = some target := by
        rw [List.find?_eq_some_iff_append]
        refine ⟨decide_eq_true missing, before, after, split, fun earlier member => ?_⟩
        simpa using known earlier member
      simp only [nodeFault?, isNone_node?_ofParts, found, Option.map_some]

end Definitions

section FirstFault

theorem id_not_mem_before {before after : List NodeRecord} (distinct : document.ids.Nodup)
    (split : document.nodes = before ++ node :: after) : node.id ∉ before.map NodeRecord.id := by
  rw [Document.ids, split, List.map_append, List.map_cons, List.nodup_append] at distinct
  intro repeats
  exact distinct.2.2 node.id repeats node.id List.mem_cons_self rfl

/-- Where numbers do not repeat, the first violation is that of an edge or, if there is none, that of a node. -/
theorem firstFault_iff (distinct : document.ids.Nodup) : document.FirstFault error ↔
    (document.edges.zipIdx.findSome? fun entry => edgeFault? document.nodes entry.1 entry.2) = some error ∨
    (document.edges.zipIdx.findSome? fun entry => edgeFault? document.nodes entry.1 entry.2) = none ∧
      document.nodes.findSome? (nodeFault? (ofParts document)) = some error := by
  rw [findSome?_edgeFault?_eq_some_iff distinct, findSome?_edgeFault?_eq_none_iff distinct, List.findSome?_eq_some_iff]
  simp only [nodeFault?_eq_some_iff, nodeFault?_eq_none_iff]
  constructor
  · intro first
    cases first with
    | repeatedNode split fresh repeats => exact absurd repeats (id_not_mem_before distinct split)
    | ofEdge _ split sound fault => exact .inl ⟨_, _, _, split, sound, fault⟩
    | ofNode _ edgesSound split sound fault => exact .inr ⟨edgesSound, _, _, _, split, fault, sound⟩
  · rintro (⟨before, edge, after, split, sound, fault⟩ | ⟨edgesSound, before, node, after, split, fault, sound⟩)
    · exact .ofEdge distinct split sound fault
    · exact .ofNode distinct edgesSound split sound fault

theorem fault?_eq_some_iff : fault? document = some error ↔ document.FirstFault error := by
  rw [fault?_eq_or]
  cases repeated : repeatedNode? [] document.nodes with
  | some id =>
    rw [Option.map_some, Option.some_or, Option.some.injEq]
    constructor
    · rintro rfl
      obtain ⟨before, node, after, split, fresh, repeats, rfl⟩ := repeatedNode?_nil_eq_some_iff.mp repeated
      exact .repeatedNode split fresh repeats
    · intro first
      cases first with
      | repeatedNode split fresh repeats =>
        cases repeated.symm.trans (repeatedNode?_nil_eq_some_iff.mpr ⟨_, _, _, split, fresh, repeats, rfl⟩)
        rfl
      | ofEdge distinct => cases repeated.symm.trans (repeatedNode?_nil_eq_none_iff.mpr distinct)
      | ofNode distinct => cases repeated.symm.trans (repeatedNode?_nil_eq_none_iff.mpr distinct)
  | none => rw [firstFault_iff (repeatedNode?_nil_eq_none_iff.mp repeated), Option.map_none, Option.none_or, Option.or_eq_some_iff]

theorem fault?_eq_none_iff_wellFormed : fault? document = none ↔ document.WellFormed := by
  rw [fault?_eq_none_iff]
  simp only [nodeFault?_eq_none_iff]
  constructor
  · rintro ⟨distinct, edgesSound, nodesSound⟩
    exact ⟨distinct, fun edge member => (edgeFault?_eq_none_iff_sound distinct).mp (edgesSound edge member), nodesSound⟩
  · rintro ⟨distinct, edgesSound, nodesSound⟩
    exact ⟨distinct, fun edge member => (edgeFault?_eq_none_iff_sound distinct).mpr (edgesSound edge member), nodesSound⟩

theorem ofDocument_eq_error_iff : ofDocument document = .error error ↔ document.FirstFault error := by
  rw [← fault?_eq_some_iff, ofDocument]
  cases fault? document with
  | some other => simp
  | none => simp

end FirstFault

section Contents

/-- A graph holds the nodes of a document and its edges of named kinds, in their order, and finds a node by its number. -/
structure Holds (graph : ObjectGraph) (document : Document) : Prop where
  context : graph.context = ⟨document.namedBuiltins, document.lastBuiltinId, document.packageRoot⟩
  nodes : graph.nodes = document.nodes
  edges : graph.edges = document.edges.filter fun edge => edge.kind != .other
  lookup : ∀ id node, graph.node? id = some node ↔ node ∈ graph.nodes ∧ node.id = id

theorem holds_of_ofDocument (valid : ofDocument document = .ok graph) : graph.Holds document := by
  have rules := wellFormed_of_ofDocument valid
  obtain ⟨-, rfl⟩ := ofDocument_eq_ok_iff.mp valid
  exact ⟨rfl, rfl, rfl, fun id node => node?_eq_some_iff rules.distinct⟩

end Contents

/-- A document has a graph exactly if it keeps all rules, and of any other document the violation that comes first is
reported. Reading the document entry by entry ends in the same way. The store that it gives indexes the graph: the table
inverts the numbers of the nodes, the lists of a node ascend and have exactly its edges, and both answer as the graph does. -/
theorem documents_checked (document : Document) :
    ((∃ graph, ofDocument document = .ok graph) ↔ document.WellFormed) ∧
    (∀ error, ofDocument document = .error error ↔ document.FirstFault error) ∧
    ((∃ store, (GraphStore.load document).run = some (.ok store)) ↔ document.WellFormed) ∧
    (∀ error, (GraphStore.load document).run = some (.error error) ↔ document.FirstFault error) ∧
    ∀ store, (GraphStore.load document).run = some (.ok store) → ∃ graph, ofDocument document = .ok graph ∧
      graph.Holds document ∧ store.Indexes graph ∧ store.Answers graph := by
  have accepted : (∃ graph, ofDocument document = .ok graph) ↔ fault? document = none := by
    simp [ofDocument_eq_ok_iff]
  refine ⟨?_, fun error => ofDocument_eq_error_iff, ?_, fun error => ?_, fun store loaded => ?_⟩
  · rw [accepted, fault?_eq_none_iff_wellFormed]
  · rw [GraphStore.exists_load_eq_ok_iff, fault?_eq_none_iff_wellFormed]
  · rw [GraphStore.load_eq_error_iff, fault?_eq_some_iff]
  · obtain ⟨sound, indexes⟩ := GraphStore.indexes_of_load loaded
    have valid : ofDocument document = .ok (ofParts document) := ofDocument_eq_ok_iff.mpr ⟨sound, rfl⟩
    exact ⟨_, valid, holds_of_ofDocument valid, indexes, indexes.answers⟩

theorem documents_checked_skipping :
    let nodes : List NodeRecord := [.object { id := 1 }, .ast { id := 2 }]
    let skipped : EdgeRecord := ⟨7, 8, .other, none⟩
    (∃ store graph, (GraphStore.load { nodes := nodes, edges := [skipped, ⟨1, 2, .objToAst, none⟩] }).run = some (.ok store) ∧
      ofDocument { nodes := nodes, edges := [skipped, ⟨1, 2, .objToAst, none⟩] } = .ok graph ∧
      graph.edges = [⟨1, 2, .objToAst, none⟩] ∧ store.node? 2 = some (.ast { id := 2 }) ∧
      store.inEdges? 1 = some [⟨0, 1, .objToAst, none⟩]) ∧
    Document.FirstFault { nodes := nodes, edges := [skipped, ⟨1, 9, .objToAst, none⟩, ⟨2, 2, .objToAst, none⟩] }
      (.unknownNode 1 .objToAst 9) := by
  intro nodes skipped
  let sound : Document := { nodes := nodes, edges := [skipped, ⟨1, 2, .objToAst, none⟩] }
  have loads : ∃ store, (GraphStore.load sound).run = some (.ok store) ∧ store.inEdges? 1 = some [⟨0, 1, .objToAst, none⟩] :=
    ⟨_, rfl, rfl⟩
  obtain ⟨store, loaded, entering⟩ := loads
  obtain ⟨graph, valid, held, -, answers⟩ := (documents_checked sound).2.2.2.2 store loaded
  have found : graph.node? 2 = some (.ast { id := 2 }) := by
    refine (held.lookup 2 _).mpr ⟨?_, rfl⟩
    rw [held.nodes]
    exact List.mem_cons_of_mem _ List.mem_cons_self
  exact ⟨⟨store, graph, loaded, valid, held.edges, (answers.node? 2).trans found, entering⟩,
    ((documents_checked _).2.2.2.1 _).mp rfl⟩

end ObjectGraph

end DomainFlow
