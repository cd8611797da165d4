import DomainFlow.Proofs.GrowingRelations

/-!
The order of a document does not matter. What is found first among several nodes or edges is the only one
there is, as long as places have one enclosing place and objects are required once. So the same document in
another order has as much flow as before, in both directions. What is left to the order are the properties on
the path that is kept among equally short ones, and their names are gone when domains are merged.
-/
namespace DomainFlow

theorem eq_of_perm_of_length_le_one {α : Type} {first second : List α} (reordered : first.Perm second)
    (short : first.length ≤ 1) : first = second := by
  match first, short with
  | [], _ => exact reordered.nil_eq
  | [only], _ => exact reordered.singleton_eq

def OneInto (kind : EdgeKind) (edges : List EdgeRecord) : Prop :=
  ∀ id, (edges.filter fun edge => edge.target == id && edge.kind == kind).length ≤ 1

namespace OneInto
variable {kind : EdgeKind} {edges others : List EdgeRecord}

theorem filter (single : OneInto kind edges) (test : EdgeRecord → Bool) : OneInto kind (edges.filter test) :=
  fun id => Nat.le_trans (List.filter_sublist.filter _).length_le (single id)

theorem perm (single : OneInto kind edges) (reordered : edges.Perm others) : OneInto kind others :=
  fun id => (reordered.filter _).length_eq ▸ single id

end OneInto

/-- The same document with its nodes and edges in another order. -/
structure Document.Reorders (before after : Document) : Prop where
  packageRoot : before.packageRoot = after.packageRoot
  lastBuiltinId : before.lastBuiltinId = after.lastBuiltinId
  namedBuiltins : before.namedBuiltins = after.namedBuiltins
  nodes : before.nodes.Perm after.nodes
  edges : before.edges.Perm after.edges

namespace ObjectGraph
variable {graph twin : ObjectGraph} {id : NodeId}

/-- The same graph with its nodes and edges in another order. -/
structure Reorders (graph twin : ObjectGraph) : Prop where
  context : graph.context = twin.context
  nodes : graph.nodes.Perm twin.nodes
  edges : graph.edges.Perm twin.edges

theorem findNode?_eq_of_perm {nodes others : List NodeRecord} (reordered : nodes.Perm others)
    (distinct : (nodes.map NodeRecord.id).Nodup) : findNode? nodes id = findNode? others id := by
  have distinctToo : (others.map NodeRecord.id).Nodup := (reordered.map NodeRecord.id).nodup_iff.mp distinct
  apply Option.ext
  intro node
  rw [findNode?, findNode?, find?_key_eq_some_iff distinct, find?_key_eq_some_iff distinctToo, reordered.mem_iff]

theorem WellFormed.length_definitions_le_one (rules : graph.WellFormed) :
    (graph.outNeighbors id .objToAst).length ≤ 1 := by
  by_cases isObject : (graph.object? id).isSome
  · exact rules.oneDefinition id isObject
  · have nothing : graph.outNeighbors id .objToAst = [] := by
      apply List.eq_nil_iff_forall_not_mem.mpr
      intro place member
      obtain ⟨node, found, kind⟩ := rules.source_kind (mem_outNeighbors.mp member) rfl
      exact isObject (isSome_object?_of_kind found kind)
    rw [nothing]
    exact Nat.zero_le 1

namespace Reorders
variable (reorders : graph.Reorders twin)
include reorders

theorem symm : twin.Reorders graph := ⟨reorders.context.symm, reorders.nodes.symm, reorders.edges.symm⟩

theorem outNeighbors_perm {kind : EdgeKind} : (graph.outNeighbors id kind).Perm (twin.outNeighbors id kind) :=
  ((reorders.edges.filter _).filter _).map _

theorem node?_eq (distinct : graph.ids.Nodup) : graph.node? id = twin.node? id :=
  findNode?_eq_of_perm reorders.nodes distinct

theorem nodeFault?_eq_none (distinct : graph.ids.Nodup) {node : NodeRecord} (sound : graph.nodeFault? node = none) :
    twin.nodeFault? node = none := by
  cases node with
  | object object =>
    simp only [nodeFault?] at sound ⊢
    rw [← reorders.outNeighbors_perm.length_eq]
    exact sound
  | ast ast =>
    simp only [nodeFault?] at sound ⊢
    simp only [← reorders.node?_eq distinct]
    exact sound
  | name name => rfl
  | scope scope => rfl

theorem sameOrigins (rules : graph.WellFormed) (oneParent : OneInto .parentOf graph.edges) : graph.SameOrigins twin := by
  have sameAst : ∀ id, graph.ast? id = twin.ast? id := by
    intro id
    rw [ast?, reorders.node?_eq rules.distinct, ast?]
  have sameParent : ∀ id, (graph.inNeighbors id .parentOf).head? = (twin.inNeighbors id .parentOf).head? := by
    intro id
    have single := oneParent id
    have parents : graph.inNeighbors id .parentOf = twin.inNeighbors id .parentOf := by
      apply eq_of_perm_of_length_le_one (((reorders.edges.filter _).filter _).map _)
      rw [List.length_map, List.filter_filter]
      simpa only [Bool.and_comm] using single
    rw [parents]
  refine ⟨reorders.context, sameAst, fun id => ?_, fun id => ?_⟩
  · exact sourceFile?_eq_of_perm sameAst sameParent (reorders.nodes.map NodeRecord.id)
  · rw [definition?, definition?,
      eq_of_perm_of_length_le_one reorders.outNeighbors_perm rules.length_definitions_le_one]

theorem grows (rules : graph.WellFormed) (oneParent : OneInto .parentOf graph.edges)
    (oneName : OneInto .astRequireToObj graph.edges) : graph.Grows twin where
  nodes _ := reorders.nodes.mem_iff
  node _ := reorders.node?_eq rules.distinct
  edges := reorders.edges.subset
  steady _ member _ := reorders.edges.mem_iff.mpr member
  origins := reorders.sameOrigins rules oneParent
  modules id := by
    rw [requiredName?, requiredName?, eq_of_perm_of_length_le_one (reorders.edges.filter _) (oneName id)]

end Reorders

end ObjectGraph

namespace Document.Reorders
variable {document reordered : Document} (reorders : document.Reorders reordered)
include reorders

theorem ofParts : (ObjectGraph.ofParts document).Reorders (ObjectGraph.ofParts reordered) where
  context := by
    simp only [ObjectGraph.ofParts, reorders.packageRoot, reorders.lastBuiltinId, reorders.namedBuiltins]
  nodes := reorders.nodes
  edges := reorders.edges.filter _

theorem fault?_eq_none (sound : ObjectGraph.fault? document = none) : ObjectGraph.fault? reordered = none := by
  obtain ⟨distinct, edgesSound, nodesSound⟩ := ObjectGraph.fault?_eq_none_iff.mp sound
  refine ObjectGraph.fault?_eq_none_iff.mpr ⟨?_, ?_, ?_⟩
  · exact (reorders.nodes.map NodeRecord.id).nodup_iff.mp distinct
  · intro edge member
    have quiet := edgesSound edge (reorders.edges.mem_iff.mpr member)
    simp only [ObjectGraph.edgeFault?, ObjectGraph.findNode?_eq_of_perm reorders.nodes distinct] at quiet
    exact quiet
  · intro node member
    exact reorders.ofParts.nodeFault?_eq_none distinct (nodesSound node (reorders.nodes.mem_iff.mpr member))

end Document.Reorders

section Relations
variable {graph twin : ObjectGraph} {listed relisted : List NodeId} {seeds reseeds : Seeds} {options : AnalysisOptions}
  {scripts : Option LifecycleScripts}

theorem ObjectGraph.exists_seeds_error {id : NodeId} (member : id ∈ listed) (unknown : graph.object? id = none) :
    ∃ error, graph.seeds listed = .error error := by
  cases outcome : graph.seeds listed with
  | error error => exact ⟨error, rfl⟩
  | ok seeds =>
    have known := (ObjectGraph.seeds_eq_ok_iff.mp outcome).1 id member
    rw [unknown] at known
    cases known

/-- A document that is valid stays so in another order. The analysis gives the same relations between merged
domains, or fails both times because an object to export is not known. -/
theorem relations_reorder {document reordered : Document} (reorders : document.Reorders reordered)
    (permuted : listed.Perm relisted) (valid : ObjectGraph.ofDocument document = .ok graph)
    (oneParent : OneInto .parentOf document.edges) (oneName : OneInto .astRequireToObj document.edges)
    (consolidates : options.consolidate = true) (scripts : Option LifecycleScripts) :
    ∃ twin, ObjectGraph.ofDocument reordered = .ok twin ∧
      ((∀ id ∈ listed, (graph.object? id).isSome) → ∃ earlier later,
        VersionAnalysis.run options graph ⟨listed, scripts⟩ = .ok earlier ∧
        VersionAnalysis.run options twin ⟨relisted, scripts⟩ = .ok later ∧
        earlier.relations.relationSet = later.relations.relationSet) ∧
      ((∃ id ∈ listed, graph.object? id = none) → ∃ error other,
        VersionAnalysis.run options graph ⟨listed, scripts⟩ = .error error ∧
        VersionAnalysis.run options twin ⟨relisted, scripts⟩ = .error other) := by
  have rules := ObjectGraph.wellFormed_of_ofDocument valid
  obtain ⟨sound, rfl⟩ := ObjectGraph.ofDocument_eq_ok_iff.mp valid
  have validToo := ObjectGraph.ofDocument_eq_ok_iff.mpr ⟨reorders.fault?_eq_none sound, rfl⟩
  have rulesToo := ObjectGraph.wellFormed_of_ofDocument validToo
  have grows := reorders.ofParts.grows rules (oneParent.filter _) (oneName.filter _)
  have growsBack := reorders.ofParts.symm.grows rulesToo ((oneParent.perm reorders.edges).filter _)
    ((oneName.perm reorders.edges).filter _)
  refine ⟨_, validToo, ?_, ?_⟩
  · intro known
    have accepted := ObjectGraph.seeds_eq_ok_iff.mpr ⟨known, rfl⟩
    have knownToo : ∀ id ∈ relisted, ((ObjectGraph.ofParts reordered).object? id).isSome := by
      intro id member
      rw [← grows.object?_eq]
      exact known id (permuted.mem_iff.mpr member)
    have acceptedToo := ObjectGraph.seeds_eq_ok_iff.mpr ⟨knownToo, rfl⟩
    refine ⟨_, _, VersionAnalysis.run_eq_ok_of_seeds accepted, VersionAnalysis.run_eq_ok_of_seeds acceptedToo, ?_⟩
    -- Each of the two graphs is the other one with more flow, so neither loses a relation.
    apply SortedSet.ext_mem
    intro relation
    constructor
    · exact ObjectGraph.Widening.mem_merge ⟨grows, rules, rulesToo, accepted, acceptedToo, permuted.subset⟩ consolidates
    · exact ObjectGraph.Widening.mem_merge ⟨growsBack, rulesToo, rules, acceptedToo, accepted, permuted.symm.subset⟩
        consolidates
  · intro missing
    obtain ⟨id, member, unknown⟩ := missing
    obtain ⟨error, refused⟩ := ObjectGraph.exists_seeds_error member unknown
    have unknownToo : (ObjectGraph.ofParts reordered).object? id = none := by
      rw [← grows.object?_eq]
      exact unknown
    obtain ⟨other, refusedToo⟩ := ObjectGraph.exists_seeds_error (permuted.mem_iff.mp member) unknownToo
    exact ⟨error, other, VersionAnalysis.run_eq_error_of_seeds refused, VersionAnalysis.run_eq_error_of_seeds refusedToo⟩

/-- The version in which the place that requires the module encloses the other one. -/
def ObjectGraph.nestedDocument : Document :=
  { leakingDocument with edges := ⟨1, 2, .parentOf, none⟩ :: leakingDocument.edges }

/-- The same version, reported from the end to the start. -/
def ObjectGraph.reversedDocument : Document :=
  { nestedDocument with nodes := nestedDocument.nodes.reverse, edges := nestedDocument.edges.reverse }

theorem relations_reorder_leaking : ObjectGraph.nestedDocument.Reorders ObjectGraph.reversedDocument ∧
    OneInto .parentOf ObjectGraph.nestedDocument.edges ∧ OneInto .astRequireToObj ObjectGraph.nestedDocument.edges ∧
    ∃ twin earlier later, ObjectGraph.ofDocument ObjectGraph.reversedDocument = .ok twin ∧
      VersionAnalysis.run ⟨none, true, false⟩ (.ofParts ObjectGraph.nestedDocument) ⟨[12, 13], none⟩ = .ok earlier ∧
      VersionAnalysis.run ⟨none, true, false⟩ twin ⟨[13, 12], none⟩ = .ok later ∧
      earlier.relations.relationSet = later.relations.relationSet := by
  have reorders : ObjectGraph.nestedDocument.Reorders ObjectGraph.reversedDocument :=
    ⟨rfl, rfl, rfl, (List.reverse_perm _).symm, (List.reverse_perm _).symm⟩
  have single : ∀ kind, (ObjectGraph.nestedDocument.edges.filter fun edge => edge.kind == kind).length ≤ 1 →
      OneInto kind ObjectGraph.nestedDocument.edges := by
    intro kind few id
    rw [← List.filter_filter]
    exact Nat.le_trans (List.length_filter_le _ _) few
  have oneParent := single .parentOf (by decide)
  have oneName := single .astRequireToObj (by decide)
  obtain ⟨twin, validToo, same, -⟩ := relations_reorder reorders (List.Perm.swap 13 12 []) rfl oneParent oneName
    (show AnalysisOptions.consolidate ⟨none, true, false⟩ = true from rfl) none
  obtain ⟨earlier, later, ran, ranToo, equal⟩ := same (List.forall_mem_cons.mpr ⟨rfl, List.forall_mem_singleton.mpr rfl⟩)
  exact ⟨reorders, oneParent, oneName, twin, earlier, later, validToo, ran, ranToo, equal⟩

end Relations

end DomainFlow
