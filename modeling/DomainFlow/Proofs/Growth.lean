import DomainFlow.Proofs.ExtractedDomain
import DomainFlow.Proofs.Places

/-!
Graphs that grow by flow alone. Edges over which values and properties get from one object to another are
put in anywhere between the edges that are there; all else stays. Then all that was needed, kept or taken
over still is, and what has to do with places and required modules does not change.
-/
namespace DomainFlow

/-- The kinds of edges over which values and properties get from one object to another. -/
def flowingKinds : List EdgeKind :=
  [.contributesTo, .funcObjToSymParam, .funcObjToRetVal, .objToProp, .nameToObj]

/-- Some edges, and the same edges with others of the flowing kinds between them. -/
inductive MoreFlow : List EdgeRecord → List EdgeRecord → Prop where
  | nil : MoreFlow [] []
  | keep {edge : EdgeRecord} {earlier later : List EdgeRecord} : MoreFlow earlier later →
      MoreFlow (edge :: earlier) (edge :: later)
  | add {edge : EdgeRecord} {earlier later : List EdgeRecord} : edge.kind ∈ flowingKinds → MoreFlow earlier later →
      MoreFlow earlier (edge :: later)

namespace MoreFlow
variable {earlier later : List EdgeRecord}

theorem subset (more : MoreFlow earlier later) : earlier ⊆ later := by
  induction more with
  | nil => exact List.Subset.refl _
  | keep _ ih => exact List.cons_subset_cons _ ih
  | add _ _ ih => exact List.subset_cons_of_subset _ ih

theorem mem_of_steady {edge : EdgeRecord} (more : MoreFlow earlier later) (member : edge ∈ later)
    (other : edge.kind ∉ flowingKinds) : edge ∈ earlier := by
  induction more with
  | nil => exact member
  | keep _ ih =>
    rcases List.mem_cons.mp member with rfl | behind
    · exact List.mem_cons_self
    · exact List.mem_cons_of_mem _ (ih behind)
  | add flows _ ih =>
    rcases List.mem_cons.mp member with rfl | behind
    · exact absurd flows other
    · exact ih behind

theorem filter (more : MoreFlow earlier later) (test : EdgeRecord → Bool) :
    MoreFlow (earlier.filter test) (later.filter test) := by
  induction more with
  | nil => exact .nil
  | @keep edge _ _ _ ih =>
    by_cases passes : test edge = true
    · rw [List.filter_cons_of_pos passes, List.filter_cons_of_pos passes]
      exact .keep ih
    · rw [List.filter_cons_of_neg passes, List.filter_cons_of_neg passes]
      exact ih
  | @add edge _ _ flows _ ih =>
    by_cases passes : test edge = true
    · rw [List.filter_cons_of_pos passes]
      exact .add flows ih
    · rw [List.filter_cons_of_neg passes]
      exact ih

/-- A test that no edge of a flowing kind passes does not tell the edges apart. -/
theorem filter_eq (more : MoreFlow earlier later) {test : EdgeRecord → Bool}
    (others : ∀ edge, test edge = true → edge.kind ∉ flowingKinds) : earlier.filter test = later.filter test := by
  induction more with
  | nil => rfl
  | @keep edge _ _ _ ih => rw [List.filter_cons, List.filter_cons, ih]
  | @add edge _ _ flows _ ih =>
    have fails : ¬test edge = true := fun passes => others edge passes flows
    rw [List.filter_cons_of_neg fails, ih]

end MoreFlow

/-- One document is another one with more flow. -/
structure Document.Grows (before after : Document) : Prop where
  packageRoot : before.packageRoot = after.packageRoot
  lastBuiltinId : before.lastBuiltinId = after.lastBuiltinId
  namedBuiltins : before.namedBuiltins = after.namedBuiltins
  nodes : before.nodes = after.nodes
  edges : MoreFlow before.edges after.edges

/-- How the type of an object may change: it becomes the result of a call, if it belonged to the interpreter
or was of no special type. -/
def ObjectType.Grows (before after : ObjectType) : Prop :=
  after = before ∨ after = .apiRetVal ∧ (before = .builtin ∨ before = .other)

theorem ObjectType.Grows.ite {condition : Prop} [Decidable condition] {first second before after : ObjectType}
    (ifTrue : first.Grows second) (ifFalse : before.Grows after) :
    (if condition then first else before).Grows (if condition then second else after) := by
  split
  · exact ifTrue
  · exact ifFalse

/-- A condition that more flow can only bring about makes an object the result of a call. -/
theorem ObjectType.Grows.ite_apiRetVal {condition more : Prop} [Decidable condition] [Decidable more]
    {before : ObjectType} (implies : condition → more) (untyped : before = .builtin ∨ before = .other) :
    (if condition then .apiRetVal else before : ObjectType).Grows (if more then .apiRetVal else before) := by
  by_cases holds : condition
  · rw [if_pos holds, if_pos (implies holds)]
    exact .inl rfl
  · rw [if_neg holds]
    split
    · exact .inr ⟨rfl, untyped⟩
    · exact .inl rfl

/-- How an object may change: it may come to be exported or the result of a call, and all else that its
domain depends on stays. -/
structure FlowObject.Grows (before after : FlowObject) : Prop where
  trustDomain : after.trustDomain = before.trustDomain
  valueType : after.valueType = before.valueType
  code : after.code = before.code
  nativeFunction : after.nativeFunction = before.nativeFunction
  builtinName : after.builtinName = before.builtinName
  exported : before.isExported = true → after.isExported = true
  type : before.objectType.Grows after.objectType

theorem FlowObject.Grows.objectDomain?_eq {before after : FlowObject} (grows : before.Grows after)
    {flow larger : DataFlowGraph} {builtinsDirectory : Option String} {id : NodeId}
    (sameDefinition : larger.definition? id = flow.definition? id)
    (sameModule : larger.requiredModule? id = flow.requiredModule? id) :
    larger.objectDomain? builtinsDirectory id after = flow.objectDomain? builtinsDirectory id before := by
  have written : ∀ definition, DataFlowGraph.isWritten after definition = DataFlowGraph.isWritten before definition := by
    intro definition
    rw [DataFlowGraph.isWritten, grows.valueType, grows.nativeFunction, DataFlowGraph.isWritten]
  have text : DataFlowGraph.codeText after = DataFlowGraph.codeText before := by
    rw [DataFlowGraph.codeText, grows.code, DataFlowGraph.codeText]
  simp only [DataFlowGraph.objectDomain?, grows.trustDomain, sameDefinition, sameModule, written, text]
  -- Neither builtin objects nor results of calls have a domain by their type.
  rcases grows.type with same | ⟨isResult, wasBuiltin | wasOther⟩
  · rw [same]
  · rw [isResult, wasBuiltin]
  · rw [isResult, wasOther]

namespace ObjectGraph

/-- One graph is another one with more flow: all other edges are the same, and objects come from the same places
and have the same names as modules. -/
structure Grows (graph larger : ObjectGraph) : Prop where
  nodes : ∀ node, node ∈ graph.nodes ↔ node ∈ larger.nodes
  node : ∀ id, graph.node? id = larger.node? id
  edges : graph.edges ⊆ larger.edges
  steady : ∀ edge ∈ larger.edges, edge.kind ∉ flowingKinds → edge ∈ graph.edges
  origins : graph.SameOrigins larger
  modules : ∀ id, graph.requiredName? id = larger.requiredName? id

section MoreEdges
variable {graph larger : ObjectGraph} (more : MoreFlow graph.edges larger.edges)
include more

theorem outNeighbors_eq_of_moreFlow {id : NodeId} {kind : EdgeKind} (other : kind ∉ flowingKinds) :
    graph.outNeighbors id kind = larger.outNeighbors id kind := by
  simp only [outNeighbors, outEdges, List.filter_filter]
  rw [more.filter_eq]
  intro edge passes
  simp only [Bool.and_eq_true, beq_iff_eq] at passes
  rw [passes.1]
  exact other

theorem inNeighbors_eq_of_moreFlow {id : NodeId} {kind : EdgeKind} (other : kind ∉ flowingKinds) :
    graph.inNeighbors id kind = larger.inNeighbors id kind := by
  simp only [inNeighbors, inEdges, List.filter_filter]
  rw [more.filter_eq]
  intro edge passes
  simp only [Bool.and_eq_true, beq_iff_eq] at passes
  rw [passes.1]
  exact other

theorem requiredName?_eq_of_moreFlow {id : NodeId} : graph.requiredName? id = larger.requiredName? id := by
  rw [requiredName?, more.filter_eq, requiredName?]
  intro edge passes
  simp only [Bool.and_eq_true, beq_iff_eq] at passes
  rw [passes.2]
  decide

theorem grows_of_moreFlow (context : graph.context = larger.context) (nodes : graph.nodes = larger.nodes) :
    graph.Grows larger where
  nodes _ := by rw [nodes]
  node _ := by rw [node?, nodes, node?]
  edges := more.subset
  steady _ := more.mem_of_steady
  origins := by
    have sameAst : ∀ id, graph.ast? id = larger.ast? id := fun _ => by rw [ast?, node?, nodes, ast?, node?]
    have sameParent : ∀ id, (graph.inNeighbors id .parentOf).head? = (larger.inNeighbors id .parentOf).head? :=
      fun _ => by rw [inNeighbors_eq_of_moreFlow more (by decide)]
    refine ⟨context, sameAst, fun _ => ?_, fun _ => ?_⟩
    · exact sourceFile?_eq_of_perm sameAst sameParent (.of_eq (by rw [ids, nodes, ids]))
    · rw [definition?, outNeighbors_eq_of_moreFlow more (by decide), definition?]
  modules _ := requiredName?_eq_of_moreFlow more

end MoreEdges

theorem grows_of_ofDocument {before after : Document} {graph larger : ObjectGraph} (grows : before.Grows after)
    (valid : ofDocument before = .ok graph) (validToo : ofDocument after = .ok larger) : graph.Grows larger := by
  obtain ⟨-, rfl⟩ := ofDocument_eq_ok_iff.mp valid
  obtain ⟨-, rfl⟩ := ofDocument_eq_ok_iff.mp validToo
  refine grows_of_moreFlow (grows.edges.filter _) ?_ grows.nodes
  simp only [ofParts, grows.namedBuiltins, grows.lastBuiltinId, grows.packageRoot]

namespace Grows
variable {graph larger : ObjectGraph} (grows : graph.Grows larger)
include grows

theorem object?_eq {id : NodeId} : graph.object? id = larger.object? id := by
  rw [object?, grows.node, object?]

theorem propertyName?_eq {name : NodeId} : graph.propertyName? name = larger.propertyName? name := by
  rw [propertyName?, grows.node, propertyName?]

theorem joins {kind : EdgeKind} {source target : NodeId} (joined : graph.Joins kind source target) :
    larger.Joins kind source target := by
  obtain ⟨name, member⟩ := joined
  exact ⟨name, grows.edges member⟩

theorem joins_iff {kind : EdgeKind} (other : kind ∉ flowingKinds) {source target : NodeId} :
    graph.Joins kind source target ↔ larger.Joins kind source target := by
  refine ⟨grows.joins, fun joined => ?_⟩
  obtain ⟨name, member⟩ := joined
  exact ⟨name, grows.steady _ member other⟩

theorem hasProperty {parent name child : NodeId} (property : graph.HasProperty parent name child) :
    larger.HasProperty parent name child :=
  ⟨grows.joins property.1, grows.joins property.2⟩

theorem isLocalCall_eq {site : NodeId} : graph.isLocalCall site = larger.isLocalCall site := by
  have callees : ∀ callee, callee ∈ graph.outNeighbors site .astCallToFuncObj ↔
      callee ∈ larger.outNeighbors site .astCallToFuncObj := by
    intro callee
    rw [mem_outNeighbors, mem_outNeighbors, grows.joins_iff (by decide)]
  rw [Bool.eq_iff_iff]
  simp only [isLocalCall, List.any_eq_true, callees, grows.origins.definition, grows.origins.definesPackageFunction_eq]

theorem mem_callSites_iff {site : NodeId} : site ∈ graph.callSites ↔ site ∈ larger.callSites := by
  simp only [callSites, List.mem_map, List.mem_filter, List.mem_filterMap, grows.nodes, grows.isLocalCall_eq]

theorem mem_requireResults_iff {id : NodeId} : id ∈ graph.requireResults ↔ id ∈ larger.requireResults := by
  have required : ∀ place, graph.Joins .astRequireToObj place id ↔ larger.Joins .astRequireToObj place id :=
    fun _ => grows.joins_iff (by decide)
  simp only [mem_requireResults, required]

section Rules
variable {listed listedMore : List NodeId} {id : NodeId}

theorem mem_returnObjects {site : NodeId} (returned : id ∈ graph.returnObjects site) :
    id ∈ larger.returnObjects site := by
  simp only [returnObjects, List.mem_eraseDups, List.mem_filter, List.mem_flatMap, mem_outNeighbors,
    List.contains_iff_mem, mem_inNeighbors] at returned ⊢
  obtain ⟨⟨function, called, result⟩, created⟩ := returned
  exact ⟨⟨function, grows.joins called, grows.joins result⟩, grows.joins created⟩

theorem mem_callReturns (returned : id ∈ graph.callReturns) : id ∈ larger.callReturns := by
  simp only [callReturns, List.mem_eraseDups, List.mem_flatMap] at returned ⊢
  obtain ⟨site, isSite, fromSite⟩ := returned
  exact ⟨site, grows.mem_callSites_iff.mp isSite, grows.mem_returnObjects fromSite⟩

theorem needed (wider : listed ⊆ listedMore) (needed : graph.Needed listed id) : larger.Needed listedMore id := by
  induction needed with
  | callReturn returned => exact .callReturn (grows.mem_callReturns returned)
  | exported found shown => exact .exported (grows.object?_eq ▸ found) (shown.imp_right fun member => wider member)
  | required joined => exact .required (grows.joins joined)
  | source carries joined _ ih => exact .source carries (grows.joins joined) ih
  | child property _ ih => exact .child (grows.hasProperty property) ih
  | parent property _ ih => exact .parent (grows.hasProperty property) ih

theorem kept (wider : listed ⊆ listedMore) (kept : graph.Kept listed id) : larger.Kept listedMore id := by
  rcases kept with isPlace | needed | ⟨place, ast, found, exported⟩
  · exact .inl (grows.origins.ast _ ▸ isPlace)
  · exact .inr (.inl (grows.needed wider needed))
  · exact .inr (.inr ⟨place, ast, grows.origins.ast _ ▸ found, exported⟩)

theorem taken (wider : listed ⊆ listedMore) {edge : FlowEdge} (taken : graph.Taken listed edge) :
    larger.Taken listedMore edge := by
  cases taken with
  | place joined => exact .place (grows.joins joined)
  | contribution kinds joined needed => exact .contribution kinds (grows.joins joined) (grows.needed wider needed)
  | result joined needed => exact .result (grows.joins joined) (grows.needed wider needed)
  | module member needed => exact .module (grows.edges member) (grows.needed wider needed)
  | definition joined needed => exact .definition (grows.joins joined) (grows.needed wider needed)
  | property property needed =>
    rw [grows.propertyName?_eq]
    exact .property (grows.hasProperty property) (grows.needed wider needed)
  | moduleExport found exported => exact .moduleExport (grows.origins.ast _ ▸ found) exported

/-- No edge that requires a module comes in. -/
theorem taken_of_module {edge : FlowEdge} (taken : larger.Taken listedMore edge) (kind : edge.kind = .astRequireToObj) :
    graph.Taken listed edge := by
  cases taken with
  | @module place object name member =>
    have present := grows.steady _ member (by simp [flowingKinds])
    exact .module present (.required ⟨_, present⟩)
  | _ => cases kind

end Rules

section Types

theorem typeByDefinition {object : ObjectRecord} {place : NodeId} {ast : AstRecord} :
    (graph.typeByDefinition object place ast).Grows (larger.typeByDefinition object place ast) := by
  refine .ite (.inl rfl) (.ite (.inl rfl) (.ite (.inl rfl) (.ite (.inl rfl) ?_)))
  refine .ite_apiRetVal ?_ (.inr rfl)
  simp only [Bool.and_eq_true, List.contains_iff_mem]
  exact And.imp_right grows.mem_returnObjects

theorem classify {returns returnsMore : List NodeId} (wider : returns ⊆ returnsMore) {id : NodeId} :
    (graph.classify returns id).Grows (larger.classify returnsMore id) := by
  simp only [ObjectGraph.classify, ← grows.object?_eq, ← grows.origins.context,
    ← grows.origins.usableDefinition?_eq]
  cases graph.object? id with
  | none => exact .inl rfl
  | some object =>
    dsimp only
    cases object.objectType with
    | some type => exact .inl rfl
    | none =>
      cases object.fakeArgument with
      | some argument => cases argument <;> exact .inl rfl
      | none =>
        cases graph.usableDefinition? id with
        | some definition => exact grows.typeByDefinition
        | none =>
          refine .ite (.inl rfl) (.ite_apiRetVal ?_ ?_)
          · simp only [List.contains_iff_mem]
            exact fun member => wider member
          · split
            · exact .inl rfl
            · exact .inr rfl

end Types

end Grows

/-- Two checked graphs of which the second has more flow, with lists of exported objects of which the
second names more, and the seeds that they give. -/
structure Widening (graph larger : ObjectGraph) (listed listedMore : List NodeId) (seeds seedsMore : Seeds) : Prop where
  grows : graph.Grows larger
  rules : graph.WellFormed
  rulesMore : larger.WellFormed
  accepted : graph.seeds listed = .ok seeds
  acceptedMore : larger.seeds listedMore = .ok seedsMore
  wider : listed ⊆ listedMore

namespace Widening
variable {graph larger : ObjectGraph} {listed listedMore : List NodeId} {seeds seedsMore : Seeds} {id : NodeId}
  (widening : Widening graph larger listed listedMore seeds seedsMore)
include widening

theorem object?_flowNode {record : NodeRecord} :
    Option.Rel FlowObject.Grows (graph.flowNode seeds record).object? (larger.flowNode seedsMore record).object? := by
  obtain ⟨grows, rules, rulesMore, accepted, acceptedMore, wider⟩ := widening
  obtain ⟨-, rfl⟩ := seeds_eq_ok_iff.mp accepted
  obtain ⟨-, rfl⟩ := seeds_eq_ok_iff.mp acceptedMore
  cases record with
  | ast ast => exact .none
  | object object =>
    refine .some ⟨rfl, rfl, rfl, rfl, by rw [grows.origins.context], ?_, ?_⟩
    · simp only [List.contains_iff_mem, mem_exportedObjects rules.distinct, mem_exportedObjects rulesMore.distinct]
      intro exported
      obtain ⟨found, isObject, shown⟩ := exported
      exact ⟨found, grows.object?_eq ▸ isObject, shown.imp_right fun member => wider member⟩
    · simp only [List.contains_iff_mem, grows.mem_requireResults_iff]
      split
      · exact .inl rfl
      · exact grows.classify fun _ member => grows.mem_callReturns member
  | name name => exact .some ⟨rfl, rfl, rfl, rfl, rfl, fun exported => exported, .inl rfl⟩
  | scope scope => exact .some ⟨rfl, rfl, rfl, rfl, rfl, fun exported => exported, .inl rfl⟩

theorem object?_extractFrom (kept : graph.Kept listed id) : Option.Rel FlowObject.Grows
    ((graph.extractFrom seeds).object? id) ((larger.extractFrom seedsMore).object? id) := by
  obtain ⟨record, found⟩ := Option.isSome_iff_exists.mp (kept.isNode widening.rules)
  have keptMore := widening.grows.kept widening.wider kept
  rw [DataFlowGraph.object?, DataFlowGraph.object?, node?_extractFrom widening.rules widening.accepted kept found,
    node?_extractFrom widening.rulesMore widening.acceptedMore keptMore (widening.grows.node id ▸ found)]
  exact widening.object?_flowNode

/-- What is needed keeps the domain that it has by itself. -/
theorem domain?_extractFrom {builtinsDirectory : Option String} (needed : graph.Needed listed id) :
    (larger.extractFrom seedsMore).domain? builtinsDirectory id =
      (graph.extractFrom seeds).domain? builtinsDirectory id := by
  have neededMore := widening.grows.needed widening.wider needed
  have sameDefinition : (larger.extractFrom seedsMore).definition? id = (graph.extractFrom seeds).definition? id := by
    have asts : graph.ast? = larger.ast? := funext widening.grows.origins.ast
    rw [definition?_extractFrom widening.rules widening.accepted needed,
      definition?_extractFrom widening.rulesMore widening.acceptedMore neededMore,
      widening.grows.origins.definition, asts]
    simp only [widening.grows.origins.flowAst_eq]
  have sameModule : (larger.extractFrom seedsMore).requiredModule? id = (graph.extractFrom seeds).requiredModule? id := by
    rw [requiredModule?_extractFrom widening.rules widening.accepted,
      requiredModule?_extractFrom widening.rulesMore widening.acceptedMore, widening.grows.modules]
  have related := widening.object?_extractFrom (.inr (.inl needed))
  rw [DataFlowGraph.domain?, DataFlowGraph.domain?]
  generalize (graph.extractFrom seeds).object? id = before at related ⊢
  generalize (larger.extractFrom seedsMore).object? id = after at related ⊢
  cases related with
  | none => rw [Option.bind_none, Option.bind_none]
  | some grown =>
    rw [Option.bind_some, Option.bind_some]
    exact grown.objectDomain?_eq sameDefinition sameModule

end Widening

end ObjectGraph

end DomainFlow
