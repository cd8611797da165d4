import DomainFlow.Proofs.Growth
import DomainFlow.Proofs.Label
import DomainFlow.Proofs.RelationKeys
import DomainFlow.Proofs.Spread

/-!
More flow hides no relation. The nodes of a data-flow graph from which edges were taken over are its core:
data and domains move within the core only, and nodes outside of it relate to themselves at most. Where a
graph grows, the core keeps its domains and its edges, so every relation between domains that are merged
into the objects that have them stays.
-/
namespace DomainFlow

namespace DataFlowGraph
variable {flow larger : DataFlowGraph} {builtinsDirectory : Option String} {core : NodeId → Prop} {id root : NodeId}

/-- One data-flow graph is another one with more flow, and its core keeps its domains. -/
structure Widens (builtinsDirectory : Option String) (core : NodeId → Prop) (flow larger : DataFlowGraph) : Prop where
  edges : ∀ edge ∈ flow.edges, edge ∈ larger.edges
  modules : ∀ edge ∈ larger.edges, edge.kind = .astRequireToObj → edge ∈ flow.edges
  inside : ∀ edge ∈ flow.edges, edge.target ∈ flow.ids
  insideMore : ∀ edge ∈ larger.edges, edge.target ∈ larger.ids
  moving : ∀ edge ∈ flow.edges, edge.kind ∈ movingKinds → core edge.source ∧ core edge.target
  objects : ∀ id ∈ flow.ids, Option.Rel FlowObject.Grows (flow.object? id) (larger.object? id)
  exported : ∀ id object, flow.object? id = some object → object.isExported = true → core id
  domain : ∀ id, core id → larger.domain? builtinsDirectory id = flow.domain? builtinsDirectory id

namespace Widens
variable (widens : Widens builtinsDirectory core flow larger)
include widens

theorem exists_object {object : FlowObject} (found : flow.object? id = some object) :
    ∃ twin, larger.object? id = some twin ∧ object.Grows twin := by
  obtain ⟨node, present, -⟩ := object?_eq_some_iff.mp found
  have related := widens.objects id (mem_ids_iff.mpr (Option.isSome_of_eq_some present))
  rw [found] at related
  generalize larger.object? id = after at related ⊢
  cases related with
  | some grown => exact ⟨_, rfl, grown⟩

theorem isWalkable (walkable : flow.isWalkable id = true) : larger.isWalkable id = true := by
  obtain ⟨object, found, opens⟩ := isWalkable_iff.mp walkable
  obtain ⟨twin, present, grown⟩ := widens.exists_object found
  exact isWalkable_iff.mpr ⟨twin, present, grown.nativeFunction ▸ opens⟩

/-- No object comes to belong to the interpreter. -/
theorem isBuiltin (present : id ∈ flow.ids) (foreign : flow.isBuiltin id = false) : larger.isBuiltin id = false := by
  have related := widens.objects id present
  rw [isBuiltin_eq_any] at foreign ⊢
  generalize flow.object? id = before at related foreign
  generalize larger.object? id = after at related ⊢
  cases related with
  | none => rfl
  | @some object twin grown =>
    simp only [Option.any_some, FlowObject.isBuiltin, Bool.or_eq_false_iff, beq_eq_false_iff_ne] at foreign ⊢
    refine ⟨grown.builtinName ▸ foreign.1, ?_⟩
    rcases grown.type with same | ⟨isResult, -⟩
    · exact same ▸ foreign.2
    · simp [isResult]

theorem dataReaches (reaches : flow.DataReaches root id) : larger.DataReaches root id := by
  have flows : ∀ source target, flow.FlowsInto source target → larger.FlowsInto source target := by
    intro source target into
    obtain ⟨⟨edge, member, carries⟩, walkable⟩ := into
    exact ⟨⟨edge, widens.edges edge member, carries⟩, widens.isWalkable walkable⟩
  exact ⟨widens.isWalkable reaches.1, Relation.ReflTransGen.mono flows _ _ reaches.2⟩

theorem core_of_carries {source target : NodeId} (carries : flow.Carries source target) :
    core source ∧ core target := by
  obtain ⟨edge, member, rfl, rfl, kinds⟩ := carries
  refine widens.moving edge member ?_
  rcases kinds with kind | kind | ⟨kind, -⟩
  all_goals simp [kind, movingKinds]

theorem core_of_handsTo {source target : NodeId} (hands : flow.HandsTo source target) : core source ∧ core target := by
  obtain ⟨edge, member, rfl, rfl, handsOn⟩ := hands
  refine widens.moving edge member ?_
  rcases handsOn_iff.mp handsOn with kind | ⟨kind, -⟩
  all_goals simp [kind, movingKinds]

theorem handed (handed : Relation.ReflTransGen flow.HandsTo root id) : Relation.ReflTransGen larger.HandsTo root id := by
  refine Relation.ReflTransGen.mono ?_ _ _ handed
  intro source target hands
  obtain ⟨edge, member, rfl, rfl, handsOn⟩ := hands
  refine ⟨edge, widens.edges edge member, rfl, rfl, handsOn_iff.mpr ?_⟩
  refine (handsOn_iff.mp handsOn).imp_right fun toChild => ⟨toChild.1, ?_⟩
  exact widens.isBuiltin (widens.inside edge member) toChild.2

theorem core_of_dataReaches (reaches : flow.DataReaches root id) (rootCore : core root) : core id := by
  rcases Relation.ReflTransGen.cases_tail reaches.2 with same | ⟨_, -, flows⟩
  · exact same ▸ rootCore
  · exact (widens.core_of_carries flows.1).2

theorem core_of_handed (handed : Relation.ReflTransGen flow.HandsTo root id) (core_id : core id) : core root := by
  rcases Relation.ReflTransGen.cases_head handed with same | ⟨_, hands, -⟩
  · exact same ▸ core_id
  · exact (widens.core_of_handsTo hands).1

/-- A domain that has reached a node of the core still reaches it. -/
theorem exists_arrival {arrival : Arrival} (inCore : core id)
    (arrived : arrival ∈ (Propagation.spread flow (.assign flow builtinsDirectory)).arrivals id) :
    ∃ other ∈ (Propagation.spread larger (.assign larger builtinsDirectory)).arrivals id,
      other.domain = arrival.domain := by
  obtain ⟨found, free, reached⟩ := mem_arrivals_spread.mp arrived
  have handed := (follows_of_lookup_spreadFrom reached).reaches
  have foundMore := (widens.domain _ (widens.core_of_handed handed inCore)).trans found
  have reachedMore := (isSome_lookup_spreadFrom widens.insideMore (mem_ids_of_domain? foundMore)).mpr (widens.handed handed)
  obtain ⟨path, present⟩ := Option.isSome_iff_exists.mp reachedMore
  exact ⟨⟨arrival.domain, arrival.root, path⟩, mem_arrivals_spread.mpr ⟨foundMore, free, present⟩, rfl⟩

/-- The labels of a node of the core stay, up to the names of properties. -/
theorem exists_label {label : Domain} (inCore : core id)
    (labels : flow.Labels (.assign flow builtinsDirectory) (.spread flow (.assign flow builtinsDirectory)) id label) :
    ∃ other, larger.Labels (.assign larger builtinsDirectory) (.spread larger (.assign larger builtinsDirectory)) id other ∧
      other.consolidate = label.consolidate := by
  rcases labels with found | ⟨arrival, arrived, rfl⟩
  · rw [DirectDomains.get?_assign, ← widens.domain id inCore] at found
    exact ⟨label, .inl (DirectDomains.get?_assign.trans found), rfl⟩
  · obtain ⟨other, arrivedMore, same⟩ := widens.exists_arrival inCore arrived
    refine ⟨_, .inr ⟨other, arrivedMore, rfl⟩, ?_⟩
    rw [compositeLabel, compositeLabel, Domain.consolidate_intercalate, Domain.consolidate_intercalate, same]

/-- A node outside of the core relates to itself at most. -/
theorem consolidate_eq_of_outside {source label : Domain} (outside : ¬core root)
    (found : flow.domain? builtinsDirectory root = some source) (reaches : flow.DataReaches root id)
    (labels : flow.Labels (.assign flow builtinsDirectory) (.spread flow (.assign flow builtinsDirectory)) id label) :
    source.consolidate = label.consolidate := by
  have same : id = root := by
    rcases Relation.ReflTransGen.cases_head reaches.2 with same | ⟨_, flows, -⟩
    · exact same.symm
    · exact absurd (widens.core_of_carries flows.1).1 outside
  subst same
  rcases labels with direct | ⟨arrival, arrived, rfl⟩
  · rw [DirectDomains.get?_assign, found] at direct
    rw [Option.some.inj direct]
  · obtain ⟨origin, -, reached⟩ := mem_arrivals_spread.mp arrived
    have sameRoot : id = arrival.root := by
      rcases Relation.ReflTransGen.cases_tail (follows_of_lookup_spreadFrom reached).reaches with same | ⟨_, -, hands⟩
      · exact same
      · exact absurd (widens.core_of_handsTo hands).2 outside
    rw [← sameRoot, found] at origin
    rw [compositeLabel, Domain.consolidate_intercalate, Option.some.inj origin]

/-- A rule that gives a relation still gives it, up to the names of properties. -/
theorem exists_holds {scripts : Option LifecycleScripts} {relation : Relation}
    (holds : flow.Holds (.assign flow builtinsDirectory) (.spread flow (.assign flow builtinsDirectory)) scripts relation)
    (informs : relation.consolidated.isNoise = false) :
    ∃ other, larger.Holds (.assign larger builtinsDirectory) (.spread larger (.assign larger builtinsDirectory)) scripts
      other ∧ other.consolidated = relation.consolidated := by
  cases holds with
  | @exported id object target isObject exported known =>
    have inCore := widens.exported id object isObject exported
    obtain ⟨twin, isTwin, grown⟩ := widens.exists_object isObject
    refine ⟨_, .exported isTwin (grown.exported exported) (known.imp ?_ ?_), rfl⟩
    · rw [DirectDomains.get?_assign, DirectDomains.get?_assign, widens.domain id inCore]
      exact fun found => found
    · rw [reaches_iff, reaches_iff]
      intro arrived
      obtain ⟨arrival, member, same⟩ := arrived
      obtain ⟨other, memberMore, sameMore⟩ := widens.exists_arrival inCore member
      exact ⟨other, memberMore, sameMore.trans same⟩
  | @carried root id source target found spreads reaches foreign labels =>
    rw [DirectDomains.get?_assign] at found
    by_cases rootCore : core root
    · have inCore := widens.core_of_dataReaches reaches rootCore
      obtain ⟨other, labelsMore, same⟩ := widens.exists_label inCore labels
      have foundMore := DirectDomains.get?_assign.trans ((widens.domain root rootCore).trans found)
      have present := mem_ids_of_isWalkable reaches.isWalkable_target
      refine ⟨⟨source, other⟩, .carried foundMore spreads (widens.dataReaches reaches)
        (widens.isBuiltin present foreign) labelsMore, ?_⟩
      simp only [Relation.consolidated, Relation.map, same]
    · have same := widens.consolidate_eq_of_outside rootCore found reaches labels
      have noise : (Relation.mk source target).consolidated.isNoise = true :=
        Relation.isNoise_iff.mpr (.inl (by simp only [Relation.consolidated, Relation.map, same]))
      rw [noise] at informs
      cases informs
  | script given listed unrequired =>
    refine ⟨_, .script given listed fun file isFile edge member kind => ?_, rfl⟩
    exact unrequired file isFile edge (widens.modules edge member kind) kind

end Widens

end DataFlowGraph

theorem ObjectGraph.Widening.widens {graph larger : ObjectGraph} {listed listedMore : List NodeId} {seeds seedsMore : Seeds}
    (widening : Widening graph larger listed listedMore seeds seedsMore) (builtinsDirectory : Option String) :
    DataFlowGraph.Widens builtinsDirectory (graph.Needed listed) (graph.extractFrom seeds)
      (larger.extractFrom seedsMore) where
  edges edge member := by
    have taken := (mem_edges_extractFrom_iff_taken widening.rules widening.accepted).mp member
    exact (mem_edges_extractFrom_iff_taken widening.rulesMore widening.acceptedMore).mpr
      (widening.grows.taken widening.wider taken)
  modules edge member kind := by
    have taken := (mem_edges_extractFrom_iff_taken widening.rulesMore widening.acceptedMore).mp member
    exact (mem_edges_extractFrom_iff_taken widening.rules widening.accepted).mpr
      (widening.grows.taken_of_module taken kind)
  inside edge member := target_mem_ids_extractFrom widening.rules widening.accepted member
  insideMore edge member := target_mem_ids_extractFrom widening.rulesMore widening.acceptedMore member
  moving edge member kind := by
    have taken := (mem_edges_extractFrom_iff_taken widening.rules widening.accepted).mp member
    exact taken.ends_needed kind
  objects id present :=
    widening.object?_extractFrom ((mem_ids_extractFrom_iff_kept widening.rules widening.accepted).mp present)
  exported id object found exported := needed_of_isExported widening.rules widening.accepted found exported
  domain id needed := widening.domain?_extractFrom needed

namespace AnalysisOptions
variable {options : AnalysisOptions} {map larger : RelationMap} {relation : Relation}

/-- Merging keeps every relation that the larger map has up to the names of properties. -/
theorem mem_merge_of_consolidate (consolidates : options.consolidate = true) (shown : map.Shown) (shownMore : larger.Shown)
    (more : ∀ original ∈ map.relationSet, original.consolidated.isNoise = false →
      ∃ other ∈ larger.relationSet, other.consolidated = original.consolidated)
    (member : relation ∈ (options.merge map).relationSet) : relation ∈ (options.merge larger).relationSet := by
  have merged : ∀ {relation}, relation ∈ map.consolidate.relationSet → relation ∈ larger.consolidate.relationSet := by
    intro relation inMap
    obtain ⟨informs, original, isOriginal, rfl⟩ := (RelationMap.mem_relationSet_consolidate shown).mp inMap
    obtain ⟨other, isOther, same⟩ := more original isOriginal informs
    exact (RelationMap.mem_relationSet_consolidate shownMore).mpr ⟨informs, other, isOther, same⟩
  simp only [merge, consolidates, if_true] at member ⊢
  split at member
  next aggregates =>
    obtain ⟨different, original, isOriginal, same⟩ := RelationMap.mem_relationSet_aggregateLocals.mp member
    rw [if_pos aggregates]
    exact RelationMap.mem_relationSet_aggregateLocals.mpr ⟨different, original, merged isOriginal, same⟩
  next keeps =>
    rw [if_neg keeps]
    exact merged member

end AnalysisOptions

/-- A graph with more flow loses no relation between merged domains. -/
theorem ObjectGraph.Widening.mem_merge {graph larger : ObjectGraph} {listed listedMore : List NodeId} {seeds seedsMore : Seeds}
    (widening : Widening graph larger listed listedMore seeds seedsMore) {options : AnalysisOptions}
    (consolidates : options.consolidate = true) {scripts : Option LifecycleScripts} {relation : Relation}
    (member : relation ∈ (options.merge (VersionAnalysis.relationsOf (graph.extractFrom seeds)
      options.builtinsDirectory scripts)).relationSet) :
    relation ∈ (options.merge (VersionAnalysis.relationsOf (larger.extractFrom seedsMore)
      options.builtinsDirectory scripts)).relationSet := by
  have distinct : (graph.extractFrom seeds).ids.Nodup := (copies_extractFrom widening.rules.distinct).distinct
  have distinctMore : (larger.extractFrom seedsMore).ids.Nodup := (copies_extractFrom widening.rulesMore.distinct).distinct
  refine AnalysisOptions.mem_merge_of_consolidate consolidates RelationMap.shown_withoutNoise
    RelationMap.shown_withoutNoise ?_ member
  intro original isOriginal informs
  obtain ⟨-, holds⟩ := (DataFlowGraph.mem_relationMap distinct).mp isOriginal
  obtain ⟨other, holdsMore, same⟩ := (widening.widens options.builtinsDirectory).exists_holds holds informs
  -- A relation that is noise would stay noise when domains are merged.
  have saysMore : other.isNoise = false := by
    cases noise : other.isNoise with
    | false => rfl
    | true =>
      rw [← same, Relation.isNoise_consolidated noise] at informs
      cases informs
  exact ⟨other, (DataFlowGraph.mem_relationMap distinctMore).mpr ⟨saysMore, holdsMore⟩, same⟩

/-- More flow hides no relation: where a document grows by edges over which values and properties get from
one object to another, and more objects are exported, every relation between merged domains stays. -/
theorem relations_grow {before after : Document} {graph larger : ObjectGraph} {listed listedMore : List NodeId}
    {seeds seedsMore : Seeds} (grows : before.Grows after) (valid : ObjectGraph.ofDocument before = .ok graph)
    (validMore : ObjectGraph.ofDocument after = .ok larger) (wider : listed ⊆ listedMore)
    (accepted : graph.seeds listed = .ok seeds) (acceptedMore : larger.seeds listedMore = .ok seedsMore)
    {options : AnalysisOptions} (consolidates : options.consolidate = true) (scripts : Option LifecycleScripts) :
    ∃ earlier later, VersionAnalysis.run options graph ⟨listed, scripts⟩ = .ok earlier ∧
      VersionAnalysis.run options larger ⟨listedMore, scripts⟩ = .ok later ∧
      ∀ relation ∈ earlier.relations.relationSet, relation ∈ later.relations.relationSet := by
  have widening : ObjectGraph.Widening graph larger listed listedMore seeds seedsMore :=
    ⟨ObjectGraph.grows_of_ofDocument grows valid validMore, ObjectGraph.wellFormed_of_ofDocument valid,
      ObjectGraph.wellFormed_of_ofDocument validMore, accepted, acceptedMore, wider⟩
  refine ⟨_, _, VersionAnalysis.run_eq_ok_of_seeds accepted, VersionAnalysis.run_eq_ok_of_seeds acceptedMore, ?_⟩
  exact fun relation member => widening.mem_merge consolidates member

/-- The version before the text of its own gets to the function of the module. -/
def ObjectGraph.quietDocument : Document :=
  { leakingDocument with edges := [⟨1, 10, .astRequireToObj, some "net"⟩, ⟨10, 11, .objToProp, none⟩,
      ⟨11, 12, .nameToObj, none⟩, ⟨13, 2, .objToAst, none⟩] }

theorem relations_grow_leaking : ObjectGraph.quietDocument.Grows ObjectGraph.leakingDocument ∧
    ∃ earlier later, VersionAnalysis.run ⟨none, true, false⟩ (.ofParts ObjectGraph.quietDocument) ⟨[12], none⟩ = .ok earlier ∧
      VersionAnalysis.run ⟨none, true, false⟩ ObjectGraph.leakingGraph ⟨[12, 13], none⟩ = .ok later ∧
      ∀ relation ∈ earlier.relations.relationSet, relation ∈ later.relations.relationSet := by
  have flows : MoreFlow ObjectGraph.quietDocument.edges ObjectGraph.leakingDocument.edges :=
    .keep (.keep (.keep (.add (by decide) (.keep (.add (by decide) .nil)))))
  have grows : ObjectGraph.quietDocument.Grows ObjectGraph.leakingDocument := ⟨rfl, rfl, rfl, rfl, flows⟩
  have accepted : (ObjectGraph.ofParts ObjectGraph.quietDocument).seeds [12] = .ok ⟨[], [12], [10]⟩ := rfl
  have acceptedMore : ObjectGraph.leakingGraph.seeds [12, 13] = .ok ⟨[], [12, 13], [10]⟩ := rfl
  exact ⟨grows, relations_grow grows rfl rfl (by decide) accepted acceptedMore rfl none⟩

end DomainFlow
