import DomainFlow.Proofs.Comparison
import DomainFlow.Proofs.Recode
import DomainFlow.Proofs.RelationKeys
import DomainFlow.Proofs.Spread

/-!
Other texts in a package show in local domains only. Data-flow graphs that are alike up to local domains
have the same relations once all local domains have become one, however far domains are merged besides;
so a comparison for which all local code is one domain finds nothing.
-/
namespace DomainFlow

namespace Domain
variable {first second domain : Domain}

/-- Domains that become the same are the same as far as other domains are concerned. -/
theorem eq_iff_of_generalizeLocal_eq (same : generalizeLocal first = generalizeLocal second)
    (foreign : isLocal domain = false) : first = domain ↔ second = domain := by
  rcases generalizeLocal_eq_iff.mp same with equal | ⟨firstLocal, secondLocal⟩
  · rw [equal]
  · exact iff_of_false (Relation.ne_of_isLocal firstLocal foreign) (Relation.ne_of_isLocal secondLocal foreign)

theorem isConfined_eq_of_generalizeLocal_eq (same : generalizeLocal first = generalizeLocal second) :
    Propagation.isConfined first = Propagation.isConfined second := by
  rw [Bool.eq_iff_iff]
  simp only [Propagation.isConfined, Bool.or_eq_true, beq_iff_eq]
  exact or_congr (eq_iff_of_generalizeLocal_eq same (by decide)) (eq_iff_of_generalizeLocal_eq same (by decide))

theorem isLocal_intercalate {names : List String} : isLocal (".".intercalate (domain :: names)) = isLocal domain := by
  rw [← isLocal_consolidate, consolidate_intercalate, isLocal_consolidate]

end Domain

namespace DataFlowGraph
variable {first second : DataFlowGraph} {builtinsDirectory : Option String} {id : NodeId}

/-- Two data-flow graphs that differ in the names of local domains only. -/
structure Alike (builtinsDirectory : Option String) (first second : DataFlowGraph) : Prop where
  ids : first.ids = second.ids
  edges : first.edges = second.edges
  builtin : ∀ id, first.isBuiltin id = second.isBuiltin id
  walkable : ∀ id, first.isWalkable id = second.isWalkable id
  exported : ∀ id, (first.object? id).map FlowObject.isExported = (second.object? id).map FlowObject.isExported
  domain : ∀ id, (first.domain? builtinsDirectory id).map Domain.generalizeLocal =
    (second.domain? builtinsDirectory id).map Domain.generalizeLocal

namespace Alike

theorem symm (alike : Alike builtinsDirectory first second) : Alike builtinsDirectory second first where
  ids := alike.ids.symm
  edges := alike.edges.symm
  builtin id := (alike.builtin id).symm
  walkable id := (alike.walkable id).symm
  exported id := (alike.exported id).symm
  domain id := (alike.domain id).symm

variable (alike : Alike builtinsDirectory first second)
include alike

theorem exists_domain {domain : Domain} (found : first.domain? builtinsDirectory id = some domain) :
    ∃ other, second.domain? builtinsDirectory id = some other ∧
      domain.generalizeLocal = other.generalizeLocal := by
  have same := alike.domain id
  rw [found] at same
  obtain ⟨other, present, equal⟩ := Option.map_eq_some_iff.mp same.symm
  exact ⟨other, present, equal.symm⟩

theorem extensions_eq {reached : Reached} {path : PropagationPath} :
    first.extensions reached id path = second.extensions reached id path := by
  have hands : first.handsOn = second.handsOn := by
    funext edge
    unfold handsOn
    rw [alike.builtin]
  simp only [extensions, outEdges, alike.edges, hands]

theorem spreadOver_eq {fresh : List NodeId} {reached pending : Reached} :
    first.spreadOver fresh reached pending = second.spreadOver fresh reached pending := by
  fun_induction spreadOver first fresh reached pending with
  | case1 fresh reached => rw [spreadOver]
  | case2 fresh reached head path rest known present shorter improved ih =>
    rw [ih, alike.extensions_eq, spreadOver]
    split
    next found =>
      cases present.symm.trans found
      rw [dif_pos shorter]
    next missing => cases present.symm.trans missing
  | case3 fresh reached head path rest known present longer ih =>
    rw [ih, spreadOver]
    split
    next found =>
      cases present.symm.trans found
      rw [dif_neg longer]
    next missing => cases present.symm.trans missing
  | case4 fresh reached head path rest absent isFresh grown ih =>
    rw [ih, alike.extensions_eq, spreadOver]
    split
    next found => cases absent.symm.trans found
    next => rw [dif_pos isFresh]
  | case5 fresh reached head path rest absent stale ih =>
    rw [ih, spreadOver]
    split
    next found => cases absent.symm.trans found
    next => rw [dif_neg stale]

theorem spreadFrom_eq {root : NodeId} : first.spreadFrom root = second.spreadFrom root := by
  rw [spreadFrom, spreadFrom, alike.ids, alike.spreadOver_eq]

/-- A domain that has reached a node of one graph has reached it in the other one under a like label. -/
theorem exists_arrival {arrival : Arrival}
    (arrived : arrival ∈ (Propagation.spread first (.assign first builtinsDirectory)).arrivals id) :
    ∃ other ∈ (Propagation.spread second (.assign second builtinsDirectory)).arrivals id,
      arrival.domain.generalizeLocal = other.domain.generalizeLocal ∧ other.path = arrival.path := by
  obtain ⟨found, free, reached⟩ := mem_arrivals_spread.mp arrived
  obtain ⟨other, present, same⟩ := alike.exists_domain found
  rw [Domain.isConfined_eq_of_generalizeLocal_eq same] at free
  rw [alike.spreadFrom_eq] at reached
  exact ⟨⟨other, arrival.root, arrival.path⟩, mem_arrivals_spread.mpr ⟨present, free, reached⟩, same, rfl⟩

theorem exists_label {label : Domain}
    (labels : first.Labels (.assign first builtinsDirectory) (.spread first (.assign first builtinsDirectory)) id label) :
    ∃ other, second.Labels (.assign second builtinsDirectory) (.spread second (.assign second builtinsDirectory)) id other ∧
      label.generalizeLocal = other.generalizeLocal := by
  rcases labels with found | ⟨arrival, arrived, rfl⟩
  · rw [DirectDomains.get?_assign] at found
    obtain ⟨other, present, same⟩ := alike.exists_domain found
    exact ⟨other, .inl (DirectDomains.get?_assign.trans present), same⟩
  · obtain ⟨other, arrivedToo, same, samePath⟩ := alike.exists_arrival arrived
    refine ⟨second.compositeLabel other.domain other.path, .inr ⟨other, arrivedToo, rfl⟩, ?_⟩
    -- The names on the path are the same, so the labels are the same or both local.
    rw [samePath, compositeLabel, compositeLabel, alike.edges, Domain.generalizeLocal_eq_iff]
    rcases Domain.generalizeLocal_eq_iff.mp same with equal | ⟨firstLocal, secondLocal⟩
    · exact .inl (by rw [equal])
    · exact .inr ⟨Domain.isLocal_intercalate.trans firstLocal, Domain.isLocal_intercalate.trans secondLocal⟩

theorem dataReaches {root : NodeId} (reaches : first.DataReaches root id) : second.DataReaches root id := by
  have flows : ∀ source target, first.FlowsInto source target → second.FlowsInto source target := by
    intro source target into
    rw [FlowsInto, Carries, alike.edges, alike.walkable] at into
    exact into
  exact ⟨alike.walkable root ▸ reaches.1, Relation.ReflTransGen.mono flows _ _ reaches.2⟩

/-- A rule that gives a relation in one graph gives a like one in the other. -/
theorem exists_holds {scripts : Option LifecycleScripts} {relation : Relation}
    (holds : first.Holds (.assign first builtinsDirectory) (.spread first (.assign first builtinsDirectory)) scripts
      relation) :
    ∃ other, second.Holds (.assign second builtinsDirectory) (.spread second (.assign second builtinsDirectory)) scripts
      other ∧ relation.generalizeLocals = other.generalizeLocals := by
  cases holds with
  | @exported id object target isObject exported known =>
    have sameExport := alike.exported id
    rw [isObject, Option.map_some, exported] at sameExport
    obtain ⟨twin, isTwin, twinExported⟩ := Option.map_eq_some_iff.mp sameExport.symm
    have reached : ∃ other, ((DirectDomains.assign second builtinsDirectory).get? id = some other ∨
        (Propagation.spread second (.assign second builtinsDirectory)).reaches id other = true) ∧
        target.generalizeLocal = other.generalizeLocal := by
      rcases known with found | arrived
      · rw [DirectDomains.get?_assign] at found
        obtain ⟨other, present, same⟩ := alike.exists_domain found
        exact ⟨other, .inl (DirectDomains.get?_assign.trans present), same⟩
      · obtain ⟨arrival, member, rfl⟩ := reaches_iff.mp arrived
        obtain ⟨other, memberToo, same, -⟩ := alike.exists_arrival member
        exact ⟨other.domain, .inr (reaches_iff.mpr ⟨other, memberToo, rfl⟩), same⟩
    obtain ⟨other, knownToo, same⟩ := reached
    exact ⟨⟨Domain.caller, other⟩, .exported isTwin twinExported knownToo, by simp [Relation.generalizeLocals, Relation.map, same]⟩
  | @carried root id source target found spreads reaches foreign labels =>
    rw [DirectDomains.get?_assign] at found
    obtain ⟨origin, present, sameSource⟩ := alike.exists_domain found
    obtain ⟨other, labelsToo, sameTarget⟩ := alike.exists_label labels
    have spreadsToo : origin ≠ Domain.dynamicRequire := fun dynamic =>
      spreads ((Domain.eq_iff_of_generalizeLocal_eq sameSource (by decide)).mpr dynamic)
    refine ⟨⟨origin, other⟩, .carried (DirectDomains.get?_assign.trans present) spreadsToo (alike.dataReaches reaches)
      (alike.builtin id ▸ foreign) labelsToo, ?_⟩
    simp [Relation.generalizeLocals, Relation.map, sameSource, sameTarget]
  | script given listed unrequired =>
    rw [Unrequired, alike.edges] at unrequired
    exact ⟨_, .script given listed unrequired, rfl⟩

end Alike

end DataFlowGraph

namespace RelationMap
variable {first second : RelationMap}

/-- Every relation of one map is in the other one, up to local domains. -/
def Within (first second : RelationMap) : Prop :=
  ∀ relation ∈ first.relationSet, ∃ other ∈ second.relationSet, relation.generalizeLocals = other.generalizeLocals

theorem Within.consolidate (within : first.Within second) (firstShown : first.Shown) (secondShown : second.Shown) :
    first.consolidate.Within second.consolidate := by
  intro relation member
  obtain ⟨informs, original, isOriginal, rfl⟩ := (mem_relationSet_consolidate firstShown).mp member
  obtain ⟨other, isOther, same⟩ := within original isOriginal
  have merged : other.consolidated = original.consolidated := by
    rw [← Relation.consolidated_generalizeLocals, ← same, Relation.consolidated_generalizeLocals]
  exact ⟨original.consolidated, (mem_relationSet_consolidate secondShown).mpr ⟨informs, other, isOther, merged⟩, rfl⟩

theorem Within.aggregateLocals (within : first.Within second) : first.aggregateLocals.Within second.aggregateLocals := by
  intro relation member
  obtain ⟨different, original, isOriginal, rfl⟩ := mem_relationSet_aggregateLocals.mp member
  obtain ⟨other, isOther, same⟩ := within original isOriginal
  exact ⟨original.generalizeLocals, mem_relationSet_aggregateLocals.mpr ⟨different, other, isOther, same.symm⟩, rfl⟩

theorem Within.merge (within : first.Within second) (firstShown : first.Shown) (secondShown : second.Shown)
    (options : AnalysisOptions) : (options.merge first).Within (options.merge second) := by
  unfold AnalysisOptions.merge
  cases options.consolidate <;> cases options.aggregateLocals
  · exact within
  · exact within.aggregateLocals
  · exact within.consolidate firstShown secondShown
  · exact (within.consolidate firstShown secondShown).aggregateLocals

theorem Within.generalized_eq (forward : first.Within second) (backward : second.Within first) :
    first.relationSet.map Relation.generalizeLocals = second.relationSet.map Relation.generalizeLocals := by
  apply SortedSet.ext_mem
  intro relation
  simp only [SortedSet.mem_map]
  constructor
  · intro image
    obtain ⟨original, member, rfl⟩ := image
    obtain ⟨other, memberToo, same⟩ := forward original member
    exact ⟨other, memberToo, same.symm⟩
  · intro image
    obtain ⟨original, member, rfl⟩ := image
    obtain ⟨other, memberToo, same⟩ := backward original member
    exact ⟨other, memberToo, same.symm⟩

/-- Maps with the same relations up to local domains differ in nothing that counts. -/
theorem diff_singleLocal_eq_empty (sameSchema : first.schemaVersion = second.schemaVersion)
    (same : first.relationSet.map Relation.generalizeLocals = second.relationSet.map Relation.generalizeLocals) :
    RelationMap.diff .singleLocal first second = .ok .empty := by
  rw [RelationMap.diff, if_pos sameSchema]
  congr 1
  apply SortedSet.ext_mem
  intro relation
  refine iff_of_false (fun member => ?_) SortedSet.not_mem_empty
  obtain ⟨-, present, isNew⟩ := RelationSet.mem_singleLocal.mp member
  exact isNew (same ▸ present)

end RelationMap

namespace Recoding
variable {recoding : Recoding} {flow : DataFlowGraph} {builtinsDirectory : Option String} {id : NodeId}

/-- Another text changes the name of a local domain at most. -/
theorem domain?_flow : ((recoding.flow flow).domain? builtinsDirectory id).map Domain.generalizeLocal =
    (flow.domain? builtinsDirectory id).map Domain.generalizeLocal := by
  have oneLocal : ∀ start text, Domain.generalizeLocal (Domain.localCode ++ start ++ text) = Domain.localCode := by
    intro start text
    refine Domain.generalizeLocal_of_isLocal (Text.startsWith_iff.mpr ?_)
    rw [String.append_assoc, String.toList_append]
    exact List.prefix_append _ _
  simp only [DataFlowGraph.domain?, object?_flow]
  cases flow.object? id with
  | none => rfl
  | some object =>
    have written : DataFlowGraph.isWritten (recoding.flowObject id object) = DataFlowGraph.isWritten object := rfl
    have types : (recoding.flowObject id object).objectType = object.objectType := rfl
    have domains : (recoding.flowObject id object).trustDomain = object.trustDomain := rfl
    have modules : (recoding.flow flow).requiredModule? id = flow.requiredModule? id := rfl
    simp only [Option.map_some, Option.bind_some, DataFlowGraph.objectDomain?, definition?_flow, written, types, domains,
      modules]
    cases object.trustDomain with
    | some domain => rfl
    | none =>
      cases DataFlowGraph.builtinModule? builtinsDirectory ((flow.definition? id).bind FlowAst.fileName) with
      | some module => rfl
      | none =>
        cases DataFlowGraph.isWritten object (flow.definition? id) <;> cases object.objectType <;> simp [oneLocal]

theorem alike_flow : DataFlowGraph.Alike builtinsDirectory flow (recoding.flow flow) where
  ids := ids_flow.symm
  edges := rfl
  builtin id := by
    rw [DataFlowGraph.isBuiltin, DataFlowGraph.isBuiltin, node?_flow]
    cases flow.node? id with
    | none => rfl
    | some node =>
      rw [Option.map_some, Option.any_some, Option.any_some, FlowNode.isBuiltin, FlowNode.isBuiltin, object?_flowNode]
      cases node.object? <;> rfl
  walkable id := by
    rw [DataFlowGraph.isWalkable, DataFlowGraph.isWalkable, object?_flow]
    cases flow.object? id <;> rfl
  exported id := by
    rw [object?_flow]
    cases flow.object? id <;> rfl
  domain id := domain?_flow.symm

end Recoding

namespace VersionAnalysis
variable {flow twin : DataFlowGraph} {builtinsDirectory : Option String} {scripts : Option LifecycleScripts}

theorem within_relationsOf (alike : DataFlowGraph.Alike builtinsDirectory flow twin) (distinct : flow.ids.Nodup) :
    (relationsOf flow builtinsDirectory scripts).Within (relationsOf twin builtinsDirectory scripts) := by
  intro relation member
  obtain ⟨informs, holds⟩ := (DataFlowGraph.mem_relationMap distinct).mp member
  obtain ⟨other, holdsToo, same⟩ := alike.exists_holds holds
  have informsToo : other.isNoise = false := by
    rw [← Relation.isNoise_generalizeLocals, ← same, Relation.isNoise_generalizeLocals, informs]
  exact ⟨other, (DataFlowGraph.mem_relationMap (alike.ids ▸ distinct)).mpr ⟨informsToo, holdsToo⟩, same⟩

/-- Alike graphs have the same relations up to local domains, however far domains are merged. -/
theorem generalized_eq_of_alike (alike : DataFlowGraph.Alike builtinsDirectory flow twin) (distinct : flow.ids.Nodup)
    (options : AnalysisOptions) (scripts : Option LifecycleScripts) :
    (options.merge (relationsOf flow builtinsDirectory scripts)).relationSet.map Relation.generalizeLocals =
      (options.merge (relationsOf twin builtinsDirectory scripts)).relationSet.map Relation.generalizeLocals := by
  have forward : (relationsOf flow builtinsDirectory scripts).Within (relationsOf twin builtinsDirectory scripts) :=
    within_relationsOf alike distinct
  have backward : (relationsOf twin builtinsDirectory scripts).Within (relationsOf flow builtinsDirectory scripts) :=
    within_relationsOf alike.symm (alike.ids ▸ distinct)
  exact (forward.merge RelationMap.shown_withoutNoise RelationMap.shown_withoutNoise options).generalized_eq
    (backward.merge RelationMap.shown_withoutNoise RelationMap.shown_withoutNoise options)

end VersionAnalysis

/-- Other texts in place of the texts of objects change nothing that counts when all local code is one
domain. The version is refused as before, or its relations are the same up to local domains, so neither
version has a new relation against the other. -/
theorem literal_churn_unflagged {document : Document} {graph : ObjectGraph}
    (valid : ObjectGraph.ofDocument document = .ok graph) (recoding : Recoding) (options : AnalysisOptions)
    (metadata : Metadata) :
    ∃ recoded, ObjectGraph.ofDocument (recoding.document document) = .ok recoded ∧
      (∀ error, VersionAnalysis.run options graph metadata = .error error →
        VersionAnalysis.run options recoded metadata = .error error) ∧
      ∀ before, VersionAnalysis.run options graph metadata = .ok before →
        ∃ after, VersionAnalysis.run options recoded metadata = .ok after ∧
          before.relations.relationSet.map Relation.generalizeLocals =
            after.relations.relationSet.map Relation.generalizeLocals ∧
          RelationMap.diff .singleLocal before.relations after.relations = .ok .empty ∧
          RelationMap.diff .singleLocal after.relations before.relations = .ok .empty := by
  have distinct := (ObjectGraph.wellFormed_of_ofDocument valid).distinct
  refine ⟨recoding.graph graph, by rw [Recoding.ofDocument_document, valid]; rfl, ?_⟩
  have sameSeeds : (recoding.graph graph).seeds metadata.exportedObjects = graph.seeds metadata.exportedObjects :=
    Recoding.seeds_graph
  cases accepted : graph.seeds metadata.exportedObjects with
  | error fault =>
    rw [VersionAnalysis.run_eq_error_of_seeds accepted,
      VersionAnalysis.run_eq_error_of_seeds (sameSeeds.trans accepted)]
    exact ⟨fun error same => same, fun before never => nomatch never⟩
  | ok seeds =>
    rw [VersionAnalysis.run_eq_ok_of_seeds accepted,
      VersionAnalysis.run_eq_ok_of_seeds (sameSeeds.trans accepted), Recoding.extractFrom_graph]
    refine ⟨fun error never => (nomatch never), fun before same => ⟨_, rfl, ?_⟩⟩
    cases same
    have flowDistinct : (graph.extractFrom seeds).ids.Nodup := (ObjectGraph.copies_extractFrom distinct).distinct
    have alike : DataFlowGraph.Alike options.builtinsDirectory (graph.extractFrom seeds)
        (recoding.flow (graph.extractFrom seeds)) := Recoding.alike_flow
    have same := VersionAnalysis.generalized_eq_of_alike alike flowDistinct options metadata.lifecycleScripts
    refine ⟨same, RelationMap.diff_singleLocal_eq_empty ?_ same, RelationMap.diff_singleLocal_eq_empty ?_ same.symm⟩
    all_goals simp only [VersionAnalysis.schemaVersion_merge_relationsOf]

def Recoding.doubled : Recoding where
  change _ text := text ++ text
  nonempty _ _ present same := present (String.append_eq_empty_iff.mp same).1

theorem literal_churn_unflagged_leaking :
    ObjectGraph.ofDocument ObjectGraph.leakingDocument = .ok ObjectGraph.leakingGraph ∧
    ∃ recoded before after, ObjectGraph.ofDocument (Recoding.doubled.document ObjectGraph.leakingDocument) = .ok recoded ∧
      VersionAnalysis.run .standard ObjectGraph.leakingGraph ⟨[12], none⟩ = .ok before ∧
      VersionAnalysis.run .standard recoded ⟨[12], none⟩ = .ok after ∧
      RelationMap.diff .singleLocal before.relations after.relations = .ok .empty := by
  have valid : ObjectGraph.ofDocument ObjectGraph.leakingDocument = .ok ObjectGraph.leakingGraph := rfl
  have accepted : ObjectGraph.leakingGraph.seeds (Metadata.mk [12] none).exportedObjects = .ok ⟨[], [12], [10]⟩ := rfl
  obtain ⟨recoded, isRecoded, -, compared⟩ := literal_churn_unflagged valid .doubled .standard ⟨[12], none⟩
  obtain ⟨after, analysed, -, nothingNew, -⟩ := compared _ (VersionAnalysis.run_eq_ok_of_seeds accepted)
  exact ⟨valid, recoded, _, after, isRecoded, VersionAnalysis.run_eq_ok_of_seeds accepted, analysed, nothingNew⟩

end DomainFlow
