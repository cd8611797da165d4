import DomainFlow.Proofs.ExtractedDomain
import DomainFlow.Proofs.Normalization
import DomainFlow.Proofs.WitnessPaths

/-!
Where the function that loads modules occurs in witnesses. Walks do not enter it, but domains spread over it and exported
objects are looked at without a walk. So it is on the way of a witness only at an exported object, and on the property
path also if a label was handed on over it.
-/
namespace DomainFlow

/-- The relation that a relation becomes when domains are merged as far as the options ask. -/
def AnalysisOptions.mergeRelation (options : AnalysisOptions) (relation : Relation) : Relation :=
  let consolidated := if options.consolidate then relation.consolidated else relation
  if options.aggregateLocals then consolidated.generalizeLocals else consolidated

namespace RelationMap
variable {map : RelationMap} {relation : Relation} {witness : Witness}

theorem mem_witnessesOf_consolidate_withoutNoise : witness ∈ map.withoutNoise.consolidate.witnessesOf relation ↔
    relation.isNoise = false ∧ ∃ original, original.consolidated = relation ∧ witness ∈ map.witnessesOf original := by
  rw [mem_witnessesOf_consolidate]
  refine and_congr_right fun informs => exists_congr fun original => and_congr_right fun merged => ?_
  have kept : original.isNoise = false := by
    rw [Bool.eq_false_iff]
    intro noise
    rw [← merged, Relation.isNoise_consolidated noise] at informs
    cases informs
  rw [mem_witnessesOf_withoutNoise, and_iff_right kept]

theorem mem_witnessesOf_aggregateLocals_of_clean {change : Relation → Relation} {merged : RelationMap}
    (clean : ∀ relation witness, witness ∈ merged.witnessesOf relation ↔
      relation.isNoise = false ∧ ∃ original, change original = relation ∧ witness ∈ map.witnessesOf original) :
    witness ∈ merged.aggregateLocals.witnessesOf relation ↔
      relation.isNoise = false ∧
        ∃ original, (change original).generalizeLocals = relation ∧ witness ∈ map.witnessesOf original := by
  simp only [mem_witnessesOf_aggregateLocals, clean]
  constructor
  · rintro ⟨-, middle, rfl, informs, original, rfl, shown⟩
    rw [Relation.isNoise_generalizeLocals]
    exact ⟨informs, original, rfl, shown⟩
  · rintro ⟨informs, original, rfl, shown⟩
    refine ⟨Relation.source_ne_target informs, _, rfl, ?_, original, rfl, shown⟩
    rwa [Relation.isNoise_generalizeLocals] at informs

/-- Merging gives a relation the witnesses of those that become it, unless it is noise. -/
theorem mem_witnessesOf_merge {options : AnalysisOptions} :
    witness ∈ (options.merge map.withoutNoise).witnessesOf relation ↔
      relation.isNoise = false ∧
        ∃ original, options.mergeRelation original = relation ∧ witness ∈ map.witnessesOf original := by
  have unchanged : ∀ relation witness, witness ∈ map.withoutNoise.witnessesOf relation ↔
      relation.isNoise = false ∧ ∃ original, original = relation ∧ witness ∈ map.witnessesOf original := by
    intro relation witness
    rw [mem_witnessesOf_withoutNoise, exists_eq_left]
  obtain ⟨directory, consolidates, aggregates⟩ := options
  cases consolidates <;> cases aggregates
  · exact unchanged relation witness
  · exact mem_witnessesOf_aggregateLocals_of_clean unchanged
  · exact mem_witnessesOf_consolidate_withoutNoise
  · exact mem_witnessesOf_aggregateLocals_of_clean fun _ _ => mem_witnessesOf_consolidate_withoutNoise

/-- What the witnesses of a merged relation have in common with those of the relations that become it. -/
theorem exists_witness_merge_iff {options : AnalysisOptions} {entries : List (Relation × Witness)} {P : Witness → Prop}
    {Q : Relation → Prop} (shown : ∀ original, (∃ witness, (original, witness) ∈ entries ∧ P witness) ↔ Q original) :
    (∃ witness ∈ (options.merge (ofWitnesses entries).withoutNoise).witnessesOf relation, P witness) ↔
      relation.isNoise = false ∧ ∃ original, options.mergeRelation original = relation ∧ Q original := by
  simp only [mem_witnessesOf_merge, mem_witnessesOf_ofWitnesses, ← shown]
  constructor
  · rintro ⟨witness, ⟨informs, original, merged, collected⟩, holds⟩
    exact ⟨informs, original, merged, witness, collected, holds⟩
  · rintro ⟨informs, original, merged, witness, collected, holds⟩
    exact ⟨witness, ⟨informs, original, merged, collected⟩, holds⟩

end RelationMap

namespace DataFlowGraph
variable {flow : DataFlowGraph} {domains : DirectDomains} {propagation : Propagation}
  {scripts : Option LifecycleScripts} {relation : Relation} {node : NodeId} {builtinsDirectory : Option String}

/-- The relations that an exported object shows together with a node, which is the object or the origin of a domain that
has reached it. -/
inductive AtExport (flow : DataFlowGraph) (domains : DirectDomains) (propagation : Propagation) (node : NodeId) :
    Relation → Prop where
  | object {root : NodeId} {object : FlowObject} {target : Domain} : flow.object? node = some object →
      object.isExported = true → domains.get? root = some target →
      root = node ∨ (propagation.path? node target root).isSome →
      AtExport flow domains propagation node ⟨Domain.caller, target⟩
  | origin {id : NodeId} {object : FlowObject} {target : Domain} : flow.object? id = some object →
      object.isExported = true → domains.get? node = some target → (propagation.path? id target node).isSome →
      AtExport flow domains propagation node ⟨Domain.caller, target⟩

/-- The relations to a label that a domain has got on a path over a node. -/
inductive OnLabelPath (flow : DataFlowGraph) (domains : DirectDomains) (propagation : Propagation) (node : NodeId) :
    Relation → Prop where
  | carried {root id origin : NodeId} {source domain : Domain} {path : PropagationPath} :
      domains.get? root = some source → source ≠ Domain.dynamicRequire → flow.DataReaches root id →
      flow.isBuiltin id = false → propagation.path? id domain origin = some path → node ∈ path.nodes →
      OnLabelPath flow domains propagation node ⟨source, flow.compositeLabel domain path⟩

section Shown
variable {witness : Witness} {root id : NodeId} {object : FlowObject} {target : Domain}

/-- A way of data does not lead over a node that walks do not enter. -/
theorem ShortestWay.not_mem {way : List NodeId} (shortest : flow.ShortestWay root id way)
    (blocked : flow.isWalkable node = false) : node ∉ way := by
  intro member
  rw [shortest.leads.walkable node member] at blocked
  cases blocked

theorem atExport_of_mem (isObject : flow.object? id = some object) (exported : object.isExported = true)
    (isRoot : domains.get? root = some target) (reached : root = id ∨ (propagation.path? id target root).isSome)
    (member : node ∈ [root, id]) : flow.AtExport domains propagation node ⟨Domain.caller, target⟩ := by
  rw [List.mem_pair] at member
  rcases member with rfl | rfl
  · rcases reached with rfl | far
    · exact .object isObject exported isRoot (.inl rfl)
    · exact .origin isObject exported isRoot far
  · exact .object isObject exported isRoot reached

theorem atExport_of_shows (blocked : flow.isWalkable node = false)
    (shown : flow.Shows domains propagation scripts relation witness) (member : node ∈ witness.path) :
    flow.AtExport domains propagation node relation := by
  cases shown with
  | script => exact absurd member List.not_mem_nil
  | exported isObject exported isRoot reached => exact atExport_of_mem isObject exported isRoot reached member
  | carried isRoot spreads shortest => exact absurd member (shortest.not_mem blocked)

theorem atExport_or_onLabelPath_of_shows (blocked : flow.isWalkable node = false)
    (shown : flow.Shows domains propagation scripts relation witness) (member : node ∈ witness.propertyPath) :
    flow.AtExport domains propagation node relation ∨ flow.OnLabelPath domains propagation node relation := by
  cases shown with
  | script => exact absurd member List.not_mem_nil
  | exported isObject exported isRoot reached => exact .inl (atExport_of_mem isObject exported isRoot reached member)
  | @carried root id source target way properties isRoot spreads shortest foreign explains =>
    have ends : id ∈ way := List.mem_of_getLast? shortest.leads.last
    rcases explains with ⟨-, rfl⟩ | ⟨origin, domain, path, isPath, rfl, rfl⟩
    · rw [List.mem_singleton] at member
      exact absurd (member ▸ ends) (shortest.not_mem blocked)
    · have reaches : flow.DataReaches root id :=
        ⟨shortest.leads.walkable root shortest.leads.root_mem, shortest.leads.reaches⟩
      exact .inr (.carried isRoot spreads reaches foreign isPath member)

end Shown

section Collected
variable {root id : NodeId} {object : FlowObject} {target domain : Domain} {path : PropagationPath}

theorem mem_arrivals_of_path? (isPath : propagation.path? id domain root = some path) :
    ⟨domain, root, path⟩ ∈ propagation.arrivals id := by
  obtain ⟨⟨otherDomain, other, way⟩, isFirst, rfl⟩ := Option.map_eq_some_iff.1 isPath
  have matching := List.find?_some isFirst
  simp only [Bool.and_eq_true, beq_iff_eq] at matching
  obtain ⟨rfl, rfl⟩ := matching
  exact List.mem_of_find?_eq_some isFirst

theorem mem_witnesses_of_export (distinct : flow.ids.Nodup) (isObject : flow.object? id = some object)
    (exported : object.isExported = true) (isRoot : domains.get? root = some target)
    (reached : root = id ∨ (propagation.path? id target root).isSome) :
    (⟨Domain.caller, target⟩, ⟨[root, id], [root, id]⟩) ∈ flow.witnesses domains propagation scripts := by
  have shown : (⟨Domain.caller, target⟩, ⟨[root, id], [root, id]⟩) ∈ exportRelations domains propagation id := by
    rw [exportRelations, List.mem_append]
    rcases reached with rfl | far
    · refine .inr (Option.mem_toList.2 ?_)
      rw [isRoot]
      rfl
    · obtain ⟨path, isPath⟩ := Option.isSome_iff_exists.1 far
      exact .inl (List.mem_map.2 ⟨_, mem_arrivals_of_path? isPath, rfl⟩)
  exact List.mem_append_left _ (List.mem_append_right _ (List.mem_flatMap.2
    ⟨_, List.mem_filter.2 ⟨(mem_objects_iff distinct).2 isObject, exported⟩, shown⟩))

theorem exists_witness_of_atExport (distinct : flow.ids.Nodup) (occurs : flow.AtExport domains propagation node relation) :
    ∃ witness, (relation, witness) ∈ flow.witnesses domains propagation scripts ∧ node ∈ witness.path ∧
      node ∈ witness.propertyPath := by
  cases occurs with
  | object isObject exported isRoot reached =>
    exact ⟨_, mem_witnesses_of_export distinct isObject exported isRoot reached, by simp, by simp⟩
  | origin isObject exported isRoot reached =>
    exact ⟨_, mem_witnesses_of_export distinct isObject exported isRoot (.inr reached), by simp, by simp⟩

theorem exists_witness_of_onLabelPath (distinct : flow.ids.Nodup)
    (occurs : flow.OnLabelPath domains propagation node relation) :
    ∃ witness, (relation, witness) ∈ flow.witnesses domains propagation scripts ∧ node ∈ witness.propertyPath := by
  cases occurs with
  | @carried root id origin source domain path isRoot spreads reaches foreign isPath member =>
    obtain ⟨object, isObject, -⟩ := isWalkable_iff.1 reaches.1
    rcases visited_of_reaches (fun _ => closed_nil) ((mem_objects_iff distinct).2 isObject) isRoot spreads isObject reaches
      with never | ⟨visits, walked, visited⟩
    · exact absurd never List.not_mem_nil
    · obtain ⟨visit, inVisits, rfl⟩ := List.mem_map.1 visited
      have shown : (⟨source, flow.compositeLabel domain path⟩, ⟨visit.path, path.nodes⟩) ∈
          flow.visitRelations domains propagation source visit := by
        rw [visitRelations, foreign, if_neg Bool.false_ne_true, List.mem_append]
        exact .inr (List.mem_map.2 ⟨_, mem_arrivals_of_path? isPath, rfl⟩)
      exact ⟨_, List.mem_append_right _ (List.mem_flatMap.2 ⟨_, walked, List.mem_flatMap.2 ⟨visit, inVisits, shown⟩⟩),
        member⟩

end Collected

theorem exists_path_mem_iff (distinct : flow.ids.Nodup) (recorded : propagation.Recorded domains)
    (blocked : flow.isWalkable node = false) :
    (∃ witness, (relation, witness) ∈ flow.witnesses domains propagation scripts ∧ node ∈ witness.path) ↔
      flow.AtExport domains propagation node relation := by
  constructor
  · rintro ⟨witness, collected, member⟩
    exact atExport_of_shows blocked (shows_of_mem_witnesses distinct recorded collected) member
  · intro occurs
    obtain ⟨witness, collected, member, -⟩ := exists_witness_of_atExport distinct occurs
    exact ⟨witness, collected, member⟩

theorem exists_propertyPath_mem_iff (distinct : flow.ids.Nodup) (recorded : propagation.Recorded domains)
    (blocked : flow.isWalkable node = false) :
    (∃ witness, (relation, witness) ∈ flow.witnesses domains propagation scripts ∧ node ∈ witness.propertyPath) ↔
      flow.AtExport domains propagation node relation ∨ flow.OnLabelPath domains propagation node relation := by
  constructor
  · rintro ⟨witness, collected, member⟩
    exact atExport_or_onLabelPath_of_shows blocked (shows_of_mem_witnesses distinct recorded collected) member
  · rintro (atExport | onPath)
    · obtain ⟨witness, collected, -, member⟩ := exists_witness_of_atExport distinct atExport
      exact ⟨witness, collected, member⟩
    · exact exists_witness_of_onLabelPath distinct onPath

end DataFlowGraph

namespace VersionAnalysis
variable {graph : ObjectGraph} {metadata : Metadata} {options : AnalysisOptions} {analysis : VersionAnalysis}
  {document : Document} {loader : NodeId} {object : ObjectRecord}

/-- The copy of the function that loads modules is not entered by walks. -/
theorem isWalkable_loader (rules : graph.WellFormed) {seeds : Seeds} {listed : List NodeId}
    (accepted : graph.seeds listed = .ok seeds) (isObject : graph.object? loader = some object)
    (loads : object.nativeFunction = some FlowObject.moduleLoader) :
    (graph.extractFrom seeds).isWalkable loader = false := by
  rw [Bool.eq_false_iff]
  intro walkable
  obtain ⟨copy, isCopy, passes⟩ := DataFlowGraph.isWalkable_iff.1 walkable
  obtain ⟨-, record, isRecord, content⟩ := ObjectGraph.object?_extractFrom rules accepted isCopy
  rw [ObjectGraph.object?_eq_some_iff.1 isObject] at isRecord
  cases isRecord
  cases content
  exact passes loads

end VersionAnalysis

/-- The function that loads modules is on the way of a witness exactly if an exported object shows the relation together
with it, and on the property path exactly if this is so or a label was handed on over it. -/
theorem module_loader_witnessed_iff {document : Document} {graph : ObjectGraph} {metadata : Metadata}
    {options : AnalysisOptions} {analysis : VersionAnalysis} {loader : NodeId} {object : ObjectRecord}
    (valid : ObjectGraph.ofDocument document = .ok graph) (ran : VersionAnalysis.run options graph metadata = .ok analysis)
    (isObject : graph.object? loader = some object) (loads : object.nativeFunction = some FlowObject.moduleLoader)
    (relation : Relation) :
    let domains := DirectDomains.assign analysis.flow options.builtinsDirectory
    let propagation := Propagation.spread analysis.flow domains
    ((∃ witness ∈ analysis.relations.witnessesOf relation, loader ∈ witness.path) ↔
      relation.isNoise = false ∧ ∃ original, options.mergeRelation original = relation ∧
        analysis.flow.AtExport domains propagation loader original) ∧
    ((∃ witness ∈ analysis.relations.witnessesOf relation, loader ∈ witness.propertyPath) ↔
      relation.isNoise = false ∧ ∃ original, options.mergeRelation original = relation ∧
        (analysis.flow.AtExport domains propagation loader original ∨
          analysis.flow.OnLabelPath domains propagation loader original)) := by
  intro domains propagation
  obtain ⟨extracted, same⟩ := VersionAnalysis.extract_of_run ran
  obtain ⟨seeds, accepted, isFlow⟩ := ObjectGraph.exists_seeds_of_extract extracted
  have rules := ObjectGraph.wellFormed_of_ofDocument valid
  have copies : graph.Copies seeds (graph.extractFrom seeds) := ObjectGraph.copies_extractFrom rules.distinct
  have distinct : analysis.flow.ids.Nodup := isFlow ▸ copies.distinct
  have blocked : analysis.flow.isWalkable loader = false :=
    isFlow ▸ VersionAnalysis.isWalkable_loader rules accepted isObject loads
  rw [same]
  constructor
  · exact RelationMap.exists_witness_merge_iff fun _ =>
      DataFlowGraph.exists_path_mem_iff distinct recorded_spread blocked
  · exact RelationMap.exists_witness_merge_iff fun _ =>
      DataFlowGraph.exists_propertyPath_mem_iff distinct recorded_spread blocked

/-- A version that exports the function that loads modules, with a domain and a property that gets data. -/
def loaderDocument : Document where
  nodes := [.object { id := 10, isExported := true, trustDomain := some "net", nativeFunction := some "handle_require" },
    .name { id := 11, name := some (.text "send") }, .object { id := 12 }, .object { id := 13, trustDomain := some "fs" }]
  edges := [⟨10, 11, .objToProp, none⟩, ⟨11, 12, .nameToObj, none⟩, ⟨13, 12, .contributesTo, none⟩]

def loaderGraph : ObjectGraph := ObjectGraph.ofParts loaderDocument

def loaderFlow : DataFlowGraph := loaderGraph.extractFrom ⟨[], [10], []⟩

theorem flowOrder_loader : loaderGraph.flowOrder ⟨[], [10], []⟩ = [10, 12, 13] := by
  have ids : loaderGraph.ids = [10, 11, 12, 13] := rfl
  have next : loaderGraph.flowNext 10 = [12] ∧ loaderGraph.flowNext 12 = [10, 13] ∧ loaderGraph.flowNext 13 = [] := ⟨rfl, rfl, rfl⟩
  simp [ObjectGraph.flowOrder, depthFirst, Seeds.toList, ids, next]

theorem spread_loader : Propagation.spread loaderFlow (.assign loaderFlow none) =
    ⟨[⟨10, "net", [(10, .start 10), (12, ⟨[10, 12], [0]⟩)]⟩, ⟨13, "fs", [(13, .start 13)]⟩]⟩ := by
  have facts : (DirectDomains.assign loaderFlow none).roots = [(10, "net"), (13, "fs")] ∧ loaderFlow.ids = [10, 12, 13] ∧
      loaderFlow.extensions [(10, .start 10)] 10 (.start 10) = [(12, ⟨[10, 12], [0]⟩)] ∧
      loaderFlow.extensions [(10, .start 10), (12, ⟨[10, 12], [0]⟩)] 12 ⟨[10, 12], [0]⟩ = [] ∧
      loaderFlow.extensions [(13, .start 13)] 13 (.start 13) = [] := by
    simp only [loaderFlow, ObjectGraph.extractFrom, flowOrder_loader]
    decide +kernel
  have free : Propagation.isConfined "net" = false ∧ Propagation.isConfined "fs" = false := by decide
  simp [Propagation.spread, DataFlowGraph.spreadFrom, DataFlowGraph.spreadOver, facts, free, List.lookup_cons]

theorem walks_loader : loaderFlow.walks (.assign loaderFlow none) (fun _ => []) loaderFlow.objects =
    [("fs", [⟨13, [13]⟩, ⟨12, [13, 12]⟩])] := by
  have objects : loaderFlow.objects =
      [(10, ⟨none, none, none, none, true, false, some "net", some "handle_require", .other, none⟩),
        (12, ⟨none, none, none, none, false, false, none, none, .other, none⟩),
        (13, ⟨none, none, none, none, false, false, some "fs", none, .other, none⟩)] := by
    simp only [loaderFlow, ObjectGraph.extractFrom, flowOrder_loader]
    decide +kernel
  have facts : loaderFlow.domain? none 10 = some "net" ∧ loaderFlow.domain? none 12 = none ∧
      loaderFlow.domain? none 13 = some "fs" ∧ loaderFlow.ids = [10, 12, 13] ∧ loaderFlow.flowTargets 13 = [12] ∧
      loaderFlow.flowTargets 12 = [] ∧ loaderFlow.isWalkable 13 = true ∧ loaderFlow.isWalkable 12 = true := by
    simp only [loaderFlow, ObjectGraph.extractFrom, flowOrder_loader]
    decide +kernel
  have others : ("fs" == Domain.dynamicRequire) = false ∧ (ObjectType.other == .apiRetVal) = false := by decide
  simp [DataFlowGraph.walks, objects, DirectDomains.get?_assign, facts, FlowObject.isModuleLoader, FlowObject.moduleLoader, others,
    DataFlowGraph.walkFrom, DataFlowGraph.walkOver, DataFlowGraph.nextVisits]

theorem run_loader : VersionAnalysis.run .standard loaderGraph ⟨[], none⟩ = .ok ⟨loaderFlow,
    .ofWitnesses [(⟨Domain.caller, "net"⟩, ⟨[10, 10], [10, 10]⟩), (⟨"fs", "net.send"⟩, ⟨[13, 12], [10, 12]⟩)], none⟩ := by
  have accepted : loaderGraph.seeds [] = .ok ⟨[], [10], []⟩ := rfl
  have found : VersionAnalysis.relationsOf loaderFlow none none =
      .ofWitnesses [(⟨Domain.caller, "net"⟩, ⟨[10, 10], [10, 10]⟩), (⟨"fs", "net.send"⟩, ⟨[13, 12], [10, 12]⟩)] := by
    rw [VersionAnalysis.relationsOf, DataFlowGraph.relationMap, DataFlowGraph.witnesses, walks_loader, spread_loader, loaderFlow]
    simp only [ObjectGraph.extractFrom, flowOrder_loader]
    decide +kernel
  rw [VersionAnalysis.run, ObjectGraph.extract_eq_of_seeds accepted, ← found]
  rfl

theorem module_loader_witnessed_iff_label :
    ObjectGraph.ofDocument loaderDocument = .ok loaderGraph ∧
    ∃ analysis, VersionAnalysis.run .standard loaderGraph ⟨[], none⟩ = .ok analysis ∧
      (∃ witness ∈ analysis.relations.witnessesOf ⟨"fs", "net.send"⟩, 10 ∈ witness.propertyPath) ∧
      ¬ ∃ witness ∈ analysis.relations.witnessesOf ⟨"fs", "net.send"⟩, 10 ∈ witness.path := by
  have valid : ObjectGraph.ofDocument loaderDocument = .ok loaderGraph := rfl
  have isObject : loaderGraph.object? 10 =
    some { id := 10, isExported := true, trustDomain := some "net", nativeFunction := some "handle_require" } := rfl
  obtain ⟨onWay, -⟩ := module_loader_witnessed_iff valid run_loader isObject rfl ⟨"fs", "net.send"⟩
  refine ⟨valid, _, run_loader, ⟨⟨[13, 12], [10, 12]⟩, ?_, List.mem_cons_self⟩, fun found => ?_⟩
  · exact RelationMap.mem_witnessesOf_ofWitnesses.2 (List.mem_cons_of_mem _ List.mem_cons_self)
  · obtain ⟨-, original, merged, atExport⟩ := onWay.1 found
    have different : Domain.caller ≠ "fs" := by decide
    cases atExport <;> exact different (congrArg Relation.source merged)

/-- The function that loads modules can be on the way of a witness, and on its property path. -/
theorem module_loader_in_witnesses :
    ObjectGraph.ofDocument loaderDocument = .ok loaderGraph ∧
    (∃ object, loaderGraph.object? 10 = some object ∧ object.nativeFunction = some FlowObject.moduleLoader) ∧
    ∃ analysis, VersionAnalysis.run .standard loaderGraph ⟨[], none⟩ = .ok analysis ∧
      ⟨[10, 10], [10, 10]⟩ ∈ analysis.relations.witnessesOf ⟨Domain.caller, "net"⟩ ∧
      ⟨[13, 12], [10, 12]⟩ ∈ analysis.relations.witnessesOf ⟨"fs", "net.send"⟩ := by
  refine ⟨rfl, ⟨_, rfl, rfl⟩, _, run_loader, ?_, ?_⟩
  · exact RelationMap.mem_witnessesOf_ofWitnesses.2 List.mem_cons_self
  · exact RelationMap.mem_witnessesOf_ofWitnesses.2 (List.mem_cons_of_mem _ List.mem_cons_self)

end DomainFlow
