import DomainFlow.Proofs.Extraction
import DomainFlow.Proofs.RelationMap
import DomainFlow.Proofs.Spread
import DomainFlow.Proofs.Walk
import DomainFlow.Package.Analysis

/-!
Which relations a map has. A relation is in the map of a version exactly if it says something and one of
three rules gives it; the rules do not mention walks, their order, or what they have seen.
-/
namespace DomainFlow

namespace DataFlowGraph
variable {flow : DataFlowGraph} {domains : DirectDomains} {propagation : Propagation}
  {scripts : Option LifecycleScripts} {relation : Relation} {id : NodeId}

/-- Whether no place requires the file that a command runs, or the command does not just run one. -/
def Unrequired (flow : DataFlowGraph) (command : String) : Prop :=
  ∀ file, Script.entryFile? command = some file → ∀ edge ∈ flow.edges, edge.kind = .astRequireToObj →
    ∀ name, edge.label = some name → Script.withoutCurrentDirectories name.toList ≠ file.toList

/-- A domain that a node has by itself, or as the label of a path that ends at the node. -/
def Labels (flow : DataFlowGraph) (domains : DirectDomains) (propagation : Propagation) (id : NodeId)
    (label : Domain) : Prop :=
  domains.get? id = some label ∨
    ∃ arrival ∈ propagation.arrivals id, flow.compositeLabel arrival.domain arrival.path = label

/-- The rules by which relations hold: what an exported object has or has been reached by is known to
the caller; a domain flows to the labels of all objects that its data reaches; and local code runs the
scripts that no module requires. -/
inductive Holds (flow : DataFlowGraph) (domains : DirectDomains) (propagation : Propagation)
    (scripts : Option LifecycleScripts) : Relation → Prop where
  | exported {id : NodeId} {object : FlowObject} {target : Domain} : flow.object? id = some object →
      object.isExported = true → domains.get? id = some target ∨ propagation.reaches id target = true →
      Holds flow domains propagation scripts ⟨Domain.caller, target⟩
  | carried {root id : NodeId} {source target : Domain} : domains.get? root = some source →
      source ≠ Domain.dynamicRequire → flow.DataReaches root id → flow.isBuiltin id = false →
      flow.Labels domains propagation id target → Holds flow domains propagation scripts ⟨source, target⟩
  | script {commands : LifecycleScripts} {name command : String} : scripts = some commands →
      (name, command) ∈ commands.toList → flow.Unrequired command →
      Holds flow domains propagation scripts ⟨Domain.localCode, Domain.installScripts⟩

theorem requiresScript_eq_false_iff {command : String} :
    flow.requiresScript command = false ↔ flow.Unrequired command := by
  unfold requiresScript Unrequired
  cases Script.entryFile? command with
  | none => simp
  | some file =>
    simp only [List.any_eq_false, Bool.and_eq_true, beq_iff_eq, not_and, Option.some.injEq, forall_eq']
    refine forall_congr' fun edge => imp_congr_right fun _ => imp_congr_right fun _ => ?_
    cases edge.label <;> simp

theorem mem_scriptRelations : (∃ witness, (relation, witness) ∈ (scripts.map flow.scriptRelations).getD []) ↔
    ∃ commands, scripts = some commands ∧ ∃ name command, (name, command) ∈ commands.toList ∧
      flow.Unrequired command ∧ relation = ⟨Domain.localCode, Domain.installScripts⟩ := by
  cases scripts with
  | none => simp
  | some commands =>
    simp only [Option.map_some, Option.getD_some, scriptRelations, List.mem_map, List.mem_filter,
      Bool.not_eq_eq_eq_not, Bool.not_true, requiresScript_eq_false_iff, Prod.mk.injEq, Option.some.injEq]
    constructor
    · intro shown
      obtain ⟨witness, ⟨name, command⟩, ⟨member, unrequired⟩, same, -⟩ := shown
      exact ⟨commands, rfl, name, command, member, unrequired, same.symm⟩
    · intro shown
      obtain ⟨other, rfl, name, command, member, unrequired, same⟩ := shown
      exact ⟨_, (name, command), ⟨member, unrequired⟩, same.symm, rfl⟩

theorem reaches_iff {domain : Domain} :
    propagation.reaches id domain = true ↔ ∃ arrival ∈ propagation.arrivals id, arrival.domain = domain := by
  simp [Propagation.reaches, List.any_eq_true]

theorem mem_exportRelations : (∃ witness, (relation, witness) ∈ exportRelations domains propagation id) ↔
    relation.source = Domain.caller ∧
      (domains.get? id = some relation.target ∨ propagation.reaches id relation.target = true) := by
  obtain ⟨source, target⟩ := relation
  simp only [exportRelations, List.mem_append, List.mem_map, Option.mem_toList,
    Option.map_eq_some_iff, reaches_iff, Prod.mk.injEq, Relation.mk.injEq]
  constructor
  · intro shown
    obtain ⟨witness, ⟨arrival, member, ⟨same, sameTarget⟩, -⟩ | ⟨domain, found, ⟨same, sameTarget⟩, -⟩⟩ := shown
    · exact ⟨same.symm, .inr ⟨arrival, member, sameTarget⟩⟩
    · exact ⟨same.symm, .inl (sameTarget ▸ found)⟩
  · intro shown
    obtain ⟨same, found | ⟨arrival, member, sameTarget⟩⟩ := shown
    · exact ⟨_, .inr ⟨target, found, ⟨same.symm, rfl⟩, rfl⟩⟩
    · exact ⟨_, .inl ⟨arrival, member, ⟨same.symm, sameTarget⟩, rfl⟩⟩

theorem mem_visitRelations {source : Domain} {visit : Visit} :
    (∃ witness, (relation, witness) ∈ flow.visitRelations domains propagation source visit) ↔
      relation.source = source ∧ flow.isBuiltin visit.node = false ∧
        flow.Labels domains propagation visit.node relation.target := by
  obtain ⟨origin, target⟩ := relation
  unfold visitRelations Labels
  cases flow.isBuiltin visit.node with
  | true => simp
  | false =>
    simp only [Bool.false_eq_true, ↓reduceIte, List.mem_append, Option.mem_toList,
      Option.map_eq_some_iff, List.mem_map, Prod.mk.injEq, Relation.mk.injEq, true_and]
    constructor
    · intro shown
      obtain ⟨witness, ⟨domain, found, ⟨same, sameTarget⟩, -⟩ | ⟨arrival, member, ⟨same, sameTarget⟩, -⟩⟩ := shown
      · exact ⟨same.symm, .inl (sameTarget ▸ found)⟩
      · exact ⟨same.symm, .inr ⟨arrival, member, sameTarget⟩⟩
    · intro shown
      obtain ⟨same, found | ⟨arrival, member, sameTarget⟩⟩ := shown
      · exact ⟨_, .inl ⟨target, found, ⟨same.symm, rfl⟩, rfl⟩⟩
      · exact ⟨_, .inr ⟨arrival, member, ⟨same.symm, sameTarget⟩, rfl⟩⟩

theorem mem_walkRelations (distinct : flow.ids.Nodup) :
    (∃ witness, (relation, witness) ∈ (flow.walks domains (fun _ => []) flow.objects).flatMap fun (source, visits) =>
      visits.flatMap (flow.visitRelations domains propagation source)) ↔
    ∃ root id, domains.get? root = some relation.source ∧ relation.source ≠ Domain.dynamicRequire ∧
      flow.DataReaches root id ∧ flow.isBuiltin id = false ∧ flow.Labels domains propagation id relation.target := by
  constructor
  · intro shown
    obtain ⟨witness, member⟩ := shown
    obtain ⟨⟨source, visits⟩, walked, inVisits⟩ := List.mem_flatMap.mp member
    obtain ⟨visit, visited, inVisit⟩ := List.mem_flatMap.mp inVisits
    obtain ⟨rfl, foreign, labels⟩ := mem_visitRelations.mp ⟨witness, inVisit⟩
    obtain ⟨root, seen, revisit, found, spreads, -, rfl⟩ := exists_walkFrom_of_mem_walks (fun _ => closed_nil) walked
    exact ⟨root, visit.node, found, spreads, reachable_of_mem_walkFrom visited, foreign, labels⟩
  · intro shown
    obtain ⟨root, id, found, spreads, reaches, foreign, labels⟩ := shown
    obtain ⟨object, isObject, -⟩ := isWalkable_iff.mp reaches.1
    rcases visited_of_reaches (fun _ => closed_nil) ((mem_objects_iff distinct).mpr isObject) found spreads isObject reaches
      with never | ⟨visits, walked, visited⟩
    · exact absurd never List.not_mem_nil
    · obtain ⟨visit, inVisits, rfl⟩ := List.mem_map.mp visited
      obtain ⟨witness, member⟩ := mem_visitRelations.mpr ⟨rfl, foreign, labels⟩
      exact ⟨witness, List.mem_flatMap.mpr ⟨_, walked, List.mem_flatMap.mpr ⟨visit, inVisits, member⟩⟩⟩

/-- The witnesses that are collected show exactly the relations that the rules give. -/
theorem exists_witness_iff_holds (distinct : flow.ids.Nodup) :
    (∃ witness, (relation, witness) ∈ flow.witnesses domains propagation scripts) ↔
      flow.Holds domains propagation scripts relation := by
  simp only [witnesses, List.mem_append, exists_or, mem_scriptRelations, mem_walkRelations distinct]
  constructor
  · intro shown
    rcases shown with (⟨commands, given, name, command, listed, unrequired, rfl⟩ | ⟨witness, member⟩) |
      ⟨root, id, found, spreads, reaches, foreign, labels⟩
    · exact .script given listed unrequired
    · obtain ⟨⟨id, object⟩, listed, inExport⟩ := List.mem_flatMap.mp member
      obtain ⟨isObject, exported⟩ := List.mem_filter.mp listed
      obtain ⟨same, known⟩ := mem_exportRelations.mp ⟨witness, inExport⟩
      obtain ⟨source, target⟩ := relation
      cases same
      exact .exported ((mem_objects_iff distinct).mp isObject) exported known
    · exact .carried found spreads reaches foreign labels
  · intro holds
    cases holds with
    | script given listed unrequired => exact .inl (.inl ⟨_, given, _, _, listed, unrequired, rfl⟩)
    | @exported id _ target isObject exported known =>
      have shown : ∃ witness, (⟨Domain.caller, target⟩, witness) ∈ exportRelations domains propagation id :=
        mem_exportRelations.mpr ⟨rfl, known⟩
      obtain ⟨witness, member⟩ := shown
      exact .inl (.inr ⟨witness, List.mem_flatMap.mpr
        ⟨_, List.mem_filter.mpr ⟨(mem_objects_iff distinct).mpr isObject, exported⟩, member⟩⟩)
    | carried found spreads reaches foreign labels => exact .inr ⟨_, _, found, spreads, reaches, foreign, labels⟩

theorem mem_relationMap (distinct : flow.ids.Nodup) :
    relation ∈ (flow.relationMap domains propagation scripts).relationSet ↔
      relation.isNoise = false ∧ flow.Holds domains propagation scripts relation := by
  simp only [relationMap, RelationMap.mem_relationSet_withoutNoise, RelationMap.mem_witnessesOf_ofWitnesses,
    exists_witness_iff_holds distinct]

end DataFlowGraph

/-- What both ways of merging domains keep holds after merging, whatever the options ask. -/
theorem AnalysisOptions.merge_preserves {motive : RelationMap → Prop} {map : RelationMap} (options : AnalysisOptions)
    (consolidates : ∀ {map}, motive map → motive map.consolidate)
    (aggregates : ∀ {map}, motive map → motive map.aggregateLocals) (start : motive map) : motive (options.merge map) := by
  have consolidated : motive (if options.consolidate then map.consolidate else map) := by
    split
    · exact consolidates start
    · exact start
  cases merges : options.aggregateLocals with
  | true =>
    simp only [merge, merges, if_true]
    exact aggregates consolidated
  | false =>
    simp only [merge, merges, Bool.false_eq_true, if_false]
    exact consolidated

namespace RelationMap

theorem schemaVersion_merge {map : RelationMap} {options : AnalysisOptions} :
    (options.merge map).schemaVersion = map.schemaVersion :=
  options.merge_preserves (motive := fun merged => merged.schemaVersion = map.schemaVersion)
    (fun same => schemaVersion_remap.trans same) (fun same => schemaVersion_remap.trans same) rfl

end RelationMap

namespace VersionAnalysis
variable {graph : ObjectGraph} {metadata : Metadata} {options : AnalysisOptions}

theorem run_eq_ok_of_seeds {seeds : Seeds} (accepted : graph.seeds metadata.exportedObjects = .ok seeds) :
    run options graph metadata = .ok ⟨graph.extractFrom seeds, options.merge (relationsOf (graph.extractFrom seeds)
      options.builtinsDirectory metadata.lifecycleScripts), options.builtinsDirectory⟩ := by
  rw [run, ObjectGraph.extract_eq_of_seeds accepted]
  rfl

theorem run_eq_error_of_seeds {error : AnalysisError} (refused : graph.seeds metadata.exportedObjects = .error error) :
    run options graph metadata = .error error := by
  rw [run, ObjectGraph.extract, refused]
  rfl

theorem schemaVersion_merge_relationsOf {flow : DataFlowGraph} {builtinsDirectory : Option String}
    {scripts : Option LifecycleScripts} :
    (options.merge (relationsOf flow builtinsDirectory scripts)).schemaVersion = RelationMap.currentSchema := by
  rw [RelationMap.schemaVersion_merge]
  exact RelationMap.schemaVersion_ofWitnesses

end VersionAnalysis

/-- The relations of a version are exactly those that the rules give and that say something. -/
theorem relations_exact {document : Document} {graph : ObjectGraph} {metadata : Metadata} {flow : DataFlowGraph}
    (valid : ObjectGraph.ofDocument document = .ok graph)
    (extracted : graph.extract metadata.exportedObjects = .ok flow) (builtinsDirectory : Option String)
    (relation : Relation) :
    let domains := DirectDomains.assign flow builtinsDirectory
    relation ∈ (VersionAnalysis.relationsOf flow builtinsDirectory metadata.lifecycleScripts).relationSet ↔
      relation.isNoise = false ∧
        flow.Holds domains (Propagation.spread flow domains) metadata.lifecycleScripts relation := by
  obtain ⟨seeds, -, rfl⟩ := ObjectGraph.exists_seeds_of_extract extracted
  have rules := ObjectGraph.wellFormed_of_ofDocument valid
  have copies : graph.Copies seeds (graph.extractFrom seeds) := ObjectGraph.copies_extractFrom rules.distinct
  exact DataFlowGraph.mem_relationMap copies.distinct

theorem relations_exact_leaking :
    ObjectGraph.ofDocument ObjectGraph.leakingDocument = .ok ObjectGraph.leakingGraph ∧
    ObjectGraph.leakingGraph.extract [12] = .ok ObjectGraph.leakingFlow ∧
    ⟨Domain.localCode, Domain.installScripts⟩ ∈ (VersionAnalysis.relationsOf ObjectGraph.leakingFlow none
      (some ⟨none, some "make", none⟩)).relationSet ∧
    ⟨"net", ":local:secret"⟩ ∈ (VersionAnalysis.relationsOf ObjectGraph.leakingFlow none
      (some ⟨none, some "make", none⟩)).relationSet := by
  let metadata : Metadata := ⟨[12], some ⟨none, some "make", none⟩⟩
  have extracted : ObjectGraph.leakingGraph.extract metadata.exportedObjects = .ok ObjectGraph.leakingFlow :=
    ObjectGraph.extract_eq_of_seeds rfl
  have noFile : Script.entryFile? "make" = none := by decide
  have valid : ObjectGraph.ofDocument ObjectGraph.leakingDocument = .ok ObjectGraph.leakingGraph := rfl
  have flows : ObjectGraph.leakingFlow.domain? none 10 = some "net" ∧
      ObjectGraph.leakingFlow.domain? none 13 = some ":local:secret" ∧ ObjectGraph.leakingFlow.isBuiltin 13 = false ∧
      12 ∈ ObjectGraph.leakingFlow.flowTargets 10 ∧ 13 ∈ ObjectGraph.leakingFlow.flowTargets 12 ∧
      [10, 12, 13].all ObjectGraph.leakingFlow.isWalkable = true := by
    simp only [ObjectGraph.leakingFlow, ObjectGraph.extractFrom, ObjectGraph.flowOrder_leaking]
    decide +kernel
  obtain ⟨isSource, isTarget, foreign, first, second, all⟩ := flows
  have walkable := List.all_eq_true.mp all
  have exact := relations_exact valid extracted none
  refine ⟨valid, extracted, (exact _).mpr ⟨by decide, ?_⟩, (exact _).mpr ⟨by decide, ?_⟩⟩
  · refine .script rfl (LifecycleScripts.mem_toList.mpr (.inr (.inl ⟨rfl, rfl⟩))) fun file isFile => ?_
    rw [noFile] at isFile
    cases isFile
  · -- The domain of the module goes over the function to the text that it is given.
    have reaches : ObjectGraph.leakingFlow.DataReaches 10 13 :=
      ⟨walkable 10 (by simp), .tail (.single ⟨DataFlowGraph.mem_flowTargets.mp first, walkable 12 (by simp)⟩)
        ⟨DataFlowGraph.mem_flowTargets.mp second, walkable 13 (by simp)⟩⟩
    exact .carried (DirectDomains.get?_assign.trans isSource) (by decide) reaches foreign
      (.inl (DirectDomains.get?_assign.trans isTarget))

end DomainFlow
