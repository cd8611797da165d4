import DomainFlow.Proofs.Propagation
import DomainFlow.Proofs.RelationKeys
import DomainFlow.Proofs.ShortestWalk

/-!
What the witnesses of relations show. A witness has the nodes of a shortest way on which data flows and of
the path that gave the object at its end the label; or it names an exported object and where its domain comes
from; or it is empty, if a script is run.
-/
namespace DomainFlow

/-- Every arrival at a node comes from a node with the domain and is the one that is found for that node. -/
def Propagation.Recorded (propagation : Propagation) (domains : DirectDomains) : Prop :=
  ∀ id, ∀ arrival ∈ propagation.arrivals id, domains.get? arrival.root = some arrival.domain ∧
    propagation.path? id arrival.domain arrival.root = some arrival.path

theorem recorded_spread {flow : DataFlowGraph} {builtinsDirectory : Option String} :
    (Propagation.spread flow (.assign flow builtinsDirectory)).Recorded (.assign flow builtinsDirectory) := by
  intro id arrival arrived
  have kept := mem_arrivals_spread.mp arrived
  exact ⟨DirectDomains.get?_assign.trans kept.1, path?_spread_eq_some_iff.mpr kept⟩

namespace DataFlowGraph
variable {flow : DataFlowGraph} {domains : DirectDomains} {propagation : Propagation}
  {scripts : Option LifecycleScripts} {relation : Relation} {witness : Witness} {id : NodeId}

/-- The nodes from which an object has a label: itself, if it is its own domain, or else the nodes of the path
that is found for a root, if the label is the composite one of that path. -/
def Explains (flow : DataFlowGraph) (domains : DirectDomains) (propagation : Propagation) (id : NodeId)
    (label : Domain) (properties : List NodeId) : Prop :=
  domains.get? id = some label ∧ properties = [id] ∨
    ∃ root domain path, propagation.path? id domain root = some path ∧ properties = path.nodes ∧
      label = flow.compositeLabel domain path

/-- What the witnesses of relations can be. -/
inductive Shows (flow : DataFlowGraph) (domains : DirectDomains) (propagation : Propagation)
    (scripts : Option LifecycleScripts) : Relation → Witness → Prop where
  | script {commands : LifecycleScripts} {name command : String} : scripts = some commands →
      (name, command) ∈ commands.toList → flow.Unrequired command →
      Shows flow domains propagation scripts ⟨Domain.localCode, Domain.installScripts⟩ ⟨[], []⟩
  | exported {root id : NodeId} {object : FlowObject} {target : Domain} : flow.object? id = some object →
      object.isExported = true → domains.get? root = some target →
      root = id ∨ (propagation.path? id target root).isSome →
      Shows flow domains propagation scripts ⟨Domain.caller, target⟩ ⟨[root, id], [root, id]⟩
  | carried {root id : NodeId} {source target : Domain} {way properties : List NodeId} :
      domains.get? root = some source → source ≠ Domain.dynamicRequire → flow.ShortestWay root id way →
      flow.isBuiltin id = false → flow.Explains domains propagation id target properties →
      Shows flow domains propagation scripts ⟨source, target⟩ ⟨way, properties⟩

theorem shows_of_mem_scriptRelations
    (member : (relation, witness) ∈ (scripts.map flow.scriptRelations).getD []) :
    flow.Shows domains propagation scripts relation witness := by
  cases scripts with
  | none => simp at member
  | some commands =>
    rw [Option.map_some, Option.getD_some, scriptRelations, List.mem_map] at member
    obtain ⟨⟨name, command⟩, listed, same⟩ := member
    obtain ⟨given, unrequired⟩ := List.mem_filter.mp listed
    cases same
    refine .script rfl given (requiresScript_eq_false_iff.mp ?_)
    simpa using unrequired

theorem shows_of_mem_exportRelations (recorded : propagation.Recorded domains) {object : FlowObject}
    (isObject : flow.object? id = some object) (exported : object.isExported = true)
    (member : (relation, witness) ∈ exportRelations domains propagation id) :
    flow.Shows domains propagation scripts relation witness := by
  rcases List.mem_append.mp member with reached | own
  · obtain ⟨arrival, arrived, same⟩ := List.mem_map.mp reached
    obtain ⟨isRoot, isPath⟩ := recorded id arrival arrived
    cases same
    exact .exported isObject exported isRoot (.inr (Option.isSome_of_eq_some isPath))
  · obtain ⟨domain, isOwn, same⟩ := Option.map_eq_some_iff.mp (Option.mem_toList.mp own)
    cases same
    exact .exported isObject exported isOwn (.inl rfl)

theorem explains_of_mem_visitRelations (recorded : propagation.Recorded domains) {source : Domain} {visit : Visit}
    (member : (relation, witness) ∈ flow.visitRelations domains propagation source visit) :
    relation.source = source ∧ witness.path = visit.path ∧ flow.isBuiltin visit.node = false ∧
      flow.Explains domains propagation visit.node relation.target witness.propertyPath := by
  rw [visitRelations] at member
  cases foreign : flow.isBuiltin visit.node with
  | true => simp [foreign] at member
  | false =>
    rw [foreign, if_neg Bool.false_ne_true] at member
    rcases List.mem_append.mp member with own | reached
    · obtain ⟨domain, isOwn, same⟩ := Option.map_eq_some_iff.mp (Option.mem_toList.mp own)
      cases same
      exact ⟨rfl, rfl, rfl, .inl ⟨isOwn, rfl⟩⟩
    · obtain ⟨arrival, arrived, same⟩ := List.mem_map.mp reached
      cases same
      exact ⟨rfl, rfl, rfl, .inr ⟨_, _, _, (recorded visit.node arrival arrived).2, rfl, rfl⟩⟩

theorem shows_of_mem_witnesses (distinct : flow.ids.Nodup) (recorded : propagation.Recorded domains)
    (member : (relation, witness) ∈ flow.witnesses domains propagation scripts) :
    flow.Shows domains propagation scripts relation witness := by
  rw [witnesses, List.mem_append, List.mem_append] at member
  rcases member with (inScripts | inExports) | inWalks
  · exact shows_of_mem_scriptRelations inScripts
  · obtain ⟨⟨id, object⟩, listed, inExport⟩ := List.mem_flatMap.mp inExports
    obtain ⟨isObject, exported⟩ := List.mem_filter.mp listed
    exact shows_of_mem_exportRelations recorded ((mem_objects_iff distinct).mp isObject) exported inExport
  · obtain ⟨⟨source, visits⟩, walked, inVisits⟩ := List.mem_flatMap.mp inWalks
    obtain ⟨visit, visited, inVisit⟩ := List.mem_flatMap.mp inVisits
    obtain ⟨rfl, isWay, foreign, explains⟩ := explains_of_mem_visitRelations recorded inVisit
    obtain ⟨root, seen, revisit, found, spreads, closed, rfl⟩ :=
      exists_walkFrom_of_mem_walks (fun _ => closed_nil) walked
    have shortest := shortest_of_mem_walkFrom distinct closed visited
    exact .carried found spreads (isWay ▸ shortest) foreign explains

end DataFlowGraph

/-- Every relation of a version has witnesses, and each of them shows the relation: on a shortest way, at an
exported object, or by a script. -/
theorem witnesses_show {document : Document} {graph : ObjectGraph} {metadata : Metadata} {flow : DataFlowGraph}
    (valid : ObjectGraph.ofDocument document = .ok graph)
    (extracted : graph.extract metadata.exportedObjects = .ok flow) (builtinsDirectory : Option String) :
    let domains := DirectDomains.assign flow builtinsDirectory
    ∀ relation witnesses,
      (VersionAnalysis.relationsOf flow builtinsDirectory metadata.lifecycleScripts).get? relation = some witnesses →
      (∃ witness, witness ∈ witnesses) ∧ ∀ witness ∈ witnesses,
        flow.Shows domains (Propagation.spread flow domains) metadata.lifecycleScripts relation witness := by
  intro domains relation witnesses found
  obtain ⟨seeds, -, rfl⟩ := ObjectGraph.exists_seeds_of_extract extracted
  have rules := ObjectGraph.wellFormed_of_ofDocument valid
  have copies : graph.Copies seeds (graph.extractFrom seeds) := ObjectGraph.copies_extractFrom rules.distinct
  have listed : (VersionAnalysis.relationsOf (graph.extractFrom seeds) builtinsDirectory
      metadata.lifecycleScripts).witnessesOf relation = witnesses := by
    rw [RelationMap.witnessesOf, found, Option.getD_some]
  constructor
  · rw [← listed]
    exact RelationMap.shown_withoutNoise relation
      (RelationMap.mem_relationSet.mpr (Option.isSome_of_eq_some found))
  · intro witness member
    rw [← listed] at member
    obtain ⟨-, collected⟩ := RelationMap.mem_witnessesOf_withoutNoise.mp member
    exact DataFlowGraph.shows_of_mem_witnesses copies.distinct recorded_spread
      (RelationMap.mem_witnessesOf_ofWitnesses.mp collected)

section Leaking
open ObjectGraph

theorem spread_leaking : Propagation.spread leakingFlow (.assign leakingFlow none) =
    ⟨[⟨10, "net", [(10, .start 10), (12, ⟨[10, 12], [1]⟩)]⟩, ⟨13, ":local:secret", [(13, .start 13)]⟩]⟩ := by
  have roots : (DirectDomains.assign leakingFlow none).roots = [(10, "net"), (13, ":local:secret")] := by
    simp only [leakingFlow, extractFrom, flowOrder_leaking]
    decide +kernel
  have free : Propagation.isConfined "net" = false ∧ Propagation.isConfined ":local:secret" = false := by decide
  simp [Propagation.spread, roots, spreadFrom_leaking, free]

theorem walkFrom_leaking : leakingFlow.walkFrom [] 10 false = [⟨10, [10]⟩, ⟨12, [10, 12]⟩, ⟨13, [10, 12, 13]⟩] ∧
    leakingFlow.walkFrom [] 13 false = [⟨13, [13]⟩, ⟨12, [13, 12]⟩] := by
  have facts : leakingFlow.ids = [1, 2, 12, 10, 13] ∧ leakingFlow.flowTargets 10 = [12] ∧ leakingFlow.flowTargets 12 = [13] ∧
      leakingFlow.flowTargets 13 = [12] ∧ leakingFlow.isWalkable 10 = true ∧ leakingFlow.isWalkable 12 = true ∧
      leakingFlow.isWalkable 13 = true := by
    simp only [leakingFlow, extractFrom, flowOrder_leaking]
    decide +kernel
  simp [DataFlowGraph.walkFrom, DataFlowGraph.walkOver, DataFlowGraph.nextVisits, facts]

theorem walks_leaking : leakingFlow.walks (.assign leakingFlow none) (fun _ => []) leakingFlow.objects =
    [("net", [⟨10, [10]⟩, ⟨12, [10, 12]⟩, ⟨13, [10, 12, 13]⟩]), (":local:secret", [⟨13, [13]⟩, ⟨12, [13, 12]⟩])] := by
  have objects : leakingFlow.objects = [(12, ⟨none, none, none, none, true, false, none, none, .other, none⟩),
      (10, ⟨none, none, none, none, false, false, none, none, .require, none⟩),
      (13, ⟨none, some (.text "secret"), none, none, false, false, none, none, .static, none⟩)] := by
    simp only [leakingFlow, extractFrom, flowOrder_leaking]
    decide +kernel
  have domains : leakingFlow.domain? none 12 = none ∧ leakingFlow.domain? none 10 = some "net" ∧
      leakingFlow.domain? none 13 = some ":local:secret" := by
    simp only [leakingFlow, extractFrom, flowOrder_leaking]
    decide +kernel
  have others : ("net" == Domain.dynamicRequire) = false ∧ (":local:secret" == Domain.dynamicRequire) = false ∧
      (ObjectType.require == .apiRetVal) = false ∧ (ObjectType.static == .apiRetVal) = false := by decide
  simp [DataFlowGraph.walks, objects, DirectDomains.get?_assign, domains, walkFrom_leaking, FlowObject.isModuleLoader, others]

end Leaking

theorem witnesses_show_leaking :
    ObjectGraph.ofDocument ObjectGraph.leakingDocument = .ok ObjectGraph.leakingGraph ∧
    ∃ flow, ObjectGraph.leakingGraph.extract [12] = .ok flow ∧
      (VersionAnalysis.relationsOf flow none none).get? ⟨"net", ":local:secret"⟩ =
        some (.ofList [⟨[10, 12, 13], [13]⟩]) ∧
      flow.Shows (.assign flow none) (Propagation.spread flow (.assign flow none)) none
        ⟨"net", ":local:secret"⟩ ⟨[10, 12, 13], [13]⟩ := by
  let metadata : Metadata := ⟨[12], none⟩
  have valid : ObjectGraph.ofDocument ObjectGraph.leakingDocument = .ok ObjectGraph.leakingGraph := rfl
  have extracted : ObjectGraph.leakingGraph.extract metadata.exportedObjects =
      .ok (ObjectGraph.leakingGraph.extractFrom ⟨[], [12], [10]⟩) := ObjectGraph.extract_eq_of_seeds rfl
  have found : (VersionAnalysis.relationsOf (ObjectGraph.leakingGraph.extractFrom ⟨[], [12], [10]⟩) none none).get?
      ⟨"net", ":local:secret"⟩ = some (.ofList [⟨[10, 12, 13], [13]⟩]) := by
    rw [← ObjectGraph.leakingFlow, VersionAnalysis.relationsOf, DataFlowGraph.relationMap, DataFlowGraph.witnesses, walks_leaking,
      spread_leaking, ObjectGraph.leakingFlow]
    simp only [ObjectGraph.extractFrom, ObjectGraph.flowOrder_leaking]
    decide +kernel
  obtain ⟨-, shows⟩ := witnesses_show valid extracted none _ _ found
  exact ⟨valid, _, extracted, found, shows _ (SortedSet.mem_ofList.mpr (List.mem_singleton.mpr rfl))⟩

end DomainFlow
