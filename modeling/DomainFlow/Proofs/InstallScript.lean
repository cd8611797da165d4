import DomainFlow.Proofs.Comparison
import DomainFlow.Proofs.RelationKeys

/-!
Scripts of the installation. A script that no module requires shows in the relations of a version however
far domains are merged, since its relation joins two domains that merging leaves as they are. So every
policy finds the script, unless local code ran scripts of the installation before.
-/
namespace DomainFlow

namespace ObjectGraph
variable {graph : ObjectGraph} {listed : List NodeId} {seeds : Seeds} {command : String}

/-- Whether no place requires the file that a command runs, or the command does not just run one. -/
def Unrequired (graph : ObjectGraph) (command : String) : Prop :=
  ∀ file, Script.entryFile? command = some file → ∀ edge ∈ graph.edges, edge.kind = .astRequireToObj →
    ∀ name, edge.moduleName = some name → Script.withoutCurrentDirectories name.toList ≠ file.toList

theorem unrequired_extractFrom (rules : graph.WellFormed) (accepted : graph.seeds listed = .ok seeds)
    (unrequired : graph.Unrequired command) : (graph.extractFrom seeds).Unrequired command := by
  intro file isFile edge member kind name label
  have taken := (mem_edges_extractFrom_iff_taken rules accepted).mp member
  -- Extraction makes up no place that requires a module.
  cases taken with
  | module inGraph needed => exact unrequired file isFile _ inGraph rfl name label
  | _ => cases kind

end ObjectGraph

namespace AnalysisOptions
variable {options : AnalysisOptions} {map : RelationMap} {relation : Relation}

/-- A relation that says something and that merging leaves as it is stays in the map. -/
theorem mem_merge_of_consolidated_eq (shown : map.Shown) (member : relation ∈ map.relationSet)
    (informs : relation.isNoise = false) (coarse : relation.consolidated = relation) :
    relation ∈ (options.merge map).relationSet := by
  have different : relation.source ≠ relation.target := by
    intro same
    rw [Relation.isNoise_iff.mpr (.inl same)] at informs
    cases informs
  have single : relation.generalizeLocals = relation := by
    rw [← coarse, Relation.generalizeLocals_consolidated]
  have kept : (options.merge map).Shown ∧ relation ∈ (options.merge map).relationSet := by
    refine options.merge_preserves (motive := fun map => map.Shown ∧ relation ∈ map.relationSet) ?_ ?_ ⟨shown, member⟩
    · intro map both
      exact ⟨RelationMap.shown_withoutNoise,
        (RelationMap.mem_relationSet_consolidate both.1).mpr ⟨informs, relation, both.2, coarse⟩⟩
    · intro map both
      exact ⟨both.1.aggregateLocals, RelationMap.mem_relationSet_aggregateLocals.mpr ⟨different, relation, both.2, single⟩⟩
  exact kept.2

end AnalysisOptions

namespace RelationSet

theorem script_not_mem_map {before : RelationSet}
    (quiet : ∀ source, Domain.isLocal source = true → ⟨source, Domain.installScripts⟩ ∉ before) :
    Relation.generalizeLocals ⟨Domain.localCode, Domain.installScripts⟩ ∉ before.map Relation.generalizeLocals := by
  intro known
  obtain ⟨⟨source, target⟩, member, same⟩ := SortedSet.mem_map.mp known
  obtain ⟨sameSource, sameTarget⟩ := Relation.mk.inj same
  have sourceLocal : Domain.isLocal source = true := by
    rw [← Domain.isLocal_generalizeLocal, sameSource]
    decide
  rcases Domain.generalizeLocal_eq_iff.mp sameTarget with rfl | ⟨-, targetLocal⟩
  · exact quiet source sourceLocal member
  · exact absurd targetLocal (by decide)

end RelationSet

namespace VersionAnalysis
variable {graph : ObjectGraph} {listed : List NodeId} {seeds : Seeds} {commands : LifecycleScripts} {name command : String}

theorem script_mem_merge_relationsOf (rules : graph.WellFormed) (accepted : graph.seeds listed = .ok seeds)
    (inScripts : (name, command) ∈ commands.toList) (unrequired : graph.Unrequired command) (options : AnalysisOptions) :
    ⟨Domain.localCode, Domain.installScripts⟩ ∈ (options.merge (relationsOf (graph.extractFrom seeds)
      options.builtinsDirectory (some commands))).relationSet := by
  have distinct : (graph.extractFrom seeds).ids.Nodup := (ObjectGraph.copies_extractFrom rules.distinct).distinct
  refine AnalysisOptions.mem_merge_of_consolidated_eq RelationMap.shown_withoutNoise ?_ (by decide) (by decide)
  exact (DataFlowGraph.mem_relationMap distinct).mpr
    ⟨by decide, .script rfl inScripts (ObjectGraph.unrequired_extractFrom rules accepted unrequired)⟩

end VersionAnalysis

/-- A script of the installation that no module requires is found by every policy, against every earlier
version in which local code ran no such scripts. -/
theorem install_script_flagged {document : Document} {graph : ObjectGraph} {metadata : Metadata}
    {commands : LifecycleScripts} {name command : String} (valid : ObjectGraph.ofDocument document = .ok graph)
    (known : ∀ id ∈ metadata.exportedObjects, (graph.object? id).isSome)
    (given : metadata.lifecycleScripts = some commands) (inScripts : (name, command) ∈ commands.toList)
    (unrequired : graph.Unrequired command) (options : AnalysisOptions) {before : RelationMap}
    (sameSchema : before.schemaVersion = RelationMap.currentSchema)
    (quiet : ∀ source, Domain.isLocal source = true → ⟨source, Domain.installScripts⟩ ∉ before.relationSet) :
    ∃ analysis, VersionAnalysis.run options graph metadata = .ok analysis ∧
      (∃ found, RelationMap.diff .broad before analysis.relations = .ok found ∧
        ⟨Domain.localCode, Domain.installScripts⟩ ∈ found) ∧
      (∃ found, RelationMap.diff .newLocal before analysis.relations = .ok found ∧
        ⟨Domain.newLocalCode, Domain.installScripts⟩ ∈ found) ∧
      ∃ found, RelationMap.diff .singleLocal before analysis.relations = .ok found ∧
        ⟨Domain.localCode, Domain.installScripts⟩ ∈ found := by
  have rules := ObjectGraph.wellFormed_of_ofDocument valid
  have accepted := ObjectGraph.seeds_eq_ok_iff.mpr ⟨known, rfl⟩
  have member := VersionAnalysis.script_mem_merge_relationsOf rules accepted inScripts unrequired options
  rw [← given] at member
  have found := fun policy => RelationMap.exists_diff_of_new policy
    (sameSchema.trans VersionAnalysis.schemaVersion_merge_relationsOf.symm) member (RelationSet.script_not_mem_map quiet)
    (by decide)
  exact ⟨_, VersionAnalysis.run_eq_ok_of_seeds accepted, found .broad, found .newLocal, found .singleLocal⟩

/-- An earlier version in which a text of the package gets to a module, and nothing else is known. -/
def RelationMap.leakOnly : RelationMap := .ofWitnesses [(⟨":local:secret", "net"⟩, ⟨[13, 12], [12]⟩)]

theorem install_script_flagged_leaking :
    ObjectGraph.ofDocument ObjectGraph.leakingDocument = .ok ObjectGraph.leakingGraph ∧
    Script.entryFile? "node setup.js" = some "setup.js" ∧ ObjectGraph.leakingGraph.Unrequired "node setup.js" ∧
    ∃ analysis, VersionAnalysis.run ⟨none, true, true⟩ ObjectGraph.leakingGraph
        ⟨[12], some ⟨none, none, some "node setup.js"⟩⟩ = .ok analysis ∧
      (∃ found, RelationMap.diff .broad .leakOnly analysis.relations = .ok found ∧
        ⟨Domain.localCode, Domain.installScripts⟩ ∈ found) ∧
      (∃ found, RelationMap.diff .newLocal .leakOnly analysis.relations = .ok found ∧
        ⟨Domain.newLocalCode, Domain.installScripts⟩ ∈ found) ∧
      ∃ found, RelationMap.diff .singleLocal .leakOnly analysis.relations = .ok found ∧
        ⟨Domain.localCode, Domain.installScripts⟩ ∈ found := by
  have valid : ObjectGraph.ofDocument ObjectGraph.leakingDocument = .ok ObjectGraph.leakingGraph := rfl
  have runsFile : Script.entryFile? "node setup.js" = some "setup.js" := by decide
  have onlyModule : ∀ edge ∈ ObjectGraph.leakingGraph.edges, edge.kind = .astRequireToObj →
      edge.moduleName = some "net" := by decide
  have unrequired : ObjectGraph.leakingGraph.Unrequired "node setup.js" := by
    intro file isFile edge member kind name isName same
    rw [runsFile] at isFile
    rw [onlyModule edge member kind] at isName
    cases isFile
    cases isName
    exact absurd same (by decide)
  have quiet : ∀ source, Domain.isLocal source = true →
      ⟨source, Domain.installScripts⟩ ∉ RelationMap.leakOnly.relationSet := by
    intro source _ member
    have same : ⟨source, Domain.installScripts⟩ = (⟨":local:secret", "net"⟩ : Relation) := List.mem_singleton.mp member
    have sameTarget : Domain.installScripts = "net" := congrArg Relation.target same
    exact absurd sameTarget (by decide)
  have known : ∀ id ∈ [12], (ObjectGraph.leakingGraph.object? id).isSome := List.forall_mem_singleton.mpr rfl
  exact ⟨valid, runsFile, unrequired, install_script_flagged valid known rfl
    (LifecycleScripts.mem_toList.mpr (.inr (.inr ⟨rfl, rfl⟩))) unrequired ⟨none, true, true⟩ rfl quiet⟩

end DomainFlow
