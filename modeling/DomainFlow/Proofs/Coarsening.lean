import DomainFlow.Proofs.InstallScript

/-!
Maps whose relations all say something. Building a map and merging domains leave out noise, but making all
local domains one is not followed by a second look. None is needed: a relation becomes noise in this way only
if it was noise before. So whatever the options are, every relation of a version says something and has a
witness.
-/
namespace DomainFlow

namespace RelationMap
variable {map : RelationMap}

/-- Every relation of the map says something and has a witness. -/
structure Informative (map : RelationMap) : Prop where
  informs : ∀ relation ∈ map.relationSet, relation.isNoise = false
  shown : map.Shown

theorem informative_withoutNoise : map.withoutNoise.Informative :=
  ⟨fun _ member => (mem_relationSet_withoutNoise.mp member).1, shown_withoutNoise⟩

theorem Informative.aggregateLocals (informative : map.Informative) : map.aggregateLocals.Informative := by
  refine ⟨fun relation member => ?_, informative.shown.aggregateLocals⟩
  obtain ⟨-, original, isOriginal, rfl⟩ := mem_relationSet_aggregateLocals.mp member
  rw [Relation.isNoise_generalizeLocals]
  exact informative.informs original isOriginal

theorem Informative.merge (informative : map.Informative) (options : AnalysisOptions) :
    (options.merge map).Informative :=
  options.merge_preserves (fun _ => informative_withoutNoise) Informative.aggregateLocals informative

end RelationMap

theorem VersionAnalysis.informative_merge_relationsOf {flow : DataFlowGraph} {scripts : Option LifecycleScripts}
    (options : AnalysisOptions) : (options.merge (relationsOf flow options.builtinsDirectory scripts)).Informative :=
  RelationMap.informative_withoutNoise.merge options

/-- However far domains are merged, no relation of a version is noise: its ends are different, not both local,
not the caller and a local domain, and neither starts the other; and a witness shows it. -/
theorem relations_inform {graph : ObjectGraph} {metadata : Metadata}
    (known : ∀ id ∈ metadata.exportedObjects, (graph.object? id).isSome) (options : AnalysisOptions) :
    ∃ analysis, VersionAnalysis.run options graph metadata = .ok analysis ∧
      ∀ relation ∈ analysis.relations.relationSet, relation.source ≠ relation.target ∧
        ¬(relation.source.isLocal = true ∧ relation.target.isLocal = true) ∧
        ¬(Domain.caller.toList <+: relation.source.toList ∧ relation.target.isLocal = true) ∧
        ¬relation.target.toList <+: relation.source.toList ∧ ¬relation.source.toList <+: relation.target.toList ∧
        ∃ witness, witness ∈ analysis.relations.witnessesOf relation := by
  refine ⟨_, VersionAnalysis.run_eq_ok_of_seeds (ObjectGraph.seeds_eq_ok_iff.mpr ⟨known, rfl⟩), ?_⟩
  intro relation member
  obtain ⟨informs, shown⟩ := VersionAnalysis.informative_merge_relationsOf options
  have quiet := informs relation member
  rw [← Bool.not_eq_true, Relation.isNoise_iff] at quiet
  simp only [not_or, Text.startsWith_iff] at quiet
  obtain ⟨different, notLocal, notCalled, notInside, notAround⟩ := quiet
  exact ⟨different, notLocal, notCalled, notInside, notAround, shown relation member⟩

theorem relations_inform_leaking :
    (∀ id ∈ [12], (ObjectGraph.leakingGraph.object? id).isSome) ∧
    ∃ analysis, VersionAnalysis.run ⟨none, false, true⟩ ObjectGraph.leakingGraph
        ⟨[12], some ⟨none, some "make", none⟩⟩ = .ok analysis ∧
      ⟨Domain.localCode, Domain.installScripts⟩ ∈ analysis.relations.relationSet ∧
      ¬Domain.localCode.toList <+: Domain.installScripts.toList ∧
      ∃ witness, witness ∈ analysis.relations.witnessesOf ⟨Domain.localCode, Domain.installScripts⟩ := by
  let commands : LifecycleScripts := ⟨none, some "make", none⟩
  let metadata : Metadata := ⟨[12], some commands⟩
  have known : ∀ id ∈ metadata.exportedObjects, (ObjectGraph.leakingGraph.object? id).isSome :=
    List.forall_mem_singleton.mpr rfl
  have valid : ObjectGraph.ofDocument ObjectGraph.leakingDocument = .ok ObjectGraph.leakingGraph := rfl
  have accepted := ObjectGraph.seeds_eq_ok_iff.mpr ⟨known, rfl⟩
  have unrequired : ObjectGraph.leakingGraph.Unrequired "make" := by
    intro file isFile
    rw [show Script.entryFile? "make" = none by decide] at isFile
    cases isFile
  have inScripts : ("install", "make") ∈ commands.toList := LifecycleScripts.mem_toList.mpr (.inr (.inl ⟨rfl, rfl⟩))
  have member := VersionAnalysis.script_mem_merge_relationsOf (ObjectGraph.wellFormed_of_ofDocument valid) accepted
    inScripts unrequired ⟨none, false, true⟩
  obtain ⟨analysis, ran, informs⟩ := relations_inform known ⟨none, false, true⟩
  cases ran.symm.trans (VersionAnalysis.run_eq_ok_of_seeds accepted)
  obtain ⟨-, -, -, -, notAround, shown⟩ := informs _ member
  exact ⟨known, _, ran, member, notAround, shown⟩

end DomainFlow
