import Mathlib.Data.List.TakeWhile
import DomainFlow.Proofs.Coarsening
import DomainFlow.Proofs.Comparison

/-!
How the three ways of making a map coarser work together. Each of them shares out the witnesses of a map
among fewer relations, and a map in which every relation has a witness is determined by who has which. So an
equation between two maps is one between the witnesses of each relation. Consolidation absorbs what is done
before it, and that all local domains become one commutes with leaving out noise.
-/
namespace DomainFlow

namespace Domain
variable {domain : Domain}

theorem consolidate_consolidate : consolidate (consolidate domain) = consolidate domain := by
  apply String.toList_injective
  rw [toList_consolidate, toList_consolidate, List.takeWhile_idem]

theorem generalizeLocal_consolidate_generalizeLocal_consolidate :
    generalizeLocal (consolidate (generalizeLocal (consolidate domain))) = generalizeLocal (consolidate domain) := by
  rw [generalizeLocal_consolidate_generalizeLocal, consolidate_consolidate]

end Domain

namespace Relation
variable {relation : Relation}

theorem consolidated_consolidated : relation.consolidated.consolidated = relation.consolidated := by
  simp only [consolidated, map, Domain.generalizeLocal_consolidate_generalizeLocal_consolidate]

theorem source_ne_target (informs : relation.isNoise = false) : relation.source ≠ relation.target := by
  intro loop
  rw [isNoise_iff.mpr (.inl loop)] at informs
  cases informs

end Relation

namespace RelationMap
variable {map coarser first second : RelationMap} {relation : Relation} {witness : Witness}

section Witnesses

theorem mem_witnessesOf_iff : witness ∈ map.witnessesOf relation ↔
    ∃ known, map.get? relation = some known ∧ witness ∈ known := by
  rw [witnessesOf]
  cases map.get? relation with
  | none => simp
  | some known => simp

theorem get?_eq_of_shown (shown : map.Shown) : map.get? relation =
    if (map.witnessesOf relation).isEmpty then none else some (map.witnessesOf relation) := by
  cases found : map.get? relation with
  | none =>
    have nothing : (map.witnessesOf relation).isEmpty = true := by rw [witnessesOf, found]; rfl
    rw [if_pos nothing]
  | some witnesses =>
    have present : relation ∈ map.relationSet := mem_relationSet.mpr (Option.isSome_of_eq_some found)
    have nonempty : (map.witnessesOf relation).isEmpty = false := isEmpty_eq_false_iff.mpr (shown relation present)
    rw [nonempty, witnessesOf, found]
    rfl

/-- Where every relation has a witness, a map is determined by the witnesses of each relation. -/
theorem eq_of_witnesses (firstShown : first.Shown) (secondShown : second.Shown)
    (sameSchema : first.schemaVersion = second.schemaVersion)
    (same : ∀ relation witness, witness ∈ first.witnessesOf relation ↔ witness ∈ second.witnessesOf relation) :
    first = second := by
  have sameRelations : first.relations = second.relations := by
    apply SortedMap.ext_get?
    intro relation
    have sameWitnesses : first.witnessesOf relation = second.witnessesOf relation :=
      SortedSet.ext_mem (same relation)
    calc
      first.relations.get? relation = _ := get?_eq_of_shown firstShown
      _ = _ := by rw [sameWitnesses]
      _ = second.relations.get? relation := (get?_eq_of_shown secondShown).symm
  cases first
  cases second
  congr

end Witnesses

section Consolidation

theorem mem_witnessesOf_consolidate : witness ∈ map.consolidate.witnessesOf relation ↔
    relation.isNoise = false ∧ ∃ original, original.consolidated = relation ∧ witness ∈ map.witnessesOf original := by
  rw [consolidate, mem_witnessesOf_withoutNoise, mem_witnessesOf_remap]

theorem shown_consolidate : map.consolidate.Shown := shown_withoutNoise

theorem schemaVersion_consolidate : map.consolidate.schemaVersion = map.schemaVersion := schemaVersion_remap

theorem schemaVersion_withoutNoise : map.withoutNoise.schemaVersion = map.schemaVersion := rfl

theorem schemaVersion_aggregateLocals : map.aggregateLocals.schemaVersion = map.schemaVersion := schemaVersion_remap

/-- A change to the relations, followed by a choice among them, is absorbed by a consolidation that follows: the
change is one that consolidation makes anyway, and what was not chosen would have become noise. -/
theorem consolidate_eq_of_coarser {change : Relation → Relation} {keeps : Relation → Prop}
    (sameSchema : coarser.schemaVersion = map.schemaVersion)
    (coarsens : ∀ relation witness, witness ∈ coarser.witnessesOf relation ↔
      keeps relation ∧ ∃ original, change original = relation ∧ witness ∈ map.witnessesOf original)
    (absorbed : ∀ original, (change original).consolidated = original.consolidated)
    (noise : ∀ relation, ¬keeps relation → relation.consolidated.isNoise = true) :
    coarser.consolidate = map.consolidate := by
  apply eq_of_witnesses shown_consolidate shown_consolidate
  · rw [schemaVersion_consolidate, schemaVersion_consolidate, sameSchema]
  · intro relation witness
    rw [mem_witnessesOf_consolidate, mem_witnessesOf_consolidate]
    apply and_congr_right
    intro informs
    constructor
    · rintro ⟨changed, rfl, isWitness⟩
      obtain ⟨-, original, rfl, isOriginal⟩ := (coarsens changed witness).mp isWitness
      exact ⟨original, (absorbed original).symm, isOriginal⟩
    · rintro ⟨original, rfl, isOriginal⟩
      have kept : keeps (change original) := by
        by_contra dropped
        rw [← absorbed, noise _ dropped] at informs
        cases informs
      exact ⟨change original, absorbed original, (coarsens _ witness).mpr ⟨kept, original, rfl, isOriginal⟩⟩

theorem mem_witnessesOf_consolidate_iff_of_informs (informs : relation.isNoise = false) :
    witness ∈ map.consolidate.witnessesOf relation ↔
      ∃ original known, map.get? original = some known ∧ original.consolidated = relation ∧ witness ∈ known := by
  rw [mem_witnessesOf_consolidate, and_iff_right informs]
  simp only [mem_witnessesOf_iff]
  constructor
  · rintro ⟨original, merged, known, found, isWitness⟩
    exact ⟨original, known, found, merged, isWitness⟩
  · rintro ⟨original, known, found, merged, isWitness⟩
    exact ⟨original, merged, known, found, isWitness⟩

/-- What a consolidated map has under a relation: exactly the witnesses of all relations that were merged into it. -/
theorem get?_consolidate_eq_some_iff {witnesses : SortedSet Witness} : map.consolidate.get? relation = some witnesses ↔
    relation.isNoise = false ∧ (∃ witness, witness ∈ witnesses) ∧ ∀ witness, witness ∈ witnesses ↔
      ∃ original known, map.get? original = some known ∧ original.consolidated = relation ∧ witness ∈ known := by
  constructor
  · intro found
    have same : map.consolidate.witnessesOf relation = witnesses := by rw [witnessesOf, found, Option.getD_some]
    have present : relation ∈ map.consolidate.relationSet := mem_relationSet.mpr (Option.isSome_of_eq_some found)
    have shown := shown_consolidate relation present
    have informs : relation.isNoise = false := (mem_relationSet_withoutNoise.mp present).1
    rw [same] at shown
    refine ⟨informs, shown, fun witness => ?_⟩
    rw [← same, mem_witnessesOf_consolidate_iff_of_informs informs]
  · rintro ⟨informs, shown, exactly⟩
    have same : map.consolidate.witnessesOf relation = witnesses := by
      apply SortedSet.ext_mem
      intro witness
      rw [mem_witnessesOf_consolidate_iff_of_informs informs, exactly]
    rw [get?_eq_of_shown shown_consolidate, same, isEmpty_eq_false_iff.mpr shown]
    rfl

theorem consolidate_consolidate : map.consolidate.consolidate = map.consolidate := by
  apply consolidate_eq_of_coarser schemaVersion_consolidate (fun _ _ => mem_witnessesOf_consolidate)
  · exact fun _ => Relation.consolidated_consolidated
  · exact fun _ dropped => Relation.isNoise_consolidated (Bool.not_eq_false _ ▸ dropped)

theorem consolidate_withoutNoise : map.withoutNoise.consolidate = map.consolidate := by
  have coarsens : ∀ relation witness, witness ∈ map.withoutNoise.witnessesOf relation ↔
      relation.isNoise = false ∧ ∃ original, id original = relation ∧ witness ∈ map.witnessesOf original := by
    intro relation witness
    simp only [mem_witnessesOf_withoutNoise, id, exists_eq_left]
  apply consolidate_eq_of_coarser schemaVersion_withoutNoise coarsens
  · exact fun _ => rfl
  · exact fun _ dropped => Relation.isNoise_consolidated (Bool.not_eq_false _ ▸ dropped)

theorem consolidate_aggregateLocals : map.aggregateLocals.consolidate = map.consolidate := by
  apply consolidate_eq_of_coarser schemaVersion_aggregateLocals (fun _ _ => mem_witnessesOf_aggregateLocals)
  · exact fun _ => Relation.consolidated_generalizeLocals
  · intro relation dropped
    have loop : relation.source = relation.target := not_not.mp dropped
    exact Relation.isNoise_consolidated (Relation.isNoise_iff.mpr (.inl loop))

end Consolidation

section Aggregation

/-- Nothing is left to merge where relations have no local domain but the one for all local code, and none leads
back to where it starts. -/
theorem aggregateLocals_eq_self (shown : map.Shown)
    (merged : ∀ relation ∈ map.relationSet, relation.generalizeLocals = relation ∧ relation.source ≠ relation.target) :
    map.aggregateLocals = map := by
  apply eq_of_witnesses shown.aggregateLocals shown schemaVersion_aggregateLocals
  intro relation witness
  rw [mem_witnessesOf_aggregateLocals]
  constructor
  · rintro ⟨-, original, rfl, isWitness⟩
    rwa [(merged original (mem_relationSet_of_witness isWitness)).1]
  · intro isWitness
    obtain ⟨same, different⟩ := merged relation (mem_relationSet_of_witness isWitness)
    exact ⟨different, relation, same, isWitness⟩

theorem aggregateLocals_consolidate : map.consolidate.aggregateLocals = map.consolidate := by
  apply aggregateLocals_eq_self shown_consolidate
  intro relation member
  obtain ⟨witness, isWitness⟩ := shown_consolidate relation member
  obtain ⟨informs, original, rfl, -⟩ := mem_witnessesOf_consolidate.mp isWitness
  exact ⟨Relation.generalizeLocals_consolidated, Relation.source_ne_target informs⟩

/-- Whether noise is left out before or after all local domains become one makes no difference. -/
theorem aggregateLocals_withoutNoise : map.withoutNoise.aggregateLocals = map.aggregateLocals.withoutNoise := by
  apply eq_of_witnesses shown_withoutNoise.aggregateLocals shown_withoutNoise
  · rw [schemaVersion_aggregateLocals, schemaVersion_withoutNoise, schemaVersion_withoutNoise,
      schemaVersion_aggregateLocals]
  · intro relation witness
    simp only [mem_witnessesOf_withoutNoise, mem_witnessesOf_aggregateLocals]
    constructor
    · rintro ⟨different, original, rfl, informs, isWitness⟩
      exact ⟨Relation.isNoise_generalizeLocals.trans informs, different, original, rfl, isWitness⟩
    · rintro ⟨informs, different, original, rfl, isWitness⟩
      exact ⟨different, original, rfl, Relation.isNoise_generalizeLocals.symm.trans informs, isWitness⟩

/-- A comparison that takes all local domains for one does not see whether they have become one before. -/
theorem map_generalizeLocals_aggregateLocals (informative : map.Informative) :
    map.aggregateLocals.relationSet.map Relation.generalizeLocals = map.relationSet.map Relation.generalizeLocals := by
  apply SortedSet.ext_mem
  intro relation
  rw [SortedSet.mem_map, SortedSet.mem_map]
  constructor
  · rintro ⟨aggregated, member, rfl⟩
    obtain ⟨-, original, isOriginal, rfl⟩ := mem_relationSet_aggregateLocals.mp member
    exact ⟨original, isOriginal, Relation.generalizeLocals_generalizeLocals.symm⟩
  · rintro ⟨original, isOriginal, rfl⟩
    have informs : original.generalizeLocals.isNoise = false :=
      Relation.isNoise_generalizeLocals.trans (informative.informs original isOriginal)
    exact ⟨original.generalizeLocals, mem_relationSet_aggregateLocals.mpr
      ⟨Relation.source_ne_target informs, original, isOriginal, rfl⟩, Relation.generalizeLocals_generalizeLocals⟩

theorem diff_singleLocal_aggregateLocals (firstInformative : first.Informative) (secondInformative : second.Informative) :
    diff .singleLocal first.aggregateLocals second.aggregateLocals = diff .singleLocal first second := by
  simp only [diff, schemaVersion_aggregateLocals, RelationSet.flagged, RelationSet.singleLocal,
    map_generalizeLocals_aggregateLocals firstInformative, map_generalizeLocals_aggregateLocals secondInformative]

end Aggregation

end RelationMap

namespace VersionAnalysis
variable {options : AnalysisOptions} {graph : ObjectGraph} {metadata : Metadata} {analysis : VersionAnalysis}

theorem extract_of_run (ran : run options graph metadata = .ok analysis) :
    graph.extract metadata.exportedObjects = .ok analysis.flow ∧ analysis.relations =
      options.merge (relationsOf analysis.flow options.builtinsDirectory metadata.lifecycleScripts) := by
  unfold run at ran
  cases extracted : graph.extract metadata.exportedObjects with
  | error error =>
    rw [extracted] at ran
    cases ran
  | ok flow =>
    rw [extracted] at ran
    cases ran
    exact ⟨rfl, rfl⟩

theorem informative_of_run (ran : run options graph metadata = .ok analysis) : analysis.relations.Informative := by
  obtain ⟨-, same⟩ := extract_of_run ran
  rw [same]
  exact informative_merge_relationsOf options

theorem schemaVersion_of_run (ran : run options graph metadata = .ok analysis) :
    analysis.relations.schemaVersion = RelationMap.currentSchema := by
  obtain ⟨-, same⟩ := extract_of_run ran
  rw [same]
  exact schemaVersion_merge_relationsOf

theorem run_aggregateLocals_of_consolidate (directory : Option String) :
    run ⟨directory, true, true⟩ graph metadata = run ⟨directory, true, false⟩ graph metadata := by
  have same : ∀ map : RelationMap, AnalysisOptions.merge ⟨directory, true, true⟩ map =
      AnalysisOptions.merge ⟨directory, true, false⟩ map := fun _ => RelationMap.aggregateLocals_consolidate
  simp only [run, same]

end VersionAnalysis

/-- Consolidation absorbs a consolidation before it, leaving out noise before it, and that all local domains become one
before or after it. It loses no witness: a relation that says something has exactly the witnesses of all relations that
were merged into it, and is there if they have any. So where domains are consolidated, it does not matter whether all
local domains become one. -/
theorem consolidation_absorbs :
    (∀ map : RelationMap, map.consolidate.consolidate = map.consolidate ∧
      map.withoutNoise.consolidate = map.consolidate ∧ map.aggregateLocals.consolidate = map.consolidate ∧
      map.consolidate.aggregateLocals = map.consolidate ∧
      ∀ relation witnesses, map.consolidate.get? relation = some witnesses ↔
        relation.isNoise = false ∧ (∃ witness, witness ∈ witnesses) ∧ ∀ witness, witness ∈ witnesses ↔
          ∃ original known, map.get? original = some known ∧ original.consolidated = relation ∧ witness ∈ known) ∧
    ∀ directory graph metadata, VersionAnalysis.run ⟨directory, true, true⟩ graph metadata =
      VersionAnalysis.run ⟨directory, true, false⟩ graph metadata := by
  constructor
  · intro map
    refine ⟨RelationMap.consolidate_consolidate, RelationMap.consolidate_withoutNoise,
      RelationMap.consolidate_aggregateLocals, RelationMap.aggregateLocals_consolidate, ?_⟩
    exact fun relation witnesses => RelationMap.get?_consolidate_eq_some_iff
  · intro directory graph metadata
    exact VersionAnalysis.run_aggregateLocals_of_consolidate directory

theorem consolidation_absorbs_connecting :
    let map := RelationMap.ofWitnesses [(⟨":local:a", "net.connect"⟩, ⟨[1], [2]⟩), (⟨":local:b.c", "net"⟩, ⟨[3], [4]⟩)]
    map.consolidate.get? ⟨":local", "net"⟩ = some (.ofList [⟨[1], [2]⟩, ⟨[3], [4]⟩]) ∧
    (∃ original known, map.get? original = some known ∧ original.consolidated = ⟨":local", "net"⟩ ∧ ⟨[3], [4]⟩ ∈ known) ∧
    map.aggregateLocals.consolidate = map.consolidate := by
  intro map
  have found : map.consolidate.get? ⟨":local", "net"⟩ = some (.ofList [⟨[1], [2]⟩, ⟨[3], [4]⟩]) := by decide
  obtain ⟨-, -, aggregated, -, union⟩ := consolidation_absorbs.1 map
  exact ⟨found, ((union _ _).mp found).2.2 ⟨[3], [4]⟩ |>.mp (by decide), aggregated⟩

/-- Whether a relation is noise can be told after all local domains have become one, so leaving out noise and making all
local domains one commute, witnesses included. The policy that takes all local domains for one finds the same between
two versions and between their maps in which they have become one. -/
theorem aggregation_commutes :
    (∀ relation : Relation, relation.isNoise = true ↔ relation.generalizeLocals.isNoise = true) ∧
    (∀ map : RelationMap, map.withoutNoise.aggregateLocals = map.aggregateLocals.withoutNoise) ∧
    ∀ beforeOptions afterOptions beforeGraph afterGraph beforeMetadata afterMetadata before after,
      VersionAnalysis.run beforeOptions beforeGraph beforeMetadata = .ok before →
      VersionAnalysis.run afterOptions afterGraph afterMetadata = .ok after →
      ∃ found, RelationMap.diff .singleLocal before.relations after.relations = .ok found ∧
        RelationMap.diff .singleLocal before.relations.aggregateLocals after.relations.aggregateLocals = .ok found := by
  refine ⟨fun relation => ?_, fun map => RelationMap.aggregateLocals_withoutNoise, ?_⟩
  · rw [Relation.isNoise_generalizeLocals]
  · intro beforeOptions afterOptions beforeGraph afterGraph beforeMetadata afterMetadata before after ranBefore ranAfter
    have sameSchema : before.relations.schemaVersion = after.relations.schemaVersion := by
      rw [VersionAnalysis.schemaVersion_of_run ranBefore, VersionAnalysis.schemaVersion_of_run ranAfter]
    refine ⟨_, if_pos sameSchema, ?_⟩
    rw [RelationMap.diff_singleLocal_aggregateLocals (VersionAnalysis.informative_of_run ranBefore)
      (VersionAnalysis.informative_of_run ranAfter)]
    exact if_pos sameSchema

theorem aggregation_commutes_leaking : ∃ before after,
    VersionAnalysis.run ⟨none, false, false⟩ ObjectGraph.leakingGraph ⟨[12], none⟩ = .ok before ∧
    VersionAnalysis.run ⟨none, false, false⟩ ObjectGraph.leakingGraph ⟨[12], some ⟨none, some "make", none⟩⟩ = .ok after ∧
    ∃ found, RelationMap.diff .singleLocal before.relations after.relations = .ok found ∧
      RelationMap.diff .singleLocal before.relations.aggregateLocals after.relations.aggregateLocals = .ok found := by
  have accepted : ObjectGraph.leakingGraph.seeds [12] = .ok ⟨[], [12], [10]⟩ := rfl
  have ranBefore : VersionAnalysis.run ⟨none, false, false⟩ ObjectGraph.leakingGraph ⟨[12], none⟩ = .ok _ :=
    VersionAnalysis.run_eq_ok_of_seeds accepted
  have ranAfter : VersionAnalysis.run ⟨none, false, false⟩ ObjectGraph.leakingGraph
      ⟨[12], some ⟨none, some "make", none⟩⟩ = .ok _ := VersionAnalysis.run_eq_ok_of_seeds accepted
  exact ⟨_, _, ranBefore, ranAfter, aggregation_commutes.2.2 _ _ _ _ _ _ _ _ ranBefore ranAfter⟩

end DomainFlow
