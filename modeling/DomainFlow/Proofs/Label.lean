import DomainFlow.Relation.Basic

/-!
How labels of domains behave when they are made coarser. All local domains start alike and nothing else
starts like them, so whether a relation is noise can be told after all local domains have become one. The
dot that ends a coarser label does not occur in the labels that the rules of noise name, so a relation
that is noise stays noise.
-/
namespace DomainFlow

theorem Text.startsWith_iff {text start : String} :
    Text.startsWith text start = true ↔ start.toList <+: text.toList := by
  rw [Text.startsWith, List.isPrefixOf_iff_prefix]

namespace Domain
variable {domain first second : Domain}

theorem isLocal_of_startsWith (starts : Text.startsWith first second = true) (startLocal : isLocal second = true) :
    isLocal first = true :=
  Text.startsWith_iff.mpr ((Text.startsWith_iff.mp startLocal).trans (Text.startsWith_iff.mp starts))

theorem generalizeLocal_of_isLocal (isLocal : isLocal domain = true) : generalizeLocal domain = localCode :=
  if_pos isLocal

theorem generalizeLocal_of_not_isLocal (foreign : isLocal domain = false) : generalizeLocal domain = domain := by
  rw [generalizeLocal, foreign]
  rfl

@[simp] theorem isLocal_generalizeLocal : isLocal (generalizeLocal domain) = isLocal domain := by
  cases own : isLocal domain with
  | true =>
    rw [generalizeLocal_of_isLocal own]
    decide
  | false => rw [generalizeLocal_of_not_isLocal own, own]

/-- Two domains become the same exactly if they are the same or both local. -/
theorem generalizeLocal_eq_iff : generalizeLocal first = generalizeLocal second ↔
    first = second ∨ isLocal first = true ∧ isLocal second = true := by
  constructor
  · intro same
    have sameKind : isLocal first = isLocal second := by
      rw [← isLocal_generalizeLocal, same, isLocal_generalizeLocal]
    cases own : isLocal first with
    | true => exact .inr ⟨rfl, sameKind ▸ own⟩
    | false =>
      rw [generalizeLocal_of_not_isLocal own, generalizeLocal_of_not_isLocal (sameKind ▸ own)] at same
      exact .inl same
  · intro alike
    rcases alike with same | ⟨firstLocal, secondLocal⟩
    · rw [same]
    · rw [generalizeLocal_of_isLocal firstLocal, generalizeLocal_of_isLocal secondLocal]

theorem generalizeLocal_generalizeLocal : generalizeLocal (generalizeLocal domain) = generalizeLocal domain := by
  cases own : isLocal domain with
  | true =>
    rw [generalizeLocal_of_isLocal own]
    decide
  | false => rw [generalizeLocal_of_not_isLocal own, generalizeLocal_of_not_isLocal own]

theorem generalizeLocal_generalizeNew : generalizeLocal (generalizeNew domain) = generalizeLocal domain := by
  cases own : isLocal domain with
  | true =>
    rw [generalizeNew, if_pos own, generalizeLocal_of_isLocal own]
    decide
  | false => rw [generalizeNew, if_neg (by simp [own])]

/-- A domain that is not local starts every local domain or none. -/
theorem startsWith_of_isLocal (firstLocal : isLocal first = true) (foreign : isLocal second = false) :
    Text.startsWith first second = Text.startsWith localCode second := by
  rw [Bool.eq_iff_iff, Text.startsWith_iff, Text.startsWith_iff]
  constructor
  · intro starts
    rcases List.prefix_or_prefix_of_prefix starts (Text.startsWith_iff.mp firstLocal) with shorter | longer
    · exact shorter
    · have secondLocal : isLocal second = true := Text.startsWith_iff.mpr longer
      rw [foreign] at secondLocal
      cases secondLocal
  · intro starts
    exact starts.trans (Text.startsWith_iff.mp firstLocal)

section Consolidation

theorem toList_consolidate : (consolidate domain).toList = domain.toList.takeWhile fun char => char != '.' :=
  String.toList_ofList

/-- A text without dots starts a domain exactly if it starts what is left of it. -/
theorem startsWith_consolidate_iff {start : String} (noDot : (start.toList.all fun char => char != '.') = true) :
    Text.startsWith (consolidate domain) start = Text.startsWith domain start := by
  rw [Bool.eq_iff_iff, Text.startsWith_iff, Text.startsWith_iff, toList_consolidate]
  constructor
  · intro starts
    exact starts.trans (List.takeWhile_prefix _)
  · intro starts
    obtain ⟨rest, whole⟩ := starts
    rw [← whole, List.takeWhile_append_of_pos (List.all_eq_true.mp noDot)]
    exact List.prefix_append _ _

@[simp] theorem isLocal_consolidate : isLocal (consolidate domain) = isLocal domain :=
  startsWith_consolidate_iff (by decide)

theorem startsWith_consolidate (starts : Text.startsWith first second = true) :
    Text.startsWith (consolidate first) (consolidate second) = true := by
  rw [Text.startsWith_iff] at starts ⊢
  rw [toList_consolidate, toList_consolidate]
  obtain ⟨rest, whole⟩ := starts
  rw [← whole, List.takeWhile_append]
  split
  · exact (List.takeWhile_prefix _).trans (List.prefix_append _ _)
  · exact List.prefix_rfl

/-- The names of properties behind a domain are cut off again. -/
theorem consolidate_intercalate {names : List String} :
    consolidate (".".intercalate (domain :: names)) = consolidate domain := by
  cases names with
  | nil => rw [String.intercalate_singleton]
  | cons name rest =>
    have stops : ((".".intercalate (domain :: name :: rest)).toList.takeWhile fun char => char != '.') =
        domain.toList.takeWhile fun char => char != '.' := by
      rw [String.intercalate_cons_cons, String.toList_append, String.toList_append, List.append_assoc,
        List.takeWhile_append]
      split
      next whole =>
        have behind : ((".".toList ++ (".".intercalate (name :: rest)).toList).takeWhile fun char => char != '.') = [] :=
          List.takeWhile_cons_of_neg (by decide)
        rw [behind, List.append_nil]
        exact ((List.takeWhile_prefix _).eq_of_length whole).symm
      next cut => rfl
    rw [consolidate, stops, consolidate]

theorem generalizeLocal_consolidate_generalizeLocal :
    generalizeLocal (consolidate (generalizeLocal domain)) = generalizeLocal (consolidate domain) := by
  rw [generalizeLocal_eq_iff]
  cases own : isLocal domain with
  | true => exact .inr ⟨by simp [own], by simp [own]⟩
  | false => exact .inl (by rw [generalizeLocal_of_not_isLocal own])

end Consolidation

end Domain

namespace Relation
variable {relation : Relation}

theorem isNoise_iff : relation.isNoise = true ↔ relation.source = relation.target ∨
    (Domain.isLocal relation.source = true ∧ Domain.isLocal relation.target = true) ∨
    (Text.startsWith relation.source Domain.caller = true ∧ Domain.isLocal relation.target = true) ∨
    Text.startsWith relation.source relation.target = true ∨ Text.startsWith relation.target relation.source = true := by
  simp only [isNoise, Bool.or_eq_true, Bool.and_eq_true, beq_iff_eq, or_assoc]

section Mixed
variable {own foreign : Domain}

theorem not_startsWith_of_isLocal (ownLocal : Domain.isLocal own = true) (notLocal : Domain.isLocal foreign = false) :
    Text.startsWith foreign own = false := by
  rw [← Bool.not_eq_true]
  intro starts
  rw [Domain.isLocal_of_startsWith starts ownLocal] at notLocal
  cases notLocal

theorem ne_of_isLocal (ownLocal : Domain.isLocal own = true) (notLocal : Domain.isLocal foreign = false) :
    own ≠ foreign := by
  intro same
  rw [same, notLocal] at ownLocal
  cases ownLocal

/-- From a local domain to another one, the label of the local one does not matter. -/
theorem isNoise_from_isLocal (ownLocal : Domain.isLocal own = true) (notLocal : Domain.isLocal foreign = false) :
    isNoise ⟨own, foreign⟩ = Text.startsWith Domain.localCode foreign := by
  simp only [isNoise, beq_eq_false_iff_ne.mpr (ne_of_isLocal ownLocal notLocal), notLocal, Bool.and_false,
    not_startsWith_of_isLocal ownLocal notLocal, Bool.or_false, Bool.false_or,
    Domain.startsWith_of_isLocal ownLocal notLocal]

theorem isNoise_to_isLocal (ownLocal : Domain.isLocal own = true) (notLocal : Domain.isLocal foreign = false) :
    isNoise ⟨foreign, own⟩ =
      (Text.startsWith foreign Domain.caller || Text.startsWith Domain.localCode foreign) := by
  simp only [isNoise, beq_eq_false_iff_ne.mpr (ne_of_isLocal ownLocal notLocal).symm, notLocal, ownLocal,
    Bool.and_true, not_startsWith_of_isLocal ownLocal notLocal, Bool.or_false, Bool.false_or,
    Domain.startsWith_of_isLocal ownLocal notLocal]

end Mixed

/-- Whether a relation is noise can be told after all local domains have become one. -/
theorem isNoise_generalizeLocals : relation.generalizeLocals.isNoise = relation.isNoise := by
  obtain ⟨source, target⟩ := relation
  have oneLocal : Domain.isLocal Domain.localCode = true := by decide
  unfold generalizeLocals map
  cases sourceLocal : Domain.isLocal source with
  | true =>
    cases targetLocal : Domain.isLocal target with
    | true => simp [isNoise, sourceLocal, targetLocal]
    | false =>
      rw [Domain.generalizeLocal_of_isLocal sourceLocal, Domain.generalizeLocal_of_not_isLocal targetLocal,
        isNoise_from_isLocal oneLocal targetLocal, isNoise_from_isLocal sourceLocal targetLocal]
  | false =>
    cases targetLocal : Domain.isLocal target with
    | true =>
      rw [Domain.generalizeLocal_of_not_isLocal sourceLocal, Domain.generalizeLocal_of_isLocal targetLocal,
        isNoise_to_isLocal oneLocal sourceLocal, isNoise_to_isLocal targetLocal sourceLocal]
    | false =>
      rw [Domain.generalizeLocal_of_not_isLocal sourceLocal, Domain.generalizeLocal_of_not_isLocal targetLocal]

/-- A relation that is noise stays noise when properties belong to the object that has them. -/
theorem isNoise_consolidated (noise : relation.isNoise = true) : relation.consolidated.isNoise = true := by
  have coarser : (relation.map Domain.consolidate).isNoise = true := by
    rw [isNoise_iff] at noise ⊢
    rcases noise with same | ⟨sourceLocal, targetLocal⟩ | ⟨called, targetLocal⟩ | starts | starts
    · exact .inl (congrArg Domain.consolidate same)
    · exact .inr (.inl ⟨Domain.isLocal_consolidate.trans sourceLocal, Domain.isLocal_consolidate.trans targetLocal⟩)
    · have noDot : (Domain.caller.toList.all fun char => char != '.') = true := by decide
      exact .inr (.inr (.inl ⟨(Domain.startsWith_consolidate_iff noDot).trans called,
        Domain.isLocal_consolidate.trans targetLocal⟩))
    · exact .inr (.inr (.inr (.inl (Domain.startsWith_consolidate starts))))
    · exact .inr (.inr (.inr (.inr (Domain.startsWith_consolidate starts))))
  calc
    relation.consolidated.isNoise = (relation.map Domain.consolidate).generalizeLocals.isNoise := by
      simp only [consolidated, generalizeLocals, map]
    _ = (relation.map Domain.consolidate).isNoise := isNoise_generalizeLocals
    _ = true := coarser

theorem consolidated_generalizeLocals : relation.generalizeLocals.consolidated = relation.consolidated := by
  simp only [consolidated, generalizeLocals, map, Domain.generalizeLocal_consolidate_generalizeLocal]

@[simp] theorem generalizeLocals_generalizeLocals :
    relation.generalizeLocals.generalizeLocals = relation.generalizeLocals := by
  simp only [generalizeLocals, map, Domain.generalizeLocal_generalizeLocal]

theorem generalizeLocals_consolidated : relation.consolidated.generalizeLocals = relation.consolidated := by
  simp only [consolidated, generalizeLocals, map, Domain.generalizeLocal_generalizeLocal]

@[simp] theorem generalizeLocals_generalizeNew : relation.generalizeNew.generalizeLocals = relation.generalizeLocals := by
  simp only [generalizeLocals, generalizeNew, map, Domain.generalizeLocal_generalizeNew]

end Relation

end DomainFlow
