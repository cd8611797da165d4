import DomainFlow.Proofs.Label
import DomainFlow.Relation.Diff

/-!
What the three policies find between two sets of relations. Each policy finds no more than the one before
it, up to the names of local domains, and they agree on relations that have no local end. To know more of the
earlier version never adds a finding, and relations added to the later one never remove any. The labels for
new local code and for all local code may themselves be domains of a version: a package with the text `new`
has the first one. Where they are, the policy that looks for new local code can miss some, and it is stated
exactly where.
-/
namespace DomainFlow

namespace SortedSet
variable {α β : Type} [Ord α] [Ord β] [Std.TransOrd β] [Std.LawfulEqOrd β] {first second : SortedSet α} {image : α → β}

instance : HasSubset (SortedSet α) := ⟨fun first second => ∀ ⦃value⦄, value ∈ first → value ∈ second⟩

theorem map_subset_map (inside : first ⊆ second) : first.map image ⊆ second.map image := by
  intro value member
  obtain ⟨original, isOriginal, rfl⟩ := mem_map.mp member
  exact mem_map.mpr ⟨original, inside isOriginal, rfl⟩

theorem eq_empty_of_subset_map {images : SortedSet β} (inside : images ⊆ first.map image) (nothing : first = .empty) :
    images = .empty := by
  apply ext_mem
  intro value
  refine iff_of_false (fun member => ?_) not_mem_empty
  obtain ⟨original, isOriginal, -⟩ := mem_map.mp (inside member)
  rw [nothing] at isOriginal
  exact not_mem_empty isOriginal

end SortedSet

namespace Domain
variable {known : List Domain} {domain : Domain}

/-- A domain, where the known ones among the local domains have become one. -/
def settle (known : List Domain) (domain : Domain) : Domain :=
  if known.contains domain then domain.generalizeLocal else domain

theorem generalizeLocal_settle : generalizeLocal (settle known domain) = generalizeLocal domain := by
  unfold settle
  split
  · exact generalizeLocal_generalizeLocal
  · rfl

theorem settle_eq_generalizeLocal_iff : settle known domain = generalizeLocal domain ↔
    (isLocal domain = true → domain = localCode ∨ domain ∈ known) := by
  unfold settle
  split
  next isKnown => exact iff_of_true rfl fun _ => .inr (List.contains_iff_mem.mp isKnown)
  next unknown =>
    have absent : domain ∉ known := fun member => unknown (List.contains_iff_mem.mpr member)
    cases own : isLocal domain with
    | true => simp [generalizeLocal_of_isLocal own, absent]
    | false => simp [generalizeLocal_of_not_isLocal own]

end Domain

namespace Relation
variable {relation other : Relation} {domain : Domain}

def ends (relation : Relation) : List Domain := [relation.source, relation.target]

theorem mem_ends : domain ∈ relation.ends ↔ domain = relation.source ∨ domain = relation.target := by
  simp [ends]

def hasLocalEnd (relation : Relation) : Bool := relation.source.isLocal || relation.target.isLocal

theorem hasLocalEnd_eq_false_iff : relation.hasLocalEnd = false ↔
    relation.source.isLocal = false ∧ relation.target.isLocal = false := Bool.or_eq_false_iff

theorem hasLocalEnd_of_mem_ends (isEnd : domain ∈ relation.ends) (own : domain.isLocal = true) :
    relation.hasLocalEnd = true := by
  rw [hasLocalEnd, Bool.or_eq_true]
  rcases mem_ends.mp isEnd with rfl | rfl
  · exact .inl own
  · exact .inr own

@[simp] theorem hasLocalEnd_generalizeLocals : relation.generalizeLocals.hasLocalEnd = relation.hasLocalEnd := by
  simp only [hasLocalEnd, generalizeLocals, map, Domain.isLocal_generalizeLocal]

theorem hasLocalEnd_eq_of_generalizeLocals_eq (same : relation.generalizeLocals = other.generalizeLocals) :
    relation.hasLocalEnd = other.hasLocalEnd := by
  rw [← hasLocalEnd_generalizeLocals, same, hasLocalEnd_generalizeLocals]

theorem generalizeLocals_eq_of_generalizeNew_eq (same : relation.generalizeNew = other.generalizeNew) :
    relation.generalizeLocals = other.generalizeLocals := by
  rw [← generalizeLocals_generalizeNew, same, generalizeLocals_generalizeNew]

section Foreign
variable (foreign : relation.hasLocalEnd = false)
include foreign

theorem generalizeLocals_eq_self : relation.generalizeLocals = relation := by
  obtain ⟨source, target⟩ := hasLocalEnd_eq_false_iff.mp foreign
  rw [generalizeLocals, map, Domain.generalizeLocal_of_not_isLocal source, Domain.generalizeLocal_of_not_isLocal target]

/-- Only a relation without local ends becomes one when all local domains become one. -/
theorem generalizeLocals_eq_iff : other.generalizeLocals = relation ↔ other = relation := by
  constructor
  · intro same
    have foreignToo : other.hasLocalEnd = false := by
      rw [← hasLocalEnd_generalizeLocals, same, foreign]
    rw [← same, generalizeLocals_eq_self foreignToo]
  · rintro rfl
    exact generalizeLocals_eq_self foreign

theorem generalizeNew_eq_iff : other.generalizeNew = relation ↔ other = relation := by
  constructor
  · intro same
    rw [← generalizeLocals_eq_iff foreign, ← generalizeLocals_generalizeNew, same, generalizeLocals_eq_self foreign]
  · rintro rfl
    obtain ⟨source, target⟩ := hasLocalEnd_eq_false_iff.mp foreign
    simp only [generalizeNew, map, Domain.generalizeNew, source, target, Bool.false_eq_true, if_false]

end Foreign

theorem generalizeLocals_map_settle {known : List Domain} :
    (relation.map (Domain.settle known)).generalizeLocals = relation.generalizeLocals := by
  simp only [generalizeLocals, map, Domain.generalizeLocal_settle]

theorem map_settle_eq_generalizeLocals_iff {known : List Domain} :
    relation.map (Domain.settle known) = relation.generalizeLocals ↔
      ∀ domain ∈ relation.ends, domain.isLocal = true → domain = Domain.localCode ∨ domain ∈ known := by
  simp only [map, generalizeLocals, mk.injEq, Domain.settle_eq_generalizeLocal_iff, ends, List.forall_mem_cons,
    List.not_mem_nil, false_implies, implies_true, and_true]

end Relation

namespace DiffPolicy

/-- The form in which a policy shows a relation. -/
def shown : DiffPolicy → Relation → Relation
  | .broad => id
  | .newLocal => Relation.generalizeNew
  | .singleLocal => Relation.generalizeLocals

end DiffPolicy

namespace RelationSet
variable {before beforeMore after afterMore : RelationSet} {relation : Relation} {domain : Domain}

/-- Whether a domain is an end of some relation. -/
def Mentions (relations : RelationSet) (domain : Domain) : Prop := ∃ relation ∈ relations, domain ∈ relation.ends

instance (relations : RelationSet) (domain : Domain) : Decidable (relations.Mentions domain) :=
  inferInstanceAs (Decidable (∃ relation ∈ relations.toList, domain ∈ relation.ends))

theorem Mentions.mono (mentions : before.Mentions domain) (older : before ⊆ beforeMore) : beforeMore.Mentions domain := by
  obtain ⟨relation, member, isEnd⟩ := mentions
  exact ⟨relation, older member, isEnd⟩

section Membership

theorem mem_broad : relation ∈ broad before after ↔ relation ∈ after ∧ relation ∉ before := by
  rw [broad, SortedSet.mem_filter, decide_eq_true_iff]

theorem mem_localDomains : domain ∈ before.localDomains ↔ before.Mentions domain ∧ domain.isLocal = true := by
  rw [localDomains, List.mem_filter, List.mem_flatMap]
  rfl

theorem mem_localRelations : relation ∈ before.localRelations ↔
    ∃ known ∈ before, known.hasLocalEnd = true ∧ known.generalizeLocals = relation := by
  simp only [localRelations, List.mem_map, List.mem_filter, and_assoc]
  rfl

/-- Local code that was there before explains a relation exactly if the relation has a local end, each such
end was there before or stands for all local code, and the relation was there before up to local domains. -/
theorem isExplained_iff : before.isExplained relation = true ↔ relation.hasLocalEnd = true ∧
    (∀ domain ∈ relation.ends, domain.isLocal = true → domain = Domain.localCode ∨ before.Mentions domain) ∧
      relation.generalizeLocals ∈ before.map Relation.generalizeLocals := by
  have settles : relation.map (Domain.settle before.localDomains) = relation.generalizeLocals ↔
      ∀ domain ∈ relation.ends, domain.isLocal = true → domain = Domain.localCode ∨ before.Mentions domain := by
    rw [Relation.map_settle_eq_generalizeLocals_iff]
    refine forall₂_congr fun domain _ => imp_congr_right fun own => ?_
    simp only [mem_localDomains, own, and_true]
  rw [← settles, SortedSet.mem_map]
  have looksUp : before.isExplained relation = true ↔
      relation.map (Domain.settle before.localDomains) ∈ before.localRelations := List.contains_iff_mem
  rw [looksUp, mem_localRelations]
  constructor
  · intro explained
    -- The relation that was found has no local end but the one for all local code, so nothing was left unsettled.
    obtain ⟨known, member, hasLocal, same⟩ := explained
    have alike : known.generalizeLocals = relation.generalizeLocals := by
      rw [← Relation.generalizeLocals_generalizeLocals, same, Relation.generalizeLocals_map_settle]
    exact ⟨Relation.hasLocalEnd_eq_of_generalizeLocals_eq alike ▸ hasLocal, same.symm.trans alike, known, member, alike⟩
  · intro conditions
    obtain ⟨hasLocal, settled, known, member, alike⟩ := conditions
    exact ⟨known, member, Relation.hasLocalEnd_eq_of_generalizeLocals_eq alike ▸ hasLocal, alike.trans settled.symm⟩

theorem mem_newLocal : relation ∈ newLocal before after ↔ relation ∉ before ∧
    ∃ original ∈ after, original.generalizeNew = relation ∧ original ∉ before ∧ before.isExplained original = false := by
  simp only [newLocal, SortedSet.mem_filter, SortedSet.mem_map, decide_eq_true_iff, Bool.and_eq_true,
    Bool.not_eq_true']
  constructor
  · intro found
    obtain ⟨⟨original, ⟨member, isNew, unexplained⟩, same⟩, unknown⟩ := found
    exact ⟨unknown, original, member, same, isNew, unexplained⟩
  · intro found
    obtain ⟨unknown, original, member, same, isNew, unexplained⟩ := found
    exact ⟨⟨original, ⟨member, isNew, unexplained⟩, same⟩, unknown⟩

theorem mem_singleLocal : relation ∈ singleLocal before after ↔ isInternal relation = false ∧
    relation ∈ after.map Relation.generalizeLocals ∧ relation ∉ before.map Relation.generalizeLocals := by
  rw [singleLocal, withoutInternal, SortedSet.mem_filter, mem_broad, and_comm, Bool.not_eq_true']

end Membership

section Precision

theorem generalizeNew_mem_newLocal (member : relation ∈ after)
    (isNew : relation.generalizeLocals ∉ before.map Relation.generalizeLocals) :
    relation.generalizeNew ∈ newLocal before after := by
  rw [mem_newLocal]
  refine ⟨fun known => ?_, relation, member, rfl, fun known => ?_, ?_⟩
  · exact isNew (SortedSet.mem_map.mpr ⟨_, known, Relation.generalizeLocals_generalizeNew⟩)
  · exact isNew (SortedSet.mem_map.mpr ⟨_, known, rfl⟩)
  · rw [← Bool.not_eq_true, isExplained_iff]
    exact fun explained => isNew explained.2.2

/-- Every policy finds a relation that is new up to local domains, unless it is internal to the package. -/
theorem shown_mem_flagged (policy : DiffPolicy) (member : relation ∈ after)
    (isNew : relation.generalizeLocals ∉ before.map Relation.generalizeLocals)
    (external : isInternal relation.generalizeLocals = false) : policy.shown relation ∈ flagged policy before after := by
  cases policy with
  | broad => exact mem_broad.mpr ⟨member, fun known => isNew (SortedSet.mem_map.mpr ⟨relation, known, rfl⟩)⟩
  | newLocal => exact generalizeNew_mem_newLocal member isNew
  | singleLocal => exact mem_singleLocal.mpr ⟨external, SortedSet.mem_map.mpr ⟨relation, member, rfl⟩, isNew⟩

theorem singleLocal_subset_newLocal :
    singleLocal before after ⊆ (newLocal before after).map Relation.generalizeLocals := by
  intro relation found
  obtain ⟨-, present, isNew⟩ := mem_singleLocal.mp found
  obtain ⟨original, member, rfl⟩ := SortedSet.mem_map.mp present
  exact SortedSet.mem_map.mpr
    ⟨original.generalizeNew, generalizeNew_mem_newLocal member isNew, Relation.generalizeLocals_generalizeNew⟩

theorem newLocal_subset_broad : newLocal before after ⊆ (broad before after).map Relation.generalizeNew := by
  intro relation found
  obtain ⟨-, original, member, same, isNew, -⟩ := mem_newLocal.mp found
  exact SortedSet.mem_map.mpr ⟨original, mem_broad.mpr ⟨member, isNew⟩, same⟩

/-- Each policy finds no more than the one before it, up to the names of local domains. So where a policy
finds nothing, neither do those after it. -/
theorem policies_refine (before after : RelationSet) :
    singleLocal before after ⊆ (newLocal before after).map Relation.generalizeLocals ∧
    newLocal before after ⊆ (broad before after).map Relation.generalizeNew ∧
    (broad before after = .empty → newLocal before after = .empty) ∧
    (newLocal before after = .empty → singleLocal before after = .empty) :=
  ⟨singleLocal_subset_newLocal, newLocal_subset_broad, SortedSet.eq_empty_of_subset_map newLocal_subset_broad,
    SortedSet.eq_empty_of_subset_map singleLocal_subset_newLocal⟩

theorem policies_refine_files :
    ⟨":local", "fs"⟩ ∈ singleLocal (.ofList [⟨":local:a", "net"⟩]) (.ofList [⟨":local:z", "fs"⟩]) ∧
    ∃ finer ∈ newLocal (.ofList [⟨":local:a", "net"⟩]) (.ofList [⟨":local:z", "fs"⟩]),
      finer.generalizeLocals = ⟨":local", "fs"⟩ := by
  have found : ⟨":local", "fs"⟩ ∈ singleLocal (.ofList [⟨":local:a", "net"⟩]) (.ofList [⟨":local:z", "fs"⟩]) := by decide
  exact ⟨found, SortedSet.mem_map.mp ((policies_refine _ _).1 found)⟩

end Precision

section Foreign
variable (foreign : relation.hasLocalEnd = false)
include foreign

theorem mem_newLocal_of_foreign : relation ∈ newLocal before after ↔ relation ∈ after ∧ relation ∉ before := by
  have unexplained : before.isExplained relation = false := by
    rw [← Bool.not_eq_true, isExplained_iff, foreign]
    exact fun explained => Bool.false_ne_true explained.1
  simp only [mem_newLocal, Relation.generalizeNew_eq_iff foreign]
  constructor
  · intro found
    obtain ⟨unknown, original, member, rfl, -, -⟩ := found
    exact ⟨member, unknown⟩
  · intro isNew
    exact ⟨isNew.2, relation, isNew.1, rfl, isNew.2, unexplained⟩

theorem mem_map_generalizeLocals : relation ∈ before.map Relation.generalizeLocals ↔ relation ∈ before := by
  simp only [SortedSet.mem_map, Relation.generalizeLocals_eq_iff foreign, exists_eq_right]

theorem mem_singleLocal_of_foreign : relation ∈ singleLocal before after ↔ relation ∈ after ∧ relation ∉ before := by
  have external : isInternal relation = false := by
    obtain ⟨source, target⟩ := Relation.hasLocalEnd_eq_false_iff.mp foreign
    simp only [isInternal, source, target, Bool.false_and, Bool.or_false]
  rw [mem_singleLocal, mem_map_generalizeLocals foreign, mem_map_generalizeLocals foreign]
  exact and_iff_right external

end Foreign

/-- The policies differ in local domains only: a relation that has none is found by each of them exactly if it
was not there before. -/
theorem policies_agree (before after : RelationSet) (relation : Relation) (sourceForeign : relation.source.isLocal = false)
    (targetForeign : relation.target.isLocal = false) :
    (relation ∈ broad before after ↔ relation ∈ newLocal before after) ∧
    (relation ∈ newLocal before after ↔ relation ∈ singleLocal before after) ∧
    (relation ∈ singleLocal before after ↔ relation ∈ after ∧ relation ∉ before) := by
  have foreign : relation.hasLocalEnd = false := Relation.hasLocalEnd_eq_false_iff.mpr ⟨sourceForeign, targetForeign⟩
  refine ⟨?_, ?_, mem_singleLocal_of_foreign foreign⟩
  · rw [mem_broad, mem_newLocal_of_foreign foreign]
  · rw [mem_newLocal_of_foreign foreign, mem_singleLocal_of_foreign foreign]

theorem policies_agree_files :
    Domain.isLocal ":caller" = false ∧ Domain.isLocal "net" = false ∧
    ⟨":caller", "net"⟩ ∈ broad (.ofList [⟨":local:a", "net"⟩]) (.ofList [⟨":local:b", "net"⟩, ⟨":caller", "net"⟩]) ∧
    ⟨":caller", "net"⟩ ∈ newLocal (.ofList [⟨":local:a", "net"⟩]) (.ofList [⟨":local:b", "net"⟩, ⟨":caller", "net"⟩]) ∧
    ⟨":caller", "net"⟩ ∈ singleLocal (.ofList [⟨":local:a", "net"⟩]) (.ofList [⟨":local:b", "net"⟩, ⟨":caller", "net"⟩]) := by
  have sourceForeign : Domain.isLocal ":caller" = false := by decide
  have targetForeign : Domain.isLocal "net" = false := by decide
  obtain ⟨asNewLocal, asSingleLocal, isNew⟩ := policies_agree (.ofList [⟨":local:a", "net"⟩])
    (.ofList [⟨":local:b", "net"⟩, ⟨":caller", "net"⟩]) ⟨":caller", "net"⟩ sourceForeign targetForeign
  have found := isNew.mpr ⟨by decide, by decide⟩
  exact ⟨sourceForeign, targetForeign, asNewLocal.mpr (asSingleLocal.mpr found), asSingleLocal.mpr found, found⟩

section Monotone

theorem isExplained_mono (older : before ⊆ beforeMore) (explained : before.isExplained relation = true) :
    beforeMore.isExplained relation = true := by
  rw [isExplained_iff] at explained ⊢
  obtain ⟨hasLocal, known, present⟩ := explained
  exact ⟨hasLocal, fun domain isEnd own => (known domain isEnd own).imp_right fun mentions => mentions.mono older,
    SortedSet.map_subset_map older present⟩

theorem broad_subset_broad (older : before ⊆ beforeMore) (newer : after ⊆ afterMore) :
    broad beforeMore after ⊆ broad before afterMore := by
  intro relation found
  obtain ⟨member, isNew⟩ := mem_broad.mp found
  exact mem_broad.mpr ⟨newer member, fun known => isNew (older known)⟩

theorem newLocal_subset_newLocal (older : before ⊆ beforeMore) (newer : after ⊆ afterMore) :
    newLocal beforeMore after ⊆ newLocal before afterMore := by
  intro relation found
  obtain ⟨unknown, original, member, same, isNew, unexplained⟩ := mem_newLocal.mp found
  refine mem_newLocal.mpr ⟨fun known => unknown (older known), original, newer member, same,
    fun known => isNew (older known), ?_⟩
  -- What explains a relation still does so when more is known.
  rw [← Bool.not_eq_true] at unexplained ⊢
  exact fun explained => unexplained (isExplained_mono older explained)

theorem singleLocal_subset_singleLocal (older : before ⊆ beforeMore) (newer : after ⊆ afterMore) :
    singleLocal beforeMore after ⊆ singleLocal before afterMore := by
  intro relation found
  obtain ⟨foreign, present, isNew⟩ := mem_singleLocal.mp found
  exact mem_singleLocal.mpr ⟨foreign, SortedSet.map_subset_map newer present,
    fun known => isNew (SortedSet.map_subset_map older known)⟩

theorem flagged_subset_flagged (policy : DiffPolicy) (older : before ⊆ beforeMore) (newer : after ⊆ afterMore) :
    flagged policy beforeMore after ⊆ flagged policy before afterMore := by
  cases policy with
  | broad => exact broad_subset_broad older newer
  | newLocal => exact newLocal_subset_newLocal older newer
  | singleLocal => exact singleLocal_subset_singleLocal older newer

/-- To know more of the earlier version never adds a finding, and to add relations to the later version
never removes one. -/
theorem flagged_monotone (policy : DiffPolicy) (older : before ⊆ beforeMore) (newer : after ⊆ afterMore) :
    flagged policy beforeMore after ⊆ flagged policy before after ∧
      flagged policy before after ⊆ flagged policy before afterMore :=
  ⟨flagged_subset_flagged policy older fun _ member => member,
    flagged_subset_flagged policy (fun _ member => member) newer⟩

theorem flagged_monotone_files :
    (.ofList [⟨":local:a", "net"⟩] : RelationSet) ⊆ .ofList [⟨":local:a", "net"⟩, ⟨":local:b", "fs"⟩] ∧
    (.ofList [⟨":local:b", "net"⟩] : RelationSet) ⊆ .ofList [⟨":local:b", "net"⟩, ⟨":caller", "fs"⟩] ∧
    flagged .newLocal (.ofList [⟨":local:a", "net"⟩, ⟨":local:b", "fs"⟩]) (.ofList [⟨":local:b", "net"⟩]) ⊆
      flagged .newLocal (.ofList [⟨":local:a", "net"⟩]) (.ofList [⟨":local:b", "net"⟩]) ∧
    ⟨":local:new", "net"⟩ ∈
      flagged .newLocal (.ofList [⟨":local:a", "net"⟩]) (.ofList [⟨":local:b", "net"⟩, ⟨":caller", "fs"⟩]) := by
  have older : (.ofList [⟨":local:a", "net"⟩] : RelationSet) ⊆ .ofList [⟨":local:a", "net"⟩, ⟨":local:b", "fs"⟩] :=
    fun _ member => SortedSet.mem_ofList.mpr (List.mem_append_left _ (SortedSet.mem_ofList.mp member))
  have newer : (.ofList [⟨":local:b", "net"⟩] : RelationSet) ⊆ .ofList [⟨":local:b", "net"⟩, ⟨":caller", "fs"⟩] :=
    fun _ member => SortedSet.mem_ofList.mpr (List.mem_append_left _ (SortedSet.mem_ofList.mp member))
  have found : ⟨":local:new", "net"⟩ ∈
      flagged .newLocal (.ofList [⟨":local:a", "net"⟩]) (.ofList [⟨":local:b", "net"⟩]) := by decide
  obtain ⟨fewer, more⟩ := flagged_monotone .newLocal older newer
  exact ⟨older, newer, fewer, more found⟩

end Monotone

section NewLocalCode

/-- A local domain that no relation of the earlier version has at an end. -/
def IsNewLocal (before : RelationSet) (domain : Domain) : Prop := domain.isLocal = true ∧ ¬before.Mentions domain

instance (before : RelationSet) (domain : Domain) : Decidable (before.IsNewLocal domain) :=
  inferInstanceAs (Decidable (_ ∧ _))

theorem not_mem_of_isNewLocal (isEnd : domain ∈ relation.ends) (isNew : before.IsNewLocal domain) : relation ∉ before :=
  fun member => isNew.2 ⟨relation, member, isEnd⟩

theorem isExplained_eq_false_iff (hasLocal : relation.hasLocalEnd = true) : before.isExplained relation = false ↔
    (∃ named ∈ relation.ends, named ≠ Domain.localCode ∧ before.IsNewLocal named) ∨
      relation.generalizeLocals ∉ before.map Relation.generalizeLocals := by
  rw [← Bool.not_eq_true, isExplained_iff]
  simp only [hasLocal, true_and, Classical.not_and_iff_not_or_not, Classical.not_forall, not_or, exists_prop, IsNewLocal]
  refine or_congr_left (exists_congr fun named => and_congr_right fun _ => ?_)
  exact and_left_comm

theorem generalizeNew_mem_newLocal_of_isNewLocal (member : relation ∈ after) (isEnd : domain ∈ relation.ends)
    (isNew : before.IsNewLocal domain) (named : domain ≠ Domain.localCode) (unknown : relation.generalizeNew ∉ before) :
    relation.generalizeNew ∈ newLocal before after := by
  have hasLocal := Relation.hasLocalEnd_of_mem_ends isEnd isNew.1
  exact mem_newLocal.mpr ⟨unknown, relation, member, rfl, not_mem_of_isNewLocal isEnd isNew,
    (isExplained_eq_false_iff hasLocal).mpr (.inl ⟨domain, isEnd, named, isNew⟩)⟩

/-- A relation with new local code is found exactly if the earlier version does not have it in the form in
which it is shown, and one of three holds: the new domain is not the one for all local code; another relation
that is shown in the same way has such a new domain; or the relation is new up to local domains. -/
theorem new_local_flagged_iff (member : relation ∈ after) (isEnd : domain ∈ relation.ends)
    (isNew : before.IsNewLocal domain) : relation.generalizeNew ∈ newLocal before after ↔
      relation.generalizeNew ∉ before ∧ (domain ≠ Domain.localCode ∨
        (∃ twin ∈ after, twin.generalizeNew = relation.generalizeNew ∧
          ∃ named ∈ twin.ends, named ≠ Domain.localCode ∧ before.IsNewLocal named) ∨
        relation.generalizeLocals ∉ before.map Relation.generalizeLocals) := by
  have hasLocal := Relation.hasLocalEnd_of_mem_ends isEnd isNew.1
  constructor
  · intro found
    obtain ⟨unknown, twin, isTwin, same, -, unexplained⟩ := mem_newLocal.mp found
    -- What was found may stem from another relation that is shown in the same way.
    have alike := Relation.generalizeLocals_eq_of_generalizeNew_eq same
    have hasLocalToo : twin.hasLocalEnd = true := Relation.hasLocalEnd_eq_of_generalizeLocals_eq alike ▸ hasLocal
    rcases (isExplained_eq_false_iff hasLocalToo).mp unexplained with named | isNewForm
    · exact ⟨unknown, .inr (.inl ⟨twin, isTwin, same, named⟩)⟩
    · exact ⟨unknown, .inr (.inr (alike ▸ isNewForm))⟩
  · intro conditions
    obtain ⟨unknown, named | ⟨twin, isTwin, same, named⟩ | isNewForm⟩ := conditions
    · exact generalizeNew_mem_newLocal_of_isNewLocal member isEnd isNew named unknown
    · obtain ⟨other, isOther, differs, isNewToo⟩ := named
      rw [← same] at unknown ⊢
      exact generalizeNew_mem_newLocal_of_isNewLocal isTwin isOther isNewToo differs unknown
    · exact generalizeNew_mem_newLocal member isNewForm

theorem new_local_flagged_iff_renamed :
    ⟨":local:z", "net"⟩ ∈ (.ofList [⟨":local:z", "net"⟩] : RelationSet) ∧
    IsNewLocal (.ofList [⟨":local:a", "net"⟩]) ":local:z" ∧
    ⟨":local:new", "net"⟩ ∈ newLocal (.ofList [⟨":local:a", "net"⟩]) (.ofList [⟨":local:z", "net"⟩]) := by
  have member : ⟨":local:z", "net"⟩ ∈ (.ofList [⟨":local:z", "net"⟩] : RelationSet) := by decide
  have isNew : IsNewLocal (.ofList [⟨":local:a", "net"⟩]) ":local:z" := by decide
  exact ⟨member, isNew, (new_local_flagged_iff member (Relation.mem_ends.mpr (.inl rfl)) isNew).mpr
    ⟨by decide, .inl (by decide)⟩⟩

/-- An earlier version with the text `new` hides new local code: its domain has the label for such code. -/
theorem new_local_hidden_by_text :
    ⟨":local:z", "net"⟩ ∈ (.ofList [⟨":local:z", "net"⟩] : RelationSet) ∧
    ":local:z" ∈ Relation.ends ⟨":local:z", "net"⟩ ∧ IsNewLocal (.ofList [⟨":local:new", "net"⟩]) ":local:z" ∧
    Relation.generalizeNew ⟨":local:z", "net"⟩ ∉
      newLocal (.ofList [⟨":local:new", "net"⟩]) (.ofList [⟨":local:z", "net"⟩]) := by
  decide

-- The domain for all local code is new here, and other local code of the earlier version hides it.
example : newLocal (.ofList [⟨":local:a", "net"⟩]) (.ofList [⟨":local", "net"⟩]) = .empty := by decide

end NewLocalCode

end RelationSet

theorem RelationMap.exists_diff_of_new (policy : DiffPolicy) {before after : RelationMap} {relation : Relation}
    (sameSchema : before.schemaVersion = after.schemaVersion) (member : relation ∈ after.relationSet)
    (isNew : relation.generalizeLocals ∉ before.relationSet.map Relation.generalizeLocals)
    (external : RelationSet.isInternal relation.generalizeLocals = false) :
    ∃ found, RelationMap.diff policy before after = .ok found ∧ policy.shown relation ∈ found :=
  ⟨_, if_pos sameSchema, RelationSet.shown_mem_flagged policy member isNew external⟩

end DomainFlow
