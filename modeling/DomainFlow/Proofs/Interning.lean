import Mathlib.Algebra.Group.Nat.Defs
import Mathlib.Data.Finset.Card
import DomainFlow.Domain.Assign
import DomainFlow.Proofs.SortedMap

/-!
What an interner holds after any calls: the domains that were called for, numbered in the order of their first calls. A call
never takes back what an earlier one gave. Up to 2 ^ 32 domains the two tables are inverse to each other; one domain more has to
share a number.
-/
namespace DomainFlow

namespace Interner
variable {interner before after : Interner} {domain other : Domain} {number : Nat} {calls done now : List Domain}

section Step

theorem get?_add : (interner.add domain).get? other =
    if other = domain then some (interner.size % 2 ^ 32) else interner.get? other := by
  rw [get?, add, SortedMap.get?_insert]
  split
  · exact congrArg some UInt32.toNat_ofNat'
  · rfl

theorem resolve?_add : (interner.add domain).resolve? number =
    if number = interner.size then some domain else interner.resolve? number := by
  have longer : (interner.add domain).resolve? number = (interner.names ++ [domain])[number]? := rfl
  rcases Nat.lt_trichotomy number interner.size with earlier | rfl | beyond
  · rw [longer, List.getElem?_append_left earlier, if_neg (Nat.ne_of_lt earlier), resolve?]
  · rw [longer, if_pos rfl]
    exact List.getElem?_concat_length
  · rw [longer, if_neg (Nat.ne_of_gt beyond), resolve?, List.getElem?_eq_none (Nat.le_of_lt beyond)]
    exact List.getElem?_eq_none (List.length_append.trans_le beyond)

theorem lt_size_of_resolve? (found : interner.resolve? number = some domain) : number < interner.size :=
  (List.getElem?_eq_some_iff.mp found).1

theorem resolve?_add_eq_some_iff : (interner.add domain).resolve? number = some other ↔
    interner.resolve? number = some other ∨ number = interner.size ∧ domain = other := by
  rw [resolve?_add]
  split
  next isLast =>
    subst isLast
    have absent : interner.resolve? interner.size ≠ some other := fun found => Nat.lt_irrefl _ (lt_size_of_resolve? found)
    simp [absent]
  next notLast => simp [notLast]

theorem intern_of_get? (known : interner.get? domain = some number) : interner.intern domain = (interner, number) := by
  simp only [intern, known]

theorem intern_of_unknown (unknown : interner.get? domain = none) :
    interner.intern domain = (interner.add domain, interner.size % 2 ^ 32) := by
  simp only [intern, unknown, Prod.mk.injEq, true_and]
  exact UInt32.toNat_ofNat'

/-- A call gives the number that is found afterwards. -/
theorem get?_intern : (interner.intern domain).1.get? domain = some (interner.intern domain).2 := by
  cases found : interner.get? domain with
  | some number =>
    rw [intern_of_get? found]
    exact found
  | none =>
    rw [intern_of_unknown found]
    exact get?_add.trans (if_pos rfl)

/-- What one interner gives, the other one gives too. -/
structure Extends (before after : Interner) : Prop where
  get? : ∀ domain number, before.get? domain = some number → after.get? domain = some number
  resolve? : ∀ number domain, before.resolve? number = some domain → after.resolve? number = some domain

theorem Extends.refl (interner : Interner) : interner.Extends interner := ⟨fun _ _ found => found, fun _ _ found => found⟩

theorem Extends.trans {last : Interner} (first : before.Extends after) (second : after.Extends last) : before.Extends last where
  get? domain number found := second.get? domain number (first.get? domain number found)
  resolve? number domain found := second.resolve? number domain (first.resolve? number domain found)

theorem extends_intern (interner : Interner) (domain : Domain) : interner.Extends (interner.intern domain).1 := by
  cases found : interner.get? domain with
  | some number =>
    rw [intern_of_get? found]
    exact .refl interner
  | none =>
    rw [intern_of_unknown found]
    constructor
    · intro other number known
      have different : other ≠ domain := fun same => by simp [same, found] at known
      rw [get?_add, if_neg different]
      exact known
    · intro number other known
      exact resolve?_add_eq_some_iff.mpr (.inl known)

end Step

section Run

theorem ofList_concat : ofList (calls ++ [domain]) = ((ofList calls).intern domain).1 := by
  rw [ofList, List.foldl_concat]
  rfl

theorem extends_ofList (calls rest : List Domain) : (ofList calls).Extends (ofList (calls ++ rest)) := by
  induction rest using List.reverseRecOn with
  | nil =>
    rw [List.append_nil]
    exact .refl _
  | append_singleton rest domain ih =>
    rw [← List.append_assoc, ofList_concat]
    exact ih.trans (extends_intern _ domain)

/-- The number that a call gives after some calls. -/
def answer (done : List Domain) (domain : Domain) : Nat := ((ofList done).intern domain).2

/-- What a call gave is found from then on. -/
theorem get?_ofList (made : done ++ [domain] <+: now) : (ofList now).get? domain = some (answer done domain) := by
  obtain ⟨rest, rfl⟩ := made
  refine (extends_ofList (done ++ [domain]) rest).get? domain _ ?_
  rw [ofList_concat]
  exact get?_intern

/-- What the tables hold after some calls. The domains that were called for are listed in the order of the first calls, and the
number of a domain is its place in the list, cut to 32 bits. -/
structure Reflects (calls : List Domain) (interner : Interner) : Prop where
  listed : ∀ domain, domain ∈ interner.names ↔ domain ∈ calls
  ordered : interner.names.Pairwise fun first second => calls.idxOf first < calls.idxOf second
  numbered : ∀ domain number, interner.get? domain = some number ↔
    ∃ place, interner.resolve? place = some domain ∧ place % 2 ^ 32 = number

theorem reflects_empty : Reflects [] empty where
  listed _ := Iff.rfl
  ordered := .nil
  numbered domain number := by simp [empty, get?, resolve?, SortedMap.get?, SortedMap.empty]

theorem Reflects.isSome_get?_iff (reflects : Reflects calls interner) : (interner.get? domain).isSome ↔ domain ∈ calls := by
  rw [← reflects.listed, List.mem_iff_getElem?, Option.isSome_iff_exists]
  constructor
  · rintro ⟨number, found⟩
    obtain ⟨place, stands, -⟩ := (reflects.numbered domain number).mp found
    exact ⟨place, stands⟩
  · rintro ⟨place, stands⟩
    exact ⟨_, (reflects.numbered domain _).mpr ⟨place, stands, rfl⟩⟩

/-- One more call does not move the first calls. -/
theorem Reflects.ordered_concat (reflects : Reflects calls interner) (domain : Domain) :
    interner.names.Pairwise fun first second => (calls ++ [domain]).idxOf first < (calls ++ [domain]).idxOf second := by
  refine reflects.ordered.imp_of_mem fun {first second} firstListed secondListed earlier => ?_
  rw [List.idxOf_append_of_mem ((reflects.listed first).mp firstListed),
    List.idxOf_append_of_mem ((reflects.listed second).mp secondListed)]
  exact earlier

/-- A domain that has a number is not listed again. -/
theorem Reflects.repeated (reflects : Reflects calls interner) (known : domain ∈ calls) :
    Reflects (calls ++ [domain]) interner where
  listed other := by
    rw [reflects.listed, List.mem_append, List.mem_singleton]
    exact ⟨.inl, fun called => called.elim id fun same => same ▸ known⟩
  ordered := reflects.ordered_concat domain
  numbered := reflects.numbered

/-- A domain without number is listed behind all others, as its first call comes after all theirs. -/
theorem Reflects.add (reflects : Reflects calls interner) (isNew : domain ∉ calls) :
    Reflects (calls ++ [domain]) (interner.add domain) where
  listed other := by
    rw [Interner.add, List.mem_append, reflects.listed, List.mem_append]
  ordered := by
    have last : (calls ++ [domain]).idxOf domain = calls.length := by
      rw [List.idxOf_append_of_notMem isNew, List.idxOf_cons_self, Nat.add_zero]
    refine List.pairwise_append.mpr ⟨reflects.ordered_concat domain, List.pairwise_singleton _ _, ?_⟩
    intro first firstListed second isLast
    have called := (reflects.listed first).mp firstListed
    rw [List.mem_singleton.mp isLast, last, List.idxOf_append_of_mem called]
    exact List.idxOf_lt_length_iff.mpr called
  numbered other number := by
    have absent : ∀ place, interner.resolve? place ≠ some domain := fun place stands =>
      isNew ((reflects.listed domain).mp (List.mem_of_getElem? stands))
    simp only [get?_add, resolve?_add_eq_some_iff]
    by_cases same : other = domain
    · subst same
      rw [if_pos rfl, Option.some.injEq]
      constructor
      · intro given
        exact ⟨interner.size, .inr ⟨rfl, rfl⟩, given⟩
      · rintro ⟨place, stands | ⟨rfl, -⟩, given⟩
        · exact absurd stands (absent place)
        · exact given
    · rw [if_neg same, reflects.numbered]
      refine exists_congr fun place => and_congr_left fun _ => ?_
      exact (or_iff_left fun isLast => same isLast.2.symm).symm

theorem Reflects.intern (reflects : Reflects calls interner) (domain : Domain) :
    Reflects (calls ++ [domain]) (interner.intern domain).1 := by
  cases found : interner.get? domain with
  | some number =>
    rw [intern_of_get? found]
    exact reflects.repeated (reflects.isSome_get?_iff.mp (by rw [found]; rfl))
  | none =>
    rw [intern_of_unknown found]
    exact reflects.add fun called => by simpa [found] using reflects.isSome_get?_iff.mpr called

theorem reflects_ofList (calls : List Domain) : Reflects calls (ofList calls) := by
  induction calls using List.reverseRecOn with
  | nil => exact reflects_empty
  | append_singleton calls domain ih =>
    rw [ofList_concat]
    exact ih.intern domain

end Run

section Bijection

theorem Reflects.nodup (reflects : Reflects calls interner) : interner.names.Nodup := by
  refine reflects.ordered.imp fun {first second} earlier same => ?_
  rw [same] at earlier
  exact Nat.lt_irrefl _ earlier

/-- There are as many numbers as there are different domains among the calls. -/
theorem Reflects.size_eq (reflects : Reflects calls interner) : interner.size = calls.toFinset.card := by
  rw [← List.toFinset.ext reflects.listed]
  exact (List.toFinset_card_of_nodup reflects.nodup).symm

theorem Reflects.exists_of_lt (reflects : Reflects calls interner) (inUse : number < interner.size) :
    ∃ domain ∈ calls, interner.resolve? number = some domain := by
  have stands : interner.resolve? number = some (interner.names.get ⟨number, inUse⟩) := List.getElem?_eq_getElem inUse
  exact ⟨_, (reflects.listed _).mp (List.mem_of_getElem? stands), stands⟩

/-- As long as all places fit into 32 bits, the two tables are inverse to each other. -/
theorem Reflects.get?_eq_some_iff (reflects : Reflects calls interner) (few : calls.toFinset.card ≤ 2 ^ 32) :
    interner.get? domain = some number ↔ interner.resolve? number = some domain := by
  have fits : ∀ place, interner.resolve? place = some domain → place % 2 ^ 32 = place := fun place stands =>
    Nat.mod_eq_of_lt ((lt_size_of_resolve? stands).trans_le (reflects.size_eq ▸ few))
  rw [reflects.numbered]
  constructor
  · rintro ⟨place, stands, rfl⟩
    rw [fits place stands]
    exact stands
  · intro stands
    exact ⟨number, stands, fits number stands⟩

/-- Of two numbers, the smaller one belongs to the domain that was called for first. -/
theorem Reflects.lt_iff (reflects : Reflects calls interner) {first second : Nat}
    (firstStands : interner.resolve? first = some domain) (secondStands : interner.resolve? second = some other) :
    first < second ↔ calls.idxOf domain < calls.idxOf other := by
  have forward : ∀ {first second : Nat} {domain other : Domain}, interner.resolve? first = some domain →
      interner.resolve? second = some other → first < second → calls.idxOf domain < calls.idxOf other := by
    intro first second domain other firstStands secondStands earlier
    obtain ⟨firstInside, rfl⟩ := List.getElem?_eq_some_iff.mp firstStands
    obtain ⟨secondInside, rfl⟩ := List.getElem?_eq_some_iff.mp secondStands
    exact List.pairwise_iff_getElem.mp reflects.ordered first second firstInside secondInside earlier
  refine ⟨forward firstStands secondStands, fun earlier => ?_⟩
  rcases Nat.lt_trichotomy first second with isLess | same | isGreater
  · exact isLess
  · subst same
    rw [firstStands, Option.some.injEq] at secondStands
    exact absurd (secondStands ▸ earlier) (Nat.lt_irrefl _)
  · exact absurd earlier (Nat.lt_asymm (forward secondStands firstStands isGreater))

/-- After any of the calls, numbers and domains are in a bijection that stays. A further call gives a number that leads back to
its domain. So does the number that each call gave, which is the one that is found, and two calls gave the same number only for
the same domain. Exactly the domains called for have a number, and calling for one of them again gives it and changes nothing.
The numbers in use are those below the count of the domains, and they ascend with the first calls. No later call changes the
number of a domain or the domain of a number. -/
theorem numbering_stable (few : calls.toFinset.card < 2 ^ 32) (made : now <+: calls) :
    (∀ domain, ((ofList now).intern domain).1.resolve? (answer now domain) = some domain) ∧
    (∀ done domain, done ++ [domain] <+: now →
      (ofList now).get? domain = some (answer done domain) ∧ (ofList now).resolve? (answer done domain) = some domain) ∧
    (∀ done first, done ++ [first] <+: now → ∀ before second, before ++ [second] <+: now →
      (answer done first = answer before second ↔ first = second)) ∧
    (∀ domain, ((ofList now).get? domain).isSome ↔ domain ∈ now) ∧
    (∀ domain number, (ofList now).get? domain = some number → (ofList now).intern domain = (ofList now, number)) ∧
    (ofList now).size = now.toFinset.card ∧
    (∀ number, (∃ domain ∈ now, (ofList now).get? domain = some number) ↔ number < (ofList now).size) ∧
    (∀ first second firstNumber secondNumber, (ofList now).get? first = some firstNumber →
      (ofList now).get? second = some secondNumber → (firstNumber < secondNumber ↔ now.idxOf first < now.idxOf second)) ∧
    ∀ rest, (ofList now).Extends (ofList (now ++ rest)) := by
  have reflects := reflects_ofList now
  have called : now.toFinset ⊆ calls.toFinset := fun domain member =>
    List.mem_toFinset.mpr (made.subset (List.mem_toFinset.mp member))
  have fewNow : now.toFinset.card < 2 ^ 32 := (Finset.card_le_card called).trans_lt few
  have inverse : ∀ {domain number}, (ofList now).get? domain = some number ↔ (ofList now).resolve? number = some domain :=
    reflects.get?_eq_some_iff fewNow.le
  refine ⟨fun domain => ?_, fun done domain called => ?_, fun done first firstCalled before second secondCalled => ?_,
    fun domain => reflects.isSome_get?_iff, fun domain number => intern_of_get?, reflects.size_eq, fun number => ?_,
    fun first second firstNumber secondNumber firstFound secondFound => ?_, extends_ofList now⟩
  · -- The bound is strict, so one more domain still fits.
    have fewNext : (now ++ [domain]).toFinset.card ≤ 2 ^ 32 := by
      rw [List.toFinset_append]
      exact (Finset.card_union_le _ _).trans (Nat.succ_le_of_lt fewNow)
    exact ((reflects.intern domain).get?_eq_some_iff fewNext).mp get?_intern
  · exact ⟨get?_ofList called, inverse.mp (get?_ofList called)⟩
  · have firstStands := inverse.mp (get?_ofList firstCalled)
    have secondStands := inverse.mp (get?_ofList secondCalled)
    constructor
    · intro same
      rw [same, secondStands] at firstStands
      exact (Option.some.inj firstStands).symm
    · intro same
      subst same
      exact Option.some.inj ((get?_ofList firstCalled).symm.trans (get?_ofList secondCalled))
  · constructor
    · rintro ⟨domain, -, found⟩
      exact lt_size_of_resolve? (inverse.mp found)
    · intro inUse
      obtain ⟨domain, called, stands⟩ := reflects.exists_of_lt inUse
      exact ⟨domain, called, inverse.mpr stands⟩
  · exact reflects.lt_iff (inverse.mp firstFound) (inverse.mp secondFound)

theorem numbering_stable_repeated : [":caller", "lib", ":caller", "fs"].toFinset.card < 2 ^ 32 ∧
    [":caller", "lib", ":caller"] <+: [":caller", "lib", ":caller", "fs"] ∧
    answer [":caller", "lib"] ":caller" = answer [] ":caller" ∧ answer [":caller"] "lib" ≠ answer [] ":caller" ∧
    (ofList [":caller", "lib", ":caller"]).resolve? (answer [":caller"] "lib") = some "lib" ∧
    (ofList [":caller", "lib", ":caller"]).size = 2 ∧
    (ofList [":caller", "lib", ":caller", "fs"]).get? "lib" = some (answer [":caller"] "lib") := by
  have few : [":caller", "lib", ":caller", "fs"].toFinset.card < 2 ^ 32 := (List.toFinset_card_le _).trans_lt (by decide)
  have made : [":caller", "lib", ":caller"] <+: [":caller", "lib", ":caller", "fs"] := ⟨["fs"], rfl⟩
  have first : [] ++ [":caller"] <+: [":caller", "lib", ":caller"] := ⟨["lib", ":caller"], rfl⟩
  have second : [":caller"] ++ ["lib"] <+: [":caller", "lib", ":caller"] := ⟨[":caller"], rfl⟩
  have third : [":caller", "lib"] ++ [":caller"] <+: [":caller", "lib", ":caller"] := ⟨[], rfl⟩
  obtain ⟨-, answers, same, -, -, size, -, -, stays⟩ := numbering_stable few made
  refine ⟨few, made, (same _ _ third _ _ first).mpr rfl, fun equal => ?_, (answers _ _ second).2, size.trans (by decide),
    (stays ["fs"]).get? _ _ (answers _ _ second).1⟩
  exact absurd ((same _ _ second _ _ first).mp equal) (by decide)

/-- Once all numbers of 32 bits are given, the next domain has to share one. -/
theorem exists_shared_of_full (full : calls.toFinset.card = 2 ^ 32) (isNew : domain ∉ calls) :
    ∃ other ∈ calls, ((ofList calls).intern domain).1.get? other = ((ofList calls).intern domain).1.get? domain := by
  have reflects := reflects_ofList calls
  have inUse : 0 < (ofList calls).size := by
    rw [reflects.size_eq, full]
    decide
  obtain ⟨first, called, stands⟩ := reflects.exists_of_lt inUse
  have unknown : (ofList calls).get? domain = none := by
    rw [← Option.not_isSome_iff_eq_none, reflects.isSome_get?_iff]
    exact isNew
  have given : answer calls domain = 0 := by
    rw [answer, intern_of_unknown unknown, reflects.size_eq, full, Nat.mod_self]
  refine ⟨first, called, ?_⟩
  rw [get?_intern, ← answer, given]
  exact (extends_intern _ domain).get? first 0 ((reflects.get?_eq_some_iff full.le).mpr stands)

end Bijection

end Interner

/-- The number of the domain of a root leads back to the domain, so that a number can stand for it. -/
theorem DirectDomains.exists_number {domains : DirectDomains} {id : NodeId} {domain : Domain}
    (few : (domains.roots.map Prod.snd).toFinset.card ≤ 2 ^ 32) (isRoot : (id, domain) ∈ domains.roots) :
    ∃ number, domains.interner.get? domain = some number ∧ domains.interner.resolve? number = some domain := by
  have reflects := Interner.reflects_ofList (domains.roots.map Prod.snd)
  obtain ⟨number, found⟩ := Option.isSome_iff_exists.mp (reflects.isSome_get?_iff.mpr (List.mem_map_of_mem isRoot))
  exact ⟨number, found, (reflects.get?_eq_some_iff few).mp found⟩

end DomainFlow
