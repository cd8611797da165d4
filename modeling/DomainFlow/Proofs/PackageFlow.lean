import DomainFlow.Package.Flow
import DomainFlow.Proofs.Label
import DomainFlow.Proofs.RelationMap
import DomainFlow.Proofs.Traversal

/-!
What the data of a package can newly reach. The flow of a version has exactly the hops that the relations of
its packages stand for, so a name is found exactly if hops lead to it in the later version and not in the
earlier one. Whether the relation map of a package is used depends on its name only. That holds for the root
package too: where its name is one of those that are left out, nothing that it does is found.
-/
namespace DomainFlow

namespace PackageFlow
variable {flow : PackageFlow} {name other start : String} {hop added : String × String} {hops : List (String × String)}

section Adding

@[simp] theorem hops_addName : (flow.addName name).hops = flow.hops := by
  unfold addName
  split <;> rfl

@[simp] theorem mem_names_addName : other ∈ (flow.addName name).names ↔ other ∈ flow.names ∨ other = name := by
  unfold addName
  split
  next present => exact ⟨.inl, fun either => either.elim id fun same => same ▸ present⟩
  next absent => simp

theorem names_addHop : (flow.addHop added).names = ((flow.addName added.1).addName added.2).names := by
  simp only [addHop]
  split <;> rfl

theorem mem_names_addHop : name ∈ (flow.addHop added).names ↔ (name ∈ flow.names ∨ name = added.1) ∨ name = added.2 := by
  rw [names_addHop, mem_names_addName, mem_names_addName]

theorem mem_hops_addHop : hop ∈ (flow.addHop added).hops ↔ hop ∈ flow.hops ∨ hop = added := by
  simp only [addHop, hops_addName]
  split
  next present =>
    rw [hops_addName, hops_addName]
    exact ⟨.inl, fun either => either.elim id fun same => same ▸ present⟩
  next absent => simp

theorem mem_hops_foldl_addHop : hop ∈ (hops.foldl addHop flow).hops ↔ hop ∈ flow.hops ∨ hop ∈ hops := by
  induction hops generalizing flow with
  | nil => simp
  | cons first rest ih => rw [List.foldl_cons, ih, mem_hops_addHop, or_assoc, List.mem_cons]

theorem mem_names_foldl_addHop (present : name ∈ flow.names) : name ∈ (hops.foldl addHop flow).names := by
  induction hops generalizing flow with
  | nil => exact present
  | cons first rest ih => exact ih (mem_names_addHop.mpr (.inl (.inl present)))

def Closed (flow : PackageFlow) : Prop := ∀ hop ∈ flow.hops, hop.2 ∈ flow.names

theorem Closed.addHop (closed : flow.Closed) : (flow.addHop added).Closed := by
  intro hop member
  rw [mem_names_addHop]
  rcases mem_hops_addHop.mp member with known | rfl
  · exact .inl (.inl (closed hop known))
  · exact .inr rfl

theorem Closed.foldl_addHop (closed : flow.Closed) : (hops.foldl PackageFlow.addHop flow).Closed := by
  induction hops generalizing flow with
  | nil => exact closed
  | cons first rest ih => exact ih closed.addHop

end Adding

section Reaching

theorem mem_targets : other ∈ flow.targets name ↔ (name, other) ∈ flow.hops := by
  simp only [targets, List.mem_map, List.mem_filter, beq_iff_eq, Prod.exists, exists_eq_right]

/-- From a name of the flow, exactly the names are reached to which hops lead. -/
theorem mem_reachable (closed : flow.Closed) (present : start ∈ flow.names) : name ∈ flow.reachable start ↔
    Relation.ReflTransGen (fun first second => (first, second) ∈ flow.hops) start name := by
  have known : ∀ first ∈ [start], first ∈ flow.names := List.forall_mem_singleton.mpr present
  have stays : ∀ first ∈ flow.names, ∀ second ∈ flow.targets first, second ∈ flow.names :=
    fun _ _ second follows => closed _ (mem_targets.mp follows)
  rw [reachable, SortedSet.mem_ofList, mem_depthFirst_iff known stays]
  simp only [List.mem_singleton, exists_eq_left, mem_targets]

theorem mem_newlyReachable {before after : PackageFlow} : name ∈ before.newlyReachable after start ↔
    name ∈ after.reachable start ∧ name ∉ before.reachable start := by
  rw [newlyReachable, SortedSet.mem_filter, decide_eq_true_iff]

end Reaching

section Hops
variable {root package : String} {excluded : List String} {relation : Relation} {domain : Domain}

/-- How a domain of a package is called in the flow. In the root package, its own code is the data that it
holds, and its caller is the data that callers give to it. In another package, both are that package. -/
def flowName (root package : String) (domain : Domain) : String :=
  if domain = Domain.localCode then if package = root then staticData root else package
  else if domain = Domain.caller then if package = root then callerInput root else package
  else domain

/-- The domains at the border of a package: its own code, and its caller. -/
def border : List Domain := [Domain.localCode, Domain.caller]

/-- Whether a relation stands for a flow: no end is excluded, and not both are at the border. -/
structure Crosses (excluded : List String) (relation : Relation) : Prop where
  source : relation.source ∉ excluded
  target : relation.target ∉ excluded
  leaves : ¬(relation.source ∈ border ∧ relation.target ∈ border)

theorem isBorder_iff : isBorder domain = true ↔ domain ∈ border := by
  simp [isBorder, border]

theorem flowName_root : flowName root root domain = rootName root domain := by
  simp only [flowName, rootName, if_true, beq_iff_eq]

theorem flowName_of_mem_border (different : package ≠ root) (atBorder : domain ∈ border) :
    flowName root package domain = package := by
  unfold flowName
  rcases List.mem_pair.mp atBorder with rfl | rfl
  · rw [if_pos rfl, if_neg different]
  · rw [if_neg (by decide), if_pos rfl, if_neg different]

theorem flowName_of_not_mem_border (inner : domain ∉ border) : flowName root package domain = domain := by
  unfold flowName
  rw [if_neg fun same => inner (List.mem_pair.mpr (.inl same)), if_neg fun same => inner (List.mem_pair.mpr (.inr same))]

/-- A relation that crosses the border stands for the hop between the names of its ends. -/
theorem hop?_of_crosses (crosses : Crosses excluded relation) : hop? root excluded package relation =
    some (flowName root package relation.source, flowName root package relation.target) := by
  have allowed : ¬(excluded.contains relation.source || excluded.contains relation.target) = true := by
    rw [Bool.or_eq_true, List.contains_iff_mem, List.contains_iff_mem]
    exact not_or_intro crosses.source crosses.target
  have leaves : ¬(isBorder relation.source && isBorder relation.target) = true := by
    rw [Bool.and_eq_true, isBorder_iff, isBorder_iff]
    exact crosses.leaves
  rw [hop?, if_neg allowed, if_neg leaves]
  by_cases isRoot : package = root
  · subst isRoot
    rw [if_pos (beq_self_eq_true _), flowName_root, flowName_root]
  · -- In a dependency, the border is the dependency itself, on whichever side it stands.
    rw [if_neg (by simpa using isRoot)]
    simp only [isBorder_iff]
    by_cases sourceBorder : relation.source ∈ border
    · have targetInner : relation.target ∉ border := fun targetBorder => crosses.leaves ⟨sourceBorder, targetBorder⟩
      rw [if_pos sourceBorder, flowName_of_mem_border isRoot sourceBorder, flowName_of_not_mem_border targetInner]
    · rw [if_neg sourceBorder, flowName_of_not_mem_border sourceBorder]
      by_cases targetBorder : relation.target ∈ border
      · rw [if_pos targetBorder, flowName_of_mem_border isRoot targetBorder]
      · rw [if_neg targetBorder, flowName_of_not_mem_border targetBorder]

theorem crosses_of_hop? (stands : hop? root excluded package relation = some hop) : Crosses excluded relation := by
  unfold hop? at stands
  split at stands
  next => cases stands
  next allowed =>
    rw [Bool.or_eq_true, List.contains_iff_mem, List.contains_iff_mem, not_or] at allowed
    split at stands
    next => cases stands
    next leaves =>
      rw [Bool.and_eq_true, isBorder_iff, isBorder_iff] at leaves
      exact ⟨allowed.1, allowed.2, leaves⟩

theorem hop?_eq_some_iff : hop? root excluded package relation = some hop ↔ Crosses excluded relation ∧
    hop = (flowName root package relation.source, flowName root package relation.target) := by
  constructor
  · intro stands
    have crosses := crosses_of_hop? stands
    rw [hop?_of_crosses crosses] at stands
    exact ⟨crosses, (Option.some_inj.mp stands).symm⟩
  · intro conditions
    rw [hop?_of_crosses conditions.1, conditions.2]

theorem mem_packageHops {map : RelationMap} : hop ∈ packageHops root excluded package map ↔
    ∃ relation ∈ map.relationSet, Crosses excluded relation.generalizeLocals ∧
      hop = (flowName root package relation.generalizeLocals.source, flowName root package relation.generalizeLocals.target) := by
  simp only [packageHops, List.mem_filterMap, ← SortedSet.mem_iff, SortedSet.mem_map, hop?_eq_some_iff,
    exists_exists_and_eq_and]

end Hops

section OfData
variable {data : SortedMap String RelationMap} {root : String} {skipped excluded : List String}

theorem mem_hops_ofData : hop ∈ (ofData data root skipped excluded).hops ↔
    ∃ package map, data.get? package = some map ∧ package ∉ skipped ∧ package ∉ excluded ∧
      hop ∈ packageHops root excluded package map := by
  simp only [ofData, mem_hops_foldl_addHop, hops_addName, empty, List.not_mem_nil, false_or, List.mem_flatMap,
    List.mem_filter, Bool.not_eq_true', ← Bool.not_eq_true, Bool.or_eq_true, List.contains_iff_mem, not_or, Prod.exists,
    ← SortedMap.get?_eq_some_iff, and_assoc]

theorem closed_ofData : (ofData data root skipped excluded).Closed :=
  Closed.foldl_addHop fun hop member => by simp [empty] at member

/-- The names of the data of a package itself: what it holds, and what callers give to it. -/
def ownData (root : String) : List String := [staticData root, callerInput root]

theorem staticData_mem_ownData : staticData root ∈ ownData root := List.mem_pair.mpr (.inl rfl)

theorem callerInput_mem_ownData : callerInput root ∈ ownData root := List.mem_pair.mpr (.inr rfl)

theorem mem_names_ofData (own : name ∈ ownData root) : name ∈ (ofData data root skipped excluded).names := by
  refine mem_names_foldl_addHop ?_
  rw [mem_names_addName, mem_names_addName]
  exact (List.mem_pair.mp own).imp_left .inr

end OfData

end PackageFlow

namespace VersionPair
open PackageFlow (border flowName Crosses staticData callerInput ownData staticData_mem_ownData callerInput_mem_ownData)
variable {pair : VersionPair} {options : CrossOptions} {version : VersionData} {diff : CrossDiff}
  {first second start name : String}

def flow (pair : VersionPair) (options : CrossOptions) (version : VersionData) : PackageFlow :=
  .ofData version.data pair.packageName (pair.skippedPackages options).toList options.excluded

/-- The hops of a version: the relations of the packages that are neither skipped nor excluded, with all local
domains as one. -/
inductive Hop (pair : VersionPair) (options : CrossOptions) (version : VersionData) : String → String → Prop where
  | stands {package : String} {map : RelationMap} {relation : Relation} : version.data.get? package = some map →
      package ∉ pair.skippedPackages options → package ∉ options.excluded → relation ∈ map.relationSet →
      Crosses options.excluded relation.generalizeLocals →
      Hop pair options version (flowName pair.packageName package relation.generalizeLocals.source)
        (flowName pair.packageName package relation.generalizeLocals.target)

/-- Whether hops of a version lead from a name to another one, or to itself. -/
def Reaches (pair : VersionPair) (options : CrossOptions) (version : VersionData) : String → String → Prop :=
  Relation.ReflTransGen (pair.Hop options version)

section Flow

theorem mem_hops_flow : (first, second) ∈ (pair.flow options version).hops ↔ pair.Hop options version first second := by
  simp only [flow, PackageFlow.mem_hops_ofData, PackageFlow.mem_packageHops, Prod.mk.injEq]
  constructor
  · intro found
    obtain ⟨package, map, present, used, allowed, relation, member, crosses, rfl, rfl⟩ := found
    exact .stands present used allowed member crosses
  · intro hop
    obtain ⟨present, used, allowed, member, crosses⟩ := hop
    exact ⟨_, _, present, used, allowed, _, member, crosses, rfl, rfl⟩

theorem mem_reachable_flow (own : start ∈ ownData pair.packageName) :
    name ∈ (pair.flow options version).reachable start ↔ pair.Reaches options version start name := by
  have known : start ∈ (pair.flow options version).names := PackageFlow.mem_names_ofData own
  have closed : (pair.flow options version).Closed := PackageFlow.closed_ofData
  rw [PackageFlow.mem_reachable closed known]
  simp only [mem_hops_flow, Reaches]

theorem mem_newlyReachable_flow (own : start ∈ ownData pair.packageName) :
    name ∈ (pair.flow options pair.before).newlyReachable (pair.flow options pair.after) start ↔
      pair.Reaches options pair.after start name ∧ ¬pair.Reaches options pair.before start name := by
  rw [PackageFlow.mem_newlyReachable, mem_reachable_flow own, mem_reachable_flow own]

theorem crossDiff?_eq_some_iff : pair.crossDiff? options = some diff ↔
    (pair.before.data.contains pair.packageName = true ∧ pair.after.data.contains pair.packageName = true) ∧
      diff = ⟨(pair.flow options pair.before).newlyReachable (pair.flow options pair.after) (staticData pair.packageName),
        (pair.flow options pair.before).newlyReachable (pair.flow options pair.after) (callerInput pair.packageName)⟩ := by
  simp only [crossDiff?, Bool.and_eq_true]
  split
  next present => exact Option.some_inj.trans (eq_comm.trans (and_iff_right present).symm)
  next absent => simp [absent]

end Flow

section Difference

/-- A name is found exactly if hops of the later version lead to it and hops of the earlier one do not. -/
theorem cross_diff_exact (pair : VersionPair) (options : CrossOptions)
    (inBefore : pair.before.data.contains pair.packageName = true)
    (inAfter : pair.after.data.contains pair.packageName = true) :
    ∃ diff, pair.crossDiff? options = some diff ∧
      (∀ name, name ∈ diff.callerInput ↔ pair.Reaches options pair.after (callerInput pair.packageName) name ∧
        ¬pair.Reaches options pair.before (callerInput pair.packageName) name) ∧
      ∀ name, name ∈ diff.staticData ↔ pair.Reaches options pair.after (staticData pair.packageName) name ∧
        ¬pair.Reaches options pair.before (staticData pair.packageName) name :=
  ⟨_, crossDiff?_eq_some_iff.mpr ⟨⟨inBefore, inAfter⟩, rfl⟩,
    fun _ => mem_newlyReachable_flow callerInput_mem_ownData, fun _ => mem_newlyReachable_flow staticData_mem_ownData⟩

/-- Names that no hop leaves hold everything that is reached from them. -/
theorem mem_of_reaches (names : List String) (reaches : pair.Reaches options version start name)
    (starts : start ∈ names) (stays : ∀ hop ∈ (pair.flow options version).hops, hop.1 ∈ names → hop.2 ∈ names) :
    name ∈ names := by
  induction reaches with
  | refl => exact starts
  | tail _ hop ih => exact stays _ (mem_hops_flow.mpr hop) ih

/-- An update by which a dependency of a package gets to the network. Another package could not be analysed. -/
def leakingDependency : VersionPair where
  packageName := "app"
  before := ⟨.ofList [("app", .ofWitnesses [(⟨":caller", "dep"⟩, .none)]),
    ("dep", .ofWitnesses [(⟨":caller", "fs"⟩, .none)])], []⟩
  after := ⟨.ofList [("app", .ofWitnesses [(⟨":caller", "dep"⟩, .none), (⟨":caller", "broken"⟩, .none)]),
    ("dep", .ofWitnesses [(⟨":caller", "fs"⟩, .none), (⟨":local:key", "http"⟩, .none), (⟨":caller", "util"⟩, .none)]),
    ("broken", .ofWitnesses [(⟨":caller", "net"⟩, .none)])], ["broken"]⟩

theorem cross_diff_exact_leaking :
    leakingDependency.before.data.contains leakingDependency.packageName = true ∧
    leakingDependency.after.data.contains leakingDependency.packageName = true ∧
    ∃ diff, leakingDependency.crossDiff? .standard = some diff ∧ "http" ∈ diff.callerInput ∧
      "fs" ∉ diff.callerInput ∧ "net" ∉ diff.callerInput := by
  have inBefore : leakingDependency.before.data.contains leakingDependency.packageName = true := by decide
  have inAfter : leakingDependency.after.data.contains leakingDependency.packageName = true := by decide
  obtain ⟨diff, found, callers, -⟩ := cross_diff_exact leakingDependency .standard inBefore inAfter
  have intoDependency : leakingDependency.Hop .standard leakingDependency.before (callerInput "app") "dep" :=
    mem_hops_flow.mp (by decide)
  have readsFiles : leakingDependency.Hop .standard leakingDependency.before "dep" "fs" := mem_hops_flow.mp (by decide)
  have stillInto : leakingDependency.Hop .standard leakingDependency.after (callerInput "app") "dep" :=
    mem_hops_flow.mp (by decide)
  have sends : leakingDependency.Hop .standard leakingDependency.after "dep" "http" := mem_hops_flow.mp (by decide)
  refine ⟨inBefore, inAfter, diff, found, (callers "http").mpr ⟨.head stillInto (.single sends), fun reaches => ?_⟩,
    fun member => ((callers "fs").mp member).2 (.head intoDependency (.single readsFiles)), fun member => ?_⟩
  · have known := mem_of_reaches ["app:caller_input", "dep", "fs"] reaches (by decide) (by decide)
    exact absurd known (by decide)
  · have reached := mem_of_reaches ["app:caller_input", "dep", "broken", "fs", "http"] ((callers "net").mp member).1
      (by decide) (by decide)
    exact absurd reached (by decide)

end Difference

section Root
variable {map : RelationMap} {relation : Relation} {domain : Domain}

theorem mem_skippedPackages : name ∈ pair.skippedPackages options ↔ name ∈ pair.before.notIncluded ∨
    name ∈ pair.after.notIncluded ∨ name ∈ options.excluded ∨ name ∈ options.alwaysExclude := by
  simp only [skippedPackages, SortedSet.mem_ofList, List.mem_append, or_assoc]

/-- If the relation map of the root package is used, what one of its border domains gives on is a hop from the data
that the domain stands for. -/
theorem hop_of_root (used : pair.packageName ∉ pair.skippedPackages options)
    (isRoot : version.data.get? pair.packageName = some map) (member : relation ∈ map.relationSet)
    (source : relation.source.generalizeLocal = domain) (sourceAllowed : domain ∉ options.excluded)
    (foreign : relation.target.isLocal = false) (outer : relation.target ≠ Domain.caller)
    (targetAllowed : relation.target ∉ options.excluded) :
    pair.Hop options version (PackageFlow.rootName pair.packageName domain) relation.target := by
  have inner : relation.target ∉ border := by
    rw [border, List.mem_pair, not_or]
    exact ⟨(Relation.ne_of_isLocal (by decide) foreign).symm, outer⟩
  have same : relation.generalizeLocals = ⟨domain, relation.target⟩ := by
    rw [Relation.generalizeLocals, Relation.map, source, Domain.generalizeLocal_of_not_isLocal foreign]
  have crosses : Crosses options.excluded ⟨domain, relation.target⟩ :=
    ⟨sourceAllowed, targetAllowed, fun both => inner both.2⟩
  have rootAllowed : pair.packageName ∉ options.excluded :=
    fun excluded => used (mem_skippedPackages.mpr (.inr (.inr (.inl excluded))))
  have hop := Hop.stands isRoot used rootAllowed member (same ▸ crosses)
  rw [same, PackageFlow.flowName_root, PackageFlow.flowName_of_not_mem_border inner] at hop
  exact hop

/-- What a hop of the later version leads to is found, unless it was reached before. -/
theorem mem_newlyReachable_or_known (own : start ∈ ownData pair.packageName) (hop : pair.Hop options pair.after start name) :
    name ∈ (pair.flow options pair.before).newlyReachable (pair.flow options pair.after) start ∨
      name ∈ (pair.flow options pair.before).reachable start := by
  by_cases known : name ∈ (pair.flow options pair.before).reachable start
  · exact .inr known
  · exact .inl (PackageFlow.mem_newlyReachable.mpr ⟨(mem_reachable_flow own).mpr (.single hop), known⟩)

/-- The same update with other relation maps of the root package. -/
def withRootMaps (pair : VersionPair) (before after : RelationMap) : VersionPair :=
  { pair with
    before := { pair.before with data := pair.before.data.insert pair.packageName before }
    after := { pair.after with data := pair.after.data.insert pair.packageName after } }

theorem contains_insert_packageName {data : SortedMap String RelationMap} :
    (data.insert pair.packageName map).contains pair.packageName = true := by
  rw [SortedMap.contains_iff, SortedMap.get?_insert, if_pos rfl]
  rfl

/-- If the relation map of the root package is not used, another one gives the same hops. -/
theorem hop_withRootMaps (skipped : pair.packageName ∈ pair.skippedPackages options) {before after : RelationMap} :
    (pair.withRootMaps before after).Hop options { version with data := version.data.insert pair.packageName map } =
      pair.Hop options version := by
  have elsewhere : ∀ {package}, package ∉ pair.skippedPackages options →
      (version.data.insert pair.packageName map).get? package = version.data.get? package := by
    intro package used
    have different : package ≠ pair.packageName := fun same => used (same ▸ skipped)
    rw [SortedMap.get?_insert, if_neg different]
  funext first second
  refine propext ⟨fun hop => ?_, fun hop => ?_⟩
  · obtain ⟨present, used, allowed, member, crosses⟩ := hop
    exact .stands ((elsewhere used).symm.trans present) used allowed member crosses
  · obtain ⟨present, used, allowed, member, crosses⟩ := hop
    exact .stands ((elsewhere used).trans present) used allowed member crosses

theorem crossDiff?_withRootMaps (skipped : pair.packageName ∈ pair.skippedPackages options)
    (found : pair.crossDiff? options = some diff) (before after : RelationMap) :
    (pair.withRootMaps before after).crossDiff? options = some diff := by
  let twin := pair.withRootMaps before after
  have sameBefore : twin.Reaches options twin.before = pair.Reaches options pair.before :=
    congrArg Relation.ReflTransGen (hop_withRootMaps skipped)
  have sameAfter : twin.Reaches options twin.after = pair.Reaches options pair.after :=
    congrArg Relation.ReflTransGen (hop_withRootMaps skipped)
  -- Two sets of names are the same as soon as the same names are reached, however the flows list them.
  have same : ∀ {start}, start ∈ ownData pair.packageName →
      (pair.flow options pair.before).newlyReachable (pair.flow options pair.after) start =
        (twin.flow options twin.before).newlyReachable (twin.flow options twin.after) start := by
    intro start own
    apply SortedSet.ext_mem
    intro name
    have inTwin : name ∈ (twin.flow options twin.before).newlyReachable (twin.flow options twin.after) start ↔
        twin.Reaches options twin.after start name ∧ ¬twin.Reaches options twin.before start name :=
      mem_newlyReachable_flow own
    rw [inTwin, sameBefore, sameAfter, mem_newlyReachable_flow own]
  obtain ⟨-, rfl⟩ := crossDiff?_eq_some_iff.mp found
  refine crossDiff?_eq_some_iff.mpr ⟨⟨contains_insert_packageName, contains_insert_packageName⟩, ?_⟩
  rw [same staticData_mem_ownData, same callerInput_mem_ownData]
  rfl

/-- What the root package newly gives on is found, unless its own name is one of those whose relation maps are
not used. In that case the result does not depend on what the root package does. -/
theorem root_reported_unless_skipped (localAllowed : Domain.localCode ∉ options.excluded)
    (callerAllowed : Domain.caller ∉ options.excluded) (found : pair.crossDiff? options = some diff) :
    (pair.packageName ∉ pair.skippedPackages options →
      ∀ map, pair.after.data.get? pair.packageName = some map → ∀ relation ∈ map.relationSet,
        relation.target.isLocal = false → relation.target ≠ Domain.caller → relation.target ∉ options.excluded →
          (relation.source = Domain.caller → relation.target ∈ diff.callerInput ∨
            relation.target ∈ (pair.flow options pair.before).reachable (callerInput pair.packageName)) ∧
          (relation.source.isLocal = true → relation.target ∈ diff.staticData ∨
            relation.target ∈ (pair.flow options pair.before).reachable (staticData pair.packageName))) ∧
    (pair.packageName ∈ pair.skippedPackages options →
      ∀ before after, (pair.withRootMaps before after).crossDiff? options = some diff) := by
  obtain ⟨-, rfl⟩ := crossDiff?_eq_some_iff.mp found
  refine ⟨fun used map isRoot relation member foreign outer allowed => ⟨fun called => ?_, fun own => ?_⟩,
    fun skipped => crossDiff?_withRootMaps skipped found⟩
  · have source : relation.source.generalizeLocal = Domain.caller := by
      rw [called]
      decide
    exact mem_newlyReachable_or_known callerInput_mem_ownData
      (hop_of_root used isRoot member source callerAllowed foreign outer allowed)
  · have source : relation.source.generalizeLocal = Domain.localCode := Domain.generalizeLocal_of_isLocal own
    exact mem_newlyReachable_or_known staticData_mem_ownData
      (hop_of_root used isRoot member source localAllowed foreign outer allowed)

theorem root_reported_unless_skipped_leaking :
    Domain.localCode ∉ CrossOptions.standard.excluded ∧ Domain.caller ∉ CrossOptions.standard.excluded ∧
    leakingDependency.packageName ∉ leakingDependency.skippedPackages .standard ∧
    ∃ diff, leakingDependency.crossDiff? .standard = some diff ∧ "broken" ∈ diff.callerInput := by
  have localAllowed : Domain.localCode ∉ CrossOptions.standard.excluded := by decide
  have callerAllowed : Domain.caller ∉ CrossOptions.standard.excluded := by decide
  have used : leakingDependency.packageName ∉ leakingDependency.skippedPackages .standard := by decide
  have found : leakingDependency.crossDiff? .standard = some _ :=
    crossDiff?_eq_some_iff.mpr ⟨⟨by decide, by decide⟩, rfl⟩
  obtain ⟨reported, -⟩ := root_reported_unless_skipped localAllowed callerAllowed found
  obtain ⟨given, -⟩ := reported used _ rfl ⟨":caller", "broken"⟩ (by decide) (by decide) (by decide) (by decide)
  refine ⟨localAllowed, callerAllowed, used, _, found, (given rfl).resolve_right fun known => ?_⟩
  have reaches := (mem_reachable_flow callerInput_mem_ownData).mp known
  exact absurd (mem_of_reaches ["app:caller_input", "dep", "fs"] reaches (by decide) (by decide)) (by decide)

/-- An update by which a package gets to the network. A version of the package itself is among its dependencies
that could not be analysed. -/
def ownDependency : VersionPair where
  packageName := "app"
  before := ⟨.ofList [("app", .empty)], []⟩
  after := ⟨.ofList [("app", .ofWitnesses [(⟨":caller", "net"⟩, .none)])], ["app"]⟩

/-- A package that is among its own dependencies is not looked at: it newly gets to the network, and nothing is
found. -/
theorem root_unreported_if_skipped :
    Domain.localCode ∉ CrossOptions.standard.excluded ∧ Domain.caller ∉ CrossOptions.standard.excluded ∧
    (∃ map, ownDependency.after.data.get? ownDependency.packageName = some map ∧
      ⟨Domain.caller, "net"⟩ ∈ map.relationSet) ∧
    Domain.isLocal "net" = false ∧ "net" ≠ Domain.caller ∧ "net" ∉ CrossOptions.standard.excluded ∧
    ∃ diff, ownDependency.crossDiff? .standard = some diff ∧ "net" ∉ diff.callerInput ∧
      "net" ∉ (ownDependency.flow .standard ownDependency.before).reachable (callerInput ownDependency.packageName) := by
  have unknown : ¬ownDependency.Reaches .standard ownDependency.before (callerInput "app") "net" := by
    intro reaches
    exact absurd (mem_of_reaches ["app:caller_input"] reaches (by decide) (by decide)) (by decide)
  have unread : ¬ownDependency.Reaches .standard ownDependency.after (callerInput "app") "net" := by
    intro reaches
    exact absurd (mem_of_reaches ["app:caller_input"] reaches (by decide) (by decide)) (by decide)
  have found : ownDependency.crossDiff? .standard = some _ := crossDiff?_eq_some_iff.mpr ⟨⟨by decide, by decide⟩, rfl⟩
  refine ⟨by decide, by decide, ⟨_, rfl, by decide⟩, by decide, by decide, by decide, _, found, ?_, ?_⟩
  · exact fun member => unread ((mem_newlyReachable_flow callerInput_mem_ownData).mp member).1
  · exact fun known => unknown ((mem_reachable_flow callerInput_mem_ownData).mp known)

end Root

end VersionPair

end DomainFlow
