import DomainFlow.Proofs.FlowGraph
import DomainFlow.Proofs.SortedMap
import DomainFlow.Domain.Spread
import Mathlib.Logic.Relation

/-!
How far domains spread. Following the pending paths keeps two facts: every path that is kept or pending
can be followed from the root, and whatever a kept path hands on to is kept or pending at a length that
is at most one more. So in the end exactly the nodes are reached to which the root hands on.
-/
namespace DomainFlow

namespace Reached
variable {reached later pending rest more : Reached} {id other target : NodeId}
  {path known : PropagationPath} {bound : Nat}

/-- Looking up a node finds the new path at one node and what was there before at all others. -/
def Records (earlier : Reached) (id : NodeId) (path : PropagationPath) (later : Reached) : Prop :=
  ∀ other, later.lookup other = if other = id then some path else earlier.lookup other

theorem records_improve (present : reached.lookup id = some known) : Records reached id path (improve id path reached) := by
  intro other
  induction reached with
  | nil => simp at present
  | cons entry rest ih =>
    obtain ⟨head, kept⟩ := entry
    by_cases same : head = id
    · subst same
      simp only [improve, if_pos, SortedMap.lookup_cons_eq_ite]
      split <;> rfl
    · rw [SortedMap.lookup_cons_eq_ite, if_neg (Ne.symm same)] at present
      simp only [improve, if_neg same, SortedMap.lookup_cons_eq_ite, ih present]
      by_cases here : other = head
      · simp [here, same]
      · simp [here]

theorem records_append (absent : reached.lookup id = none) : Records reached id path (reached ++ [(id, path)]) := by
  intro other
  rw [List.lookup_append, SortedMap.lookup_cons_eq_ite, List.lookup_nil]
  by_cases same : other = id
  · simp [same, absent]
  · simp [same]

/-- A path to a node of at most some length is kept or pending. -/
def Covered (reached pending : Reached) (target : NodeId) (bound : Nat) : Prop :=
  ∃ path : PropagationPath, path.length ≤ bound ∧ (reached.lookup target = some path ∨ (target, path) ∈ pending)

/-- Keeping the first pending path uncovers nothing, since it replaces a longer one at most. -/
theorem Covered.record (covered : Covered reached ((id, path) :: rest) target bound)
    (records : Records reached id path later)
    (improves : ∀ known, reached.lookup id = some known → path.length ≤ known.length) :
    Covered later (more ++ rest) target bound := by
  obtain ⟨short, within, isKept | isPending⟩ := covered
  · by_cases same : target = id
    · subst same
      exact ⟨path, Nat.le_trans (improves short isKept) within, .inl (by rw [records, if_pos rfl])⟩
    · exact ⟨short, within, .inl (by rw [records, if_neg same, isKept])⟩
  · rcases List.mem_cons.mp isPending with first | behind
    · obtain ⟨rfl, rfl⟩ := Prod.mk.inj first
      exact ⟨short, within, .inl (by rw [records, if_pos rfl])⟩
    · exact ⟨short, within, .inr (List.mem_append_right _ behind)⟩

/-- Dropping the first pending path uncovers nothing if a path that is no longer is kept. -/
theorem Covered.drop (covered : Covered reached ((id, path) :: rest) target bound)
    (present : reached.lookup id = some known) (shorter : known.length ≤ path.length) :
    Covered reached rest target bound := by
  obtain ⟨short, within, isKept | isPending⟩ := covered
  · exact ⟨short, within, .inl isKept⟩
  · rcases List.mem_cons.mp isPending with first | behind
    · obtain ⟨rfl, rfl⟩ := Prod.mk.inj first
      exact ⟨known, Nat.le_trans shorter within, .inl present⟩
    · exact ⟨short, within, .inr behind⟩

end Reached

@[simp] theorem PropagationPath.length_extend {path : PropagationPath} {index : Nat} {id : NodeId} :
    (path.extend index id).length = path.length + 1 := by
  simp [PropagationPath.length, PropagationPath.extend]

namespace DataFlowGraph
open Reached
variable {flow : DataFlowGraph} {fresh : List NodeId} {reached later pending rest : Reached}
  {root id : NodeId} {path known : PropagationPath}

def HandsTo (flow : DataFlowGraph) (source target : NodeId) : Prop :=
  ∃ edge ∈ flow.edges, edge.source = source ∧ edge.target = target ∧ flow.handsOn edge = true

theorem handsOn_iff {edge : FlowEdge} : flow.handsOn edge = true ↔
    edge.kind = .funcObjToRetVal ∨ edge.kind = .parentToChild ∧ flow.isBuiltin edge.target = false := by
  unfold handsOn
  cases edge.kind <;> simp

/-- The paths that can be followed from a root, with the nodes at which they end. -/
inductive Follows (flow : DataFlowGraph) (root : NodeId) : NodeId → PropagationPath → Prop where
  | start : Follows flow root root (.start root)
  | extend {id : NodeId} {path : PropagationPath} {edge : FlowEdge} {index : Nat} : Follows flow root id path →
      (edge, index) ∈ flow.outEdges id → flow.handsOn edge = true →
      Follows flow root edge.target (path.extend index edge.target)

theorem mem_outEdges_iff {edge : FlowEdge} {index : Nat} :
    (edge, index) ∈ flow.outEdges id ↔ flow.edges[index]? = some edge ∧ edge.source = id := by
  simp only [outEdges, List.mem_filter, List.mem_zipIdx_iff_getElem?, beq_iff_eq]

theorem mem_outEdges_source {edge : FlowEdge} {index : Nat} (leaves : (edge, index) ∈ flow.outEdges id) :
    edge ∈ flow.edges ∧ edge.source = id := by
  obtain ⟨found, source⟩ := mem_outEdges_iff.mp leaves
  exact ⟨List.mem_of_getElem? found, source⟩

theorem Follows.reaches (follows : flow.Follows root id path) : Relation.ReflTransGen flow.HandsTo root id := by
  induction follows with
  | start => exact .refl
  | extend _ leaves handsOn ih =>
    obtain ⟨member, source⟩ := mem_outEdges_source leaves
    exact ih.tail ⟨_, member, source, rfl, handsOn⟩

theorem exists_mem_outEdges {edge : FlowEdge} (member : edge ∈ flow.edges) (source : edge.source = id) :
    ∃ index, (edge, index) ∈ flow.outEdges id := by
  obtain ⟨index, found⟩ := List.mem_iff_getElem?.mp member
  exact ⟨index, mem_outEdges_iff.mpr ⟨found, source⟩⟩

theorem exists_follows (handed : Relation.ReflTransGen flow.HandsTo root id) : ∃ path, flow.Follows root id path := by
  induction handed with
  | refl => exact ⟨_, .start⟩
  | tail _ hands ih =>
    obtain ⟨path, follows⟩ := ih
    obtain ⟨edge, member, source, rfl, handsOn⟩ := hands
    obtain ⟨index, leaves⟩ := exists_mem_outEdges member source
    exact ⟨_, .extend follows leaves handsOn⟩

theorem mem_extensions {entry : NodeId × PropagationPath} : entry ∈ flow.extensions reached id path ↔
    ∃ edge index, (edge, index) ∈ flow.outEdges id ∧ flow.handsOn edge = true ∧
      (∀ known, reached.lookup edge.target = some known → path.length + 1 < known.length) ∧
      entry = (edge.target, path.extend index edge.target) := by
  simp only [extensions, List.mem_reverse, List.mem_map, List.mem_filter, Bool.and_eq_true, Option.all_eq_true,
    decide_eq_true_eq, Prod.exists, and_assoc, eq_comm (b := entry)]

section Soundness

/-- All paths that are kept or pending can be followed from a root. -/
structure Sound (flow : DataFlowGraph) (root : NodeId) (reached pending : Reached) : Prop where
  kept : ∀ id path, reached.lookup id = some path → flow.Follows root id path
  waiting : ∀ entry ∈ pending, flow.Follows root entry.1 entry.2

theorem Sound.drop (sound : flow.Sound root reached ((id, path) :: rest)) : flow.Sound root reached rest :=
  ⟨sound.kept, fun entry behind => sound.waiting entry (List.mem_cons_of_mem _ behind)⟩

/-- Keeping the first pending path, and going on from it, is sound. -/
theorem Sound.record (sound : flow.Sound root reached ((id, path) :: rest)) (records : Records reached id path later) :
    flow.Sound root later (flow.extensions later id path ++ rest) where
  kept other way present := by
    rw [records] at present
    split at present
    next same =>
      cases present
      exact same ▸ sound.waiting _ List.mem_cons_self
    next => exact sound.kept other way present
  waiting entry member := by
    rcases List.mem_append.mp member with isNew | behind
    · obtain ⟨edge, index, leaves, handsOn, -, rfl⟩ := mem_extensions.mp isNew
      exact .extend (sound.waiting _ List.mem_cons_self) leaves handsOn
    · exact sound.waiting entry (List.mem_cons_of_mem _ behind)

theorem sound_spreadOver (sound : flow.Sound root reached pending) :
    flow.Sound root (flow.spreadOver fresh reached pending) [] := by
  fun_induction spreadOver flow fresh reached pending with
  | case1 fresh reached => exact sound
  | case2 fresh reached first way rest known present shorter improved ih => exact ih (sound.record (records_improve present))
  | case3 fresh reached first way rest known present longer ih => exact ih sound.drop
  | case4 fresh reached first way rest absent isFresh grown ih => exact ih (sound.record (records_append absent))
  | case5 fresh reached first way rest absent stale ih => exact ih sound.drop

theorem follows_of_lookup_spreadFrom (found : (flow.spreadFrom root).lookup id = some path) :
    flow.Follows root id path := by
  have started : flow.Sound root [] [(root, .start root)] := by
    refine ⟨fun other way absent => ?_, fun entry waiting => ?_⟩
    · simp at absent
    · rw [List.mem_singleton.mp waiting]
      exact .start
  exact (sound_spreadOver started).kept id path found

end Soundness

section Completeness

/-- What following the pending paths keeps: a node is fresh until it is reached, only nodes of the graph
are pending, and what a kept path hands on to is covered. -/
structure Searching (flow : DataFlowGraph) (fresh : List NodeId) (reached pending : Reached) : Prop where
  seen : ∀ id ∈ flow.ids, id ∈ fresh ∨ (reached.lookup id).isSome
  inside : ∀ entry ∈ pending, entry.1 ∈ flow.ids
  expanded : ∀ id path, reached.lookup id = some path → ∀ edge ∈ flow.edges, edge.source = id →
    flow.handsOn edge = true → Covered reached pending edge.target (path.length + 1)

/-- Whatever is handed on from a path that was just kept is covered: by a kept path, or by the path that
goes on. -/
theorem covered_extensions {edge : FlowEdge} (member : edge ∈ flow.edges)
    (source : edge.source = id) (handsOn : flow.handsOn edge = true) :
    Covered later (flow.extensions later id path ++ rest) edge.target (path.length + 1) := by
  by_cases improves : ∀ known, later.lookup edge.target = some known → path.length + 1 < known.length
  · obtain ⟨index, leaves⟩ := exists_mem_outEdges member source
    refine ⟨path.extend index edge.target, ?_, .inr (List.mem_append_left _
      (mem_extensions.mpr ⟨edge, index, leaves, handsOn, improves, rfl⟩))⟩
    exact Nat.le_of_eq PropagationPath.length_extend
  · simp only [not_forall, Nat.not_lt] at improves
    obtain ⟨known, found, within⟩ := improves
    exact ⟨known, within, .inl found⟩

theorem Searching.record (closed : ∀ edge ∈ flow.edges, edge.target ∈ flow.ids)
    (searching : flow.Searching fresh reached ((id, path) :: rest)) (records : Records reached id path later)
    (improves : ∀ known, reached.lookup id = some known → path.length ≤ known.length) {left : List NodeId}
    (taken : ∀ other ∈ fresh, other = id ∨ other ∈ left) :
    flow.Searching left later (flow.extensions later id path ++ rest) where
  seen other member := by
    rw [records]
    by_cases same : other = id
    · exact .inr (by simp [same])
    · rw [if_neg same]
      exact (searching.seen other member).imp_left fun isFresh => (taken other isFresh).resolve_left same
  inside entry member := by
    rcases List.mem_append.mp member with isNew | behind
    · obtain ⟨edge, index, leaves, -, -, rfl⟩ := mem_extensions.mp isNew
      exact closed edge (mem_outEdges_source leaves).1
    · exact searching.inside entry (List.mem_cons_of_mem _ behind)
  expanded other way present edge member source handsOn := by
    have found := present
    rw [records] at found
    split at found
    next same =>
      cases found
      subst same
      exact covered_extensions member source handsOn
    next => exact (searching.expanded other way found edge member source handsOn).record records improves

theorem Searching.drop (searching : flow.Searching fresh reached ((id, path) :: rest))
    (present : reached.lookup id = some known) (shorter : known.length ≤ path.length) :
    flow.Searching fresh reached rest where
  seen := searching.seen
  inside entry behind := searching.inside entry (List.mem_cons_of_mem _ behind)
  expanded other way found edge member source handsOn :=
    (searching.expanded other way found edge member source handsOn).drop present shorter

/-- In the end nothing is pending, and all that was covered is covered by a kept path. -/
theorem searching_spreadOver (closed : ∀ edge ∈ flow.edges, edge.target ∈ flow.ids)
    (searching : flow.Searching fresh reached pending) :
    (∃ left, flow.Searching left (flow.spreadOver fresh reached pending) []) ∧
      ∀ target bound, Covered reached pending target bound →
        Covered (flow.spreadOver fresh reached pending) [] target bound := by
  fun_induction spreadOver flow fresh reached pending with
  | case1 fresh reached => exact ⟨⟨fresh, searching⟩, fun _ _ covered => covered⟩
  | case2 fresh reached first way rest known present shorter improved ih =>
    have improves : ∀ known, reached.lookup first = some known → way.length ≤ known.length := by
      intro other found
      cases present.symm.trans found
      exact Nat.le_of_lt shorter
    obtain ⟨finished, covers⟩ := ih (searching.record closed (records_improve present) improves fun _ => .inr)
    exact ⟨finished, fun target bound covered => covers target bound (covered.record (records_improve present) improves)⟩
  | case3 fresh reached first way rest known present longer ih =>
    obtain ⟨finished, covers⟩ := ih (searching.drop present (Nat.not_lt.mp longer))
    exact ⟨finished, fun target bound covered => covers target bound (covered.drop present (Nat.not_lt.mp longer))⟩
  | case4 fresh reached first way rest absent isFresh grown ih =>
    have improves : ∀ known, reached.lookup first = some known → way.length ≤ known.length := by
      intro other found
      cases absent.symm.trans found
    have taken : ∀ other ∈ fresh, other = first ∨ other ∈ fresh.erase first := by
      intro other member
      by_cases same : other = first
      · exact .inl same
      · exact .inr ((List.mem_erase_of_ne same).mpr member)
    obtain ⟨finished, covers⟩ := ih (searching.record closed (records_append absent) improves taken)
    exact ⟨finished, fun target bound covered => covers target bound (covered.record (records_append absent) improves)⟩
  | case5 fresh reached first way rest absent stale ih =>
    -- A pending node is fresh or reached, so this branch is never taken.
    rcases searching.seen first (searching.inside _ List.mem_cons_self) with isFresh | isReached
    · exact absurd isFresh stale
    · simp [absent] at isReached

theorem searching_start (present : root ∈ flow.ids) : flow.Searching flow.ids [] [(root, .start root)] where
  seen _ member := .inl member
  inside entry waiting := by
    rw [List.mem_singleton.mp waiting]
    exact present
  expanded other way found := by simp at found

/-- The path that is kept for a node is no longer than any path that can be followed to it. -/
theorem exists_lookup_spreadFrom (closed : ∀ edge ∈ flow.edges, edge.target ∈ flow.ids) (present : root ∈ flow.ids)
    (follows : flow.Follows root id path) :
    ∃ known, (flow.spreadFrom root).lookup id = some known ∧ known.length ≤ path.length := by
  obtain ⟨⟨left, searching⟩, covers⟩ := searching_spreadOver closed (searching_start present)
  have isKept : ∀ {target bound}, Covered (flow.spreadFrom root) [] target bound →
      ∃ known, (flow.spreadFrom root).lookup target = some known ∧ known.length ≤ bound := by
    intro target bound covered
    obtain ⟨known, within, found | waiting⟩ := covered
    · exact ⟨known, found, within⟩
    · simp at waiting
  induction follows with
  | start => exact isKept (covers root 1 ⟨.start root, Nat.le_refl 1, .inr List.mem_cons_self⟩)
  | @extend _ path edge index _ leaves handsOn ih =>
    obtain ⟨known, found, shorter⟩ := ih
    obtain ⟨member, source⟩ := mem_outEdges_source leaves
    obtain ⟨further, foundToo, within⟩ := isKept (searching.expanded _ known found edge member source handsOn)
    refine ⟨further, foundToo, ?_⟩
    rw [PropagationPath.length_extend]
    omega

/-- The domain of a node reaches exactly the nodes to which it is handed on. -/
theorem isSome_lookup_spreadFrom (closed : ∀ edge ∈ flow.edges, edge.target ∈ flow.ids) (present : root ∈ flow.ids) :
    ((flow.spreadFrom root).lookup id).isSome ↔ Relation.ReflTransGen flow.HandsTo root id := by
  constructor
  · intro reached
    obtain ⟨path, found⟩ := Option.isSome_iff_exists.mp reached
    exact (follows_of_lookup_spreadFrom found).reaches
  · intro handed
    obtain ⟨path, follows⟩ := exists_follows handed
    obtain ⟨known, found, -⟩ := exists_lookup_spreadFrom closed present follows
    exact Option.isSome_of_eq_some found

end Completeness

end DataFlowGraph

section Assigned
variable {flow : DataFlowGraph} {builtinsDirectory : Option String} {id : NodeId}

/-- Looking up in the assignment finds what a node has by itself. -/
theorem DirectDomains.get?_assign :
    (DirectDomains.assign flow builtinsDirectory).get? id = flow.domain? builtinsDirectory id := by
  have listed : ∀ ids : List NodeId, (ids.filterMap fun other => (flow.domain? builtinsDirectory other).map
      fun domain => (other, domain)).lookup id = if id ∈ ids then flow.domain? builtinsDirectory id else none := by
    intro ids
    induction ids with
    | nil => rfl
    | cons first rest ih =>
      by_cases same : id = first
      · subst same
        cases own : flow.domain? builtinsDirectory id with
        | none => simp [own, ih]
        | some domain => simp [own]
      · cases own : flow.domain? builtinsDirectory first with
        | none => simp [own, ih, same]
        | some domain => simp [own, ih, same, SortedMap.lookup_cons_eq_ite]
  rw [get?, assign, listed]
  split
  next => rfl
  next absent =>
    have noObject : flow.object? id = none := by
      rw [DataFlowGraph.mem_ids_iff, Option.not_isSome_iff_eq_none] at absent
      rw [DataFlowGraph.object?, absent]
      rfl
    rw [DataFlowGraph.domain?, noObject]
    rfl

theorem DataFlowGraph.mem_ids_of_domain? {domain : Domain} (found : flow.domain? builtinsDirectory id = some domain) :
    id ∈ flow.ids := by
  obtain ⟨object, isObject, -⟩ := Option.bind_eq_some_iff.mp found
  obtain ⟨node, present, -⟩ := DataFlowGraph.object?_eq_some_iff.mp isObject
  exact DataFlowGraph.mem_ids_iff.mpr (Option.isSome_of_eq_some present)

/-- What has reached a node: the domains that other nodes have by themselves, unless they are confined. -/
theorem mem_arrivals_spread {arrival : Arrival} :
    arrival ∈ (Propagation.spread flow (DirectDomains.assign flow builtinsDirectory)).arrivals id ↔
      flow.domain? builtinsDirectory arrival.root = some arrival.domain ∧
        Propagation.isConfined arrival.domain = false ∧
        (flow.spreadFrom arrival.root).lookup id = some arrival.path := by
  obtain ⟨domain, root, path⟩ := arrival
  have isRoot : ∀ first own, (first, own) ∈ (DirectDomains.assign flow builtinsDirectory).roots ↔
      flow.domain? builtinsDirectory first = some own := by
    intro first own
    simp only [DirectDomains.assign, List.mem_filterMap, Option.map_eq_some_iff, Prod.mk.injEq]
    constructor
    · intro listed
      obtain ⟨other, -, label, found, rfl, rfl⟩ := listed
      exact found
    · intro found
      exact ⟨first, DataFlowGraph.mem_ids_of_domain? found, own, found, rfl, rfl⟩
  simp only [Propagation.arrivals, Propagation.spread, List.mem_filterMap, List.mem_map, List.mem_filter,
    Option.map_eq_some_iff, Bool.not_eq_eq_eq_not, Bool.not_true, Arrival.mk.injEq, Prod.exists, isRoot]
  constructor
  · intro arrived
    obtain ⟨spread, ⟨first, own, ⟨found, free⟩, rfl⟩, way, reached, rfl, rfl, rfl⟩ := arrived
    exact ⟨found, free, reached⟩
  · intro arrived
    obtain ⟨found, free, reached⟩ := arrived
    exact ⟨_, ⟨root, domain, ⟨found, free⟩, rfl⟩, path, reached, rfl, rfl, rfl⟩

end Assigned

end DomainFlow
