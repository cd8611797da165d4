import Mathlib.Data.List.Chain
import DomainFlow.Proofs.Walk

/-!
The ways of visits are shortest. A walk takes pending visits in the order of the lengths of their ways, and
every way to a node that is not seen yet passes a pending visit that comes no later on it. Nodes that
earlier walks have seen cut no way off, since no way leads out of them.
-/
namespace DomainFlow

theorem exists_append_of_last_mem {α : Type} {list : List α} {value : α} (member : value ∈ list) :
    ∃ before after, list = before ++ value :: after ∧ value ∉ after := by
  obtain ⟨after, before, split, absent⟩ := List.eq_append_cons_of_mem (List.mem_reverse.mpr member)
  refine ⟨before.reverse, after.reverse, ?_, by simpa using absent⟩
  rw [← List.reverse_reverse list, split]
  simp

namespace DataFlowGraph
variable {flow : DataFlowGraph} {unseen seen : List NodeId} {queue rest : List Visit}
  {visit first : Visit} {root id node target : NodeId} {way : List NodeId}

/-- The nodes of a way from one node to another on which data flows: each node carries data to the next
one, and all are objects that do not load modules. -/
structure DataWay (flow : DataFlowGraph) (root id : NodeId) (way : List NodeId) : Prop where
  first : way.head? = some root
  last : way.getLast? = some id
  carries : way.IsChain flow.Carries
  walkable : ∀ node ∈ way, flow.isWalkable node = true

/-- A way with the least number of nodes. -/
structure ShortestWay (flow : DataFlowGraph) (root id : NodeId) (way : List NodeId) : Prop where
  leads : flow.DataWay root id way
  least : ∀ other, flow.DataWay root id other → way.length ≤ other.length

namespace DataWay

theorem start (walkable : flow.isWalkable root = true) : flow.DataWay root root [root] where
  first := rfl
  last := rfl
  carries := .singleton root
  walkable node member := by rw [List.mem_singleton.mp member, walkable]

theorem append (leads : flow.DataWay root id way) (carries : flow.Carries id target)
    (walkable : flow.isWalkable target = true) : flow.DataWay root target (way ++ [target]) where
  first := by rw [List.head?_append, leads.first, Option.some_or]
  last := List.getLast?_concat
  carries := by
    refine leads.carries.append (.singleton target) ?_
    intro final isFinal next isNext
    rw [leads.last] at isFinal
    cases isFinal
    cases isNext
    exact carries
  walkable node member := by
    rcases List.mem_append.mp member with earlier | same
    · exact leads.walkable node earlier
    · rw [List.mem_singleton.mp same, walkable]

theorem nonempty (leads : flow.DataWay root id way) : 0 < way.length := by
  apply List.length_pos_of_ne_nil
  intro empty
  have first := leads.first
  rw [empty] at first
  cases first

theorem root_mem (leads : flow.DataWay root id way) : root ∈ way := List.mem_of_head? leads.first

theorem suffix {before after : List NodeId} (leads : flow.DataWay root id (before ++ node :: after)) :
    flow.DataWay node id (node :: after) where
  first := rfl
  last := by
    rw [← leads.last, List.getLast?_append_cons]
  carries := leads.carries.right_of_append
  walkable other member := leads.walkable other (List.mem_append_right _ member)

/-- A way that goes on carries data to its second node, and is a way from there. -/
theorem next {after : List NodeId} (leads : flow.DataWay root id (root :: after)) (different : root ≠ id) :
    ∃ second, flow.Carries root second ∧ flow.DataWay second id after := by
  cases after with
  | nil =>
    have same : root = id := by simpa using leads.last
    exact absurd same different
  | cons second behind =>
    have whole : flow.DataWay root id ([root] ++ second :: behind) := leads
    exact ⟨second, (List.isChain_cons_cons.mp leads.carries).1, whole.suffix⟩

theorem reaches (leads : flow.DataWay root id way) : Relation.ReflTransGen flow.FlowsInto root id := by
  induction way generalizing root with
  | nil => cases leads.first
  | cons head after ih =>
    cases leads.first
    by_cases same : head = id
    · exact same ▸ .refl
    · obtain ⟨second, carries, behind⟩ := leads.next same
      exact .head ⟨carries, behind.walkable second behind.root_mem⟩ (ih behind)

theorem reaches_of_mem (leads : flow.DataWay root id way) (member : node ∈ way) :
    Relation.ReflTransGen flow.FlowsInto node id := by
  obtain ⟨before, after, rfl⟩ := List.append_of_mem member
  exact leads.suffix.reaches

end DataWay

section Breadth

/-- Pending visits are ordered by the lengths of their ways, which differ by one at most. -/
def Ordered (queue : List Visit) : Prop :=
  queue.Pairwise fun earlier later =>
    earlier.path.length ≤ later.path.length ∧ later.path.length ≤ earlier.path.length + 1

/-- What a walk from a root keeps. No node is listed twice as not seen; pending visits have ways from the
root and are ordered; and every way to a node that is not seen yet can be exchanged for one that is no
longer, which starts with the way of a pending visit and then stays among nodes that are not seen. -/
structure Walking (flow : DataFlowGraph) (root : NodeId) (unseen : List NodeId) (queue : List Visit) : Prop where
  distinct : unseen.Nodup
  sound : ∀ visit ∈ queue, flow.isWalkable visit.node = true → flow.DataWay root visit.node visit.path
  ordered : Ordered queue
  frontier : ∀ id ∈ unseen, ∀ way, flow.DataWay root id way → ∃ visit ∈ queue, ∃ more,
    flow.DataWay visit.node id more ∧ (∀ node ∈ more, node ∈ unseen) ∧
      visit.path.length + more.length ≤ way.length + 1

theorem mem_nextVisits {next : Visit} : next ∈ flow.nextVisits unseen visit ↔
    flow.Carries visit.node next.node ∧ next.node ∈ unseen ∧ next.path = visit.path ++ [next.node] := by
  obtain ⟨target, path⟩ := next
  simp only [nextVisits, List.mem_map, List.mem_filter, mem_flowTargets, List.contains_iff_mem, Visit.mk.injEq]
  constructor
  · intro follows
    obtain ⟨other, ⟨carries, fresh⟩, rfl, rfl⟩ := follows
    exact ⟨carries, fresh, rfl⟩
  · intro follows
    obtain ⟨carries, fresh, rfl⟩ := follows
    exact ⟨target, ⟨carries, fresh⟩, rfl, rfl⟩

theorem Ordered.first_le (ordered : Ordered (first :: rest)) (member : visit ∈ first :: rest) :
    first.path.length ≤ visit.path.length := by
  rcases List.mem_cons.mp member with same | behind
  · rw [same]
  · exact ((List.pairwise_cons.mp ordered).1 visit behind).1

theorem Ordered.append_nextVisits (ordered : Ordered (first :: rest)) : Ordered (rest ++ flow.nextVisits unseen first) := by
  obtain ⟨fromFirst, behind⟩ := List.pairwise_cons.mp ordered
  have oneMore : ∀ next ∈ flow.nextVisits unseen first, next.path.length = first.path.length + 1 := by
    intro next follows
    rw [(mem_nextVisits.mp follows).2.2, List.length_append, List.length_singleton]
  refine List.pairwise_append.mpr ⟨behind, List.pairwise_of_forall_mem_list ?_, ?_⟩
  · intro earlier follows later followsToo
    have firstLength := oneMore earlier follows
    have secondLength := oneMore later followsToo
    omega
  · intro earlier waiting later follows
    have lengths := fromFirst earlier waiting
    have laterLength := oneMore later follows
    omega

namespace Walking
variable (walking : flow.Walking root unseen (first :: rest))
include walking

/-- The way of the first pending visit is a shortest one, if the visit is made. -/
theorem shortest (fresh : first.node ∈ unseen) (walkable : flow.isWalkable first.node = true) :
    flow.ShortestWay root first.node first.path where
  leads := walking.sound first List.mem_cons_self walkable
  least way leads := by
    obtain ⟨visit, waiting, more, leadsOn, -, within⟩ := walking.frontier first.node fresh way leads
    have earliest := walking.ordered.first_le waiting
    have positive := leadsOn.nonempty
    omega

theorem skip (stays : ¬(first.node ∈ unseen ∧ flow.isWalkable first.node = true)) :
    flow.Walking root unseen rest where
  distinct := walking.distinct
  sound visit behind := walking.sound visit (List.mem_cons_of_mem _ behind)
  ordered := (List.pairwise_cons.mp walking.ordered).2
  frontier id fresh way leads := by
    obtain ⟨visit, waiting, more, leadsOn, inside, within⟩ := walking.frontier id fresh way leads
    have different : visit ≠ first := by
      rintro rfl
      exact stays ⟨inside _ leadsOn.root_mem, leadsOn.walkable _ leadsOn.root_mem⟩
    exact ⟨visit, (List.mem_cons.mp waiting).resolve_left different, more, leadsOn, inside, within⟩

theorem enter (walkable : flow.isWalkable first.node = true) :
    flow.Walking root (unseen.erase first.node) (rest ++ flow.nextVisits (unseen.erase first.node) first) where
  distinct := walking.distinct.erase first.node
  sound visit member opens := by
    rcases List.mem_append.mp member with behind | follows
    · exact walking.sound visit (List.mem_cons_of_mem _ behind) opens
    · obtain ⟨carries, -, path⟩ := mem_nextVisits.mp follows
      rw [path]
      exact (walking.sound first List.mem_cons_self walkable).append carries opens
  ordered := walking.ordered.append_nextVisits
  frontier id left way leads := by
    obtain ⟨different, fresh⟩ := walking.distinct.mem_erase_iff.mp left
    obtain ⟨visit, waiting, more, leadsOn, inside, within⟩ := walking.frontier id fresh way leads
    by_cases passes : first.node ∈ more
    · -- Behind its last pass through the visited node, the way goes on from a visit that follows.
      obtain ⟨before, after, rfl, absent⟩ := exists_append_of_last_mem passes
      obtain ⟨second, carries, behind⟩ := leadsOn.suffix.next different.symm
      have remains : ∀ node ∈ after, node ∈ unseen.erase first.node := by
        intro node member
        have isUnseen := inside node (List.mem_append_right _ (List.mem_cons_of_mem _ member))
        exact walking.distinct.mem_erase_iff.mpr ⟨fun same => absent (same ▸ member), isUnseen⟩
      have follows : (⟨second, first.path ++ [second]⟩ : Visit) ∈ flow.nextVisits (unseen.erase first.node) first :=
        mem_nextVisits.mpr ⟨carries, remains second behind.root_mem, rfl⟩
      refine ⟨_, List.mem_append_right _ follows, after, behind, remains, ?_⟩
      have earliest := walking.ordered.first_le waiting
      simp only [List.length_append, List.length_cons, List.length_nil] at within ⊢
      omega
    · have elsewhere : visit ≠ first := by
        rintro rfl
        exact passes leadsOn.root_mem
      refine ⟨visit, List.mem_append_left _ ((List.mem_cons.mp waiting).resolve_left elsewhere), more, leadsOn, ?_, within⟩
      intro node member
      exact walking.distinct.mem_erase_iff.mpr ⟨fun same => passes (same ▸ member), inside node member⟩

end Walking

theorem shortest_of_mem_walkOver (walking : flow.Walking root unseen queue) (member : visit ∈ flow.walkOver unseen queue) :
    flow.ShortestWay root visit.node visit.path := by
  fun_induction walkOver flow unseen queue with
  | case1 => simp at member
  | case2 unseen first rest enters remaining ih =>
    rcases List.mem_cons.mp member with same | later
    · rw [same]
      exact walking.shortest enters.1 enters.2
    · exact ih (walking.enter enters.2) later
  | case3 unseen first rest stays ih => exact ih (walking.skip stays) member

end Breadth

section Shared
variable {revisit : Bool}

/-- A walk that starts where earlier walks have seen a closed set of nodes keeps all ways. -/
theorem walking_start (distinct : flow.ids.Nodup) (closed : flow.Closed seen) :
    flow.Walking root (if revisit && seen.contains root then root :: flow.ids.filter fun id => !seen.contains id
      else flow.ids.filter fun id => !seen.contains id) [⟨root, [root]⟩] where
  distinct := by
    split
    next again =>
      refine List.nodup_cons.mpr ⟨fun fresh => ?_, distinct.filter _⟩
      simp only [Bool.and_eq_true, List.contains_iff_mem] at again
      simp [again.2] at fresh
    next => exact distinct.filter _
  sound visit waiting walkable := by
    rw [List.mem_singleton.mp waiting] at walkable ⊢
    exact .start walkable
  ordered := List.pairwise_singleton _ _
  frontier id fresh way leads := by
    refine ⟨_, List.mem_singleton.mpr rfl, ?_⟩
    by_cases same : id = root
    · subst same
      refine ⟨[id], .start (leads.walkable id leads.root_mem), ?_, ?_⟩
      · intro node member
        rw [List.mem_singleton.mp member]
        exact fresh
      · have positive := leads.nonempty
        simp only [List.length_singleton]
        omega
    · have unknown : id ∉ seen := by
        intro known
        split at fresh
        · rcases List.mem_cons.mp fresh with isRoot | isFresh
          · exact same isRoot
          · simp [known] at isFresh
        · simp [known] at fresh
      -- A node of the way that was seen would have its end seen too.
      refine ⟨way, leads, fun node member => ?_, by simp only [List.length_singleton]; omega⟩
      refine mem_unseen (leads.walkable node member) fun known => ?_
      exact unknown (closed.reaches known (leads.reaches_of_mem member))

theorem shortest_of_mem_walkFrom (distinct : flow.ids.Nodup) (closed : flow.Closed seen)
    (member : visit ∈ flow.walkFrom seen root revisit) : flow.ShortestWay root visit.node visit.path :=
  shortest_of_mem_walkOver (walking_start distinct closed) member

end Shared

end DataFlowGraph

end DomainFlow
