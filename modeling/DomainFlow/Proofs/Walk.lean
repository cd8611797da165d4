import DomainFlow.Proofs.FlowGraph
import DomainFlow.Relation.Build
import Mathlib.Logic.Relation

/-!
Which nodes the walks of one domain visit. The walks of a domain share what they have seen, so a walk
may stop at once. Nothing is lost: after each walk, what has been seen is closed under the flow of data.
-/
namespace DomainFlow

namespace DataFlowGraph
variable {flow : DataFlowGraph} {domains : DirectDomains} {unseen seen : List NodeId} {queue : List Visit}
  {visit : Visit} {root node target : NodeId}

/-- Data flows from one node to another: over a contribution, to a returned value, or to a property
that is not one that every object has. -/
def Carries (flow : DataFlowGraph) (source target : NodeId) : Prop :=
  ∃ edge ∈ flow.edges, edge.source = source ∧ edge.target = target ∧
    (edge.kind = .contributesTo ∨ edge.kind = .funcObjToRetVal ∨
      edge.kind = .parentToChild ∧ ∀ name, edge.label = some name → name ∉ inheritedProperties)

/-- Data flows into a node at which it can go on. -/
def FlowsInto (flow : DataFlowGraph) (source target : NodeId) : Prop :=
  flow.Carries source target ∧ flow.isWalkable target = true

/-- Data reaches one node from another on a way on which no node loads modules. -/
def DataReaches (flow : DataFlowGraph) (source target : NodeId) : Prop :=
  flow.isWalkable source = true ∧ Relation.ReflTransGen flow.FlowsInto source target

/-- The nodes with data flow into each other only. -/
def Closed (flow : DataFlowGraph) (nodes : List NodeId) : Prop :=
  ∀ node ∈ nodes, ∀ target, flow.FlowsInto node target → target ∈ nodes

theorem carriesData_iff {edge : FlowEdge} : carriesData edge = true ↔
    edge.kind = .contributesTo ∨ edge.kind = .funcObjToRetVal ∨
      edge.kind = .parentToChild ∧ ∀ name, edge.label = some name → name ∉ inheritedProperties := by
  unfold carriesData
  cases edge.kind <;> cases edge.label <;> simp

theorem mem_flowTargets : target ∈ flow.flowTargets node ↔ flow.Carries node target := by
  simp only [flowTargets, List.mem_map, List.mem_filter, Bool.and_eq_true, beq_iff_eq, carriesData_iff, Carries]
  constructor
  · intro listed
    obtain ⟨edge, ⟨member, source, carries⟩, same⟩ := listed
    exact ⟨edge, member, source, same, carries⟩
  · intro carries
    obtain ⟨edge, member, source, same, kinds⟩ := carries
    exact ⟨edge, ⟨member, source, kinds⟩, same⟩

theorem isWalkable_iff : flow.isWalkable node = true ↔
    ∃ object, flow.object? node = some object ∧ object.nativeFunction ≠ some FlowObject.moduleLoader := by
  simp [isWalkable, FlowObject.isModuleLoader, Option.any_eq_true]

theorem mem_ids_of_isWalkable (walkable : flow.isWalkable node = true) : node ∈ flow.ids := by
  obtain ⟨object, found, -⟩ := isWalkable_iff.mp walkable
  obtain ⟨record, present, -⟩ := object?_eq_some_iff.mp found
  rw [mem_ids_iff, present]
  rfl

theorem DataReaches.isWalkable_target (reaches : flow.DataReaches root node) : flow.isWalkable node = true := by
  rcases Relation.ReflTransGen.cases_tail reaches.2 with same | ⟨_, -, flows⟩
  · exact same ▸ reaches.1
  · exact flows.2

theorem closed_nil : flow.Closed [] := fun _ member => absurd member List.not_mem_nil

theorem Closed.reaches (closed : flow.Closed seen) (member : node ∈ seen)
    (reached : Relation.ReflTransGen flow.FlowsInto node target) : target ∈ seen := by
  induction reached with
  | refl => exact member
  | tail _ flows ih => exact closed _ ih _ flows

section Breadth

theorem mem_walkOver_of_queue {start : Visit} (waiting : start ∈ queue) (fresh : start.node ∈ unseen)
    (walkable : flow.isWalkable start.node = true) :
    start.node ∈ (flow.walkOver unseen queue).map Visit.node := by
  fun_induction walkOver flow unseen queue with
  | case1 => simp at waiting
  | case2 unseen first rest enters remaining ih =>
    rw [List.map_cons, List.mem_cons]
    by_cases same : start.node = first.node
    · exact .inl same
    · have behind : start ∈ rest := (List.mem_cons.mp waiting).resolve_left fun equal => same (equal ▸ rfl)
      exact .inr (ih (List.mem_append_left _ behind) ((List.mem_erase_of_ne same).mpr fresh))
  | case3 unseen first rest stays ih =>
    have different : start ≠ first := fun equal => stays (equal ▸ ⟨fresh, walkable⟩)
    exact ih ((List.mem_cons.mp waiting).resolve_left different) fresh

/-- Whatever data flows into from a visited node is visited too, unless it was seen before. -/
theorem mem_walkOver_of_flowsInto (visited : node ∈ (flow.walkOver unseen queue).map Visit.node)
    (flows : flow.FlowsInto node target) (fresh : target ∈ unseen) :
    target ∈ (flow.walkOver unseen queue).map Visit.node := by
  fun_induction walkOver flow unseen queue with
  | case1 => simp at visited
  | case2 unseen first rest enters remaining ih =>
    rw [List.map_cons, List.mem_cons] at visited ⊢
    by_cases same : target = first.node
    · exact .inl same
    · have left : target ∈ remaining := (List.mem_erase_of_ne same).mpr fresh
      rcases visited with atFirst | later
      · have follows : (⟨target, first.path ++ [target]⟩ : Visit) ∈ flow.nextVisits remaining first := by
          rw [nextVisits, List.mem_map]
          refine ⟨target, List.mem_filter.mpr ⟨mem_flowTargets.mpr (atFirst ▸ flows.1), ?_⟩, rfl⟩
          exact List.contains_iff_mem.mpr left
        exact .inr (mem_walkOver_of_queue (List.mem_append_right _ follows) left flows.2)
      · exact .inr (ih later left)
  | case3 unseen first rest stays ih => exact ih visited fresh

theorem reachable_of_mem_walkOver (member : visit ∈ flow.walkOver unseen queue) :
    ∃ start ∈ queue, flow.DataReaches start.node visit.node := by
  fun_induction walkOver flow unseen queue with
  | case1 => simp at member
  | case2 unseen first rest enters remaining ih =>
    rcases List.mem_cons.mp member with same | later
    · exact ⟨first, List.mem_cons_self, enters.2, same ▸ .refl⟩
    · obtain ⟨start, waiting, walkable, reached⟩ := ih later
      rcases List.mem_append.mp waiting with behind | follows
      · exact ⟨start, List.mem_cons_of_mem _ behind, walkable, reached⟩
      · rw [nextVisits, List.mem_map] at follows
        obtain ⟨next, isNext, same⟩ := follows
        have carries := mem_flowTargets.mp (List.mem_filter.mp isNext).1
        subst same
        exact ⟨first, List.mem_cons_self, enters.2, .head ⟨carries, walkable⟩ reached⟩
  | case3 unseen first rest stays ih =>
    obtain ⟨start, waiting, reached⟩ := ih member
    exact ⟨start, List.mem_cons_of_mem _ waiting, reached⟩

end Breadth

section Shared
variable {revisit : Bool}

/-- What a walk has visited, together with what was seen before. -/
def seenAfter (flow : DataFlowGraph) (seen : List NodeId) (root : NodeId) (revisit : Bool) : List NodeId :=
  (flow.walkFrom seen root revisit).map Visit.node ++ seen

theorem reachable_of_mem_walkFrom (member : visit ∈ flow.walkFrom seen root revisit) :
    flow.DataReaches root visit.node := by
  obtain ⟨start, waiting, reached⟩ := reachable_of_mem_walkOver member
  rw [List.mem_singleton.mp waiting] at reached
  exact reached

theorem mem_unseen (walkable : flow.isWalkable node = true) (fresh : node ∉ seen) :
    node ∈ if revisit && seen.contains root then root :: flow.ids.filter fun id => !seen.contains id
      else flow.ids.filter fun id => !seen.contains id := by
  have member : node ∈ flow.ids.filter fun id => !seen.contains id :=
    List.mem_filter.mpr ⟨mem_ids_of_isWalkable walkable, by simpa using fresh⟩
  split
  · exact List.mem_cons_of_mem _ member
  · exact member

theorem root_mem_seenAfter (walkable : flow.isWalkable root = true) : root ∈ flow.seenAfter seen root revisit := by
  rw [seenAfter, List.mem_append]
  by_cases before : root ∈ seen
  · exact .inr before
  · have waiting : (⟨root, [root]⟩ : Visit) ∈ [(⟨root, [root]⟩ : Visit)] := List.mem_cons_self
    exact .inl (mem_walkOver_of_queue waiting (mem_unseen walkable before) walkable)

/-- A walk leaves what has been seen closed. -/
theorem closed_seenAfter (closed : flow.Closed seen) : flow.Closed (flow.seenAfter seen root revisit) := by
  intro node member target flows
  rw [seenAfter, List.mem_append] at member ⊢
  rcases member with visited | before
  · by_cases seenTarget : target ∈ seen
    · exact .inr seenTarget
    · exact .inl (mem_walkOver_of_flowsInto visited flows (mem_unseen flows.2 seenTarget))
  · exact .inr (closed node before target flows)

end Shared

section Walks
variable {seenBy : Domain → List NodeId} {entries : List (NodeId × FlowObject)} {domain : Domain}
  {visits : List Visit} {object : FlowObject}

/-- The walks of a domain start from objects that have it, after walks that have seen a closed set of nodes. -/
theorem exists_walkFrom_of_mem_walks (closed : ∀ other, flow.Closed (seenBy other))
    (member : (domain, visits) ∈ flow.walks domains seenBy entries) :
    ∃ root seen revisit, domains.get? root = some domain ∧ domain ≠ Domain.dynamicRequire ∧ flow.Closed seen ∧
      visits = flow.walkFrom seen root revisit := by
  fun_induction walks flow domains seenBy entries with
  | case1 => simp at member
  | case2 seenBy id object rest none ih => exact ih closed member
  | case3 seenBy id object rest other found skipped ih => exact ih closed member
  | case4 seenBy id object rest other found kept walked known ih =>
    rcases List.mem_cons.mp member with same | later
    · obtain ⟨rfl, rfl⟩ := Prod.mk.inj same
      simp only [Bool.or_eq_true, beq_iff_eq, not_or] at kept
      exact ⟨id, seenBy domain, _, found, kept.1, closed domain, rfl⟩
    · have closedNext : ∀ another, flow.Closed (if another = other then known else seenBy another) := by
        intro another
        split
        · exact closed_seenAfter (closed other)
        · exact closed another
      exact ih closedNext later

theorem isModuleLoader_of_reaches (isObject : flow.object? root = some object)
    (reaches : flow.DataReaches root node) : object.isModuleLoader = false := by
  obtain ⟨other, found, opens⟩ := isWalkable_iff.mp reaches.1
  rw [isObject] at found
  cases found
  simpa [FlowObject.isModuleLoader] using opens

/-- What the data of an object reaches is visited for its domain, by its own walk or by another one. -/
theorem visited_of_reaches (closed : ∀ other, flow.Closed (seenBy other)) (listed : (root, object) ∈ entries)
    (found : domains.get? root = some domain) (spreads : domain ≠ Domain.dynamicRequire)
    (isObject : flow.object? root = some object) (reaches : flow.DataReaches root node) :
    node ∈ seenBy domain ∨ ∃ visits, (domain, visits) ∈ flow.walks domains seenBy entries ∧
      node ∈ visits.map Visit.node := by
  fun_induction walks flow domains seenBy entries with
  | case1 => simp at listed
  | case2 seenBy id first rest absent ih =>
    have later : (root, object) ∈ rest := by
      refine (List.mem_cons.mp listed).resolve_left fun same => ?_
      obtain ⟨sameNode, -⟩ := Prod.mk.inj same
      rw [← sameNode, found] at absent
      cases absent
    exact ih closed later
  | case3 seenBy id first rest other present skipped ih =>
    have later : (root, object) ∈ rest := by
      refine (List.mem_cons.mp listed).resolve_left fun same => ?_
      obtain ⟨sameNode, sameObject⟩ := Prod.mk.inj same
      rw [← sameNode, found] at present
      cases present
      rw [← sameObject, isModuleLoader_of_reaches isObject reaches] at skipped
      simp [spreads] at skipped
    exact ih closed later
  | case4 seenBy id first rest other present kept walked known ih =>
    have closedNext : ∀ another, flow.Closed (if another = other then known else seenBy another) := by
      intro another
      split
      · exact closed_seenAfter (closed other)
      · exact closed another
    -- What the walk from this entry sees counts as seen for the entries behind it.
    have visitedHere : node ∈ known → domain = other → node ∈ seenBy domain ∨
        ∃ visits, (domain, visits) ∈ (other, walked) :: flow.walks domains
          (fun another => if another = other then known else seenBy another) rest ∧ node ∈ visits.map Visit.node := by
      intro member same
      rcases List.mem_append.mp member with visited | before
      · exact .inr ⟨walked, same ▸ List.mem_cons_self, visited⟩
      · exact .inl (same ▸ before)
    rcases List.mem_cons.mp listed with same | later
    · obtain ⟨sameNode, -⟩ := Prod.mk.inj same
      rw [← sameNode, found] at present
      have sameDomain := Option.some.inj present
      have rootSeen : root ∈ known := sameNode ▸ root_mem_seenAfter (sameNode ▸ reaches.1)
      exact visitedHere ((closed_seenAfter (closed other)).reaches rootSeen reaches.2) sameDomain
    · rcases ih closedNext later with before | ⟨visits, member, visited⟩
      · by_cases same : domain = other
        · simp only [if_pos same] at before
          exact visitedHere before same
        · simp only [if_neg same] at before
          exact .inl before
      · exact .inr ⟨visits, List.mem_cons_of_mem _ member, visited⟩

end Walks

end DataFlowGraph

end DomainFlow
