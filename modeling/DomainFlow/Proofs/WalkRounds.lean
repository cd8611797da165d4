import DomainFlow.Proofs.SpreadRounds
import DomainFlow.Proofs.Walk

/-!
The rounds of a walk. The walk may enter its first node although it is seen, and would not end if it came back to it. But
that node is seen once it is entered, and only nodes that are not seen are queued; so it waits at the start only, and every
node is entered once.
-/
namespace DomainFlow

/-- Where a walk is between two rounds: the nodes that are seen, the visits that wait, and the nodes that were entered. -/
structure WalkState where
  seen : List NodeId
  queue : List Visit
  visits : List Visit

def WalkState.start (seen : List NodeId) (root : NodeId) : WalkState := ⟨seen, [⟨root, [root]⟩], []⟩

namespace DataFlowGraph

/-- The visits that follow on a visit, to nodes that are not among the seen ones. -/
def visitsBeyond (flow : DataFlowGraph) (seen : List NodeId) (visit : Visit) : List Visit :=
  ((flow.flowTargets visit.node).filter fun target => !seen.contains target).map fun target =>
    ⟨target, visit.path ++ [target]⟩

def enter (flow : DataFlowGraph) (state : WalkState) (visit : Visit) (rest : List Visit) : WalkState :=
  let seen := visit.node :: state.seen
  ⟨seen, rest ++ flow.visitsBeyond seen visit, state.visits ++ [visit]⟩

/-- One round of a walk: the first visit that waits is made, unless its node is seen or is none that a walk enters. That the
first node is seen does not count if it is to be visited again. -/
def walkRound (flow : DataFlowGraph) (root : NodeId) (revisit : Bool) (state : WalkState) : Option WalkState :=
  match state.queue with
  | [] => none
  | visit :: rest =>
    if (state.seen.contains visit.node && !(visit.node == root && revisit)) || !flow.isWalkable visit.node then
      some { state with queue := rest }
    else some (flow.enter state visit rest)

section Walking
variable {flow : DataFlowGraph} {root : NodeId} {revisit : Bool} {state later : WalkState} {visit : Visit}
  {rest queue : List Visit} {seen unseen : List NodeId}

theorem map_node_enter :
    (flow.enter state visit rest).visits.map Visit.node = state.visits.map Visit.node ++ [visit.node] := by
  simp [enter]

theorem walkRound_enter (waits : state.queue = visit :: rest) (walkable : flow.isWalkable visit.node = true)
    (isNew : visit.node ∉ state.seen ∨ visit.node = root ∧ revisit = true) :
    flow.walkRound root revisit state = some (flow.enter state visit rest) := by
  simp only [walkRound, waits, walkable]
  rcases isNew with unseen | ⟨atRoot, again⟩
  · simp [unseen]
  · simp [atRoot, again]

theorem walkRound_skip (waits : state.queue = visit :: rest)
    (blocked : flow.isWalkable visit.node = true → visit.node ∈ state.seen ∧ ¬ (visit.node = root ∧ revisit = true)) :
    flow.walkRound root revisit state = some { state with queue := rest } := by
  simp only [walkRound, waits]
  refine if_pos ?_
  cases walkable : flow.isWalkable visit.node with
  | false => simp
  | true =>
    obtain ⟨isSeen, notAgain⟩ := blocked walkable
    simpa [isSeen, Decidable.imp_iff_not_or] using notAgain

/-- All that a round can do. -/
theorem walkRound_cases (moved : flow.walkRound root revisit state = some later) :
    ∃ visit rest, state.queue = visit :: rest ∧ (later = { state with queue := rest } ∨
      (visit.node ∈ state.seen → visit.node = root) ∧ later = flow.enter state visit rest) := by
  cases waits : state.queue with
  | nil => simp [walkRound, waits] at moved
  | cons visit rest =>
    refine ⟨visit, rest, rfl, ?_⟩
    by_cases enters : flow.isWalkable visit.node = true ∧ (visit.node ∉ state.seen ∨ visit.node = root ∧ revisit = true)
    · rw [walkRound_enter waits enters.1 enters.2] at moved
      refine .inr ⟨fun isSeen => ?_, (Option.some.inj moved).symm⟩
      exact (enters.2.resolve_left fun unseen => unseen isSeen).1
    · rw [walkRound_skip waits fun walkable => ?_] at moved
      · exact .inl (Option.some.inj moved).symm
      · have blocked := not_or.mp fun isNew => enters ⟨walkable, isNew⟩
        exact ⟨Decidable.not_not.mp blocked.1, blocked.2⟩

theorem mem_visitsBeyond {other : Visit} (member : visit ∈ flow.visitsBeyond seen other) : visit.node ∉ seen := by
  simp only [visitsBeyond, List.mem_map, List.mem_filter] at member
  obtain ⟨target, ⟨-, isNew⟩, rfl⟩ := member
  simpa using isNew

theorem length_visitsBeyond_le :
    (flow.visitsBeyond seen visit).length ≤ (flow.edges.filter fun edge => edge.source == visit.node).length := by
  have carried : (flow.flowTargets visit.node).length ≤ (flow.edges.filter fun edge => edge.source == visit.node).length := by
    rw [flowTargets, List.length_map, ← List.countP_eq_length_filter, ← List.countP_eq_length_filter]
    exact List.countP_mono_left fun edge _ both => (Bool.and_eq_true _ _ ▸ both).1
  rw [visitsBeyond, List.length_map]
  exact Nat.le_trans (List.length_filter_le _ _) carried

/-- What the rounds of a walk keep. The first node waits only at the start: later it is seen, and no visit that waits leads
to it. -/
structure Walks (root : NodeId) (state : WalkState) : Prop where
  distinct : (state.visits.map Visit.node).Nodup
  noted : ∀ node ∈ state.visits.map Visit.node, node ∈ state.seen
  waiting : state.visits = [] ∧ state.queue = [⟨root, [root]⟩] ∨ ∀ visit ∈ state.queue, visit.node ≠ root ∧ root ∈ state.seen

theorem walks_start : Walks root (.start seen root) := ⟨List.nodup_nil, by simp [WalkState.start], .inl ⟨rfl, rfl⟩⟩

/-- A node that is entered was not entered before. -/
theorem Walks.isNew (walks : Walks root state) (waits : state.queue = visit :: rest)
    (unseen : visit.node ∈ state.seen → visit.node = root) : visit.node ∉ state.visits.map Visit.node := by
  rcases walks.waiting with ⟨isEmpty, -⟩ | away
  · simp [isEmpty]
  · intro entered
    have elsewhere := (away visit (waits ▸ List.mem_cons_self)).1
    exact elsewhere (unseen (walks.noted _ entered))

/-- What waits behind the first visit does not lead to the first node. -/
theorem Walks.behind (walks : Walks root state) (waits : state.queue = visit :: rest) :
    ∀ other ∈ rest, other.node ≠ root ∧ root ∈ state.seen := by
  intro other behind
  rcases walks.waiting with ⟨-, alone⟩ | away
  · rw [alone, List.cons.injEq] at waits
    simp [← waits.2] at behind
  · exact away other (waits ▸ List.mem_cons_of_mem _ behind)

theorem Walks.skip (walks : Walks root state) (waits : state.queue = visit :: rest) :
    Walks root { state with queue := rest } where
  distinct := walks.distinct
  noted := walks.noted
  waiting := .inr (walks.behind waits)

theorem Walks.enter (walks : Walks root state) (waits : state.queue = visit :: rest)
    (unseen : visit.node ∈ state.seen → visit.node = root) : Walks root (flow.enter state visit rest) := by
  have rootSeen : root ∈ visit.node :: state.seen := by
    rcases walks.waiting with ⟨-, alone⟩ | away
    · rw [alone, List.cons.injEq] at waits
      simp [← waits.1]
    · exact List.mem_cons_of_mem _ (away visit (waits ▸ List.mem_cons_self)).2
  refine ⟨?_, ?_, .inr fun other member => ⟨?_, rootSeen⟩⟩
  · rw [map_node_enter]
    exact walks.distinct.append (List.nodup_singleton _) (List.disjoint_singleton.mpr (walks.isNew waits unseen))
  · intro node member
    rw [map_node_enter, List.mem_append, List.mem_singleton] at member
    rcases member with before | same
    · exact List.mem_cons_of_mem _ (walks.noted node before)
    · exact same ▸ List.mem_cons_self
  · rcases List.mem_append.mp member with behind | follows
    · exact (walks.behind waits other behind).1
    · exact fun atRoot => mem_visitsBeyond follows (atRoot ▸ rootSeen)

theorem Walks.round (walks : Walks root state) (moved : flow.walkRound root revisit state = some later) :
    Walks root later := by
  obtain ⟨visit, rest, waits, rfl | ⟨unseen, rfl⟩⟩ := walkRound_cases moved
  · exact walks.skip waits
  · exact walks.enter waits unseen

def walkPotential (flow : DataFlowGraph) (state : WalkState) : Nat :=
  state.queue.length + charge flow.edges fun id => if id ∈ state.visits.map Visit.node then 0 else 1

theorem Walks.potential_lt (walks : Walks root state) (moved : flow.walkRound root revisit state = some later) :
    flow.walkPotential later < flow.walkPotential state := by
  obtain ⟨visit, rest, waits, rfl | ⟨unseen, rfl⟩⟩ := walkRound_cases moved
  · simp only [walkPotential, waits, List.length_cons]
    omega
  · have isNew := walks.isNew waits unseen
    have lower : (if visit.node ∈ (flow.enter state visit rest).visits.map Visit.node then 0 else 1) + 1 ≤
        if visit.node ∈ state.visits.map Visit.node then 0 else 1 := by
      refine Nat.le_of_eq ?_
      rw [if_neg isNew, map_node_enter, if_pos (List.mem_append_right _ List.mem_cons_self)]
    have same : ∀ other, other ≠ visit.node →
        (if other ∈ (flow.enter state visit rest).visits.map Visit.node then 0 else 1) =
          if other ∈ state.visits.map Visit.node then 0 else 1 := by
      intro other different
      simp only [map_node_enter, List.mem_append, List.mem_singleton, different, or_false]
    have paid : charge flow.edges (fun id => if id ∈ (flow.enter state visit rest).visits.map Visit.node then 0 else 1) + _ ≤
        charge flow.edges fun id => if id ∈ state.visits.map Visit.node then 0 else 1 := charge_add_le lower same
    have added : (flow.visitsBeyond (visit.node :: state.seen) visit).length ≤ _ := length_visitsBeyond_le
    have grown : (flow.enter state visit rest).queue.length =
        rest.length + (flow.visitsBeyond (visit.node :: state.seen) visit).length := List.length_append
    simp only [walkPotential, waits, grown, List.length_cons]
    omega

/-- With the same nodes to go to, the same visits follow. -/
theorem visitsBeyond_eq (rules : flow.WellFormed) (agrees : ∀ id ∈ flow.ids, id ∈ unseen ↔ id ∉ seen) :
    flow.visitsBeyond seen visit = flow.nextVisits unseen visit := by
  rw [visitsBeyond, nextVisits]
  congr 1
  refine List.filter_congr fun target member => ?_
  obtain ⟨edge, isEdge, -, rfl, -⟩ := mem_flowTargets.mp member
  have same := agrees edge.target (rules.closed edge isEdge)
  rw [Bool.eq_iff_iff]
  simpa using same.symm

/-- Once the first node has been entered, the rounds do what the walk does. -/
theorem exists_rounds_walkOver (rules : flow.WellFormed) (distinct : unseen.Nodup) :
    ∀ state : WalkState, state.queue = queue → (∀ id ∈ flow.ids, id ∈ unseen ↔ id ∉ state.seen) →
      (∀ visit ∈ queue, visit.node ≠ root ∧ root ∈ state.seen) →
      ∃ count final, Rounds (flow.walkRound root revisit) count state final ∧ final.queue = [] ∧
        final.visits = state.visits ++ flow.walkOver unseen queue := by
  fun_induction walkOver flow unseen queue with
  | case1 unseen =>
    intro state waits _ _
    exact ⟨0, state, .none, waits, (List.append_nil _).symm⟩
  | case2 unseen visit rest enters remaining ih =>
    intro state waits agrees away
    have isNew := (agrees visit.node (mem_ids_of_isWalkable enters.2)).mp enters.1
    have agreesLater : ∀ id ∈ flow.ids, id ∈ remaining ↔ id ∉ visit.node :: state.seen := by
      intro id present
      rw [distinct.mem_erase_iff, List.mem_cons, not_or, agrees id present]
    have awayLater : ∀ other ∈ rest ++ flow.nextVisits remaining visit,
        other.node ≠ root ∧ root ∈ visit.node :: state.seen := by
      have rootSeen := List.mem_cons_of_mem visit.node (away visit List.mem_cons_self).2
      intro other member
      refine ⟨?_, rootSeen⟩
      rcases List.mem_append.mp member with behind | follows
      · exact (away other (List.mem_cons_of_mem _ behind)).1
      · rw [← visitsBeyond_eq rules agreesLater] at follows
        exact fun atRoot => mem_visitsBeyond follows (atRoot ▸ rootSeen)
    have waitsLater : (flow.enter state visit rest).queue = rest ++ flow.nextVisits remaining visit := by
      rw [← visitsBeyond_eq rules agreesLater]
      rfl
    obtain ⟨count, final, rounds, ends, visited⟩ := ih (distinct.erase _) _ waitsLater agreesLater awayLater
    refine ⟨count + 1, final, .more (walkRound_enter waits enters.2 (.inl isNew)) rounds, ends, ?_⟩
    rw [visited, DataFlowGraph.enter, List.append_assoc, List.singleton_append]
  | case3 unseen visit rest stays ih =>
    intro state waits agrees away
    obtain ⟨count, final, rounds, ends⟩ := ih distinct { state with queue := rest } rfl agrees
      fun other behind => away other (List.mem_cons_of_mem _ behind)
    refine ⟨count + 1, final, .more (walkRound_skip waits fun walkable => ⟨?_, ?_⟩) rounds, ends⟩
    · have known : visit.node ∉ unseen := fun fresh => stays ⟨fresh, walkable⟩
      rw [agrees visit.node (mem_ids_of_isWalkable walkable)] at known
      exact Decidable.not_not.mp known
    · exact fun again => (away visit List.mem_cons_self).1 again.1

theorem walkOver_start (fresh : root ∈ unseen) (walkable : flow.isWalkable root = true) :
    flow.walkOver unseen [⟨root, [root]⟩] =
      ⟨root, [root]⟩ :: flow.walkOver (unseen.erase root) (flow.nextVisits (unseen.erase root) ⟨root, [root]⟩) := by
  rw [walkOver, dif_pos ⟨fresh, walkable⟩]
  rfl

/-- If the first node is entered, what is left to visit are the other nodes that were not seen. -/
theorem exists_walkFrom_eq (rules : flow.WellFormed) (walkable : flow.isWalkable root = true)
    (isNew : root ∉ seen ∨ revisit = true) :
    ∃ remaining : List NodeId, remaining.Nodup ∧ (∀ id ∈ flow.ids, id ∈ remaining ↔ id ∉ root :: seen) ∧
      flow.walkFrom seen root revisit =
        ⟨root, [root]⟩ :: flow.walkOver remaining (flow.nextVisits remaining ⟨root, [root]⟩) := by
  have fresh : (flow.ids.filter fun id => !seen.contains id).Nodup := rules.distinct.filter _
  by_cases rootSeen : root ∈ seen
  · have again : revisit = true := isNew.resolve_left fun unseen => unseen rootSeen
    refine ⟨_, fresh, fun id present => ?_, ?_⟩
    · have different : id ∉ seen → id ≠ root := fun unseen same => unseen (same ▸ rootSeen)
      simpa [present] using different
    · rw [walkFrom, if_pos (by simp [again, rootSeen]), walkOver_start List.mem_cons_self walkable, List.erase_cons_head]
  · have rootFresh : root ∈ flow.ids.filter fun id => !seen.contains id := by
      simp [mem_ids_of_isWalkable walkable, rootSeen]
    refine ⟨_, fresh.erase root, fun id present => ?_, ?_⟩
    · rw [fresh.mem_erase_iff, List.mem_cons, not_or]
      simp [present]
    · rw [walkFrom, if_neg (by simp [rootSeen]), walkOver_start rootFresh walkable]

theorem walkFrom_eq_nil (blocked : flow.isWalkable root = true → root ∈ seen ∧ revisit = false) :
    flow.walkFrom seen root revisit = [] := by
  rw [walkFrom, walkOver, dif_neg, walkOver]
  intro enters
  obtain ⟨rootSeen, notAgain⟩ := blocked enters.2
  simp [notAgain, rootSeen] at enters

/-- The rounds do what the walk does. -/
theorem exists_rounds_walkFrom (rules : flow.WellFormed) :
    ∃ count final, Rounds (flow.walkRound root revisit) count (.start seen root) final ∧ final.queue = [] ∧
      final.visits = flow.walkFrom seen root revisit := by
  by_cases enters : flow.isWalkable root = true ∧ (root ∉ seen ∨ revisit = true)
  · obtain ⟨remaining, distinct, agrees, walked⟩ := exists_walkFrom_eq rules enters.1 enters.2
    have moved : flow.walkRound root revisit (.start seen root) = some (flow.enter (.start seen root) ⟨root, [root]⟩ []) :=
      walkRound_enter rfl enters.1 (enters.2.imp_right fun again => ⟨rfl, again⟩)
    have waits : (flow.enter (.start seen root) ⟨root, [root]⟩ []).queue = flow.nextVisits remaining ⟨root, [root]⟩ := by
      rw [← visitsBeyond_eq rules agrees]
      rfl
    have away : ∀ other ∈ flow.nextVisits remaining ⟨root, [root]⟩, other.node ≠ root ∧ root ∈ root :: seen := by
      rw [← visitsBeyond_eq rules agrees]
      refine fun other follows => ⟨fun atRoot => mem_visitsBeyond follows ?_, List.mem_cons_self⟩
      rw [atRoot]
      exact List.mem_cons_self
    obtain ⟨count, final, rounds, ends, visited⟩ := exists_rounds_walkOver rules distinct _ waits agrees away
    exact ⟨count + 1, final, .more moved rounds, ends, by rw [visited, walked]; rfl⟩
  · have blocked : flow.isWalkable root = true → root ∈ seen ∧ revisit = false := by
      simpa using enters
    have moved : flow.walkRound root revisit (.start seen root) = some ⟨seen, [], []⟩ :=
      walkRound_skip rfl fun walkable => ⟨(blocked walkable).1, by simp [(blocked walkable).2]⟩
    exact ⟨1, ⟨seen, [], []⟩, .more moved .none, rfl, (walkFrom_eq_nil blocked).symm⟩

end Walking

section Ends
variable {flow : DataFlowGraph} {domain : Domain} {root : NodeId} {prior : PathTable} {spread : SpreadState} {seen : List NodeId}
  {revisit : Bool} {walk : WalkState} {count : Nat}

theorem spreads_of_rounds (rules : flow.WellFormed) (present : root ∈ flow.ids) (unknown : ∀ id, prior id domain root = none)
    (rounds : Rounds (flow.spreadRound domain root) count (.start prior root) spread) : flow.Spreads domain root spread :=
  rounds.keeps (fun _ _ holds moved => Spreads.round rules.closed holds moved) (spreads_start present unknown)

theorem spreadRounds_le (rules : flow.WellFormed) (present : root ∈ flow.ids) (unknown : ∀ id, prior id domain root = none)
    (rounds : Rounds (flow.spreadRound domain root) count (.start prior root) spread) :
    count ≤ flow.edges.length * flow.ids.length + 1 := by
  have bounded := rounds.count_add_le (fun _ _ holds moved => Spreads.round rules.closed holds moved)
    (fun _ _ holds moved => Spreads.potential_lt holds moved) (spreads_start present unknown)
  have paid : charge flow.edges (flow.allowance fun id => prior id domain root) ≤ flow.edges.length * flow.ids.length :=
    charge_le fun id => by simp [allowance, unknown]
  simp only [spreadPotential, SpreadState.start, List.length_singleton] at bounded
  omega

theorem table_spreadRounds (rounds : Rounds (flow.spreadRound domain root) count (.start prior root) spread) {id : NodeId}
    {label : Domain} {origin : NodeId} (different : ¬ (label = domain ∧ origin = root)) :
    spread.table id label origin = prior id label origin := by
  have kept : ∀ state next : SpreadState, state.table id label origin = prior id label origin →
      flow.spreadRound domain root state = some next → next.table id label origin = prior id label origin :=
    fun state next same moved => (table_spreadRound moved different).trans same
  have unchanged := rounds.keeps kept
  exact unchanged rfl

theorem walkRounds_le (rounds : Rounds (flow.walkRound root revisit) count (.start seen root) walk) :
    count ≤ flow.edges.length + 1 := by
  have bounded := rounds.count_add_le (fun _ _ holds moved => Walks.round holds moved)
    (fun _ _ holds moved => Walks.potential_lt holds moved) walks_start
  have paid : charge flow.edges (fun _ => 1) ≤ flow.edges.length * 1 := charge_le fun _ => Nat.le_refl 1
  simp only [walkPotential, WalkState.start, List.map_nil, List.not_mem_nil, if_false, List.length_singleton] at bounded
  omega

/-- Both searches end on every graph, whatever its cycles. From a table without paths for a domain and a root, spreading
takes at most one round for each node and edge together and one more, and ends with the paths of the spread domain; on
the way all paths are simple, no node is recorded more often than there are nodes, and no other entries change. A walk
takes at most one round for each edge and one more, ends with the visits of the walk, and enters no node twice. -/
theorem searches_end (rules : flow.WellFormed) (present : root ∈ flow.ids) :
    (∀ (domain : Domain) (prior : PathTable), (∀ id, prior id domain root = none) →
      (∃ count final, Rounds (flow.spreadRound domain root) count (.start prior root) final ∧
        flow.spreadRound domain root final = none ∧
        ∀ id, final.table id domain root = (flow.spreadFrom root).lookup id) ∧
      ∀ count state, Rounds (flow.spreadRound domain root) count (.start prior root) state →
        count ≤ flow.edges.length * flow.ids.length + 1 ∧
        (∀ entry ∈ state.pending, entry.2.nodes.Nodup) ∧
        (∀ id path, state.table id domain root = some path → path.nodes.Nodup) ∧
        (∀ id, state.recorded.count id ≤ flow.ids.length) ∧
        ∀ id label origin, ¬ (label = domain ∧ origin = root) → state.table id label origin = prior id label origin) ∧
    ∀ (seen : List NodeId) (revisit : Bool),
      (∃ count final, Rounds (flow.walkRound root revisit) count (.start seen root) final ∧
        flow.walkRound root revisit final = none ∧ final.visits = flow.walkFrom seen root revisit) ∧
      ∀ count state, Rounds (flow.walkRound root revisit) count (.start seen root) state →
        count ≤ flow.edges.length + 1 ∧ (state.visits.map Visit.node).Nodup := by
  constructor
  · intro domain prior unknown
    constructor
    · obtain ⟨count, final, rounds, ends, agrees⟩ := exists_rounds_spreadOver rules.closed (searching_start present)
        (.start prior root) rfl fun id => (unknown id).trans List.lookup_nil.symm
      exact ⟨count, final, rounds, by simp only [spreadRound, ends], agrees⟩
    · intro count state rounds
      have spreads := spreads_of_rounds rules present unknown rounds
      exact ⟨spreadRounds_le rules present unknown rounds, fun entry member => (spreads.waiting entry member).simple.distinct,
        fun id path isKnown => (spreads.kept id path isKnown).1.distinct, fun id => spreads.count_le,
        fun id label origin => table_spreadRounds rounds⟩
  · intro seen revisit
    constructor
    · obtain ⟨count, final, rounds, ends, visited⟩ := exists_rounds_walkFrom rules
      exact ⟨count, final, rounds, by simp only [walkRound, ends], visited⟩
    · intro count state rounds
      have walks := rounds.keeps (fun _ _ holds moved => Walks.round holds moved) walks_start
      exact ⟨walkRounds_le rounds, walks.distinct⟩

/-- A function and what it returns: each is a property of the other, and the function is one of its own. -/
def loopedFlow : DataFlowGraph where
  nodes := [⟨1, .object loopedObject⟩, ⟨2, .object loopedObject⟩]
  edges := [⟨1, 1, .parentToChild, some "self"⟩, ⟨1, 2, .funcObjToRetVal, none⟩, ⟨1, 2, .parentToChild, some "result"⟩,
    ⟨2, 1, .parentToChild, some "owner"⟩]
where
  loopedObject : FlowObject := ⟨none, none, none, none, false, false, none, none, .other, none⟩

theorem searches_end_looped : loopedFlow.WellFormed ∧ 1 ∈ loopedFlow.ids ∧
    (∀ count state, Rounds (loopedFlow.spreadRound "net" 1) count (.start (fun _ _ _ => none) 1) state →
      count ≤ 9 ∧ (∀ entry ∈ state.pending, entry.2.nodes.Nodup)) ∧
    ∀ count state, Rounds (loopedFlow.walkRound 1 true) count (.start [1] 1) state →
      count ≤ 5 ∧ (state.visits.map Visit.node).Nodup := by
  have rules : loopedFlow.WellFormed := ⟨by decide, by decide⟩
  have present : 1 ∈ loopedFlow.ids := by decide
  have ends := searches_end rules present
  refine ⟨rules, present, fun count state rounds => ?_, fun count state rounds => (ends.2 [1] true).2 count state rounds⟩
  have during := (ends.1 "net" (fun _ _ _ => none) fun _ => rfl).2 count state rounds
  exact ⟨during.1, during.2.1⟩

end Ends

end DataFlowGraph

end DomainFlow
