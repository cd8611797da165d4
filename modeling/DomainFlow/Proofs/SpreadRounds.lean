import Mathlib.Data.List.Perm.Subperm
import DomainFlow.Proofs.Extraction
import DomainFlow.Proofs.Spread

/-!
The rounds in which a domain spreads. A round takes the first pending path. A node may be recorded again, but only on a
shorter path; every node of a pending path is known on a path that is no longer, so no path comes back to a node, and none
gets longer than the graph. A node pays for the paths that it adds, so the rounds can be counted.
-/
namespace DomainFlow

section Rounds
variable {σ : Type} {step : σ → Option σ} {first last : σ} {count : Nat} {property : σ → Prop}

/-- A loop gets from one state to another in some rounds. -/
inductive Rounds (step : σ → Option σ) : Nat → σ → σ → Prop where
  | none {state : σ} : Rounds step 0 state state
  | more {count : Nat} {first second last : σ} : step first = some second → Rounds step count second last →
      Rounds step (count + 1) first last

theorem Rounds.keeps (kept : ∀ state next, property state → step state = some next → property next)
    (rounds : Rounds step count first last) (started : property first) : property last := by
  induction rounds with
  | none => exact started
  | more moved _ ih => exact ih (kept _ _ started moved)

/-- What every round lowers is at least the number of rounds. -/
theorem Rounds.count_add_le {potential : σ → Nat} (kept : ∀ state next, property state → step state = some next → property next)
    (lowered : ∀ state next, property state → step state = some next → potential next < potential state)
    (rounds : Rounds step count first last) (started : property first) : count + potential last ≤ potential first := by
  induction rounds with
  | none => omega
  | more moved _ ih =>
    have later := ih (kept _ _ started moved)
    have lower := lowered _ _ started moved
    omega

end Rounds

namespace DataFlowGraph

/-- Nodes have distinct numbers, and edges join them. -/
structure WellFormed (flow : DataFlowGraph) : Prop where
  distinct : flow.ids.Nodup
  joined : ∀ edge ∈ flow.edges, edge.source ∈ flow.ids ∧ edge.target ∈ flow.ids

theorem WellFormed.closed {flow : DataFlowGraph} (rules : flow.WellFormed) : ∀ edge ∈ flow.edges, edge.target ∈ flow.ids :=
  fun edge member => (rules.joined edge member).2

theorem wellFormed_extract {graph : ObjectGraph} {listed : List NodeId} {flow : DataFlowGraph} (rules : graph.WellFormed)
    (extracted : graph.extract listed = .ok flow) : flow.WellFormed := by
  obtain ⟨seeds, accepted, rfl⟩ := ObjectGraph.exists_seeds_of_extract extracted
  refine ⟨(ObjectGraph.copies_extractFrom rules.distinct).distinct, fun edge member => ?_⟩
  have ends := ((ObjectGraph.mem_edges_extractFrom_iff_taken rules accepted).mp member).ends_kept rules
  exact ⟨(ObjectGraph.mem_ids_extractFrom_iff_kept rules accepted).mpr ends.1,
    (ObjectGraph.mem_ids_extractFrom_iff_kept rules accepted).mpr ends.2⟩

section Charge
variable {edges : List FlowEdge} {before after : NodeId → Nat} {id : NodeId}

/-- What the nodes can still pay, once for each edge that leaves them. -/
def charge : List FlowEdge → (NodeId → Nat) → Nat
  | [], _ => 0
  | edge :: rest, allowance => allowance edge.source + charge rest allowance

/-- A node whose allowance falls pays for all edges that leave it. -/
theorem charge_add_le (lower : after id + 1 ≤ before id) (same : ∀ other, other ≠ id → after other = before other) :
    charge edges after + (edges.filter fun edge => edge.source == id).length ≤ charge edges before := by
  induction edges with
  | nil => exact Nat.le_refl 0
  | cons edge rest ih =>
    rw [charge, charge, List.filter_cons]
    by_cases leaves : edge.source = id
    · rw [if_pos (beq_iff_eq.2 leaves), List.length_cons, leaves]
      omega
    · rw [if_neg (by simpa using leaves), same _ leaves]
      omega

theorem charge_le {bound : Nat} (bounded : ∀ other, before other ≤ bound) : charge edges before ≤ edges.length * bound := by
  induction edges with
  | nil => exact Nat.zero_le _
  | cons edge rest ih =>
    have own := bounded edge.source
    rw [charge, List.length_cons, Nat.succ_mul]
    omega

end Charge

end DataFlowGraph

/-- The paths that are known: to a node, for a domain, from a node that has it. -/
abbrev PathTable := NodeId → Domain → NodeId → Option PropagationPath

def PathTable.record (table : PathTable) (id : NodeId) (domain : Domain) (root : NodeId) (path : PropagationPath) : PathTable :=
  fun other label origin => if other = id ∧ label = domain ∧ origin = root then some path else table other label origin

/-- Where a spreading domain is between two rounds: the paths that are known, those that are followed next, and the nodes
for which one was recorded, the last one first. -/
structure SpreadState where
  table : PathTable
  pending : Reached
  recorded : List NodeId

def SpreadState.start (prior : PathTable) (root : NodeId) : SpreadState := ⟨prior, [(root, .start root)], []⟩

namespace DataFlowGraph

/-- The paths by which a path goes on, as far as they are shorter than the known ones. The last edge comes first. -/
def onward (flow : DataFlowGraph) (known : NodeId → Option PropagationPath) (id : NodeId) (path : PropagationPath) : Reached :=
  (((flow.outEdges id).filter fun entry =>
    flow.handsOn entry.1 && (known entry.1.target).all fun other => path.length + 1 < other.length).map
    fun entry => (entry.1.target, path.extend entry.2 entry.1.target)).reverse

/-- Records a path to a node and goes on from it. -/
def recordPath (flow : DataFlowGraph) (domain : Domain) (root : NodeId) (state : SpreadState) (id : NodeId)
    (path : PropagationPath) (rest : Reached) : SpreadState :=
  let table := state.table.record id domain root path
  ⟨table, flow.onward (fun other => table other domain root) id path ++ rest, id :: state.recorded⟩

/-- One round of spreading: the first pending path is recorded, unless a path is known that is no longer. -/
def spreadRound (flow : DataFlowGraph) (domain : Domain) (root : NodeId) (state : SpreadState) : Option SpreadState :=
  match state.pending with
  | [] => none
  | (id, path) :: rest =>
    if (state.table id domain root).any fun known => known.length ≤ path.length then some { state with pending := rest }
    else some (flow.recordPath domain root state id path rest)

section Spreading
variable {flow : DataFlowGraph} {domain : Domain} {root id : NodeId} {state later : SpreadState} {path : PropagationPath}
  {rest reached pending : Reached} {fresh : List NodeId} {known knownLater : NodeId → Option PropagationPath}

theorem onward_lookup : flow.onward (fun other => List.lookup other reached) id path = flow.extensions reached id path := rfl

theorem spreadRound_skip (waits : state.pending = (id, path) :: rest) {other : PropagationPath}
    (isKnown : state.table id domain root = some other) (shorter : other.length ≤ path.length) :
    flow.spreadRound domain root state = some { state with pending := rest } := by
  simp only [spreadRound, waits, isKnown, Option.any_some, shorter, decide_true, if_true]

theorem spreadRound_record (waits : state.pending = (id, path) :: rest)
    (shorter : ∀ other, state.table id domain root = some other → path.length < other.length) :
    flow.spreadRound domain root state = some (flow.recordPath domain root state id path rest) := by
  have improves : ¬ ((state.table id domain root).any fun other => other.length ≤ path.length) = true := by
    rw [Option.any_eq_true]
    rintro ⟨other, isKnown, within⟩
    have less := shorter other isKnown
    rw [decide_eq_true_eq] at within
    omega
  simp only [spreadRound, waits, if_neg improves]

/-- All that a round can do. -/
theorem spreadRound_cases (moved : flow.spreadRound domain root state = some later) :
    ∃ id path rest, state.pending = (id, path) :: rest ∧
      (later = { state with pending := rest } ∨
        (∀ other, state.table id domain root = some other → path.length < other.length) ∧
          later = flow.recordPath domain root state id path rest) := by
  cases waits : state.pending with
  | nil => simp [spreadRound, waits] at moved
  | cons entry rest =>
    obtain ⟨id, path⟩ := entry
    refine ⟨id, path, rest, rfl, ?_⟩
    by_cases shorter : ∀ other, state.table id domain root = some other → path.length < other.length
    · rw [spreadRound_record waits shorter] at moved
      exact .inr ⟨shorter, (Option.some.inj moved).symm⟩
    · simp only [not_forall, Nat.not_lt] at shorter
      obtain ⟨other, isKnown, within⟩ := shorter
      rw [spreadRound_skip waits isKnown within] at moved
      exact .inl (Option.some.inj moved).symm

theorem mem_onward {entry : NodeId × PropagationPath} (member : entry ∈ flow.onward known id path) :
    ∃ edge index, edge ∈ flow.edges ∧ (∀ other, known edge.target = some other → path.length + 1 < other.length) ∧
      entry = (edge.target, path.extend index edge.target) := by
  simp only [onward, List.mem_reverse, List.mem_map, List.mem_filter, Bool.and_eq_true, Option.all_eq_true,
    decide_eq_true_eq, Prod.exists] at member
  obtain ⟨edge, index, ⟨leaves, -, longer⟩, rfl⟩ := member
  exact ⟨edge, index, (mem_outEdges_source leaves).1, longer, rfl⟩

theorem length_onward_le : (flow.onward known id path).length ≤ (flow.edges.filter fun edge => edge.source == id).length := by
  have leaving : (flow.edges.filter fun edge => edge.source == id).length = (flow.outEdges id).length := by
    rw [outEdges, ← List.countP_eq_length_filter, ← List.countP_eq_length_filter]
    conv_lhs => rw [← List.zipIdx_map_fst 0 flow.edges, List.countP_map]
    rfl
  rw [onward, List.length_reverse, List.length_map, leaving]
  exact List.length_filter_le _ _

section Simple

/-- A path in the graph that comes to no node twice. -/
structure Simple (flow : DataFlowGraph) (path : PropagationPath) : Prop where
  distinct : path.nodes.Nodup
  inside : path.nodes ⊆ flow.ids

theorem Simple.length_le (simple : flow.Simple path) : path.length ≤ flow.ids.length :=
  simple.distinct.length_le_of_subset simple.inside

/-- Every node on a way is known on a path that is no longer than the way to it. -/
def Backed (known : NodeId → Option PropagationPath) (nodes : List NodeId) : Prop :=
  ∀ position node, nodes[position]? = some node → ∃ path, known node = some path ∧ path.length ≤ position + 1

/-- A path that waits at a node: it is simple, and all before its end is known. -/
structure Waits (flow : DataFlowGraph) (known : NodeId → Option PropagationPath) (id : NodeId) (path : PropagationPath) :
    Prop where
  simple : flow.Simple path
  backed : ∃ earlier, path.nodes = earlier ++ [id] ∧ Backed known earlier

/-- A path is put in the place of one that is longer, if there is one. -/
structure Improves (known : NodeId → Option PropagationPath) (id : NodeId) (path : PropagationPath)
    (knownLater : NodeId → Option PropagationPath) : Prop where
  here : knownLater id = some path
  elsewhere : ∀ other, other ≠ id → knownLater other = known other
  shorter : ∀ other, known id = some other → path.length < other.length

theorem Backed.improves {nodes : List NodeId} (backed : Backed known nodes) (improves : Improves known id path knownLater) :
    Backed knownLater nodes := by
  intro position node found
  obtain ⟨old, isKnown, within⟩ := backed position node found
  by_cases same : node = id
  · subst same
    have less := improves.shorter old isKnown
    exact ⟨path, improves.here, by omega⟩
  · exact ⟨old, (improves.elsewhere node same).trans isKnown, within⟩

theorem Waits.improves {other : NodeId} {way : PropagationPath} (waits : flow.Waits known other way)
    (improves : Improves known id path knownLater) : flow.Waits knownLater other way := by
  obtain ⟨earlier, isWay, backed⟩ := waits.backed
  exact ⟨waits.simple, earlier, isWay, backed.improves improves⟩

theorem Waits.length_pos (waits : flow.Waits known id path) : 0 < path.length := by
  obtain ⟨earlier, isPath, -⟩ := waits.backed
  rw [PropagationPath.length, isPath, List.length_append]
  exact Nat.succ_pos _

/-- Once a waiting path is recorded, all of its nodes are known. -/
theorem Waits.backed_nodes (waits : flow.Waits known id path) (improves : Improves known id path knownLater) :
    Backed knownLater path.nodes := by
  obtain ⟨earlier, isPath, backed⟩ := waits.backed
  intro position node found
  rw [isPath] at found
  by_cases before : position < earlier.length
  · rw [List.getElem?_append_left before] at found
    exact backed.improves improves position node found
  · rw [List.getElem?_append_right (Nat.le_of_not_lt before), List.getElem?_singleton] at found
    split at found
    next last =>
      cases found
      refine ⟨path, improves.here, ?_⟩
      rw [PropagationPath.length, isPath, List.length_append, List.length_singleton]
      omega
    next => cases found

/-- A path that goes on to a node for which only longer ones are known does not come back to one of its own. -/
theorem Waits.extend {target : NodeId} {index : Nat} (waits : flow.Waits known id path)
    (improves : Improves known id path knownLater) (present : target ∈ flow.ids)
    (longer : ∀ other, knownLater target = some other → path.length + 1 < other.length) :
    flow.Waits knownLater target (path.extend index target) := by
  have backed := waits.backed_nodes improves
  have isNew : target ∉ path.nodes := by
    intro member
    obtain ⟨position, found⟩ := List.mem_iff_getElem?.mp member
    obtain ⟨other, isKnown, within⟩ := backed position target found
    have inside : position < path.nodes.length := (List.getElem?_eq_some_iff.mp found).1
    have less := longer other isKnown
    rw [PropagationPath.length] at less
    omega
  refine ⟨⟨?_, ?_⟩, path.nodes, rfl, backed⟩
  · exact waits.simple.distinct.append (List.nodup_singleton target) (List.disjoint_singleton.mpr isNew)
  · exact List.append_subset.mpr ⟨waits.simple.inside, by simpa using present⟩

end Simple

theorem improves_record (shorter : ∀ other, state.table id domain root = some other → path.length < other.length) :
    Improves (fun other => state.table other domain root) id path
      (fun other => state.table.record id domain root path other domain root) where
  here := by simp [PathTable.record]
  elsewhere other different := by simp [PathTable.record, different]
  shorter := shorter

/-- What the rounds of a spreading domain keep. A path that is recorded anew is shorter, so a node is recorded as often as
paths can get shorter. -/
structure Spreads (flow : DataFlowGraph) (domain : Domain) (root : NodeId) (state : SpreadState) : Prop where
  kept : ∀ id path, state.table id domain root = some path → flow.Simple path ∧ 0 < path.length
  waiting : ∀ entry ∈ state.pending, flow.Waits (fun id => state.table id domain root) entry.1 entry.2
  unrecorded : ∀ id, state.table id domain root = none → state.recorded.count id = 0
  counted : ∀ id path, state.table id domain root = some path → state.recorded.count id + path.length ≤ flow.ids.length + 1

theorem spreads_start {prior : PathTable} (present : root ∈ flow.ids) (unknown : ∀ id, prior id domain root = none) :
    flow.Spreads domain root (.start prior root) where
  kept id path isKnown := by simp [SpreadState.start, unknown] at isKnown
  waiting entry member := by
    rw [List.mem_singleton.mp member]
    refine ⟨⟨List.nodup_singleton root, by simpa [PropagationPath.start] using present⟩, [], rfl, ?_⟩
    intro position node found
    simp at found
  unrecorded id _ := rfl
  counted id path isKnown := by simp [SpreadState.start, unknown] at isKnown

theorem Spreads.skip (spreads : flow.Spreads domain root state) (waits : state.pending = (id, path) :: rest) :
    flow.Spreads domain root { state with pending := rest } where
  kept := spreads.kept
  waiting entry member := spreads.waiting entry (waits ▸ List.mem_cons_of_mem _ member)
  unrecorded := spreads.unrecorded
  counted := spreads.counted

/-- A node that gets a shorter path has not yet been recorded as often as it can be. -/
theorem Spreads.count_add_length_le (spreads : flow.Spreads domain root state) (within : path.length ≤ flow.ids.length)
    (shorter : ∀ other, state.table id domain root = some other → path.length < other.length) :
    state.recorded.count id + path.length ≤ flow.ids.length := by
  cases before : state.table id domain root with
  | none =>
    have unrecorded := spreads.unrecorded id before
    omega
  | some old =>
    have counted := spreads.counted id old before
    have less := shorter old before
    omega

theorem Spreads.record (closed : ∀ edge ∈ flow.edges, edge.target ∈ flow.ids) (spreads : flow.Spreads domain root state)
    (waits : state.pending = (id, path) :: rest)
    (shorter : ∀ other, state.table id domain root = some other → path.length < other.length) :
    flow.Spreads domain root (flow.recordPath domain root state id path rest) := by
  have improves := improves_record shorter
  have head : flow.Waits (fun other => state.table other domain root) id path :=
    spreads.waiting (id, path) (waits ▸ List.mem_cons_self)
  have elsewhere : ∀ {other}, other ≠ id →
      (flow.recordPath domain root state id path rest).table other domain root = state.table other domain root :=
    fun different => improves.elsewhere _ different
  have here : (flow.recordPath domain root state id path rest).table id domain root = some path := improves.here
  have countElsewhere : ∀ {other}, other ≠ id →
      (flow.recordPath domain root state id path rest).recorded.count other = state.recorded.count other :=
    fun different => List.count_cons_of_ne (Ne.symm different)
  refine ⟨?_, ?_, ?_, ?_⟩
  · intro other way isKnown
    by_cases same : other = id
    · subst same
      cases here.symm.trans isKnown
      exact ⟨head.simple, head.length_pos⟩
    · exact spreads.kept other way ((elsewhere same).symm.trans isKnown)
  · intro entry member
    rcases List.mem_append.mp member with isNew | behind
    · obtain ⟨edge, index, isEdge, longer, rfl⟩ := mem_onward isNew
      exact head.extend improves (closed edge isEdge) longer
    · exact (spreads.waiting entry (waits ▸ List.mem_cons_of_mem _ behind)).improves improves
  · intro other absent
    by_cases same : other = id
    · subst same
      cases here.symm.trans absent
    · rw [countElsewhere same]
      exact spreads.unrecorded other ((elsewhere same).symm.trans absent)
  · intro other way isKnown
    by_cases same : other = id
    · subst same
      cases here.symm.trans isKnown
      have once : (flow.recordPath domain root state other path rest).recorded.count other = state.recorded.count other + 1 :=
        List.count_cons_self
      have room := spreads.count_add_length_le head.simple.length_le shorter
      omega
    · rw [countElsewhere same]
      exact spreads.counted other way ((elsewhere same).symm.trans isKnown)

theorem Spreads.round (closed : ∀ edge ∈ flow.edges, edge.target ∈ flow.ids) (spreads : flow.Spreads domain root state)
    (moved : flow.spreadRound domain root state = some later) : flow.Spreads domain root later := by
  obtain ⟨id, path, rest, waits, rfl | ⟨shorter, rfl⟩⟩ := spreadRound_cases moved
  · exact spreads.skip waits
  · exact spreads.record closed waits shorter

theorem Spreads.count_le (spreads : flow.Spreads domain root state) : state.recorded.count id ≤ flow.ids.length := by
  cases isKnown : state.table id domain root with
  | none =>
    have unrecorded := spreads.unrecorded id isKnown
    omega
  | some path =>
    have counted := spreads.counted id path isKnown
    have positive := (spreads.kept id path isKnown).2
    omega

/-- How often a node can still be recorded. -/
def allowance (flow : DataFlowGraph) (known : NodeId → Option PropagationPath) (id : NodeId) : Nat :=
  (known id).elim flow.ids.length fun path => path.length - 1

/-- A first path takes the whole allowance but its own length, and a shorter one takes the difference. -/
theorem Waits.allowance_lt (waits : flow.Waits known id path) (improves : Improves known id path knownLater) :
    flow.allowance knownLater id + 1 ≤ flow.allowance known id := by
  have within := waits.simple.length_le
  have positive := waits.length_pos
  rw [allowance, improves.here, Option.elim_some, allowance]
  cases before : known id with
  | none =>
    rw [Option.elim_none]
    omega
  | some old =>
    have less := improves.shorter old before
    rw [Option.elim_some]
    omega

def spreadPotential (flow : DataFlowGraph) (domain : Domain) (root : NodeId) (state : SpreadState) : Nat :=
  state.pending.length + charge flow.edges (flow.allowance fun id => state.table id domain root)

theorem Spreads.potential_lt (spreads : flow.Spreads domain root state)
    (moved : flow.spreadRound domain root state = some later) :
    flow.spreadPotential domain root later < flow.spreadPotential domain root state := by
  obtain ⟨id, path, rest, waits, rfl | ⟨shorter, rfl⟩⟩ := spreadRound_cases moved
  · simp only [spreadPotential, waits, List.length_cons]
    omega
  · have improves := improves_record shorter
    have head : flow.Waits (fun other => state.table other domain root) id path :=
      spreads.waiting (id, path) (waits ▸ List.mem_cons_self)
    have same : ∀ other, other ≠ id →
        flow.allowance (fun another => state.table.record id domain root path another domain root) other =
          flow.allowance (fun another => state.table another domain root) other := by
      intro other different
      simp only [allowance, improves.elsewhere other different]
    have paid : charge flow.edges _ + _ ≤ charge flow.edges _ := charge_add_le (head.allowance_lt improves) same
    have added : (flow.onward (fun other => state.table.record id domain root path other domain root) id path).length ≤ _ :=
      length_onward_le
    simp only [spreadPotential, recordPath, waits, List.length_append, List.length_cons]
    omega

/-- The entries of other domains and other nodes stay as they are. -/
theorem table_spreadRound (moved : flow.spreadRound domain root state = some later) {label : Domain} {origin : NodeId}
    (different : ¬ (label = domain ∧ origin = root)) : later.table id label origin = state.table id label origin := by
  obtain ⟨first, path, rest, waits, rfl | ⟨shorter, rfl⟩⟩ := spreadRound_cases moved
  · rfl
  · exact if_neg fun same => different same.2

/-- If the table agrees with a list of paths, then after a round that records a path it agrees with the list that has it,
and the same paths go on. -/
theorem spreadRound_records {improved : Reached} (waits : state.pending = (id, path) :: rest)
    (agrees : ∀ other, state.table other domain root = reached.lookup other)
    (records : Reached.Records reached id path improved)
    (shorter : ∀ other, reached.lookup id = some other → path.length < other.length) :
    flow.spreadRound domain root state = some (flow.recordPath domain root state id path rest) ∧
      (flow.recordPath domain root state id path rest).pending = flow.extensions improved id path ++ rest ∧
      ∀ other, (flow.recordPath domain root state id path rest).table other domain root = improved.lookup other := by
  have agreesLater : ∀ other, state.table.record id domain root path other domain root = improved.lookup other := by
    intro other
    simp only [PathTable.record, records other, agrees, and_self, and_true]
  refine ⟨spreadRound_record waits fun other found => shorter other (agrees id ▸ found), ?_, agreesLater⟩
  rw [← onward_lookup, ← funext agreesLater]
  rfl

/-- The rounds do what following the pending paths does. -/
theorem exists_rounds_spreadOver (closed : ∀ edge ∈ flow.edges, edge.target ∈ flow.ids)
    (searching : flow.Searching fresh reached pending) :
    ∀ state : SpreadState, state.pending = pending → (∀ id, state.table id domain root = reached.lookup id) →
      ∃ count final, Rounds (flow.spreadRound domain root) count state final ∧ final.pending = [] ∧
        ∀ id, final.table id domain root = (flow.spreadOver fresh reached pending).lookup id := by
  fun_induction spreadOver flow fresh reached pending with
  | case1 fresh reached => exact fun state waits agrees => ⟨0, state, .none, waits, agrees⟩
  | case2 fresh reached first way rest known present shorter improved ih =>
    intro state waits agrees
    have improves : ∀ other, reached.lookup first = some other → way.length < other.length := by
      intro other found
      cases present.symm.trans found
      exact shorter
    have records : Reached.Records reached first way _ := Reached.records_improve present
    have later := searching.record closed records (fun other found => Nat.le_of_lt (improves other found)) fun _ => .inr
    obtain ⟨moved, pending, agreesLater⟩ := spreadRound_records waits agrees records improves
    obtain ⟨count, final, rounds, ends⟩ := ih later _ pending agreesLater
    exact ⟨count + 1, final, .more moved rounds, ends⟩
  | case3 fresh reached first way rest known present longer ih =>
    intro state waits agrees
    have within := Nat.not_lt.mp longer
    obtain ⟨count, final, rounds, ends⟩ := ih (searching.drop present within) { state with pending := rest } rfl agrees
    exact ⟨count + 1, final, .more (spreadRound_skip waits ((agrees first).trans present) within) rounds, ends⟩
  | case4 fresh reached first way rest absent isFresh grown ih =>
    intro state waits agrees
    have improves : ∀ other, reached.lookup first = some other → way.length < other.length := by
      intro other found
      cases absent.symm.trans found
    have taken : ∀ other ∈ fresh, other = first ∨ other ∈ fresh.erase first := by
      intro other member
      by_cases same : other = first
      · exact .inl same
      · exact .inr ((List.mem_erase_of_ne same).mpr member)
    have records : Reached.Records reached first way _ := Reached.records_append absent
    have later := searching.record closed records (fun other found => Nat.le_of_lt (improves other found)) taken
    obtain ⟨moved, pending, agreesLater⟩ := spreadRound_records waits agrees records improves
    obtain ⟨count, final, rounds, ends⟩ := ih later _ pending agreesLater
    exact ⟨count + 1, final, .more moved rounds, ends⟩
  | case5 fresh reached first way rest absent stale ih =>
    rcases searching.seen first (searching.inside _ List.mem_cons_self) with isFresh | isReached
    · exact absurd isFresh stale
    · simp [absent] at isReached

end Spreading

end DataFlowGraph

end DomainFlow
