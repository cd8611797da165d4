import Mathlib.Data.Finset.Lattice.Lemmas
import DomainFlow.Proofs.FlowGraph
import DomainFlow.Proofs.LinkedStore

/-!
Data-flow graphs as they are kept while they grow. Beside the nodes and edges with their positions, a set holds the edges that
are there already, so that none is added twice. Adding a node or an edge keeps all of these in step with each other and with
the graph that they show.
-/
namespace DomainFlow

/-- Whether a node is a place in the source. All others are objects. -/
def FlowContent.isPlace : FlowContent → Bool
  | .ast _ => true
  | .object _ => false

/-- Whether an edge of a kind may join two nodes, given whether they are places. -/
def FlowKind.fits (kind : FlowKind) (source target : Bool) : Bool :=
  match kind with
  | .contributesTo | .funcObjToRetVal | .parentToChild => !source && !target
  | .objToAst => !source && target
  | .astRequireToObj => source && !target
  | .parentOf => source && target
  | .astToModuleExport => source

structure FlowStore extends LinkedStore FlowContent FlowKind where
  edgeSet : Finset (StoredEdge FlowKind)

namespace FlowStore

def empty : FlowStore := ⟨.empty, ∅⟩

def stored? (store : FlowStore) (edge : FlowEdge) : Option (StoredEdge FlowKind) :=
  store.toLinkedStore.stored? edge.source edge.target edge.kind edge.label

def create (store : FlowStore) (id : NodeId) (content : FlowContent) : FlowStore :=
  ⟨store.toLinkedStore.create id content, store.edgeSet⟩

def append (store : FlowStore) (edge : StoredEdge FlowKind) : FlowStore :=
  ⟨store.toLinkedStore.append edge, insert edge store.edgeSet⟩

/-- Adds an edge, unless it is there already. Where there is no node, no edge can be put into its lists. -/
def addEdge? (store : FlowStore) (edge : StoredEdge FlowKind) : Option FlowStore :=
  if edge ∈ store.edgeSet then some store
  else if edge.source < store.nodes.length ∧ edge.target < store.nodes.length then some (store.append edge)
  else none

variable {store : FlowStore} {flow : DataFlowGraph} {id other : NodeId} {content : FlowContent} {edge : FlowEdge}
  {stored : StoredEdge FlowKind} {node : StoredNode FlowContent} {position : Nat}

/-- The parts of a store are in step. Beside what holds of all such stores, the set of edges is that of the stored ones, no
edge is stored twice, and each edge joins nodes of the kinds that go with it. -/
structure Sound (store : FlowStore) : Prop extends store.toLinkedStore.Sound where
  edgeSet : store.edgeSet = store.edges.toFinset
  distinct : store.edges.Nodup
  kinds : ∀ edge ∈ store.edges, ∀ source target, store.nodes[edge.source]? = some source →
    store.nodes[edge.target]? = some target → edge.kind.fits source.content.isPlace target.content.isPlace = true

/-- The graph that a store shows: its nodes, and its edges with the numbers of their ends. -/
structure Shows (store : FlowStore) (flow : DataFlowGraph) : Prop where
  nodes : flow.nodes = store.nodes.map fun node => ⟨node.id, node.content⟩
  edges : List.Forall₂ (fun edge stored => store.stored? edge = some stored) flow.edges store.edges

theorem sound_empty : empty.Sound where
  toSound := LinkedStore.sound_empty
  edgeSet := rfl
  distinct := List.nodup_nil
  kinds edge member := by cases member

theorem shows_empty : empty.Shows .empty := ⟨rfl, .nil⟩

section Positions

theorem stored?_eq_some_iff : store.stored? edge = some stored ↔ store.position? edge.source = some stored.source ∧
    store.position? edge.target = some stored.target ∧ edge.kind = stored.kind ∧ edge.label = stored.label :=
  LinkedStore.stored?_eq_some_iff

/-- An edge is stored under one form, and a stored form is that of one edge. -/
theorem Sound.eq_of_stored? (sound : store.Sound) {first second : FlowEdge} (isFirst : store.stored? first = some stored)
    (isSecond : store.stored? second = some stored) : first = second := by
  obtain ⟨source, target, kind, label⟩ := stored?_eq_some_iff.mp isFirst
  obtain ⟨sourceToo, targetToo, kindToo, labelToo⟩ := stored?_eq_some_iff.mp isSecond
  obtain ⟨_, _, _, _⟩ := first
  obtain ⟨_, _, _, _⟩ := second
  cases sound.eq_of_position? source sourceToo
  cases sound.eq_of_position? target targetToo
  cases kind.trans kindToo.symm
  cases label.trans labelToo.symm
  rfl

theorem Shows.mem_ids_iff (shown : store.Shows flow) (sound : store.Sound) :
    id ∈ flow.ids ↔ (store.position? id).isSome := by
  rw [sound.isSome_position?_iff, DataFlowGraph.ids, shown.nodes, List.map_map]
  rfl

theorem Shows.mem_edges_iff (shown : store.Shows flow) (sound : store.Sound) (isStored : store.stored? edge = some stored) :
    stored ∈ store.edges ↔ edge ∈ flow.edges := by
  have oneForm : Relator.BiUnique fun edge stored => store.stored? edge = some stored :=
    ⟨fun _ _ _ isFirst isSecond => sound.eq_of_stored? isFirst isSecond,
      fun _ _ _ isFirst isSecond => Option.some.inj (isFirst.symm.trans isSecond)⟩
  exact (List.rel_mem oneForm isStored shown.edges).symm

end Positions

section Create

/-- A node whose number has no position can be put behind the others. -/
theorem Sound.create (sound : store.Sound) (fresh : store.position? id = none) : (store.create id content).Sound where
  toSound := sound.toSound.create fresh
  edgeSet := sound.edgeSet
  distinct := sound.distinct
  kinds edge member source target sourceHere targetHere := by
    have ends := sound.joined edge member
    rcases LinkedStore.getElem?_nodes_create.mp sourceHere with sourceBefore | ⟨isLast, -⟩
    · rcases LinkedStore.getElem?_nodes_create.mp targetHere with targetBefore | ⟨isLast, -⟩
      · exact sound.kinds edge member source target sourceBefore targetBefore
      · omega
    · omega

theorem Shows.create (shown : store.Shows flow) (sound : store.Sound) (fresh : store.position? id = none) :
    (store.create id content).Shows (flow.addNode ⟨id, content⟩) := by
  have isNew : id ∉ flow.ids := by simp [shown.mem_ids_iff sound, fresh]
  have grown : flow.addNode ⟨id, content⟩ = { flow with nodes := flow.nodes ++ [⟨id, content⟩] } := if_neg isNew
  rw [grown]
  refine ⟨?_, ?_⟩
  · simp [FlowStore.create, LinkedStore.create, shown.nodes, StoredNode.alone]
  · exact shown.edges.imp fun edge stored isStored => LinkedStore.stored?_create fresh isStored

end Create

section Append

/-- A new edge between nodes that are there can be put behind the others. -/
theorem Sound.append (sound : store.Sound) (fresh : stored ∉ store.edges)
    (ends : stored.source < store.nodes.length ∧ stored.target < store.nodes.length)
    (fits : ∀ source target, store.nodes[stored.source]? = some source → store.nodes[stored.target]? = some target →
      stored.kind.fits source.content.isPlace target.content.isPlace = true) : (store.append stored).Sound where
  toSound := sound.toSound.append ends
  edgeSet := by
    rw [FlowStore.append, LinkedStore.append, sound.edgeSet, List.toFinset_append]
    ext edge
    simp
  distinct := List.nodup_append.mpr ⟨sound.distinct, List.nodup_singleton _, fun edge member last isLast same =>
    fresh (List.mem_singleton.mp isLast ▸ same ▸ member)⟩
  kinds edge member source target sourceHere targetHere := by
    obtain ⟨sourceBefore, sourceWasHere, rfl⟩ := LinkedStore.exists_of_getElem?_append sourceHere
    obtain ⟨targetBefore, targetWasHere, rfl⟩ := LinkedStore.exists_of_getElem?_append targetHere
    rcases List.mem_append.mp member with before | isNew
    · exact sound.kinds edge before sourceBefore targetBefore sourceWasHere targetWasHere
    · cases List.mem_singleton.mp isNew
      exact fits sourceBefore targetBefore sourceWasHere targetWasHere

theorem Shows.append (shown : store.Shows flow) (isStored : store.stored? edge = some stored) :
    (store.append stored).Shows { flow with edges := flow.edges ++ [edge] } := by
  refine ⟨?_, ?_⟩
  · exact shown.nodes.trans (LinkedStore.map_nodes_append fun _ _ => rfl).symm
  · exact List.rel_append shown.edges (.cons isStored .nil)

/-- Adding an edge to a store that shows a graph shows the graph with the edge. -/
theorem Sound.exists_addEdge? (sound : store.Sound) (shown : store.Shows flow) (isStored : store.stored? edge = some stored)
    (fits : ∀ source target, store.nodes[stored.source]? = some source → store.nodes[stored.target]? = some target →
      stored.kind.fits source.content.isPlace target.content.isPlace = true) :
    ∃ later, store.addEdge? stored = some later ∧ later.Sound ∧ later.Shows (flow.addEdge edge) := by
  obtain ⟨sourceAt, targetAt, -⟩ := stored?_eq_some_iff.mp isStored
  have ends := And.intro (sound.lt_of_position? sourceAt) (sound.lt_of_position? targetAt)
  have inSet : stored ∈ store.edgeSet ↔ edge ∈ flow.edges := by
    rw [sound.edgeSet, List.mem_toFinset, shown.mem_edges_iff sound isStored]
  by_cases present : edge ∈ flow.edges
  · refine ⟨store, if_pos (inSet.mpr present), sound, ?_⟩
    rw [DataFlowGraph.addEdge, if_pos present]
    exact shown
  · have fresh : stored ∉ store.edges := fun member => present ((shown.mem_edges_iff sound isStored).mp member)
    refine ⟨store.append stored, ?_, sound.append fresh ends fits, ?_⟩
    · rw [addEdge?, if_neg fun member => present (inSet.mp member), if_pos ends]
    · rw [DataFlowGraph.addEdge, if_neg present]
      exact shown.append isStored

theorem position?_addEdge? {later : FlowStore} (added : store.addEdge? stored = some later) :
    later.position? id = store.position? id := by
  unfold addEdge? at added
  split at added
  next => rw [Option.some.inj added]
  next =>
    split at added
    next => rw [← Option.some.inj added]; rfl
    next => cases added

end Append

section Reading

/-- There is an edge at a position, and there are nodes where it begins and ends. -/
def HasEdge (store : FlowStore) (index : Nat) : Prop :=
  ∃ edge source target, store.edges[index]? = some edge ∧ store.nodes[edge.source]? = some source ∧
    store.nodes[edge.target]? = some target

theorem Sound.hasEdge (sound : store.Sound) {index : Nat} (within : index < store.edges.length) : store.HasEdge index := by
  obtain ⟨sourceThere, targetThere⟩ := sound.joined _ (List.getElem_mem within)
  exact ⟨_, _, _, List.getElem?_eq_getElem within, List.getElem?_eq_getElem sourceThere,
    List.getElem?_eq_getElem targetThere⟩

/-- All that is read at a node is there: the node, the edges in its lists and the nodes that these join. The lists are those of
the graph that is shown. -/
def Readable (store : FlowStore) (flow : DataFlowGraph) (id : NodeId) : Prop :=
  ∃ position node, store.position? id = some position ∧ store.nodes[position]? = some node ∧
    node.outgoing = (flow.outEdges id).map Prod.snd ∧ node.incoming = (flow.inEdges id).map Prod.snd ∧
    ∀ index ∈ node.outgoing ++ node.incoming, store.HasEdge index

theorem Sound.readable (sound : store.Sound) (shown : store.Shows flow) (present : id ∈ flow.ids) :
    store.Readable flow id := by
  obtain ⟨position, isAt⟩ := Option.isSome_iff_exists.mp ((shown.mem_ids_iff sound).mp present)
  obtain ⟨node, here, -⟩ := (sound.found id position).mp isAt
  have outgoing := sound.outgoing position node here
  have incoming := sound.incoming position node here
  refine ⟨position, node, isAt, here, ?_, ?_, fun index listed => sound.hasEdge ?_⟩
  · exact (outgoing.transfer shown.edges fun edge stored isStored =>
      sound.beq_position (stored?_eq_some_iff.mp isStored).1 isAt).eq_filter
  · exact (incoming.transfer shown.edges fun edge stored isStored =>
      sound.beq_position (stored?_eq_some_iff.mp isStored).2.1 isAt).eq_filter
  · rcases List.mem_append.mp listed with leaves | enters
    · exact outgoing.lt_length leaves
    · exact incoming.lt_length enters

end Reading

end FlowStore

end DomainFlow
