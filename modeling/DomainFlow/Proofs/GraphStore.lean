import DomainFlow.Proofs.LinkedStore
import DomainFlow.Proofs.WellFormed

/-!
Object graphs as they are read. The nodes of a document are put into a store, then its edges, and then the nodes are looked at
once more. Each pass ends at the first entry that breaks a rule. What stops the reading of a document is what is found wrong
with it as a whole, and a document with no fault gives a store that indexes its graph: the table and the lists answer what the
graph answers.
-/
namespace DomainFlow

structure GraphStore extends LinkedStore NodeRecord EdgeKind where
  context : Context

/-- Reading may stop with an error. There is no result at all where something is looked up at a position that is not there. -/
abbrev Loading := ExceptT GraphError Option

namespace GraphStore

section Reading

def stored? (store : GraphStore) (edge : EdgeRecord) : Option (StoredEdge EdgeKind) :=
  store.toLinkedStore.stored? edge.source edge.target edge.kind edge.moduleName

def node? (store : GraphStore) (id : NodeId) : Option NodeRecord :=
  (store.position? id).bind fun position => (store.nodes[position]?).map StoredNode.content

def outEdges? (store : GraphStore) (position : Nat) : Option (List (StoredEdge EdgeKind)) :=
  (store.nodes[position]?).bind fun node => node.outgoing.mapM fun index => store.edges[index]?

def inEdges? (store : GraphStore) (position : Nat) : Option (List (StoredEdge EdgeKind)) :=
  (store.nodes[position]?).bind fun node => node.incoming.mapM fun index => store.edges[index]?

def outNeighbors? (store : GraphStore) (kind : EdgeKind) (position : Nat) : Option (List Nat) :=
  (store.outEdges? position).map fun edges => (edges.filter fun edge => edge.kind == kind).map StoredEdge.target

def inNeighbors? (store : GraphStore) (kind : EdgeKind) (position : Nat) : Option (List Nat) :=
  (store.inEdges? position).map fun edges => (edges.filter fun edge => edge.kind == kind).map StoredEdge.source

end Reading

section Loading

def createNode (store : GraphStore) (node : NodeRecord) : GraphStore :=
  ⟨store.toLinkedStore.create node.id node, store.context⟩

def readNode (store : GraphStore) (node : NodeRecord) : Loading GraphStore :=
  if (store.position? node.id).isSome then throw (.duplicateNode node.id) else return store.createNode node

def resolve (store : GraphStore) (index : Nat) (kind : EdgeKind) (id : NodeId) : Loading Nat :=
  match store.position? id with
  | some position => return position
  | none => throw (.unknownNode index kind id)

def checkEndpoints (store : GraphStore) (index : Nat) (kind : EdgeKind) (source target : Nat) : Loading Unit :=
  match kind.endpoints? with
  | none => return ()
  | some (expectedSource, expectedTarget) => do
    let first ← liftM store.nodes[source]?
    let second ← liftM store.nodes[target]?
    if first.content.kind = expectedSource ∧ second.content.kind = expectedTarget then return ()
    else throw (.edgeEndpoint index kind first.id second.id expectedSource expectedTarget first.content.kind
      second.content.kind)

def addEdge (store : GraphStore) (edge : StoredEdge EdgeKind) : Loading GraphStore :=
  if edge.source < store.nodes.length ∧ edge.target < store.nodes.length then
    return ⟨store.toLinkedStore.append edge, store.context⟩
  else liftM (none : Option GraphStore)

/-- Adds an edge, whose number counts all edges. Those of other kinds are left out. -/
def readEdge (store : GraphStore) (entry : EdgeRecord × Nat) : Loading GraphStore :=
  if entry.1.kind = .other then return store
  else do
    let source ← store.resolve entry.2 entry.1.kind entry.1.source
    let target ← store.resolve entry.2 entry.1.kind entry.1.target
    store.checkEndpoints entry.2 entry.1.kind source target
    store.addEdge ⟨source, target, entry.1.kind, entry.1.moduleName⟩

def checkNode (store : GraphStore) (entry : StoredNode NodeRecord × Nat) : Loading Unit :=
  match entry.1.content with
  | .object _ => do
    let places ← liftM (store.outNeighbors? .objToAst entry.2)
    if 1 < places.length then throw (.multipleDefinitions entry.1.id places.length) else return ()
  | .ast ast =>
    match ast.moduleExports.find? fun target => (store.position? target).isNone with
    | some target => throw (.unknownExport entry.1.id target)
    | none => return ()
  | _ => return ()

def load (document : Document) : Loading GraphStore := do
  let context : Context := ⟨document.namedBuiltins, document.lastBuiltinId, document.packageRoot⟩
  let withNodes ← document.nodes.foldlM readNode ⟨.empty, context⟩
  let withEdges ← document.edges.zipIdx.foldlM readEdge withNodes
  forM withEdges.nodes.zipIdx withEdges.checkNode
  return withEdges

end Loading

section Settling
variable {α β : Type} {outcome : Loading α} {next : α → Loading β} {fault later : Option GraphError} {good : α → Prop}
  {better : β → Prop} {value : α} {error : GraphError}

/-- Reading stops with a fault, or there is none and reading gives a value that is as it should be. -/
def Settles (outcome : Loading α) (fault : Option GraphError) (good : α → Prop) : Prop :=
  match fault with
  | some error => outcome.run = some (.error error)
  | none => ∃ value, outcome.run = some (.ok value) ∧ good value

theorem settles_pure (holds : good value) : Settles (pure value) none good := ⟨value, rfl, holds⟩

theorem settles_throw : Settles (throw error) (some error) good := rfl

theorem settles_throw_bind : Settles (throw error >>= next) (some error) better := rfl

theorem lift_bind {found : Option α} (isValue : found = some value) : (liftM found : Loading α) >>= next = next value := by
  rw [isValue]
  rfl

/-- Of two parts, the second one is read if the first one has no fault. -/
theorem Settles.bind (first : Settles outcome fault good) (second : ∀ value, good value → Settles (next value) later better) :
    Settles (outcome >>= next) (fault.or later) better := by
  cases fault with
  | some error =>
    have stopped : outcome.run = some (.error error) := first
    have same : (outcome >>= next).run = some (.error error) := by
      rw [ExceptT.run_bind, stopped]
      rfl
    exact same
  | none =>
    obtain ⟨value, isValue, holds⟩ := first
    have same : (outcome >>= next).run = (next value).run := by
      rw [ExceptT.run_bind, isValue]
      rfl
    have settled := second value holds
    unfold Settles at settled ⊢
    rw [same]
    exact settled

variable {list done : List β} {faultOf : β → Option GraphError}

theorem findSome?_cons_eq_or {entry : β} : (entry :: list).findSome? faultOf = (faultOf entry).or (list.findSome? faultOf) := by
  rw [List.findSome?_cons]
  cases faultOf entry <;> rfl

/-- A pass over a list stops at the first entry with a fault. -/
theorem settles_foldlM {step : α → β → Loading α} (holds : List β → α → Prop) (list : List β) (initially : holds done value)
    (each : ∀ done state entry, holds done state → Settles (step state entry) (faultOf entry) (holds (done ++ [entry]))) :
    Settles (list.foldlM step value) (list.findSome? faultOf) (holds (done ++ list)) := by
  induction list generalizing done value with
  | nil =>
    rw [List.append_nil]
    exact settles_pure initially
  | cons entry rest ih =>
    rw [List.foldlM_cons, findSome?_cons_eq_or, ← List.singleton_append, ← List.append_assoc]
    exact (each done value entry initially).bind fun state kept => ih kept

theorem settles_forM {check : β → Loading Unit}
    (each : ∀ entry ∈ list, Settles (check entry) (faultOf entry) fun _ => True) :
    Settles (forM list check) (list.findSome? faultOf) fun _ => True := by
  induction list with
  | nil => exact settles_pure trivial
  | cons entry rest ih =>
    rw [List.forall_mem_cons] at each
    rw [List.forM_cons, findSome?_cons_eq_or]
    exact each.1.bind fun _ _ => ih each.2

end Settling

variable {store : GraphStore} {graph : ObjectGraph} {id : NodeId} {position index : Nat} {kind : EdgeKind} {edge : EdgeRecord}
  {stored : StoredEdge EdgeKind} {node : NodeRecord} {document : Document}

/-- A sound store holds the nodes and the edges of a graph, in their order. -/
structure Indexes (store : GraphStore) (graph : ObjectGraph) : Prop extends store.toLinkedStore.Sound where
  context : store.context = graph.context
  nodes : store.nodes.map StoredNode.content = graph.nodes
  numbers : store.nodes.map StoredNode.id = graph.ids
  edges : List.Forall₂ (fun edge stored => store.stored? edge = some stored) graph.edges store.edges

section Growing

theorem indexes_empty {context : Context} : Indexes ⟨.empty, context⟩ ⟨context, [], []⟩ where
  toSound := LinkedStore.sound_empty
  context := rfl
  nodes := rfl
  numbers := rfl
  edges := .nil

theorem Indexes.createNode (indexes : store.Indexes graph) (fresh : store.position? node.id = none) :
    (store.createNode node).Indexes { graph with nodes := graph.nodes ++ [node] } where
  toSound := indexes.toSound.create fresh
  context := indexes.context
  nodes := by simp [GraphStore.createNode, LinkedStore.create, indexes.nodes, StoredNode.alone]
  numbers := by simp [GraphStore.createNode, LinkedStore.create, indexes.numbers, StoredNode.alone, ObjectGraph.ids]
  edges := indexes.edges.imp fun edge stored isStored => LinkedStore.stored?_create fresh isStored

theorem Indexes.append (indexes : store.Indexes graph) (isStored : store.stored? edge = some stored) :
    Indexes ⟨store.toLinkedStore.append stored, store.context⟩ { graph with edges := graph.edges ++ [edge] } where
  toSound := by
    obtain ⟨sourceAt, targetAt, -⟩ := LinkedStore.stored?_eq_some_iff.mp isStored
    exact indexes.toSound.append ⟨indexes.lt_of_position? sourceAt, indexes.lt_of_position? targetAt⟩
  context := indexes.context
  nodes := (LinkedStore.map_nodes_append fun _ _ => rfl).trans indexes.nodes
  numbers := (LinkedStore.map_nodes_append fun _ _ => rfl).trans indexes.numbers
  edges := List.rel_append indexes.edges (.cons isStored .nil)

end Growing

section Answers

theorem Indexes.isSome_position?_iff (indexes : store.Indexes graph) : (store.position? id).isSome ↔ id ∈ graph.ids := by
  rw [indexes.toSound.isSome_position?_iff, indexes.numbers]

theorem Indexes.isNone_position? (indexes : store.Indexes graph) : (store.position? id).isNone = (graph.node? id).isNone := by
  have same : (store.position? id).isSome = (graph.node? id).isSome := by
    rw [Bool.eq_iff_iff, indexes.isSome_position?_iff, ObjectGraph.mem_ids_iff]
  rw [← Option.not_isSome, ← Option.not_isSome, same]

theorem Indexes.exists_position? (indexes : store.Indexes graph) (found : graph.node? id = some node) :
    ∃ position, store.position? id = some position := by
  rw [← Option.isSome_iff_exists, indexes.isSome_position?_iff, ObjectGraph.mem_ids_iff, found]
  rfl

theorem Indexes.id_content (indexes : store.Indexes graph) {node : StoredNode NodeRecord} (member : node ∈ store.nodes) :
    node.content.id = node.id := by
  have numbers := indexes.numbers
  rw [ObjectGraph.ids, ← indexes.nodes, List.map_map] at numbers
  exact (List.map_inj_left.mp numbers node member).symm

theorem Indexes.node?_eq_of_position? (indexes : store.Indexes graph) (isAt : store.position? id = some position) :
    ∃ node, store.nodes[position]? = some node ∧ node.id = id ∧ graph.node? id = some node.content := by
  obtain ⟨node, here, isNode⟩ := (indexes.found id position).mp isAt
  have member := List.mem_of_getElem? here
  have distinct : graph.ids.Nodup := indexes.numbers ▸ indexes.nodup_ids
  refine ⟨node, here, isNode, (ObjectGraph.node?_eq_some_iff distinct).mpr ⟨?_, (indexes.id_content member).trans isNode⟩⟩
  rw [← indexes.nodes]
  exact List.mem_map_of_mem member

theorem Indexes.node?_eq_none (indexes : store.Indexes graph) (missing : store.position? id = none) : graph.node? id = none := by
  rw [← Option.isNone_iff_eq_none, ← indexes.isNone_position?, missing]
  rfl

/-- The table finds the node that is found by going through all nodes. -/
theorem Indexes.node?_eq (indexes : store.Indexes graph) (id : NodeId) : store.node? id = graph.node? id := by
  cases isAt : store.position? id with
  | none => rw [GraphStore.node?, isAt, indexes.node?_eq_none isAt, Option.bind_none]
  | some position =>
    obtain ⟨node, here, -, found⟩ := indexes.node?_eq_of_position? isAt
    rw [GraphStore.node?, isAt, found, Option.bind_some, here, Option.map_some]

theorem position?_source (edge : EdgeRecord) (stored : StoredEdge EdgeKind) (isStored : store.stored? edge = some stored) :
    store.position? edge.source = some stored.source :=
  (LinkedStore.stored?_eq_some_iff.mp isStored).1

theorem position?_target (edge : EdgeRecord) (stored : StoredEdge EdgeKind) (isStored : store.stored? edge = some stored) :
    store.position? edge.target = some stored.target :=
  (LinkedStore.stored?_eq_some_iff.mp isStored).2.1

section Ends
variable {endOf : EdgeRecord → NodeId} {place : StoredEdge EdgeKind → Nat}
  (resolved : ∀ edge stored, store.stored? edge = some stored → store.position? (endOf edge) = some (place stored))
include resolved

/-- Of edges in two forms, those with an end at a node are the same ones. -/
theorem Indexes.forall₂_endsAt (indexes : store.Indexes graph) (isAt : store.position? id = some position) :
    List.Forall₂ (fun edge stored => store.stored? edge = some stored) (graph.edges.filter fun edge => endOf edge == id)
      (store.edges.filter fun edge => place edge == position) := by
  refine List.rel_filter (fun edge stored isStored => ?_) indexes.edges
  exact Bool.eq_iff_iff.mp (indexes.beq_position (resolved edge stored isStored) isAt).symm

/-- Edges of a kind in two forms have the same ends. -/
theorem forall₂_ends {edges : List EdgeRecord} {others : List (StoredEdge EdgeKind)} (kind : EdgeKind)
    (shown : List.Forall₂ (fun edge stored => store.stored? edge = some stored) edges others) :
    List.Forall₂ (fun id position => store.position? id = some position)
      ((edges.filter fun edge => edge.kind == kind).map endOf) ((others.filter fun edge => edge.kind == kind).map place) := by
  rw [List.forall₂_map_left_iff, List.forall₂_map_right_iff]
  refine (List.rel_filter (fun edge stored isStored => ?_) shown).imp resolved
  have same : edge.kind = stored.kind := (LinkedStore.stored?_eq_some_iff.mp isStored).2.2.1
  exact Bool.eq_iff_iff.mp (congrArg (· == kind) same)

end Ends

/-- The list of a node gives the edges that are found by going through all edges. -/
theorem Indexes.exists_outEdges? (indexes : store.Indexes graph) (isAt : store.position? id = some position) :
    ∃ edges, store.outEdges? position = some edges ∧
      List.Forall₂ (fun edge stored => store.stored? edge = some stored) (graph.outEdges id) edges := by
  obtain ⟨node, here, -, -⟩ := indexes.node?_eq_of_position? isAt
  refine ⟨store.edges.filter fun edge => edge.source == position, ?_, indexes.forall₂_endsAt position?_source isAt⟩
  rw [outEdges?, here, Option.bind_some]
  exact (indexes.outgoing position node here).mapM_getElem?

theorem Indexes.exists_inEdges? (indexes : store.Indexes graph) (isAt : store.position? id = some position) :
    ∃ edges, store.inEdges? position = some edges ∧
      List.Forall₂ (fun edge stored => store.stored? edge = some stored) (graph.inEdges id) edges := by
  obtain ⟨node, here, -, -⟩ := indexes.node?_eq_of_position? isAt
  refine ⟨store.edges.filter fun edge => edge.target == position, ?_, indexes.forall₂_endsAt position?_target isAt⟩
  rw [inEdges?, here, Option.bind_some]
  exact (indexes.incoming position node here).mapM_getElem?

/-- At the position of a node, a question finds the positions of some nodes. -/
def Finds (store : GraphStore) (ask : Nat → Option (List Nat)) (answer : NodeId → List NodeId) : Prop :=
  ∀ id position, store.position? id = some position → ∃ places, ask position = some places ∧
    List.Forall₂ (fun id place => store.position? id = some place) (answer id) places

theorem Indexes.finds_outNeighbors (indexes : store.Indexes graph) (kind : EdgeKind) :
    store.Finds (store.outNeighbors? kind) fun id => graph.outNeighbors id kind := by
  intro id position isAt
  obtain ⟨edges, found, shown⟩ := indexes.exists_outEdges? isAt
  exact ⟨_, by rw [outNeighbors?, found, Option.map_some], forall₂_ends position?_target kind shown⟩

theorem Indexes.finds_inNeighbors (indexes : store.Indexes graph) (kind : EdgeKind) :
    store.Finds (store.inNeighbors? kind) fun id => graph.inNeighbors id kind := by
  intro id position isAt
  obtain ⟨edges, found, shown⟩ := indexes.exists_inEdges? isAt
  exact ⟨_, by rw [inNeighbors?, found, Option.map_some], forall₂_ends position?_source kind shown⟩

/-- The table and the lists of a store answer what a graph answers, in the same order. -/
structure Answers (store : GraphStore) (graph : ObjectGraph) : Prop where
  node? : ∀ id, store.node? id = graph.node? id
  outEdges : ∀ id position, store.position? id = some position → ∃ edges, store.outEdges? position = some edges ∧
    List.Forall₂ (fun edge stored => store.stored? edge = some stored) (graph.outEdges id) edges
  inEdges : ∀ id position, store.position? id = some position → ∃ edges, store.inEdges? position = some edges ∧
    List.Forall₂ (fun edge stored => store.stored? edge = some stored) (graph.inEdges id) edges

theorem Indexes.answers (indexes : store.Indexes graph) : store.Answers graph where
  node? := indexes.node?_eq
  outEdges _ _ := indexes.exists_outEdges?
  inEdges _ _ := indexes.exists_inEdges?

end Answers

section Passes

/-- The nodes are put into the store until a number occurs again. -/
theorem Indexes.settles_nodes (indexes : store.Indexes graph) {earlier : List NodeId} {nodes : List NodeRecord}
    (known : ∀ id, id ∈ earlier ↔ id ∈ graph.ids) :
    Settles (nodes.foldlM readNode store) ((ObjectGraph.repeatedNode? earlier nodes).map .duplicateNode) fun later =>
      later.Indexes { graph with nodes := graph.nodes ++ nodes } := by
  induction nodes generalizing store graph earlier with
  | nil =>
    refine settles_pure ?_
    rw [List.append_nil]
    exact indexes
  | cons node rest ih =>
    rw [List.foldlM_cons, ObjectGraph.repeatedNode?]
    by_cases occurred : node.id ∈ earlier
    · have present := indexes.isSome_position?_iff.mpr ((known node.id).mp occurred)
      rw [if_pos occurred, readNode, if_pos present]
      exact settles_throw_bind
    · have absent : ¬ (store.position? node.id).isSome := fun present =>
        occurred ((known node.id).mpr (indexes.isSome_position?_iff.mp present))
      have grown := indexes.createNode (Option.not_isSome_iff_eq_none.mp absent)
      have knownNext : ∀ id, id ∈ node.id :: earlier ↔ id ∈ ObjectGraph.ids { graph with nodes := graph.nodes ++ [node] } := by
        intro id
        rw [ObjectGraph.ids, List.map_append, List.mem_append, List.mem_cons, known id, or_comm, List.map_singleton,
          List.mem_singleton]
        rfl
      have others := ih grown knownNext
      rw [if_neg occurred, readNode, if_neg absent, pure_bind]
      simpa only [List.append_assoc, List.singleton_append] using others

/-- An edge is put into the store unless it has a fault or is left out. -/
theorem Indexes.settles_readEdge (indexes : store.Indexes graph) :
    Settles (store.readEdge (edge, index)) (ObjectGraph.edgeFault? graph.nodes edge index) fun later =>
      later.Indexes { graph with edges := graph.edges ++ [edge].filter fun edge => edge.kind != .other } := by
  unfold readEdge ObjectGraph.edgeFault?
  by_cases other : edge.kind = .other
  · have skipped : [edge].filter (fun edge => edge.kind != .other) = [] := by simp [other]
    rw [if_pos other, other, skipped, List.append_nil]
    exact settles_pure indexes
  · obtain ⟨⟨expectedSource, expectedTarget⟩, expected⟩ := EdgeKind.exists_endpoints?_of_ne_other other
    have kept : [edge].filter (fun edge => edge.kind != .other) = [edge] := by simp [other]
    rw [if_neg other, expected, kept]
    dsimp only
    cases sourceAt : store.position? edge.source with
    | none =>
      have missing : findNode? graph.nodes edge.source = none := indexes.node?_eq_none sourceAt
      simp only [missing, resolve, sourceAt]
      exact settles_throw_bind
    | some source =>
      obtain ⟨first, firstHere, firstId, firstFound⟩ := indexes.node?_eq_of_position? sourceAt
      have isFirst : findNode? graph.nodes edge.source = some first.content := firstFound
      cases targetAt : store.position? edge.target with
      | none =>
        have missing : findNode? graph.nodes edge.target = none := indexes.node?_eq_none targetAt
        simp only [isFirst, missing, resolve, sourceAt, targetAt, pure_bind]
        exact settles_throw_bind
      | some target =>
        obtain ⟨second, secondHere, secondId, secondFound⟩ := indexes.node?_eq_of_position? targetAt
        have isSecond : findNode? graph.nodes edge.target = some second.content := secondFound
        have ends := And.intro (indexes.lt_of_position? sourceAt) (indexes.lt_of_position? targetAt)
        simp only [isFirst, isSecond, resolve, sourceAt, targetAt, pure_bind, checkEndpoints, expected, lift_bind firstHere,
          lift_bind secondHere]
        by_cases fits : first.content.kind = expectedSource ∧ second.content.kind = expectedTarget
        · rw [if_pos fits, if_pos fits, pure_bind, addEdge, if_pos ends]
          exact settles_pure (indexes.append (LinkedStore.stored?_eq_some_iff.mpr ⟨sourceAt, targetAt, rfl, rfl⟩))
        · rw [if_neg fits, if_neg fits, firstId, secondId]
          exact settles_throw_bind

/-- The graph of some nodes and of the edges that were read. -/
def graphAfter (context : Context) (nodes : List NodeRecord) (done : List (EdgeRecord × Nat)) : ObjectGraph :=
  ⟨context, nodes, (done.map Prod.fst).filter fun edge => edge.kind != .other⟩

theorem Indexes.settles_edges {context : Context} {nodes : List NodeRecord} (indexes : store.Indexes ⟨context, nodes, []⟩)
    (edges : List EdgeRecord) :
    Settles (edges.zipIdx.foldlM readEdge store)
      (edges.zipIdx.findSome? fun entry => ObjectGraph.edgeFault? nodes entry.1 entry.2) fun later =>
        later.Indexes ⟨context, nodes, edges.filter fun edge => edge.kind != .other⟩ := by
  have each : ∀ done (state : GraphStore) entry, state.Indexes (graphAfter context nodes done) →
      Settles (state.readEdge entry) (ObjectGraph.edgeFault? nodes entry.1 entry.2) fun later =>
        later.Indexes (graphAfter context nodes (done ++ [entry])) := by
    intro done state entry kept
    rw [graphAfter, List.map_append, List.filter_append]
    exact kept.settles_readEdge
  have initially : store.Indexes (graphAfter context nodes []) := indexes
  have pass := settles_foldlM (fun done state => Indexes state (graphAfter context nodes done)) edges.zipIdx initially each
  rw [List.nil_append, graphAfter, List.zipIdx_map_fst] at pass
  exact pass

theorem Indexes.settles_checkNode (indexes : store.Indexes graph) {node : StoredNode NodeRecord}
    (here : store.nodes[position]? = some node) :
    Settles (store.checkNode (node, position)) (ObjectGraph.nodeFault? graph node.content) fun _ => True := by
  have isAt := (indexes.found node.id position).mpr ⟨node, here, rfl⟩
  have sameId := indexes.id_content (List.mem_of_getElem? here)
  unfold checkNode
  cases content : node.content with
  | object object =>
    obtain ⟨places, found, shown⟩ := indexes.finds_outNeighbors .objToAst node.id position isAt
    rw [content] at sameId
    have isObject : object.id = node.id := sameId
    simp only [ObjectGraph.nodeFault?, lift_bind found, isObject, shown.length_eq]
    split
    · exact settles_throw
    · exact settles_pure trivial
  | ast ast =>
    rw [content] at sameId
    have isAst : ast.id = node.id := sameId
    simp only [ObjectGraph.nodeFault?, indexes.isNone_position?, isAst]
    split
    next target missing =>
      rw [missing]
      exact settles_throw
    next known =>
      rw [known]
      exact settles_pure trivial
  | name name => exact settles_pure trivial
  | scope scope => exact settles_pure trivial

theorem Indexes.settles_checks (indexes : store.Indexes graph) :
    Settles (forM store.nodes.zipIdx store.checkNode) (graph.nodes.findSome? (ObjectGraph.nodeFault? graph)) fun _ => True := by
  have sameFault : graph.nodes.findSome? (ObjectGraph.nodeFault? graph) =
      store.nodes.zipIdx.findSome? fun entry => ObjectGraph.nodeFault? graph entry.1.content := by
    conv_lhs => rw [← indexes.nodes, ← List.zipIdx_map_fst 0 store.nodes, List.map_map, List.findSome?_map]
    rfl
  rw [sameFault]
  exact settles_forM fun entry member => indexes.settles_checkNode (List.mem_zipIdx_iff_getElem?.mp member)

/-- Reading a document stops with what is found wrong with it as a whole, and else gives a store that indexes its graph. -/
theorem settles_load (document : Document) : Settles (load document) (ObjectGraph.fault? document) fun store =>
    store.Indexes (ObjectGraph.ofParts document) := by
  have withNodes : Settles (document.nodes.foldlM readNode ⟨.empty, (ObjectGraph.ofParts document).context⟩)
      ((ObjectGraph.repeatedNode? [] document.nodes).map .duplicateNode) fun later =>
        later.Indexes ⟨(ObjectGraph.ofParts document).context, document.nodes, []⟩ :=
    indexes_empty.settles_nodes fun _ => Iff.rfl
  rw [ObjectGraph.fault?_eq_or, ← Option.or_none (o := document.nodes.findSome? _)]
  exact withNodes.bind fun _ indexed => (indexed.settles_edges document.edges).bind fun _ complete =>
    complete.settles_checks.bind fun _ _ => settles_pure complete

theorem load_eq_error_iff {error : GraphError} :
    (load document).run = some (.error error) ↔ ObjectGraph.fault? document = some error := by
  have settled := settles_load document
  cases fault : ObjectGraph.fault? document with
  | some other =>
    rw [fault] at settled
    have stopped : (load document).run = some (.error other) := settled
    simp [stopped]
  | none =>
    rw [fault] at settled
    obtain ⟨store, loaded, -⟩ := settled
    simp [loaded]

theorem exists_load_eq_ok (sound : ObjectGraph.fault? document = none) :
    ∃ store, (load document).run = some (.ok store) ∧ store.Indexes (ObjectGraph.ofParts document) := by
  have settled := settles_load document
  rw [sound] at settled
  exact settled

theorem exists_load_of_ofDocument (valid : ObjectGraph.ofDocument document = .ok graph) :
    ∃ store, (load document).run = some (.ok store) ∧ store.Indexes graph := by
  obtain ⟨sound, rfl⟩ := ObjectGraph.ofDocument_eq_ok_iff.mp valid
  exact exists_load_eq_ok sound

theorem indexes_of_load (loaded : (load document).run = some (.ok store)) :
    ObjectGraph.fault? document = none ∧ store.Indexes (ObjectGraph.ofParts document) := by
  cases fault : ObjectGraph.fault? document with
  | some error => cases loaded.symm.trans (load_eq_error_iff.mpr fault)
  | none =>
    obtain ⟨same, loadedToo, indexes⟩ := exists_load_eq_ok fault
    cases loaded.symm.trans loadedToo
    exact ⟨rfl, indexes⟩

theorem exists_load_eq_ok_iff :
    (∃ store, (load document).run = some (.ok store)) ↔ ObjectGraph.fault? document = none := by
  constructor
  · rintro ⟨store, loaded⟩
    exact (indexes_of_load loaded).1
  · intro sound
    obtain ⟨store, loaded, -⟩ := exists_load_eq_ok sound
    exact ⟨store, loaded⟩

end Passes

end GraphStore

end DomainFlow
