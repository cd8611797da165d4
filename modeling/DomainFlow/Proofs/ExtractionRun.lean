import DomainFlow.Proofs.FlowStore
import DomainFlow.Proofs.GraphStore
import DomainFlow.Proofs.Propagation
import DomainFlow.Proofs.WalkRounds

/-!
How a data-flow graph is put together, one action after the other. First all places are added and joined, then the seeds,
then the edges with their ends. Each action finds in the store what it needs: a place is new when it is added and is there
already when it would be added as an object, and an edge comes after its ends. So the store is in step with the graph after
every action, and whoever reads the finished graph finds all that is looked up.
-/
namespace DomainFlow

/-- What extraction does to the graph that it puts together. -/
inductive FlowAction where
  | place (ast : AstRecord)
  | node (id : NodeId)
  | edge (edge : FlowEdge)

namespace ObjectGraph

/-- All that extraction does, in order. -/
def flowActions (graph : ObjectGraph) (seeds : Seeds) : List FlowAction :=
  (graph.nodes.filterMap NodeRecord.ast?).map .place ++
  (graph.parentEdges.map .edge ++
  (seeds.toList.map .node ++
  (graph.stepEdges seeds ++ graph.exportEdges).flatMap fun edge => [.node edge.source, .node edge.target, .edge edge]))

def act (graph : ObjectGraph) (seeds : Seeds) (flow : DataFlowGraph) : FlowAction → DataFlowGraph
  | .place ast => flow.addNode (graph.flowAst ast)
  | .node id => graph.addFlowNode seeds flow id
  | .edge edge => flow.addEdge edge

/-- What is stored for a node that is added as an object. A place would be stored like a name or scope. -/
def objectContent (graph : ObjectGraph) (seeds : Seeds) : NodeRecord → FlowContent
  | .object object => (graph.flowObject seeds object).content
  | record => (flowStub record).content

end ObjectGraph

/-- The store that extraction fills, and a table of the copies: the position in the store for a position in the object
graph. -/
structure ExtractionState where
  store : FlowStore
  mapping : SortedMap Nat Nat

namespace ExtractionState
variable {objects : GraphStore} {state : ExtractionState} {id : NodeId} {place : Nat} {content : FlowContent}

def empty : ExtractionState := ⟨.empty, .empty⟩

/-- Stores a copy of what stands at a place of the object graph, without a look at what is there. -/
def copy (state : ExtractionState) (place : Nat) (id : NodeId) (content : FlowContent) : ExtractionState :=
  ⟨state.store.create id content, state.mapping.insert place state.store.nodes.length⟩

/-- The table of copies and the table of the store say the same. -/
def InStep (state : ExtractionState) (objects : GraphStore) : Prop :=
  ∀ place position, state.mapping.get? place = some position ↔
    ∃ id, objects.position? id = some place ∧ state.store.position? id = some position

theorem inStep_empty : empty.InStep objects := by
  intro place position
  simp [empty, FlowStore.empty, LinkedStore.empty, LinkedStore.position?, SortedMap.get?, SortedMap.empty]

theorem InStep.get?_eq (inStep : state.InStep objects) (sound : objects.Sound) (isAt : objects.position? id = some place) :
    state.mapping.get? place = state.store.position? id := by
  ext position
  rw [inStep place position]
  constructor
  · rintro ⟨other, otherAt, found⟩
    exact sound.eq_of_position? otherAt isAt ▸ found
  · exact fun found => ⟨id, isAt, found⟩

theorem InStep.copy (inStep : state.InStep objects) (sound : objects.Sound) (isAt : objects.position? id = some place) :
    (state.copy place id content).InStep objects := by
  intro other position
  have table : (state.copy place id content).mapping.get? other =
      if other = place then some state.store.nodes.length else state.mapping.get? other := SortedMap.get?_insert
  have numbers : ∀ otherId, (state.copy place id content).store.position? otherId =
      if otherId = id then some state.store.nodes.length else state.store.position? otherId := fun _ => LinkedStore.position?_create
  simp only [table, numbers]
  by_cases same : other = place
  · rw [if_pos same, same]
    constructor
    · exact fun isLast => ⟨id, isAt, by rw [if_pos rfl, isLast]⟩
    · rintro ⟨otherId, otherAt, found⟩
      rw [if_pos (sound.eq_of_position? otherAt isAt)] at found
      exact found
  · have elsewhere : ∀ otherId, objects.position? otherId = some other → otherId ≠ id := by
      rintro otherId otherAt rfl
      exact same (Option.some.inj (otherAt.symm.trans isAt))
    rw [if_neg same, inStep other position]
    constructor
    · rintro ⟨otherId, otherAt, found⟩
      exact ⟨otherId, otherAt, by rw [if_neg (elsewhere otherId otherAt), found]⟩
    · rintro ⟨otherId, otherAt, found⟩
      rw [if_neg (elsewhere otherId otherAt)] at found
      exact ⟨otherId, otherAt, found⟩

end ExtractionState

namespace ObjectGraph

/-- What an action does to the state, if it finds what it needs. -/
def perform (graph : ObjectGraph) (objects : GraphStore) (seeds : Seeds) (state : ExtractionState) :
    FlowAction → Option ExtractionState
  | .place ast => (objects.position? ast.id).map fun place => state.copy place ast.id (graph.flowAst ast).content
  | .node id => (objects.position? id).bind fun place =>
    match state.mapping.get? place with
    | some _ => some state
    | none => (objects.nodes[place]?).map fun node => state.copy place node.id (graph.objectContent seeds node.content)
  | .edge edge =>
    match (objects.position? edge.source).bind state.mapping.get?, (objects.position? edge.target).bind state.mapping.get? with
    | some source, some target =>
      (state.store.addEdge? ⟨source, target, edge.kind, edge.label⟩).map fun store => ⟨store, state.mapping⟩
    | _, _ => none

variable {graph : ObjectGraph} {listed : List NodeId} {seeds : Seeds} {flow : DataFlowGraph} {id : NodeId}
  {objects : GraphStore} {state : ExtractionState} {edge : FlowEdge} {record : NodeRecord} {action : FlowAction}
  {actions first second : List FlowAction}

theorem foldl_act : (graph.flowActions seeds).foldl (graph.act seeds) .empty = graph.extractFrom seeds := by
  rw [flowActions, List.foldl_append, List.foldl_append, List.foldl_append, List.foldl_map, List.foldl_map, List.foldl_map,
    List.foldl_flatMap]
  rfl

theorem mem_ids_act (present : id ∈ flow.ids) : id ∈ (graph.act seeds flow action).ids := by
  cases action with
  | place ast => exact DataFlowGraph.mem_ids_addNode.mpr (.inl present)
  | node other => exact mem_ids_addFlowNode.mpr (.inl present)
  | edge edge =>
    rw [act, DataFlowGraph.ids_addEdge]
    exact present

section Step

/-- The ends of an edge are of the kinds that go with it. -/
def Fits (graph : ObjectGraph) (edge : FlowEdge) : Prop :=
  ∀ source target, graph.node? edge.source = some source → graph.node? edge.target = some target →
    edge.kind.fits (source.kind == .ast) (target.kind == .ast) = true

/-- An action comes at the right time. -/
def Allowed (graph : ObjectGraph) (flow : DataFlowGraph) : FlowAction → Prop
  | .place ast => graph.node? ast.id = some (.ast ast) ∧ ast.id ∉ flow.ids
  | .node id => ∃ record, graph.node? id = some record ∧ (record.kind = .ast → id ∈ flow.ids)
  | .edge edge => edge.source ∈ flow.ids ∧ edge.target ∈ flow.ids ∧ graph.Fits edge

/-- A store is sound and shows a graph, whose nodes are copies of those in another store, where the table finds them. -/
structure Mirrors (graph : ObjectGraph) (objects : GraphStore) (seeds : Seeds) (state : ExtractionState) (flow : DataFlowGraph) :
    Prop where
  indexes : objects.Indexes graph
  sound : state.store.Sound
  inStep : state.InStep objects
  shown : state.store.Shows flow
  copies : graph.Copies seeds flow

theorem mirrors_empty (indexes : objects.Indexes graph) : graph.Mirrors objects seeds .empty .empty :=
  ⟨indexes, FlowStore.sound_empty, ExtractionState.inStep_empty, FlowStore.shows_empty, List.nodup_nil,
    fun _ member => absurd member List.not_mem_nil⟩

theorem isPlace_flowNode : (graph.flowNode seeds record).content.isPlace = (record.kind == .ast) := by
  cases record <;> rfl

theorem flowNode_eq_of_kind (found : graph.node? id = some record) (isObject : record.kind ≠ .ast) :
    graph.flowNode seeds record = ⟨id, graph.objectContent seeds record⟩ := by
  rw [← id_of_node? found]
  cases record with
  | ast ast => exact absurd rfl isObject
  | _ => rfl

theorem Mirrors.position?_eq_none_iff (mirrors : graph.Mirrors objects seeds state flow) :
    state.store.position? id = none ↔ id ∉ flow.ids := by
  rw [mirrors.shown.mem_ids_iff mirrors.sound]
  simp

/-- Whether a stored node is a place can be told from the object graph. -/
theorem Mirrors.exists_record (mirrors : graph.Mirrors objects seeds state flow) {position : Nat} {node : StoredNode FlowContent}
    (isAt : state.store.position? id = some position) (here : state.store.nodes[position]? = some node) :
    ∃ record, graph.node? id = some record ∧ node.content.isPlace = (record.kind == .ast) := by
  obtain ⟨same, hereToo, rfl⟩ := (mirrors.sound.found id position).mp isAt
  cases here.symm.trans hereToo
  have member : ⟨node.id, node.content⟩ ∈ flow.nodes := by
    rw [mirrors.shown.nodes]
    exact List.mem_map_of_mem (List.mem_of_getElem? here)
  obtain ⟨record, found, isCopy⟩ := mirrors.copies.content _ member
  have copied : (graph.flowNode seeds record).content.isPlace = (record.kind == .ast) := isPlace_flowNode
  exact ⟨record, found, by rw [← copied, ← isCopy]⟩

/-- The copy of a node is stored where there was none. -/
theorem Mirrors.copy (mirrors : graph.Mirrors objects seeds state flow) {place : Nat} (isAt : objects.position? id = some place)
    (fresh : state.store.position? id = none) {content : FlowContent}
    (copied : graph.Copies seeds (flow.addNode ⟨id, content⟩)) :
    graph.Mirrors objects seeds (state.copy place id content) (flow.addNode ⟨id, content⟩) :=
  ⟨mirrors.indexes, mirrors.sound.create fresh, mirrors.inStep.copy mirrors.indexes.toSound isAt,
    mirrors.shown.create mirrors.sound fresh, copied⟩

theorem Mirrors.addPlace (mirrors : graph.Mirrors objects seeds state flow) {ast : AstRecord}
    (found : graph.node? ast.id = some (.ast ast)) (isNew : ast.id ∉ flow.ids) :
    ∃ later, graph.perform objects seeds state (.place ast) = some later ∧
      graph.Mirrors objects seeds later (flow.addNode (graph.flowAst ast)) := by
  obtain ⟨place, isAt⟩ := mirrors.indexes.exists_position? found
  have copied : graph.Copies seeds (flow.addNode (graph.flowNode seeds (.ast ast))) := mirrors.copies.addNode found
  exact ⟨state.copy place ast.id (graph.flowAst ast).content, by rw [perform, isAt, Option.map_some],
    mirrors.copy isAt (mirrors.position?_eq_none_iff.mpr isNew) copied⟩

theorem Mirrors.addNode (mirrors : graph.Mirrors objects seeds state flow) (found : graph.node? id = some record)
    (placesFirst : record.kind = .ast → id ∈ flow.ids) :
    ∃ later, graph.perform objects seeds state (.node id) = some later ∧
      graph.Mirrors objects seeds later (graph.addFlowNode seeds flow id) := by
  have added : graph.addFlowNode seeds flow id = flow.addNode (graph.flowNode seeds record) := by rw [addFlowNode, found]
  obtain ⟨place, isAt⟩ := mirrors.indexes.exists_position? found
  have table := mirrors.inStep.get?_eq mirrors.indexes.toSound isAt
  cases stored : state.store.position? id with
  | some position =>
    have present : (graph.flowNode seeds record).id ∈ flow.ids := by
      rw [id_flowNode, id_of_node? found, mirrors.shown.mem_ids_iff mirrors.sound, stored]
      rfl
    refine ⟨state, by rw [perform, isAt, Option.bind_some, table, stored], ?_⟩
    rw [added, DataFlowGraph.addNode, if_pos present]
    exact mirrors
  | none =>
    have isNew := mirrors.position?_eq_none_iff.mp stored
    -- Only here could a place be stored as an object, and places were added before.
    have isObject : record.kind ≠ .ast := fun isPlace => isNew (placesFirst isPlace)
    obtain ⟨node, here, isNode, isRecord⟩ := mirrors.indexes.node?_eq_of_position? isAt
    cases found.symm.trans isRecord
    have copied : graph.Copies seeds (graph.addFlowNode seeds flow id) := mirrors.copies.addFlowNode
    rw [added, flowNode_eq_of_kind found isObject] at copied ⊢
    refine ⟨state.copy place id (graph.objectContent seeds node.content), ?_, mirrors.copy isAt stored copied⟩
    rw [perform, isAt, Option.bind_some, table, stored]
    simp only [here, Option.map_some, isNode]

/-- What is in the graph is found in the store over the table of copies. -/
theorem Mirrors.exists_mapping (mirrors : graph.Mirrors objects seeds state flow) (present : id ∈ flow.ids) :
    ∃ position, state.store.position? id = some position ∧
      (objects.position? id).bind state.mapping.get? = some position := by
  rw [mirrors.shown.mem_ids_iff mirrors.sound, Option.isSome_iff_exists] at present
  obtain ⟨position, stored⟩ := present
  obtain ⟨node, here, -⟩ := (mirrors.sound.found id position).mp stored
  obtain ⟨record, found, -⟩ := mirrors.exists_record stored here
  obtain ⟨place, isAt⟩ := mirrors.indexes.exists_position? found
  exact ⟨position, stored, by rw [isAt, Option.bind_some, mirrors.inStep.get?_eq mirrors.indexes.toSound isAt, stored]⟩

theorem Mirrors.addEdge (mirrors : graph.Mirrors objects seeds state flow) (source : edge.source ∈ flow.ids)
    (target : edge.target ∈ flow.ids) (fits : graph.Fits edge) :
    ∃ later, graph.perform objects seeds state (.edge edge) = some later ∧
      graph.Mirrors objects seeds later (flow.addEdge edge) := by
  obtain ⟨start, sourceAt, sourceTable⟩ := mirrors.exists_mapping source
  obtain ⟨finish, targetAt, targetTable⟩ := mirrors.exists_mapping target
  have isStored : state.store.stored? edge = some ⟨start, finish, edge.kind, edge.label⟩ :=
    FlowStore.stored?_eq_some_iff.mpr ⟨sourceAt, targetAt, rfl, rfl⟩
  have storedFits : ∀ first second, state.store.nodes[start]? = some first → state.store.nodes[finish]? = some second →
      edge.kind.fits first.content.isPlace second.content.isPlace = true := by
    intro first second isFirst isSecond
    obtain ⟨sourceRecord, sourceFound, sourceKind⟩ := mirrors.exists_record sourceAt isFirst
    obtain ⟨targetRecord, targetFound, targetKind⟩ := mirrors.exists_record targetAt isSecond
    rw [sourceKind, targetKind]
    exact fits sourceRecord targetRecord sourceFound targetFound
  obtain ⟨later, added, sound, shown⟩ := mirrors.sound.exists_addEdge? mirrors.shown isStored storedFits
  have inStep : ExtractionState.InStep ⟨later, state.mapping⟩ objects := by
    intro place position
    simp only [FlowStore.position?_addEdge? added]
    exact mirrors.inStep place position
  exact ⟨⟨later, state.mapping⟩, by simp only [perform, sourceTable, targetTable, added, Option.map_some], mirrors.indexes, sound,
    inStep, shown, mirrors.copies.addEdge⟩

/-- An action that comes at the right time does the same to the store and to the graph. -/
theorem Mirrors.step (mirrors : graph.Mirrors objects seeds state flow) (allowed : graph.Allowed flow action) :
    ∃ later, graph.perform objects seeds state action = some later ∧
      graph.Mirrors objects seeds later (graph.act seeds flow action) := by
  cases action with
  | place ast => exact mirrors.addPlace allowed.1 allowed.2
  | node id =>
    obtain ⟨record, found, placesFirst⟩ := allowed
    exact mirrors.addNode found placesFirst
  | edge edge =>
    obtain ⟨source, target, fits⟩ := allowed
    exact mirrors.addEdge source target fits

end Step

section Run

def Ready (graph : ObjectGraph) (seeds : Seeds) : DataFlowGraph → List FlowAction → Prop
  | _, [] => True
  | flow, action :: rest => graph.Allowed flow action ∧ Ready graph seeds (graph.act seeds flow action) rest

theorem ready_append : graph.Ready seeds flow (first ++ second) ↔
    graph.Ready seeds flow first ∧ graph.Ready seeds (first.foldl (graph.act seeds) flow) second := by
  induction first generalizing flow with
  | nil => simp [Ready]
  | cons action rest ih => simp only [List.cons_append, Ready, List.foldl_cons, ih, and_assoc]

theorem Mirrors.run (mirrors : graph.Mirrors objects seeds state flow) (ready : graph.Ready seeds flow actions) :
    ∃ later, actions.foldlM (graph.perform objects seeds) state = some later ∧
      graph.Mirrors objects seeds later (actions.foldl (graph.act seeds) flow) := by
  induction actions generalizing state flow with
  | nil => exact ⟨state, rfl, mirrors⟩
  | cons action rest ih =>
    obtain ⟨next, performed, mirrorsNext⟩ := mirrors.step ready.1
    obtain ⟨later, ran, mirrorsLater⟩ := ih mirrorsNext ready.2
    exact ⟨later, by rw [List.foldlM_cons, performed]; exact ran, mirrorsLater⟩

end Run

section Order

def HasPlaces (graph : ObjectGraph) (flow : DataFlowGraph) : Prop := ∀ id, (graph.ast? id).isSome → id ∈ flow.ids

theorem HasPlaces.foldl (places : graph.HasPlaces flow) : graph.HasPlaces (actions.foldl (graph.act seeds) flow) := by
  induction actions generalizing flow with
  | nil => exact places
  | cons action rest ih => exact ih fun id isPlace => mem_ids_act (places id isPlace)

/-- Places with different numbers that are not there can be added one after the other. -/
theorem ready_places {places : List AstRecord} (distinct : places.Pairwise fun first second => first.id ≠ second.id)
    (known : ∀ ast ∈ places, graph.node? ast.id = some (.ast ast)) (fresh : ∀ ast ∈ places, ast.id ∉ flow.ids) :
    graph.Ready seeds flow (places.map .place) := by
  induction places generalizing flow with
  | nil => trivial
  | cons ast rest ih =>
    rw [List.forall_mem_cons] at known fresh
    obtain ⟨others, distinctRest⟩ := List.pairwise_cons.mp distinct
    refine ⟨⟨known.1, fresh.1⟩, ih distinctRest known.2 fun other member present => ?_⟩
    rcases DataFlowGraph.mem_ids_addNode.mp present with before | same
    · exact fresh.2 other member before
    · exact others other member same.symm

/-- Once all places are there, actions that need no more than that can follow in any order. -/
theorem ready_flatMap {α : Type} {items : List α} {steps : α → List FlowAction} (places : graph.HasPlaces flow)
    (each : ∀ item ∈ items, ∀ flow, graph.HasPlaces flow → graph.Ready seeds flow (steps item)) :
    graph.Ready seeds flow (items.flatMap steps) := by
  induction items generalizing flow with
  | nil => trivial
  | cons item rest ih =>
    rw [List.forall_mem_cons] at each
    rw [List.flatMap_cons, ready_append]
    exact ⟨each.1 flow places, ih places.foldl each.2⟩

theorem ready_map {α : Type} {items : List α} {step : α → FlowAction} (places : graph.HasPlaces flow)
    (each : ∀ item ∈ items, ∀ flow, graph.HasPlaces flow → graph.Allowed flow (step item)) :
    graph.Ready seeds flow (items.map step) := by
  rw [List.map_eq_flatMap]
  exact ready_flatMap places fun item member flow placesThere => ⟨each item member flow placesThere, trivial⟩

theorem HasPlaces.allowed_node (places : graph.HasPlaces flow) (known : (graph.node? id).isSome) :
    graph.Allowed flow (.node id) := by
  obtain ⟨record, found⟩ := Option.isSome_iff_exists.mp known
  exact ⟨record, found, fun isPlace => places id (isSome_ast?_of_kind found isPlace)⟩

theorem fits_of_kinds {source target : NodeKind}
    (isSource : ∃ node, graph.node? edge.source = some node ∧ node.kind = source)
    (isTarget : ∃ node, graph.node? edge.target = some node ∧ node.kind = target)
    (fits : edge.kind.fits (source == .ast) (target == .ast) = true) : graph.Fits edge := by
  obtain ⟨first, firstFound, rfl⟩ := isSource
  obtain ⟨second, secondFound, rfl⟩ := isTarget
  intro source target sourceFound targetFound
  cases firstFound.symm.trans sourceFound
  cases secondFound.symm.trans targetFound
  exact fits

theorem fits_of_joins (rules : graph.WellFormed) {kind : EdgeKind} {kinds : NodeKind × NodeKind}
    (joined : graph.Joins kind edge.source edge.target) (ends : kind.endpoints? = some kinds)
    (fits : edge.kind.fits (kinds.1 == .ast) (kinds.2 == .ast) = true) : graph.Fits edge :=
  fits_of_kinds (rules.source_kind joined ends) (rules.target_kind joined ends) fits

/-- The ends of an edge that is taken over are of the kinds that go with it. -/
theorem Taken.fits (rules : graph.WellFormed) (taken : graph.Taken listed edge) : graph.Fits edge := by
  cases taken with
  | place joined => exact fits_of_joins rules joined rfl rfl
  | contribution kinds joined _ => rcases kinds with rfl | rfl <;> exact fits_of_joins rules joined rfl rfl
  | result joined _ => exact fits_of_joins rules joined rfl rfl
  | module member _ => exact fits_of_joins rules ⟨_, member⟩ rfl rfl
  | definition joined _ => exact fits_of_joins rules joined rfl rfl
  | property property _ =>
    exact fits_of_kinds (rules.source_kind property.1 rfl) (rules.target_kind property.2 rfl) rfl
  | moduleExport found exported =>
    -- What a module exports may be of any kind.
    intro source target sourceFound _
    cases (ast?_eq_some_iff.mp found).symm.trans sourceFound
    rfl

theorem pairwise_places (distinct : graph.ids.Nodup) :
    (graph.nodes.filterMap NodeRecord.ast?).Pairwise fun first second => first.id ≠ second.id := by
  refine (List.pairwise_map.mp distinct).filterMap NodeRecord.ast? ?_
  intro node other different ast isAst otherAst isOther same
  rw [NodeRecord.ast?_eq_some_iff] at isAst isOther
  subst isAst isOther
  exact different same

theorem needed_of_mem_seeds (rules : graph.WellFormed) (accepted : graph.seeds listed = .ok seeds)
    (member : id ∈ seeds.toList) : graph.Needed listed id := by
  rcases (mem_seeds rules.distinct accepted).mp member with returned | ⟨object, found, shown⟩ | ⟨place, joined⟩
  · exact .callReturn returned
  · exact .exported found shown
  · exact .required joined

theorem ready_flowActions (rules : graph.WellFormed) (accepted : graph.seeds listed = .ok seeds) :
    graph.Ready seeds .empty (graph.flowActions seeds) := by
  have places : graph.HasPlaces (((graph.nodes.filterMap NodeRecord.ast?).map .place).foldl (graph.act seeds) .empty) := by
    intro id isPlace
    rw [← mem_ids_placesOnly rules.distinct, placesOnly, DataFlowGraph.ids, DataFlowGraph.nodes_foldl_addEdge] at isPlace
    rw [List.foldl_map]
    exact isPlace
  -- Only the places depend on what is there before; all that follows needs the places and what it adds itself.
  rw [flowActions, ready_append, ready_append, ready_append]
  refine ⟨ready_places (pairwise_places rules.distinct) (fun ast => (mem_places rules.distinct).mp)
    fun ast _ => List.not_mem_nil, ready_map places ?_, ready_map places.foldl ?_, ready_flatMap places.foldl.foldl ?_⟩
  · intro edge member flow placesThere
    obtain ⟨outer, inner, joined, rfl⟩ := mem_parentEdges.mp member
    obtain ⟨source, sourceFound, sourceKind⟩ := rules.source_kind joined rfl
    obtain ⟨target, targetFound, targetKind⟩ := rules.target_kind joined rfl
    exact ⟨placesThere _ (isSome_ast?_of_kind sourceFound sourceKind),
      placesThere _ (isSome_ast?_of_kind targetFound targetKind), fits_of_joins rules joined rfl rfl⟩
  · intro seed member flow placesThere
    have isObject := (needed_of_mem_seeds rules accepted member).isObject rules
    exact placesThere.allowed_node (isSome_node?_of_object? isObject)
  · intro edge member flow placesThere
    have taken := (mem_offeredEdges rules accepted).mp (List.mem_append_right _ member)
    obtain ⟨source, target⟩ := taken.ends_kept rules
    have sourceKnown := source.isNode rules
    have targetKnown := target.isNode rules
    have placesNext : graph.HasPlaces (graph.addFlowNode seeds flow edge.source) := fun id isPlace =>
      mem_ids_addFlowNode.mpr (.inl (placesThere id isPlace))
    have sourceThere : edge.source ∈ (graph.addFlowNode seeds flow edge.source).ids :=
      mem_ids_addFlowNode.mpr (.inr ⟨sourceKnown, rfl⟩)
    have targetThere : edge.target ∈ (graph.addFlowNode seeds (graph.addFlowNode seeds flow edge.source) edge.target).ids :=
      mem_ids_addFlowNode.mpr (.inr ⟨targetKnown, rfl⟩)
    exact ⟨placesThere.allowed_node sourceKnown, placesNext.allowed_node targetKnown,
      ⟨mem_ids_addFlowNode.mpr (.inl sourceThere), targetThere, taken.fits rules⟩, trivial⟩

end Order

end ObjectGraph

namespace FlowStore
variable {store : FlowStore} {flow : DataFlowGraph} {root id : NodeId} {domain : Domain} {path : PropagationPath}

structure ReadablePath (store : FlowStore) (flow : DataFlowGraph) (path : PropagationPath) : Prop where
  nodes : ∀ id ∈ path.nodes, store.Readable flow id
  edges : ∀ index ∈ path.edges, store.HasEdge index

theorem Sound.readablePath (sound : store.Sound) (shown : store.Shows flow) (rules : flow.WellFormed) (present : root ∈ flow.ids)
    (follows : flow.Follows root id path) : store.ReadablePath flow path := by
  induction follows with
  | start =>
    refine ⟨fun id member => ?_, fun index member => absurd member List.not_mem_nil⟩
    rw [List.mem_singleton.mp member]
    exact sound.readable shown present
  | @extend id path edge index _ leaves _ ih =>
    obtain ⟨isEdge, -⟩ := DataFlowGraph.mem_outEdges_iff.mp leaves
    constructor
    · intro other member
      rcases List.mem_append.mp member with before | last
      · exact ih.nodes other before
      · rw [List.mem_singleton.mp last]
        exact sound.readable shown (rules.closed edge (List.mem_of_getElem? isEdge))
    · intro other member
      rcases List.mem_append.mp member with before | last
      · exact ih.edges other before
      · rw [List.mem_singleton.mp last]
        exact sound.hasEdge (shown.edges.length_eq ▸ (List.getElem?_eq_some_iff.mp isEdge).1)

end FlowStore

namespace DataFlowGraph
variable {flow : DataFlowGraph} {root id : NodeId} {domain : Domain} {path : PropagationPath} {prior : PathTable}
  {spread spreadLater : SpreadState} {walk walkLater : WalkState} {seen : List NodeId} {revisit : Bool} {count : Nat}

/-- The paths that a spreading domain knows and those that wait can be followed from the root. -/
structure SpreadFollows (flow : DataFlowGraph) (domain : Domain) (root : NodeId) (state : SpreadState) : Prop where
  kept : ∀ id path, state.table id domain root = some path → flow.Follows root id path
  waiting : ∀ entry ∈ state.pending, flow.Follows root entry.1 entry.2

theorem Follows.mem_nodes (follows : flow.Follows root id path) : id ∈ path.nodes := by
  cases follows with
  | start => exact List.mem_singleton_self root
  | extend => exact List.mem_append_right _ (List.mem_singleton_self _)

theorem Follows.onward (follows : flow.Follows root id path) {known : NodeId → Option PropagationPath}
    {entry : NodeId × PropagationPath} (member : entry ∈ flow.onward known id path) : flow.Follows root entry.1 entry.2 := by
  simp only [DataFlowGraph.onward, List.mem_reverse, List.mem_map, List.mem_filter, Bool.and_eq_true, Prod.exists] at member
  obtain ⟨edge, index, ⟨leaves, handsOn, -⟩, rfl⟩ := member
  exact .extend follows leaves handsOn

theorem SpreadFollows.round (holds : flow.SpreadFollows domain root spread)
    (moved : flow.spreadRound domain root spread = some spreadLater) : flow.SpreadFollows domain root spreadLater := by
  obtain ⟨id, path, rest, waits, rfl | ⟨-, rfl⟩⟩ := spreadRound_cases moved
  · exact ⟨holds.kept, fun entry member => holds.waiting entry (waits ▸ List.mem_cons_of_mem _ member)⟩
  · have head : flow.Follows root id path := holds.waiting (id, path) (waits ▸ List.mem_cons_self)
    constructor
    · intro other way isKnown
      simp only [recordPath, PathTable.record] at isKnown
      split at isKnown
      next same =>
        cases isKnown
        exact same.1 ▸ head
      next => exact holds.kept other way isKnown
    · intro entry member
      rcases List.mem_append.mp member with isNew | behind
      · exact head.onward isNew
      · exact holds.waiting entry (waits ▸ List.mem_cons_of_mem _ behind)

theorem spreadFollows_of_rounds (unknown : ∀ id, prior id domain root = none)
    (rounds : Rounds (flow.spreadRound domain root) count (.start prior root) spread) : flow.SpreadFollows domain root spread := by
  refine rounds.keeps (fun _ _ holds moved => SpreadFollows.round holds moved) ⟨fun id path isKnown => ?_, fun entry member => ?_⟩
  · simp [SpreadState.start, unknown] at isKnown
  · rw [List.mem_singleton.mp member]
    exact .start

/-- The visits that wait lead over nodes of the graph. -/
def WalksInside (flow : DataFlowGraph) (state : WalkState) : Prop :=
  ∀ visit ∈ state.queue, visit.node ∈ flow.ids ∧ visit.path ⊆ flow.ids

theorem WalksInside.round (rules : flow.WellFormed) (inside : flow.WalksInside walk)
    (moved : flow.walkRound root revisit walk = some walkLater) : flow.WalksInside walkLater := by
  obtain ⟨visit, rest, waits, rfl | ⟨-, rfl⟩⟩ := walkRound_cases moved
  · exact fun other member => inside other (waits ▸ List.mem_cons_of_mem _ member)
  · intro other member
    rcases List.mem_append.mp member with behind | follows
    · exact inside other (waits ▸ List.mem_cons_of_mem _ behind)
    · simp only [visitsBeyond, List.mem_map, List.mem_filter] at follows
      obtain ⟨target, ⟨isTarget, -⟩, rfl⟩ := follows
      obtain ⟨edge, isEdge, -, rfl, -⟩ := mem_flowTargets.mp isTarget
      have present := rules.closed edge isEdge
      refine ⟨present, List.append_subset.mpr ⟨(inside visit (waits ▸ List.mem_cons_self)).2, ?_⟩⟩
      simpa using present

theorem walksInside_of_rounds (rules : flow.WellFormed) (present : root ∈ flow.ids)
    (rounds : Rounds (flow.walkRound root revisit) count (.start seen root) walk) : flow.WalksInside walk := by
  refine rounds.keeps (fun _ _ inside moved => WalksInside.round rules inside moved) fun visit member => ?_
  rw [List.mem_singleton.mp member]
  exact ⟨present, by simpa using present⟩

/-- A path on which a domain has arrived starts at a node of the graph. -/
theorem exists_follows_of_mem_arrivals {builtinsDirectory : Option String} {arrival : Arrival}
    (arrived : arrival ∈ (Propagation.spread flow (.assign flow builtinsDirectory)).arrivals id) :
    arrival.root ∈ flow.ids ∧ flow.Follows arrival.root id arrival.path := by
  simp only [Propagation.arrivals, Propagation.spread, List.mem_filterMap, List.mem_map, List.mem_filter,
    DirectDomains.assign, Option.map_eq_some_iff] at arrived
  obtain ⟨_, ⟨_, ⟨⟨first, present, domain, -, rfl⟩, -⟩, rfl⟩, path, found, rfl⟩ := arrived
  exact ⟨present, follows_of_lookup_spreadFrom found⟩

end DataFlowGraph

namespace ObjectGraph
variable {graph : ObjectGraph} {listed : List NodeId} {seeds : Seeds}

/-- After every action of an extraction the store is sound and shows the graph so far, the table of copies is in step with it,
and all that is read at a node is there. The store of the whole run shows the graph that is extracted. In it, all is there that
is read where a domain goes on or has arrived, at every round of spreading and of walking, and along every path whose properties
are named. -/
theorem store_sound_throughout {document : Document} (valid : ofDocument document = .ok graph)
    (accepted : graph.seeds listed = .ok seeds) :
    ∃ objects, (GraphStore.load document).run = some (.ok objects) ∧ objects.Indexes graph ∧
    (∀ done rest, graph.flowActions seeds = done ++ rest →
      ∃ state, done.foldlM (graph.perform objects seeds) .empty = some state ∧ state.store.Sound ∧ state.InStep objects ∧
        state.store.Shows (done.foldl (graph.act seeds) .empty) ∧
        ∀ id ∈ (done.foldl (graph.act seeds) .empty).ids,
          state.store.Readable (done.foldl (graph.act seeds) .empty) id) ∧
    ∃ store mapping flow, (graph.flowActions seeds).foldlM (graph.perform objects seeds) .empty = some ⟨store, mapping⟩ ∧
      graph.extract listed = .ok flow ∧ store.Sound ∧ store.Shows flow ∧
      (∀ root ∈ flow.ids, ∀ domain prior, (∀ id, prior id domain root = none) →
        ∀ count state, Rounds (flow.spreadRound domain root) count (.start prior root) state →
          (∀ entry ∈ state.pending, store.Readable flow entry.1 ∧ store.ReadablePath flow entry.2) ∧
          ∀ id path, state.table id domain root = some path → store.ReadablePath flow path) ∧
      (∀ root ∈ flow.ids, ∀ seen revisit count state,
        Rounds (flow.walkRound root revisit) count (.start seen root) state →
          ∀ visit ∈ state.queue, store.Readable flow visit.node ∧ ∀ id ∈ visit.path, store.Readable flow id) ∧
      ∀ builtinsDirectory id, ∀ arrival ∈ (Propagation.spread flow (.assign flow builtinsDirectory)).arrivals id,
        store.ReadablePath flow arrival.path := by
  have rules := wellFormed_of_ofDocument valid
  have ready := ready_flowActions rules accepted
  obtain ⟨objects, loaded, indexes⟩ := GraphStore.exists_load_of_ofDocument valid
  refine ⟨objects, loaded, indexes, fun done rest split => ?_, ?_⟩
  · rw [split, ready_append] at ready
    obtain ⟨state, ran, mirrors⟩ := (mirrors_empty indexes).run ready.1
    exact ⟨state, ran, mirrors.sound, mirrors.inStep, mirrors.shown,
      fun id present => mirrors.sound.readable mirrors.shown present⟩
  · obtain ⟨⟨store, mapping⟩, ran, -, sound, -, shown, -⟩ := (mirrors_empty indexes).run ready
    rw [foldl_act] at shown
    have extracted := extract_eq_of_seeds accepted
    have closed := DataFlowGraph.wellFormed_extract rules extracted
    refine ⟨store, mapping, graph.extractFrom seeds, ran, extracted, sound, shown, ?_, ?_, ?_⟩
    · intro root present domain prior unknown count state rounds
      have follows := DataFlowGraph.spreadFollows_of_rounds unknown rounds
      refine ⟨fun entry member => ?_, fun id path isKnown => sound.readablePath shown closed present (follows.kept id path isKnown)⟩
      have waits := follows.waiting entry member
      have readable := sound.readablePath shown closed present waits
      exact ⟨readable.nodes _ waits.mem_nodes, readable⟩
    · intro root present seen revisit count state rounds visit member
      obtain ⟨node, path⟩ := DataFlowGraph.walksInside_of_rounds closed present rounds visit member
      exact ⟨sound.readable shown node, fun id onPath => sound.readable shown (path onPath)⟩
    · intro builtinsDirectory id arrival arrived
      obtain ⟨present, follows⟩ := DataFlowGraph.exists_follows_of_mem_arrivals arrived
      exact sound.readablePath shown closed present follows

theorem store_sound_throughout_leaking : ofDocument leakingDocument = .ok leakingGraph ∧
    leakingGraph.seeds [12] = .ok ⟨[], [12], [10]⟩ ∧
    ∃ objects, (GraphStore.load leakingDocument).run = some (.ok objects) ∧ ∃ store mapping flow,
      (leakingGraph.flowActions ⟨[], [12], [10]⟩).foldlM (leakingGraph.perform objects ⟨[], [12], [10]⟩) .empty =
        some ⟨store, mapping⟩ ∧
      leakingGraph.extract [12] = .ok flow ∧ store.Sound ∧ store.Shows flow ∧ 13 ∈ flow.ids ∧
      ∀ count state, Rounds (flow.walkRound 13 false) count (.start [] 13) state →
        ∀ visit ∈ state.queue, store.Readable flow visit.node := by
  have valid : ofDocument leakingDocument = .ok leakingGraph := rfl
  have accepted : leakingGraph.seeds [12] = .ok ⟨[], [12], [10]⟩ := rfl
  obtain ⟨objects, loaded, -, -, store, mapping, flow, ran, extracted, sound, shown, -, walks, -⟩ :=
    store_sound_throughout valid accepted
  cases extracted.symm.trans (extract_eq_of_seeds accepted)
  have isObject : leakingGraph.object? 12 = some { id := 12 } := rfl
  have exported : leakingGraph.Needed [12] 12 := .exported isObject (.inr (by decide))
  have contributes : leakingGraph.Joins .contributesTo 13 12 := ⟨none, by decide⟩
  have present := (mem_ids_extractFrom_iff_kept (wellFormed_of_ofDocument valid) accepted).mpr
    (.inr (.inl (.source (by decide) contributes exported)))
  exact ⟨valid, accepted, objects, loaded, store, mapping, _, ran, extracted, sound, shown, present,
    fun count state rounds visit member => (walks 13 present [] false count state rounds visit member).1⟩

end ObjectGraph

end DomainFlow
