import Mathlib.Data.List.Forall2
import Mathlib.Data.List.Sort
import DomainFlow.Graph.Kind
import DomainFlow.Proofs.SortedMap

/-!
Nodes and edges as they are kept while they grow. Both stand at positions, in the order in which they came. A node has lists of
the positions of the edges that leave it and of those that enter it, and a table gives the position of a number. Adding a node
with a new number, or an edge between nodes that are there, keeps all of these in step.
-/
namespace DomainFlow

/-- A node with the positions of the edges that leave it and of those that enter it. -/
structure StoredNode (ν : Type) where
  id : NodeId
  content : ν
  outgoing : List Nat
  incoming : List Nat
deriving DecidableEq

namespace StoredNode
variable {ν : Type}

def alone (id : NodeId) (content : ν) : StoredNode ν := ⟨id, content, [], []⟩

def addOutgoing (index : Nat) (node : StoredNode ν) : StoredNode ν := { node with outgoing := node.outgoing ++ [index] }

def addIncoming (index : Nat) (node : StoredNode ν) : StoredNode ν := { node with incoming := node.incoming ++ [index] }

end StoredNode

structure StoredEdge (κ : Type) where
  source : Nat
  target : Nat
  kind : κ
  label : Option String
deriving DecidableEq

/-- Where each entry gives a value, the list gives the list of the values. -/
theorem mapM_eq_some_iff {α β : Type} {read : α → Option β} {list : List α} {values : List β} :
    list.mapM read = some values ↔ List.Forall₂ (fun entry value => read entry = some value) list values := by
  induction list generalizing values with
  | nil => simp [eq_comm]
  | cons entry rest ih =>
    rw [List.mapM_cons, List.forall₂_cons_left_iff]
    cases read entry with
    | none => simp
    | some value =>
      cases others : rest.mapM read with
      | none => simp [← ih, others]
      | some more => simp [← ih, others, eq_comm]

section Lists
variable {α : Type} {list : List α} {test : α → Bool} {positions : List Nat}

/-- Positions in a list that ascend, and among which that of each entry that passes a test occurs once, and no other. -/
structure Lists (list : List α) (test : α → Bool) (positions : List Nat) : Prop where
  ascending : positions.Pairwise (· < ·)
  once : ∀ index, positions.count index = if (list[index]?).any test then 1 else 0

theorem Lists.mem_iff (lists : Lists list test positions) {index : Nat} :
    index ∈ positions ↔ ∃ entry, list[index]? = some entry ∧ test entry = true := by
  rw [← List.count_pos_iff, lists.once index, ← Option.any_eq_true]
  split <;> simp_all

theorem Lists.lt_length (lists : Lists list test positions) {index : Nat} (listed : index ∈ positions) :
    index < list.length := by
  obtain ⟨entry, found, -⟩ := lists.mem_iff.mp listed
  exact (List.getElem?_eq_some_iff.mp found).1

theorem lists_nil (unused : ∀ entry ∈ list, test entry = false) : Lists list test [] := by
  refine ⟨List.Pairwise.nil, fun index => ?_⟩
  cases found : list[index]? with
  | none => rfl
  | some entry => simp [unused entry (List.mem_of_getElem? found)]

/-- One entry more is one position more at the end, if the entry passes the test. -/
theorem Lists.append (lists : Lists list test positions) (entry : α) :
    Lists (list ++ [entry]) test (if test entry then positions ++ [list.length] else positions) := by
  constructor
  · split
    · refine List.pairwise_append.mpr ⟨lists.ascending, List.pairwise_singleton _ _, fun index listed last isLast => ?_⟩
      rw [List.mem_singleton.mp isLast]
      exact lists.lt_length listed
    · exact lists.ascending
  · intro index
    have before := lists.once index
    rcases Nat.lt_trichotomy index list.length with earlier | rfl | beyond
    · rw [List.getElem?_append_left earlier, ← before]
      split
      · rw [List.count_append, List.count_singleton]
        simp [Nat.ne_of_gt earlier]
      · rfl
    · have missing : positions.count list.length = 0 := by simp [before]
      rw [List.getElem?_concat_length, Option.any_some]
      split
      · rw [List.count_append, missing, List.count_singleton_self]
      · exact missing
    · have absent : (list ++ [entry])[index]? = none := List.getElem?_eq_none (by simpa using Nat.succ_le_of_lt beyond)
      have missing : positions.count index = 0 := by
        rw [before, List.getElem?_eq_none (Nat.le_of_lt beyond)]
        rfl
      rw [absent]
      split
      · rw [List.count_append, missing, List.count_singleton]
        simp [Nat.ne_of_lt beyond]
      · exact missing

/-- There is one such list of positions: the one that is found by going through all entries. -/
theorem Lists.eq_filter (lists : Lists list test positions) :
    positions = (list.zipIdx.filter fun entry => test entry.1).map Prod.snd := by
  have ascending : ((list.zipIdx.filter fun entry => test entry.1).map Prod.snd).Pairwise (· < ·) := by
    have inside : ((list.zipIdx.filter fun entry => test entry.1).map Prod.snd).Sublist (List.range' 0 list.length) := by
      rw [← List.zipIdx_map_snd]
      exact List.filter_sublist.map Prod.snd
    exact (List.pairwise_lt_range' 1).sublist inside
  refine lists.ascending.eq_of_mem_iff ascending fun index => ?_
  rw [lists.mem_iff, List.mem_map]
  constructor
  · rintro ⟨entry, found, passes⟩
    exact ⟨(entry, index), List.mem_filter.mpr ⟨List.mk_mem_zipIdx_iff_getElem?.mpr found, passes⟩, rfl⟩
  · rintro ⟨entry, member, rfl⟩
    obtain ⟨inList, passes⟩ := List.mem_filter.mp member
    exact ⟨entry.1, List.mem_zipIdx_iff_getElem?.mp inList, passes⟩

/-- What stands at the positions are the entries that pass the test, in their order. -/
theorem Lists.mapM_getElem? (lists : Lists list test positions) :
    positions.mapM (fun index => list[index]?) = some (list.filter test) := by
  have passing : list.filter test = (list.zipIdx.filter fun entry => test entry.1).map Prod.fst := by
    conv_lhs => rw [← List.zipIdx_map_fst 0 list, List.filter_map]
    rfl
  rw [mapM_eq_some_iff, lists.eq_filter, passing, List.forall₂_map_left_iff, List.forall₂_map_right_iff, List.forall₂_same]
  exact fun entry member => List.mem_zipIdx_iff_getElem?.mp (List.mem_of_mem_filter member)

/-- The same positions are listed for entries in another form. -/
theorem Lists.transfer {β : Type} {others : List β} {otherTest : β → Bool} {form : β → α → Prop}
    (lists : Lists list test positions) (shown : List.Forall₂ form others list)
    (agrees : ∀ other entry, form other entry → test entry = otherTest other) : Lists others otherTest positions := by
  have same : others.map otherTest = list.map test := by
    rw [← List.forall₂_eq_eq_eq, List.forall₂_map_left_iff, List.forall₂_map_right_iff]
    exact shown.imp fun other entry isForm => (agrees other entry isForm).symm
  have anyMap : ∀ {γ : Type} (entry : Option γ) (passes : γ → Bool), entry.any passes = (entry.map passes).any id := by
    intro γ entry passes
    cases entry <;> rfl
  refine ⟨lists.ascending, fun index => ?_⟩
  rw [lists.once index, anyMap, ← List.getElem?_map, ← same, List.getElem?_map, ← anyMap]

end Lists

structure LinkedStore (ν κ : Type) where
  nodes : List (StoredNode ν)
  edges : List (StoredEdge κ)
  positions : SortedMap NodeId Nat

namespace LinkedStore
variable {ν κ : Type}

def empty : LinkedStore ν κ := ⟨[], [], .empty⟩

def position? (store : LinkedStore ν κ) (id : NodeId) : Option Nat := store.positions.get? id

/-- An edge as it is stored, if the numbers of its ends have positions. -/
def stored? (store : LinkedStore ν κ) (source target : NodeId) (kind : κ) (label : Option String) : Option (StoredEdge κ) :=
  match store.position? source, store.position? target with
  | some first, some second => some ⟨first, second, kind, label⟩
  | _, _ => none

/-- Puts a node behind all others, whether or not its number is taken. -/
def create (store : LinkedStore ν κ) (id : NodeId) (content : ν) : LinkedStore ν κ where
  nodes := store.nodes ++ [.alone id content]
  edges := store.edges
  positions := store.positions.insert id store.nodes.length

/-- Puts an edge behind all others, and its position at the end of the lists of the nodes that it joins. -/
def append (store : LinkedStore ν κ) (edge : StoredEdge κ) : LinkedStore ν κ where
  nodes := (store.nodes.modify edge.source (.addOutgoing store.edges.length)).modify edge.target
    (.addIncoming store.edges.length)
  edges := store.edges ++ [edge]
  positions := store.positions

/-- Numbers and positions of nodes determine each other, edges join nodes that are there, and the lists of a node hold each of
its edges once and in order. -/
structure Sound (store : LinkedStore ν κ) : Prop where
  found : ∀ id position, store.position? id = some position ↔ ∃ node, store.nodes[position]? = some node ∧ node.id = id
  joined : ∀ edge ∈ store.edges, edge.source < store.nodes.length ∧ edge.target < store.nodes.length
  outgoing : ∀ position node, store.nodes[position]? = some node →
    Lists store.edges (fun edge => edge.source == position) node.outgoing
  incoming : ∀ position node, store.nodes[position]? = some node →
    Lists store.edges (fun edge => edge.target == position) node.incoming

variable {store : LinkedStore ν κ} {id other source target : NodeId} {content : ν} {kind : κ} {label : Option String}
  {stored : StoredEdge κ} {node : StoredNode ν} {position : Nat}

theorem sound_empty : (empty : LinkedStore ν κ).Sound where
  found id position := by simp [empty, position?, SortedMap.get?, SortedMap.empty]
  joined edge member := by cases member
  outgoing position node found := by simp [empty] at found
  incoming position node found := by simp [empty] at found

section Positions

theorem Sound.eq_of_position? (sound : store.Sound) (first : store.position? id = some position)
    (second : store.position? other = some position) : id = other := by
  obtain ⟨node, here, isNode⟩ := (sound.found id position).mp first
  obtain ⟨same, hereToo, isSame⟩ := (sound.found other position).mp second
  cases here.symm.trans hereToo
  exact isNode.symm.trans isSame

theorem Sound.lt_of_position? (sound : store.Sound) (isAt : store.position? id = some position) :
    position < store.nodes.length := by
  obtain ⟨node, here, -⟩ := (sound.found id position).mp isAt
  exact (List.getElem?_eq_some_iff.mp here).1

/-- Two numbers have the same position exactly if they are the same. -/
theorem Sound.beq_position (sound : store.Sound) {first second : Nat} (isFirst : store.position? id = some first)
    (isSecond : store.position? other = some second) : (first == second) = (id == other) := by
  rw [Bool.eq_iff_iff, beq_iff_eq, beq_iff_eq]
  constructor
  · rintro rfl
    exact sound.eq_of_position? isFirst isSecond
  · rintro rfl
    exact Option.some.inj (isFirst.symm.trans isSecond)

theorem Sound.isSome_position?_iff (sound : store.Sound) :
    (store.position? id).isSome ↔ id ∈ store.nodes.map StoredNode.id := by
  rw [List.mem_map, Option.isSome_iff_exists]
  constructor
  · rintro ⟨position, isAt⟩
    obtain ⟨node, here, isNode⟩ := (sound.found id position).mp isAt
    exact ⟨node, List.mem_of_getElem? here, isNode⟩
  · rintro ⟨node, member, isNode⟩
    obtain ⟨position, here⟩ := List.mem_iff_getElem?.mp member
    exact ⟨position, (sound.found id position).mpr ⟨node, here, isNode⟩⟩

theorem Sound.nodup_ids (sound : store.Sound) : (store.nodes.map StoredNode.id).Nodup := by
  refine List.pairwise_map.mpr (List.pairwise_iff_getElem.mpr fun first second isFirst isSecond before same => ?_)
  have firstAt := (sound.found _ first).mpr ⟨_, List.getElem?_eq_getElem isFirst, same⟩
  have secondAt := (sound.found _ second).mpr ⟨_, List.getElem?_eq_getElem isSecond, rfl⟩
  exact Nat.ne_of_lt before (Option.some.inj (firstAt.symm.trans secondAt))

theorem stored?_eq_some_iff : store.stored? source target kind label = some stored ↔
    store.position? source = some stored.source ∧ store.position? target = some stored.target ∧ kind = stored.kind ∧
      label = stored.label := by
  obtain ⟨_, _, _, _⟩ := stored
  unfold stored?
  cases store.position? source <;> cases store.position? target <;> simp

end Positions

section Create

theorem getElem?_nodes_create : (store.create id content).nodes[position]? = some node ↔
    store.nodes[position]? = some node ∨ position = store.nodes.length ∧ node = .alone id content := by
  rw [create, List.getElem?_append]
  split
  next within =>
    have different : position ≠ store.nodes.length := Nat.ne_of_lt within
    simp [different]
  next beyond =>
    have absent : store.nodes[position]? = none := List.getElem?_eq_none (Nat.le_of_not_lt beyond)
    rw [absent, List.getElem?_singleton]
    split
    next last =>
      have isLast : position = store.nodes.length := by omega
      simp [isLast, eq_comm]
    next after =>
      have different : position ≠ store.nodes.length := by omega
      simp [different]

theorem position?_create :
    (store.create id content).position? other = if other = id then some store.nodes.length else store.position? other :=
  SortedMap.get?_insert

/-- A new number leaves the positions of all others as they are. -/
theorem position?_create_of_isSome (fresh : store.position? id = none) (isAt : store.position? other = some position) :
    (store.create id content).position? other = some position := by
  rw [position?_create, if_neg, isAt]
  rintro rfl
  rw [fresh] at isAt
  cases isAt

theorem stored?_create (fresh : store.position? id = none) (isStored : store.stored? source target kind label = some stored) :
    (store.create id content).stored? source target kind label = some stored := by
  obtain ⟨isSource, isTarget, sameKind, sameLabel⟩ := stored?_eq_some_iff.mp isStored
  exact stored?_eq_some_iff.mpr ⟨position?_create_of_isSome fresh isSource, position?_create_of_isSome fresh isTarget,
    sameKind, sameLabel⟩

/-- A node whose number has no position can be put behind the others. -/
theorem Sound.create (sound : store.Sound) (fresh : store.position? id = none) : (store.create id content).Sound where
  found other position := by
    rw [position?_create]
    simp only [getElem?_nodes_create]
    split
    next same =>
      subst same
      constructor
      · intro last
        exact ⟨_, .inr ⟨(Option.some.inj last).symm, rfl⟩, rfl⟩
      · rintro ⟨node, here | ⟨last, -⟩, isNode⟩
        · have isAt := (sound.found other position).mpr ⟨node, here, isNode⟩
          rw [fresh] at isAt
          cases isAt
        · rw [last]
    next different =>
      rw [sound.found other position]
      constructor
      · rintro ⟨node, here, isNode⟩
        exact ⟨node, .inl here, isNode⟩
      · rintro ⟨node, here | ⟨-, isNew⟩, isNode⟩
        · exact ⟨node, here, isNode⟩
        · rw [isNew] at isNode
          exact absurd isNode.symm different
  joined edge member := by
    have ends := sound.joined edge member
    have longer : (store.create id content).nodes.length = store.nodes.length + 1 := List.length_append
    omega
  outgoing position node here := by
    rcases getElem?_nodes_create.mp here with before | ⟨rfl, rfl⟩
    · exact sound.outgoing position node before
    · exact lists_nil fun edge member => beq_eq_false_iff_ne.mpr (Nat.ne_of_lt (sound.joined edge member).1)
  incoming position node here := by
    rcases getElem?_nodes_create.mp here with before | ⟨rfl, rfl⟩
    · exact sound.incoming position node before
    · exact lists_nil fun edge member => beq_eq_false_iff_ne.mpr (Nat.ne_of_lt (sound.joined edge member).2)

end Create

section Append

def link (store : LinkedStore ν κ) (edge : StoredEdge κ) (position : Nat) (node : StoredNode ν) : StoredNode ν where
  id := node.id
  content := node.content
  outgoing := if edge.source == position then node.outgoing ++ [store.edges.length] else node.outgoing
  incoming := if edge.target == position then node.incoming ++ [store.edges.length] else node.incoming

theorem getElem?_nodes_append :
    (store.append stored).nodes[position]? = (store.nodes[position]?).map (store.link stored position) := by
  simp only [append, List.getElem?_modify]
  cases store.nodes[position]? with
  | none => rfl
  | some node =>
    simp only [Option.map_eq_map, Option.map_some, link, beq_iff_eq]
    by_cases leaves : stored.source = position <;> by_cases enters : stored.target = position <;>
      simp [leaves, enters, StoredNode.addOutgoing, StoredNode.addIncoming]

theorem exists_of_getElem?_append (here : (store.append stored).nodes[position]? = some node) :
    ∃ before, store.nodes[position]? = some before ∧ node = store.link stored position before := by
  rw [getElem?_nodes_append, Option.map_eq_some_iff] at here
  obtain ⟨before, wasHere, isNode⟩ := here
  exact ⟨before, wasHere, isNode.symm⟩

theorem length_nodes_append : (store.append stored).nodes.length = store.nodes.length := by
  simp [append]

/-- An edge changes no number and no content. -/
theorem map_nodes_append {β : Type} {view : StoredNode ν → β}
    (blind : ∀ position node, view (store.link stored position node) = view node) :
    (store.append stored).nodes.map view = store.nodes.map view := by
  refine List.ext_getElem? fun position => ?_
  rw [List.getElem?_map, List.getElem?_map, getElem?_nodes_append, Option.map_map]
  congr 1
  funext node
  exact blind position node

/-- An edge between nodes that are there can be put behind the others. -/
theorem Sound.append (sound : store.Sound)
    (ends : stored.source < store.nodes.length ∧ stored.target < store.nodes.length) : (store.append stored).Sound where
  found id position := by
    refine (sound.found id position).trans ?_
    simp only [getElem?_nodes_append, Option.map_eq_some_iff]
    constructor
    · rintro ⟨node, here, isNode⟩
      exact ⟨_, ⟨node, here, rfl⟩, isNode⟩
    · rintro ⟨_, ⟨node, here, rfl⟩, isNode⟩
      exact ⟨node, here, isNode⟩
  joined edge member := by
    rw [length_nodes_append]
    rcases List.mem_append.mp member with before | isNew
    · exact sound.joined edge before
    · rw [List.mem_singleton.mp isNew]
      exact ends
  outgoing position node here := by
    obtain ⟨before, wasHere, rfl⟩ := exists_of_getElem?_append here
    exact (sound.outgoing position before wasHere).append stored
  incoming position node here := by
    obtain ⟨before, wasHere, rfl⟩ := exists_of_getElem?_append here
    exact (sound.incoming position before wasHere).append stored

end Append

end LinkedStore

end DomainFlow
