import Mathlib.Logic.Function.Basic
import DomainFlow.Proofs.Extraction
import DomainFlow.Proofs.GraphStore

/-!
What the questions to an object graph answer, in terms of its edges. Properties are found from either end alike: a link is
found as often as there are edges for it, over its first edge and over its second one. This is so in the graph and in the store
that indexes it, where properties are found through the lists of the nodes. The file of a place is its own, or
that of the first whole file on the way out of the place, however the places enclose each other.
-/
namespace DomainFlow

/-- A pair is found as often as its parts are found together. -/
theorem count_flatMap_map {α β γ : Type} [BEq α] [LawfulBEq α] [BEq β] [LawfulBEq β] [BEq γ] [LawfulBEq γ]
    {pair : α → β → γ} (injective : Function.Injective2 pair) (list : List α) (next : α → List β) (first : α) (second : β) :
    (list.flatMap fun entry => (next entry).map (pair entry)).count (pair first second) =
      list.count first * (next first).count second := by
  induction list with
  | nil => simp
  | cons entry rest ih =>
    rw [List.flatMap_cons, List.count_append, ih]
    by_cases same : entry = first
    · subst same
      have here : ((next entry).map (pair entry)).count (pair entry second) = (next entry).count second := by
        rw [List.count, List.countP_map, List.count]
        refine List.countP_congr fun other _ => ?_
        simp only [Function.comp_apply, beq_iff_eq]
        exact ⟨fun equal => (injective equal).2, fun equal => equal ▸ rfl⟩
      rw [here, List.count_cons_self, Nat.succ_mul, Nat.add_comm]
    · have elsewhere : ((next entry).map (pair entry)).count (pair first second) = 0 := by
        refine List.count_eq_zero_of_not_mem fun member => ?_
        obtain ⟨other, -, equal⟩ := List.mem_map.mp member
        exact same (injective equal).1
      rw [elsewhere, List.count_cons_of_ne same, Nat.zero_add]

theorem countP_eq_of_forall₂ {α β : Type} {form : α → β → Prop} {list : List α} {others : List β} {test : α → Bool}
    {otherTest : β → Bool} (shown : List.Forall₂ form list others)
    (agrees : ∀ entry other, form entry other → test entry = otherTest other) : list.countP test = others.countP otherTest := by
  rw [List.countP_eq_length_filter, List.countP_eq_length_filter]
  exact (List.rel_filter (fun entry other isForm => Bool.eq_iff_iff.mp (agrees entry other isForm)) shown).length_eq

namespace ObjectGraph

variable {graph : ObjectGraph} {kind : EdgeKind} {source target : NodeId}

/-- How many edges of a kind lead from one node to another. -/
def edgeCount (graph : ObjectGraph) (kind : EdgeKind) (source target : NodeId) : Nat :=
  graph.edges.countP fun edge => edge.kind == kind && edge.source == source && edge.target == target

theorem count_outNeighbors : (graph.outNeighbors source kind).count target = graph.edgeCount kind source target := by
  rw [outNeighbors, outEdges, List.count, List.countP_map, List.countP_filter, List.countP_filter, edgeCount]
  refine List.countP_congr fun edge _ => ?_
  simp only [Function.comp_apply, Bool.and_eq_true, beq_iff_eq]
  tauto

theorem count_inNeighbors : (graph.inNeighbors target kind).count source = graph.edgeCount kind source target := by
  rw [inNeighbors, inEdges, List.count, List.countP_map, List.countP_filter, List.countP_filter, edgeCount]
  refine List.countP_congr fun edge _ => ?_
  simp only [Function.comp_apply, Bool.and_eq_true, beq_iff_eq]
  tauto

end ObjectGraph

namespace GraphStore
variable {store : GraphStore} {graph : ObjectGraph} {kind : EdgeKind} {id source target : NodeId}
  {position sourceAt targetAt : Nat}

/-- What is found by two questions in a row, in pairs of what the first one finds and what the second one finds there. -/
def followTwice? (first second : Nat → Option (List Nat)) (pair : Nat → Nat → Nat × Nat) (position : Nat) :
    Option (List (Nat × Nat)) :=
  (first position).bind fun between =>
    (between.mapM fun place => (second place).map fun ends => ends.map (pair place)).map List.flatten

def properties? (store : GraphStore) (position : Nat) : Option (List (Nat × Nat)) :=
  followTwice? (store.outNeighbors? .objToProp) (store.outNeighbors? .nameToObj) (fun name child => (name, child)) position

def parentObjects? (store : GraphStore) (position : Nat) : Option (List (Nat × Nat)) :=
  followTwice? (store.inNeighbors? .nameToObj) (store.inNeighbors? .objToProp) (fun name parent => (parent, name)) position

def edgeCount (store : GraphStore) (kind : EdgeKind) (source target : Nat) : Nat :=
  store.edges.countP fun edge => edge.kind == kind && edge.source == source && edge.target == target

def PairAt (store : GraphStore) (ids : NodeId × NodeId) (places : Nat × Nat) : Prop :=
  store.position? ids.1 = some places.1 ∧ store.position? ids.2 = some places.2

section Pairs
variable {first second : Nat → Option (List Nat)} {near far : NodeId → List NodeId}
  {pair : NodeId → NodeId → NodeId × NodeId} {pairAt : Nat → Nat → Nat × Nat}

theorem Finds.exists_mapM {ids : List NodeId} {places : List Nat} (finds : store.Finds second far)
    (pairs : ∀ between last place finish, store.position? between = some place → store.position? last = some finish →
      store.PairAt (pair between last) (pairAt place finish))
    (shown : List.Forall₂ (fun id place => store.position? id = some place) ids places) :
    ∃ found, (places.mapM fun place => (second place).map fun ends => ends.map (pairAt place)) = some found ∧
      List.Forall₂ store.PairAt (ids.flatMap fun between => (far between).map (pair between)) found.flatten := by
  induction shown with
  | nil => exact ⟨[], rfl, .nil⟩
  | @cons between place _ _ betweenAt _ ih =>
    obtain ⟨ends, asked, shownNext⟩ := finds between place betweenAt
    obtain ⟨found, mapped, related⟩ := ih
    refine ⟨ends.map (pairAt place) :: found, by simp [asked, mapped], ?_⟩
    rw [List.flatMap_cons, List.flatten_cons]
    refine List.rel_append ?_ related
    rw [List.forall₂_map_left_iff, List.forall₂_map_right_iff]
    exact shownNext.imp fun last finish lastAt => pairs between last place finish betweenAt lastAt

theorem Finds.exists_followTwice? (findsNear : store.Finds first near) (findsFar : store.Finds second far)
    (pairs : ∀ between last place finish, store.position? between = some place → store.position? last = some finish →
      store.PairAt (pair between last) (pairAt place finish)) (isAt : store.position? id = some position) :
    ∃ found, followTwice? first second pairAt position = some found ∧
      List.Forall₂ store.PairAt ((near id).flatMap fun between => (far between).map (pair between)) found := by
  obtain ⟨places, asked, shown⟩ := findsNear id position isAt
  obtain ⟨found, mapped, related⟩ := findsFar.exists_mapM pairs shown
  refine ⟨found.flatten, ?_, related⟩
  rw [followTwice?, asked, Option.bind_some, mapped, Option.map_some]

end Pairs

theorem Indexes.exists_properties? (indexes : store.Indexes graph) (isAt : store.position? id = some position) :
    ∃ found, store.properties? position = some found ∧ List.Forall₂ store.PairAt (graph.properties id) found :=
  (indexes.finds_outNeighbors .objToProp).exists_followTwice? (indexes.finds_outNeighbors .nameToObj)
    (fun _ _ _ _ nameAt childAt => ⟨nameAt, childAt⟩) isAt

theorem Indexes.exists_parentObjects? (indexes : store.Indexes graph) (isAt : store.position? id = some position) :
    ∃ found, store.parentObjects? position = some found ∧ List.Forall₂ store.PairAt (graph.parentObjects id) found :=
  (indexes.finds_inNeighbors .nameToObj).exists_followTwice? (indexes.finds_inNeighbors .objToProp)
    (fun _ _ _ _ nameAt parentAt => ⟨parentAt, nameAt⟩) isAt

theorem Indexes.count_eq (indexes : store.Indexes graph) {ids : NodeId × NodeId} {places : Nat × Nat}
    {listed : List (NodeId × NodeId)} {found : List (Nat × Nat)} (shown : List.Forall₂ store.PairAt listed found)
    (isAt : store.PairAt ids places) : found.count places = listed.count ids := by
  refine (countP_eq_of_forall₂ shown fun other others otherAt => ?_).symm
  have first := indexes.beq_position otherAt.1 isAt.1
  have second := indexes.beq_position otherAt.2 isAt.2
  rw [Bool.eq_iff_iff, beq_iff_eq, beq_iff_eq] at first second
  rw [Bool.eq_iff_iff, beq_iff_eq, beq_iff_eq, Prod.ext_iff, Prod.ext_iff, first, second]

theorem Indexes.edgeCount_eq (indexes : store.Indexes graph) (isSource : store.position? source = some sourceAt)
    (isTarget : store.position? target = some targetAt) :
    store.edgeCount kind sourceAt targetAt = graph.edgeCount kind source target := by
  refine (countP_eq_of_forall₂ indexes.edges fun edge stored isStored => ?_).symm
  obtain ⟨edgeSource, edgeTarget, sameKind, -⟩ := LinkedStore.stored?_eq_some_iff.mp isStored
  rw [indexes.beq_position edgeSource isSource, indexes.beq_position edgeTarget isTarget, sameKind]

end GraphStore

namespace ObjectGraph
variable {graph : ObjectGraph} {document : Document} {id place : NodeId} {count other : Nat} {file : Option String}

section Properties

theorem count_properties (graph : ObjectGraph) (parent name child : NodeId) : (graph.properties parent).count (name, child) =
    graph.edgeCount .objToProp parent name * graph.edgeCount .nameToObj name child := by
  have injective : Function.Injective2 fun name child : NodeId => (name, child) := fun _ _ _ _ equal => Prod.mk.inj equal
  rw [properties, count_flatMap_map injective, count_outNeighbors, count_outNeighbors]

theorem count_parentObjects (graph : ObjectGraph) (parent name child : NodeId) :
    (graph.parentObjects child).count (parent, name) =
      graph.edgeCount .objToProp parent name * graph.edgeCount .nameToObj name child := by
  have injective : Function.Injective2 fun name parent : NodeId => (parent, name) := fun _ _ _ _ equal => (Prod.mk.inj equal).symm
  rw [parentObjects, count_flatMap_map injective, count_inNeighbors, count_inNeighbors, Nat.mul_comm]

/-- A property is listed at its object as often as the object is listed at the property, which is once for each edge to the
name and each edge from it. The lists of the nodes, in the store that is read, lead to the same links from either end. -/
theorem properties_converse (graph : ObjectGraph) (parent name child : NodeId) :
    (graph.properties parent).count (name, child) = (graph.parentObjects child).count (parent, name) ∧
    (graph.properties parent).count (name, child) =
      graph.edgeCount .objToProp parent name * graph.edgeCount .nameToObj name child ∧
    ∀ document store, ofDocument document = .ok graph → (GraphStore.load document).run = some (.ok store) →
      ∀ parentAt nameAt childAt, store.position? parent = some parentAt → store.position? name = some nameAt →
        store.position? child = some childAt → ∃ properties parents,
          store.properties? parentAt = some properties ∧ store.parentObjects? childAt = some parents ∧
          properties.count (nameAt, childAt) = parents.count (parentAt, nameAt) ∧
          properties.count (nameAt, childAt) =
            store.edgeCount .objToProp parentAt nameAt * store.edgeCount .nameToObj nameAt childAt := by
  refine ⟨by rw [count_properties, count_parentObjects], count_properties graph parent name child, ?_⟩
  intro document store valid loaded parentAt nameAt childAt isParent isName isChild
  obtain ⟨-, rfl⟩ := ofDocument_eq_ok_iff.mp valid
  have indexes := (GraphStore.indexes_of_load loaded).2
  obtain ⟨properties, downward, shownBelow⟩ := indexes.exists_properties? isParent
  obtain ⟨parents, upward, shownAbove⟩ := indexes.exists_parentObjects? isChild
  have below : properties.count (nameAt, childAt) = ((ofParts document).properties parent).count (name, child) :=
    indexes.count_eq shownBelow ⟨isName, isChild⟩
  have above : parents.count (parentAt, nameAt) = ((ofParts document).parentObjects child).count (parent, name) :=
    indexes.count_eq shownAbove ⟨isParent, isName⟩
  refine ⟨properties, parents, downward, upward, ?_, ?_⟩
  · rw [below, above, count_properties, count_parentObjects]
  · rw [below, count_properties, indexes.edgeCount_eq isParent isName, indexes.edgeCount_eq isName isChild]

/-- An object with two edges to the name of its property. -/
def twiceNamedDocument : Document where
  nodes := [.object { id := 3 }, .name { id := 2 }, .object { id := 1 }]
  edges := [⟨1, 2, .objToProp, none⟩, ⟨2, 3, .nameToObj, none⟩, ⟨1, 2, .objToProp, none⟩]

theorem properties_converse_twice : ∃ store, (GraphStore.load twiceNamedDocument).run = some (.ok store) ∧
    ofDocument twiceNamedDocument = .ok (ofParts twiceNamedDocument) ∧ store.position? 1 = some 2 ∧ store.position? 2 = some 1 ∧
    store.position? 3 = some 0 ∧ ∃ properties parents, store.properties? 2 = some properties ∧
      store.parentObjects? 0 = some parents ∧ properties.count (1, 0) = 2 ∧ parents.count (2, 1) = 2 := by
  have loads : ∃ store, (GraphStore.load twiceNamedDocument).run = some (.ok store) ∧ store.position? 1 = some 2 ∧
      store.position? 2 = some 1 ∧ store.position? 3 = some 0 ∧ store.edgeCount .objToProp 2 1 * store.edgeCount .nameToObj 1 0 = 2 :=
    ⟨_, rfl, rfl, rfl, rfl, rfl⟩
  obtain ⟨store, loaded, isParent, isName, isChild, links⟩ := loads
  have valid : ofDocument twiceNamedDocument = .ok (ofParts twiceNamedDocument) := rfl
  obtain ⟨properties, parents, downward, upward, same, counted⟩ :=
    (properties_converse (ofParts twiceNamedDocument) 1 2 3).2.2 _ store valid loaded 2 1 0 isParent isName isChild
  exact ⟨store, loaded, valid, isParent, isName, isChild, properties, parents, downward, upward, counted.trans links,
    same.symm.trans (counted.trans links)⟩

end Properties

section Files

/-- Whether a node is a place that stands for a whole file. -/
def IsWholeFile (graph : ObjectGraph) (id : NodeId) : Prop :=
  ∃ ast, graph.ast? id = some ast ∧ ast.hasFlag wholeFileFlag = true

/-- The way out of a place: the place itself, the first place that encloses it, the first one that encloses that, and
so on. -/
def wayOut (graph : ObjectGraph) (id : NodeId) : Nat → Option NodeId
  | 0 => some id
  | count + 1 => (graph.wayOut id count).bind fun place => (graph.inNeighbors place .parentOf).head?

/-- How the search for the file of a place ends after some places that stand for no whole file: at a whole file, which has a
name or not, at the end of the way, or where the way comes back to a place. -/
structure SearchEnds (graph : ObjectGraph) (id : NodeId) (count : Nat) (file : Option String) : Prop where
  passed : ∀ earlier < count, ∃ place, graph.wayOut id earlier = some place ∧ ¬ graph.IsWholeFile place
  ending :
    (∃ place ast, graph.wayOut id count = some place ∧ graph.ast? place = some ast ∧ ast.hasFlag wholeFileFlag = true ∧
      file = ast.name) ∨
    graph.wayOut id count = none ∧ file = none ∨
    (∃ earlier < count, graph.wayOut id count = graph.wayOut id earlier) ∧ file = none

theorem wayOut_succ {parent : NodeId} (enclosed : (graph.inNeighbors id .parentOf).head? = some parent) :
    graph.wayOut id (count + 1) = graph.wayOut parent count := by
  induction count with
  | zero => simp [wayOut, enclosed]
  | succ count ih => rw [wayOut, ih, wayOut]

/-- From places that are the same the way goes on in the same way. -/
theorem wayOut_add_eq (same : graph.wayOut id count = graph.wayOut id other) (more : Nat) :
    graph.wayOut id (count + more) = graph.wayOut id (other + more) := by
  induction more with
  | zero => exact same
  | succ more ih => rw [← Nat.add_assoc, ← Nat.add_assoc, wayOut, wayOut, ih]

/-- Once the way comes back to a place, it goes round. -/
theorem exists_wayOut_eq_of_repeats {earlier : Nat} (before : earlier < count)
    (same : graph.wayOut id count = graph.wayOut id earlier) (later : Nat) :
    ∃ first < count, graph.wayOut id later = graph.wayOut id first := by
  induction later using Nat.strongRecOn with
  | ind later ih =>
    by_cases inside : later < count
    · exact ⟨later, inside, rfl⟩
    · obtain ⟨first, within, found⟩ := ih (earlier + (later - count)) (by omega)
      refine ⟨first, within, ?_⟩
      rw [← found, ← wayOut_add_eq same, Nat.add_sub_cancel' (Nat.le_of_not_lt inside)]

/-- If a search that has ended were to go on, it would find no file. -/
theorem SearchEnds.of_later {later : Option String} (ends : graph.SearchEnds id count file)
    (endsLater : graph.SearchEnds id other later) (before : count < other) : file = none ∧ later = none := by
  obtain ⟨place, here, isInner⟩ := endsLater.passed count before
  rcases ends.ending with ⟨whole, ast, atWhole, found, flagged, -⟩ | ⟨outside, -⟩ | ⟨⟨earlier, within, same⟩, noFile⟩
  · cases here.symm.trans atWhole
    exact absurd ⟨ast, found, flagged⟩ isInner
  · cases here.symm.trans outside
  · obtain ⟨first, inside, again⟩ := exists_wayOut_eq_of_repeats within same other
    obtain ⟨passed, atPassed, isInner⟩ := ends.passed first inside
    refine ⟨noFile, ?_⟩
    rcases endsLater.ending with ⟨whole, ast, atWhole, found, flagged, -⟩ | ⟨-, noFile⟩ | ⟨-, noFile⟩
    · cases (again.trans atPassed).symm.trans atWhole
      exact absurd ⟨ast, found, flagged⟩ isInner
    · exact noFile
    · exact noFile

/-- At one place a search can end in one way only. -/
theorem SearchEnds.eq_of_same {later : Option String} (ends : graph.SearchEnds id count file)
    (endsToo : graph.SearchEnds id count later) : file = later := by
  have atWhole : ∀ {first second : Option String} {place : NodeId} {ast : AstRecord}, graph.SearchEnds id count second →
      graph.wayOut id count = some place → graph.ast? place = some ast → ast.hasFlag wholeFileFlag = true →
      first = ast.name → first = second := by
    intro first second place ast endsToo here found flagged isName
    rcases endsToo.ending with ⟨again, other, hereToo, foundToo, -, isNameToo⟩ | ⟨outside, -⟩ | ⟨⟨earlier, within, same⟩, -⟩
    · cases here.symm.trans hereToo
      cases found.symm.trans foundToo
      rw [isName, isNameToo]
    · cases here.symm.trans outside
    · obtain ⟨passed, atPassed, isInner⟩ := endsToo.passed earlier within
      cases (same.trans atPassed).symm.trans here
      exact absurd ⟨ast, found, flagged⟩ isInner
  rcases ends.ending with ⟨place, ast, here, found, flagged, isName⟩ | ⟨-, noFile⟩ | ⟨-, noFile⟩
  · exact atWhole endsToo here found flagged isName
  all_goals
    rcases endsToo.ending with ⟨place, ast, here, found, flagged, isName⟩ | ⟨-, noFileToo⟩ | ⟨-, noFileToo⟩
    · exact (atWhole ends here found flagged isName).symm
    all_goals rw [noFile, noFileToo]

/-- However the search for a file is found to end, it gives the same file. -/
theorem SearchEnds.unique {later : Option String} (ends : graph.SearchEnds id count file)
    (endsToo : graph.SearchEnds id other later) : file = later := by
  rcases Nat.lt_trichotomy count other with before | same | after
  · obtain ⟨noFile, noFileToo⟩ := ends.of_later endsToo before
    rw [noFile, noFileToo]
  · subst same
    exact ends.eq_of_same endsToo
  · obtain ⟨noFile, noFileToo⟩ := endsToo.of_later ends after
    rw [noFile, noFileToo]

theorem WellFormed.isPlace_of_encloses (rules : graph.WellFormed) {parent : NodeId}
    (enclosed : (graph.inNeighbors id .parentOf).head? = some parent) : (graph.ast? parent).isSome := by
  have joined : graph.Joins .parentOf parent id := mem_inNeighbors.mp (List.mem_of_head? enclosed)
  obtain ⟨node, found, kind⟩ := rules.source_kind joined rfl
  exact isSome_ast?_of_kind found kind

/-- The search over the places that remain. It stops at a place that does not remain, which is one that was met on the way
if all places remained at first. -/
theorem exists_end_enclosingFile? (rules : graph.WellFormed) (remaining : List NodeId)
    (isPlace : (graph.ast? id).isSome) :
    ∃ count ≤ remaining.length,
      (∀ earlier < count, ∃ place, graph.wayOut id earlier = some place ∧ ¬ graph.IsWholeFile place) ∧
      ((∃ place ast, graph.wayOut id count = some place ∧ graph.ast? place = some ast ∧
          ast.hasFlag wholeFileFlag = true ∧ graph.enclosingFile? remaining id = ast.name) ∨
        graph.wayOut id count = none ∧ graph.enclosingFile? remaining id = none ∨
        (∃ place, graph.wayOut id count = some place ∧ (graph.ast? place).isSome ∧
          (place ∈ remaining → ∃ earlier < count, graph.wayOut id earlier = some place)) ∧
          graph.enclosingFile? remaining id = none) := by
  fun_induction enclosingFile? graph remaining id with
  | case1 remaining current present missing => simp [missing] at isPlace
  | case2 remaining current present ast found flagged =>
    exact ⟨0, Nat.zero_le _, by simp, .inl ⟨current, ast, rfl, found, flagged, rfl⟩⟩
  | case3 remaining current present ast found inner outermost =>
    have isInner : ¬ graph.IsWholeFile current := by simpa [IsWholeFile, found] using inner
    refine ⟨1, List.length_pos_of_mem present, fun earlier before => ?_, .inr (.inl ⟨?_, rfl⟩)⟩
    · rw [Nat.lt_one_iff.mp before]
      exact ⟨current, rfl, isInner⟩
    · simp [wayOut, outermost]
  | case4 remaining current present ast found inner parent enclosed ih =>
    have isInner : ¬ graph.IsWholeFile current := by simpa [IsWholeFile, found] using inner
    obtain ⟨count, within, passed, ending⟩ := ih (rules.isPlace_of_encloses enclosed)
    have shorter := List.length_erase_of_mem present
    have positive := List.length_pos_of_mem present
    refine ⟨count + 1, by omega, fun earlier before => ?_, ?_⟩
    · cases earlier with
      | zero => exact ⟨current, rfl, isInner⟩
      | succ earlier =>
        rw [wayOut_succ enclosed]
        exact passed earlier (Nat.lt_of_succ_lt_succ before)
    · rw [wayOut_succ enclosed]
      refine ending.imp_right (Or.imp_right fun stopped => ⟨?_, stopped.2⟩)
      obtain ⟨⟨place, here, isPlace, wasMet⟩, -⟩ := stopped
      refine ⟨place, here, isPlace, fun remains => ?_⟩
      by_cases same : place = current
      · exact ⟨0, Nat.succ_pos _, same ▸ rfl⟩
      · obtain ⟨earlier, before, met⟩ := wasMet ((List.mem_erase_of_ne same).mpr remains)
        exact ⟨earlier + 1, Nat.succ_lt_succ before, (wayOut_succ enclosed).trans met⟩
  | case5 remaining current absent =>
    exact ⟨0, Nat.zero_le _, by simp, .inr (.inr ⟨⟨current, rfl, isPlace, fun present => absurd present absent⟩, rfl⟩)⟩

/-- The search for the file of a place comes to an end within as many places as there are nodes. -/
theorem exists_searchEnds (rules : graph.WellFormed) (isPlace : (graph.ast? id).isSome) :
    ∃ count ≤ graph.ids.length, graph.SearchEnds id count (graph.enclosingFile? graph.ids id) := by
  obtain ⟨count, within, passed, ending⟩ := exists_end_enclosingFile? rules graph.ids isPlace
  refine ⟨count, within, passed, ending.imp_right (Or.imp_right fun stopped => ⟨?_, stopped.2⟩)⟩
  obtain ⟨⟨place, here, isPlace, wasMet⟩, -⟩ := stopped
  obtain ⟨earlier, before, met⟩ := wasMet (mem_ids_iff.mpr (isSome_node?_of_ast? isPlace))
  exact ⟨earlier, before, here.trans met.symm⟩

/-- Only places stand in files. The file of a place is its own, if it names one. Else it is the one at which the search on
the way out ends; the search ends within as many places as there are nodes, and in whatever way it is found to end, that is
its file. -/
theorem source_file_exact (valid : ofDocument document = .ok graph) (id : NodeId) :
    (graph.ast? id = none → graph.sourceFile? id = none) ∧
    ∀ ast, graph.ast? id = some ast →
      (∀ own, ast.fileName = some own → graph.sourceFile? id = some own) ∧
      (ast.fileName = none →
        (∃ count ≤ graph.ids.length, graph.SearchEnds id count (graph.sourceFile? id)) ∧
        ∀ count file, graph.SearchEnds id count file → graph.sourceFile? id = file) := by
  have rules := wellFormed_of_ofDocument valid
  refine ⟨fun missing => ?_, fun ast found => ⟨fun own isOwn => ?_, fun noOwn => ?_⟩⟩
  · simp only [sourceFile?, missing, Option.bind_none]
    rw [enclosingFile?]
    split
    · simp only [missing]
    · rfl
  · simp only [sourceFile?, found, Option.bind_some, isOwn]
  · have searched : graph.sourceFile? id = graph.enclosingFile? graph.ids id := by
      simp only [sourceFile?, found, Option.bind_some, noOwn]
    obtain ⟨count, within, ends⟩ := exists_searchEnds rules (Option.isSome_of_eq_some found)
    rw [searched]
    exact ⟨⟨count, within, ends⟩, fun other file endsToo => ends.unique endsToo⟩

/-- A place within a whole file, in a function that names a file of its own, and a place within two that enclose each
other. -/
def enclosedDocument : Document where
  nodes := [.ast (.wholeFile 1 "index.js"), .ast { id := 2, fileName := some "bundle.js" }, .ast { id := 3 },
    .ast { id := 4 }, .ast { id := 5 }, .ast { id := 6 }]
  edges := [⟨1, 2, .parentOf, none⟩, ⟨2, 3, .parentOf, none⟩, ⟨4, 5, .parentOf, none⟩, ⟨5, 4, .parentOf, none⟩,
    ⟨5, 6, .parentOf, none⟩, ⟨1, 6, .parentOf, none⟩]

def enclosedGraph : ObjectGraph := ofParts enclosedDocument

theorem source_file_exact_enclosed : ofDocument enclosedDocument = .ok enclosedGraph ∧
    enclosedGraph.ast? 3 = some { id := 3 } ∧ enclosedGraph.SearchEnds 3 2 (some "index.js") ∧
    enclosedGraph.sourceFile? 3 = some "index.js" ∧
    enclosedGraph.ast? 6 = some { id := 6 } ∧ enclosedGraph.SearchEnds 6 3 none ∧ enclosedGraph.sourceFile? 6 = none := by
  have valid : ofDocument enclosedDocument = .ok enclosedGraph := rfl
  have inner : ∀ {place : NodeId} {ast : AstRecord}, enclosedGraph.ast? place = some ast →
      ast.hasFlag wholeFileFlag = false → ¬ enclosedGraph.IsWholeFile place := by
    rintro place ast found plain ⟨other, foundToo, flagged⟩
    cases found.symm.trans foundToo
    simp [plain] at flagged
  have file : enclosedGraph.SearchEnds 3 2 (some "index.js") := by
    refine ⟨fun earlier before => ?_, .inl ⟨1, _, rfl, rfl, by decide, rfl⟩⟩
    match earlier, before with
    | 0, _ => exact ⟨3, rfl, inner rfl (by decide)⟩
    | 1, _ => exact ⟨2, rfl, inner rfl (by decide)⟩
  have circle : enclosedGraph.SearchEnds 6 3 none := by
    refine ⟨fun earlier before => ?_, .inr (.inr ⟨⟨1, by decide, rfl⟩, rfl⟩)⟩
    match earlier, before with
    | 0, _ => exact ⟨6, rfl, inner rfl (by decide)⟩
    | 1, _ => exact ⟨5, rfl, inner rfl (by decide)⟩
    | 2, _ => exact ⟨4, rfl, inner rfl (by decide)⟩
  exact ⟨valid, rfl, file, (((source_file_exact valid 3).2 _ rfl).2 rfl).2 2 _ file,
    rfl, circle, (((source_file_exact valid 6).2 _ rfl).2 rfl).2 3 _ circle⟩

end Files

end ObjectGraph

end DomainFlow
