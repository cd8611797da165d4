import Mathlib.Data.List.Induction
import DomainFlow.Proofs.Extraction
import DomainFlow.Proofs.Spread

/-!
What is kept about domains that spread. A domain has reached a node exactly if a path leads there over
edges that hand domains on, and the path that is kept is a shortest one. Nothing else is kept.
-/
namespace DomainFlow

namespace DataFlowGraph
variable {flow : DataFlowGraph} {root id : NodeId} {path : PropagationPath}

/-- The nodes of a path from one node to another, with the positions of the edges between them. Each edge
goes to what a function returns, or to a property that does not belong to the interpreter. -/
structure Leads (flow : DataFlowGraph) (root id : NodeId) (path : PropagationPath) : Prop where
  first : path.nodes.head? = some root
  last : path.nodes.getLast? = some id
  sizes : path.nodes.length = path.edges.length + 1
  steps : ∀ position index, path.edges[position]? = some index → ∃ edge, flow.edges[index]? = some edge ∧
    path.nodes[position]? = some edge.source ∧ path.nodes[position + 1]? = some edge.target ∧
    (edge.kind = .funcObjToRetVal ∨ edge.kind = .parentToChild ∧ flow.isBuiltin edge.target = false)

theorem leads_start : flow.Leads root root (.start root) where
  first := rfl
  last := rfl
  sizes := rfl
  steps position index found := by simp [PropagationPath.start] at found

theorem Leads.extend {edge : FlowEdge} {index : Nat} (leads : flow.Leads root id path)
    (leaves : (edge, index) ∈ flow.outEdges id) (handsOn : flow.handsOn edge = true) :
    flow.Leads root edge.target (path.extend index edge.target) := by
  obtain ⟨isEdge, source⟩ := mem_outEdges_iff.mp leaves
  obtain ⟨first, last, sizes, steps⟩ := leads
  refine ⟨?_, ?_, ?_, ?_⟩
  · simp [PropagationPath.extend, List.head?_append, first]
  · simp [PropagationPath.extend]
  · simp [PropagationPath.extend, sizes]
  · intro position other found
    simp only [PropagationPath.extend] at found ⊢
    rcases Nat.lt_or_ge position path.edges.length with earlier | later
    · rw [List.getElem?_append_left earlier] at found
      rw [List.getElem?_append_left (by omega), List.getElem?_append_left (by omega)]
      exact steps position other found
    · -- The only new position is the one behind all others, and the path ended there before.
      have inside : position < (path.edges ++ [index]).length := (List.getElem?_eq_some_iff.mp found).1
      have here : position = path.edges.length := by
        rw [List.length_append, List.length_singleton] at inside
        omega
      subst here
      have same : index = other := by simpa using found
      have atEnd : path.nodes[path.edges.length]? = some id := by
        rw [← last, List.getLast?_eq_getElem?, sizes]
        rfl
      refine ⟨edge, same ▸ isEdge, ?_, ?_, handsOn_iff.mp handsOn⟩
      · rw [List.getElem?_append_left (by omega), atEnd, source]
      · rw [List.getElem?_append_right (by omega), sizes]
        simp

theorem Follows.leads (follows : flow.Follows root id path) : flow.Leads root id path := by
  induction follows with
  | start => exact leads_start
  | extend _ leaves handsOn ih => exact ih.extend leaves handsOn

/-- A path whose last edge is taken away leads to where that edge comes from. -/
theorem Leads.exists_last {nodes : List NodeId} {edges : List Nat} {index : Nat}
    (leads : flow.Leads root id ⟨nodes, edges ++ [index]⟩) :
    ∃ edge earlier, nodes = earlier ++ [edge.target] ∧ edge.target = id ∧
      (edge, index) ∈ flow.outEdges edge.source ∧ flow.handsOn edge = true ∧
      flow.Leads root edge.source ⟨earlier, edges⟩ := by
  obtain ⟨first, last, sizes, steps⟩ := leads
  simp only [List.length_append, List.length_singleton] at sizes first last steps
  obtain ⟨edge, isEdge, source, target, admits⟩ := steps edges.length index (by simp)
  have nonempty : nodes ≠ [] := List.ne_nil_of_length_pos (by omega)
  obtain ⟨earlier, final, rfl⟩ := (List.eq_nil_or_concat nodes).resolve_left nonempty
  simp only [List.concat_eq_append, List.length_append, List.length_singleton] at sizes first last source target steps ⊢
  have count : earlier.length = edges.length + 1 := by omega
  have isLast : final = edge.target := by
    rw [List.getElem?_append_right (by omega), count] at target
    simpa using target
  have isEnd : final = id := by simpa using last
  rw [List.getElem?_append_left (by omega)] at source
  refine ⟨edge, earlier, by rw [isLast], isLast.symm.trans isEnd, mem_outEdges_iff.mpr ⟨isEdge, rfl⟩,
    handsOn_iff.mpr admits, ?_, ?_, count, ?_⟩
  · rw [List.head?_append_of_ne_nil _ (List.ne_nil_of_length_pos (by omega))] at first
    exact first
  · rw [List.getLast?_eq_getElem?, count]
    exact source
  · intro position other found
    have inside : position < edges.length := (List.getElem?_eq_some_iff.mp found).1
    obtain ⟨step, isStep, fromNode, toNode, admitsToo⟩ := steps position other
      (by rw [List.getElem?_append_left inside, found])
    rw [List.getElem?_append_left (by omega)] at fromNode toNode
    exact ⟨step, isStep, fromNode, toNode, admitsToo⟩

theorem Leads.follows (leads : flow.Leads root id path) : flow.Follows root id path := by
  obtain ⟨nodes, edges⟩ := path
  -- The induction takes edges away from the end, as paths are extended there.
  induction edges using List.reverseRecOn generalizing nodes id with
  | nil =>
    obtain ⟨only, rfl⟩ := List.length_eq_one_iff.mp leads.sizes
    have isRoot : only = root := by simpa using leads.first
    have isEnd : only = id := by simpa using leads.last
    subst isRoot isEnd
    exact .start
  | append_singleton edges index ih =>
    obtain ⟨edge, earlier, rfl, rfl, leaves, handsOn, leadsEarlier⟩ := leads.exists_last
    exact (ih earlier leadsEarlier).extend leaves handsOn

end DataFlowGraph

section Table
variable {flow : DataFlowGraph} {builtinsDirectory : Option String} {root id : NodeId} {domain : Domain}
  {path : PropagationPath}

theorem isConfined_eq_false_iff : Propagation.isConfined domain = false ↔
    domain ≠ Domain.dynamicRequire ∧ domain ≠ Domain.dynamicEval := by
  simp [Propagation.isConfined]

/-- Asking for a path gives the one that the search from its root has kept. -/
theorem path?_spread_eq_some_iff :
    (Propagation.spread flow (.assign flow builtinsDirectory)).path? id domain root = some path ↔
      flow.domain? builtinsDirectory root = some domain ∧ Propagation.isConfined domain = false ∧
        (flow.spreadFrom root).lookup id = some path := by
  rw [Propagation.path?, Option.map_eq_some_iff]
  constructor
  · intro found
    obtain ⟨arrival, isFirst, rfl⟩ := found
    have matching := List.find?_some isFirst
    simp only [Bool.and_eq_true, beq_iff_eq] at matching
    obtain ⟨rfl, rfl⟩ := matching
    exact mem_arrivals_spread.mp (List.mem_of_find?_eq_some isFirst)
  · intro kept
    have arrived : ⟨domain, root, path⟩ ∈ (Propagation.spread flow (.assign flow builtinsDirectory)).arrivals id :=
      mem_arrivals_spread.mpr kept
    cases found : ((Propagation.spread flow (.assign flow builtinsDirectory)).arrivals id).find? fun arrival =>
        arrival.domain == domain && arrival.root == root with
    | none =>
      have missed := List.find?_eq_none.mp found _ arrived
      simp at missed
    | some arrival =>
      have matching := List.find?_some found
      simp only [Bool.and_eq_true, beq_iff_eq] at matching
      obtain ⟨-, -, reached⟩ := mem_arrivals_spread.mp (List.mem_of_find?_eq_some found)
      rw [matching.2, kept.2.2] at reached
      exact ⟨arrival, rfl, (Option.some.inj reached).symm⟩

theorem leads_of_path?_spread
    (isPath : (Propagation.spread flow (.assign flow builtinsDirectory)).path? id domain root = some path) :
    flow.Leads root id path := by
  obtain ⟨-, -, kept⟩ := path?_spread_eq_some_iff.mp isPath
  exact (DataFlowGraph.follows_of_lookup_spreadFrom kept).leads

/-- Where a path leads, one is kept that is no longer. -/
theorem exists_path?_of_leads (closed : ∀ edge ∈ flow.edges, edge.target ∈ flow.ids)
    (found : flow.domain? builtinsDirectory root = some domain) (free : Propagation.isConfined domain = false)
    {way : PropagationPath} (leads : flow.Leads root id way) :
    ∃ path, (Propagation.spread flow (.assign flow builtinsDirectory)).path? id domain root = some path ∧
      path.length ≤ way.length := by
  obtain ⟨path, kept, shorter⟩ :=
    DataFlowGraph.exists_lookup_spreadFrom closed (DataFlowGraph.mem_ids_of_domain? found) leads.follows
  exact ⟨path, path?_spread_eq_some_iff.mpr ⟨found, free, kept⟩, shorter⟩

theorem nodup_roots_arrivals (distinct : flow.ids.Nodup) :
    (((Propagation.spread flow (.assign flow builtinsDirectory)).arrivals id).map Arrival.root).Nodup := by
  have roots : ((DirectDomains.assign flow builtinsDirectory).roots.map Prod.fst).Nodup := by
    rw [DirectDomains.assign, List.map_filterMap]
    refine distinct.filterMap fun first second own isOwn isOwnToo => ?_
    simp only [Option.mem_def, Option.map_map, Option.map_eq_some_iff, Function.comp_apply] at isOwn isOwnToo
    obtain ⟨-, -, rfl⟩ := isOwn
    obtain ⟨-, -, same⟩ := isOwnToo
    exact same.symm
  have spreads : (Propagation.spread flow (.assign flow builtinsDirectory)).spreads.Pairwise fun first second =>
      first.root ≠ second.root := by
    rw [← List.pairwise_map, Propagation.spread, List.map_map]
    exact roots.sublist (List.filter_sublist.map Prod.fst)
  rw [List.Nodup, List.pairwise_map, Propagation.arrivals, List.pairwise_filterMap]
  refine spreads.imp fun different arrival isArrival other isOther => ?_
  obtain ⟨-, -, rfl⟩ := Option.map_eq_some_iff.mp isArrival
  obtain ⟨-, -, rfl⟩ := Option.map_eq_some_iff.mp isOther
  exact different

/-- Domains spread exactly as far as paths lead, and a shortest path is kept for each node that a domain has
reached. Nothing else is kept, and nothing for domains that are confined. -/
theorem spread_exact {document : Document} {graph : ObjectGraph} {listed : List NodeId}
    (valid : ObjectGraph.ofDocument document = .ok graph) (extracted : graph.extract listed = .ok flow)
    (builtinsDirectory : Option String) :
    let domains := DirectDomains.assign flow builtinsDirectory
    let propagation := Propagation.spread flow domains
    (∀ root domain, domains.get? root = some domain → domain ≠ Domain.dynamicRequire → domain ≠ Domain.dynamicEval →
      ∀ id, ((propagation.path? id domain root).isSome ↔ ∃ way, flow.Leads root id way) ∧
        ∀ path, propagation.path? id domain root = some path →
          flow.Leads root id path ∧ ∀ way, flow.Leads root id way → path.length ≤ way.length) ∧
    ∀ id, ((propagation.arrivals id).map Arrival.root).Nodup ∧ ∀ arrival ∈ propagation.arrivals id,
      domains.get? arrival.root = some arrival.domain ∧ arrival.domain ≠ Domain.dynamicRequire ∧
        arrival.domain ≠ Domain.dynamicEval ∧
        propagation.path? id arrival.domain arrival.root = some arrival.path := by
  intro domains propagation
  obtain ⟨seeds, accepted, rfl⟩ := ObjectGraph.exists_seeds_of_extract extracted
  have rules := ObjectGraph.wellFormed_of_ofDocument valid
  constructor
  · intro root domain found notRequire notEval id
    rw [DirectDomains.get?_assign] at found
    have free := isConfined_eq_false_iff.mpr ⟨notRequire, notEval⟩
    have shortest : ∀ way, (graph.extractFrom seeds).Leads root id way → ∃ path,
        propagation.path? id domain root = some path ∧ path.length ≤ way.length := fun way leads =>
      exists_path?_of_leads (fun _ => ObjectGraph.target_mem_ids_extractFrom rules accepted) found free leads
    refine ⟨⟨?_, ?_⟩, ?_⟩
    · intro reached
      obtain ⟨path, isPath⟩ := Option.isSome_iff_exists.mp reached
      exact ⟨path, leads_of_path?_spread isPath⟩
    · intro reachable
      obtain ⟨way, leads⟩ := reachable
      obtain ⟨path, isPath, -⟩ := shortest way leads
      exact Option.isSome_of_eq_some isPath
    · intro path isPath
      refine ⟨leads_of_path?_spread isPath, fun way leads => ?_⟩
      obtain ⟨known, isKnown, shorter⟩ := shortest way leads
      rw [isPath] at isKnown
      cases isKnown
      exact shorter
  · intro id
    refine ⟨nodup_roots_arrivals (ObjectGraph.copies_extractFrom rules.distinct).distinct, fun arrival arrived => ?_⟩
    have kept := mem_arrivals_spread.mp arrived
    obtain ⟨notRequire, notEval⟩ := isConfined_eq_false_iff.mp kept.2.1
    exact ⟨DirectDomains.get?_assign.trans kept.1, notRequire, notEval, path?_spread_eq_some_iff.mpr kept⟩

theorem spreadFrom_leaking : ObjectGraph.leakingFlow.spreadFrom 10 = [(10, .start 10), (12, ⟨[10, 12], [1]⟩)] ∧
    ObjectGraph.leakingFlow.spreadFrom 13 = [(13, .start 13)] := by
  have facts : ObjectGraph.leakingFlow.ids = [1, 2, 12, 10, 13] ∧
      ObjectGraph.leakingFlow.extensions [(10, .start 10)] 10 (.start 10) = [(12, ⟨[10, 12], [1]⟩)] ∧
      ObjectGraph.leakingFlow.extensions [(10, .start 10), (12, ⟨[10, 12], [1]⟩)] 12 ⟨[10, 12], [1]⟩ = [] ∧
      ObjectGraph.leakingFlow.extensions [(13, .start 13)] 13 (.start 13) = [] := by
    simp only [ObjectGraph.leakingFlow, ObjectGraph.extractFrom, ObjectGraph.flowOrder_leaking]
    decide +kernel
  simp [DataFlowGraph.spreadFrom, DataFlowGraph.spreadOver, facts, List.lookup_cons]

theorem spread_exact_leaking :
    ObjectGraph.ofDocument ObjectGraph.leakingDocument = .ok ObjectGraph.leakingGraph ∧
    ∃ flow, ObjectGraph.leakingGraph.extract [12] = .ok flow ∧
      (DirectDomains.assign flow none).get? 10 = some "net" ∧
      (Propagation.spread flow (.assign flow none)).path? 12 "net" 10 = some ⟨[10, 12], [1]⟩ ∧
      flow.Leads 10 12 ⟨[10, 12], [1]⟩ ∧ ∀ way, flow.Leads 10 12 way → 2 ≤ way.length := by
  have valid : ObjectGraph.ofDocument ObjectGraph.leakingDocument = .ok ObjectGraph.leakingGraph := rfl
  have extracted : ObjectGraph.leakingGraph.extract [12] =
      .ok (ObjectGraph.leakingGraph.extractFrom ⟨[], [12], [10]⟩) := ObjectGraph.extract_eq_of_seeds rfl
  have kept : (Propagation.spread (ObjectGraph.leakingGraph.extractFrom ⟨[], [12], [10]⟩)
      (.assign (ObjectGraph.leakingGraph.extractFrom ⟨[], [12], [10]⟩) none)).path? 12 "net" 10 =
        some ⟨[10, 12], [1]⟩ := by
    refine path?_spread_eq_some_iff.mpr ⟨?_, by decide, ?_⟩
    · simp only [ObjectGraph.extractFrom, ObjectGraph.flowOrder_leaking]
      decide +kernel
    · exact (congrArg (List.lookup 12) spreadFrom_leaking.1).trans rfl
  have required := DirectDomains.get?_assign.trans (path?_spread_eq_some_iff.mp kept).1
  obtain ⟨reaches, -⟩ := spread_exact valid extracted none
  obtain ⟨-, isShortest⟩ := reaches 10 "net" required (by decide) (by decide) 12
  exact ⟨valid, _, extracted, required, kept, isShortest _ kept⟩

end Table

end DomainFlow
