import DomainFlow.Domain.Assign

/-!
How domains spread. A node with a domain hands it on to its properties and to what it returns, but not
to objects of the interpreter that are properties. For every node with a domain, and every node that it
reaches, a path of least length is kept.
-/
namespace DomainFlow

/-- A path in a data-flow graph: its nodes, and the positions of the edges between them. -/
structure PropagationPath where
  nodes : List NodeId
  edges : List Nat
deriving DecidableEq

namespace PropagationPath

def start (id : NodeId) : PropagationPath := ⟨[id], []⟩

def extend (path : PropagationPath) (edge : Nat) (id : NodeId) : PropagationPath :=
  ⟨path.nodes ++ [id], path.edges ++ [edge]⟩

def length (path : PropagationPath) : Nat := path.nodes.length

end PropagationPath

/-- The nodes that a domain has reached from one node, each with the path kept for it. -/
abbrev Reached := List (NodeId × PropagationPath)

namespace Reached

def improve (id : NodeId) (path : PropagationPath) : Reached → Reached
  | [] => []
  | (other, known) :: rest =>
    if other = id then (other, path) :: rest else (other, known) :: improve id path rest

def totalLength : Reached → Nat
  | [] => 0
  | (_, path) :: rest => path.length + totalLength rest

theorem totalLength_improve {id : NodeId} {path known : PropagationPath} {reached : Reached}
    (found : reached.lookup id = some known) (shorter : path.length < known.length) :
    totalLength (improve id path reached) < totalLength reached := by
  induction reached with
  | nil => simp at found
  | cons entry rest ih =>
    obtain ⟨other, current⟩ := entry
    by_cases same : other = id
    · subst same
      have currentKnown : current = known := by simpa using found
      subst currentKnown
      simp [improve, totalLength, shorter]
    · have foundRest : rest.lookup id = some known := by
        rw [List.lookup_cons] at found
        have different : (id == other) = false := by simpa using fun equal : id = other => same equal.symm
        simpa [different] using found
      have smaller := ih foundRest
      simp only [improve, if_neg same, totalLength]
      omega

end Reached

namespace DataFlowGraph

/-- Whether a domain is handed on over an edge. -/
def handsOn (graph : DataFlowGraph) (edge : FlowEdge) : Bool :=
  match edge.kind with
  | .parentToChild => !graph.isBuiltin edge.target
  | .funcObjToRetVal => true
  | _ => false

/-- The paths by which a path goes on, as far as they are shorter than the ones that are kept. The last
edge comes first. -/
def extensions (graph : DataFlowGraph) (reached : Reached) (id : NodeId) (path : PropagationPath) : Reached :=
  (((graph.outEdges id).filter fun (edge, _) =>
    graph.handsOn edge && (reached.lookup edge.target).all fun known => path.length + 1 < known.length).map
    fun (edge, index) => (edge.target, path.extend index edge.target)).reverse

/-- Follows the pending paths. A path is kept if its end was not reached yet or if it is shorter than
the path that is kept; then the paths by which it goes on are followed first. Only the `fresh` nodes can
still be reached for the first time. -/
def spreadOver (graph : DataFlowGraph) (fresh : List NodeId) (reached pending : Reached) : Reached :=
  match pending with
  | [] => reached
  | (id, path) :: rest =>
    match _found : reached.lookup id with
    | some known =>
      if _shorter : path.length < known.length then
        let improved := Reached.improve id path reached
        graph.spreadOver fresh improved (graph.extensions improved id path ++ rest)
      else graph.spreadOver fresh reached rest
    | none =>
      if _present : id ∈ fresh then
        let extended := reached ++ [(id, path)]
        graph.spreadOver (fresh.erase id) extended (graph.extensions extended id path ++ rest)
      else graph.spreadOver fresh reached rest
termination_by (fresh.length, Reached.totalLength reached, pending.length)
decreasing_by
  · exact Prod.Lex.right _ (Prod.Lex.left _ _ (Reached.totalLength_improve _found _shorter))
  · exact Prod.Lex.right _ (Prod.Lex.right _ (by simp))
  · have smaller := List.length_erase_of_mem _present
    have positive := List.length_pos_of_mem _present
    exact Prod.Lex.left _ _ (by omega)
  · exact Prod.Lex.right _ (Prod.Lex.right _ (by simp))

/-- The nodes that the domain of a node reaches, with a path of least length to each. -/
def spreadFrom (graph : DataFlowGraph) (root : NodeId) : Reached :=
  graph.spreadOver graph.ids [] [(root, .start root)]

end DataFlowGraph

structure Spread where
  root : NodeId
  domain : Domain
  reached : Reached
deriving DecidableEq

/-- A domain that has reached a node: from which node, and on which path. -/
structure Arrival where
  domain : Domain
  root : NodeId
  path : PropagationPath
deriving DecidableEq

structure Propagation where
  spreads : List Spread
deriving DecidableEq

namespace Propagation

/-- Domains that do not spread. -/
def isConfined (domain : Domain) : Bool := domain == Domain.dynamicRequire || domain == Domain.dynamicEval

def spread (graph : DataFlowGraph) (domains : DirectDomains) : Propagation :=
  ⟨(domains.roots.filter fun root => !isConfined root.2).map fun root =>
    ⟨root.1, root.2, graph.spreadFrom root.1⟩⟩

def arrivals (propagation : Propagation) (id : NodeId) : List Arrival :=
  propagation.spreads.filterMap fun spread =>
    (spread.reached.lookup id).map fun path => ⟨spread.domain, spread.root, path⟩

/-- The domains that have reached a node in the order of their numbers, each with its arrivals by
increasing root. -/
def grouped (propagation : Propagation) (interner : Interner) (id : NodeId) : List (Domain × List Arrival) :=
  (interner.names.map fun domain =>
    (domain, ((propagation.arrivals id).filter fun arrival => arrival.domain == domain).mergeSort
      fun first second => decide (first.root ≤ second.root))).filter fun group => !group.2.isEmpty

def reaches (propagation : Propagation) (id : NodeId) (domain : Domain) : Bool :=
  (propagation.arrivals id).any fun arrival => arrival.domain == domain

def path? (propagation : Propagation) (id : NodeId) (domain : Domain) (root : NodeId) : Option PropagationPath :=
  ((propagation.arrivals id).find? fun arrival =>
    arrival.domain == domain && arrival.root == root).map Arrival.path

end Propagation

end DomainFlow
