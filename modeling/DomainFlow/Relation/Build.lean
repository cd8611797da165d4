import DomainFlow.Domain.Spread
import DomainFlow.Package.Script
import DomainFlow.Relation.Map

/-!
The relations of a data-flow graph. Three rules give them: what has reached an exported object is known
to the caller; data flows from an object with a domain along the edges of the graph to others; and a
script of the installation that no module requires is run by local code.
-/
namespace DomainFlow

/-- A node that a walk has met, with the nodes of the way to it. -/
structure Visit where
  node : NodeId
  path : List NodeId
deriving DecidableEq

namespace DataFlowGraph

def inheritedProperties : List String := ["__proto__", "prototype", "hasOwnProperty", "constructor"]

def carriesData (edge : FlowEdge) : Bool :=
  match edge.kind with
  | .contributesTo | .funcObjToRetVal => true
  | .parentToChild => !edge.label.any fun name => inheritedProperties.contains name
  | _ => false

/-- Whether a walk may enter a node: it is an object and not the function that loads modules. -/
def isWalkable (graph : DataFlowGraph) (id : NodeId) : Bool :=
  (graph.object? id).any fun object => !object.isModuleLoader

def flowTargets (graph : DataFlowGraph) (id : NodeId) : List NodeId :=
  (graph.edges.filter fun edge => edge.source == id && carriesData edge).map FlowEdge.target

def nextVisits (graph : DataFlowGraph) (unseen : List NodeId) (visit : Visit) : List Visit :=
  ((graph.flowTargets visit.node).filter fun target => unseen.contains target).map fun target =>
    ⟨target, visit.path ++ [target]⟩

/-- The visits of a breadth-first walk over the nodes that are not seen yet. -/
def walkOver (graph : DataFlowGraph) (unseen : List NodeId) (queue : List Visit) : List Visit :=
  match queue with
  | [] => []
  | visit :: rest =>
    if _enters : visit.node ∈ unseen ∧ graph.isWalkable visit.node then
      let remaining := unseen.erase visit.node
      visit :: graph.walkOver remaining (rest ++ graph.nextVisits remaining visit)
    else graph.walkOver unseen rest
termination_by (unseen.length, queue.length)
decreasing_by
  · have shorter := List.length_erase_of_mem _enters.1
    have positive := List.length_pos_of_mem _enters.1
    exact Prod.Lex.left _ _ (by omega)
  · exact Prod.Lex.right _ (by simp)

/-- The visits of a walk from a node, given the nodes that earlier walks have seen. The first node is
visited again only if `revisit` says so. -/
def walkFrom (graph : DataFlowGraph) (seen : List NodeId) (root : NodeId) (revisit : Bool) : List Visit :=
  let unseen := graph.ids.filter fun id => !seen.contains id
  graph.walkOver (if revisit && seen.contains root then root :: unseen else unseen) [⟨root, [root]⟩]

/-- The visits of the walks from all objects that have a domain. Walks for one domain share what they
have seen. -/
def walks (graph : DataFlowGraph) (domains : DirectDomains) (seen : Domain → List NodeId) :
    List (NodeId × FlowObject) → List (Domain × List Visit)
  | [] => []
  | (id, object) :: rest =>
    match domains.get? id with
    | none => graph.walks domains seen rest
    | some domain =>
      if domain == Domain.dynamicRequire || object.isModuleLoader then graph.walks domains seen rest
      else
        let visits := graph.walkFrom (seen domain) id (object.objectType == .apiRetVal)
        let known := visits.map Visit.node ++ seen domain
        (domain, visits) ::
          graph.walks domains (fun other => if other = domain then known else seen other) rest

def compositeLabel (graph : DataFlowGraph) (domain : Domain) (path : PropagationPath) : Domain :=
  let names := path.edges.filterMap fun index =>
    match graph.edges[index]? with
    | some edge => if edge.kind == .parentToChild then edge.label else none
    | none => none
  ".".intercalate (domain :: names)

/-- What a visit shows about a domain from which data flows. Objects of the interpreter show
nothing. -/
def visitRelations (graph : DataFlowGraph) (domains : DirectDomains) (propagation : Propagation)
    (source : Domain) (visit : Visit) : List (Relation × Witness) :=
  if graph.isBuiltin visit.node then []
  else
    ((domains.get? visit.node).map fun domain =>
      (⟨source, domain⟩, ⟨visit.path, [visit.node]⟩)).toList ++
    (propagation.arrivals visit.node).map fun arrival =>
      (⟨source, graph.compositeLabel arrival.domain arrival.path⟩, ⟨visit.path, arrival.path.nodes⟩)

/-- What an exported object shows: everything that has reached it is known to the caller. -/
def exportRelations (domains : DirectDomains) (propagation : Propagation) (id : NodeId) :
    List (Relation × Witness) :=
  ((propagation.arrivals id).map fun arrival =>
    (⟨Domain.caller, arrival.domain⟩, ⟨[arrival.root, id], [arrival.root, id]⟩)) ++
  ((domains.get? id).map fun domain => (⟨Domain.caller, domain⟩, ⟨[id, id], [id, id]⟩)).toList

def requiresScript (graph : DataFlowGraph) (command : String) : Bool :=
  match Script.entryFile? command with
  | none => false
  | some file => graph.edges.any fun edge => edge.kind == .astRequireToObj && edge.label.any fun name =>
      Script.withoutCurrentDirectories name.toList == file.toList

def scriptRelations (graph : DataFlowGraph) (scripts : LifecycleScripts) : List (Relation × Witness) :=
  (scripts.toList.filter fun script => !graph.requiresScript script.2).map fun _ =>
    (⟨Domain.localCode, Domain.installScripts⟩, .none)

def witnesses (graph : DataFlowGraph) (domains : DirectDomains) (propagation : Propagation)
    (scripts : Option LifecycleScripts) : List (Relation × Witness) :=
  (scripts.map graph.scriptRelations).getD [] ++
  ((graph.objects.filter fun entry => entry.2.isExported).flatMap fun entry =>
    exportRelations domains propagation entry.1) ++
  (graph.walks domains (fun _ => []) graph.objects).flatMap fun (source, visits) =>
    visits.flatMap (graph.visitRelations domains propagation source)

def relationMap (graph : DataFlowGraph) (domains : DirectDomains) (propagation : Propagation)
    (scripts : Option LifecycleScripts) : RelationMap :=
  (RelationMap.ofWitnesses (graph.witnesses domains propagation scripts)).withoutNoise

end DataFlowGraph

end DomainFlow
