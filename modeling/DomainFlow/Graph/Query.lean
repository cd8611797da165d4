import DomainFlow.Graph.Basic

/-!
Questions to an object graph: where an object was created, which properties it has, and in which file a
place of the source stands.
-/
namespace DomainFlow

namespace ObjectGraph

def definition? (graph : ObjectGraph) (id : NodeId) : Option NodeId :=
  (graph.outNeighbors id .objToAst).head?

/-- The properties of an object, as pairs of the node of the name and the object of the property. -/
def properties (graph : ObjectGraph) (id : NodeId) : List (NodeId × NodeId) :=
  (graph.outNeighbors id .objToProp).flatMap fun name =>
    (graph.outNeighbors name .nameToObj).map fun child => (name, child)

/-- The objects of which an object is a property, as pairs of the object and the node of the name. -/
def parentObjects (graph : ObjectGraph) (id : NodeId) : List (NodeId × NodeId) :=
  (graph.inNeighbors id .nameToObj).flatMap fun name =>
    (graph.inNeighbors name .objToProp).map fun parent => (parent, name)

def propertyName? (graph : ObjectGraph) (name : NodeId) : Option String :=
  (((graph.node? name).bind NodeRecord.name?).bind NameRecord.name).map Literal.display

def wholeFileFlag : String := "TOPLEVEL_FILE"

/-- The file of the first place that stands for a whole file, on the way from a place to its first
enclosing place and so on. The way ends at a place that is not among the `remaining` ones. -/
def enclosingFile? (graph : ObjectGraph) (remaining : List NodeId) (current : NodeId) : Option String :=
  if _present : current ∈ remaining then
    match graph.ast? current with
    | none => none
    | some ast =>
      if ast.hasFlag wholeFileFlag then ast.name
      else match (graph.inNeighbors current .parentOf).head? with
        | none => none
        | some parent => graph.enclosingFile? (remaining.erase current) parent
  else none
termination_by remaining.length
decreasing_by
  have shorter := List.length_erase_of_mem _present
  have positive := List.length_pos_of_mem _present
  omega

/-- The file in which a place stands: its own, or that of the enclosing whole file. -/
def sourceFile? (graph : ObjectGraph) (id : NodeId) : Option String :=
  match (graph.ast? id).bind AstRecord.fileName with
  | some file => some file
  | none => graph.enclosingFile? graph.ids id

end ObjectGraph

end DomainFlow
