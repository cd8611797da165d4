import DomainFlow.Graph.Basic

/-!
Changes of the nodes of a document. The rules of documents look at the numbers and kinds of nodes and at what places
export; a change that keeps these is accepted or refused as before.
-/
namespace DomainFlow

namespace ObjectGraph

/-- A change of nodes at which the rules of documents do not look. -/
structure KeepsRules (change : NodeRecord → NodeRecord) : Prop where
  id : ∀ record, (change record).id = record.id
  kind : ∀ record, (change record).kind = record.kind
  moduleExports : ∀ record, (change record).ast?.map AstRecord.moduleExports = record.ast?.map AstRecord.moduleExports

def mapNodes (change : NodeRecord → NodeRecord) (graph : ObjectGraph) : ObjectGraph :=
  { graph with nodes := graph.nodes.map change }

section Changes
variable {change : NodeRecord → NodeRecord} (keeps : KeepsRules change) {nodes : List NodeRecord} {graph : ObjectGraph}
  {id : NodeId}
include keeps

theorem findNode?_map : findNode? (nodes.map change) id = (findNode? nodes id).map change := by
  have test : (fun node : NodeRecord => node.id == id) ∘ change = fun node => node.id == id := by
    funext node
    simp [keeps.id]
  rw [findNode?, List.find?_map, test, findNode?]

theorem repeatedNode?_map {earlier : List NodeId} : repeatedNode? earlier (nodes.map change) = repeatedNode? earlier nodes := by
  induction nodes generalizing earlier with
  | nil => rfl
  | cons first rest ih => simp [repeatedNode?, ih, keeps.id]

theorem edgeFault?_map {edge : EdgeRecord} {index : Nat} : edgeFault? (nodes.map change) edge index = edgeFault? nodes edge index := by
  unfold edgeFault?
  simp only [findNode?_map keeps]
  cases edge.kind.endpoints? <;> cases findNode? nodes edge.source <;> cases findNode? nodes edge.target <;>
    simp [Option.map, keeps.kind]

theorem node?_mapNodes : (mapNodes change graph).node? id = (graph.node? id).map change := findNode?_map keeps

theorem ids_mapNodes : (mapNodes change graph).ids = graph.ids := by
  simp [ids, mapNodes, Function.comp_def, keeps.id]

theorem nodeFault?_mapNodes {record : NodeRecord} : (mapNodes change graph).nodeFault? (change record) = graph.nodeFault? record := by
  have sameId := keeps.id record
  have sameKind := keeps.kind record
  have sameExports := keeps.moduleExports record
  have known : ∀ target, ((mapNodes change graph).node? target).isNone = (graph.node? target).isNone := by
    intro target
    rw [node?_mapNodes keeps, Option.isNone_map]
  cases changed : change record with
  | ast ast =>
    rw [changed] at sameId sameKind sameExports
    cases record with
    | ast old =>
      simp only [NodeRecord.ast?, Option.map_some, Option.some.injEq] at sameExports
      simp only [NodeRecord.id] at sameId
      simp only [nodeFault?, sameExports, sameId, known]
    | _ => cases sameKind
  | object object =>
    rw [changed] at sameId sameKind
    cases record with
    | object old =>
      simp only [NodeRecord.id] at sameId
      simp only [nodeFault?, sameId]
      rfl
    | _ => cases sameKind
  | name _ | scope _ =>
    rw [changed] at sameKind
    cases record <;> first | rfl | cases sameKind

/-- A change at which the rules do not look leaves a document accepted or refused as it was. -/
theorem ofDocument_map {document : Document} :
    ofDocument { document with nodes := document.nodes.map change } = (ofDocument document).map (mapNodes change) := by
  have parts : ofParts { document with nodes := document.nodes.map change } = mapNodes change (ofParts document) := rfl
  have faults : fault? { document with nodes := document.nodes.map change } = fault? document := by
    rw [fault?, parts]
    simp only [repeatedNode?_map keeps, edgeFault?_map keeps, List.findSome?_map, Function.comp_def, nodeFault?_mapNodes keeps]
    rfl
  rw [ofDocument, ofDocument, faults, parts]
  cases fault? document <;> rfl

end Changes

end ObjectGraph

end DomainFlow
