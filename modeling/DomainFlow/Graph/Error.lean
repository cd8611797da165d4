import DomainFlow.Graph.Kind

/-!
What can be wrong with a document, with the requests made of a graph, and with a comparison of maps.
-/
namespace DomainFlow

/-- A rule of object graphs that a document breaks. -/
inductive GraphError where
  | duplicateNode (node : NodeId)
  | unknownNode (edge : Nat) (kind : EdgeKind) (node : NodeId)
  | edgeEndpoint (edge : Nat) (kind : EdgeKind) (source target : NodeId)
      (expectedSource expectedTarget foundSource foundTarget : NodeKind)
  | multipleDefinitions (node : NodeId) (count : Nat)
  | unknownExport (ast node : NodeId)
deriving DecidableEq, Repr

def GraphError.message : GraphError → String
  | .duplicateNode node => "Duplicate node id " ++ node.toNat.repr
  | .unknownNode edge kind node =>
    "Edge #" ++ edge.repr ++ " (" ++ kind.label ++ ") references unknown node " ++ node.toNat.repr
  | .edgeEndpoint edge kind source target expectedSource expectedTarget foundSource foundTarget =>
    "Edge #" ++ edge.repr ++ " (" ++ kind.label ++ ") from " ++ source.toNat.repr ++ " to " ++
      target.toNat.repr ++ " must connect " ++ expectedSource.label ++ " -> " ++ expectedTarget.label ++
      ", found " ++ foundSource.label ++ " -> " ++ foundTarget.label
  | .multipleDefinitions node count =>
    "Object " ++ node.toNat.repr ++ " has " ++ count.repr ++ " OBJ_TO_AST edges, expected at most one"
  | .unknownExport ast node =>
    "AST node " ++ ast.toNat.repr ++ " exports unknown object " ++ node.toNat.repr

inductive AnalysisError where
  | graph (error : GraphError)
  | unknownExportedObject (node : NodeId)
  | exportedNonObject (node : NodeId)
deriving DecidableEq, Repr

def AnalysisError.message : AnalysisError → String
  | .graph error => "Malformed object graph: " ++ error.message
  | .unknownExportedObject node =>
    "Exported object " ++ node.toNat.repr ++ " is not present in the object graph"
  | .exportedNonObject node => "Exported object " ++ node.toNat.repr ++ " is not an object node"

end DomainFlow
