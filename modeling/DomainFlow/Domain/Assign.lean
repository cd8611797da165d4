import DomainFlow.Path
import DomainFlow.DataFlow.Graph
import DomainFlow.Domain.Interner

/-!
The domains that nodes of a data-flow graph have by themselves, before domains spread.
-/
namespace DomainFlow

namespace DataFlowGraph

def builtinModule? (builtinsDirectory : Option String) (file : Option String) : Option Domain :=
  match builtinsDirectory, file with
  | some directory, some file => if Path.startsWith file directory then Path.stem? file else none
  | _, _ => none

/-- Whether a place can make an object local: it was not made up, not read from the standard input and
is not a whole file. -/
def isUsable (ast : FlowAst) : Bool :=
  !(ast.isArtificial || ast.fileName == some "stdin" || ast.type == "AST_TOPLEVEL")

def codeText (object : FlowObject) : String := (object.code.map Literal.display).getD ""

/-- Whether an object was created by the package's own code, as far as the place of its creation and its
value tell. -/
def isWritten (object : FlowObject) (definition : Option FlowAst) : Bool :=
  !(object.valueType == some "function" && object.nativeFunction.isSome) && definition.all isUsable

/-- The first name by which a module was required that is not empty and not a path. -/
def requiredModule? (graph : DataFlowGraph) (id : NodeId) : Option Domain :=
  ((graph.edges.filter fun edge => edge.target == id && edge.kind == .astRequireToObj).filterMap
    FlowEdge.label).find? fun name => name != "" && !name.toList.contains '/'

/-- The domain that an object has by itself, if any. -/
def objectDomain? (graph : DataFlowGraph) (builtinsDirectory : Option String) (id : NodeId)
    (object : FlowObject) : Option Domain :=
  match object.trustDomain with
  | some domain => some domain
  | none =>
    let definition := graph.definition? id
    match builtinModule? builtinsDirectory (definition.bind FlowAst.fileName) with
    | some name => some name
    | none =>
      match object.objectType with
      | .static => if isWritten object definition then some (Domain.localCode ++ ":" ++ codeText object) else none
      | .container =>
        if isWritten object definition then some (Domain.localCode ++ ":obj:" ++ codeText object) else none
      | .exportParam => some Domain.caller
      | .require => graph.requiredModule? id
      | _ => none

def domain? (graph : DataFlowGraph) (builtinsDirectory : Option String) (id : NodeId) : Option Domain :=
  (graph.object? id).bind (graph.objectDomain? builtinsDirectory id)

end DataFlowGraph

/-- The nodes that have a domain by themselves, in the order of the graph. -/
structure DirectDomains where
  roots : List (NodeId × Domain)
deriving DecidableEq

namespace DirectDomains

def assign (graph : DataFlowGraph) (builtinsDirectory : Option String) : DirectDomains :=
  ⟨graph.ids.filterMap fun id => (graph.domain? builtinsDirectory id).map fun domain => (id, domain)⟩

def get? (domains : DirectDomains) (id : NodeId) : Option Domain := domains.roots.lookup id

/-- The domains in the order in which they first occur. -/
def interner (domains : DirectDomains) : Interner := Interner.ofList (domains.roots.map Prod.snd)

end DirectDomains

end DomainFlow
