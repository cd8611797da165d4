import DomainFlow.Sorted.Map
import DomainFlow.Graph.Kind
import DomainFlow.Graph.Literal
import DomainFlow.Text.Split

/-!
Documents of object graphs: the nodes and edges that an interpreter reports for one version of a
package, with what it knows about its own builtin objects. A document may be malformed; only a checked
object graph is analysed.
-/
namespace DomainFlow

structure AstRecord where
  id : NodeId := 0
  type : String := ""
  code : Option Literal := none
  childNumber : Option Int64 := none
  functionId : Option UInt64 := none
  location : Option String := none
  docComment : Option String := none
  labels : List String := []
  flags : List String := []
  fileName : Option String := none
  name : Option String := none
  moduleExports : List NodeId := []
deriving DecidableEq

namespace AstRecord

def isArtificial (ast : AstRecord) : Bool :=
  ast.labels.any fun label => Text.startsWith label "Artificial"

def hasFlag (ast : AstRecord) (flag : String) : Bool := ast.flags.contains flag

def wholeFile (id : NodeId) (path : String) : AstRecord where
  id := id
  type := "AST_TOPLEVEL"
  flags := ["TOPLEVEL_FILE"]
  name := some path

def madeArtificial (ast : AstRecord) : AstRecord :=
  { ast with labels := ast.labels ++ ["Artificial_AST"] }

end AstRecord

structure ObjectRecord where
  id : NodeId := 0
  valueType : Option String := none
  code : Option Literal := none
  name : Option String := none
  definedIn : Option NodeId := none
  isExported : Bool := false
  isTainted : Bool := false
  trustDomain : Option String := none
  fakeArgument : Option FakeArgument := none
  objectType : Option ObjectType := none
  nativeFunction : Option String := none
deriving DecidableEq

structure NameRecord where
  id : NodeId := 0
  name : Option Literal := none
deriving DecidableEq

structure ScopeRecord where
  id : NodeId
deriving DecidableEq

inductive NodeRecord where
  | ast (record : AstRecord)
  | object (record : ObjectRecord)
  | name (record : NameRecord)
  | scope (record : ScopeRecord)
deriving DecidableEq

namespace NodeRecord

def id : NodeRecord → NodeId
  | .ast record => record.id
  | .object record => record.id
  | .name record => record.id
  | .scope record => record.id

def kind : NodeRecord → NodeKind
  | .ast _ => .ast
  | .object _ => .object
  | .name _ => .name
  | .scope _ => .scope

def ast? : NodeRecord → Option AstRecord
  | .ast record => some record
  | _ => none

def object? : NodeRecord → Option ObjectRecord
  | .object record => some record
  | _ => none

def name? : NodeRecord → Option NameRecord
  | .name record => some record
  | _ => none

end NodeRecord

structure EdgeRecord where
  source : NodeId
  target : NodeId
  kind : EdgeKind
  moduleName : Option String := none
deriving DecidableEq

/-- What an interpreter reports for one version of a package. -/
structure Document where
  packageRoot : Option String := none
  lastBuiltinId : Option UInt64 := none
  namedBuiltins : SortedMap UInt64 String := .empty
  nodes : List NodeRecord := []
  edges : List EdgeRecord := []
deriving DecidableEq

def Document.empty : Document := {}

end DomainFlow
