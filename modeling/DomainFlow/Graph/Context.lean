import DomainFlow.Path
import DomainFlow.Graph.Document

/-!
What a graph knows beside its nodes and edges: the builtin objects of the interpreter and the directory
of the package.
-/
namespace DomainFlow

structure Context where
  namedBuiltins : SortedMap UInt64 String
  lastBuiltinId : Option UInt64
  packageRoot : Option String
deriving DecidableEq

namespace Context

def builtinName? (context : Context) (node : NodeId) : Option String := context.namedBuiltins.get? node

def isNamedBuiltin (context : Context) (node : NodeId) : Bool := context.namedBuiltins.contains node

/-- Whether a node was made while the builtin objects were set up. -/
def isWithinBuiltinRange (context : Context) (node : NodeId) : Bool :=
  match context.lastBuiltinId with
  | none => false
  | some last => decide (node ≤ last)

/-- Whether a file belongs to the package. Relative files do, and all files if the directory of the
package is not known. -/
def isInsidePackage (context : Context) (file : String) : Bool :=
  match context.packageRoot with
  | none => true
  | some root => Path.isRelative file || Path.startsWith file root

/-- A file as seen from the directory of the package, if it lies there. -/
def relativize (context : Context) (file : String) : String :=
  match context.packageRoot with
  | none => file
  | some root => (Path.strip? file root).getD file

end Context

end DomainFlow
