import DomainFlow.Graph.Query

/-!
Call sites and the types of objects. A call is local when one of the functions that it was resolved to
is written in the package. The rules that give an object its type are tried in a fixed order, and the
first that applies decides.
-/
namespace DomainFlow

namespace ObjectGraph

def functionDefinitions : List String :=
  ["AST_FUNC_DECL", "AST_CLOSURE", "AST_METHOD", "AST_ARROW_FUNC"]

def definesPackageFunction (graph : ObjectGraph) (place : NodeId) : Bool :=
  match graph.ast? place with
  | none => false
  | some ast =>
    !ast.isArtificial && functionDefinitions.contains ast.type &&
      match graph.sourceFile? place with
      | some file => graph.context.isInsidePackage file
      | none => graph.context.packageRoot.isNone

def isLocalCall (graph : ObjectGraph) (site : NodeId) : Bool :=
  (graph.outNeighbors site .astCallToFuncObj).any fun callee =>
    match graph.definition? callee with
    | none => false
    | some place => graph.definesPackageFunction place

/-- Whether a place is a call that does not require a module. -/
def isCall (ast : AstRecord) : Bool :=
  (ast.type == "AST_CALL" || ast.type == "AST_METHOD_CALL") && !ast.hasFlag "REQUIRE"

/-- The calls that leave the package. -/
def callSites (graph : ObjectGraph) : List NodeId :=
  ((graph.nodes.filterMap NodeRecord.ast?).filter fun ast =>
    isCall ast && !graph.isLocalCall ast.id).map AstRecord.id

/-- The objects that the functions of a call return and that were created at the call. -/
def returnObjects (graph : ObjectGraph) (site : NodeId) : List NodeId :=
  let created := graph.inNeighbors site .objToAst
  let returned := (graph.outNeighbors site .astCallToFuncObj).flatMap fun callee =>
    graph.outNeighbors callee .funcObjToRetVal
  (returned.filter fun object => created.contains object).eraseDups

def callReturns (graph : ObjectGraph) : List NodeId :=
  (graph.callSites.flatMap graph.returnObjects).eraseDups

/-- The place at which an object was created, unless that place was made up, stands for a whole file, or
was read from the standard input. -/
def usableDefinition? (graph : ObjectGraph) (id : NodeId) : Option (NodeId × AstRecord) :=
  match graph.definition? id with
  | none => none
  | some place =>
    match graph.ast? place with
    | none => none
    | some ast =>
      if ast.isArtificial || ast.type == "AST_TOPLEVEL" || graph.sourceFile? place == some "stdin" then
        none
      else some (place, ast)

def hasKnownLiteral (object : ObjectRecord) : Bool :=
  match object.code with
  | none => false
  | some code => code.isTruthy && !code.isWildcard

def hasWildcard (object : ObjectRecord) : Bool :=
  match object.code with
  | none => false
  | some code => code.isWildcard

def typeByDefinition (graph : ObjectGraph) (object : ObjectRecord) (place : NodeId) (ast : AstRecord) :
    ObjectType :=
  if ast.type == "AST_ARRAY" then .container
  else if ast.type == "AST_NEW" then .apiRetVal
  else if hasKnownLiteral object then .static
  else if object.name == some "\x7banon\x7d" && object.valueType == some "function" then .static
  else if ast.type == "AST_METHOD_CALL" && object.valueType == some "object" && hasWildcard object &&
      (graph.returnObjects place).contains object.id then .apiRetVal
  else .other

/-- The type of a node, given the objects that calls return. A node that is no object is of another
type. -/
def classify (graph : ObjectGraph) (returns : List NodeId) (id : NodeId) : ObjectType :=
  match graph.object? id with
  | none => .other
  | some object =>
    match object.objectType, object.fakeArgument with
    | some type, _ => type
    | none, some .export => .exportParam
    | none, some .callback => .callbackParam
    | none, none =>
      match graph.usableDefinition? id with
      | some (place, ast) => graph.typeByDefinition object place ast
      | none =>
        if graph.context.isNamedBuiltin id then .builtin
        else if returns.contains id then .apiRetVal
        else if graph.context.isWithinBuiltinRange id then .builtin
        else .other

end ObjectGraph

end DomainFlow
