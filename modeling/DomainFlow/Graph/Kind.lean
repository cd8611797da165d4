import DomainFlow.Json.Decode

/-!
The kinds of nodes and edges of an object graph, and the names by which documents call them.
-/
namespace DomainFlow

/-- The number of a node. -/
abbrev NodeId := UInt64

def NodeId.toJson (node : NodeId) : Json := .ofNat node.toNat

/-- What a node stands for: a place in the source, a value at run time, the name of a property, or a
scope. -/
inductive NodeKind where
  | ast
  | object
  | name
  | scope
deriving DecidableEq, Repr

def NodeKind.label : NodeKind → String
  | .ast => "AST"
  | .object => "Object"
  | .name => "Name"
  | .scope => "Scope"

/-- What an edge states about its two nodes. -/
inductive EdgeKind where
  /-- An object was created at a place in the source. -/
  | objToAst
  /-- The value of an object went into another one. -/
  | contributesTo
  /-- A function returned an object. -/
  | funcObjToRetVal
  /-- A function object has a symbolic parameter. -/
  | funcObjToSymParam
  /-- A place in the source required a module. -/
  | astRequireToObj
  /-- An object has a property of some name. -/
  | objToProp
  /-- A property name leads to an object. -/
  | nameToObj
  /-- A call was resolved to a function object. -/
  | astCallToFuncObj
  /-- A place in the source encloses another one. -/
  | parentOf
  /-- Anything else, which the analysis does not look at. -/
  | other
deriving DecidableEq, Repr

namespace EdgeKind

def label : EdgeKind → String
  | .objToAst => "OBJ_TO_AST"
  | .contributesTo => "CONTRIBUTES_TO"
  | .funcObjToRetVal => "FUNC_OBJ_TO_RET_VAL"
  | .funcObjToSymParam => "FUNC_OBJ_TO_SYM_PARAM"
  | .astRequireToObj => "AST_REQUIRE_TO_OBJ"
  | .objToProp => "OBJ_TO_PROP"
  | .nameToObj => "NAME_TO_OBJ"
  | .astCallToFuncObj => "AST_CALL_TO_FUNC_OBJ"
  | .parentOf => "PARENT_OF"
  | .other => "OTHER"

def named : List EdgeKind :=
  [.objToAst, .contributesTo, .funcObjToRetVal, .funcObjToSymParam, .astRequireToObj, .objToProp,
    .nameToObj, .astCallToFuncObj, .parentOf]

/-- The kind of a name. A name that is not known is some other kind. -/
def ofLabel (name : String) : EdgeKind :=
  (named.find? fun kind => kind.label == name).getD .other

def endpoints? : EdgeKind → Option (NodeKind × NodeKind)
  | .objToAst => some (.object, .ast)
  | .contributesTo => some (.object, .object)
  | .funcObjToRetVal => some (.object, .object)
  | .funcObjToSymParam => some (.object, .object)
  | .astRequireToObj => some (.ast, .object)
  | .astCallToFuncObj => some (.ast, .object)
  | .objToProp => some (.object, .name)
  | .nameToObj => some (.name, .object)
  | .parentOf => some (.ast, .ast)
  | .other => none

def toJson (kind : EdgeKind) : Json := .ofString kind.label

def ofJson? (value : Json) : Option EdgeKind := (value.choice? Json.isNull).map ofLabel

end EdgeKind

/-- Whether an object stands for an argument that is made up for the analysis: one given to an exported
function, or one given to a callback. -/
inductive FakeArgument where
  | export
  | callback
deriving DecidableEq, Repr

namespace FakeArgument

def label : FakeArgument → String
  | .export => "export"
  | .callback => "callback"

def ofLabel? (name : String) : Option FakeArgument :=
  [FakeArgument.export, .callback].find? fun argument => argument.label == name

def toJson (argument : FakeArgument) : Json := .ofString argument.label

def ofJson? (isNothing : Json → Bool) (value : Json) : Option FakeArgument :=
  (value.choice? isNothing).bind ofLabel?

end FakeArgument

/-- What an object is taken for when it gets its trust domain. -/
inductive ObjectType where
  | static
  | exportParam
  | callbackParam
  | apiRetVal
  | require
  | container
  | child
  | builtin
  | other
deriving DecidableEq, Repr

namespace ObjectType

def label : ObjectType → String
  | .static => "Static"
  | .exportParam => "ExportParam"
  | .callbackParam => "CallbackParam"
  | .apiRetVal => "APIRetVal"
  | .require => "Require"
  | .container => "Container"
  | .child => "Child"
  | .builtin => "Builtin"
  | .other => "Other"

def all : List ObjectType :=
  [.static, .exportParam, .callbackParam, .apiRetVal, .require, .container, .child, .builtin, .other]

def ofLabel? (name : String) : Option ObjectType := all.find? fun type => type.label == name

def toJson (type : ObjectType) : Json := .ofString type.label

def ofJson? (isNothing : Json → Bool) (value : Json) : Option ObjectType :=
  (value.choice? isNothing).bind ofLabel?

end ObjectType

end DomainFlow
