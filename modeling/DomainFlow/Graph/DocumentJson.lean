import DomainFlow.Graph.Document
import DomainFlow.Json.Printer
import DomainFlow.Json.Reader

/-!
Documents of object graphs as JSON. Optional fields that are absent and lists that are empty are left
out when a document is written, as far as the reader gives them back.
-/
namespace DomainFlow

namespace Json

def optionalMember {α : Type} (name : String) (encode : α → Json) : Option α → List (String × Json)
  | none => []
  | some value => [(name, encode value)]

def listMember {α : Type} (name : String) (encode : α → Json) : List α → List (String × Json)
  | [] => []
  | values => [(name, .array (values.map encode))]

def optionalField? {α : Type} (content? : Json → Option α) : Option Json → Option (Option α) :=
  defaulted? none (nullable? content?)

def listField? {α : Type} (element? : Json → Option α) : Option Json → Option (List α) :=
  defaulted? [] (list? element?)

end Json

namespace AstRecord

/-- The keys of a place, in the order in which an array gives the fields. -/
def fieldNames : List String :=
  ["id", "type", "code", "childnum", "funcid", "namespace", "doccomment", "labels", "flags", "filename",
    "name", "module_exports"]

def members (ast : AstRecord) : List (String × Json) :=
  [("id", ast.id.toJson), ("type", .ofString ast.type)] ++
  Json.optionalMember "code" Literal.toJson ast.code ++
  Json.optionalMember "childnum" (fun number => .ofInt number.toInt) ast.childNumber ++
  Json.optionalMember "funcid" NodeId.toJson ast.functionId ++
  Json.optionalMember "namespace" Json.ofString ast.location ++
  Json.optionalMember "doccomment" Json.ofString ast.docComment ++
  Json.listMember "labels" Json.ofString ast.labels ++
  Json.listMember "flags" Json.ofString ast.flags ++
  Json.optionalMember "filename" Json.ofString ast.fileName ++
  Json.optionalMember "name" Json.ofString ast.name ++
  Json.listMember "module_exports" NodeId.toJson ast.moduleExports

def ofJson? (value : Json) : Option AstRecord :=
  match value.fields? fieldNames with
  | some [id, type, code, childNumber, functionId, location, docComment, labels, flags, fileName, name,
      moduleExports] => do
    return {
      id := ← Json.defaulted? 0 Json.nat64? id
      type := ← Json.defaulted? "" Json.text? type
      code := ← Json.optionalField? Literal.ofJson? code
      childNumber := ← Json.optionalField? Json.int64? childNumber
      functionId := ← Json.optionalField? Json.nat64? functionId
      location := ← Json.optionalField? Json.text? location
      docComment := ← Json.optionalField? Json.text? docComment
      labels := ← Json.listField? Json.text? labels
      flags := ← Json.listField? Json.text? flags
      fileName := ← Json.optionalField? Json.text? fileName
      name := ← Json.optionalField? Json.text? name
      moduleExports := ← Json.listField? Json.nat64? moduleExports }
  | _ => none

end AstRecord

namespace ObjectRecord

/-- The keys of an object, in the order in which an array gives the fields. -/
def fieldNames : List String :=
  ["id", "type", "code", "name", "defined_in", "exported", "tainted", "trust_domain", "fake_arg",
    "obj_type", "native_func"]

def members (object : ObjectRecord) : List (String × Json) :=
  [("id", object.id.toJson)] ++
  Json.optionalMember "type" Json.ofString object.valueType ++
  Json.optionalMember "code" Literal.toJson object.code ++
  Json.optionalMember "name" Json.ofString object.name ++
  Json.optionalMember "defined_in" NodeId.toJson object.definedIn ++
  [("exported", .bool object.isExported), ("tainted", .bool object.isTainted)] ++
  Json.optionalMember "trust_domain" Json.ofString object.trustDomain ++
  Json.optionalMember "fake_arg" FakeArgument.toJson object.fakeArgument ++
  Json.optionalMember "obj_type" ObjectType.toJson object.objectType ++
  Json.optionalMember "native_func" Json.ofString object.nativeFunction

def ofJson? (value : Json) : Option ObjectRecord :=
  match value.fields? fieldNames with
  | some [id, valueType, code, name, definedIn, isExported, isTainted, trustDomain, fakeArgument,
      objectType, nativeFunction] => do
    return {
      id := ← Json.defaulted? 0 Json.nat64? id
      valueType := ← Json.optionalField? Json.text? valueType
      code := ← Json.optionalField? Literal.ofJson? code
      name := ← Json.optionalField? Json.text? name
      definedIn := ← Json.optionalField? Json.nat64? definedIn
      isExported := ← Json.defaulted? false Json.truth? isExported
      isTainted := ← Json.defaulted? false Json.truth? isTainted
      trustDomain := ← Json.optionalField? Json.text? trustDomain
      fakeArgument := ← Json.optionalField? (FakeArgument.ofJson? Json.isNullOrEmpty) fakeArgument
      objectType := ← Json.optionalField? (ObjectType.ofJson? Json.isNullOrEmpty) objectType
      nativeFunction := ← Json.optionalField? Json.text? nativeFunction }
  | _ => none

end ObjectRecord

namespace NameRecord

def members (name : NameRecord) : List (String × Json) :=
  [("id", name.id.toJson)] ++ Json.optionalMember "name" Literal.toJson name.name

def ofJson? (value : Json) : Option NameRecord :=
  match value.fields? ["id", "name"] with
  | some [id, name] => do
    return {
      id := ← Json.defaulted? 0 Json.nat64? id
      name := ← Json.optionalField? Literal.ofJson? name }
  | _ => none

end NameRecord

namespace ScopeRecord

def members (scope : ScopeRecord) : List (String × Json) := [("id", scope.id.toJson)]

def ofJson? (value : Json) : Option ScopeRecord :=
  match value.fields? ["id"] with
  | some [id] => do
    return { id := ← Json.required? Json.nat64? id }
  | _ => none

end ScopeRecord

namespace NodeRecord

def toJson : NodeRecord → Json
  | .ast record => .ofMembers (("kind", .ofString "ast") :: record.members)
  | .object record => .ofMembers (("kind", .ofString "object") :: record.members)
  | .name record => .ofMembers (("kind", .ofString "name") :: record.members)
  | .scope record => .ofMembers (("kind", .ofString "scope") :: record.members)

def ofJson? (value : Json) : Option NodeRecord :=
  if !value.canBeHeld 2 then none
  else match value.tagged? "kind" with
    | some ("ast", record) => (AstRecord.ofJson? record).map .ast
    | some ("object", record) => (ObjectRecord.ofJson? record).map .object
    | some ("name", record) => (NameRecord.ofJson? record).map .name
    | some ("scope", record) => (ScopeRecord.ofJson? record).map .scope
    | _ => none

end NodeRecord

namespace EdgeRecord

def toJson (edge : EdgeRecord) : Json :=
  .ofMembers ([("from", edge.source.toJson), ("to", edge.target.toJson), ("type", edge.kind.toJson)] ++
    Json.optionalMember "module_name" Json.ofString edge.moduleName)

def ofJson? (value : Json) : Option EdgeRecord :=
  match value.fields? ["from", "to", "type", "module_name"] with
  | some [source, target, kind, moduleName] => do
    return {
      source := ← Json.required? Json.nat64? source
      target := ← Json.required? Json.nat64? target
      kind := ← Json.required? EdgeKind.ofJson? kind
      moduleName := ← Json.optionalField? Json.text? moduleName }
  | _ => none

end EdgeRecord

/-- The number that a key spells: plain digits without leading zeros, within 64 bits. -/
def keyNumber? (key : QuotedText) : Option UInt64 :=
  if !key.verbatim then none
  else key.text?.bind fun text =>
    match text.toList.mapM Digit.ofChar? with
    | none => none
    | some digits =>
      let number := Digit.value 0 digits
      if digits.isEmpty || (digits.head? == some Digit.zero && decide (1 < digits.length)) then none
      else if number < 18446744073709551616 then some (UInt64.ofNat number)
      else none

def namedBuiltin? (member : QuotedText × Json) : Option (UInt64 × String) := do
  return (← keyNumber? member.1, ← member.2.text?)

/-- Names of builtin objects by their numbers. Of several names for one number the last counts. -/
def namedBuiltinsOfJson? : Json → Option (SortedMap UInt64 String)
  | .object members => (members.mapM namedBuiltin?).map SortedMap.ofList
  | _ => none

def namedBuiltinsToJson (builtins : SortedMap UInt64 String) : Json :=
  .ofMembers (builtins.entries.map fun (id, name) => (id.toNat.repr, .ofString name))

namespace Document

def toJson (document : Document) : Json :=
  .ofMembers (
    Json.optionalMember "package_root" Json.ofString document.packageRoot ++
    Json.optionalMember "last_builtin_id" NodeId.toJson document.lastBuiltinId ++
    (if document.namedBuiltins.isEmpty then []
      else [("named_builtins", namedBuiltinsToJson document.namedBuiltins)]) ++
    [("nodes", .array (document.nodes.map NodeRecord.toJson)),
      ("edges", .array (document.edges.map EdgeRecord.toJson))])

def ofJson? (value : Json) : Option Document :=
  match value.fields? ["package_root", "last_builtin_id", "named_builtins", "nodes", "edges"] with
  | some [packageRoot, lastBuiltinId, namedBuiltins, nodes, edges] => do
    return {
      packageRoot := ← Json.optionalField? Json.text? packageRoot
      lastBuiltinId := ← Json.optionalField? Json.nat64? lastBuiltinId
      namedBuiltins := ← Json.defaulted? .empty namedBuiltinsOfJson? namedBuiltins
      nodes := ← Json.listField? NodeRecord.ofJson? nodes
      edges := ← Json.listField? EdgeRecord.ofJson? edges }
  | _ => none

def text (document : Document) : String := document.toJson.compact

def read? (text : String) : Option Document := (Json.read? text).bind ofJson?

end Document

end DomainFlow
