import DomainFlow.Graph.Document

/-!
Putting documents together node by node and edge by edge.
-/
namespace DomainFlow

namespace Document

def addBuiltin (document : Document) (id : UInt64) (name : String) : Document :=
  { document with namedBuiltins := document.namedBuiltins.insert id name }

def addNode (document : Document) (node : NodeRecord) : Document :=
  { document with nodes := document.nodes ++ [node] }

def addEdge (document : Document) (source target : NodeId) (kind : EdgeKind) : Document :=
  { document with edges := document.edges ++ [⟨source, target, kind, none⟩] }

def addChild (document : Document) (parent : NodeId) (ast : AstRecord) : Document :=
  (document.addNode (.ast ast)).addEdge parent ast.id .parentOf

def addObjectAt (document : Document) (object : ObjectRecord) (place : NodeId) : Document :=
  (document.addNode (.object object)).addEdge object.id place .objToAst

def addRequire (document : Document) (place object : NodeId) (moduleName : String) : Document :=
  { document with edges := document.edges ++ [⟨place, object, .astRequireToObj, some moduleName⟩] }

def addProperty (document : Document) (parent nameId : NodeId) (name : String) (child : NodeId) : Document :=
  ((document.addNode (.name ⟨nameId, some (.text name)⟩)).addEdge parent nameId .objToProp).addEdge
    nameId child .nameToObj

end Document

end DomainFlow
