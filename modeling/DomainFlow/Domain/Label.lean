import DomainFlow.Text.Split

/-!
Trust domains. A domain is a label that says where a value comes from: the caller of the package, the
package's own code, a required module, or a capability of the interpreter. The domains of the package's
own code are the local ones.
-/
namespace DomainFlow

/-- A label that says where a value comes from. -/
abbrev Domain := String

namespace Domain

def localCode : Domain := ":local"

/-- Local code that was not there before. -/
def newLocalCode : Domain := ":local:new"

def caller : Domain := ":caller"

/-- Modules whose name is computed. -/
def dynamicRequire : Domain := ":dyn:require"

/-- Code that is computed. -/
def dynamicEval : Domain := ":dyn:eval"

def installScripts : Domain := "install_scripts"

def isLocal (domain : Domain) : Bool := Text.startsWith domain localCode

def generalizeLocal (domain : Domain) : Domain := if isLocal domain then localCode else domain

def generalizeNew (domain : Domain) : Domain := if isLocal domain then newLocalCode else domain

/-- The domain up to the first dot, so that properties belong to the object that has them. -/
def consolidate (domain : Domain) : Domain := String.ofList (domain.toList.takeWhile fun char => char != '.')

end Domain

end DomainFlow
