import DomainFlow.Graph.DocumentJson
import DomainFlow.Package.Script

/-!
What is known about a version of a package beside its object graph.
-/
namespace DomainFlow

/-- The objects that the package exports and the scripts of its installation. -/
structure Metadata where
  exportedObjects : List NodeId
  lifecycleScripts : Option LifecycleScripts
deriving DecidableEq

namespace LifecycleScripts

def toJson (scripts : LifecycleScripts) : Json :=
  .ofMembers (scripts.toList.map fun (name, command) => (name, .ofString command))

def ofJson? (value : Json) : Option LifecycleScripts := do
  match ← value.fields? ["preinstall", "install", "postinstall"] with
  | [preinstall, install, postinstall] =>
    return ⟨← Json.optionalField? Json.text? preinstall, ← Json.optionalField? Json.text? install,
      ← Json.optionalField? Json.text? postinstall⟩
  | _ => failure

end LifecycleScripts

namespace Metadata

def empty : Metadata := ⟨[], none⟩

def toJson (metadata : Metadata) : Json :=
  .ofMembers [("exported_objects", .array (metadata.exportedObjects.map NodeId.toJson)),
    ("lifecycle_scripts", .ofOption LifecycleScripts.toJson metadata.lifecycleScripts)]

/-- Reads what is known about a version. Nothing of it has to be there. -/
def ofJson? (value : Json) : Option Metadata := do
  match ← value.fields? ["exported_objects", "lifecycle_scripts"] with
  | [exportedObjects, lifecycleScripts] =>
    return ⟨← Json.listField? Json.nat64? exportedObjects,
      ← Json.optionalField? LifecycleScripts.ofJson? lifecycleScripts⟩
  | _ => failure

end Metadata

end DomainFlow
