import DomainFlow.Config.Basic
import DomainFlow.Toml.Moment
import DomainFlow.Toml.Reader

/-!
Configurations as TOML documents. Each section is a table, or an array of its options in order; options
that are missing have their standard values. Unknown keys are allowed, and there are warnings about
them.
-/
namespace DomainFlow

namespace Toml

def asText? : Toml → Option String
  | .text value => some value
  | _ => none

def asTruth? : Toml → Option Bool
  | .truth value => some value
  | _ => none

def asTexts? : Toml → Option (List String)
  | .array elements => elements.mapM asText?
  | .tables [] => some []
  | _ => none

/-- The options of a section in the order of their names. An option may be absent; a date has none. -/
def options? (names : List String) : Toml → Option (List (Option Toml))
  | .table _ entries => some (names.map fun name => entries.lookup name)
  | .array elements =>
    some ((elements.map some ++ List.replicate names.length none).take names.length)
  | .tables elements =>
    some ((elements.map (fun entries => some (Toml.table .header entries)) ++
      List.replicate names.length none).take names.length)
  | .moment _ => some (names.map fun _ => none)
  | _ => none

def defaulted? {α : Type} (standard : α) (content? : Toml → Option α) : Option Toml → Option α
  | none => some standard
  | some value => content? value

/-- Whether a value holds no others, though it could. -/
def isEmptyHolder : Toml → Bool
  | .array [] => true
  | .table _ [] => true
  | .tables [] => true
  | _ => false

/-- The name that a choice gives: as a text, or as the only key of a table, whose value must hold
nothing. -/
def choice? : Toml → Option String
  | .text name => some name
  | .table _ [(name, value)] => if isEmptyHolder value then some name else none
  | _ => none

end Toml

namespace Config

def sectionNames : List String := ["analysis", "diff", "cross_package"]

def analysisNames : List String := ["builtins_dir", "consolidate", "aggregate_locals"]

def diffNames : List String := ["policy"]

def crossPackageNames : List String := ["excluded", "always_exclude"]

def analysisOf? (value : Toml) : Option AnalysisOptions := do
  match ← value.options? analysisNames with
  | [builtinsDirectory, consolidate, aggregateLocals] =>
    return ⟨← Toml.defaulted? none (fun value => value.asText?.map some) builtinsDirectory,
      ← Toml.defaulted? false Toml.asTruth? consolidate,
      ← Toml.defaulted? false Toml.asTruth? aggregateLocals⟩
  | _ => failure

def policyOf? (value : Toml) : Option DiffPolicy := do
  match ← value.options? diffNames with
  | [policy] =>
    Toml.defaulted? DiffPolicy.standard (fun value => value.choice?.bind DiffPolicy.ofLabel?) policy
  | _ => failure

def crossPackageOf? (value : Toml) : Option CrossOptions := do
  match ← value.options? crossPackageNames with
  | [excluded, alwaysExclude] =>
    return ⟨← Toml.defaulted? CrossOptions.standard.excluded Toml.asTexts? excluded,
      ← Toml.defaulted? CrossOptions.standard.alwaysExclude Toml.asTexts? alwaysExclude⟩
  | _ => failure

def ofToml? (document : TomlTable) : Option Config := do
  return ⟨← Toml.defaulted? .standard analysisOf? (document.lookup "analysis"),
    ← Toml.defaulted? .standard policyOf? (document.lookup "diff"),
    ← Toml.defaulted? .standard crossPackageOf? (document.lookup "cross_package")⟩

/-- The keys of a table that are not among the known ones, in increasing order. -/
def unknownKeys (known : List String) (entries : TomlTable) : List String :=
  (SortedSet.ofList ((entries.map Prod.fst).filter fun key => !known.contains key)).toList

/-- The warnings about the unknown keys of a section. A section that stands for a moment has no keys. -/
def sectionWarnings (document : TomlTable) (name : String) (known : List String) : List String :=
  match document.lookup name with
  | some (.table _ entries) =>
    if Toml.standsForMoment entries then []
    else (unknownKeys known entries).map fun key =>
      "Unknown config option in [" ++ name ++ "]: '" ++ key ++ "'"
  | _ => []

/-- The warnings about all unknown keys. There are none if a table stands for a moment and gives no
moment, because the keys are then not looked at. -/
def warnings (document : TomlTable) : List String :=
  if !Toml.areSoundEntries document then []
  else
    (unknownKeys sectionNames document).map (fun key => "Unknown config option: '" ++ key ++ "'") ++
    sectionWarnings document "analysis" analysisNames ++
    sectionWarnings document "diff" diffNames ++
    sectionWarnings document "cross_package" crossPackageNames

def read? (text : String) : Option (Config × List String) := do
  let document ← Toml.read? text
  return (← ofToml? document, warnings document)

end Config

end DomainFlow
