import DomainFlow.Package.Analysis
import DomainFlow.Package.Flow
import DomainFlow.Relation.Diff

/-!
Configurations: how versions are analysed and compared, and what is left out of the flow between
packages.
-/
namespace DomainFlow

structure Config where
  analysis : AnalysisOptions
  policy : DiffPolicy
  crossPackage : CrossOptions
deriving DecidableEq

namespace Config

def standard : Config := ⟨.standard, .standard, .standard⟩

def fileName : String := "trustflow.toml"

def toJson (config : Config) : Json :=
  .ofMembers [
    ("analysis", .ofMembers (Json.optionalMember "builtins_dir" .ofString config.analysis.builtinsDirectory ++
      [("consolidate", .bool config.analysis.consolidate),
        ("aggregate_locals", .bool config.analysis.aggregateLocals)])),
    ("diff", .ofMembers [("policy", config.policy.toJson)]),
    ("cross_package", .ofMembers [
      ("excluded", .array (config.crossPackage.excluded.map .ofString)),
      ("always_exclude", .array (config.crossPackage.alwaysExclude.map .ofString))])]

end Config

end DomainFlow
