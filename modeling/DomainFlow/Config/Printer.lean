import DomainFlow.Config.Basic
import DomainFlow.Toml.Printer

/-!
Printing configurations as TOML documents.
-/
namespace DomainFlow

namespace Config

/-- The text of a configuration. All options are written, except for a missing directory. -/
def toToml (config : Config) : String :=
  "[analysis]\n" ++
  (match config.analysis.builtinsDirectory with
    | some directory => "builtins_dir = " ++ Toml.renderText directory ++ "\n"
    | none => "") ++
  "consolidate = " ++ Toml.renderTruth config.analysis.consolidate ++ "\n" ++
  "aggregate_locals = " ++ Toml.renderTruth config.analysis.aggregateLocals ++ "\n" ++
  "\n[diff]\n" ++
  "policy = " ++ Toml.renderText config.policy.label ++ "\n" ++
  "\n[cross_package]\n" ++
  "excluded = " ++ Toml.renderTexts config.crossPackage.excluded ++ "\n" ++
  "always_exclude = " ++ Toml.renderTexts config.crossPackage.alwaysExclude ++ "\n"

def template : String :=
  "# Trustflow configuration file\n\n" ++
  "[analysis]\n" ++
  "# Directory of the interpreter's JavaScript-modeled builtin packages\n" ++
  "# builtins_dir = \"/opt/interpreter/builtins\"\n\n" ++
  "# Truncate domains at the first '.' and collapse local sub-domains\n" ++
  "consolidate = false\n\n" ++
  "# Collapse local sub-domains into a single local domain\n" ++
  "aggregate_locals = false\n\n" ++
  "[diff]\n" ++
  "# Policy used by `trustflow diff` (broad, new-local, single-local)\n" ++
  "policy = \"single-local\"\n\n" ++
  "[cross_package]\n" ++
  "# Dependencies left out of the cross-package flow graph\n" ++
  "excluded = [\"util\"]\n\n" ++
  "# Utility libraries that are never treated as flow targets\n" ++
  "always_exclude = [\"jquery\", \"underscore\", \"lodash\"]\n"

end Config

end DomainFlow
