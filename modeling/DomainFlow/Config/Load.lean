import DomainFlow.Config.Decode
import DomainFlow.Files.Access
import DomainFlow.Path

/-!
Finding and loading configuration files. A file is looked for in a directory and then in the directories
around it, as far as the path names them.
-/
namespace DomainFlow

inductive ConfigError where
  | read (path : String) (fault : FileFault)
  | parse (path : String)
deriving DecidableEq, Repr

def ConfigError.message : ConfigError → String
  | .read path fault => "Failed to read config file '" ++ path ++ "': " ++ fault.message
  | .parse path => "Invalid TOML in '" ++ path ++ "': it is not a configuration"

namespace Config

/-- The configuration files for a directory, from the inside out. -/
def candidates (directory : String) : List String :=
  (Path.ancestors directory).map fun around => Path.join around fileName

variable {m : Type → Type} [Monad m] (files : FileAccess m)

def find? (directory : String) : m (Option String) := (candidates directory).findM? files.isPresent

def load (path : String) : m (Except ConfigError (Config × List String)) := do
  match ← files.read path with
  | .error fault => return .error (.read path fault)
  | .ok text =>
    match read? text with
    | none => return .error (.parse path)
    | some loaded => return .ok loaded

/-- Loads the nearest configuration file for a directory. If there is none, the standard configuration
holds. -/
def loadNearest (directory : String) : m (Except ConfigError (Config × List String)) := do
  match ← find? files directory with
  | none => return .ok (standard, [])
  | some path => load files path

end Config

end DomainFlow
