import DomainFlow.CommandLine.Option
import DomainFlow.Relation.Diff

/-!
The commands of the program and their arguments.
-/
namespace DomainFlow

inductive OutputFormat where
  | pretty
  | json
deriving DecidableEq, Repr

structure RelationsCommand where
  graph : String
  metadata : Option String
  builtinsDirectory : Option String
  consolidate : Bool
  aggregateLocals : Bool
  locations : Bool
  format : OutputFormat

structure DiffCommand where
  before : String
  after : String
  beforeMetadata : Option String
  afterMetadata : Option String
  policy : Option DiffPolicy
  format : OutputFormat

structure CrossCommand where
  path : String
  format : OutputFormat

inductive Command where
  | relations (command : RelationsCommand)
  | diff (command : DiffCommand)
  | cross (command : CrossCommand)
  | init (force : Bool)

structure Invocation where
  command : Command
  logFile : Option String
  noColor : Bool

namespace Invocation

def isPath (value : String) : Bool := !value.isEmpty

def logLevels : List String := ["trace", "debug", "info", "warn", "error"]

def formats : List String := ["pretty", "json"]

def sharedOptions : List OptionSpec := [
  { long := "log-level", accepts := some fun value => logLevels.contains value },
  { long := "log-file", accepts := some isPath },
  { long := "log-json" },
  { long := "no-color" }]

def formatOption : OptionSpec :=
  { long := "format", short := some 'f', accepts := some fun value => formats.contains value }

def pathOption (long : String) : OptionSpec := { long := long, accepts := some isPath }

def topGrammar : Grammar := { options := sharedOptions, hasVersion := true, words := none }

def relationsGrammar : Grammar where
  options := sharedOptions ++ [pathOption "metadata", pathOption "builtins-dir", { long := "consolidate" },
    { long := "aggregate-locals" }, { long := "locations" }, formatOption]
  words := some 1

def diffGrammar : Grammar where
  options := sharedOptions ++ [pathOption "before-metadata", pathOption "after-metadata",
    { long := "policy", accepts := some fun value => (DiffPolicy.ofName? value).isSome }, formatOption]
  words := some 2

def crossGrammar : Grammar where
  options := sharedOptions ++ [formatOption]
  words := some 1

def initGrammar : Grammar where
  options := sharedOptions ++ [{ long := "force", short := some 'f' }]
  words := some 0

def format (given : Given) : OutputFormat := if given.value? "format" == some "json" then .json else .pretty

def relations? (given : Given) : Option Command :=
  match given.words with
  | [graph] => some (.relations ⟨graph, given.value? "metadata", given.value? "builtins-dir",
      given.has "consolidate", given.has "aggregate-locals", given.has "locations", format given⟩)
  | _ => none

def diff? (given : Given) : Option Command :=
  match given.words with
  | [before, after] => some (.diff ⟨before, after, given.value? "before-metadata",
      given.value? "after-metadata", (given.value? "policy").bind DiffPolicy.ofName?, format given⟩)
  | _ => none

def cross? (given : Given) : Option Command :=
  match given.words with
  | [path] => some (.cross ⟨path, format given⟩)
  | _ => none

def init? (given : Given) : Option Command := some (.init (given.has "force"))

def commandNamed? : String → Option (Grammar × (Given → Option Command))
  | "relations" => some (relationsGrammar, relations?)
  | "diff" => some (diffGrammar, diff?)
  | "cross" => some (crossGrammar, cross?)
  | "init" => some (initGrammar, init?)
  | _ => none

/-- Whether there is help on what follows the word that asks for it: nothing, or the name of one
command. -/
def hasHelp : List String → Bool
  | [] => true
  | [name] => name == "help" || (commandNamed? name).isSome
  | _ => false

/-- The invocation that arguments give. Options for all commands can stand before and behind the name of
the command; the latter win. -/
def parse (arguments : List String) : Except Stop Invocation := do
  let (top, rest) ← topGrammar.scan {} none arguments
  match rest with
  | [] => .error .usage
  | name :: rest =>
    if name == "help" then .error (if hasHelp rest then .help else .usage)
    else match commandNamed? name with
      | none => .error .usage
      | some (grammar, command?) => do
        let (given, _) ← grammar.scan {} none rest
        match command? given with
        | none => .error .usage
        | some command =>
          return ⟨command, given.value? "log-file" <|> top.value? "log-file",
            given.has "no-color" || top.has "no-color"⟩

end Invocation

end DomainFlow
