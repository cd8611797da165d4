import DomainFlow.Json.Reader
import DomainFlow.CommandLine.Arguments
import DomainFlow.Config.Load
import DomainFlow.Config.Printer
import DomainFlow.Report.Pretty

/-!
Running commands. A command reads files, and gives a report and a verdict: nothing was found, something
was found, or the command failed. Warnings and errors are notes that stand apart from the report.
-/
namespace DomainFlow

inductive CommandError where
  | readGraph (path : String) (fault : FileFault)
  | graphText (path : String)
  | graph (path : String) (error : GraphError)
  | readMetadata (path : String) (fault : FileFault)
  | metadataText (path : String)
  | analysis (path : String) (error : AnalysisError)
  | compare (error : DiffError)
  | config (error : ConfigError)
  | missingPath (path : String)
  | incomplete (count total : Nat)
  | configExists
  | write (fault : FileFault)
deriving DecidableEq, Repr

def CommandError.message : CommandError → String
  | .readGraph path fault => "Failed to read object graph '" ++ path ++ "': " ++ fault.message
  | .graphText path =>
    "Invalid object graph '" ++ path ++ "': Invalid object graph JSON: it is not an object graph"
  | .graph path error => "Invalid object graph '" ++ path ++ "': " ++ error.message
  | .readMetadata path fault => "Failed to read entry metadata '" ++ path ++ "': " ++ fault.message
  | .metadataText path => "Invalid entry metadata '" ++ path ++ "': it is not entry metadata"
  | .analysis path error => "Failed to analyze '" ++ path ++ "': " ++ error.message
  | .compare error => "Cannot compare relation maps: " ++ error.message
  | .config (.read path fault) => (ConfigError.read path fault).message ++ ": " ++ fault.message
  | .config error => error.message
  | .missingPath path => "Path does not exist: " ++ path
  | .incomplete count total => count.repr ++ " of " ++ total.repr ++ " version pairs could not be analyzed"
  | .configExists => "Config file '" ++ Config.fileName ++ "' already exists. Use --force to overwrite."
  | .write fault => fault.message

inductive Verdict where
  | clean
  | flagged
  | failed
deriving DecidableEq, Repr

def Verdict.status : Verdict → Nat
  | .clean => 0
  | .flagged => 1
  | .failed => 2

/-- What a command leaves behind: its verdict, its report, and notes. -/
structure Outcome where
  verdict : Verdict
  report : String
  notes : List String

/-- In which surroundings a command runs. -/
structure Surroundings where
  workingDirectory : String
  styled : Bool

namespace Command

variable {m : Type → Type} [Monad m] (files : FileAccess m) (surroundings : Surroundings)

def loadGraph (path : String) : ExceptT CommandError m ObjectGraph := do
  match ← files.read path with
  | .error fault => throw (.readGraph path fault)
  | .ok text =>
    match Document.read? text with
    | none => throw (.graphText path)
    | some document =>
      match ObjectGraph.ofDocument document with
      | .error error => throw (.graph path error)
      | .ok graph => return graph

/-- Loads metadata. Without a path nothing is known. -/
def loadMetadata : Option String → ExceptT CommandError m Metadata
  | none => return .empty
  | some path => do
    match ← files.read path with
    | .error fault => throw (.readMetadata path fault)
    | .ok text =>
      match (Json.read? text).bind Metadata.ofJson? with
      | none => throw (.metadataText path)
      | some metadata => return metadata

def analyze (options : AnalysisOptions) (path : String) (metadata : Option String) :
    ExceptT CommandError m VersionAnalysis := do
  let graph ← loadGraph files path
  let metadata ← loadMetadata files metadata
  match VersionAnalysis.run options graph metadata with
  | .error error => throw (.analysis path error)
  | .ok analysis => return analysis

def configDirectory (path : String) : m String := do
  if ← files.isDirectory path then return path
  else match Path.parent? path with
    | some parent => return if parent == "" then "." else parent
    | none => return "."

def loadConfig (path : String) : ExceptT CommandError m (Config × List String) := do
  let directory ← (configDirectory files path : m String)
  match ← (Config.loadNearest files directory : m _) with
  | .error error => throw (.config error)
  | .ok loaded => return loaded

/-- The options of an analysis. Arguments only switch options on. -/
def RelationsCommand.options (command : RelationsCommand) (config : Config) : AnalysisOptions where
  builtinsDirectory := command.builtinsDirectory <|> config.analysis.builtinsDirectory
  consolidate := config.analysis.consolidate || command.consolidate
  aggregateLocals := config.analysis.aggregateLocals || command.aggregateLocals

def runRelations (command : RelationsCommand) (config : Config) : ExceptT CommandError m (Verdict × String) := do
  let analysis ← analyze files (RelationsCommand.options command config) command.graph command.metadata
  let locations := if command.locations then some analysis.codeLocations else none
  let report := match command.format with
    | .json => JsonReport.relations ⟨surroundings.workingDirectory, command.graph⟩ (locations.getD [])
        analysis.relations
    | .pretty => PrettyReport.relations surroundings.styled locations analysis.relations
  return (.clean, report ++ "\n")

def runDiff (command : DiffCommand) (config : Config) : ExceptT CommandError m (Verdict × String) := do
  let policy := command.policy.getD config.policy
  let before ← analyze files config.analysis command.before command.beforeMetadata
  let after ← analyze files config.analysis command.after command.afterMetadata
  match RelationMap.diff policy before.relations after.relations with
  | .error error => throw (.compare error)
  | .ok flagged =>
    let report := match command.format with
      | .json => JsonReport.flagged
          ⟨surroundings.workingDirectory, command.before ++ " -> " ++ command.after⟩ policy flagged
      | .pretty => PrettyReport.flagged surroundings.styled policy flagged
    return (if flagged.isEmpty then .clean else .flagged, report ++ "\n")

/-- The files of version pairs: the file itself, or all below a directory in the order of their paths. -/
def pairFiles (path : String) : ExceptT CommandError m (List String) := do
  if !(← files.isPresent path) then throw (.missingPath path)
  else if ← files.isDirectory path then
    let found := (← files.visibleFiles path).filter fun file => Path.extension? file == some "json"
    return found.mergeSort fun first second => (Path.order first second).isLE
  else return [path]

def loadPair (path : String) : m (Option VersionPair) := do
  match ← files.read path with
  | .error _ => return none
  | .ok text => return (Json.read? text).bind VersionPair.ofJson?

/-- Reports what packages can newly reach, with the verdict and the error that stands beside the report,
if any. -/
def runCross (command : CrossCommand) (config : Config) :
    ExceptT CommandError m (Verdict × String × Option CommandError) := do
  let pairs ← (← pairFiles files command.path).mapM fun file => (loadPair files file : m _)
  if pairs.isEmpty then return (.clean, "No version-pair files found.\n", none)
  else
    let results := (pairs.filterMap id).map fun pair => (pair.packageName, pair.crossDiff? config.crossPackage)
    let sorted := results.mergeSort fun first second => (compare first.1 second.1).isLE
    let report := match command.format with
      | .json => JsonReport.cross ⟨surroundings.workingDirectory, command.path⟩ sorted ++ "\n"
      | .pretty => String.join (sorted.map fun result =>
          PrettyReport.cross surroundings.styled result.1 result.2 ++ "\n")
    let analyzed := sorted.filterMap Prod.snd
    let missing := pairs.length - analyzed.length
    if 0 < missing then return (.failed, report, some (.incomplete missing pairs.length))
    else return (if analyzed.all CrossDiff.isEmpty then .clean else .flagged, report, none)

def runInit (force : Bool) : ExceptT CommandError m (Verdict × String) := do
  let path := Path.join "." Config.fileName
  if !force && (← files.isPresent path) then throw .configExists
  match ← files.write path Config.template with
  | .error fault => throw (.write fault)
  | .ok () =>
    return (.clean, Style.apply surroundings.styled (.strong .green) "✓" ++ " Created " ++
      Style.apply surroundings.styled (.colored .cyan) Config.fileName ++ " configuration file\n")

def failure (report : String) (notes : List String) (error : CommandError) : Outcome :=
  ⟨.failed, report, notes ++ [PrettyReport.error surroundings.styled error.message]⟩

def withConfig (path : String)
    (run : Config → ExceptT CommandError m (Verdict × String × Option CommandError)) : m Outcome := do
  match ← (loadConfig files path).run with
  | .error error => return failure surroundings "" [] error
  | .ok (config, warnings) =>
    let notes := warnings.map (PrettyReport.warning surroundings.styled)
    match ← (run config).run with
    | .error error => return failure surroundings "" notes error
    | .ok (_, report, some error) => return failure surroundings report notes error
    | .ok (verdict, report, none) => return ⟨verdict, report, notes⟩

def run : Command → m Outcome
  | .relations command => withConfig files surroundings command.graph fun config => do
      let (verdict, report) ← runRelations files surroundings command config
      return (verdict, report, none)
  | .diff command => withConfig files surroundings command.after fun config => do
      let (verdict, report) ← runDiff files surroundings command config
      return (verdict, report, none)
  | .cross command => withConfig files surroundings command.path (runCross files surroundings command)
  | .init force => do
      match ← (runInit files surroundings force).run with
      | .error error => return failure surroundings "" [] error
      | .ok (verdict, report) => return ⟨verdict, report, []⟩

end Command

namespace Invocation

def defaultLogName : String := "trustflow.log"

variable {m : Type → Type} [Monad m] (files : FileAccess m)

def openLog (path : String) : m Unit :=
  files.provide ((Path.parent? path).getD ".") ((Path.fileName? path).getD defaultLogName)

/-- Runs the command that arguments give, or says why there is none. Styles are in use if they are
wanted and not switched off. -/
def run (workingDirectory : String) (wantsStyles : Bool) (arguments : List String) : m (Except Stop Outcome) := do
  match parse arguments with
  | .error stop => return .error stop
  | .ok invocation =>
    match invocation.logFile with
    | none => pure ()
    | some path => openLog files path
    return .ok (← invocation.command.run files ⟨workingDirectory, wantsStyles && !invocation.noColor⟩)

end Invocation

end DomainFlow
