import DomainFlow.CommandLine.Run

/-!
The program on a disk: it reads the arguments and the environment, runs the command, and prints what the
command leaves behind.
-/
namespace DomainFlow

namespace Disk

/-- The codes of names that are too long. Some operations give the code of the system negated. -/
def nameTooLongCodes : List UInt32 := [36, -36]

def fault : IO.Error → FileFault
  | .noFileOrDirectory .. => .notFound
  | .inappropriateType .. => .notDirectory
  | .invalidArgument file code details =>
    if nameTooLongCodes.contains code then .nameTooLong
    else .other (toString (IO.Error.invalidArgument file code details))
  | error => .other (toString error)

def isDirectory (path : String) : IO Bool := do
  try return ← (← IO.FS.realPath path).isDir catch _ => return false

def read (path : String) : IO (Except FileFault String) := do
  if ← isDirectory path then return .error .isDirectory
  else try return .ok (← IO.FS.readFile path) catch error => return .error (fault error)

def isPresent (path : String) : IO Bool := do
  try return ← (← IO.FS.realPath path).pathExists catch _ => return false

/-- The files below a directory whose names do not start with a dot. A directory that cannot be opened
shows none. -/
partial def visibleFiles (path : String) : IO (List String) := do
  let entries ← try (← IO.FS.realPath path).readDir catch _ => pure #[]
  let mut files : List String := []
  for entry in entries do
    if !Text.startsWith entry.fileName "." then
      let inner := Path.join path entry.fileName
      if ← isDirectory inner then files := files ++ (← visibleFiles inner)
      else files := files ++ [inner]
  return files

def write (path content : String) : IO (Except FileFault Unit) := do
  if ← isDirectory path then return .error .isDirectory
  else try return .ok (← IO.FS.writeFile path content) catch error => return .error (fault error)

def provide (directory name : String) : IO Unit := do
  if directory != "" then IO.FS.createDirAll directory
  discard (IO.FS.Handle.mk (Path.join directory name) .append)

def access : FileAccess IO := ⟨read, isPresent, isDirectory, visibleFiles, write, provide⟩

def switch? (name : String) : IO (Option Bool) := do
  return (← IO.getEnv name).map fun value => value != "0"

/-- Whether styles are wanted: the environment asks for them, or does not forbid them and the output is a
terminal. -/
def wantsStyles : IO Bool := do
  if (← IO.getEnv "NO_COLOR").isSome then return false
  else if (← switch? "CLICOLOR_FORCE") == some true then return true
  else return (← switch? "CLICOLOR").getD true && (← (← IO.getStdout).isTty)

end Disk

def usage : String :=
  "Usage: trustflow [OPTIONS] <COMMAND>\n\n" ++
  "Commands:\n" ++
  "  relations <GRAPH>        Compute the trust-domain relation map of one package version\n" ++
  "  diff <BEFORE> <AFTER>    Flag relations that a package update newly introduces\n" ++
  "  cross <PATH>             Report flows newly reachable across a package's dependencies\n" ++
  "  init                     Initialize Trustflow configuration in current directory\n\n" ++
  "Options:\n" ++
  "      --log-level <LEVEL>  Set the log level (trace, debug, info, warn, error)\n" ++
  "      --log-file <FILE>    Write logs to the specified file\n" ++
  "      --log-json           Output logs in JSON format\n" ++
  "      --no-color           Disable colored output\n" ++
  "  -h, --help               Print help\n" ++
  "  -V, --version            Print version\n"

def runMain (arguments : List String) : IO UInt32 := do
  let directory := (← IO.currentDir).toString
  match ← Invocation.run Disk.access directory (← Disk.wantsStyles) arguments with
  | .error .usage =>
    IO.eprint usage
    return 2
  | .error .help =>
    IO.print usage
    return 0
  | .error .version =>
    IO.println ("trustflow " ++ JsonReport.programVersion)
    return 0
  | .ok outcome =>
    IO.print outcome.report
    for note in outcome.notes do IO.eprintln note
    return outcome.verdict.status.toUInt32

end DomainFlow

def main (arguments : List String) : IO UInt32 := DomainFlow.runMain arguments
