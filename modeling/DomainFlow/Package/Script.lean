import DomainFlow.Text.Word
import DomainFlow.Text.Blank

/-!
Scripts that run when a package is installed, and the file that a script runs if it does nothing else.
-/
namespace DomainFlow

/-- The commands that run before, during and after the installation of a package. -/
structure LifecycleScripts where
  preinstall : Option String
  install : Option String
  postinstall : Option String
deriving DecidableEq

namespace LifecycleScripts

def empty : LifecycleScripts := ⟨none, none, none⟩

def toList (scripts : LifecycleScripts) : List (String × String) :=
  [("preinstall", scripts.preinstall), ("install", scripts.install),
    ("postinstall", scripts.postinstall)].filterMap fun (name, script) => script.map fun command => (name, command)

theorem mem_toList {scripts : LifecycleScripts} {name command : String} : (name, command) ∈ scripts.toList ↔
    name = "preinstall" ∧ scripts.preinstall = some command ∨ name = "install" ∧ scripts.install = some command ∨
      name = "postinstall" ∧ scripts.postinstall = some command := by
  obtain ⟨preinstall, install, postinstall⟩ := scripts
  cases preinstall <;> cases install <;> cases postinstall <;> simp [toList, eq_comm]

def isEmpty (scripts : LifecycleScripts) : Bool := scripts.toList.isEmpty

end LifecycleScripts

namespace Script

/-- What is left after the name of the interpreter and the white space that follows it. -/
def withoutInterpreter (command : List Char) : List Char :=
  match command with
  | 'n' :: 'o' :: 'd' :: 'e' :: char :: rest =>
    if Text.isBlank char then rest.dropWhile Text.isBlank else command
  | _ => command

def withoutCurrentDirectory : List Char → List Char
  | '.' :: '/' :: rest => rest
  | path => path

def fileEnding : List Char := ".js".toList

def isFileChar (char : Char) : Bool := Text.isWord char || char == '-' || char == '/'

def isFile (path : List Char) : Bool :=
  let body := path.take (path.length - fileEnding.length)
  fileEnding.isSuffixOf path && !body.isEmpty && body.all isFileChar

/-- The file that a command runs, if it runs one and does nothing else. -/
def entryFile? (command : String) : Option String :=
  let path := withoutCurrentDirectory (withoutInterpreter (Text.trim command.toList))
  if isFile path then some (String.ofList path) else none

def withoutCurrentDirectories : List Char → List Char
  | '.' :: '/' :: rest => withoutCurrentDirectories rest
  | path => path

end Script

end DomainFlow
