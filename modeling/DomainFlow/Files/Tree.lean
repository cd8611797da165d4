import DomainFlow.Files.Access
import DomainFlow.Path

/-!
File systems as values: directories and files by the names on the way from the root. Paths are resolved
name by name, as an operating system does it.
-/
namespace DomainFlow

inductive FileEntry where
  | directory
  | file (content : String)
deriving DecidableEq

/-- Directories and files by the names on the way from the root, and the directory in which relative
paths start. -/
structure FileTree where
  entries : List (List String × FileEntry)
  workingDirectory : List String

namespace FileTree

/-- What stands at a place. The root is a directory. -/
def entry? (tree : FileTree) (place : List String) : Option FileEntry :=
  if place.isEmpty then some .directory else tree.entries.lookup place

def greatestNameSize : Nat := 255

/-- The greatest number of bytes of a path, also of one that leads nowhere. -/
def greatestPathSize : Nat := 4095

/-- Follows the names of a path from a place. A name is looked at only once the place before it is known to
be a directory. -/
def follow (tree : FileTree) (place : List String) : List String → Except FileFault (List String)
  | [] => .ok place
  | name :: rest =>
    match tree.entry? place with
    | none => .error .notFound
    | some (.file _) => .error .notDirectory
    | some .directory =>
      if name == "" || name == "." then tree.follow place rest
      else if name == ".." then tree.follow place.dropLast rest
      else if greatestNameSize < name.utf8ByteSize then .error .nameTooLong
      else if (tree.entry? (place ++ [name])).isSome then tree.follow (place ++ [name]) rest
      else .error .notFound

def start (tree : FileTree) (path : String) : List String :=
  if Path.isAbsolute path then [] else tree.workingDirectory

def resolve (tree : FileTree) (path : String) : Except FileFault (List String) :=
  if path == "" then .error .notFound
  else if path.toList.contains '\x00' then .error .nulInPath
  else if greatestPathSize < path.utf8ByteSize then .error .nameTooLong
  else tree.follow (tree.start path) (Text.split '/' path)

def read (tree : FileTree) (path : String) : Except FileFault String := do
  match tree.entry? (← tree.resolve path) with
  | some (.file content) => .ok content
  | some .directory => .error .isDirectory
  | none => .error .notFound

def isPresent (tree : FileTree) (path : String) : Bool := (tree.resolve path).isOk

def isDirectory (tree : FileTree) (path : String) : Bool :=
  match tree.resolve path with
  | .ok place => tree.entry? place == some .directory
  | .error _ => false

/-- The files below the directory to which a path leads, as paths that start with it. What a directory
holds whose own path is too long is not seen. -/
def visibleFiles (tree : FileTree) (path : String) : List String :=
  match tree.resolve path with
  | .error _ => []
  | .ok place => tree.entries.filterMap fun (other, entry) =>
      let inner := other.drop place.length
      if entry != .directory && place.isPrefixOf other && !inner.isEmpty &&
          !(inner.any fun name => Text.startsWith name ".") &&
          (inner.dropLast.foldl Path.join path).utf8ByteSize ≤ greatestPathSize then
        some (inner.foldl Path.join path)
      else none

def put (tree : FileTree) (place : List String) (entry : FileEntry) : FileTree :=
  { tree with entries := (tree.entries.filter fun other => other.1 != place) ++ [(place, entry)] }

def addDirectory (tree : FileTree) (place : List String) : FileTree :=
  (List.range (place.length + 1)).foldl (fun tree count =>
    if (tree.entry? (place.take count)).isSome then tree else tree.put (place.take count) .directory) tree

def addFile (tree : FileTree) (place : List String) (content : String) : FileTree :=
  (tree.addDirectory place.dropLast).put place (.file content)

/-- The place of a file to write: it is there, or the directory for it is. -/
def target (tree : FileTree) (path : String) : Except FileFault (List String) :=
  match tree.resolve path with
  | .ok place => if tree.entry? place == some .directory then .error .isDirectory else .ok place
  | .error .notFound =>
    match Path.parent? path, Path.fileName? path with
    | some parent, some name =>
      (tree.resolve (if parent == "" then "." else parent)).map fun place => place ++ [name]
    | _, _ => .error .notFound
  | .error fault => .error fault

def write (tree : FileTree) (path content : String) : Except FileFault FileTree :=
  (tree.target path).map fun place => tree.put place (.file content)

/-- Follows the names of a path from a place and makes every directory on the way that is missing, also
those that the path leaves again. It gives the place to which the path then leads. -/
def makeWay (tree : FileTree) (place : List String) : List String → FileTree × List String
  | [] => (tree, place)
  | name :: rest =>
    if name == "" || name == "." then tree.makeWay place rest
    else if name == ".." then tree.makeWay place.dropLast rest
    else (tree.addDirectory (place ++ [name])).makeWay (place ++ [name]) rest

/-- Makes an empty file in a directory, and the directory, unless they are there. -/
def provide (tree : FileTree) (directory name : String) : FileTree :=
  if tree.isPresent (Path.join directory name) then tree
  else
    let (made, place) := tree.makeWay (tree.start directory) (Text.split '/' directory)
    if (made.entry? (place ++ [name])).isSome then made else made.put (place ++ [name]) (.file "")

def access : FileAccess (StateM FileTree) where
  read path := do return (← get).read path
  isPresent path := do return (← get).isPresent path
  isDirectory path := do return (← get).isDirectory path
  visibleFiles path := do return (← get).visibleFiles path
  write path content := do
    match (← get).write path content with
    | .ok tree =>
      set tree
      return .ok ()
    | .error fault => return .error fault
  provide directory name := modify fun tree => tree.provide directory name

end FileTree

end DomainFlow
