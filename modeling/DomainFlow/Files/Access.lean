/-!
Access to files. The operations run in any monad, so that the same program runs on a disk and on a file
system that is a value.
-/
namespace DomainFlow

inductive FileFault where
  | notFound
  | isDirectory
  | notDirectory
  | nameTooLong
  | nulInPath
  | other (message : String)
deriving DecidableEq, Repr

def FileFault.message : FileFault → String
  | .notFound => "No such file or directory (os error 2)"
  | .isDirectory => "Is a directory (os error 21)"
  | .notDirectory => "Not a directory (os error 20)"
  | .nameTooLong => "File name too long (os error 36)"
  | .nulInPath => "file name contained an unexpected NUL byte"
  | .other message => message

/-- What a program can do with files, which it names by their paths. -/
structure FileAccess (m : Type → Type) where
  read : String → m (Except FileFault String)
  isPresent : String → m Bool
  isDirectory : String → m Bool
  /-- The paths of all files below a directory whose names, from there on, do not start with a dot. -/
  visibleFiles : String → m (List String)
  write : String → String → m (Except FileFault Unit)
  /-- Makes a file without content, and the directory of the given path for it, unless they are there. -/
  provide : String → String → m Unit

end DomainFlow
