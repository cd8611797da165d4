import DomainFlow.Text.Split

/-!
Paths of files and directories as texts. Two paths are compared by their components: repeated slashes
and the components that stand for the same directory do not count, except for the one at the very
start, and a parent component is not resolved. Cutting a path keeps the rest of its text as written.
-/
namespace DomainFlow

namespace Path

inductive Component where
  | root
  | current
  | parent
  | name (text : String)
deriving DecidableEq

namespace Component

def rank : Component → Nat
  | .root => 0
  | .current => 1
  | .parent => 2
  | .name _ => 3

def text : Component → String
  | .name text => text
  | _ => ""

instance : Ord Component :=
  ⟨fun first second => (compare first.rank second.rank).then (compare first.text second.text)⟩

end Component

/-- How a path starts: at the root, at the current directory by name, or with its first name. -/
inductive Lead where
  | root
  | current
  | none
deriving DecidableEq

/-- The start of a path and the texts between slashes that follow it. -/
structure Layout where
  lead : Lead
  body : List String

def layout (path : String) : Layout :=
  match Text.split '/' path with
  | "" :: next :: rest => ⟨.root, next :: rest⟩
  | "." :: rest => ⟨.current, rest⟩
  | parts => ⟨.none, parts⟩

def isSkipped (part : String) : Bool := part == "" || part == "."

def component? (part : String) : Option Component :=
  if isSkipped part then none
  else if part == ".." then some .parent
  else some (.name part)

def Lead.components : Lead → List Component
  | .root => [.root]
  | .current => [.current]
  | .none => []

def components (path : String) : List Component :=
  (layout path).lead.components ++ (layout path).body.filterMap component?

def isAbsolute (path : String) : Bool := (layout path).lead = .root

def isRelative (path : String) : Bool := !isAbsolute path

def startsWith (path base : String) : Bool := (components base).isPrefixOf (components path)

def withoutTail (parts : List String) : List String :=
  (parts.reverse.dropWhile isSkipped).reverse

/-- The text of a path, without skipped parts at its end. -/
def Layout.render (layout : Layout) : String :=
  let body := withoutTail layout.body
  match layout.lead with
  | .root => "/" ++ "/".intercalate body
  | .current => "/".intercalate ("." :: body)
  | .none => "/".intercalate body

def dropComponents : Nat → List String → List String
  | 0, parts => parts
  | _ + 1, [] => []
  | count + 1, part :: rest =>
    if isSkipped part then dropComponents (count + 1) rest else dropComponents count rest

def strip? (path base : String) : Option String :=
  if !startsWith path base then none
  else
    let whole := layout path
    match components base with
    | [] => some whole.render
    | first :: others =>
      let count := if whole.lead = .none then (first :: others).length else others.length
      let rest := (dropComponents count whole.body).dropWhile isSkipped
      some (Layout.render ⟨.none, rest⟩)

/-- The path without its last component. A path of nothing but the root has none. -/
def parent? (path : String) : Option String :=
  let whole := layout path
  let body := withoutTail whole.body
  if body.isEmpty then
    if whole.lead = .current then some "" else none
  else some (Layout.render ⟨whole.lead, body.dropLast⟩)

/-- The paths around a path whose parts, from the last one on, are given: without one component, without
two, and so on. -/
def around (lead : Lead) : List String → List String
  | [] => if lead = .current then [""] else []
  | part :: rest =>
    if isSkipped part then around lead rest else Layout.render ⟨lead, rest.reverse⟩ :: around lead rest

def ancestors (path : String) : List String :=
  path :: around (layout path).lead (layout path).body.reverse

def fileName? (path : String) : Option String :=
  match (components path).getLast? with
  | some (.name text) => some text
  | _ => none

/-- A file name cut at its last point, unless that is its first character. -/
def cutName (name : String) : String × Option String :=
  let reversed := name.toList.reverse
  let after := reversed.takeWhile (· != '.')
  match reversed.dropWhile (· != '.') with
  | [] => (name, none)
  | [_] => (name, none)
  | _ :: before => (String.ofList before.reverse, some (String.ofList after.reverse))

def stem? (path : String) : Option String := (fileName? path).map fun name => (cutName name).1

def extension? (path : String) : Option String := (fileName? path).bind fun name => (cutName name).2

def join (base path : String) : String :=
  if isAbsolute path then path
  else if base.isEmpty || base.toList.getLast? == some '/' then base ++ path
  else base ++ "/" ++ path

def order (first second : String) : Ordering := compare (components first) (components second)

end Path

end DomainFlow
