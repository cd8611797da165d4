import DomainFlow.Toml.Basic

/-!
Putting the statements of a TOML document together. A table is closed once it was written under its own
header or between braces: other headers may add tables to one that has a header, and dotted keys may
only add to what dotted keys and headers of other tables have made.
-/
namespace DomainFlow

namespace Toml

/-- A statement of a document. The last part of a dotted key stands apart. -/
inductive Statement where
  | assign (path : List String) (key : String) (value : Toml)
  | header (path : List String) (key : String)
  | arrayHeader (path : List String) (key : String)

def replace (key : String) (value : Toml) (entries : TomlTable) : TomlTable :=
  entries.map fun entry => if entry.1 == key then (key, value) else entry

def changeLast (change : TomlTable → Option TomlTable) (elements : List TomlTable) : Option (List TomlTable) :=
  match elements.reverse with
  | [] => none
  | last :: earlier => (change last).map fun changed => (changed :: earlier).reverse

/-- Changes the entries of the table to which a path of headers leads, and makes the tables on the way
that are missing. A dotted path makes dotted tables, and does not lead into tables with a header. -/
def changeAt (isDotted : Bool) (change : TableForm → TomlTable → Option TomlTable) :
    List String → TableForm → TomlTable → Option TomlTable
  | [], form, entries => change form entries
  | key :: path, _, entries =>
    match entries.lookup key with
    | none =>
      let form := if isDotted then .dotted else .implied
      (changeAt isDotted change path form []).map fun inner => entries ++ [(key, .table form inner)]
    | some (.table form inner) =>
      if form = .inline ∨ (isDotted ∧ form = .header) then none
      else (changeAt isDotted change path form inner).map fun changed =>
        replace key (.table form changed) entries
    | some (.tables elements) =>
      (changeLast (changeAt isDotted change path .header) elements).map fun changed =>
        replace key (.tables changed) entries
    | some _ => none

/-- Adds a value under a new key. Only a dotted path may end in a dotted table, and it must. -/
def addValue (isDottedPath : Bool) (key : String) (value : Toml) (form : TableForm) (entries : TomlTable) :
    Option TomlTable :=
  if decide (form = .dotted) != isDottedPath || (entries.lookup key).isSome then none
  else some (entries ++ [(key, value)])

def assign (path : List String) (key : String) (value : Toml) (entries : TomlTable) : Option TomlTable :=
  changeAt true (addValue (!path.isEmpty) key value) path .header entries

/-- Assigns a value within a table between braces. Tables that dotted keys make there are dotted until the
closing brace. -/
def assignInline (entries : TomlTable) (path : List String) (key : String) (value : Toml) : Option TomlTable :=
  assign path key value entries

mutual

/-- A value as it is seen from outside of braces: all tables in it are closed. -/
def close : Toml → Toml
  | .table _ entries => .table .inline (closeEntries entries)
  | value => value

def closeEntries : List (String × Toml) → List (String × Toml)
  | [] => []
  | (key, value) :: rest => (key, close value) :: closeEntries rest

end

/-- A document of which some statements were read: the tables before the last header, where the table of
the last header goes, and its entries so far. -/
structure Draft where
  root : TomlTable
  place : Option (List String × String × Bool)
  entries : TomlTable

namespace Draft

def empty : Draft := ⟨[], none, []⟩

/-- Puts the table of the last header in its place, at the end of the table that holds it. -/
def finish (draft : Draft) : Option TomlTable :=
  match draft.place with
  | none => some draft.entries
  | some (path, key, isElement) =>
    changeAt false (fun _ entries =>
      match entries.lookup key with
      | none =>
        if isElement then some (entries ++ [(key, .tables [draft.entries])])
        else some (entries ++ [(key, .table .header draft.entries)])
      | some (.tables elements) =>
        if isElement then some (replace key (.tables (elements ++ [draft.entries])) entries) else none
      | some _ => none) path .header draft.root

/-- The entries that a table with a header starts with, and the tables around it without them. A header
may give a table that was only implied so far. -/
def openTable (key : String) (entries : TomlTable) : Option (TomlTable × TomlTable) :=
  match entries.lookup key with
  | none => some ([], entries)
  | some (.table .implied inner) => some (inner, entries.filter fun entry => entry.1 != key)
  | some _ => none

def entriesAt : List String → TomlTable → Option TomlTable
  | [], entries => some entries
  | key :: path, entries =>
    match entries.lookup key with
    | some (.table _ inner) => entriesAt path inner
    | some (.tables elements) => elements.getLast?.bind (entriesAt path)
    | _ => none

def startTable (draft : Draft) (path : List String) (key : String) : Option Draft := do
  let root ← draft.finish
  let kept := ((entriesAt path root).bind (openTable key)).map Prod.fst
  let root ← changeAt false (fun _ entries => (openTable key entries).map Prod.snd) path .header root
  return ⟨root, some (path, key, false), kept.getD []⟩

def startElement (draft : Draft) (path : List String) (key : String) : Option Draft := do
  let root ← draft.finish
  let root ← changeAt false (fun _ entries =>
    match entries.lookup key with
    | none => some entries
    | some (.tables _) => some entries
    | some _ => none) path .header root
  return ⟨root, some (path, key, true), []⟩

def add (draft : Draft) : Statement → Option Draft
  | .assign path key value => (assign path key value draft.entries).map fun entries =>
      { draft with entries := entries }
  | .header path key => draft.startTable path key
  | .arrayHeader path key => draft.startElement path key

end Draft

def assemble? (statements : List Statement) : Option TomlTable :=
  (statements.foldlM Draft.add .empty).bind Draft.finish

end Toml

end DomainFlow
