import DomainFlow.Report.Json
import DomainFlow.Report.Style

/-!
Reports for people, as styled text.
-/
namespace DomainFlow

namespace PrettyReport

def shownWitnesses : Nat := 3

def arrow (styled : Bool) : String := Style.apply styled (.colored .blue) "->"

def relation (styled : Bool) (relation : Relation) : String :=
  Style.apply styled (.colored .yellow) relation.source ++ " " ++ arrow styled ++ " " ++
    Style.apply styled (.colored .yellow) relation.target

def trace? (locations : Locations) (witness : Witness) : Option String := do
  let first ← witness.path.head?
  let last ← witness.path.getLast?
  let start ← locations.lookup first
  match locations.lookup last with
  | some finish => return if last = first then start else start ++ " => " ++ finish
  | none => return start

def relationLines (styled : Bool) (locations : Option Locations) (new : Relation) (witnesses : List Witness) :
    List String :=
  let count := Style.apply styled .dim ("(" ++ witnesses.length.repr ++ " witnesses)")
  let traces := match locations with
    | none => []
    | some locations => (witnesses.take shownWitnesses).filterMap (trace? locations)
  ("  " ++ relation styled new ++ " " ++ count) ::
    traces.map fun trace => "      " ++ Style.apply styled (.colored .blue) "-->" ++ " " ++ trace

def relations (styled : Bool) (locations : Option Locations) (map : RelationMap) : String :=
  let lines := map.relations.entries.flatMap fun entry =>
    relationLines styled locations entry.1 entry.2.toList
  let summary := match map.size with
    | 0 => Style.apply styled (.colored .green) "No relations found"
    | 1 => Style.apply styled .bold "1 relation"
    | count => Style.apply styled .bold (count.repr ++ " relations")
  "\n".intercalate (lines ++ (if lines.isEmpty then [] else [""]) ++ [summary])

def flagged (styled : Bool) (policy : DiffPolicy) (flagged : RelationSet) : String :=
  let name := Style.apply styled (.colored .cyan) policy.label
  if flagged.isEmpty then
    Style.apply styled (.strong .green) "✓" ++ " No new relations (" ++ name ++ " policy)"
  else
    let count := Style.apply styled (.strong .red) flagged.size.repr
    let ending := if flagged.size = 1 then "" else "s"
    "\n".intercalate ((Style.apply styled (.strong .red) "✗" ++ " " ++ count ++ " new relation" ++ ending ++
        " flagged by the " ++ name ++ " policy") ::
      flagged.toList.map fun new => "  " ++ Style.apply styled (.strong .red) "+" ++ " " ++ relation styled new)

def warning (styled : Bool) (text : String) : String :=
  Style.apply styled (.strong .yellow) "warning:" ++ " " ++ text

def error (styled : Bool) (text : String) : String :=
  Style.apply styled (.strong .red) "error:" ++ " " ++ text

def reachedLines (styled : Bool) (source : String) (names : SortedSet String) : List String :=
  names.toList.map fun name => "  " ++ Style.apply styled .dim source ++ " " ++ arrow styled ++ " " ++
    Style.apply styled (.colored .red) name

def cross (styled : Bool) (package : String) : Option CrossDiff → String
  | none => warning styled (package ++ ": package missing from analysis result")
  | some diff =>
    if diff.isEmpty then
      Style.apply styled (.strong .green) "✓" ++ " " ++ package ++ ": no new reachable nodes"
    else "\n".intercalate ((Style.apply styled (.strong .red) "✗" ++ " " ++ Style.apply styled .bold package) ::
      (reachedLines styled "static data" diff.staticData ++
        reachedLines styled "caller input" diff.callerInput))

end PrettyReport

end DomainFlow
