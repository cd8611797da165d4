import DomainFlow.Config.Load
import DomainFlow.Files.Tree
import DomainFlow.Proofs.PathAncestors
import Mathlib.Data.List.Induction

/-!
The search for a configuration file. Of the directories on the way to a path, those are looked at that a path around it
leads to, and of these the nearest one with such a file is found. A relative path does not lead above the directory it
starts in, and a path may be too long to be followed.
-/
namespace DomainFlow

namespace Path
variable {path : String} {char : Char}

theorem exists_part_of_mem {text : List Char} (member : char ∈ text) (between : char ≠ '/') :
    ∃ part ∈ Text.splitAt '/' text, char ∈ part := by
  induction text with
  | nil => cases member
  | cons first rest ih =>
    obtain ⟨next, others, cut⟩ := List.exists_cons_of_ne_nil (Text.splitAt_ne_nil '/' rest)
    rw [Text.splitAt]
    rcases List.mem_cons.1 member with same | later
    · rw [if_neg (same ▸ between), cut, same]
      exact ⟨first :: next, List.mem_cons_self, List.mem_cons_self⟩
    · obtain ⟨part, isPart, inside⟩ := ih later
      split
      · exact ⟨part, List.mem_cons_of_mem _ isPart, inside⟩
      · rw [cut] at isPart ⊢
        rcases List.mem_cons.1 isPart with rfl | other
        · exact ⟨first :: part, List.mem_cons_self, List.mem_cons_of_mem _ inside⟩
        · exact ⟨part, List.mem_cons_of_mem _ other, inside⟩

/-- Between names there are slashes and points. -/
theorem exists_name_of_mem (member : char ∈ path.toList) (slash : char ≠ '/') (point : char ≠ '.') :
    ∃ name ∈ names path, char ∈ name.toList := by
  obtain ⟨part, isPart, inside⟩ := exists_part_of_mem member slash
  have chars : char ∈ (String.ofList part).toList := by rwa [String.toList_ofList]
  refine ⟨String.ofList part, List.mem_filter.2 ⟨List.mem_map_of_mem isPart, ?_⟩, chars⟩
  rw [Bool.not_eq_true', Bool.eq_false_iff]
  intro skipped
  rcases Bool.or_eq_true_iff.1 skipped with empty | dot
  · rw [eq_of_beq empty] at chars
    cases chars
  · rw [eq_of_beq dot] at chars
    exact point (List.mem_singleton.1 chars)

end Path

namespace FileTree
variable {tree : FileTree} {place more found : List String} {name path : String}

/-- Everything stands in a directory and has a name that can be given. -/
def WellFormed (tree : FileTree) : Prop :=
  ∀ entry ∈ tree.entries, tree.entry? entry.1.dropLast = some .directory ∧
    ∀ name ∈ entry.1, name.utf8ByteSize ≤ greatestNameSize ∧ '\x00' ∉ name.toList

instance (tree : FileTree) : Decidable tree.WellFormed :=
  inferInstanceAs (Decidable (∀ entry ∈ tree.entries, _))

section Follow

theorem mem_of_isSome_entry? (present : (tree.entry? place).isSome) (inner : place ≠ []) :
    ∃ entry, (place, entry) ∈ tree.entries := by
  unfold entry? at present
  rw [if_neg (by simpa using inner)] at present
  obtain ⟨entry, found⟩ := Option.isSome_iff_exists.1 present
  obtain ⟨before, after, whole, -⟩ := List.lookup_eq_some_iff.1 found
  exact ⟨entry, by simp [whole]⟩

theorem follow_skipped {part : String} (parts : List String) (skipped : Path.isSkipped part = true)
    (around : tree.entry? place = some .directory) : tree.follow place (part :: parts) = tree.follow place parts := by
  rw [follow, around]
  exact if_pos skipped

/-- A path without a way back leads to the place that it names, if it leads anywhere. -/
theorem place_of_follow (parts : List String) (down : ".." ∉ Path.named parts)
    (followed : tree.follow place parts = .ok found) :
    found = place ++ Path.named parts ∧ (Path.named parts ≠ [] → (tree.entry? found).isSome) := by
  induction parts generalizing place with
  | nil =>
    obtain rfl : place = found := Except.ok.inj followed
    exact ⟨(List.append_nil _).symm, absurd rfl⟩
  | cons part rest ih =>
    rw [follow] at followed
    split at followed
    · cases followed
    · cases followed
    · next around =>
      by_cases skipped : Path.isSkipped part = true
      · rw [Path.named_cons_of_isSkipped skipped] at down ⊢
        exact ih down ((if_pos skipped).symm.trans followed)
      · rw [Path.named_cons skipped] at down ⊢
        rw [List.mem_cons, not_or] at down
        replace followed := (if_neg skipped).symm.trans followed
        rw [if_neg (by simpa using Ne.symm down.1)] at followed
        split_ifs at followed with long present
        obtain ⟨whole, there⟩ := ih down.2 followed
        refine ⟨by rw [whole, List.append_assoc]; rfl, fun _ => ?_⟩
        by_cases ends : Path.named rest = []
        · rwa [whole, ends, List.append_nil]
        · exact there ends

variable (rules : tree.WellFormed)
include rules

theorem name_rules (present : (tree.entry? place).isSome) (member : name ∈ place) :
    name.utf8ByteSize ≤ greatestNameSize ∧ '\x00' ∉ name.toList := by
  obtain ⟨entry, stands⟩ := mem_of_isSome_entry? present (List.ne_nil_of_mem member)
  exact (rules _ stands).2 name member

/-- What something stands in is a directory. -/
theorem entry?_around (present : (tree.entry? (place ++ more)).isSome) (inner : more ≠ []) :
    tree.entry? place = some .directory := by
  induction more using List.reverseRecOn with
  | nil => exact absurd rfl inner
  | append_singleton others last ih =>
    rw [← List.append_assoc] at present
    obtain ⟨entry, stands⟩ := mem_of_isSome_entry? present (by simp)
    have around := (rules _ stands).1
    rw [List.dropLast_concat] at around
    by_cases direct : others = []
    · rwa [direct, List.append_nil] at around
    · exact ih (by rw [around]; rfl) direct

theorem follow_name (parts : List String) (counts : ¬Path.isSkipped name = true) (down : name ≠ "..")
    (present : (tree.entry? (place ++ [name])).isSome) :
    tree.follow place (name :: parts) = tree.follow (place ++ [name]) parts := by
  have short := (name_rules rules present (List.mem_append_right _ List.mem_cons_self)).1
  rw [follow, entry?_around rules present (List.cons_ne_nil _ _)]
  refine (if_neg counts).trans ?_
  rw [if_neg (by simpa using down), if_neg (Nat.not_lt.2 short), if_pos present]

/-- A file is found at the end of every path that names its place. -/
theorem follow_of_present (parts : List String) (down : ".." ∉ Path.named parts) (counts : ¬Path.isSkipped name = true)
    (proper : name ≠ "..") (present : (tree.entry? (place ++ (Path.named parts ++ [name]))).isSome) :
    tree.follow place (parts ++ [name]) = .ok (place ++ (Path.named parts ++ [name])) := by
  induction parts generalizing place with
  | nil => exact follow_name rules [] counts proper present
  | cons part rest ih =>
    have around := entry?_around rules present (by simp)
    by_cases skipped : Path.isSkipped part = true
    · rw [Path.named_cons_of_isSkipped skipped] at down present ⊢
      rw [List.cons_append, follow_skipped _ skipped around]
      exact ih down present
    · rw [Path.named_cons skipped, List.mem_cons, not_or] at down
      have whole : place ++ (part :: Path.named rest ++ [name]) = place ++ [part] ++ (Path.named rest ++ [name]) := by simp
      rw [Path.named_cons skipped, whole] at present ⊢
      have inside := entry?_around rules present (by simp)
      rw [List.cons_append, follow_name rules _ skipped (Ne.symm down.1) (by rw [inside]; rfl)]
      exact ih down.2 present

end Follow

def placeOf (tree : FileTree) (path : String) : List String := tree.start path ++ Path.names path

section Resolve
variable (down : ".." ∉ Path.names path)
include down

theorem placeOf_of_resolve (resolved : tree.resolve path = .ok found) :
    path.utf8ByteSize ≤ greatestPathSize ∧ found = tree.placeOf path ∧
      (Path.names path ≠ [] → (tree.entry? found).isSome) := by
  rw [resolve] at resolved
  split_ifs at resolved with empty nul long
  exact ⟨Nat.not_lt.1 long, place_of_follow _ down resolved⟩

theorem resolve_of_present (rules : tree.WellFormed) {parts : List String} (cut : Text.split '/' path = parts ++ [name])
    (counts : ¬Path.isSkipped name = true) (fits : path.utf8ByteSize ≤ greatestPathSize)
    (present : (tree.entry? (tree.placeOf path)).isSome) : tree.resolve path = .ok (tree.placeOf path) := by
  have all : Path.names path = Path.named parts ++ [name] := by
    rw [Path.names, cut, Path.named, List.filter_append]
    exact congrArg (Path.named parts ++ ·) (Path.named_cons counts)
  have notEmpty : ¬(path == "") = true := by
    intro empty
    rw [eq_of_beq empty] at all
    exact List.append_ne_nil_of_right_ne_nil _ (List.cons_ne_nil _ _) all.symm
  have noNul : ¬path.toList.contains '\x00' = true := by
    rw [List.contains_iff_mem]
    intro nul
    obtain ⟨part, member, inside⟩ := Path.exists_name_of_mem nul (by decide) (by decide)
    exact (name_rules rules present (List.mem_append_right _ member)).2 inside
  rw [resolve, if_neg notEmpty, if_neg noNul, if_neg (Nat.not_lt.2 fits), cut]
  rw [placeOf, all] at present ⊢
  rw [all, List.mem_append, not_or, List.mem_singleton] at down
  exact follow_of_present rules parts down.1 counts (Ne.symm down.2) present

end Resolve

/-- Whether a place has a configuration file in it. -/
def HoldsConfig (tree : FileTree) (place : List String) : Prop := (tree.entry? (place ++ [Config.fileName])).isSome

instance (tree : FileTree) (place : List String) : Decidable (tree.HoldsConfig place) :=
  inferInstanceAs (Decidable (_ = true))

/-- Whether a search from a directory looks at a place: a path around the directory names it and is short enough. -/
def Reaches (tree : FileTree) (directory : String) (other : List String) : Prop :=
  ∃ path ∈ Path.ancestors directory, tree.placeOf path = other ∧
    (Path.join path Config.fileName).utf8ByteSize ≤ greatestPathSize

/-- The path leads to the configuration file of the innermost of some places, and there is no path if they have none. -/
def IsNearest (tree : FileTree) (among : List String → Prop) : Option String → Prop
  | none => ∀ other, among other → ¬tree.HoldsConfig other
  | some path => ∃ nearest, among nearest ∧ tree.HoldsConfig nearest ∧
      tree.resolve path = .ok (nearest ++ [Config.fileName]) ∧
      ∀ other, among other → tree.HoldsConfig other → other <+: nearest

/-- The nearest of some places is also the nearest of more of them just if one of the former is at least as near as each. -/
theorem isNearest_iff {some more : List String → Prop} {found : Option String} (fewer : ∀ other, some other → more other)
    (isNearest : tree.IsNearest some found) :
    tree.IsNearest more found ↔ ∀ other, more other → tree.HoldsConfig other →
      ∃ inner, some inner ∧ tree.HoldsConfig inner ∧ other <+: inner := by
  cases found with
  | none =>
    constructor
    · intro nothing other isMore holds
      exact absurd holds (nothing other isMore)
    · intro nearer other isMore holds
      obtain ⟨inner, isSome, holdsToo, -⟩ := nearer other isMore holds
      exact isNearest inner isSome holdsToo
  | some path =>
    obtain ⟨nearest, isSome, holds, leads, innermost⟩ := isNearest
    constructor
    · rintro ⟨nearestToo, -, -, leadsToo, innermostToo⟩ other isMore holdsOther
      have same : nearestToo = nearest := by
        rw [leads] at leadsToo
        exact (List.append_cancel_right (Except.ok.inj leadsToo)).symm
      exact ⟨nearest, isSome, holds, same ▸ innermostToo other isMore holdsOther⟩
    · intro nearer
      refine ⟨nearest, fewer nearest isSome, holds, leads, fun other isMore holdsOther => ?_⟩
      obtain ⟨inner, isSomeToo, holdsInner, inside⟩ := nearer other isMore holdsOther
      exact inside.trans (innermost inner isSomeToo holdsInner)

section Search
variable {directory : String}

theorem clean_fileName : '/' ∉ Config.fileName.toList := by decide

theorem counts_fileName : ¬Path.isSkipped Config.fileName = true := by decide

theorem placeOf_join : tree.placeOf (Path.join path Config.fileName) = tree.placeOf path ++ [Config.fileName] := by
  rw [placeOf, start, Path.isAbsolute_join clean_fileName, Path.names_join clean_fileName counts_fileName,
    ← List.append_assoc, placeOf, start]

theorem resolve_join_iff (rules : tree.WellFormed) (down : ".." ∉ Path.names path) (found : List String) :
    tree.resolve (Path.join path Config.fileName) = .ok found ↔
      (Path.join path Config.fileName).utf8ByteSize ≤ greatestPathSize ∧ tree.HoldsConfig (tree.placeOf path) ∧
        found = tree.placeOf path ++ [Config.fileName] := by
  have names := Path.names_join clean_fileName counts_fileName path
  have downToo : ".." ∉ Path.names (Path.join path Config.fileName) := by
    rw [names, List.mem_append, not_or]
    exact ⟨down, by decide⟩
  rw [HoldsConfig, ← placeOf_join]
  constructor
  · intro resolved
    obtain ⟨fits, whole, there⟩ := placeOf_of_resolve downToo resolved
    exact ⟨fits, whole ▸ there (by simp [names]), whole⟩
  · rintro ⟨fits, present, rfl⟩
    obtain ⟨parts, cut, -⟩ := Path.split_join clean_fileName path
    exact resolve_of_present downToo rules cut counts_fileName fits present

theorem isPresent_iff (rules : tree.WellFormed) (down : ".." ∉ Path.names path) :
    tree.isPresent (Path.join path Config.fileName) = true ↔
      (Path.join path Config.fileName).utf8ByteSize ≤ greatestPathSize ∧ tree.HoldsConfig (tree.placeOf path) := by
  have known := resolve_join_iff rules down
  rw [isPresent]
  cases resolved : tree.resolve (Path.join path Config.fileName) with
  | ok found =>
    obtain ⟨fits, holds, -⟩ := (known found).1 resolved
    exact iff_of_true rfl ⟨fits, holds⟩
  | error fault =>
    refine iff_of_false (by simp [Except.isOk, Except.toBool]) fun both => ?_
    rw [(known _).2 ⟨both.1, both.2, rfl⟩] at resolved
    cases resolved

/-- The first path that leads somewhere is found, and nothing changes. -/
theorem run_findM? (paths : List String) :
    (paths.findM? access.isPresent).run tree = (paths.find? tree.isPresent, tree) := by
  induction paths with
  | nil => rfl
  | cons path rest ih =>
    have asked : (access.isPresent path).run tree = (tree.isPresent path, tree) := rfl
    rw [List.findM?, List.find?_cons, StateT.run_bind, asked]
    cases tree.isPresent path with
    | true => rfl
    | false => exact ih

theorem run_find? : (Config.find? access directory).run tree = ((Config.candidates directory).find? tree.isPresent, tree) :=
  run_findM? _

theorem run_loadNearest {found : Option String} (searched : (Config.find? access directory).run tree = (found, tree)) :
    (Config.loadNearest access directory).run tree =
      (found.elim (pure (.ok (Config.standard, []))) (Config.load access)).run tree := by
  rw [Config.loadNearest, StateT.run_bind, searched]
  cases found <;> rfl

section Between
variable (member : path ∈ Path.ancestors directory)
include member

theorem start_of_mem_ancestors : tree.start path = tree.start directory := by
  rw [start, start, (Path.names_of_mem_ancestors member).2]

theorem utf8ByteSize_of_mem_ancestors : path.utf8ByteSize ≤ directory.utf8ByteSize := by
  obtain ⟨more, whole⟩ := Path.initial_of_mem_ancestors member
  have same : path ++ String.ofList more = directory := by
    rw [← String.toList_inj, String.toList_append, String.toList_ofList, whole]
  rw [← same, String.utf8ByteSize_append]
  omega

end Between

theorem between_of_reaches {other : List String} (reaches : tree.Reaches directory other) :
    tree.start directory <+: other ∧ other <+: tree.placeOf directory := by
  obtain ⟨path, member, rfl, -⟩ := reaches
  rw [placeOf, start_of_mem_ancestors member]
  exact ⟨List.prefix_append _ _, (List.prefix_append_right_inj _).2 (Path.names_of_mem_ancestors member).1⟩

theorem reaches_of_between (fits : directory.utf8ByteSize + 1 + Config.fileName.utf8ByteSize ≤ greatestPathSize)
    {other : List String} (inside : tree.start directory <+: other) (around : other <+: tree.placeOf directory) :
    tree.Reaches directory other := by
  obtain ⟨wanted, rfl⟩ := inside
  obtain ⟨path, member, isWanted⟩ := Path.exists_mem_ancestors ((List.prefix_append_right_inj _).1 around)
  refine ⟨path, member, by rw [placeOf, start_of_mem_ancestors member, isWanted], ?_⟩
  have joined := (Path.utf8ByteSize_join clean_fileName path).2
  have shorter := utf8ByteSize_of_mem_ancestors member
  omega

/-- Of the places that it looks at, a search finds the nearest one with a configuration file. -/
theorem isNearest_find? (rules : tree.WellFormed) (down : ".." ∉ Path.names directory) :
    tree.IsNearest (tree.Reaches directory) ((Config.candidates directory).find? tree.isPresent) := by
  have downToo : ∀ path ∈ Path.ancestors directory, ".." ∉ Path.names path :=
    fun path member up => down ((Path.names_of_mem_ancestors member).1.subset up)
  have known := fun path member => isPresent_iff rules (downToo path member)
  rw [Config.candidates, List.find?_map]
  cases found : (Path.ancestors directory).find? (tree.isPresent ∘ fun path => Path.join path Config.fileName) with
  | none =>
    rintro other ⟨path, member, rfl, fits⟩ holds
    exact List.find?_eq_none.1 found path member ((known path member).2 ⟨fits, holds⟩)
  | some path =>
    have member : path ∈ Path.ancestors directory := List.mem_of_find?_eq_some found
    have present := List.find?_some found
    obtain ⟨fits, holds⟩ := (known path member).1 present
    refine ⟨tree.placeOf path, ⟨path, member, rfl, fits⟩, holds, ?_, ?_⟩
    · exact (resolve_join_iff rules (downToo path member) _).2 ⟨fits, holds, rfl⟩
    · rintro other ⟨outer, isOuter, rfl, fitsToo⟩ holdsToo
      have presentToo := (known outer isOuter).2 ⟨fitsToo, holdsToo⟩
      rw [placeOf, placeOf, start_of_mem_ancestors isOuter, start_of_mem_ancestors member]
      exact (List.prefix_append_right_inj _).2 (Path.names_of_find? found isOuter presentToo)

end Search

/-- A search finds the nearest configuration file among the places that it looks at, and the configuration is loaded from
there. It is the nearest one on the way from the root just if no farther one is hidden by a place that is not looked at.
The places lie between the one where the path starts and the one that it names, and none of these is left out if the path
is short enough. -/
theorem nearest_config_found_iff (tree : FileTree) (directory : String) (rules : tree.WellFormed)
    (noParent : Path.Component.parent ∉ Path.components directory) :
    ∃ found, (Config.find? access directory).run tree = (found, tree) ∧
      (Config.loadNearest access directory).run tree =
        (found.elim (pure (.ok (Config.standard, []))) (Config.load access)).run tree ∧
      tree.IsNearest (tree.Reaches directory) found ∧
      (tree.IsNearest (· <+: tree.placeOf directory) found ↔
        ∀ other, other <+: tree.placeOf directory → tree.HoldsConfig other →
          ∃ inner, tree.Reaches directory inner ∧ tree.HoldsConfig inner ∧ other <+: inner) ∧
      (∀ other, tree.Reaches directory other → tree.start directory <+: other ∧ other <+: tree.placeOf directory) ∧
      (directory.utf8ByteSize + 1 + Config.fileName.utf8ByteSize ≤ greatestPathSize →
        ∀ other, tree.start directory <+: other → other <+: tree.placeOf directory → tree.Reaches directory other) := by
  have isNearest := isNearest_find? rules (Path.not_mem_names noParent)
  refine ⟨_, run_find?, run_loadNearest run_find?, isNearest, ?_, fun _ => between_of_reaches,
    fun fits _ => reaches_of_between fits⟩
  exact isNearest_iff (fun _ reaches => (between_of_reaches reaches).2) isNearest

section Examples

def innerConfig : FileTree := ⟨[(["work"], .directory), (["work", Config.fileName], .file "")], ["work"]⟩

theorem nearest_config_found_inside : innerConfig.WellFormed ∧ Path.Component.parent ∉ Path.components "/work/./deep" ∧
    ∃ found, (Config.find? access "/work/./deep").run innerConfig = (found, innerConfig) ∧
      innerConfig.IsNearest (· <+: innerConfig.placeOf "/work/./deep") found := by
  have rules : innerConfig.WellFormed := by decide
  have noParent : Path.Component.parent ∉ Path.components "/work/./deep" := by decide
  obtain ⟨found, searched, -, -, onTheWay, -, reaches⟩ := nearest_config_found_iff innerConfig "/work/./deep" rules noParent
  refine ⟨rules, noParent, found, searched, onTheWay.2 fun other around holds => ?_⟩
  exact ⟨other, reaches (by decide) other List.nil_prefix around, holds, List.prefix_refl _⟩

/-- A configuration file on the way to a directory is not found. -/
def Overlooks (tree : FileTree) (directory : String) (other : List String) : Prop :=
  tree.WellFormed ∧ Path.Component.parent ∉ Path.components directory ∧ other <+: tree.placeOf directory ∧
    tree.HoldsConfig other ∧ (Config.find? access directory).run tree = (none, tree)

/-- A configuration file at the root, above the directory in which relative paths start. -/
def upperConfig : FileTree := ⟨[(["work"], .directory), ([Config.fileName], .file "")], ["work"]⟩

/-- A directory below the root, named with any number of points after it. -/
def dotted : Nat → String
  | 0 => "/work"
  | count + 1 => dotted count ++ "/" ++ "."

variable {count : Nat}

theorem layout_dotted : Path.layout (dotted count) = ⟨.root, "work" :: List.replicate count "."⟩ := by
  have parts : Text.split '/' (dotted count) = "" :: "work" :: List.replicate count "." := by
    induction count with
    | zero => decide
    | succ count ih =>
      rw [dotted, Text.split_append, ih, List.replicate_succ']
      rfl
  simp only [Path.layout, parts]

theorem utf8ByteSize_dotted : (dotted count).utf8ByteSize = 5 + 2 * count := by
  induction count with
  | zero => rfl
  | succ count ih =>
    have tail : "/".utf8ByteSize + ".".utf8ByteSize = 2 := rfl
    rw [dotted, String.utf8ByteSize_append, String.utf8ByteSize_append, ih]
    omega

theorem names_dotted : Path.names (dotted count) = ["work"] := by
  rw [Path.names_eq_named_body, layout_dotted, Path.named_cons (by decide), Path.named, List.filter_replicate]
  rfl

theorem parent_not_mem_dotted : Path.Component.parent ∉ Path.components (dotted count) := by
  rw [Path.components, layout_dotted]
  simp [Path.Lead.components, Path.component?, Path.isSkipped]

theorem ancestors_dotted : Path.ancestors (dotted count) = [dotted count, "/"] := by
  have skipped : ∀ rest, Path.around .root (List.replicate count "." ++ rest) = Path.around .root rest := by
    intro rest
    induction count with
    | zero => rfl
    | succ count ih =>
      rw [List.replicate_succ, List.cons_append, Path.around]
      exact ih
  rw [Path.ancestors, layout_dotted, List.reverse_cons, List.reverse_replicate, skipped]
  rfl

theorem run_find?_of_absent {tree : FileTree} {directory : String}
    (absent : ∀ path ∈ Config.candidates directory, tree.isPresent path = false) :
    (Config.find? access directory).run tree = (none, tree) := by
  have nothing : (Config.candidates directory).find? tree.isPresent = none :=
    List.find?_eq_none.2 fun path member => by rw [absent path member]; exact Bool.false_ne_true
  rw [run_find?, nothing]

/-- Named with many points, a directory is too far away for what it holds. -/
theorem overlooks_dotted (many : 2048 ≤ count) : innerConfig.Overlooks (dotted count) ["work"] := by
  have rules : innerConfig.WellFormed := by decide
  have ending : innerConfig.placeOf (dotted count) = ["work"] := by
    rw [placeOf, start, Path.isAbsolute, layout_dotted, names_dotted]
    rfl
  refine ⟨rules, parent_not_mem_dotted, ending ▸ List.prefix_refl _, by decide, run_find?_of_absent ?_⟩
  rw [Config.candidates, ancestors_dotted]
  intro path member
  rcases List.mem_cons.1 member with rfl | root
  · rw [Bool.eq_false_iff, ne_eq, isPresent_iff rules (by rw [names_dotted]; decide)]
    rintro ⟨fits, -⟩
    have joined := (Path.utf8ByteSize_join clean_fileName (dotted count)).1
    rw [utf8ByteSize_dotted] at joined
    rw [greatestPathSize] at fits
    omega
  · rw [List.mem_singleton.1 root]
    decide

/-- Nothing above the directory in which a relative path starts is found, and nothing in a directory that is named with
too many points. -/
theorem nearest_config_missed : upperConfig.Overlooks "." [] ∧ innerConfig.Overlooks (dotted 2048) ["work"] := by
  refine ⟨⟨by decide, by decide, List.nil_prefix, by decide, run_find?_of_absent ?_⟩, overlooks_dotted (Nat.le_refl _)⟩
  decide

end Examples

end FileTree

end DomainFlow
