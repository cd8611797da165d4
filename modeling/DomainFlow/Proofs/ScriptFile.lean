import Mathlib.Data.List.Basic
import Mathlib.Data.List.TakeWhile
import DomainFlow.Relation.Build

/-!
The commands that run one file and do nothing else. Such a command consists of the name of the interpreter, a reference to
the current directory and the path of the file, the first two of which may be missing, with white space around. No path
has white space in it and no path starts with a dot, so a command can be cut into these parts in one way only. Only such a
command counts as one that a module requires.
-/
namespace DomainFlow

namespace Text
variable {char : Char} {before inner after chars : List Char}

/-- No character is both white space and part of a word. -/
theorem disjoint_ranges : ∀ blank ∈ blankRanges, ∀ word ∈ wordRanges, blank.2 < word.1 ∨ word.2 < blank.1 := by
  decide +kernel

theorem isWord_eq_false_of_isBlank (blank : isBlank char = true) : isWord char = false := by
  simp only [isBlank, List.any_eq_true, Bool.and_eq_true, decide_eq_true_eq] at blank
  obtain ⟨range, inBlank, least, greatest⟩ := blank
  rw [isWord, List.any_eq_false]
  intro word inWord
  have apart := disjoint_ranges range inBlank word inWord
  simp only [Bool.and_eq_true, decide_eq_true_eq]
  omega

theorem dropWhile_isBlank_append (blank : ∀ char ∈ before, isBlank char = true)
    (starts : ∀ char ∈ inner.head?, isBlank char = false) : (before ++ inner).dropWhile isBlank = inner := by
  rw [List.dropWhile_append_of_pos blank]
  cases inner with
  | nil => rfl
  | cons first rest => rw [List.dropWhile_cons_of_neg (by simp [starts first rfl])]

/-- White space around a text that neither starts nor ends with it is what trimming takes away. -/
theorem trim_append (blankBefore : ∀ char ∈ before, isBlank char = true) (blankAfter : ∀ char ∈ after, isBlank char = true)
    (nonempty : inner ≠ []) (starts : ∀ char ∈ inner.head?, isBlank char = false)
    (ends : ∀ char ∈ inner.getLast?, isBlank char = false) : trim (before ++ (inner ++ after)) = inner := by
  have startsToo : ∀ char ∈ (inner ++ after).head?, isBlank char = false := by
    rwa [List.head?_append_of_ne_nil _ nonempty]
  rw [trim, dropWhile_isBlank_append blankBefore startsToo, List.reverse_append,
    dropWhile_isBlank_append (by simpa using blankAfter) (by simpa using ends), List.reverse_reverse]

theorem exists_trim (chars : List Char) : ∃ before after, (∀ char ∈ before, isBlank char = true) ∧
    (∀ char ∈ after, isBlank char = true) ∧ chars = before ++ (trim chars ++ after) := by
  refine ⟨chars.takeWhile isBlank, ((chars.dropWhile isBlank).reverse.takeWhile isBlank).reverse,
    fun char => List.mem_takeWhile_imp, fun char member => ?_, ?_⟩
  · exact List.mem_takeWhile_imp (List.mem_reverse.mp member)
  · rw [trim, ← List.reverse_append, List.takeWhile_append_dropWhile, List.reverse_reverse, List.takeWhile_append_dropWhile]

end Text

namespace Script
variable {char : Char} {interpreter directory file path rest : List Char}

theorem isFileChar_dot : isFileChar '.' = false := by decide +kernel

theorem isBlank_eq_false_of_isFileChar (inFile : isFileChar char = true) : Text.isBlank char = false := by
  cases blank : Text.isBlank char with
  | false => rfl
  | true =>
    simp only [isFileChar, Text.isWord_eq_false_of_isBlank blank, Bool.false_or, Bool.or_eq_true, beq_iff_eq] at inFile
    rcases inFile with rfl | rfl <;> exact absurd blank (by decide)

/-- The name of the interpreter with white space behind it, or nothing. -/
def IsInterpreter (chars : List Char) : Prop :=
  chars = [] ∨ ∃ blanks, blanks ≠ [] ∧ (∀ char ∈ blanks, Text.isBlank char = true) ∧ chars = "node".toList ++ blanks

/-- A reference to the current directory, or nothing. -/
def IsDirectory (chars : List Char) : Prop := chars = [] ∨ chars = "./".toList

/-- The path of a script file: some characters of words, dashes and slashes before the ending. -/
def IsPath (chars : List Char) : Prop :=
  ∃ body, body ≠ [] ∧ (∀ char ∈ body, isFileChar char = true) ∧ chars = body ++ ".js".toList

theorem isFile_iff : isFile path = true ↔ IsPath path := by
  have ending : fileEnding = ".js".toList := rfl
  simp only [isFile, Bool.and_eq_true, List.isSuffixOf_iff_suffix, Bool.not_eq_true', List.isEmpty_eq_false_iff,
    List.all_eq_true, IsPath, ← ending]
  constructor
  · rintro ⟨⟨⟨body, rfl⟩, nonempty⟩, inFile⟩
    rw [List.length_append, Nat.add_sub_cancel, List.take_left] at nonempty inFile
    exact ⟨body, nonempty, inFile, rfl⟩
  · rintro ⟨body, nonempty, inFile, rfl⟩
    rw [List.length_append, Nat.add_sub_cancel, List.take_left]
    exact ⟨⟨List.suffix_append _ _, nonempty⟩, inFile⟩

/-- All dots of a path are in its ending, which has one. -/
theorem IsPath.dots (isPath : IsPath file) :
    (∀ char ∈ file, isFileChar char = true ∨ char = '.') ∧ file.count '.' = 1 := by
  obtain ⟨body, -, inFile, rfl⟩ := isPath
  constructor
  · intro char member
    rcases List.mem_append.mp member with inBody | inEnding
    · exact .inl (inFile char inBody)
    · have cases : char = '.' ∨ char = 'j' ∨ char = 's' := by simpa using inEnding
      rcases cases with rfl | rfl | rfl
      · exact .inr rfl
      · exact .inl (by decide +kernel)
      · exact .inl (by decide +kernel)
  · have noDot : body.count '.' = 0 := List.count_eq_zero_of_not_mem fun member => by
      simpa [isFileChar_dot] using inFile '.' member
    rw [List.count_append, noDot]
    rfl

/-- The path of a file has no white space in it, and neither has a reference to the current directory. -/
theorem not_isBlank_of_mem (isDirectory : IsDirectory directory) (isPath : IsPath file) :
    ∀ char ∈ directory ++ file, Text.isBlank char = false := by
  intro char member
  rcases List.mem_append.mp member with inDirectory | inFile
  · rcases isDirectory with rfl | rfl
    · cases inDirectory
    · have cases : char = '.' ∨ char = '/' := by simpa using inDirectory
      rcases cases with rfl | rfl <;> decide
  · rcases isPath.dots.1 char inFile with isFileChar | rfl
    · exact isBlank_eq_false_of_isFileChar isFileChar
    · decide

theorem exists_withoutInterpreter (command : List Char) :
    ∃ interpreter, IsInterpreter interpreter ∧ command = interpreter ++ withoutInterpreter command := by
  unfold withoutInterpreter
  split
  next first rest =>
    split
    next blank =>
      refine ⟨_, .inr ⟨first :: rest.takeWhile Text.isBlank, List.cons_ne_nil _ _, ?_, rfl⟩, ?_⟩
      · exact List.forall_mem_cons.mpr ⟨blank, fun char => List.mem_takeWhile_imp⟩
      · rw [List.append_assoc, List.cons_append, List.takeWhile_append_dropWhile]
        rfl
    next solid => exact ⟨[], .inl rfl, rfl⟩
  next => exact ⟨[], .inl rfl, rfl⟩

theorem withoutInterpreter_append (isInterpreter : IsInterpreter interpreter)
    (solid : ∀ char ∈ rest, Text.isBlank char = false) : withoutInterpreter (interpreter ++ rest) = rest := by
  rcases isInterpreter with rfl | ⟨blanks, nonempty, blank, rfl⟩
  · rw [List.nil_append]
    unfold withoutInterpreter
    split
    next first rest => rw [if_neg (by simp [solid first])]
    next => rfl
  · obtain ⟨first, more, rfl⟩ := List.exists_cons_of_ne_nil nonempty
    obtain ⟨firstBlank, moreBlank⟩ := List.forall_mem_cons.mp blank
    have dropped : (more ++ rest).dropWhile Text.isBlank = rest :=
      Text.dropWhile_isBlank_append moreBlank fun char starts => solid char (List.mem_of_head? starts)
    calc withoutInterpreter ("node".toList ++ (first :: more) ++ rest)
        = if Text.isBlank first = true then (more ++ rest).dropWhile Text.isBlank else
            'n' :: 'o' :: 'd' :: 'e' :: first :: (more ++ rest) := rfl
      _ = rest := by rw [if_pos firstBlank, dropped]

theorem exists_withoutCurrentDirectory (path : List Char) :
    ∃ directory, IsDirectory directory ∧ path = directory ++ withoutCurrentDirectory path := by
  unfold withoutCurrentDirectory
  split
  next rest => exact ⟨_, .inr rfl, rfl⟩
  next => exact ⟨[], .inl rfl, rfl⟩

/-- What follows a reference to the current directory is not taken for another one, since a path starts with no dot. -/
theorem withoutCurrentDirectory_append (isDirectory : IsDirectory directory) (isPath : IsPath file) :
    withoutCurrentDirectory (directory ++ file) = file := by
  rcases isDirectory with rfl | rfl
  · obtain ⟨body, nonempty, inFile, rfl⟩ := isPath
    obtain ⟨first, more, rfl⟩ := List.exists_cons_of_ne_nil nonempty
    rw [List.nil_append, withoutCurrentDirectory]
    intro rest starts
    have isDot : first = '.' := (List.cons.inj starts).1
    have isFileChar := inFile first List.mem_cons_self
    rw [isDot, isFileChar_dot] at isFileChar
    cases isFileChar
  · rfl

/-- No path has a reference to the current directory in it. -/
theorem IsPath.not_infix (isPath : IsPath file) : ¬ "./".toList <:+: file := by
  rintro ⟨before, after, isFile⟩
  have oneDot := isPath.dots.2
  obtain ⟨body, -, inFile, rfl⟩ := isPath
  have noDot : ∀ char ∈ body, (char != '.') = true := by
    intro char member
    have isFileChar := inFile char member
    simp only [bne_iff_ne, ne_eq]
    rintro rfl
    simp [isFileChar_dot] at isFileChar
  have noDotBefore : ∀ char ∈ before, (char != '.') = true := by
    intro char member
    simp only [bne_iff_ne, ne_eq]
    rintro rfl
    have positive := List.count_pos_iff.mpr member
    rw [← isFile, List.append_assoc, List.count_append, List.count_append] at oneDot
    have another : "./".toList.count '.' = 1 := rfl
    omega
  have rest := congrArg (List.dropWhile fun char => char != '.') isFile
  rw [List.append_assoc, List.dropWhile_append_of_pos noDotBefore, List.dropWhile_append_of_pos noDot] at rest
  simp at rest

/-- The parts of a command that runs one file, with the white space around them. -/
structure Parts where
  before : List Char
  interpreter : List Char
  directory : List Char
  file : List Char
  after : List Char
deriving DecidableEq

namespace Parts
variable {parts other : Parts}

def inner (parts : Parts) : List Char := parts.interpreter ++ (parts.directory ++ parts.file)

def text (parts : Parts) : List Char := parts.before ++ (parts.inner ++ parts.after)

/-- Each part is what it is meant to be. -/
structure Plain (parts : Parts) : Prop where
  before : ∀ char ∈ parts.before, Text.isBlank char = true
  interpreter : IsInterpreter parts.interpreter
  directory : IsDirectory parts.directory
  file : IsPath parts.file
  after : ∀ char ∈ parts.after, Text.isBlank char = true

theorem Plain.inner_ne_nil (plain : parts.Plain) : parts.inner ≠ [] := by
  obtain ⟨body, -, -, isFile⟩ := plain.file
  simp [inner, isFile]

theorem Plain.starts (plain : parts.Plain) : ∀ char ∈ parts.inner.head?, Text.isBlank char = false := by
  intro char first
  rcases plain.interpreter with absent | ⟨blanks, -, -, named⟩
  · rw [inner, absent, List.nil_append] at first
    exact not_isBlank_of_mem plain.directory plain.file char (List.mem_of_head? first)
  · have isFirst : 'n' = char := by simpa [inner, named] using first
    rw [← isFirst]
    decide

theorem Plain.ends (plain : parts.Plain) : ∀ char ∈ parts.inner.getLast?, Text.isBlank char = false := by
  intro char last
  obtain ⟨body, -, -, isFile⟩ := plain.file
  have isLast : 's' = char := by simpa [inner, isFile] using last
  rw [← isLast]
  decide

theorem Plain.trim_text (plain : parts.Plain) : Text.trim parts.text = parts.inner :=
  Text.trim_append plain.before plain.after plain.inner_ne_nil plain.starts plain.ends

theorem Plain.withoutInterpreter_inner (plain : parts.Plain) :
    withoutInterpreter parts.inner = parts.directory ++ parts.file :=
  withoutInterpreter_append plain.interpreter (not_isBlank_of_mem plain.directory plain.file)

/-- The parts of a command are found one after the other, from the outside in. -/
theorem Plain.unique (plain : parts.Plain) (plainToo : other.Plain) (same : parts.text = other.text) : parts = other := by
  have inner : parts.inner = other.inner := by rw [← plain.trim_text, ← plainToo.trim_text, same]
  have path : parts.directory ++ parts.file = other.directory ++ other.file := by
    rw [← plain.withoutInterpreter_inner, ← plainToo.withoutInterpreter_inner, inner]
  have file : parts.file = other.file := by
    rw [← withoutCurrentDirectory_append plain.directory plain.file, path,
      withoutCurrentDirectory_append plainToo.directory plainToo.file]
  have directory : parts.directory = other.directory := List.append_cancel_right (file ▸ path)
  have interpreter : parts.interpreter = other.interpreter := by
    rw [Parts.inner, Parts.inner, path] at inner
    exact List.append_cancel_right inner
  have behind : parts.inner ++ parts.after = other.inner ++ other.after := by
    have starts : ∀ {parts : Parts}, parts.Plain → ∀ char ∈ (parts.inner ++ parts.after).head?, Text.isBlank char = false := by
      intro parts plain
      rw [List.head?_append_of_ne_nil _ plain.inner_ne_nil]
      exact plain.starts
    rw [← Text.dropWhile_isBlank_append plain.before (starts plain), ← Text.dropWhile_isBlank_append plainToo.before (starts plainToo)]
    exact congrArg _ same
  have after : parts.after = other.after := List.append_cancel_left (inner ▸ behind)
  have before : parts.before = other.before := by
    rw [text, text, behind] at same
    exact List.append_cancel_right same
  cases parts
  cases other
  simp_all

theorem Plain.char_cases (plain : parts.Plain) :
    ∀ char ∈ parts.text, Text.isBlank char = true ∨ isFileChar char = true ∨ char = '.' := by
  intro char member
  simp only [text, inner, List.mem_append] at member
  rcases member with before | (interpreter | directory | file) | after
  · exact .inl (plain.before char before)
  · rcases plain.interpreter with absent | ⟨blanks, -, blank, named⟩
    · simp [absent] at interpreter
    · rw [named, List.mem_append] at interpreter
      rcases interpreter with name | inBlanks
      · have cases : char = 'n' ∨ char = 'o' ∨ char = 'd' ∨ char = 'e' := by simpa using name
        rcases cases with rfl | rfl | rfl | rfl
        all_goals exact .inr (.inl (by decide +kernel))
      · exact .inl (blank char inBlanks)
  · rcases plain.directory with absent | given
    · simp [absent] at directory
    · have cases : char = '.' ∨ char = '/' := by simpa [given] using directory
      rcases cases with rfl | rfl
      · exact .inr (.inr rfl)
      · exact .inr (.inl (by decide +kernel))
  · exact .inr (plain.file.dots.1 char file)
  · exact .inl (plain.after char after)

end Parts

/-- The characters that end a command, join two commands, redirect one or put the output of one into another. -/
def shellOperators : List Char := "|&;<>()$`".toList

theorem not_mem_text_of_mem_shellOperators {parts : Parts} (plain : parts.Plain) :
    ∀ operator ∈ shellOperators, operator ∉ parts.text := by
  have foreign : (shellOperators.all fun operator =>
      !Text.isBlank operator && !isFileChar operator && operator != '.') = true := by decide +kernel
  intro operator isOperator member
  have apart := List.all_eq_true.mp foreign operator isOperator
  rcases plain.char_cases operator member with blank | inFile | dot
  · simp [blank] at apart
  · simp [inFile] at apart
  · simp [dot] at apart

theorem entryFile?_eq_some_iff {command entry : String} : entryFile? command = some entry ↔
    ∃ parts : Parts, parts.Plain ∧ parts.text = command.toList ∧ parts.file = entry.toList := by
  simp only [entryFile?]
  constructor
  · intro runs
    split at runs
    next isPath =>
      have isEntry := Option.some.inj runs
      obtain ⟨before, after, blankBefore, blankAfter, isCommand⟩ := Text.exists_trim command.toList
      obtain ⟨interpreter, isInterpreter, isInner⟩ := exists_withoutInterpreter (Text.trim command.toList)
      obtain ⟨directory, isDirectory, isRest⟩ := exists_withoutCurrentDirectory (withoutInterpreter (Text.trim command.toList))
      let parts : Parts :=
        ⟨before, interpreter, directory, withoutCurrentDirectory (withoutInterpreter (Text.trim command.toList)), after⟩
      have inner : parts.inner = Text.trim command.toList := by rw [Parts.inner, ← isRest, ← isInner]
      refine ⟨parts, ⟨blankBefore, isInterpreter, isDirectory, isFile_iff.mp isPath, blankAfter⟩, ?_, ?_⟩
      · rw [Parts.text, inner, ← isCommand]
      · rw [← isEntry, String.toList_ofList]
    next => cases runs
  · rintro ⟨parts, plain, isCommand, isEntry⟩
    rw [← isCommand, plain.trim_text, plain.withoutInterpreter_inner, withoutCurrentDirectory_append plain.directory plain.file,
      if_pos (isFile_iff.mpr plain.file), isEntry, String.ofList_toList]

/-- A command runs one file and does nothing else exactly if it consists of the parts of such a command, and it consists of
them in one way only. Nothing else counts as required by a module: no command with further white space in it, with an operator
of the shell, or with another reference to the current directory. -/
theorem entry_file_exact (command : String) :
    (∀ entry, entryFile? command = some entry ↔
      ∃ parts : Parts, parts.Plain ∧ parts.text = command.toList ∧ parts.file = entry.toList) ∧
    (∀ first second : Parts, first.Plain → first.text = command.toList → second.Plain → second.text = command.toList →
      first = second) ∧
    ∀ flow : DataFlowGraph, flow.requiresScript command = true →
      ∃ parts : Parts, parts.Plain ∧ parts.text = command.toList ∧
        (∀ char ∈ parts.directory ++ parts.file, Text.isBlank char = false) ∧
        (∀ operator ∈ shellOperators, operator ∉ command.toList) ∧ ¬ "./".toList <:+: parts.file := by
  refine ⟨fun entry => entryFile?_eq_some_iff, fun first second plain text plainToo textToo => ?_, fun flow requires => ?_⟩
  · exact plain.unique plainToo (text.trans textToo.symm)
  · unfold DataFlowGraph.requiresScript at requires
    split at requires
    next => cases requires
    next entry runs =>
      obtain ⟨parts, plain, isCommand, -⟩ := entryFile?_eq_some_iff.mp runs
      exact ⟨parts, plain, isCommand, not_isBlank_of_mem plain.directory plain.file,
        isCommand ▸ not_mem_text_of_mem_shellOperators plain, plain.file.not_infix⟩

def postFlow : DataFlowGraph := ⟨[], [⟨1, 2, .astRequireToObj, some "./scripts/post.js"⟩]⟩

def postParts : Parts := ⟨[' '], "node\t ".toList, "./".toList, "scripts/post.js".toList, ['\n']⟩

theorem entry_file_exact_post : postParts.Plain ∧ postParts.text = " node\t ./scripts/post.js\n".toList ∧
    entryFile? " node\t ./scripts/post.js\n" = some "scripts/post.js" ∧
    postFlow.requiresScript " node\t ./scripts/post.js\n" = true ∧
    (∀ operator ∈ shellOperators, operator ∉ " node\t ./scripts/post.js\n".toList) ∧
    ∀ parts : Parts, parts.Plain → parts.text = " node\t ./scripts/post.js\n".toList → parts = postParts := by
  have plain : postParts.Plain := by
    have blanks : ∀ {chars : List Char}, chars.all Text.isBlank = true → ∀ char ∈ chars, Text.isBlank char = true :=
      List.all_eq_true.mp
    refine ⟨blanks (by decide), .inr ⟨['\t', ' '], List.cons_ne_nil _ _, blanks (by decide), rfl⟩, .inr rfl,
      ⟨"scripts/post".toList, List.cons_ne_nil _ _, List.all_eq_true.mp ?_, rfl⟩, blanks (by decide)⟩
    decide +kernel
  have text : postParts.text = " node\t ./scripts/post.js\n".toList := rfl
  obtain ⟨runs, unique, required⟩ := entry_file_exact " node\t ./scripts/post.js\n"
  have entry : entryFile? " node\t ./scripts/post.js\n" = some "scripts/post.js" := (runs _).mpr ⟨postParts, plain, text, rfl⟩
  have requires : postFlow.requiresScript " node\t ./scripts/post.js\n" = true := by
    simp only [DataFlowGraph.requiresScript, entry]
    decide
  obtain ⟨-, -, -, -, foreign, -⟩ := required postFlow requires
  exact ⟨plain, text, entry, requires, foreign, fun parts plainToo textToo => unique parts postParts plainToo textToo plain text⟩

end Script

end DomainFlow
