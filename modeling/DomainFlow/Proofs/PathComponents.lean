import Mathlib.Tactic.SplitIfs
import DomainFlow.Path

/-!
Cutting paths by their components. A text that is joined from parts without slashes is taken apart into the same
parts, so the rest that is left of a path after another one has the components that follow, and it ends in the same
file name.
-/
namespace DomainFlow

namespace Text
variable {separator : Char}

theorem splitAt_append_cons {part rest : List Char} (clean : separator ∉ part) :
    splitAt separator (part ++ separator :: rest) = part :: splitAt separator rest := by
  induction part with
  | nil => simp [splitAt]
  | cons char more ih =>
    rw [List.mem_cons, not_or] at clean
    rw [List.cons_append, splitAt, if_neg (Ne.symm clean.1), ih clean.2]

theorem splitAt_of_not_mem {part : List Char} (clean : separator ∉ part) : splitAt separator part = [part] := by
  induction part with
  | nil => rfl
  | cons char more ih =>
    rw [List.mem_cons, not_or] at clean
    rw [splitAt, if_neg (Ne.symm clean.1), ih clean.2]

theorem not_mem_of_mem_splitAt {text part : List Char} (found : part ∈ splitAt separator text) : separator ∉ part := by
  induction text generalizing part with
  | nil =>
    rw [splitAt, List.mem_singleton] at found
    simp [found]
  | cons char rest ih =>
    rw [splitAt] at found
    split at found
    · rcases List.mem_cons.1 found with rfl | later
      · exact List.not_mem_nil
      · exact ih later
    · next different =>
      split at found
      · rw [List.mem_singleton.1 found, List.mem_singleton]
        exact Ne.symm different
      · next first others cut =>
        rw [cut] at ih
        rcases List.mem_cons.1 found with rfl | later
        · rw [List.mem_cons, not_or]
          exact ⟨Ne.symm different, ih List.mem_cons_self⟩
        · exact ih (List.mem_cons_of_mem _ later)

theorem not_mem_of_mem_split {text part : String} (found : part ∈ split separator text) : separator ∉ part.toList := by
  obtain ⟨chars, member, rfl⟩ := List.mem_map.1 found
  rw [String.toList_ofList]
  exact not_mem_of_mem_splitAt member

theorem split_of_not_mem {part : String} (clean : separator ∉ part.toList) : split separator part = [part] := by
  rw [split, splitAt_of_not_mem clean, List.map_singleton, String.ofList_toList]

theorem split_slash_append (part rest : String) (clean : '/' ∉ part.toList) :
    split '/' (part ++ "/" ++ rest) = part :: split '/' rest := by
  have chars : (part ++ "/" ++ rest).toList = part.toList ++ '/' :: rest.toList := by simp
  rw [split, chars, splitAt_append_cons clean, List.map_cons, String.ofList_toList, split]

theorem split_intercalate {parts : List String} (notEmpty : parts ≠ []) (clean : ∀ part ∈ parts, '/' ∉ part.toList) :
    split '/' ("/".intercalate parts) = parts := by
  induction parts with
  | nil => exact absurd rfl notEmpty
  | cons part rest ih =>
    rw [List.forall_mem_cons] at clean
    cases rest with
    | nil => rw [String.intercalate_singleton, split_of_not_mem clean.1]
    | cons next more =>
      rw [String.intercalate_cons_cons, split_slash_append _ _ clean.1, ih (List.cons_ne_nil _ _) clean.2]

end Text

namespace Path
variable {path base rest : String} {parts : List String}

section Parts

theorem component?_eq_none_iff {part : String} : component? part = none ↔ isSkipped part = true := by
  unfold component?
  split_ifs with skipped parent <;> simp [skipped]

theorem component?_eq_name_iff {part text : String} (isName : component? text = some (.name text)) :
    component? part = some (.name text) ↔ part = text := by
  constructor
  · intro same
    unfold component? at same
    split_ifs at same with skipped parent
    · cases same
    · exact Component.name.inj (Option.some.inj same)
  · rintro rfl
    exact isName

theorem filterMap_eq_nil_iff : parts.filterMap component? = [] ↔ ∀ part ∈ parts, isSkipped part = true := by
  simp only [List.filterMap_eq_nil_iff, component?_eq_none_iff]

theorem filterMap_dropWhile : (parts.dropWhile isSkipped).filterMap component? = parts.filterMap component? := by
  induction parts with
  | nil => rfl
  | cons part more ih =>
    rw [List.dropWhile_cons]
    split
    · next skipped => rw [ih, List.filterMap_cons_none (component?_eq_none_iff.2 skipped)]
    · rfl

theorem filterMap_withoutTail : (withoutTail parts).filterMap component? = parts.filterMap component? := by
  rw [withoutTail, List.filterMap_reverse, filterMap_dropWhile, List.filterMap_reverse, List.reverse_reverse]

theorem withoutTail_initial : withoutTail parts <+: parts := by
  have ending : parts.reverse.dropWhile isSkipped <:+ parts.reverse := List.dropWhile_suffix _
  rwa [← List.reverse_prefix, List.reverse_reverse] at ending

theorem head?_of_withoutTail {first : String} (starts : first ∈ (withoutTail parts).head?) : first ∈ parts.head? := by
  have starting : withoutTail parts <+: parts := withoutTail_initial
  obtain ⟨tail, joined⟩ := starting
  rw [← joined, List.head?_append, Option.mem_def.1 starts]
  rfl

theorem isSkipped_head_dropWhile {first : String} (starts : first ∈ (parts.dropWhile isSkipped).head?) :
    isSkipped first = false := by
  have tested := List.head?_dropWhile_not isSkipped parts
  rw [Option.mem_def.1 starts] at tested
  simpa using tested

theorem isSkipped_getLast_withoutTail {last : String} (ends : last ∈ (withoutTail parts).getLast?) :
    isSkipped last = false := by
  rw [withoutTail, List.getLast?_reverse] at ends
  exact isSkipped_head_dropWhile ends

theorem filterMap_dropComponents {count : Nat} :
    (dropComponents count parts).filterMap component? = (parts.filterMap component?).drop count := by
  induction count, parts using dropComponents.induct with
  | case1 parts => rw [dropComponents, List.drop_zero]
  | case2 count => rfl
  | case3 count part rest skipped ih =>
    rw [dropComponents, if_pos skipped, ih, List.filterMap_cons_none (component?_eq_none_iff.2 skipped)]
  | case4 count part rest kept ih =>
    obtain ⟨component, isComponent⟩ := Option.ne_none_iff_exists'.1 (mt component?_eq_none_iff.1 kept)
    rw [dropComponents, if_neg kept, ih, List.filterMap_cons_some isComponent, List.drop_succ_cons]

theorem dropComponents_suffix {count : Nat} : dropComponents count parts <:+ parts := by
  induction count, parts using dropComponents.induct with
  | case1 parts =>
    unfold dropComponents
    exact List.suffix_refl _
  | case2 count => exact List.suffix_refl _
  | case3 count part rest skipped ih =>
    rw [dropComponents, if_pos skipped]
    exact ih.trans (List.suffix_cons _ _)
  | case4 count part rest kept ih =>
    rw [dropComponents, if_neg kept]
    exact ih.trans (List.suffix_cons _ _)

end Parts

section Components

theorem startsWith_iff : startsWith path base = true ↔ components base <+: components path := List.isPrefixOf_iff_prefix

theorem root_not_mem_parts : Component.root ∉ parts.filterMap component? := by
  intro member
  obtain ⟨part, -, isRoot⟩ := List.mem_filterMap.1 member
  unfold component? at isRoot
  split_ifs at isRoot with skipped parent <;> cases isRoot

theorem root_not_mem_tail (path : String) : Component.root ∉ (components path).tail := by
  rw [components]
  cases (layout path).lead with
  | root => exact root_not_mem_parts
  | current => exact root_not_mem_parts
  | none => exact fun member => root_not_mem_parts (List.mem_of_mem_tail member)

end Components

section Layouts

/-- What the parts of a path keep to, so that the path can be taken apart again: none of them has a slash, and the first
one of a path with no start of its own is not skipped. -/
structure Layout.Proper (layout : Layout) : Prop where
  clean : ∀ part ∈ layout.body, '/' ∉ part.toList
  starts : layout.lead = .none → ∀ first ∈ (withoutTail layout.body).head?, isSkipped first = false

theorem proper_layout (path : String) : (layout path).Proper := by
  have clean : ∀ part ∈ Text.split '/' path, '/' ∉ part.toList := fun part => Text.not_mem_of_mem_split
  unfold layout
  split
  · next next rest cut =>
    rw [cut] at clean
    exact ⟨fun part member => clean part (List.mem_cons_of_mem _ member), fun isNone => nomatch isNone⟩
  · next rest cut =>
    rw [cut] at clean
    exact ⟨fun part member => clean part (List.mem_cons_of_mem _ member), fun isNone => nomatch isNone⟩
  · next notRoot notCurrent =>
    refine ⟨clean, fun _ first starts => ?_⟩
    cases cut : Text.split '/' path with
    | nil =>
      rw [cut] at starts
      cases starts
    | cons part more =>
      rw [cut] at starts
      obtain rfl : part = first := Option.some.inj (head?_of_withoutTail starts)
      rw [Bool.eq_false_iff]
      intro skipped
      rw [isSkipped, Bool.or_eq_true, beq_iff_eq, beq_iff_eq] at skipped
      rcases skipped with rfl | rfl
      · cases more with
        | nil => cases starts
        | cons next rest => exact notRoot next rest cut
      · exact notCurrent more cut

theorem layout_intercalate (first : String) (more : List String) (clean : ∀ part ∈ first :: more, '/' ∉ part.toList)
    (starts : isSkipped first = false) : layout ("/".intercalate (first :: more)) = ⟨.none, first :: more⟩ := by
  rw [isSkipped, Bool.or_eq_false_iff, beq_eq_false_iff_ne, beq_eq_false_iff_ne] at starts
  unfold layout
  rw [Text.split_intercalate (List.cons_ne_nil _ _) clean]
  split
  · next same => exact absurd (List.cons.inj same).1 starts.1
  · next same => exact absurd (List.cons.inj same).1 starts.2
  · rfl

/-- The components of a path that is put together are those of its start and its parts. -/
theorem components_render {layout : Layout} (proper : layout.Proper) :
    components layout.render = layout.lead.components ++ layout.body.filterMap component? := by
  obtain ⟨lead, body⟩ := layout
  have clean : ∀ part ∈ withoutTail body, '/' ∉ part.toList :=
    fun part member => proper.clean part (withoutTail_initial.subset member)
  rw [← filterMap_withoutTail]
  cases lead with
  | root =>
    have cut : Text.split '/' ("/" ++ "/".intercalate (withoutTail body)) =
        "" :: Text.split '/' ("/".intercalate (withoutTail body)) :=
      Text.split_slash_append "" _ List.not_mem_nil
    cases whole : withoutTail body with
    | nil => simp only [Layout.render, whole]; decide
    | cons first more =>
      rw [whole] at clean
      rw [whole, Text.split_intercalate (List.cons_ne_nil _ _) clean] at cut
      simp only [components, layout, Layout.render, whole, cut]
  | current =>
    have cut : Text.split '/' ("/".intercalate ("." :: withoutTail body)) = "." :: withoutTail body :=
      Text.split_intercalate (List.cons_ne_nil _ _) (List.forall_mem_cons.2 ⟨by decide, clean⟩)
    simp only [components, layout, Layout.render, cut]
  | none =>
    cases whole : withoutTail body with
    | nil => simp only [Layout.render, whole]; decide
    | cons first more =>
      have starts : isSkipped first = false := proper.starts rfl first (by rw [whole]; rfl)
      rw [whole] at clean
      simp only [components, Layout.render, whole, layout_intercalate first more clean starts]

theorem exists_proper_of_strip? (stripped : strip? path base = some rest) :
    ∃ layout : Layout, layout.Proper ∧ rest = layout.render ∧
      components path = components base ++ (layout.lead.components ++ layout.body.filterMap component?) := by
  unfold strip? at stripped
  split at stripped
  · cases stripped
  next within =>
  have follows : components base <+: components path := startsWith_iff.1 (by simpa using within)
  cases own : components base with
  | nil =>
    rw [own] at stripped
    exact ⟨layout path, proper_layout path, (Option.some.inj stripped).symm, rfl⟩
  | cons first others =>
    rw [own] at stripped follows
    refine ⟨_, ⟨fun part member => ?_, fun _ => ?_⟩, (Option.some.inj stripped).symm, ?_⟩
    · have kept := (List.dropWhile_suffix isSkipped).subset member
      exact (proper_layout path).clean part (dropComponents_suffix.subset kept)
    · exact fun part starts => isSkipped_head_dropWhile (head?_of_withoutTail starts)
    · rw [filterMap_dropWhile, filterMap_dropComponents, ← List.prefix_iff_eq_append.1 follows]
      unfold components
      cases (layout path).lead <;> rfl

end Layouts

theorem isSome_strip?_iff : (strip? path base).isSome ↔ components base <+: components path := by
  rw [← startsWith_iff, strip?]
  cases startsWith path base with
  | false => simp
  | true => cases components base <;> simp

/-- What is left of a path has the components that follow those of the other path. -/
theorem components_of_strip? (stripped : strip? path base = some rest) :
    components path = components base ++ components rest := by
  obtain ⟨layout, proper, rfl, parts⟩ := exists_proper_of_strip? stripped
  rw [components_render proper, parts]

section Name
variable {name : String}

theorem isSkipped_of_isName (isName : component? name = some (.name name)) : isSkipped name = false := by
  rw [Bool.eq_false_iff, ne_eq, ← component?_eq_none_iff, isName]
  exact Option.some_ne_none _

theorem components_name (clean : '/' ∉ name.toList) (isName : component? name = some (.name name)) :
    components name = [.name name] := by
  have taken := layout_intercalate name [] (by simpa using clean) (isSkipped_of_isName isName)
  rw [String.intercalate_singleton] at taken
  rw [components, taken, List.filterMap_cons_some isName]
  rfl

/-- Parts whose ends are not skipped and that have one component are one part. -/
theorem withoutTail_eq_singleton (starts : ∀ first ∈ (withoutTail parts).head?, isSkipped first = false)
    (isName : component? name = some (.name name)) (only : parts.filterMap component? = [.name name]) :
    withoutTail parts = [name] := by
  rw [← filterMap_withoutTail] at only
  have ends : ∀ last ∈ (withoutTail parts).getLast?, isSkipped last = false := fun _ => isSkipped_getLast_withoutTail
  cases whole : withoutTail parts with
  | nil =>
    rw [whole] at only
    cases only
  | cons first more =>
    rw [whole] at starts ends only
    obtain ⟨component, isFirst⟩ := Option.ne_none_iff_exists'.1
      (mt component?_eq_none_iff.1 (Bool.eq_false_iff.1 (starts first rfl)))
    rw [List.filterMap_cons_some isFirst, List.cons.injEq, filterMap_eq_nil_iff] at only
    obtain rfl : first = name := (component?_eq_name_iff isName).1 (only.1 ▸ isFirst)
    cases more with
    | nil => rfl
    | cons next rest =>
      have member : (next :: rest).getLast (List.cons_ne_nil _ _) ∈ next :: rest := List.getLast_mem _
      rw [List.getLast?_cons_cons] at ends
      have kept := ends _ (List.getLast?_eq_some_getLast (List.cons_ne_nil next rest))
      rw [only.2 _ member] at kept
      cases kept

/-- One name is left of a path exactly if it is the only component that follows. -/
theorem strip?_eq_name_iff (clean : '/' ∉ name.toList) (isName : component? name = some (.name name)) :
    strip? path base = some name ↔ components path = components base ++ [.name name] := by
  constructor
  · intro stripped
    rw [components_of_strip? stripped, components_name clean isName]
  · intro follows
    obtain ⟨rest, stripped⟩ := Option.isSome_iff_exists.1 (isSome_strip?_iff.2 ⟨_, follows.symm⟩)
    obtain ⟨⟨lead, body⟩, proper, rfl, same⟩ := exists_proper_of_strip? stripped
    rw [follows, List.append_cancel_left_eq] at same
    cases lead with
    | root => cases same
    | current => cases same
    | none =>
      have single := withoutTail_eq_singleton (proper.starts rfl) isName same.symm
      rw [stripped, Layout.render]
      simp only [single, String.intercalate_singleton]

end Name

theorem stem?_of_strip? (stripped : strip? path base = some rest) (proper : components rest ≠ []) :
    stem? rest = stem? path := by
  rw [stem?, stem?, fileName?, fileName?, components_of_strip? stripped, List.getLast?_append,
    Option.or_of_isSome (by rwa [List.getLast?_isSome])]

end Path

end DomainFlow
