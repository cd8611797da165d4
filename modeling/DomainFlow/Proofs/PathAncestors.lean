import DomainFlow.Proofs.PathComponents

/-!
The paths around a path. Each is an initial piece of its text and names fewer directories, from the inside out, until none
is left. What is named between slashes decides where a path leads, together with whether it starts at the root.
-/
namespace DomainFlow

namespace Text
variable {separator : Char}

theorem splitAt_ne_nil (separator : Char) (text : List Char) : splitAt separator text ≠ [] := by
  cases text with
  | nil => exact List.cons_ne_nil _ _
  | cons char rest =>
    rw [splitAt]
    split
    · exact List.cons_ne_nil _ _
    · split <;> exact List.cons_ne_nil _ _

theorem split_ne_nil (separator : Char) (text : String) : split separator text ≠ [] := by
  rw [split, ne_eq, List.map_eq_nil_iff]
  exact splitAt_ne_nil separator text.toList

theorem splitAt_append {first second : List Char} :
    splitAt separator (first ++ separator :: second) = splitAt separator first ++ splitAt separator second := by
  induction first with
  | nil => simp [splitAt]
  | cons char rest ih =>
    rw [List.cons_append, splitAt, ih, splitAt]
    by_cases same : char = separator
    · rw [if_pos same, if_pos same, List.cons_append]
    · obtain ⟨part, others, cut⟩ := List.exists_cons_of_ne_nil (splitAt_ne_nil separator rest)
      rw [if_neg same, if_neg same, cut]
      rfl

theorem split_append (first second : String) : split '/' (first ++ "/" ++ second) = split '/' first ++ split '/' second := by
  have chars : (first ++ "/" ++ second).toList = first.toList ++ '/' :: second.toList := by simp
  rw [split, chars, splitAt_append, List.map_append, split, split]

theorem intercalate_splitAt {text : List Char} : [separator].intercalate (splitAt separator text) = text := by
  induction text with
  | nil => rfl
  | cons char rest ih =>
    obtain ⟨part, others, cut⟩ := List.exists_cons_of_ne_nil (splitAt_ne_nil separator rest)
    rw [cut] at ih
    rw [splitAt, cut]
    by_cases same : char = separator
    · rw [if_pos same, List.intercalate_cons_cons, ih, same]
      rfl
    · rw [if_neg same, ← ih]
      cases others with
      | nil => simp
      | cons next more => rw [List.intercalate_cons_cons, List.intercalate_cons_cons, List.cons_append, List.cons_append]

theorem intercalate_split (text : String) : "/".intercalate (split '/' text) = text := by
  have chars : (split '/' text).map String.toList = splitAt '/' text.toList := by
    rw [split, List.map_map, String.toList_comp_ofList, List.map_id]
  rw [← String.toList_inj, String.toList_intercalate, chars]
  exact intercalate_splitAt

theorem intercalate_initial {first second : List String} (initial : first <+: second) :
    ("/".intercalate first).toList <+: ("/".intercalate second).toList := by
  induction first generalizing second with
  | nil => exact List.nil_prefix
  | cons part rest ih =>
    obtain ⟨more, rfl⟩ := initial
    cases rest with
    | nil =>
      cases more with
      | nil => exact List.prefix_refl _
      | cons next others =>
        rw [List.cons_append, List.nil_append, String.intercalate_singleton, String.intercalate_cons_cons,
          String.toList_append, String.toList_append, List.append_assoc]
        exact List.prefix_append _ _
    | cons next others =>
      have later := ih (List.prefix_append (next :: others) more)
      rw [List.cons_append] at later
      rw [List.cons_append, List.cons_append, String.intercalate_cons_cons, String.intercalate_cons_cons, String.toList_append,
        String.toList_append (t := "/".intercalate (next :: (others ++ more)))]
      exact (List.prefix_append_right_inj _).mpr later

end Text

namespace Path
variable {path other : String} {parts initial : List String} {lead : Lead}

def named (parts : List String) : List String := parts.filter fun part => !isSkipped part

def names (path : String) : List String := named (Text.split '/' path)

section Names

theorem named_cons_of_isSkipped {part : String} (skipped : isSkipped part = true) : named (part :: parts) = named parts := by
  rw [named, List.filter_cons_of_neg (by simp [skipped]), named]

theorem named_cons {part : String} (counts : ¬isSkipped part = true) : named (part :: parts) = part :: named parts :=
  List.filter_cons_of_pos (by simpa using counts)

theorem names_eq_named_body : names path = named (layout path).body := by
  rw [names, layout]
  split
  · next cut => rw [cut, named_cons_of_isSkipped rfl]
  · next cut => rw [cut, named_cons_of_isSkipped rfl]
  · rfl

/-- The text that a component stands for, if it leads elsewhere. -/
def Component.part? : Component → Option String
  | .name text => some text
  | .parent => some ".."
  | _ => none

theorem filterMap_part? : (parts.filterMap component?).filterMap Component.part? = named parts := by
  induction parts with
  | nil => rfl
  | cons part rest ih =>
    by_cases skipped : isSkipped part = true
    · rw [List.filterMap_cons_none (component?_eq_none_iff.2 skipped), ih, named_cons_of_isSkipped skipped]
    · by_cases isParent : part = ".."
      · subst isParent
        rw [named_cons skipped, ← ih]
        rfl
      · have isName : component? part = some (.name part) := by
          rw [component?, if_neg skipped, if_neg (by simpa using isParent)]
        have own : (Component.name part).part? = some part := rfl
        rw [List.filterMap_cons_some isName, List.filterMap_cons_some own, ih, named_cons skipped]

theorem filterMap_part?_components : (components path).filterMap Component.part? = names path := by
  rw [components, List.filterMap_append, filterMap_part?, names_eq_named_body]
  cases (layout path).lead <;> rfl

theorem not_mem_names (noParent : Component.parent ∉ components path) : ".." ∉ names path := by
  rw [← filterMap_part?_components]
  intro member
  obtain ⟨component, isComponent, same⟩ := List.mem_filterMap.1 member
  cases component with
  | parent => exact noParent isComponent
  | name text =>
    obtain rfl : text = ".." := Option.some.inj same
    rcases List.mem_append.1 isComponent with atStart | later
    · revert atStart
      cases (layout path).lead <;> simp [Lead.components]
    · obtain ⟨part, -, isPart⟩ := List.mem_filterMap.1 later
      unfold component? at isPart
      split_ifs at isPart with skipped isParent
      · cases isPart
      · rw [Component.name.inj (Option.some.inj isPart)] at isParent
        exact isParent rfl
  | root => cases same
  | current => cases same

theorem isAbsolute_iff_root_mem : isAbsolute path = true ↔ Component.root ∈ components path := by
  rw [isAbsolute, components, decide_eq_true_eq, List.mem_append, or_iff_left root_not_mem_parts]
  cases (layout path).lead <;> simp [Lead.components]

end Names

section Around
variable {reversed : List String}

theorem Layout.Proper.of_initial (proper : Layout.Proper ⟨lead, parts⟩) (starts : initial <+: parts) :
    Layout.Proper ⟨lead, initial⟩ where
  clean part member := proper.clean part (starts.subset member)
  starts isNone first isFirst := by
    refine proper.starts isNone first ?_
    have some : withoutTail initial ≠ [] := by
      intro nothing
      rw [nothing] at isFirst
      cases isFirst
    -- The last part that is left of the initial ones counts, so something is left of all parts.
    have counts := isSkipped_getLast_withoutTail (List.getLast?_eq_some_getLast some)
    have more : withoutTail parts ≠ [] := by
      intro nothing
      have skipped : ∀ part ∈ parts, isSkipped part = true := by
        rw [← filterMap_eq_nil_iff, ← filterMap_withoutTail, nothing]
        rfl
      have member := withoutTail_initial.subset (List.getLast_mem some)
      rw [skipped _ (starts.subset member)] at counts
      cases counts
    obtain ⟨head, tail, whole⟩ := List.exists_cons_of_ne_nil more
    have isHead : head ∈ parts.head? := head?_of_withoutTail (by rw [whole]; rfl)
    have sameHead : first ∈ parts.head? := by
      obtain ⟨rest, rfl⟩ := starts
      rw [List.head?_append, Option.mem_def.1 (head?_of_withoutTail isFirst)]
      rfl
    rw [whole, ← Option.mem_unique isHead sameHead]
    rfl

theorem reverse_initial (part : String) (rest : List String) : rest.reverse <+: (part :: rest).reverse := by
  rw [List.reverse_cons]
  exact List.prefix_append _ _

theorem Layout.Proper.of_reverse {part : String} (proper : Layout.Proper ⟨lead, (part :: reversed).reverse⟩) :
    Layout.Proper ⟨lead, reversed.reverse⟩ := proper.of_initial (reverse_initial part reversed)

theorem names_render (proper : Layout.Proper ⟨lead, parts⟩) : names (Layout.render ⟨lead, parts⟩) = named parts := by
  rw [← filterMap_part?_components, components_render proper, List.filterMap_append, filterMap_part?]
  cases lead <;> rfl

theorem isAbsolute_render (proper : Layout.Proper ⟨lead, parts⟩) :
    isAbsolute (Layout.render ⟨lead, parts⟩) = true ↔ lead = .root := by
  rw [isAbsolute_iff_root_mem, components_render proper, List.mem_append, or_iff_left root_not_mem_parts]
  cases lead <;> simp [Lead.components]

theorem cases_of_mem_around (member : other ∈ around lead reversed) :
    (∃ initial, initial <+: reversed.reverse ∧ other = Layout.render ⟨lead, initial⟩) ∨ lead = .current ∧ other = "" := by
  induction reversed with
  | nil =>
    rw [around] at member
    split at member
    · next isCurrent => exact .inr ⟨isCurrent, List.mem_singleton.1 member⟩
    · cases member
  | cons part rest ih =>
    have shorter := reverse_initial part rest
    rw [around] at member
    split at member
    · exact (ih member).imp_left fun found => found.imp fun _ both => ⟨both.1.trans shorter, both.2⟩
    · rcases List.mem_cons.1 member with same | later
      · exact .inl ⟨rest.reverse, shorter, same⟩
      · exact (ih later).imp_left fun found => found.imp fun _ both => ⟨both.1.trans shorter, both.2⟩

theorem names_of_mem_around (proper : Layout.Proper ⟨lead, reversed.reverse⟩) (member : other ∈ around lead reversed) :
    names other <+: named reversed.reverse ∧ (isAbsolute other = true ↔ lead = .root) := by
  rcases cases_of_mem_around member with ⟨initial, starts, rfl⟩ | ⟨rfl, rfl⟩
  · have properToo := proper.of_initial starts
    rw [names_render properToo, isAbsolute_render properToo]
    exact ⟨starts.filter _, Iff.rfl⟩
  · exact ⟨List.nil_prefix, by decide⟩

theorem pairwise_around (proper : Layout.Proper ⟨lead, reversed.reverse⟩) :
    (around lead reversed).Pairwise fun inner outer => names outer <+: names inner := by
  induction reversed with
  | nil =>
    rw [around]
    split
    · exact List.pairwise_singleton _ _
    · exact List.Pairwise.nil
  | cons part rest ih =>
    have properRest := proper.of_reverse
    rw [around]
    split
    · exact ih properRest
    · refine List.pairwise_cons.2 ⟨fun outer member => ?_, ih properRest⟩
      rw [names_render properRest]
      exact (names_of_mem_around properRest member).1

theorem exists_mem_around (proper : Layout.Proper ⟨lead, reversed.reverse⟩) {wanted : List String}
    (starts : wanted <+: named reversed.reverse) (fewer : wanted ≠ named reversed.reverse) :
    ∃ other ∈ around lead reversed, names other = wanted := by
  induction reversed with
  | nil => exact absurd (List.prefix_nil.1 starts) fewer
  | cons part rest ih =>
    have properRest := proper.of_reverse
    rw [List.reverse_cons, named, List.filter_append] at starts fewer
    rw [around]
    split
    · next skipped =>
      rw [List.filter_cons_of_neg (by simp [skipped]), List.filter_nil, List.append_nil] at starts fewer
      exact ih properRest starts fewer
    · next counts =>
      rw [List.filter_cons_of_pos (by simpa using counts), List.filter_nil] at starts fewer
      have startsRest : wanted <+: named rest.reverse := (List.prefix_concat_iff.1 starts).resolve_left fewer
      by_cases same : wanted = named rest.reverse
      · exact ⟨_, List.mem_cons_self, (names_render properRest).trans same.symm⟩
      · obtain ⟨other, member, isWanted⟩ := ih properRest startsRest same
        exact ⟨other, List.mem_cons_of_mem _ member, isWanted⟩

theorem render_initial (starts : initial <+: (layout path).body) :
    (Layout.render ⟨(layout path).lead, initial⟩).toList <+: path.toList := by
  have whole := Text.intercalate_split path
  unfold layout at starts ⊢
  split at starts
  · next next rest cut =>
    rw [cut, String.intercalate_cons_cons] at whole
    have inside := Text.intercalate_initial (withoutTail_initial.trans starts)
    simp only [Layout.render]
    rw [← whole, String.toList_append, String.toList_append]
    exact (List.prefix_append_right_inj _).2 inside
  · next rest cut =>
    rw [cut] at whole
    simp only [Layout.render]
    rw [← whole]
    exact Text.intercalate_initial (List.cons_prefix_cons.2 ⟨rfl, withoutTail_initial.trans starts⟩)
  · next cut =>
    have inside := Text.intercalate_initial (withoutTail_initial.trans starts)
    rwa [whole] at inside

end Around

section Ancestors

theorem proper_reversed (path : String) : Layout.Proper ⟨(layout path).lead, (layout path).body.reverse.reverse⟩ := by
  rw [List.reverse_reverse]
  exact proper_layout path

theorem initial_of_mem_ancestors (member : other ∈ ancestors path) : other.toList <+: path.toList := by
  rcases List.mem_cons.1 member with same | around
  · exact same ▸ List.prefix_refl _
  · rcases cases_of_mem_around around with ⟨initial, starts, rfl⟩ | ⟨-, rfl⟩
    · rw [List.reverse_reverse] at starts
      exact render_initial starts
    · exact List.nil_prefix

theorem names_of_mem_ancestors (member : other ∈ ancestors path) :
    names other <+: names path ∧ isAbsolute other = isAbsolute path := by
  rcases List.mem_cons.1 member with same | around
  · rw [same]
    exact ⟨List.prefix_refl _, rfl⟩
  · obtain ⟨starts, absolute⟩ := names_of_mem_around (proper_reversed path) around
    rw [List.reverse_reverse, ← names_eq_named_body] at starts
    refine ⟨starts, ?_⟩
    rw [Bool.eq_iff_iff, absolute, isAbsolute, decide_eq_true_eq]

/-- Further out, less is named. -/
theorem pairwise_ancestors : (ancestors path).Pairwise fun inner outer => names outer <+: names inner :=
  List.pairwise_cons.2 ⟨fun _ around => (names_of_mem_ancestors (List.mem_cons_of_mem _ around)).1,
    pairwise_around (proper_reversed path)⟩

/-- The first path around a path for which something holds names the most of them. -/
theorem names_of_find? {holds : String → Bool} {nearest : String} (found : (ancestors path).find? holds = some nearest)
    (member : other ∈ ancestors path) (holdsToo : holds other = true) : names other <+: names nearest := by
  obtain ⟨-, before, after, whole, absent⟩ := List.find?_eq_some_iff_append.1 found
  have order : (before ++ nearest :: after).Pairwise fun inner outer => names outer <+: names inner :=
    whole ▸ pairwise_ancestors
  rw [whole] at member
  rcases List.mem_append.1 member with early | late
  · have missing := absent other early
    rw [holdsToo] at missing
    cases missing
  · rcases List.mem_cons.1 late with same | later
    · exact same ▸ List.prefix_refl _
    · exact (List.pairwise_cons.1 (List.pairwise_append.1 order).2.1).1 other later

/-- Every directory on the way to a path is that of a path around it. -/
theorem exists_mem_ancestors {wanted : List String} (starts : wanted <+: names path) :
    ∃ other ∈ ancestors path, names other = wanted := by
  by_cases same : wanted = names path
  · exact ⟨path, List.mem_cons_self, same.symm⟩
  · have whole : named (layout path).body.reverse.reverse = names path := by
      rw [List.reverse_reverse, names_eq_named_body]
    obtain ⟨other, member, isWanted⟩ := exists_mem_around (proper_reversed path) (whole ▸ starts) (whole ▸ same)
    exact ⟨other, List.mem_cons_of_mem _ member, isWanted⟩

end Ancestors

section Join
variable {name : String}

theorem isAbsolute_iff_head : isAbsolute path = true ↔ path.toList.head? = some '/' := by
  rw [isAbsolute, decide_eq_true_eq]
  constructor
  · intro isRoot
    have whole := Text.intercalate_split path
    unfold layout at isRoot
    split at isRoot
    · next next rest cut =>
      rw [cut, String.intercalate_cons_cons] at whole
      rw [← whole]
      simp
    · cases isRoot
    · cases isRoot
  · intro slash
    obtain ⟨rest, chars⟩ := List.head?_eq_some_iff.1 slash
    have whole : path = "" ++ "/" ++ String.ofList rest := by
      rw [← String.toList_inj, chars]
      simp
    obtain ⟨next, more, cut⟩ := List.exists_cons_of_ne_nil (Text.split_ne_nil '/' (String.ofList rest))
    have parts : Text.split '/' path = "" :: next :: more := by
      rw [whole, Text.split_append, cut]
      rfl
    simp only [layout, parts]

variable (clean : '/' ∉ name.toList)
include clean

theorem isAbsolute_of_clean : isAbsolute name = false := by
  rw [Bool.eq_false_iff, ne_eq, isAbsolute_iff_head]
  exact fun slash => clean (List.mem_of_head? slash)

/-- A name that is put behind a path stands after it, with or without a slash between them. -/
theorem join_cases (path : String) : (path = "" ∧ join path name = name) ∨
    (∃ front, path = front ++ "/" ∧ join path name = front ++ "/" ++ name) ∨
    path ≠ "" ∧ join path name = path ++ "/" ++ name := by
  rw [join, isAbsolute_of_clean clean]
  by_cases empty : path = ""
  · exact .inl ⟨empty, by simp [empty]⟩
  · by_cases slash : path.toList.getLast? = some '/'
    · obtain ⟨chars, whole⟩ := List.getLast?_eq_some_iff.1 slash
      have cut : path = String.ofList chars ++ "/" := by
        rw [← String.toList_inj, whole]
        simp
      exact .inr (.inl ⟨String.ofList chars, cut, by simp [slash, ← cut]⟩)
    · exact .inr (.inr ⟨empty, by simp [empty, slash]⟩)

/-- Its last part is the name, and the parts before it name what the path names. -/
theorem split_join (path : String) : ∃ parts, Text.split '/' (join path name) = parts ++ [name] ∧ named parts = names path := by
  rcases join_cases clean path with ⟨rfl, joined⟩ | ⟨front, rfl, joined⟩ | ⟨some, joined⟩
  · exact ⟨[], by rw [joined, Text.split_of_not_mem clean]; rfl, rfl⟩
  · refine ⟨Text.split '/' front, by rw [joined, Text.split_append, Text.split_of_not_mem clean], ?_⟩
    have ending : names (front ++ "/" ++ "") = named (Text.split '/' front) := by
      rw [names, Text.split_append, named, List.filter_append]
      exact List.append_nil _
    rw [← ending, String.append_empty]
  · exact ⟨Text.split '/' path, by rw [joined, Text.split_append, Text.split_of_not_mem clean], rfl⟩

theorem names_join (counts : ¬isSkipped name = true) (path : String) : names (join path name) = names path ++ [name] := by
  obtain ⟨parts, cut, same⟩ := split_join clean path
  have last : named [name] = [name] := named_cons counts
  rw [names, cut, ← same, named, List.filter_append]
  exact congrArg (named parts ++ ·) last

theorem isAbsolute_join : isAbsolute (join path name) = isAbsolute path := by
  have relative := isAbsolute_of_clean clean
  rcases join_cases clean path with ⟨rfl, joined⟩ | ⟨front, rfl, joined⟩ | ⟨some, joined⟩
  · rw [joined, relative]
    rfl
  · rw [joined, Bool.eq_iff_iff, isAbsolute_iff_head, isAbsolute_iff_head]
    simp
  · have chars : path.toList ≠ [] := fun nothing => some (String.toList_eq_nil_iff.1 nothing)
    obtain ⟨first, rest, whole⟩ := List.exists_cons_of_ne_nil chars
    rw [joined, Bool.eq_iff_iff, isAbsolute_iff_head, isAbsolute_iff_head]
    simp [whole]

theorem utf8ByteSize_join (path : String) : path.utf8ByteSize + name.utf8ByteSize ≤ (join path name).utf8ByteSize ∧
    (join path name).utf8ByteSize ≤ path.utf8ByteSize + 1 + name.utf8ByteSize := by
  have slash : "/".utf8ByteSize = 1 := rfl
  rcases join_cases clean path with ⟨rfl, joined⟩ | ⟨front, rfl, joined⟩ | ⟨-, joined⟩
  · have nothing : "".utf8ByteSize = 0 := rfl
    rw [joined]
    omega
  · have size := String.utf8ByteSize_append (s := front ++ "/") (t := name)
    rw [joined]
    omega
  · rw [joined, String.utf8ByteSize_append, String.utf8ByteSize_append]
    omega

end Join

end Path

end DomainFlow
