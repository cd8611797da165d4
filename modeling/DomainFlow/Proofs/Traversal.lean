import Mathlib.Logic.Relation
import DomainFlow.Traversal

/-!
What a depth-first walk meets. It meets nodes that were not met before only; it meets every pending node
and every next node of a node that it meets. So it meets exactly the nodes that can be reached from the
pending ones, whatever order the next nodes come in.
-/
namespace DomainFlow

section DepthFirst
variable {α : Type} [DecidableEq α] {next : α → List α} {remaining pending : List α} {node follower : α}

theorem mem_remaining_of_mem_depthFirst (met : node ∈ depthFirst next remaining pending) :
    node ∈ remaining := by
  fun_induction depthFirst next remaining pending with
  | case1 => simp at met
  | case2 remaining first rest present ih =>
    rcases List.mem_cons.mp met with same | later
    · exact same ▸ present
    · exact List.mem_of_mem_erase (ih later)
  | case3 remaining first rest absent ih => exact ih met

theorem mem_depthFirst_of_pending (waiting : node ∈ pending) (fresh : node ∈ remaining) :
    node ∈ depthFirst next remaining pending := by
  fun_induction depthFirst next remaining pending with
  | case1 => simp at waiting
  | case2 remaining first rest present ih =>
    by_cases same : node = first
    · exact same ▸ List.mem_cons_self
    · have later : node ∈ rest := (List.mem_cons.mp waiting).resolve_left same
      exact List.mem_cons_of_mem _ (ih (List.mem_append_right _ later) ((List.mem_erase_of_ne same).mpr fresh))
  | case3 remaining first rest absent ih =>
    have different : node ≠ first := fun same => absent (same ▸ fresh)
    exact ih ((List.mem_cons.mp waiting).resolve_left different) fresh

/-- The nodes that are met are closed under next nodes. -/
theorem mem_depthFirst_of_next (met : node ∈ depthFirst next remaining pending)
    (follows : follower ∈ next node) (fresh : follower ∈ remaining) :
    follower ∈ depthFirst next remaining pending := by
  fun_induction depthFirst next remaining pending with
  | case1 => simp at met
  | case2 remaining first rest present ih =>
    by_cases same : follower = first
    · exact same ▸ List.mem_cons_self
    · have left : follower ∈ remaining.erase first := (List.mem_erase_of_ne same).mpr fresh
      refine List.mem_cons_of_mem _ ?_
      rcases List.mem_cons.mp met with atFirst | later
      · exact mem_depthFirst_of_pending (List.mem_append_left _ (atFirst ▸ follows)) left
      · exact ih later left
  | case3 remaining first rest absent ih => exact ih met fresh

/-- Every node that is met can be reached from a pending one. -/
theorem reachable_of_mem_depthFirst (met : node ∈ depthFirst next remaining pending) :
    ∃ start ∈ pending, Relation.ReflTransGen (fun first second => second ∈ next first) start node := by
  fun_induction depthFirst next remaining pending with
  | case1 => simp at met
  | case2 remaining first rest present ih =>
    rcases List.mem_cons.mp met with same | later
    · exact ⟨first, List.mem_cons_self, same ▸ .refl⟩
    · obtain ⟨start, waiting, reached⟩ := ih later
      rcases List.mem_append.mp waiting with follows | behind
      · exact ⟨first, List.mem_cons_self, .head follows reached⟩
      · exact ⟨start, List.mem_cons_of_mem _ behind, reached⟩
  | case3 remaining first rest absent ih =>
    obtain ⟨start, waiting, reached⟩ := ih met
    exact ⟨start, List.mem_cons_of_mem _ waiting, reached⟩

/-- A walk over nodes that next nodes never leave meets exactly what can be reached. -/
theorem mem_depthFirst_iff (known : ∀ start ∈ pending, start ∈ remaining)
    (closed : ∀ first ∈ remaining, ∀ second ∈ next first, second ∈ remaining) :
    node ∈ depthFirst next remaining pending ↔
      ∃ start ∈ pending, Relation.ReflTransGen (fun first second => second ∈ next first) start node := by
  constructor
  · exact reachable_of_mem_depthFirst
  · intro reachable
    obtain ⟨start, waiting, reached⟩ := reachable
    induction reached with
    | refl => exact mem_depthFirst_of_pending waiting (known start waiting)
    | tail _ follows ih =>
      exact mem_depthFirst_of_next ih follows (closed _ (mem_remaining_of_mem_depthFirst ih) _ follows)

end DepthFirst

end DomainFlow
