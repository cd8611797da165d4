/-!
Walks over finite graphs. The nodes that were not met yet are given as a list, from which a node is
taken when it is met; so each node is met once and every walk ends, whatever cycles there are.
-/
namespace DomainFlow

/-- The nodes that a walk meets, in order. It takes the first pending node, and puts the next nodes of
a node in front of the pending ones. -/
def depthFirst {α : Type} [DecidableEq α] (next : α → List α) (remaining pending : List α) : List α :=
  match pending with
  | [] => []
  | node :: rest =>
    if _present : node ∈ remaining then
      node :: depthFirst next (remaining.erase node) (next node ++ rest)
    else depthFirst next remaining rest
termination_by (remaining.length, pending.length)
decreasing_by
  · have shorter := List.length_erase_of_mem _present
    have positive := List.length_pos_of_mem _present
    exact Prod.Lex.left _ _ (by omega)
  · exact Prod.Lex.right _ (by simp)

end DomainFlow
