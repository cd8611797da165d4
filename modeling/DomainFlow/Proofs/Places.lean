import DomainFlow.DataFlow.Extract

/-!
What is known about the places of the source depends on the places alone: on how they enclose each
other, on which objects were created at them, and on which functions were called there. Two graphs that
agree on these agree on files, on calls that leave the package, and on what modules export.
-/
namespace DomainFlow

namespace ObjectGraph

section Files
variable {first second : ObjectGraph} (sameAst : ∀ id, first.ast? id = second.ast? id)
  (sameParent : ∀ id, (first.inNeighbors id .parentOf).head? = (second.inNeighbors id .parentOf).head?)
include sameAst sameParent

theorem enclosingFile?_eq_of_perm {remaining others : List NodeId} {current : NodeId} (reordered : remaining.Perm others) :
    first.enclosingFile? remaining current = second.enclosingFile? others current := by
  rw [enclosingFile?.eq_def second others current]
  fun_induction enclosingFile? first remaining current generalizing others with
  | case1 remaining current present missing =>
    rw [sameAst] at missing
    simp [reordered.mem_iff.mp present, missing]
  | case2 remaining current present ast found whole =>
    rw [sameAst] at found
    simp [reordered.mem_iff.mp present, found, whole]
  | case3 remaining current present ast found inner top =>
    rw [sameAst] at found
    rw [sameParent] at top
    simp [reordered.mem_iff.mp present, found, inner, top]
  | case4 remaining current present ast found inner parent enclosed ih =>
    rw [sameAst] at found
    rw [sameParent] at enclosed
    rw [ih (reordered.erase current), ← enclosingFile?.eq_def]
    simp [reordered.mem_iff.mp present, found, inner, enclosed]
  | case5 remaining current absent =>
    rw [reordered.mem_iff] at absent
    simp [absent]

theorem sourceFile?_eq_of_perm (reordered : first.ids.Perm second.ids) {id : NodeId} :
    first.sourceFile? id = second.sourceFile? id := by
  simp only [sourceFile?, sameAst, enclosingFile?_eq_of_perm sameAst sameParent reordered]

end Files

/-- Two graphs in which objects come from the same places of the same files. -/
structure SameOrigins (first second : ObjectGraph) : Prop where
  context : first.context = second.context
  ast : ∀ id, first.ast? id = second.ast? id
  file : ∀ id, first.sourceFile? id = second.sourceFile? id
  definition : ∀ id, first.definition? id = second.definition? id

namespace SameOrigins
variable {first second : ObjectGraph} (same : SameOrigins first second)
include same

theorem definesPackageFunction_eq {place : NodeId} :
    first.definesPackageFunction place = second.definesPackageFunction place := by
  simp only [definesPackageFunction, same.ast, same.file, same.context]

theorem usableDefinition?_eq {id : NodeId} : first.usableDefinition? id = second.usableDefinition? id := by
  simp only [usableDefinition?, same.definition, same.ast, same.file]

theorem flowAst_eq {ast : AstRecord} : first.flowAst ast = second.flowAst ast := by
  simp only [flowAst, same.file, same.context]

end SameOrigins

/-- Two graphs with the same places, and with the same edges around them. -/
structure SamePlaces (first second : ObjectGraph) : Prop where
  context : first.context = second.context
  ids : first.ids = second.ids
  places : first.nodes.filterMap NodeRecord.ast? = second.nodes.filterMap NodeRecord.ast?
  ast : ∀ id, first.ast? id = second.ast? id
  parents : ∀ id, first.inNeighbors id .parentOf = second.inNeighbors id .parentOf
  definitions : ∀ id, first.outNeighbors id .objToAst = second.outNeighbors id .objToAst
  callees : ∀ id, first.outNeighbors id .astCallToFuncObj = second.outNeighbors id .astCallToFuncObj

namespace SamePlaces
variable {first second : ObjectGraph} (same : SamePlaces first second)
include same

theorem sameOrigins : SameOrigins first second where
  context := same.context
  ast := same.ast
  file _ := sourceFile?_eq_of_perm same.ast (fun id => congrArg List.head? (same.parents id)) (.of_eq same.ids)
  definition id := congrArg List.head? (same.definitions id)

theorem callSites_eq : first.callSites = second.callSites := by
  have localCalls : first.isLocalCall = second.isLocalCall := by
    funext site
    simp only [isLocalCall, same.callees, same.sameOrigins.definition, same.sameOrigins.definesPackageFunction_eq]
  rw [callSites, callSites, same.places, localCalls]

theorem exportEdges_eq : first.exportEdges = second.exportEdges := by
  rw [exportEdges, exportEdges, same.places]

end SamePlaces

end ObjectGraph

end DomainFlow
