import DomainFlow.Proofs.ExtractedDomain

/-!
Which objects calls return. A call leaves the package if none of the functions that it was resolved to is written in the
package. What such a call returns is found over three kinds of edges and is listed once. An object was created at one
place at most, so no other call has returned it.
-/
namespace DomainFlow

theorem nodup_eraseDups {α : Type} [DecidableEq α] (list : List α) : list.eraseDups.Nodup := by
  -- What follows the first element is a shorter list, from which that element was taken out.
  induction size : list.length using Nat.strongRecOn generalizing list with
  | _ count ih =>
    cases list with
    | nil => simp
    | cons first rest =>
      have shorter : (rest.filter fun other => !other == first).length < count := by
        have filtered := List.length_filter_le (fun other => !other == first) rest
        rw [List.length_cons] at size
        omega
      rw [List.eraseDups_cons, List.nodup_cons]
      refine ⟨?_, ih _ shorter _ rfl⟩
      simp [List.mem_eraseDups]

namespace ObjectGraph
variable {graph : ObjectGraph} {document : Document} {site place id : NodeId}

/-- A place that defines a function of the package. A place in no known file does so only if the directory of the package
is not known either. -/
def WritesFunction (graph : ObjectGraph) (place : NodeId) : Prop :=
  ∃ ast, graph.ast? place = some ast ∧ ast.isArtificial = false ∧
    ast.type ∈ ["AST_FUNC_DECL", "AST_CLOSURE", "AST_METHOD", "AST_ARROW_FUNC"] ∧
    ((∃ file, graph.sourceFile? place = some file ∧ graph.context.isInsidePackage file = true) ∨
      graph.sourceFile? place = none ∧ graph.context.packageRoot = none)

/-- A call that requires no module and that was resolved to no function of the package. -/
structure LeavesPackage (graph : ObjectGraph) (site : NodeId) : Prop where
  calls : ∃ ast, graph.ast? site = some ast ∧ (ast.type = "AST_CALL" ∨ ast.type = "AST_METHOD_CALL") ∧
    "REQUIRE" ∉ ast.flags
  foreign : ∀ callee place, graph.Joins .astCallToFuncObj site callee → graph.Joins .objToAst callee place →
    ¬ graph.WritesFunction place

/-- An object that was created at a call and returned by a function that was called there. -/
structure ReturnsHere (graph : ObjectGraph) (site id : NodeId) : Prop where
  returned : ∃ callee, graph.Joins .astCallToFuncObj site callee ∧ graph.Joins .funcObjToRetVal callee id
  created : graph.Joins .objToAst id site

theorem definesPackageFunction_iff : graph.definesPackageFunction place = true ↔ graph.WritesFunction place := by
  unfold definesPackageFunction WritesFunction functionDefinitions
  cases graph.ast? place with
  | none => simp
  | some ast =>
    cases graph.sourceFile? place with
    | none => simp [and_assoc]
    | some file => simp [and_assoc]

theorem isLocalCall_iff (rules : graph.WellFormed) : graph.isLocalCall site = true ↔
    ∃ callee place, graph.Joins .astCallToFuncObj site callee ∧ graph.Joins .objToAst callee place ∧
      graph.WritesFunction place := by
  -- The definition that is looked up is the only one, since a callee is an object.
  have defined : ∀ {callee place}, graph.Joins .astCallToFuncObj site callee →
      (graph.definition? callee = some place ↔ graph.Joins .objToAst callee place) := by
    intro callee place called
    obtain ⟨node, found, kind⟩ := rules.target_kind called rfl
    exact definition?_eq_some_iff rules (isSome_object?_of_kind found kind)
  simp only [isLocalCall, List.any_eq_true, mem_outNeighbors]
  constructor
  · rintro ⟨callee, called, written⟩
    cases own : graph.definition? callee with
    | none => simp [own] at written
    | some place =>
      rw [own] at written
      exact ⟨callee, place, called, (defined called).1 own, definesPackageFunction_iff.1 written⟩
  · rintro ⟨callee, place, called, created, written⟩
    refine ⟨callee, called, ?_⟩
    rw [(defined called).2 created]
    exact definesPackageFunction_iff.2 written

theorem isCall_iff {ast : AstRecord} : isCall ast = true ↔
    (ast.type = "AST_CALL" ∨ ast.type = "AST_METHOD_CALL") ∧ "REQUIRE" ∉ ast.flags := by
  simp [isCall, AstRecord.hasFlag]

theorem mem_callSites (rules : graph.WellFormed) : site ∈ graph.callSites ↔ graph.LeavesPackage site := by
  have isSite : site ∈ graph.callSites ↔
      ∃ ast, graph.ast? site = some ast ∧ isCall ast = true ∧ graph.isLocalCall site = false := by
    simp only [callSites, List.mem_map, List.mem_filter, mem_places rules.distinct, Bool.and_eq_true, Bool.not_eq_true',
      ast?_eq_some_iff]
    constructor
    · rintro ⟨ast, ⟨found, calls, foreign⟩, rfl⟩
      exact ⟨ast, found, calls, foreign⟩
    · rintro ⟨ast, found, calls, foreign⟩
      obtain rfl : ast.id = site := id_of_node? found
      exact ⟨ast, ⟨found, calls, foreign⟩, rfl⟩
  have foreign : graph.isLocalCall site = false ↔ ∀ callee place, graph.Joins .astCallToFuncObj site callee →
      graph.Joins .objToAst callee place → ¬ graph.WritesFunction place := by
    rw [Bool.eq_false_iff, ne_eq, isLocalCall_iff rules]
    simp only [not_exists, not_and]
  rw [isSite]
  constructor
  · rintro ⟨ast, found, calls, leaves⟩
    exact ⟨⟨ast, found, isCall_iff.1 calls⟩, foreign.1 leaves⟩
  · rintro ⟨⟨ast, found, calls⟩, leaves⟩
    exact ⟨ast, found, isCall_iff.2 calls, foreign.2 leaves⟩

theorem mem_returnObjects : id ∈ graph.returnObjects site ↔ graph.ReturnsHere site id := by
  simp only [returnObjects, List.mem_eraseDups, List.mem_filter, List.mem_flatMap, mem_outNeighbors, List.contains_iff_mem,
    mem_inNeighbors]
  exact ⟨fun both => ⟨both.1, both.2⟩, fun both => ⟨both.1, both.2⟩⟩

theorem mem_callReturns (rules : graph.WellFormed) :
    id ∈ graph.callReturns ↔ ∃ site, graph.LeavesPackage site ∧ graph.ReturnsHere site id := by
  simp only [callReturns, List.mem_eraseDups, List.mem_flatMap, mem_callSites rules, mem_returnObjects]

/-- An object that some call returns was created at that call alone. -/
theorem ReturnsHere.site_eq (rules : graph.WellFormed) {other : NodeId} (here : graph.ReturnsHere site id)
    (there : graph.ReturnsHere other id) : site = other := by
  obtain ⟨node, found, kind⟩ := rules.source_kind here.created rfl
  have isObject : (graph.object? id).isSome := isSome_object?_of_kind found kind
  have atSite := (definition?_eq_some_iff rules isObject).2 here.created
  have atOther := (definition?_eq_some_iff rules isObject).2 there.created
  exact Option.some.inj (atSite.symm.trans atOther)

/-- The objects that calls return are listed once, and they are those that a function returned which was called at a
place that leaves the package. Each of them has one such place. -/
theorem call_returns_exact (valid : ofDocument document = .ok graph) :
    graph.callReturns.Nodup ∧
    (∀ id, id ∈ graph.callReturns ↔ ∃ site, graph.LeavesPackage site ∧ graph.ReturnsHere site id) ∧
    ∀ id ∈ graph.callReturns, ∃! site, graph.LeavesPackage site ∧ graph.ReturnsHere site id := by
  have rules := wellFormed_of_ofDocument valid
  refine ⟨nodup_eraseDups _, fun id => mem_callReturns rules, fun id returned => ?_⟩
  obtain ⟨site, leaves, here⟩ := (mem_callReturns rules).1 returned
  refine ⟨site, ⟨leaves, here⟩, ?_⟩
  rintro other ⟨-, there⟩
  exact there.site_eq rules here

/-- A version in which one function outside the package is called at two places, at one of them twice over, and a function
of the package is called beside it at a third. -/
def callingDocument : Document where
  packageRoot := some "/pkg"
  nodes := [.ast { id := 1, type := "AST_CALL" }, .ast { id := 2, type := "AST_METHOD_CALL" },
    .ast { id := 3, type := "AST_CALL" }, .ast { id := 4, type := "AST_CLOSURE", fileName := some "/pkg/main.js" },
    .object { id := 10 }, .object { id := 11 }, .object { id := 12 }, .object { id := 13 }, .object { id := 14 }]
  edges := [⟨1, 10, .astCallToFuncObj, none⟩, ⟨1, 10, .astCallToFuncObj, none⟩, ⟨2, 10, .astCallToFuncObj, none⟩,
    ⟨3, 10, .astCallToFuncObj, none⟩, ⟨3, 14, .astCallToFuncObj, none⟩, ⟨14, 4, .objToAst, none⟩,
    ⟨10, 11, .funcObjToRetVal, none⟩, ⟨10, 12, .funcObjToRetVal, none⟩, ⟨10, 13, .funcObjToRetVal, none⟩,
    ⟨11, 1, .objToAst, none⟩, ⟨12, 2, .objToAst, none⟩, ⟨13, 3, .objToAst, none⟩]

def callingGraph : ObjectGraph := ofParts callingDocument

theorem call_returns_exact_calling : ofDocument callingDocument = .ok callingGraph ∧
    callingGraph.callReturns = [11, 12] ∧ (∃! site, callingGraph.LeavesPackage site ∧ callingGraph.ReturnsHere site 11) ∧
    callingGraph.ReturnsHere 3 13 ∧ ¬ callingGraph.LeavesPackage 3 := by
  have valid : ofDocument callingDocument = .ok callingGraph := rfl
  have listed : callingGraph.callReturns = [11, 12] := by decide
  obtain ⟨-, exact, single⟩ := call_returns_exact valid
  have here : callingGraph.ReturnsHere 3 13 := mem_returnObjects.1 (by decide)
  refine ⟨valid, listed, single 11 (by rw [listed]; decide), here, fun leaves => ?_⟩
  have member := (exact 13).2 ⟨3, leaves, here⟩
  rw [listed] at member
  exact absurd member (by decide)

end ObjectGraph

end DomainFlow
