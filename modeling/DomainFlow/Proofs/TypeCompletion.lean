import DomainFlow.Package.Analysis
import DomainFlow.Proofs.NodeChange
import DomainFlow.Proofs.Provenance

/-!
Completed types of places. A data-flow graph has the types of places in a complete form, with the word that names them as
places. Calls and objects are sorted by the types as they stand in the document. So the types may be completed beforehand
if none of them is one for which calls and objects are looked through, written short.
-/
namespace DomainFlow

/-- The types that are looked for, without the word that makes them complete. -/
def shortTypes : List String :=
  ["CALL", "METHOD_CALL", "FUNC_DECL", "CLOSURE", "METHOD", "ARROW_FUNC", "TOPLEVEL", "ARRAY", "NEW"]

def AstRecord.completed (ast : AstRecord) : AstRecord := { ast with type := ObjectGraph.flowType ast.type }

def NodeRecord.completed : NodeRecord → NodeRecord
  | .ast record => .ast record.completed
  | other => other

def Document.completed (document : Document) : Document := { document with nodes := document.nodes.map NodeRecord.completed }

namespace ObjectGraph

def completed (graph : ObjectGraph) : ObjectGraph := graph.mapNodes NodeRecord.completed

/-- No place has one of the types that are looked for in its short form. -/
def SpelledOut (graph : ObjectGraph) : Prop := ∀ ast, NodeRecord.ast ast ∈ graph.nodes → ast.type ∉ shortTypes

section Types
variable {type short : String}

theorem contains_completed : Text.contains ("AST_" ++ type) "AST" = true := by
  rw [Text.contains, String.toList_append]
  rfl

theorem flowType_flowType : flowType (flowType type) = flowType type := by
  by_cases complete : Text.contains type "AST" = true
  · have same : flowType type = type := if_pos complete
    rw [same, same]
  · have shape : flowType type = "AST_" ++ type := if_neg complete
    rw [shape, flowType, if_pos contains_completed]

/-- Only the short form of a type turns into it. -/
theorem flowType_eq_iff (plain : type ∉ shortTypes) (listed : short ∈ shortTypes) :
    flowType type = "AST_" ++ short ↔ type = "AST_" ++ short := by
  have different : type ≠ short := fun same => plain (same ▸ listed)
  by_cases complete : Text.contains type "AST" = true
  · rw [flowType, if_pos complete]
  · have partly : type ≠ "AST_" ++ short := fun same => complete (same ▸ contains_completed)
    rw [flowType, if_neg complete, String.append_right_inj]
    exact iff_of_false different partly

theorem beq_flowType {text : String} (plain : type ∉ shortTypes) (tested : text ∈ shortTypes.map ("AST_" ++ ·)) :
    (flowType type == text) = (type == text) := by
  obtain ⟨short, listed, rfl⟩ := List.mem_map.mp tested
  rw [Bool.eq_iff_iff, beq_iff_eq, beq_iff_eq]
  exact flowType_eq_iff plain listed

end Types

section Records
variable {record : NodeRecord} {nodes : List NodeRecord} {ast : AstRecord}

@[simp] theorem object?_completed : record.completed.object? = record.object? := by
  cases record <;> rfl

@[simp] theorem name?_completed : record.completed.name? = record.name? := by
  cases record <;> rfl

@[simp] theorem ast?_completed : record.completed.ast? = record.ast?.map AstRecord.completed := by
  cases record <;> rfl

theorem keepsRules_completed : KeepsRules NodeRecord.completed where
  id record := by cases record <;> rfl
  kind record := by cases record <;> rfl
  moduleExports record := by cases record <;> rfl

theorem filterMap_ast?_completed :
    (nodes.map NodeRecord.completed).filterMap NodeRecord.ast? = (nodes.filterMap NodeRecord.ast?).map AstRecord.completed := by
  rw [List.filterMap_map, List.map_filterMap]
  exact congrArg (nodes.filterMap ·) (funext fun _ => ast?_completed)

theorem isCall_completed (plain : ast.type ∉ shortTypes) : isCall ast.completed = isCall ast := by
  have called : (ast.completed.type == "AST_CALL") = (ast.type == "AST_CALL") := beq_flowType plain (by decide)
  have calledMethod : (ast.completed.type == "AST_METHOD_CALL") = (ast.type == "AST_METHOD_CALL") :=
    beq_flowType plain (by decide)
  rw [isCall, called, calledMethod]
  rfl

theorem contains_functionDefinitions (plain : ast.type ∉ shortTypes) :
    functionDefinitions.contains ast.completed.type = functionDefinitions.contains ast.type := by
  have tested : ∀ text ∈ functionDefinitions, text ∈ shortTypes.map ("AST_" ++ ·) := by decide
  have same : ∀ text ∈ functionDefinitions, (ast.completed.type == text) = (ast.type == text) :=
    fun text member => beq_flowType plain (tested text member)
  simp only [functionDefinitions, List.mem_cons, List.not_mem_nil, or_false, forall_eq_or_imp, forall_eq] at same
  simp only [functionDefinitions, List.contains_cons, List.contains_nil, same]

end Records

section Graphs
variable {graph : ObjectGraph} {id : NodeId}

@[simp] theorem node?_completed : graph.completed.node? id = (graph.node? id).map NodeRecord.completed :=
  node?_mapNodes keepsRules_completed

@[simp] theorem ids_completed : graph.completed.ids = graph.ids := ids_mapNodes keepsRules_completed

@[simp] theorem ast?_graph_completed : graph.completed.ast? id = (graph.ast? id).map AstRecord.completed := by
  simp only [ast?, node?_completed]
  cases graph.node? id <;> simp

@[simp] theorem object?_graph_completed : graph.completed.object? id = graph.object? id := by
  simp only [object?, node?_completed]
  cases graph.node? id <;> simp

theorem propertyName?_completed : graph.completed.propertyName? id = graph.propertyName? id := by
  simp only [propertyName?, node?_completed]
  cases graph.node? id <;> simp

theorem enclosingFile?_completed {remaining : List NodeId} :
    graph.completed.enclosingFile? remaining id = graph.enclosingFile? remaining id := by
  rw [enclosingFile?.eq_def]
  fun_induction enclosingFile? graph remaining id with
  | case1 remaining current present missing => simp [present, missing]
  | case2 remaining current present ast found whole =>
    have wholeToo : ast.completed.hasFlag wholeFileFlag = true := whole
    simp [present, found, wholeToo]
    rfl
  | case3 remaining current present ast found inner top =>
    have innerToo : ¬ ast.completed.hasFlag wholeFileFlag = true := inner
    have topToo : (graph.completed.inNeighbors current .parentOf).head? = none := top
    simp [present, found, innerToo, topToo]
  | case4 remaining current present ast found inner parent enclosed ih =>
    have innerToo : ¬ ast.completed.hasFlag wholeFileFlag = true := inner
    have enclosedToo : (graph.completed.inNeighbors current .parentOf).head? = some parent := enclosed
    rw [← enclosingFile?.eq_def] at ih
    simp [present, found, innerToo, enclosedToo, ih]
  | case5 remaining current absent => simp [absent]

theorem sourceFile?_completed : graph.completed.sourceFile? id = graph.sourceFile? id := by
  rw [sourceFile?, sourceFile?, ast?_graph_completed, ids_completed, enclosingFile?_completed]
  cases graph.ast? id <;> rfl

theorem flowAst_completed {ast : AstRecord} : graph.completed.flowAst ast.completed = graph.flowAst ast := by
  have sameFile : graph.completed.sourceFile? ast.completed.id = graph.sourceFile? ast.id := sourceFile?_completed
  have sameType : flowType ast.completed.type = flowType ast.type := flowType_flowType
  rw [flowAst, sameFile, sameType]
  rfl

theorem typeByDefinition_completed {object : ObjectRecord} {place : NodeId} {ast : AstRecord} (plain : ast.type ∉ shortTypes) :
    graph.completed.typeByDefinition object place ast.completed = graph.typeByDefinition object place ast := by
  have array : (ast.completed.type == "AST_ARRAY") = (ast.type == "AST_ARRAY") := beq_flowType plain (by decide)
  have instantiated : (ast.completed.type == "AST_NEW") = (ast.type == "AST_NEW") := beq_flowType plain (by decide)
  have called : (ast.completed.type == "AST_METHOD_CALL") = (ast.type == "AST_METHOD_CALL") := beq_flowType plain (by decide)
  rw [typeByDefinition, array, instantiated, called]
  rfl

end Graphs

section SpelledOut
variable {graph : ObjectGraph} {id : NodeId} (spelledOut : graph.SpelledOut)
include spelledOut

theorem SpelledOut.of_ast? {ast : AstRecord} (isPlace : graph.ast? id = some ast) : ast.type ∉ shortTypes := by
  obtain ⟨record, found, isAst⟩ := Option.bind_eq_some_iff.mp isPlace
  cases record with
  | ast other =>
    cases isAst
    exact spelledOut ast (List.mem_of_find?_eq_some found)
  | _ => cases isAst

theorem definesPackageFunction_completed : graph.completed.definesPackageFunction id = graph.definesPackageFunction id := by
  rw [definesPackageFunction, definesPackageFunction, ast?_graph_completed]
  cases isPlace : graph.ast? id with
  | none => rfl
  | some ast =>
    have plain := spelledOut.of_ast? isPlace
    simp only [Option.map_some, contains_functionDefinitions plain, sourceFile?_completed]
    rfl

theorem callSites_completed : graph.completed.callSites = graph.callSites := by
  have localCalls : graph.completed.isLocalCall = graph.isLocalCall := by
    funext site
    have defines : graph.completed.definesPackageFunction = graph.definesPackageFunction :=
      funext fun _ => definesPackageFunction_completed spelledOut
    rw [isLocalCall, defines]
    rfl
  have kept : ∀ ast ∈ graph.nodes.filterMap NodeRecord.ast?,
      (isCall ast.completed && !graph.isLocalCall ast.completed.id) = (isCall ast && !graph.isLocalCall ast.id) := by
    intro ast member
    obtain ⟨record, isNode, isAst⟩ := List.mem_filterMap.mp member
    cases record with
    | ast other =>
      cases isAst
      rw [isCall_completed (spelledOut ast isNode)]
      rfl
    | _ => cases isAst
  have places : graph.completed.nodes.filterMap NodeRecord.ast? =
      (graph.nodes.filterMap NodeRecord.ast?).map AstRecord.completed := filterMap_ast?_completed
  rw [callSites, callSites, localCalls, places, List.filter_map, List.map_map]
  exact congrArg (List.map AstRecord.id) (List.filter_congr kept)

theorem callReturns_completed : graph.completed.callReturns = graph.callReturns := by
  rw [callReturns, callSites_completed spelledOut]
  rfl

theorem usableDefinition?_completed : graph.completed.usableDefinition? id =
    (graph.usableDefinition? id).map fun entry => (entry.1, entry.2.completed) := by
  have sameDefinition : graph.completed.definition? id = graph.definition? id := rfl
  rw [usableDefinition?, usableDefinition?, sameDefinition]
  cases graph.definition? id with
  | none => rfl
  | some place =>
    simp only [ast?_graph_completed, sourceFile?_completed]
    cases isPlace : graph.ast? place with
    | none => rfl
    | some ast =>
      have whole : (ast.completed.type == "AST_TOPLEVEL") = (ast.type == "AST_TOPLEVEL") :=
        beq_flowType (spelledOut.of_ast? isPlace) (by decide)
      have artificial : ast.completed.isArtificial = ast.isArtificial := rfl
      simp only [Option.map_some, whole, artificial]
      split <;> rfl

theorem classify_completed {returns : List NodeId} : graph.completed.classify returns id = graph.classify returns id := by
  have context : graph.completed.context = graph.context := rfl
  simp only [classify, object?_graph_completed, usableDefinition?_completed spelledOut, context]
  cases graph.object? id with
  | none => rfl
  | some object =>
    cases usable : graph.usableDefinition? id with
    | none => rfl
    | some entry =>
      have plain := spelledOut.of_ast? (of_usableDefinition? usable).2.1
      simp only [Option.map_some, typeByDefinition_completed plain]

theorem seeds_completed {listed : List NodeId} : graph.completed.seeds listed = graph.seeds listed := by
  have faults : graph.completed.exportFault? = graph.exportFault? := by
    funext id
    rw [exportFault?, exportFault?, node?_completed]
    cases graph.node? id <;> simp
  have objects : graph.completed.nodes.filterMap NodeRecord.object? = graph.nodes.filterMap NodeRecord.object? := by
    rw [completed, mapNodes, List.filterMap_map]
    exact congrArg (graph.nodes.filterMap ·) (funext fun _ => object?_completed)
  rw [seeds, seeds, faults, callReturns_completed spelledOut, exportedObjects, objects]
  rfl

theorem flowNode_completed {seeds : Seeds} {record : NodeRecord} :
    graph.completed.flowNode seeds record.completed = graph.flowNode seeds record := by
  cases record with
  | ast ast => exact flowAst_completed
  | object object =>
    have sameType : graph.completed.classify seeds.callReturns object.id = graph.classify seeds.callReturns object.id :=
      classify_completed spelledOut
    simp only [NodeRecord.completed, flowNode, flowObject, sameType]
    rfl
  | _ => rfl

theorem extractFrom_completed {seeds : Seeds} : graph.completed.extractFrom seeds = graph.extractFrom seeds := by
  have steps : graph.completed.flowSteps = graph.flowSteps := by
    funext id
    simp only [flowSteps, propertyName?_completed]
    rfl
  have order : graph.completed.flowOrder seeds = graph.flowOrder seeds := by
    have next : graph.completed.flowNext = graph.flowNext := by
      funext id
      rw [flowNext, steps, flowNext]
    rw [flowOrder, next, ids_completed, flowOrder]
  have places : graph.completed.nodes.filterMap NodeRecord.ast? =
      (graph.nodes.filterMap NodeRecord.ast?).map AstRecord.completed := filterMap_ast?_completed
  have only : graph.completed.placesOnly = graph.placesOnly := by
    rw [placesOnly, places, List.foldl_map]
    simp only [flowAst_completed]
    rfl
  have exports : graph.completed.exportEdges = graph.exportEdges := by
    rw [exportEdges, places, List.flatMap_map]
    rfl
  have added : graph.completed.addFlowNode seeds = graph.addFlowNode seeds := by
    funext flow id
    rw [addFlowNode, addFlowNode, node?_completed]
    cases graph.node? id with
    | none => rfl
    | some record => simp only [Option.map_some, flowNode_completed spelledOut]
  have joined : graph.completed.addFlowEdge seeds = graph.addFlowEdge seeds := by
    funext flow edge
    rw [addFlowEdge, addFlowEdge, added]
  rw [extractFrom, extractFrom, steps, order, only, exports, added, joined]

/-- Completing the types beforehand changes nothing, if none of those that are looked for is short. -/
theorem run_completed {options : AnalysisOptions} {metadata : Metadata} :
    VersionAnalysis.run options graph.completed metadata = VersionAnalysis.run options graph metadata := by
  have sameFlow : graph.completed.extractFrom = graph.extractFrom := funext fun _ => extractFrom_completed spelledOut
  rw [VersionAnalysis.run, VersionAnalysis.run, extract, extract, seeds_completed spelledOut, sameFlow]

end SpelledOut

end ObjectGraph

end DomainFlow
