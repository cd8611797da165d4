import DomainFlow.Proofs.ExtractedDomain
import DomainFlow.Proofs.PathComponents

/-!
What the place at which an object was created says about the domain of the object. The place is looked at twice: in the
object graph, where the type of the object is decided, and in the data-flow graph, where its domain is. The copy has a
completed type and a file that is seen from the directory of the package, and both can make a difference.
-/
namespace DomainFlow

namespace DataFlowGraph
variable {flow : DataFlowGraph} {id : NodeId} {object : FlowObject} {directory : Option String}

/-- The directory of modeled modules goes before everything but a domain that is given. -/
theorem objectDomain?_eq_or (unlabelled : object.trustDomain = none) : flow.objectDomain? directory id object =
    (builtinModule? directory ((flow.definition? id).bind FlowAst.fileName)).or (flow.objectDomain? none id object) := by
  have noDirectory : ∀ file, builtinModule? none file = none := fun file => rfl
  simp only [objectDomain?, unlabelled, noDirectory]
  cases builtinModule? directory ((flow.definition? id).bind FlowAst.fileName) <;> rfl

theorem isSome_objectDomain?_none_iff (unlabelled : object.trustDomain = none)
    (ownType : object.objectType = .static ∨ object.objectType = .container) :
    (flow.objectDomain? none id object).isSome ↔ isWritten object (flow.definition? id) = true := by
  have noDirectory : ∀ file, builtinModule? none file = none := fun file => rfl
  simp only [objectDomain?, unlabelled, noDirectory]
  rcases ownType with same | same <;> simp only [same] <;> split <;> simp_all

end DataFlowGraph

namespace ObjectGraph
variable {graph : ObjectGraph} {listed : List NodeId} {seeds : Seeds} {id place : NodeId} {object : ObjectRecord}
  {ast : AstRecord} {flow : DataFlowGraph} {document : Document}

section Copies

theorem exists_copy_of_object (rules : graph.WellFormed) (accepted : graph.seeds listed = .ok seeds)
    (needed : graph.Needed listed id) (isObject : graph.object? id = some object) :
    ∃ copy, (graph.extractFrom seeds).object? id = some copy ∧ copy.trustDomain = object.trustDomain ∧
      copy.valueType = object.valueType ∧ copy.nativeFunction = object.nativeFunction ∧
      (id ∉ graph.requireResults → copy.objectType = graph.classify graph.callReturns id) := by
  have same : object.id = id := id_of_node? (object?_eq_some_iff.1 isObject)
  have copied := node?_extractFrom rules accepted (.inr (.inl needed)) (object?_eq_some_iff.1 isObject)
  obtain ⟨-, rfl⟩ := seeds_eq_ok_iff.1 accepted
  refine ⟨_, by rw [DataFlowGraph.object?, copied]; rfl, rfl, rfl, rfl, fun notRequired => ?_⟩
  dsimp only
  rw [same, if_neg (by rwa [List.contains_iff_mem])]

theorem exists_copy_of_definition (rules : graph.WellFormed) (accepted : graph.seeds listed = .ok seeds)
    (needed : graph.Needed listed id) (created : graph.definition? id = some place) (isPlace : graph.ast? place = some ast) :
    ∃ copy, (graph.extractFrom seeds).definition? id = some copy ∧ (graph.flowAst ast).ast? = some copy ∧
      copy.fileName = (graph.sourceFile? place).map graph.context.relativize := by
  have same : ast.id = place := id_of_node? (ast?_eq_some_iff.1 isPlace)
  subst same
  refine ⟨_, ?_, rfl, rfl⟩
  rw [definition?_extractFrom rules accepted needed, created, Option.bind_some, isPlace, Option.bind_some]
  rfl

theorem flowType_eq_toplevel_iff {type : String} :
    flowType type = "AST_TOPLEVEL" ↔ type = "AST_TOPLEVEL" ∨ type = "TOPLEVEL" := by
  unfold flowType
  split
  · next complete =>
    have different : type ≠ "TOPLEVEL" := by
      rintro rfl
      exact absurd complete (by decide)
    simp [different]
  · next short =>
    have different : type ≠ "AST_TOPLEVEL" := by
      rintro rfl
      exact short (by decide)
    have completed : "AST_TOPLEVEL" = "AST_" ++ "TOPLEVEL" := by decide
    rw [completed, String.append_right_inj]
    simp [different]

end Copies

section Usable

/-- A place whose copy cannot make an object local though the place itself can: completing its type gives that of a
whole file, or its file is seen from the directory of the package under the name of the standard input. -/
def IsSpoiled (graph : ObjectGraph) (place : NodeId) (ast : AstRecord) : Prop :=
  ast.type = "TOPLEVEL" ∨ ∃ root file, graph.context.packageRoot = some root ∧ graph.sourceFile? place = some file ∧
    Path.components file = Path.components root ++ [.name "stdin"]

theorem of_usableDefinition? (usable : graph.usableDefinition? id = some (place, ast)) :
    graph.definition? id = some place ∧ graph.ast? place = some ast ∧ ast.isArtificial = false ∧
      ast.type ≠ "AST_TOPLEVEL" ∧ graph.sourceFile? place ≠ some "stdin" := by
  unfold usableDefinition? at usable
  cases created : graph.definition? id with
  | none => simp [created] at usable
  | some origin =>
    cases isPlace : graph.ast? origin with
    | none => simp [created, isPlace] at usable
    | some record =>
      simp only [created, isPlace] at usable
      split at usable
      · cases usable
      · next clean =>
        cases usable
        simp only [Bool.or_eq_true, beq_iff_eq, not_or, Bool.not_eq_true] at clean
        exact ⟨rfl, isPlace, clean.1.1, clean.1.2, clean.2⟩

/-- Objects have the types of what the package writes only by a place that can make them local. -/
theorem exists_usable_of_classify (isObject : graph.object? id = some object) (untyped : object.objectType = none)
    (ownType : graph.classify graph.callReturns id = .static ∨ graph.classify graph.callReturns id = .container) :
    ∃ place ast, graph.usableDefinition? id = some (place, ast) := by
  simp only [classify, isObject, untyped] at ownType
  cases fake : object.fakeArgument with
  | some argument => cases argument <;> simp [fake] at ownType
  | none =>
    cases usable : graph.usableDefinition? id with
    | some found => exact ⟨found.1, found.2, rfl⟩
    | none =>
      simp only [fake, usable] at ownType
      split_ifs at ownType <;> simp at ownType

theorem relativize_eq_stdin_iff {context : Context} {file : String} (named : file ≠ "stdin") :
    context.relativize file = "stdin" ↔
      ∃ root, context.packageRoot = some root ∧ Path.components file = Path.components root ++ [.name "stdin"] := by
  unfold Context.relativize
  cases context.packageRoot with
  | none => simp [named]
  | some root =>
    have only : Path.strip? file root = some "stdin" ↔ Path.components file = Path.components root ++ [.name "stdin"] :=
      Path.strip?_eq_name_iff (by decide) (by decide)
    simp only [Option.some.injEq, exists_eq_left', ← only]
    cases Path.strip? file root <;> simp [named]

theorem isUsable_copy_iff (usable : graph.usableDefinition? id = some (place, ast)) {copy : FlowAst}
    (copied : (graph.flowAst ast).ast? = some copy) : DataFlowGraph.isUsable copy = true ↔ ¬ graph.IsSpoiled place ast := by
  obtain ⟨-, isPlace, real, notWhole, notInput⟩ := of_usableDefinition? usable
  have same : ast.id = place := id_of_node? (ast?_eq_some_iff.1 isPlace)
  cases copied
  have file : (graph.sourceFile? place).map graph.context.relativize = some "stdin" ↔ ∃ root file,
      graph.context.packageRoot = some root ∧ graph.sourceFile? place = some file ∧
        Path.components file = Path.components root ++ [.name "stdin"] := by
    cases found : graph.sourceFile? place with
    | none => simp
    | some file =>
      have named : file ≠ "stdin" := fun same => notInput (by rw [found, same])
      simp [relativize_eq_stdin_iff named]
  simp only [DataFlowGraph.isUsable, real, same, IsSpoiled, ← file, Bool.not_eq_true', Bool.or_eq_false_iff,
    beq_eq_false_iff_ne, ne_eq, flowType_eq_toplevel_iff, notWhole, false_or, true_and, not_or]
  exact and_comm

theorem isSome_domain?_extractFrom_iff (rules : graph.WellFormed) (accepted : graph.seeds listed = .ok seeds)
    (needed : graph.Needed listed id) (isObject : graph.object? id = some object) (unlabelled : object.trustDomain = none)
    (notRequired : id ∉ graph.requireResults)
    (notNative : ¬(object.valueType = some "function" ∧ object.nativeFunction.isSome))
    (ownType : graph.classify graph.callReturns id = .static ∨ graph.classify graph.callReturns id = .container)
    (usable : graph.usableDefinition? id = some (place, ast)) (directory : Option String) :
    ((graph.extractFrom seeds).domain? directory id).isSome ↔
      (DataFlowGraph.builtinModule? directory ((graph.sourceFile? place).map graph.context.relativize)).isSome ∨
        ¬ graph.IsSpoiled place ast := by
  obtain ⟨created, isPlace, -⟩ := of_usableDefinition? usable
  obtain ⟨copy, isCopy, sameDomain, sameValue, sameNative, sameType⟩ := exists_copy_of_object rules accepted needed isObject
  obtain ⟨copyPlace, isCopyPlace, copied, sameFile⟩ := exists_copy_of_definition rules accepted needed created isPlace
  have copyType : copy.objectType = .static ∨ copy.objectType = .container := by rwa [sameType notRequired]
  have copyDomain : copy.trustDomain = none := sameDomain.trans unlabelled
  have written : DataFlowGraph.isWritten copy (some copyPlace) = true ↔ ¬ graph.IsSpoiled place ast := by
    have foreign : (object.valueType == some "function" && object.nativeFunction.isSome) = false := by
      rwa [Bool.eq_false_iff, ne_eq, Bool.and_eq_true, beq_iff_eq]
    rw [DataFlowGraph.isWritten, sameValue, sameNative, foreign, Option.all_some, Bool.not_false, Bool.true_and,
      isUsable_copy_iff usable copied]
  rw [DataFlowGraph.domain?, isCopy, Option.bind_some, DataFlowGraph.objectDomain?_eq_or copyDomain, Option.isSome_or,
    Bool.or_eq_true, DataFlowGraph.isSome_objectDomain?_none_iff copyDomain copyType, isCopyPlace, Option.bind_some,
    sameFile, written]

/-- An object whose type is one of those that the package writes has a domain exactly if it is a modeled module or the
copy of its place can make it local too. -/
theorem written_object_labelled_iff (valid : ofDocument document = .ok graph) (extracted : graph.extract listed = .ok flow)
    (needed : graph.Needed listed id) (isObject : graph.object? id = some object) (unlabelled : object.trustDomain = none)
    (untyped : object.objectType = none) (notRequired : id ∉ graph.requireResults)
    (notNative : ¬(object.valueType = some "function" ∧ object.nativeFunction.isSome))
    (ownType : graph.classify graph.callReturns id = .static ∨ graph.classify graph.callReturns id = .container)
    (directory : Option String) :
    ∃ place ast, graph.usableDefinition? id = some (place, ast) ∧
      ((flow.domain? directory id).isSome ↔
        (DataFlowGraph.builtinModule? directory ((graph.sourceFile? place).map graph.context.relativize)).isSome ∨
          ¬ graph.IsSpoiled place ast) := by
  obtain ⟨seeds, accepted, rfl⟩ := exists_seeds_of_extract extracted
  obtain ⟨place, ast, usable⟩ := exists_usable_of_classify isObject untyped ownType
  exact ⟨place, ast, usable, isSome_domain?_extractFrom_iff (wellFormed_of_ofDocument valid) accepted needed isObject
    unlabelled notRequired notNative ownType usable directory⟩

/-- A version that exports an object made of a literal, which stands in the given file. -/
def literalDocument (file : String) : Document where
  packageRoot := some "/pkg"
  nodes := [.ast { id := 1, type := "AST_ASSIGN", fileName := some file },
    .object { id := 10, valueType := some "object", isExported := true },
    .object { id := 11, valueType := some "string", code := some (.text "secret") }]
  edges := [⟨11, 1, .objToAst, none⟩, ⟨11, 10, .contributesTo, none⟩]

def literalGraph (file : String) : ObjectGraph := ofParts (literalDocument file)

theorem needed_literal (file : String) : (literalGraph file).Needed [] 11 := by
  have isObject : (literalGraph file).object? 10 = some { id := 10, valueType := some "object", isExported := true } := rfl
  have contributes : (literalGraph file).Joins .contributesTo 11 10 := ⟨none, List.mem_cons_of_mem _ List.mem_cons_self⟩
  exact .source (by decide) contributes (.exported isObject (.inl rfl))

theorem written_object_labelled_iff_main :
    ofDocument (literalDocument "/pkg/main.js") = .ok (literalGraph "/pkg/main.js") ∧
    (literalGraph "/pkg/main.js").classify (literalGraph "/pkg/main.js").callReturns 11 = .static ∧
    ∃ flow, (literalGraph "/pkg/main.js").extract [] = .ok flow ∧ (flow.domain? none 11).isSome := by
  have valid : ofDocument (literalDocument "/pkg/main.js") = .ok (literalGraph "/pkg/main.js") := rfl
  have isObject : (literalGraph "/pkg/main.js").object? 11 =
    some { id := 11, valueType := some "string", code := some (.text "secret") } := rfl
  have static : (literalGraph "/pkg/main.js").classify (literalGraph "/pkg/main.js").callReturns 11 = .static := by decide
  obtain ⟨place, ast, usable, labelled⟩ := written_object_labelled_iff valid rfl (needed_literal "/pkg/main.js") isObject
    rfl rfl (by decide) (by decide) (.inl static) none
  have own : (literalGraph "/pkg/main.js").usableDefinition? 11 =
    some (1, { id := 1, type := "AST_ASSIGN", fileName := some "/pkg/main.js" }) := by decide
  refine ⟨valid, static, _, rfl, labelled.2 (.inr ?_)⟩
  cases own.symm.trans usable
  rintro (type | ⟨root, file, isRoot, inFile, same⟩)
  · exact absurd type (by decide)
  · obtain rfl : "/pkg" = root := Option.some.inj isRoot
    obtain rfl : "/pkg/main.js" = file := Option.some.inj inFile
    exact absurd same (by decide)

/-- A literal in a file that is called like the standard input has a type of its own but no domain. -/
theorem literal_unlabelled_in_stdin :
    ofDocument (literalDocument "/pkg/stdin") = .ok (literalGraph "/pkg/stdin") ∧
    (literalGraph "/pkg/stdin").Needed [] 11 ∧
    (literalGraph "/pkg/stdin").object? 11 =
      some { id := 11, valueType := some "string", code := some (.text "secret") } ∧
    11 ∉ (literalGraph "/pkg/stdin").requireResults ∧
    (literalGraph "/pkg/stdin").classify (literalGraph "/pkg/stdin").callReturns 11 = .static ∧
    ∃ flow, (literalGraph "/pkg/stdin").extract [] = .ok flow ∧ flow.domain? none 11 = none := by
  have valid : ofDocument (literalDocument "/pkg/stdin") = .ok (literalGraph "/pkg/stdin") := rfl
  have isObject : (literalGraph "/pkg/stdin").object? 11 =
    some { id := 11, valueType := some "string", code := some (.text "secret") } := rfl
  have static : (literalGraph "/pkg/stdin").classify (literalGraph "/pkg/stdin").callReturns 11 = .static := by decide
  have usable : (literalGraph "/pkg/stdin").usableDefinition? 11 =
    some (1, { id := 1, type := "AST_ASSIGN", fileName := some "/pkg/stdin" }) := by decide
  have accepted : (literalGraph "/pkg/stdin").seeds [] = .ok ⟨[], [10], []⟩ := rfl
  have labelled := isSome_domain?_extractFrom_iff (wellFormed_of_ofDocument valid) accepted (needed_literal "/pkg/stdin")
    isObject rfl (by decide) (by decide) (.inl static) usable none
  refine ⟨valid, needed_literal _, isObject, by decide, static, _, extract_eq_of_seeds accepted, ?_⟩
  rw [← Option.not_isSome_iff_eq_none, labelled]
  rintro (modeled | clean)
  · cases modeled
  · exact clean (.inr ⟨"/pkg", "/pkg/stdin", rfl, rfl, by decide⟩)

end Usable

end ObjectGraph

section Modeled
variable {context : Context} {directory file name root : String}

/-- A file of the directory of modeled modules is found there too after the directory of the package was left out. -/
def Context.Recognises (context : Context) (directory file : String) : Prop :=
  ∀ root rest, context.packageRoot = some root → Path.components file = Path.components root ++ rest →
    rest ≠ [] ∧ Path.components directory <+: rest

theorem Context.relativize_cases (context : Context) (file : String) :
    (context.relativize file = file ∧
      ∀ root, context.packageRoot = some root → ¬ Path.components root <+: Path.components file) ∨
    ∃ root rest, context.packageRoot = some root ∧ Path.strip? file root = some rest ∧ context.relativize file = rest := by
  unfold Context.relativize
  cases context.packageRoot with
  | none => exact .inl ⟨rfl, fun root isRoot => nomatch isRoot⟩
  | some root =>
    dsimp only
    cases stripped : Path.strip? file root with
    | none =>
      refine .inl ⟨rfl, fun other isOther starts => ?_⟩
      cases isOther
      rw [← Path.isSome_strip?_iff, stripped] at starts
      cases starts
    | some rest => exact .inr ⟨root, rest, rfl, stripped, rfl⟩

theorem Context.recognises_iff_of_strip? {rest : String} (isRoot : context.packageRoot = some root)
    (stripped : Path.strip? file root = some rest) : context.Recognises directory file ↔
      Path.components rest ≠ [] ∧ Path.components directory <+: Path.components rest := by
  have joined := Path.components_of_strip? stripped
  constructor
  · intro recognised
    exact recognised root _ isRoot joined
  · intro follows other remaining isOther split
    cases isRoot.symm.trans isOther
    rwa [← List.append_cancel_left (joined.symm.trans split)]

/-- What is found in the directory of modeled modules after the directory of the package was left out. -/
theorem builtinModule?_relativize (context : Context) (within : Path.startsWith file directory = true)
    (hasStem : Path.stem? file = some name) :
    (context.Recognises directory file →
      DataFlowGraph.builtinModule? (some directory) (some (context.relativize file)) = some name) ∧
    (¬ context.Recognises directory file →
      DataFlowGraph.builtinModule? (some directory) (some (context.relativize file)) = none) := by
  rcases context.relativize_cases file with ⟨same, outside⟩ | ⟨root, rest, isRoot, stripped, same⟩
  · have recognised : context.Recognises directory file :=
      fun root rest isRoot joined => absurd ⟨rest, joined.symm⟩ (outside root isRoot)
    rw [same, DataFlowGraph.builtinModule?, if_pos within, hasStem]
    exact ⟨fun _ => rfl, fun missed => absurd recognised missed⟩
  · rw [same, Context.recognises_iff_of_strip? isRoot stripped, DataFlowGraph.builtinModule?]
    constructor
    · rintro ⟨proper, inside⟩
      rw [if_pos (Path.startsWith_iff.2 inside), Path.stem?_of_strip? stripped proper, hasStem]
    · intro missed
      split
      · next inside =>
        have nothing : Path.components rest = [] := by
          by_contra proper
          exact missed ⟨proper, Path.startsWith_iff.1 inside⟩
        rw [Path.stem?, Path.fileName?, nothing]
        rfl
      · rfl

/-- A file under the directory of the package is never found in a directory that starts at the root. -/
theorem Context.recognises_iff_of_isAbsolute (isRoot : context.packageRoot = some root) (proper : Path.components root ≠ [])
    (absolute : Path.isAbsolute directory = true) :
    context.Recognises directory file ↔ Path.startsWith file root = false := by
  rw [Bool.eq_false_iff, ne_eq, Path.startsWith_iff]
  constructor
  · rintro recognised ⟨rest, joined⟩
    obtain ⟨first, others, isFirst⟩ := List.exists_cons_of_ne_nil proper
    have starts : Path.Component.root ∈ Path.components directory := by
      rw [Path.components, of_decide_eq_true absolute]
      exact List.mem_cons_self
    have inRest := (recognised root rest isRoot joined.symm).2.subset starts
    apply Path.root_not_mem_tail file
    rw [← joined, isFirst]
    exact List.mem_append_right _ inRest
  · intro outside other rest isOther joined
    cases isRoot.symm.trans isOther
    exact absurd ⟨rest, joined.symm⟩ outside

end Modeled

namespace ObjectGraph
variable {graph : ObjectGraph} {listed : List NodeId} {seeds : Seeds} {id place : NodeId} {object : ObjectRecord}
  {flow : DataFlowGraph} {document : Document} {directory file name : String}

theorem exists_ast_of_definition? (rules : graph.WellFormed) (isObject : graph.object? id = some object)
    (created : graph.definition? id = some place) : ∃ ast, graph.ast? place = some ast := by
  have joined := (definition?_eq_some_iff rules (Option.isSome_of_eq_some isObject)).1 created
  obtain ⟨node, isNode, kind⟩ := rules.target_kind joined rfl
  exact Option.isSome_iff_exists.1 (isSome_ast?_of_kind isNode kind)

theorem domain?_extractFrom_of_file (rules : graph.WellFormed) (accepted : graph.seeds listed = .ok seeds)
    (needed : graph.Needed listed id) (isObject : graph.object? id = some object) (unlabelled : object.trustDomain = none)
    (created : graph.definition? id = some place) (inFile : graph.sourceFile? place = some file) (directory : String) :
    (graph.extractFrom seeds).domain? (some directory) id =
      (DataFlowGraph.builtinModule? (some directory) (some (graph.context.relativize file))).or
        ((graph.extractFrom seeds).domain? none id) := by
  obtain ⟨ast, isPlace⟩ := exists_ast_of_definition? rules isObject created
  obtain ⟨copy, isCopy, sameDomain, -⟩ := exists_copy_of_object rules accepted needed isObject
  obtain ⟨copyPlace, isCopyPlace, -, sameFile⟩ := exists_copy_of_definition rules accepted needed created isPlace
  rw [DataFlowGraph.domain?, DataFlowGraph.domain?, isCopy, Option.bind_some, Option.bind_some,
    DataFlowGraph.objectDomain?_eq_or (sameDomain.trans unlabelled), isCopyPlace, Option.bind_some, sameFile, inFile,
    Option.map_some]

/-- An object of a modeled module has the name of the module as its domain if the module is still recognised after the
directory of the package was left out. If not, its domain is the one that it has without modeled modules. Under an
absolute directory a module is recognised exactly if its file is not in the package. -/
theorem modeled_module_labelled_iff (valid : ofDocument document = .ok graph) (extracted : graph.extract listed = .ok flow)
    (needed : graph.Needed listed id) (isObject : graph.object? id = some object) (unlabelled : object.trustDomain = none)
    (created : graph.definition? id = some place) (inFile : graph.sourceFile? place = some file)
    (within : Path.startsWith file directory = true) (hasStem : Path.stem? file = some name) :
    (graph.context.Recognises directory file → flow.domain? (some directory) id = some name) ∧
    (¬ graph.context.Recognises directory file → flow.domain? (some directory) id = flow.domain? none id) ∧
    ∀ root, graph.context.packageRoot = some root → Path.components root ≠ [] → Path.isAbsolute directory = true →
      (graph.context.Recognises directory file ↔ Path.startsWith file root = false) := by
  obtain ⟨seeds, accepted, rfl⟩ := exists_seeds_of_extract extracted
  have labelled := domain?_extractFrom_of_file (wellFormed_of_ofDocument valid) accepted needed isObject unlabelled created
    inFile directory
  obtain ⟨found, missed⟩ := builtinModule?_relativize graph.context within hasStem
  refine ⟨fun recognised => ?_, fun unrecognised => ?_, fun root isRoot proper absolute => ?_⟩
  · rw [labelled, found recognised, Option.some_or]
  · rw [labelled, missed unrecognised, Option.none_or]
  · exact Context.recognises_iff_of_isAbsolute isRoot proper absolute

/-- A version whose directory is the given one and that exports a function of a modeled module. -/
def modeledDocument (root : String) : Document where
  packageRoot := some root
  nodes := [.ast { id := 1, type := "AST_CLOSURE", fileName := some "/opt/builtins/fs.js" },
    .object { id := 10, valueType := some "function", isExported := true }]
  edges := [⟨10, 1, .objToAst, none⟩]

def modeledGraph (root : String) : ObjectGraph := ofParts (modeledDocument root)

theorem needed_modeled (root : String) : (modeledGraph root).Needed [] 10 := by
  have isObject : (modeledGraph root).object? 10 = some { id := 10, valueType := some "function", isExported := true } := rfl
  exact .exported isObject (.inl rfl)

theorem modeled_module_labelled_iff_outside :
    ofDocument (modeledDocument "/srv") = .ok (modeledGraph "/srv") ∧
    Path.startsWith "/opt/builtins/fs.js" "/opt/builtins" = true ∧ Path.stem? "/opt/builtins/fs.js" = some "fs" ∧
    ∃ flow, (modeledGraph "/srv").extract [] = .ok flow ∧ flow.domain? (some "/opt/builtins") 10 = some "fs" := by
  have valid : ofDocument (modeledDocument "/srv") = .ok (modeledGraph "/srv") := rfl
  have isObject : (modeledGraph "/srv").object? 10 = some { id := 10, valueType := some "function", isExported := true } := rfl
  have within : Path.startsWith "/opt/builtins/fs.js" "/opt/builtins" = true := by decide
  have hasStem : Path.stem? "/opt/builtins/fs.js" = some "fs" := by decide
  obtain ⟨found, -, absolute⟩ := modeled_module_labelled_iff valid rfl (needed_modeled "/srv") isObject rfl rfl rfl within hasStem
  have recognised := (absolute "/srv" rfl (by decide) (by decide)).2 (by decide)
  exact ⟨valid, within, hasStem, _, rfl, found recognised⟩

/-- A modeled module under the directory of the package is not recognised. -/
theorem modeled_module_unlabelled_in_package :
    ofDocument (modeledDocument "/opt") = .ok (modeledGraph "/opt") ∧ (modeledGraph "/opt").Needed [] 10 ∧
    (modeledGraph "/opt").object? 10 = some { id := 10, valueType := some "function", isExported := true } ∧
    (modeledGraph "/opt").definition? 10 = some 1 ∧ (modeledGraph "/opt").sourceFile? 1 = some "/opt/builtins/fs.js" ∧
    Path.startsWith "/opt/builtins/fs.js" "/opt/builtins" = true ∧ Path.stem? "/opt/builtins/fs.js" = some "fs" ∧
    ∃ flow, (modeledGraph "/opt").extract [] = .ok flow ∧ flow.domain? (some "/opt/builtins") 10 ≠ some "fs" := by
  have valid : ofDocument (modeledDocument "/opt") = .ok (modeledGraph "/opt") := rfl
  have accepted : (modeledGraph "/opt").seeds [] = .ok ⟨[], [10], []⟩ := rfl
  have isObject : (modeledGraph "/opt").object? 10 = some { id := 10, valueType := some "function", isExported := true } := rfl
  have within : Path.startsWith "/opt/builtins/fs.js" "/opt/builtins" = true := by decide
  have hasStem : Path.stem? "/opt/builtins/fs.js" = some "fs" := by decide
  have rules := wellFormed_of_ofDocument valid
  have labelled := domain?_extractFrom_of_file rules accepted (needed_modeled "/opt") isObject rfl rfl rfl "/opt/builtins"
  have unrecognised : ¬ (modeledGraph "/opt").context.Recognises "/opt/builtins" "/opt/builtins/fs.js" := by
    rw [Context.recognises_iff_of_isAbsolute rfl (by decide) (by decide)]
    decide
  obtain ⟨copy, isCopy, noDomain, -, -, sameType⟩ := exists_copy_of_object rules accepted (needed_modeled "/opt") isObject
  have isOther : copy.objectType = .other := sameType (by decide)
  refine ⟨valid, needed_modeled _, isObject, rfl, rfl, within, hasStem, _, extract_eq_of_seeds accepted, ?_⟩
  rw [labelled, (builtinModule?_relativize _ within hasStem).2 unrecognised, Option.none_or, DataFlowGraph.domain?, isCopy,
    Option.bind_some]
  simp [DataFlowGraph.objectDomain?, noDomain, DataFlowGraph.builtinModule?, isOther]

end ObjectGraph

end DomainFlow
