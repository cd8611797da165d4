import DomainFlow.Proofs.RelationKeys
import DomainFlow.Proofs.Spread
import DomainFlow.Proofs.TypeCompletion

/-!
Which short types of places matter. For each type that is looked for there is a small version in which only this type is
short, and which has other relations when the type is complete. Relations are found in a flow by an edge that contributes,
and are ruled out by the domains that objects have by themselves.
-/
namespace DomainFlow

namespace DataFlowGraph
variable {flow : DataFlowGraph} {relation : Relation} {id : NodeId}

/-- An object contributes to another one, and each has the domain of a relation at its end. -/
def Contributed (flow : DataFlowGraph) (relation : Relation) : Prop :=
  ∃ edge ∈ flow.edges, edge.kind = .contributesTo ∧ flow.domain? none edge.source = some relation.source ∧
    flow.domain? none edge.target = some relation.target ∧ flow.isWalkable edge.source = true ∧
    flow.isWalkable edge.target = true ∧ flow.isBuiltin edge.target = false

instance : Decidable (flow.Contributed relation) := inferInstanceAs (Decidable (∃ edge ∈ flow.edges, _))

/-- No domain is handed on, and a relation has an end that no object has which can show it. -/
def Lacks (flow : DataFlowGraph) (relation : Relation) : Prop :=
  (∀ edge ∈ flow.edges, flow.handsOn edge = false) ∧
    ((∀ id ∈ flow.ids, flow.domain? none id ≠ some relation.source) ∨
      ∀ id ∈ flow.ids, flow.isBuiltin id = false → flow.domain? none id ≠ some relation.target)

-- The nodes are listed, so that not all numbers are tried.
instance : Decidable (flow.Lacks relation) :=
  haveI : Decidable (∀ id ∈ flow.ids, flow.domain? none id ≠ some relation.source) := List.decidableBAll _ _
  haveI : Decidable (∀ id ∈ flow.ids, flow.isBuiltin id = false → flow.domain? none id ≠ some relation.target) :=
    List.decidableBAll _ _
  inferInstanceAs (Decidable (_ ∧ _))

theorem Contributed.mem (contributed : flow.Contributed relation) (distinct : flow.ids.Nodup)
    (informs : relation.isNoise = false) (spreads : relation.source ≠ Domain.dynamicRequire) :
    relation ∈ (VersionAnalysis.relationsOf flow none none).relationSet := by
  obtain ⟨edge, member, kind, isSource, isTarget, opens, enters, foreign⟩ := contributed
  have carries : flow.Carries edge.source edge.target := ⟨edge, member, rfl, rfl, .inl kind⟩
  have reaches : flow.DataReaches edge.source edge.target := ⟨opens, .single ⟨carries, enters⟩⟩
  refine (mem_relationMap distinct).mpr ⟨informs, .carried ?_ spreads reaches foreign (.inl ?_)⟩
  · rw [DirectDomains.get?_assign, isSource]
  · rw [DirectDomains.get?_assign, isTarget]

/-- Where no domain is handed on, the labels of a node are the domain that it has by itself. -/
theorem domain?_of_labels (still : ∀ edge ∈ flow.edges, flow.handsOn edge = false) {label : Domain}
    (labels : flow.Labels (.assign flow none) (.spread flow (.assign flow none)) id label) : flow.domain? none id = some label := by
  rcases labels with own | ⟨arrival, arrived, isLabel⟩
  · rwa [DirectDomains.get?_assign] at own
  · obtain ⟨isRoot, -, found⟩ := mem_arrivals_spread.mp arrived
    have follows := follows_of_lookup_spreadFrom found
    generalize arrival.path = path at follows isLabel
    cases follows with
    | start =>
      have alone : flow.compositeLabel arrival.domain (.start arrival.root) = arrival.domain := by
        simp [compositeLabel, PropagationPath.start]
      rw [isRoot, ← isLabel, alone]
    | extend _ leaves hands =>
      rw [still _ (mem_outEdges_source leaves).1] at hands
      cases hands

theorem Lacks.not_mem (lacks : flow.Lacks relation) (distinct : flow.ids.Nodup) (foreign : relation.source ≠ Domain.caller) :
    relation ∉ (VersionAnalysis.relationsOf flow none none).relationSet := by
  intro member
  obtain ⟨-, holds⟩ := (mem_relationMap distinct).mp member
  cases holds with
  | exported _ _ _ => exact foreign rfl
  | script given _ _ => cases given
  | carried isRoot _ _ shows labels =>
    rw [DirectDomains.get?_assign] at isRoot
    have isTarget := domain?_of_labels lacks.1 labels
    rcases lacks.2 with noSource | noTarget
    · exact noSource _ (mem_ids_of_domain? isRoot) isRoot
    · exact noTarget _ (mem_ids_of_domain? isTarget) shows isTarget

end DataFlowGraph

namespace ObjectGraph

section Short
variable {document : Document} {graph : ObjectGraph} {seeds : Seeds} {relation : Relation} {type site definition : String}

/-- Whether a relation is in the map of a version that is analysed without further information. -/
def Shows (graph : ObjectGraph) (relation : Relation) : Prop :=
  ∃ map, (VersionAnalysis.run .standard graph ⟨[], none⟩).map VersionAnalysis.relations = .ok map ∧ relation ∈ map.relationSet

theorem shows_iff (accepted : graph.seeds [] = .ok seeds) :
    graph.Shows relation ↔ relation ∈ (VersionAnalysis.relationsOf (graph.extractFrom seeds) none none).relationSet := by
  rw [Shows, VersionAnalysis.run_eq_ok_of_seeds accepted]
  constructor
  · rintro ⟨map, same, member⟩
    cases same
    exact member
  · exact fun member => ⟨_, rfl, member⟩

/-- A relation is seen in what is extracted from one document, and is missing in what is extracted from another. -/
@[mk_iff] structure Tells (relation : Relation) (shown hidden : Document) (seeds others : Seeds) : Prop where
  accepted : (ofParts shown).seeds [] = .ok seeds
  contributed : ((ofParts shown).extractFrom seeds).Contributed relation
  acceptedToo : (ofParts hidden).seeds [] = .ok others
  lacks : ((ofParts hidden).extractFrom others).Lacks relation

theorem Tells.shows_and_not_shows {shown hidden : Document} {others : Seeds} (tells : Tells relation shown hidden seeds others)
    (valid : ofDocument shown = .ok (ofParts shown)) (validToo : ofDocument hidden = .ok (ofParts hidden))
    (plain : relation.isNoise = false ∧ relation.source ≠ Domain.dynamicRequire ∧ relation.source ≠ Domain.caller) :
    (ofParts shown).Shows relation ∧ ¬ (ofParts hidden).Shows relation := by
  have distinct : ((ofParts shown).extractFrom seeds).ids.Nodup :=
    (copies_extractFrom (wellFormed_of_ofDocument valid).distinct).distinct
  have distinctToo : ((ofParts hidden).extractFrom others).ids.Nodup :=
    (copies_extractFrom (wellFormed_of_ofDocument validToo).distinct).distinct
  rw [shows_iff tells.accepted, shows_iff tells.acceptedToo]
  exact ⟨tells.contributed.mem distinct plain.1 plain.2.1, tells.lacks.not_mem distinctToo plain.2.2⟩

/-- A call whose function is created at another place, and which returns what gets data from a domain. -/
def siteDocument (site definition : String) : Document where
  nodes := [.ast { id := 1, type := site, fileName := some "main.js" },
    .ast { id := 2, type := definition, fileName := some "main.js" }, .object { id := 3 },
    .object { id := 4, trustDomain := some "net" }, .object { id := 5, trustDomain := some "fs" }]
  edges := [⟨1, 3, .astCallToFuncObj, none⟩, ⟨3, 4, .funcObjToRetVal, none⟩, ⟨4, 1, .objToAst, none⟩,
    ⟨3, 2, .objToAst, none⟩, ⟨5, 4, .contributesTo, none⟩]

/-- A text that contributes to an exported object of a domain. -/
def textDocument (type : String) : Document where
  nodes := [.ast { id := 1, type := type, fileName := some "main.js" }, .object { id := 2, code := some (.text "x") },
    .object { id := 3, trustDomain := some "net", isExported := true }]
  edges := [⟨2, 1, .objToAst, none⟩, ⟨2, 3, .contributesTo, none⟩]

/-- An exported object from the time when the builtin objects were set up, which gets data from a domain. -/
def earlyDocument (type : String) : Document where
  lastBuiltinId := some 2
  nodes := [.ast { id := 1, type := type, fileName := some "main.js" },
    .object { id := 2, trustDomain := some "net", isExported := true }, .object { id := 3, trustDomain := some "fs" }]
  edges := [⟨2, 1, .objToAst, none⟩, ⟨3, 2, .contributesTo, none⟩]

theorem valid_site : ofDocument (siteDocument site definition) = .ok (ofParts (siteDocument site definition)) := rfl

theorem valid_text : ofDocument (textDocument type) = .ok (ofParts (textDocument type)) := rfl

theorem valid_early : ofDocument (earlyDocument type) = .ok (ofParts (earlyDocument type)) := rfl

theorem flowOrder_site : (ofParts (siteDocument site definition)).flowOrder ⟨[4], [], []⟩ = [4, 5, 3] := by
  have ids : (ofParts (siteDocument site definition)).ids = [1, 2, 3, 4, 5] := rfl
  have next : (ofParts (siteDocument site definition)).flowNext 4 = [5, 3] ∧
    (ofParts (siteDocument site definition)).flowNext 5 = [] ∧ (ofParts (siteDocument site definition)).flowNext 3 = [] :=
    ⟨rfl, rfl, rfl⟩
  simp [flowOrder, depthFirst, Seeds.toList, ids, next]

theorem flowOrder_nil : graph.flowOrder ⟨[], [], []⟩ = [] := by
  simp [flowOrder, depthFirst, Seeds.toList]

theorem flowOrder_text : (ofParts (textDocument type)).flowOrder ⟨[], [3], []⟩ = [3, 2] := by
  have ids : (ofParts (textDocument type)).ids = [1, 2, 3] := rfl
  have next : (ofParts (textDocument type)).flowNext 3 = [2] ∧ (ofParts (textDocument type)).flowNext 2 = [] := ⟨rfl, rfl⟩
  simp [flowOrder, depthFirst, Seeds.toList, ids, next]

theorem flowOrder_early : (ofParts (earlyDocument type)).flowOrder ⟨[], [2], []⟩ = [2, 3] := by
  have ids : (ofParts (earlyDocument type)).ids = [1, 2, 3] := rfl
  have next : (ofParts (earlyDocument type)).flowNext 2 = [3] ∧ (ofParts (earlyDocument type)).flowNext 3 = [] := ⟨rfl, rfl⟩
  simp [flowOrder, depthFirst, Seeds.toList, ids, next]

/-- With a complete type, the place of creation makes the function one of the package, and the call does not leave it. -/
theorem site_differs_by_definition (listed : type ∈ ["FUNC_DECL", "CLOSURE", "METHOD", "ARROW_FUNC"]) :
    (ofParts (siteDocument "AST_CALL" type)).Shows ⟨"fs", "net"⟩ ∧
      ¬ (ofParts (siteDocument "AST_CALL" type)).completed.Shows ⟨"fs", "net"⟩ := by
  have tells : ∀ type ∈ ["FUNC_DECL", "CLOSURE", "METHOD", "ARROW_FUNC"], Tells ⟨"fs", "net"⟩ (siteDocument "AST_CALL" type)
      (siteDocument (flowType "AST_CALL") (flowType type)) ⟨[4], [], []⟩ ⟨[], [], []⟩ := by
    simp only [tells_iff, extractFrom, flowOrder_site, flowOrder_nil]
    decide +kernel
  exact (tells type listed).shows_and_not_shows valid_site valid_site (by decide)

/-- With a complete type, the place is a call. -/
theorem site_differs_by_type (listed : type ∈ ["CALL", "METHOD_CALL"]) :
    (ofParts (siteDocument type "AST_VAR")).completed.Shows ⟨"fs", "net"⟩ ∧
      ¬ (ofParts (siteDocument type "AST_VAR")).Shows ⟨"fs", "net"⟩ := by
  have tells : ∀ type ∈ ["CALL", "METHOD_CALL"], Tells ⟨"fs", "net"⟩ (siteDocument (flowType type) (flowType "AST_VAR"))
      (siteDocument type "AST_VAR") ⟨[4], [], []⟩ ⟨[], [], []⟩ := by
    simp only [tells_iff, extractFrom, flowOrder_site, flowOrder_nil]
    decide +kernel
  exact (tells type listed).shows_and_not_shows valid_site valid_site (by decide)

/-- With a complete type, the place makes the text a container or a result, which has another domain or none. -/
theorem text_differs (listed : type ∈ ["ARRAY", "NEW"]) :
    (ofParts (textDocument type)).Shows ⟨":local:x", "net"⟩ ∧
      ¬ (ofParts (textDocument type)).completed.Shows ⟨":local:x", "net"⟩ := by
  have tells : ∀ type ∈ ["ARRAY", "NEW"], Tells ⟨":local:x", "net"⟩ (textDocument type) (textDocument (flowType type))
      ⟨[], [3], []⟩ ⟨[], [3], []⟩ := by
    simp only [tells_iff, extractFrom, flowOrder_text]
    decide +kernel
  exact (tells type listed).shows_and_not_shows valid_text valid_text (by decide)

/-- With a complete type, the place is a whole file and says nothing, so that the object counts as a builtin one. -/
theorem early_differs : (ofParts (earlyDocument "TOPLEVEL")).Shows ⟨"fs", "net"⟩ ∧
    ¬ (ofParts (earlyDocument "TOPLEVEL")).completed.Shows ⟨"fs", "net"⟩ := by
  have tells : Tells ⟨"fs", "net"⟩ (earlyDocument "TOPLEVEL") (earlyDocument (flowType "TOPLEVEL")) ⟨[], [2], []⟩
      ⟨[], [2], []⟩ := by
    simp only [tells_iff, extractFrom, flowOrder_early]
    decide +kernel
  exact tells.shows_and_not_shows valid_early valid_early (by decide)

theorem completed_eq_of_flowType {ast : AstRecord} (same : flowType ast.type = ast.type) : ast.completed = ast := by
  rw [AstRecord.completed, same]

/-- The places of a call have two types at most. -/
theorem type_of_mem_site {ast : AstRecord} (member : NodeRecord.ast ast ∈ (siteDocument site definition).nodes) :
    ast.type = site ∨ ast.type = definition := by
  simp only [siteDocument, List.mem_cons, NodeRecord.ast.injEq, reduceCtorEq, or_false, List.not_mem_nil] at member
  rcases member with rfl | rfl
  · exact .inl rfl
  · exact .inr rfl

/-- Each of the types that are looked for makes a difference when only it is short. -/
theorem exists_differing (listed : type ∈ shortTypes) : ∃ document graph relation, ofDocument document = .ok graph ∧
    (∀ ast, NodeRecord.ast ast ∈ document.nodes → ast.completed = ast ∨ ast.type = type) ∧
    ¬ (graph.completed.Shows relation ↔ graph.Shows relation) := by
  have split : type ∈ ["FUNC_DECL", "CLOSURE", "METHOD", "ARROW_FUNC"] ∨ type ∈ ["CALL", "METHOD_CALL"] ∨
      type ∈ ["ARRAY", "NEW"] ∨ type = "TOPLEVEL" := by
    revert type
    decide
  rcases split with definition | call | creation | rfl
  · have differs := site_differs_by_definition definition
    refine ⟨siteDocument "AST_CALL" type, _, _, valid_site, fun ast member => ?_, fun same => differs.2 (same.mpr differs.1)⟩
    exact (type_of_mem_site member).imp_left fun isCall => completed_eq_of_flowType (by rw [isCall]; decide)
  · have differs := site_differs_by_type call
    refine ⟨siteDocument type "AST_VAR", _, _, valid_site, fun ast member => ?_, fun same => differs.2 (same.mp differs.1)⟩
    exact (type_of_mem_site member).symm.imp_left fun isVar => completed_eq_of_flowType (by rw [isVar]; decide)
  · have differs := text_differs creation
    refine ⟨textDocument type, _, _, valid_text, fun ast member => ?_, fun same => differs.2 (same.mpr differs.1)⟩
    simp only [textDocument, List.mem_cons, NodeRecord.ast.injEq, reduceCtorEq, or_false, List.not_mem_nil] at member
    exact .inr (member ▸ rfl)
  · have differs := early_differs
    refine ⟨earlyDocument "TOPLEVEL", _, _, valid_early, fun ast member => ?_, fun same => differs.2 (same.mpr differs.1)⟩
    simp only [earlyDocument, List.mem_cons, NodeRecord.ast.injEq, reduceCtorEq, or_false, List.not_mem_nil] at member
    exact .inr (member ▸ rfl)

end Short

end ObjectGraph

/-- Completing the types of places before the analysis instead of during it keeps the relations of all documents whose
incomplete types are of certain kinds, exactly if none of these is a type that is looked for, written short. -/
theorem type_completion_keeps_iff (kept : String → Prop) :
    (∀ (document : Document) (graph : ObjectGraph), ObjectGraph.ofDocument document = .ok graph →
      (∀ ast, NodeRecord.ast ast ∈ document.nodes → ast.completed = ast ∨ kept ast.type) →
      ObjectGraph.ofDocument document.completed = .ok graph.completed ∧
        ∀ (options : AnalysisOptions) (metadata : Metadata),
          (VersionAnalysis.run options graph.completed metadata).map VersionAnalysis.relations =
            (VersionAnalysis.run options graph metadata).map VersionAnalysis.relations) ↔
    ∀ type, kept type → type ∉ shortTypes := by
  constructor
  · intro keeps type isKept listed
    obtain ⟨document, graph, relation, valid, only, differs⟩ := ObjectGraph.exists_differing listed
    have onlyKept : ∀ ast, NodeRecord.ast ast ∈ document.nodes → ast.completed = ast ∨ kept ast.type := by
      intro ast member
      rcases only ast member with complete | isType
      · exact .inl complete
      · exact .inr (isType ▸ isKept)
    have same := (keeps document graph valid onlyKept).2 .standard ⟨[], none⟩
    refine differs ?_
    rw [ObjectGraph.Shows, ObjectGraph.Shows, same]
  · intro plain document graph valid only
    have spelledOut : graph.SpelledOut := by
      intro ast member
      obtain ⟨-, rfl⟩ := ObjectGraph.ofDocument_eq_ok_iff.mp valid
      rcases only ast member with complete | isKept
      · have changes : ∀ type ∈ shortTypes, ObjectGraph.flowType type ≠ type := by decide
        exact fun listed => changes ast.type listed (congrArg AstRecord.type complete)
      · exact plain ast.type isKept
    refine ⟨?_, fun options metadata => by rw [ObjectGraph.run_completed spelledOut]⟩
    rw [Document.completed, ObjectGraph.ofDocument_map ObjectGraph.keepsRules_completed, valid]
    rfl

theorem type_completion_keeps_branch :
    ObjectGraph.ofDocument (ObjectGraph.siteDocument "AST_CALL" "IF") =
      .ok (ObjectGraph.ofParts (ObjectGraph.siteDocument "AST_CALL" "IF")) ∧
    ∀ (options : AnalysisOptions) (metadata : Metadata),
      (VersionAnalysis.run options (ObjectGraph.ofParts (ObjectGraph.siteDocument "AST_CALL" "IF")).completed metadata).map
          VersionAnalysis.relations =
        (VersionAnalysis.run options (ObjectGraph.ofParts (ObjectGraph.siteDocument "AST_CALL" "IF")) metadata).map
          VersionAnalysis.relations := by
  have notListed : ∀ type, type = "IF" → type ∉ shortTypes := by
    intro type same
    rw [same]
    decide
  have only : ∀ ast, NodeRecord.ast ast ∈ (ObjectGraph.siteDocument "AST_CALL" "IF").nodes →
      ast.completed = ast ∨ ast.type = "IF" := by
    intro ast member
    rcases ObjectGraph.type_of_mem_site member with isCall | isBranch
    · exact .inl (ObjectGraph.completed_eq_of_flowType (by rw [isCall]; decide))
    · exact .inr isBranch
  have keeps := (type_completion_keeps_iff fun type => type = "IF").mpr notListed _ _ ObjectGraph.valid_site only
  exact ⟨ObjectGraph.valid_site, keeps.2⟩

/-- A call with a short type is overlooked, and with it the relation that it shows. -/
theorem short_call_overlooked :
    ObjectGraph.ofDocument (ObjectGraph.siteDocument "CALL" "AST_VAR") =
      .ok (ObjectGraph.ofParts (ObjectGraph.siteDocument "CALL" "AST_VAR")) ∧
    (VersionAnalysis.run .standard (ObjectGraph.ofParts (ObjectGraph.siteDocument "CALL" "AST_VAR")).completed ⟨[], none⟩).map
        VersionAnalysis.relations ≠
      (VersionAnalysis.run .standard (ObjectGraph.ofParts (ObjectGraph.siteDocument "CALL" "AST_VAR")) ⟨[], none⟩).map
        VersionAnalysis.relations := by
  refine ⟨ObjectGraph.valid_site, fun same => ?_⟩
  have listed : "CALL" ∈ ["CALL", "METHOD_CALL"] := List.mem_cons_self
  obtain ⟨shown, overlooked⟩ := ObjectGraph.site_differs_by_type listed
  rw [ObjectGraph.Shows, same] at shown
  exact overlooked shown

end DomainFlow
