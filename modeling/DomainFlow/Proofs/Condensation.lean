import DomainFlow.Proofs.ExtractedDomain

/-!
Extraction loses no flow. Data moves between objects in steps, and the data-flow graph has one edge for
each step into an object that is needed. What is needed is closed against the steps, so every way of data
to such an object is a path of the data-flow graph, and every path comes from such a way.
-/
namespace DomainFlow

/-- A step of data from an object to the next one. -/
inductive Passage where
  | contribution (source target : NodeId)
  | parameter (function argument : NodeId)
  | result (function value : NodeId)
  | property (parent name child : NodeId)
deriving DecidableEq

namespace Passage

def source : Passage → NodeId
  | contribution source _ | parameter source _ | result source _ | property source _ _ => source

def target : Passage → NodeId
  | contribution _ target | parameter _ target | result _ target | property _ _ target => target

/-- Whether the step can be made in an object graph. The step to a property is made over its name. -/
def Occurs (graph : ObjectGraph) : Passage → Prop
  | contribution source target => graph.Joins .contributesTo source target
  | parameter function argument => graph.Joins .funcObjToSymParam function argument
  | result function value => graph.Joins .funcObjToRetVal function value
  | property parent name child => graph.HasProperty parent name child

/-- The edge that stands for the step in a data-flow graph. -/
def condensed (graph : ObjectGraph) : Passage → FlowEdge
  | contribution source target | parameter source target => ⟨source, target, .contributesTo, none⟩
  | result function value => ⟨function, value, .funcObjToRetVal, none⟩
  | property parent name child => ⟨parent, child, .parentToChild, graph.propertyName? name⟩

end Passage

/-- Steps that lead from one node to another, each from where the one before it has led. -/
def Linked {Step : Type} (source target : Step → NodeId) : NodeId → List Step → NodeId → Prop
  | start, [], finish => start = finish
  | start, step :: rest, finish => source step = start ∧ Linked source target (target step) rest finish

/-- A way of data through an object graph. -/
structure ObjectGraph.Route (graph : ObjectGraph) (start : NodeId) (steps : List Passage) (finish : NodeId) : Prop where
  linked : Linked Passage.source Passage.target start steps finish
  occurs : ∀ step ∈ steps, step.Occurs graph

/-- A path of a data-flow graph over edges on which data or domains move. -/
structure DataFlowGraph.Path (flow : DataFlowGraph) (start : NodeId) (edges : List FlowEdge) (finish : NodeId) : Prop where
  linked : Linked FlowEdge.source FlowEdge.target start edges finish
  present : ∀ edge ∈ edges, edge ∈ flow.edges
  moving : ∀ edge ∈ edges, edge.kind ∈ DataFlowGraph.movingKinds

namespace Passage
variable {graph : ObjectGraph} {listed : List NodeId} {step : Passage} {edge : FlowEdge}

@[simp] theorem source_condensed : (step.condensed graph).source = step.source := by
  cases step <;> rfl

@[simp] theorem target_condensed : (step.condensed graph).target = step.target := by
  cases step <;> rfl

theorem kind_condensed_mem_movingKinds : (step.condensed graph).kind ∈ DataFlowGraph.movingKinds := by
  cases step <;> simp [condensed, DataFlowGraph.movingKinds]

theorem Occurs.needed (occurs : step.Occurs graph) (needed : graph.Needed listed step.target) :
    graph.Needed listed step.source := by
  cases step with
  | contribution source target => exact .source (by decide) occurs needed
  | parameter function argument => exact .source (by decide) occurs needed
  | result function value => exact .source (by decide) occurs needed
  | property parent name child => exact .parent occurs needed

theorem Occurs.taken (occurs : step.Occurs graph) (needed : graph.Needed listed step.target) :
    graph.Taken listed (step.condensed graph) := by
  cases step with
  | contribution source target => exact .contribution (.inl rfl) occurs needed
  | parameter function argument => exact .contribution (.inr rfl) occurs needed
  | result function value => exact .result occurs needed
  | property parent name child => exact .property occurs (.parent occurs needed)

theorem exists_of_taken (taken : graph.Taken listed edge) (moving : edge.kind ∈ DataFlowGraph.movingKinds) :
    ∃ step : Passage, step.Occurs graph ∧ step.condensed graph = edge := by
  cases taken with
  | @contribution kind source target kinds joined needed =>
    rcases kinds with rfl | rfl
    · exact ⟨.contribution source target, joined, rfl⟩
    · exact ⟨.parameter source target, joined, rfl⟩
  | @result function value joined needed => exact ⟨.result function value, joined, rfl⟩
  | @property parent name child property needed => exact ⟨.property parent name child, property, rfl⟩
  | _ => simp [DataFlowGraph.movingKinds] at moving

end Passage

theorem linked_map_condensed {graph : ObjectGraph} {start finish : NodeId} {steps : List Passage} :
    Linked FlowEdge.source FlowEdge.target start (steps.map (Passage.condensed graph)) finish ↔
      Linked Passage.source Passage.target start steps finish := by
  induction steps generalizing start with
  | nil => rfl
  | cons step rest ih =>
    rw [List.map_cons, Linked, Linked, ih, Passage.source_condensed, Passage.target_condensed]

namespace ObjectGraph
variable {graph : ObjectGraph} {listed : List NodeId} {seeds : Seeds} {start finish id : NodeId} {steps : List Passage}
  {edges : List FlowEdge}

/-- On a way to an object that is needed, all objects are. -/
theorem Route.needed (route : graph.Route start steps finish) (needed : graph.Needed listed finish) :
    ∀ id ∈ start :: steps.map Passage.target, graph.Needed listed id := by
  obtain ⟨linked, occurs⟩ := route
  -- What follows on a step is needed first, since needs go against the steps.
  induction steps generalizing start with
  | nil =>
    intro id member
    rw [List.mem_singleton.mp member, linked]
    exact needed
  | cons step rest ih =>
    obtain ⟨rfl, linkedRest⟩ := linked
    obtain ⟨here, further⟩ := List.forall_mem_cons.mp occurs
    have behind := ih linkedRest further
    rw [List.map_cons, List.forall_mem_cons]
    exact ⟨here.needed (behind step.target List.mem_cons_self), behind⟩

theorem isSome_object?_extractFrom (rules : graph.WellFormed) (accepted : graph.seeds listed = .ok seeds)
    (needed : graph.Needed listed id) : ((graph.extractFrom seeds).object? id).isSome := by
  obtain ⟨object, isObject⟩ := Option.isSome_iff_exists.mp (needed.isObject rules)
  have copied := node?_extractFrom rules accepted (.inr (.inl needed)) (object?_eq_some_iff.mp isObject)
  rw [DataFlowGraph.object?, copied]
  rfl

theorem Route.path (rules : graph.WellFormed) (accepted : graph.seeds listed = .ok seeds)
    (route : graph.Route start steps finish) (needed : graph.Needed listed finish) :
    (graph.extractFrom seeds).Path start (steps.map (Passage.condensed graph)) finish := by
  have allNeeded := route.needed needed
  refine ⟨linked_map_condensed.mpr route.linked, ?_, ?_⟩
  · intro edge member
    obtain ⟨step, listedStep, rfl⟩ := List.mem_map.mp member
    have targetNeeded := allNeeded step.target (List.mem_cons_of_mem _ (List.mem_map_of_mem listedStep))
    apply (mem_edges_extractFrom_iff_taken rules accepted).mpr
    exact (route.occurs step listedStep).taken targetNeeded
  · intro edge member
    obtain ⟨step, -, rfl⟩ := List.mem_map.mp member
    exact Passage.kind_condensed_mem_movingKinds

theorem exists_steps_of_path (rules : graph.WellFormed) (accepted : graph.seeds listed = .ok seeds)
    (path : (graph.extractFrom seeds).Path start edges finish) :
    ∃ steps, graph.Route start steps finish ∧ steps.map (Passage.condensed graph) = edges := by
  obtain ⟨linked, present, moving⟩ := path
  induction edges generalizing start with
  | nil => exact ⟨[], ⟨linked, List.forall_mem_nil _⟩, rfl⟩
  | cons edge rest ih =>
    obtain ⟨rfl, linkedRest⟩ := linked
    obtain ⟨isEdge, areEdges⟩ := List.forall_mem_cons.mp present
    obtain ⟨moves, moveToo⟩ := List.forall_mem_cons.mp moving
    have taken := (mem_edges_extractFrom_iff_taken rules accepted).mp isEdge
    obtain ⟨step, occurs, rfl⟩ := Passage.exists_of_taken taken moves
    obtain ⟨steps, route, rfl⟩ := ih linkedRest areEdges moveToo
    refine ⟨step :: steps, ⟨⟨Passage.source_condensed.symm, ?_⟩, ?_⟩, rfl⟩
    · rw [← Passage.target_condensed]
      exact route.linked
    · exact List.forall_mem_cons.mpr ⟨occurs, route.occurs⟩

theorem needed_of_path (rules : graph.WellFormed) (accepted : graph.seeds listed = .ok seeds)
    (path : (graph.extractFrom seeds).Path start edges finish) (moves : edges ≠ []) : graph.Needed listed finish := by
  obtain ⟨linked, present, moving⟩ := path
  induction edges generalizing start with
  | nil => exact absurd rfl moves
  | cons edge rest ih =>
    obtain ⟨-, linkedRest⟩ := linked
    obtain ⟨isEdge, areEdges⟩ := List.forall_mem_cons.mp present
    obtain ⟨movesHere, moveToo⟩ := List.forall_mem_cons.mp moving
    by_cases atEnd : rest = []
    · subst atEnd
      have taken := (mem_edges_extractFrom_iff_taken rules accepted).mp isEdge
      exact linkedRest ▸ (taken.ends_needed movesHere).2
    · exact ih atEnd linkedRest areEdges moveToo

/-- The ways of data to an object that is needed are all kept: their objects are in the data-flow graph, and the
edges that stand for their steps are a path there. All paths on which something moves come from such ways. -/
theorem condensation_exact {document : Document} (valid : ofDocument document = .ok graph)
    (known : ∀ id ∈ listed, (graph.object? id).isSome) :
    ∃ flow, graph.extract listed = .ok flow ∧
      (∀ start steps finish, graph.Needed listed finish → graph.Route start steps finish →
        (∀ id ∈ start :: steps.map Passage.target, (flow.object? id).isSome) ∧
          flow.Path start (steps.map (Passage.condensed graph)) finish) ∧
      ∀ start edges finish, flow.Path start edges finish →
        ∃ steps, graph.Route start steps finish ∧ steps.map (Passage.condensed graph) = edges ∧
          (edges ≠ [] → graph.Needed listed finish) := by
  have rules := wellFormed_of_ofDocument valid
  have accepted : graph.seeds listed = .ok _ := seeds_eq_ok_iff.mpr ⟨known, rfl⟩
  refine ⟨_, extract_eq_of_seeds accepted, ?_, ?_⟩
  · intro start steps finish needed route
    refine ⟨fun id member => ?_, route.path rules accepted needed⟩
    exact isSome_object?_extractFrom rules accepted (route.needed needed id member)
  · intro start edges finish path
    obtain ⟨steps, route, stands⟩ := exists_steps_of_path rules accepted path
    exact ⟨steps, route, stands, needed_of_path rules accepted path⟩

theorem condensation_exact_leaking :
    ofDocument leakingDocument = .ok leakingGraph ∧ (∀ id ∈ [12], (leakingGraph.object? id).isSome) ∧
    leakingGraph.Needed [12] 12 ∧ leakingGraph.Route 10 [.property 10 11 12, .contribution 12 13, .contribution 13 12] 12 ∧
    ∃ flow, leakingGraph.extract [12] = .ok flow ∧ flow.Path 10 [⟨10, 12, .parentToChild, some "write"⟩,
      ⟨12, 13, .contributesTo, none⟩, ⟨13, 12, .contributesTo, none⟩] 12 := by
  have valid : ofDocument leakingDocument = .ok leakingGraph := rfl
  have known : ∀ id ∈ [12], (leakingGraph.object? id).isSome := List.forall_mem_singleton.mpr rfl
  have isObject : leakingGraph.object? 12 = some { id := 12 } := rfl
  have exported : leakingGraph.Needed [12] 12 := .exported isObject (.inr (by decide))
  have route : leakingGraph.Route 10 [.property 10 11 12, .contribution 12 13, .contribution 13 12] 12 := by
    refine ⟨⟨rfl, rfl, rfl, rfl⟩, ?_⟩
    rw [List.forall_mem_cons, List.forall_mem_cons, List.forall_mem_singleton]
    exact ⟨⟨⟨none, by decide⟩, ⟨none, by decide⟩⟩, ⟨none, by decide⟩, ⟨none, by decide⟩⟩
  obtain ⟨flow, extracted, keeps, -⟩ := condensation_exact valid known
  exact ⟨valid, known, exported, route, flow, extracted, (keeps 10 _ 12 exported route).2⟩

end ObjectGraph

end DomainFlow
