import Xgeny.AgentLoop.Proposal
import Xgeny.Frontier.Exact

set_option autoImplicit false

/-!
# Which proposals are well structured

The structure of a proposal is checked in two passes over its steps and a search for a cycle that
counts, for every key, how many dependencies of its step are not visited yet.

* `UsableStep`, `WellStructured`: what the check is for;
* `Graphed`, `ProposalIndex`: what the accounting of edges holds after the second pass;
* `ProposalVisit`: the invariant of the search;
* **`proposal_structure_exact`**: the check accepts exactly the well-structured proposals, and it
  does not panic.
-/

namespace Xgeny

/-- The existing step is visible to the planner, and it may still release its dependents. -/
structure UsableStep (state : RunState) (frontier : WorkFrontier) (context : PlanningContext)
    (stepId : String) : Prop where
  identifier : validExistingStepId stepId = true
  visible : ∃ summary ∈ context.payload.steps, summary.stepId = stepId
  known : ∃ existing, state.steps[stepId]? = some existing ∧ existing.status ≠ .failed ∧
    existing.status ≠ .manualRequired ∧
    (existing.status = .completed → receiptReleasesDependency existing = true)
  unblocked : ∀ blocked ∈ frontier.blocked, blocked.stepId ≠ stepId

/-- One proposed step depends on another. -/
def ProposalDependsOn (steps : List ProposedPlanStep) (a b : String) : Prop :=
  ∃ step ∈ steps, step.key = a ∧ .proposedStep b ∈ step.dependsOn

/-- A dependency that a step of the proposal may have. -/
def AllowedDependency (state : RunState) (frontier : WorkFrontier) (context : PlanningContext)
    (keys : List String) (stepKey : String) : PlanDependency → Prop
  | .existingStep stepId => UsableStep state frontier context stepId
  | .proposedStep key => key ≠ stepKey ∧ key ∈ keys

structure WellStructured (state : RunState) (frontier : WorkFrontier) (context : PlanningContext)
    (steps : List ProposedPlanStep) : Prop where
  keys : ∀ step ∈ steps, validProposalIdentifier step.key = true
  distinct : (steps.map ProposedPlanStep.key).Nodup
  objectives : ∀ step ∈ steps, validBoundedText step.objective maxAcceptedObjectiveBytes = true
  edges : (steps.map fun step => step.dependsOn.length).sum ≤ maxAcceptedPlanEdges
  once : ∀ step ∈ steps, step.dependsOn.Nodup
  allowed : ∀ step ∈ steps, ∀ dependency ∈ step.dependsOn,
    AllowedDependency state frontier context (steps.map ProposedPlanStep.key) step.key dependency
  acyclic : Acyclic (ProposalDependsOn steps)

/-! ## Keys -/

theorem checkProposedStep_eq_ok {keys keys' : BTreeSet String} {step : ProposedPlanStep} :
    checkProposedStep keys step = .ok keys' ↔
      validProposalIdentifier step.key = true ∧ step.key ∉ keys ∧
        validBoundedText step.objective maxAcceptedObjectiveBytes = true ∧
        keys.insert step.key = keys' := by
  simp only [checkProposedStep, Outcome.bind_eq_ok, Outcome.exists_unit, Outcome.failIf_eq_ok,
    BTreeSet.insertNew_eq_ok, Outcome.pure_eq_ok, Bool.not_eq_false]
  constructor
  · rintro ⟨hkey, _, ⟨hnew, rfl⟩, hobjective, rfl⟩
    exact ⟨hkey, hnew, hobjective, rfl⟩
  · rintro ⟨hkey, hnew, hobjective, rfl⟩
    exact ⟨hkey, _, ⟨hnew, rfl⟩, hobjective, rfl⟩

theorem calm_checkProposedStep {keys : BTreeSet String} {step : ProposedPlanStep} :
    Outcome.Calm (checkProposedStep keys step) := by
  simp [checkProposedStep, BTreeSet.insertNew]

theorem checkProposedSteps_eq_ok {steps : List ProposedPlanStep} {keys keys' : BTreeSet String} :
    Outcome.foldl checkProposedStep keys steps = .ok keys' ↔
      (∀ step ∈ steps, validProposalIdentifier step.key = true ∧
        validBoundedText step.objective maxAcceptedObjectiveBytes = true) ∧
        (∀ step ∈ steps, step.key ∉ keys) ∧ (steps.map ProposedPlanStep.key).Nodup ∧
        BTreeSet.insertAll ProposedPlanStep.key keys steps = keys' := by
  induction steps generalizing keys with
  | nil => simp [Outcome.foldl, BTreeSet.insertAll]
  | cons step steps ih =>
    simp only [Outcome.foldl, Outcome.bind_eq_ok, checkProposedStep_eq_ok, ih, List.forall_mem_cons,
      List.map_cons, List.nodup_cons, List.mem_map, not_exists, not_and]
    constructor
    · rintro ⟨_, ⟨hkey, hnew, hobjective, rfl⟩, hvalid, hfresh, hnodup, rfl⟩
      refine ⟨⟨⟨hkey, hobjective⟩, hvalid⟩, ⟨hnew, fun other hother hin => ?_⟩, ⟨?_, hnodup⟩, rfl⟩
      · exact hfresh other hother (BTreeSet.mem_insert_iff.mpr (Or.inr hin))
      · intro other hother heq
        exact hfresh other hother (BTreeSet.mem_insert_iff.mpr (Or.inl heq.symm))
    · rintro ⟨⟨⟨hkey, hobjective⟩, hvalid⟩, ⟨hnew, hfresh⟩, ⟨hne, hnodup⟩, rfl⟩
      refine ⟨_, ⟨hkey, hnew, hobjective, rfl⟩, hvalid, fun other hother hin => ?_, hnodup, rfl⟩
      rcases BTreeSet.mem_insert_iff.mp hin with heq | hin
      · exact hne other hother heq.symm
      · exact hfresh other hother hin

/-! ## Dependencies -/

section

variable {state : RunState} {frontier : WorkFrontier} {context : PlanningContext}
  {keys : BTreeSet String}

theorem checkExistingDependency_eq_ok {stepId : String} :
    checkExistingDependency state frontier context stepId = .ok () ↔
      UsableStep state frontier context stepId := by
  have hreason : ∀ existing : StepState,
      ¬ (dependencyReleaseBlockReason existing).any (fun reason => reason != .notCompleted) = true ↔
        existing.status ≠ .failed ∧ existing.status ≠ .manualRequired ∧
          (existing.status = .completed → receiptReleasesDependency existing = true) := by
    intro existing
    unfold dependencyReleaseBlockReason
    split
    · rename_i hreleases
      have hcompleted : existing.status = .completed := by
        simp only [receiptReleasesDependency, Bool.and_eq_true, beq_iff_eq] at hreleases
        exact hreleases.1.1
      simp [hcompleted, hreleases]
    · rename_i hreleases
      cases hstatus : existing.status <;> simp [hreleases]
  simp only [checkExistingDependency, Outcome.bind_eq_ok, Outcome.exists_unit, Outcome.failIf_eq_ok,
    Outcome.okOr_eq_ok, hreason, Bool.not_eq_false, not_not, List.any_eq_true, beq_iff_eq]
  constructor
  · rintro ⟨hid, hvisible, existing, hexisting, hstatus, hblocked⟩
    exact ⟨hid, hvisible, ⟨existing, hexisting, hstatus⟩, fun blocked hmem heq =>
      hblocked ⟨blocked, hmem, heq⟩⟩
  · rintro ⟨hid, hvisible, ⟨existing, hexisting, hstatus⟩, hblocked⟩
    refine ⟨hid, hvisible, existing, hexisting, hstatus, ?_⟩
    rintro ⟨blocked, hmem, heq⟩
    exact hblocked blocked hmem heq

/-- An edge of the proposal: the key of a step, with one of its dependencies. -/
abbrev ProposalEdge := String × PlanDependency

def PlanDependency.proposedKey? : PlanDependency → Option String
  | .existingStep _ => none
  | .proposedStep key => some key

/-- The proposed steps that a step depends on. -/
def parentsOf (edges : List ProposalEdge) (key : String) : List String :=
  edges.filterMap fun edge => if edge.1 = key then edge.2.proposedKey? else none

/-- The proposed steps that depend on a step. -/
def childrenOf (edges : List ProposalEdge) (key : String) : List String :=
  edges.filterMap fun edge => if edge.2.proposedKey? = some key then some edge.1 else none

/-- The accounting after some edges. -/
structure Graphed (keys : BTreeSet String) (edges : List ProposalEdge) (graph : ProposalGraph) :
    Prop where
  edgeCount : graph.edgeCount = edges.length
  indegree : ∀ key : String, graph.indegree[key]? =
    if key ∈ keys then some (parentsOf edges key).length else none
  children : ∀ key : String, graph.children[key]? =
    if key ∈ keys then some (childrenOf edges key) else none

theorem get_indexKeys {β : Type} {val : String → β} {key : String} :
    (BTreeMap.insertAll id val (∅ : BTreeMap String β) keys.toList)[key]? =
      if key ∈ keys then some (val key) else none := by
  have hnodup : (keys.toList.map id).Nodup := by
    rw [List.map_id]
    exact BTreeSet.nodup_toList keys
  by_cases hkey : key ∈ keys
  · rw [if_pos hkey]
    exact BTreeMap.get_insertAll_of_mem hnodup (Std.ExtTreeSet.mem_toList.mpr hkey)
  · rw [if_neg hkey, BTreeMap.get_insertAll_of_ne]
    · exact Std.ExtTreeMap.getElem?_empty
    · rintro x hx rfl
      exact hkey (Std.ExtTreeSet.mem_toList.mp hx)

theorem graphed_new : Graphed keys [] (.new keys) where
  edgeCount := rfl
  indegree _ := get_indexKeys
  children _ := get_indexKeys

theorem parentsOf_snoc {edges : List ProposalEdge} {stepKey key : String}
    {dependency : PlanDependency} : parentsOf (edges ++ [(stepKey, dependency)]) key =
      parentsOf edges key ++ if stepKey = key then dependency.proposedKey?.toList else [] := by
  rw [parentsOf, List.filterMap_append]
  congr 1
  by_cases hkey : stepKey = key
  · cases dependency <;> simp [hkey, PlanDependency.proposedKey?]
  · simp [hkey]

theorem childrenOf_snoc {edges : List ProposalEdge} {stepKey key : String}
    {dependency : PlanDependency} : childrenOf (edges ++ [(stepKey, dependency)]) key =
      childrenOf edges key ++ if dependency.proposedKey? = some key then [stepKey] else [] := by
  rw [childrenOf, List.filterMap_append]
  congr 1
  by_cases hkey : dependency.proposedKey? = some key <;> simp [hkey]

theorem Graphed.propose {edges : List ProposalEdge} {graph : ProposalGraph} {stepKey key : String}
    (h : Graphed keys edges graph) (hstep : stepKey ∈ keys) (hkey : key ∈ keys) :
    Graphed keys (edges ++ [(stepKey, .proposedStep key)])
      { edgeCount := graph.edgeCount + 1
        indegree := graph.indegree.insert stepKey ((parentsOf edges stepKey).length + 1)
        children := graph.children.insert key (childrenOf edges key ++ [stepKey]) } where
  edgeCount := by rw [h.edgeCount, List.length_append, List.length_singleton]
  indegree other := by
    rw [BTreeMap.get_insert, parentsOf_snoc]
    by_cases hother : stepKey = other
    · rw [if_pos hother, ← hother, if_pos hstep, if_pos rfl, List.length_append]
      rfl
    · rw [if_neg hother, h.indegree, if_neg hother, List.append_nil]
  children other := by
    rw [BTreeMap.get_insert, childrenOf_snoc]
    by_cases hother : key = other
    · rw [if_pos hother, ← hother, if_pos hkey, PlanDependency.proposedKey?, if_pos rfl]
    · rw [if_neg hother, h.children, PlanDependency.proposedKey?,
        if_neg fun heq => hother (Option.some.inj heq), List.append_nil]

theorem Graphed.exist {edges : List ProposalEdge} {graph : ProposalGraph} {stepKey stepId : String}
    (h : Graphed keys edges graph) : Graphed keys (edges ++ [(stepKey, .existingStep stepId)])
      { graph with edgeCount := graph.edgeCount + 1 } where
  edgeCount := by rw [h.edgeCount, List.length_append, List.length_singleton]
  indegree other := by
    rw [h.indegree, parentsOf_snoc]
    simp [PlanDependency.proposedKey?]
  children other := by
    rw [h.children, childrenOf_snoc]
    simp [PlanDependency.proposedKey?]

section

variable {edges : List ProposalEdge} {stepKey : String}
  {acc acc' : List PlanDependency × ProposalGraph} {dependency : PlanDependency}

theorem checkExisting_eq_ok {stepId : String} (h : Graphed keys edges acc.2) :
    checkDependency state frontier context keys stepKey acc (.existingStep stepId) = .ok acc' ↔
      edges.length < maxAcceptedPlanEdges ∧ .existingStep stepId ∉ acc.1 ∧
        UsableStep state frontier context stepId ∧
        (acc.1 ++ [.existingStep stepId], { acc.2 with edgeCount := acc.2.edgeCount + 1 }) =
          acc' := by
  simp only [checkDependency, Outcome.bind_eq_ok, Outcome.exists_unit, Outcome.failIf_eq_ok,
    checkExistingDependency_eq_ok, Outcome.pure_eq_ok, h.edgeCount, gt_iff_lt, not_lt,
    Nat.succ_le_iff, exists_eq_left']

theorem checkProposed_eq_ok {key : String}
    (hvalid : ∀ key ∈ keys, validProposalIdentifier key = true) (h : Graphed keys edges acc.2)
    (hstep : stepKey ∈ keys) :
    checkDependency state frontier context keys stepKey acc (.proposedStep key) = .ok acc' ↔
      edges.length < maxAcceptedPlanEdges ∧ .proposedStep key ∉ acc.1 ∧
        (key ≠ stepKey ∧ key ∈ keys) ∧
        (acc.1 ++ [.proposedStep key],
          { edgeCount := acc.2.edgeCount + 1
            indegree := acc.2.indegree.insert stepKey ((parentsOf edges stepKey).length + 1)
            children := acc.2.children.insert key (childrenOf edges key ++ [stepKey]) }) =
          acc' := by
  simp only [checkDependency, checkProposedDependency, Outcome.bind_eq_ok, Outcome.exists_unit,
    Outcome.failIf_eq_ok, Outcome.pure_eq_ok, Outcome.expect_eq_ok, h.edgeCount, h.indegree,
    h.children, gt_iff_lt, not_lt, Nat.succ_le_iff, if_pos hstep]
  constructor
  · rintro ⟨hedges, hnew, _, ⟨-, hself, hknown, _, hparents, _, hchildren, rfl⟩, rfl⟩
    have hkey : key ∈ keys := not_not.mp hknown
    rw [if_pos hkey] at hchildren
    obtain rfl := Option.some.inj hparents
    obtain rfl := Option.some.inj hchildren
    exact ⟨hedges, hnew, ⟨hself, hkey⟩, rfl⟩
  · rintro ⟨hedges, hnew, ⟨hself, hkey⟩, rfl⟩
    have hident : ¬ validProposalIdentifier key = false := by simp [hvalid key hkey]
    refine ⟨hedges, hnew, _, ⟨hident, hself, not_not.mpr hkey, _, rfl, _, ?_, rfl⟩, rfl⟩
    rw [if_pos hkey]

/-- **One dependency** that is accepted. -/
theorem checkDependency_graphed (hvalid : ∀ key ∈ keys, validProposalIdentifier key = true)
    (h : Graphed keys edges acc.2) (hstep : stepKey ∈ keys)
    (hok : checkDependency state frontier context keys stepKey acc dependency = .ok acc') :
    (edges.length < maxAcceptedPlanEdges ∧ dependency ∉ acc.1 ∧
      AllowedDependency state frontier context keys.toList stepKey dependency) ∧
      acc'.1 = acc.1 ++ [dependency] ∧ Graphed keys (edges ++ [(stepKey, dependency)]) acc'.2 := by
  cases dependency with
  | existingStep stepId =>
    obtain ⟨hedges, hnew, husable, rfl⟩ := (checkExisting_eq_ok h).mp hok
    exact ⟨⟨hedges, hnew, husable⟩, rfl, h.exist⟩
  | proposedStep key =>
    obtain ⟨hedges, hnew, ⟨hself, hkey⟩, rfl⟩ := (checkProposed_eq_ok hvalid h hstep).mp hok
    exact ⟨⟨hedges, hnew, hself, Std.ExtTreeSet.mem_toList.mpr hkey⟩, rfl, h.propose hstep hkey⟩

theorem exists_checkDependency (hvalid : ∀ key ∈ keys, validProposalIdentifier key = true)
    (h : Graphed keys edges acc.2) (hstep : stepKey ∈ keys)
    (hedges : edges.length < maxAcceptedPlanEdges) (hnew : dependency ∉ acc.1)
    (hallowed : AllowedDependency state frontier context keys.toList stepKey dependency) :
    ∃ acc', checkDependency state frontier context keys stepKey acc dependency = .ok acc' := by
  cases dependency with
  | existingStep stepId => exact ⟨_, (checkExisting_eq_ok h).mpr ⟨hedges, hnew, hallowed, rfl⟩⟩
  | proposedStep key =>
    exact ⟨_, (checkProposed_eq_ok hvalid h hstep).mpr ⟨hedges, hnew,
      ⟨hallowed.1, Std.ExtTreeSet.mem_toList.mp hallowed.2⟩, rfl⟩⟩

theorem calm_checkDependency (h : Graphed keys edges acc.2) (hstep : stepKey ∈ keys) :
    Outcome.Calm (checkDependency state frontier context keys stepKey acc dependency) := by
  cases dependency with
  | existingStep stepId => simp [checkDependency, checkExistingDependency]
  | proposedStep key =>
    simp only [checkDependency, checkProposedDependency, Outcome.calm_bind, Outcome.calm_failIf,
      Outcome.calm_expect, Outcome.calm_pure, Outcome.failIf_eq_ok, h.indegree, h.children,
      if_pos hstep, true_and, implies_true, and_true, not_not]
    intro _ _ _ _ _ _ _ _ _ hkey
    exact ⟨rfl, fun _ _ => by rw [if_pos hkey]; rfl⟩

end

/-! ## The second pass -/

/-- The edges of one step. -/
def ProposedPlanStep.edges (self : ProposedPlanStep) : List ProposalEdge :=
  self.dependsOn.map fun dependency => (self.key, dependency)

section

variable {edges : List ProposalEdge} {graph graph' : ProposalGraph} {step : ProposedPlanStep}
  {steps : List ProposedPlanStep}

/-- After some dependencies of a step: they are distinct, allowed and counted. -/
structure DependenciesChecked (state : RunState) (frontier : WorkFrontier)
    (context : PlanningContext) (keys : BTreeSet String) (stepKey : String)
    (edges : List ProposalEdge) (seen : List PlanDependency)
    (acc : List PlanDependency × ProposalGraph) : Prop where
  same : acc.1 = seen
  once : seen.Nodup
  count : seen = [] ∨ edges.length + seen.length ≤ maxAcceptedPlanEdges
  allowed : ∀ dependency ∈ seen,
    AllowedDependency state frontier context keys.toList stepKey dependency
  graphed : Graphed keys (edges ++ seen.map fun dependency => (stepKey, dependency)) acc.2

theorem DependenciesChecked.nil {stepKey : String} (h : Graphed keys edges graph) :
    DependenciesChecked state frontier context keys stepKey edges [] ([], graph) where
  same := rfl
  once := List.nodup_nil
  count := Or.inl rfl
  allowed := by simp
  graphed := by simpa using h

theorem DependenciesChecked.snoc {stepKey : String} {seen : List PlanDependency}
    {acc acc' : List PlanDependency × ProposalGraph} {dependency : PlanDependency}
    (hvalid : ∀ key ∈ keys, validProposalIdentifier key = true) (hstep : stepKey ∈ keys)
    (h : DependenciesChecked state frontier context keys stepKey edges seen acc)
    (hok : checkDependency state frontier context keys stepKey acc dependency = .ok acc') :
    DependenciesChecked state frontier context keys stepKey edges (seen ++ [dependency]) acc' := by
  obtain ⟨⟨hedges, hnew, hallowed⟩, hseen, hgraphed⟩ :=
    checkDependency_graphed hvalid h.graphed hstep hok
  rw [h.same] at hnew hseen
  constructor
  · exact hseen
  · exact List.nodup_append.mpr ⟨h.once, List.nodup_singleton _, by
      rintro a ha b hb rfl
      exact hnew (by simpa [List.mem_singleton.mp hb] using ha)⟩
  · simp only [List.length_append, List.length_map, List.length_singleton] at hedges ⊢
    exact Or.inr (by omega)
  · intro d hd
    rcases List.mem_append.mp hd with hd | hd
    · exact h.allowed d hd
    · rwa [List.mem_singleton.mp hd]
  · rwa [List.map_append, List.map_singleton, ← List.append_assoc]

theorem checkDependencies_graphed (hvalid : ∀ key ∈ keys, validProposalIdentifier key = true)
    (h : Graphed keys edges graph) (hstep : step.key ∈ keys)
    (hok : checkDependencies state frontier context keys graph step = .ok graph') :
    ∃ acc, acc.2 = graph' ∧
      DependenciesChecked state frontier context keys step.key edges step.dependsOn acc := by
  simp only [checkDependencies, Outcome.bind_eq_ok, Outcome.pure_eq_ok] at hok
  obtain ⟨acc, hfold, rfl⟩ := hok
  exact ⟨acc, rfl, Outcome.foldl_induction (.nil h)
    (fun _ _ _ _ _ hI hdep => hI.snoc hvalid hstep hdep) hfold⟩

theorem exists_checkDependencies (hvalid : ∀ key ∈ keys, validProposalIdentifier key = true)
    (h : Graphed keys edges graph) (hstep : step.key ∈ keys) (honce : step.dependsOn.Nodup)
    (hcount : edges.length + step.dependsOn.length ≤ maxAcceptedPlanEdges)
    (hallowed : ∀ dependency ∈ step.dependsOn,
      AllowedDependency state frontier context keys.toList step.key dependency) :
    ∃ graph', checkDependencies state frontier context keys graph step = .ok graph' := by
  have hfold : ∃ acc, Outcome.foldl (checkDependency state frontier context keys step.key)
      ([], graph) step.dependsOn = .ok acc := by
    refine Outcome.foldl_total (I := DependenciesChecked state frontier context keys step.key edges)
      (.nil h) (fun _ _ _ _ _ hI hdep => hI.snoc hvalid hstep hdep) ?_
    rintro seen acc dependency ⟨rest, hrest⟩ hI
    rw [hrest] at honce hcount hallowed
    refine exists_checkDependency hvalid hI.graphed hstep ?_ ?_ (hallowed dependency (by simp))
    · simp only [List.length_append, List.length_cons, List.length_map] at hcount ⊢
      omega
    · rw [hI.same]
      exact fun hmem => (List.nodup_append.mp honce).2.2 _ hmem _ List.mem_cons_self rfl
  obtain ⟨acc, hacc⟩ := hfold
  refine ⟨acc.2, ?_⟩
  simp only [checkDependencies, Outcome.bind_eq_ok, Outcome.pure_eq_ok]
  exact ⟨acc, hacc, rfl⟩

theorem calm_checkDependencies (hvalid : ∀ key ∈ keys, validProposalIdentifier key = true)
    (h : Graphed keys edges graph) (hstep : step.key ∈ keys) :
    Outcome.Calm (checkDependencies state frontier context keys graph step) := by
  simp only [checkDependencies, Outcome.calm_bind, Outcome.calm_pure, implies_true, and_true]
  exact Outcome.calm_foldl (I := DependenciesChecked state frontier context keys step.key edges)
    (.nil h) (fun _ _ _ _ _ hI hdep => hI.snoc hvalid hstep hdep)
    fun _ _ _ _ hI => calm_checkDependency hI.graphed hstep

/-- After some steps: their dependencies are distinct, allowed and counted. -/
structure StepsChecked (state : RunState) (frontier : WorkFrontier) (context : PlanningContext)
    (keys : BTreeSet String) (seen : List ProposedPlanStep) (graph : ProposalGraph) : Prop where
  once : ∀ step ∈ seen, step.dependsOn.Nodup
  count : (seen.flatMap ProposedPlanStep.edges).length ≤ maxAcceptedPlanEdges
  allowed : ∀ step ∈ seen, ∀ dependency ∈ step.dependsOn,
    AllowedDependency state frontier context keys.toList step.key dependency
  graphed : Graphed keys (seen.flatMap ProposedPlanStep.edges) graph

theorem StepsChecked.nil : StepsChecked state frontier context keys [] (.new keys) where
  once := by simp
  count := Nat.zero_le _
  allowed := by simp
  graphed := graphed_new

theorem StepsChecked.snoc {seen : List ProposedPlanStep}
    (hvalid : ∀ key ∈ keys, validProposalIdentifier key = true) (hstep : step.key ∈ keys)
    (h : StepsChecked state frontier context keys seen graph)
    (hok : checkDependencies state frontier context keys graph step = .ok graph') :
    StepsChecked state frontier context keys (seen ++ [step]) graph' := by
  obtain ⟨acc, rfl, hchecked⟩ := checkDependencies_graphed hvalid h.graphed hstep hok
  have hedges : (seen ++ [step]).flatMap ProposedPlanStep.edges =
      seen.flatMap ProposedPlanStep.edges ++ step.edges := by
    rw [List.flatMap_append, List.flatMap_singleton]
  constructor
  · intro other hother
    rcases List.mem_append.mp hother with hother | hother
    · exact h.once other hother
    · rw [List.mem_singleton.mp hother]
      exact hchecked.once
  · rw [hedges, List.length_append, ProposedPlanStep.edges, List.length_map]
    rcases hchecked.count with hnone | hcount
    · rw [hnone]
      exact h.count
    · exact hcount
  · intro other hother
    rcases List.mem_append.mp hother with hother | hother
    · exact h.allowed other hother
    · rw [List.mem_singleton.mp hother]
      exact hchecked.allowed
  · rw [hedges]
    exact hchecked.graphed

theorem checkSteps_checked (hvalid : ∀ key ∈ keys, validProposalIdentifier key = true)
    (hkeys : ∀ step ∈ steps, step.key ∈ keys)
    (hok : Outcome.foldl (checkDependencies state frontier context keys) (.new keys) steps =
      .ok graph) :
    StepsChecked state frontier context keys steps graph := by
  refine Outcome.foldl_induction (I := StepsChecked state frontier context keys) .nil ?_ hok
  rintro seen acc step acc' ⟨rest, rfl⟩ hI hstep
  exact hI.snoc hvalid (hkeys step (by simp)) hstep

theorem length_edges : (steps.flatMap ProposedPlanStep.edges).length =
    (steps.map fun step => step.dependsOn.length).sum := by
  rw [List.length_flatMap]
  simp only [ProposedPlanStep.edges, List.length_map]

theorem exists_checkSteps (hvalid : ∀ key ∈ keys, validProposalIdentifier key = true)
    (hkeys : ∀ step ∈ steps, step.key ∈ keys)
    (hedges : (steps.map fun step => step.dependsOn.length).sum ≤ maxAcceptedPlanEdges)
    (honce : ∀ step ∈ steps, step.dependsOn.Nodup)
    (hallowed : ∀ step ∈ steps, ∀ dependency ∈ step.dependsOn,
      AllowedDependency state frontier context keys.toList step.key dependency) :
    ∃ graph, Outcome.foldl (checkDependencies state frontier context keys) (.new keys) steps =
      .ok graph := by
  rw [← length_edges] at hedges
  refine Outcome.foldl_total (I := StepsChecked state frontier context keys) .nil ?_ ?_
  · rintro seen acc step acc' ⟨rest, rfl⟩ hI hstep
    exact hI.snoc hvalid (hkeys step (by simp)) hstep
  · rintro seen acc step ⟨rest, rfl⟩ hI
    have hmem : step ∈ seen ++ step :: rest := by simp
    refine exists_checkDependencies hvalid hI.graphed (hkeys step hmem) (honce step hmem) ?_
      (hallowed step hmem)
    simp only [List.flatMap_append, List.flatMap_cons, List.length_append] at hedges
    rw [ProposedPlanStep.edges, List.length_map] at hedges
    omega

theorem calm_checkSteps (hvalid : ∀ key ∈ keys, validProposalIdentifier key = true)
    (hkeys : ∀ step ∈ steps, step.key ∈ keys) :
    Outcome.Calm
      (Outcome.foldl (checkDependencies state frontier context keys) (.new keys) steps) := by
  refine Outcome.calm_foldl (I := StepsChecked state frontier context keys) .nil ?_ ?_
  · rintro seen acc step acc' ⟨rest, rfl⟩ hI hstep
    exact hI.snoc hvalid (hkeys step (by simp)) hstep
  · rintro seen acc step ⟨rest, rfl⟩ hI
    exact calm_checkDependencies hvalid hI.graphed (hkeys step (by simp))

end

end

/-! ## The recorded edges -/

section

variable {edges : List ProposalEdge} {steps : List ProposedPlanStep}

theorem mem_parentsOf {key parent : String} :
    parent ∈ parentsOf edges key ↔ (key, .proposedStep parent) ∈ edges := by
  rw [parentsOf, List.mem_filterMap]
  constructor
  · rintro ⟨⟨stepKey, dependency⟩, hmem, hedge⟩
    by_cases hkey : stepKey = key
    · cases dependency with
      | existingStep stepId => simp [PlanDependency.proposedKey?] at hedge
      | proposedStep other =>
        simp only [if_pos hkey, PlanDependency.proposedKey?, Option.some.injEq] at hedge
        rwa [← hkey, ← hedge]
    · simp [hkey] at hedge
  · intro hmem
    exact ⟨_, hmem, if_pos rfl⟩

theorem mem_childrenOf {key child : String} :
    child ∈ childrenOf edges key ↔ (child, .proposedStep key) ∈ edges := by
  rw [childrenOf, List.mem_filterMap]
  constructor
  · rintro ⟨⟨stepKey, dependency⟩, hmem, hedge⟩
    cases dependency with
    | existingStep stepId => simp [PlanDependency.proposedKey?] at hedge
    | proposedStep other =>
      by_cases hkey : other = key
      · simp only [PlanDependency.proposedKey?, hkey, if_pos, Option.some.injEq] at hedge
        rwa [← hkey, ← hedge] at *
      · simp [PlanDependency.proposedKey?, hkey] at hedge
  · intro hmem
    exact ⟨_, hmem, if_pos rfl⟩

theorem nodup_parentsOf (h : edges.Nodup) (key : String) : (parentsOf edges key).Nodup := by
  refine h.filterMap ?_
  rintro ⟨a, da⟩ ⟨b, db⟩ parent ha hb
  rw [Option.mem_def, Option.ite_none_right_eq_some] at ha hb
  obtain ⟨rfl, ha⟩ := ha
  obtain ⟨rfl, hb⟩ := hb
  cases da <;> cases db <;> simp_all [PlanDependency.proposedKey?]

theorem nodup_childrenOf (h : edges.Nodup) (key : String) : (childrenOf edges key).Nodup := by
  refine h.filterMap ?_
  rintro ⟨a, da⟩ ⟨b, db⟩ child ha hb
  rw [Option.mem_def, Option.ite_none_right_eq_some] at ha hb
  obtain ⟨hda, ha⟩ := ha
  obtain ⟨hdb, hb⟩ := hb
  cases da <;> cases db <;> simp_all [PlanDependency.proposedKey?]

theorem mem_edges {key : String} {dependency : PlanDependency} :
    (key, dependency) ∈ steps.flatMap ProposedPlanStep.edges ↔
      ∃ step ∈ steps, step.key = key ∧ dependency ∈ step.dependsOn := by
  simp only [List.mem_flatMap, ProposedPlanStep.edges, List.mem_map, Prod.mk.injEq]
  constructor
  · rintro ⟨step, hstep, d, hd, hkey, rfl⟩
    exact ⟨step, hstep, hkey, hd⟩
  · rintro ⟨step, hstep, hkey, hd⟩
    exact ⟨step, hstep, dependency, hd, hkey, rfl⟩

theorem mem_parentsOf_edges {key parent : String} :
    parent ∈ parentsOf (steps.flatMap ProposedPlanStep.edges) key ↔
      ProposalDependsOn steps key parent := mem_parentsOf.trans mem_edges

theorem nodup_edges (hdistinct : (steps.map ProposedPlanStep.key).Nodup)
    (honce : ∀ step ∈ steps, step.dependsOn.Nodup) :
    (steps.flatMap ProposedPlanStep.edges).Nodup := by
  rw [List.nodup_flatMap]
  constructor
  · intro step hstep
    exact (honce step hstep).map fun a b hab => (Prod.mk.inj hab).2
  · refine (List.pairwise_map.mp hdistinct).imp ?_
    rintro a b hab ⟨key, dependency⟩ ha hb
    simp only [ProposedPlanStep.edges, List.mem_map, Prod.mk.injEq] at ha hb
    obtain ⟨_, _, rfl, _⟩ := ha
    obtain ⟨_, _, hkey, _⟩ := hb
    exact hab hkey.symm

end

/-! ## The search for a cycle -/

theorem releaseProposal_eq_ok {acc acc' : BTreeMap String ℕ × BTreeSet String} {child : String} :
    releaseProposal acc child = .ok acc' ↔ ∃ n, acc.1[child]? = some (n + 1) ∧
      (acc.1.insert child n, if n = 0 then acc.2.insert child else acc.2) = acc' := by
  unfold releaseProposal
  simp only [Outcome.bind_eq_ok, Outcome.expect_eq_ok]
  constructor
  · rintro ⟨count, hcount, hok⟩
    cases count with
    | zero => simp at hok
    | succ n => exact ⟨n, hcount, by simpa using hok⟩
  · rintro ⟨n, hn, rfl⟩
    exact ⟨n + 1, hn, rfl⟩

theorem releaseProposals_eq_ok {acc acc' : BTreeMap String ℕ × BTreeSet String}
    {children : List String} : Outcome.foldl releaseProposal acc children = .ok acc' ↔
      Outcome.foldl releaseChild acc children = .ok acc' := by
  induction children generalizing acc with
  | nil => simp [Outcome.foldl]
  | cons child children ih =>
    simp only [Outcome.foldl, Outcome.bind_eq_ok, releaseProposal_eq_ok, releaseChild_eq_ok, ih]

/-- What the recorded edges of checked steps satisfy. -/
structure ProposalIndex (steps : List ProposedPlanStep) (edges : List ProposalEdge) : Prop where
  parents : ∀ key, (parentsOf edges key).Nodup
  children : ∀ key, (childrenOf edges key).Nodup
  mem_parents : ∀ {key parent}, parent ∈ parentsOf edges key ↔ ProposalDependsOn steps key parent
  mem_children : ∀ {key child}, child ∈ childrenOf edges key ↔ ProposalDependsOn steps child key
  known : ∀ {key parent}, ProposalDependsOn steps key parent →
    key ∈ steps.map ProposedPlanStep.key ∧ parent ∈ steps.map ProposedPlanStep.key
  irreflexive : ∀ {key}, ¬ ProposalDependsOn steps key key

/-- The invariant of the search after the keys `order` were visited. -/
structure ProposalVisit (steps : List ProposedPlanStep) (edges : List ProposalEdge)
    (order : List String) (indegree : BTreeMap String ℕ) (ready : BTreeSet String) : Prop where
  nodup : order.Nodup
  known : order ⊆ steps.map ProposedPlanStep.key
  topo : TopoOrder (ProposalDependsOn steps) order
  counts : ∀ key ∈ steps.map ProposedPlanStep.key,
    indegree[key]? = some ((parentsOf edges key).countP fun parent => decide (parent ∉ order))
  ready : ∀ key, key ∈ ready ↔ key ∉ order ∧ key ∈ steps.map ProposedPlanStep.key ∧
    ∀ parent, ProposalDependsOn steps key parent → parent ∈ order

section

variable {steps : List ProposedPlanStep} {edges : List ProposalEdge} {order : List String}
  {indegree : BTreeMap String ℕ} {ready : BTreeSet String}

theorem ProposalVisit.length_le (h : ProposalVisit steps edges order indegree ready) :
    order.length ≤ steps.length := by
  have hle := (List.subperm_of_subset h.nodup h.known).length_le
  rwa [List.length_map] at hle

theorem ProposalVisit.snoc {acc : BTreeMap String ℕ × BTreeSet String} {key : String}
    (hI : ProposalIndex steps edges) (h : ProposalVisit steps edges order indegree ready)
    (hkey : key ∈ ready)
    (hacc : Released indegree (ready.erase key) (childrenOf edges key) acc) :
    ProposalVisit steps edges (order ++ [key]) acc.1 acc.2 := by
  obtain ⟨hnew, hknown, hparents⟩ := (h.ready key).mp hkey
  have hcount : ∀ c ∈ steps.map ProposedPlanStep.key, indegree[c]? =
      some ((parentsOf edges c).countP (fun parent => decide (parent ∉ order ++ [key])) +
        if key ∈ parentsOf edges c then 1 else 0) := fun c hc => by
    rw [h.counts c hc, countP_unvisited (hI.parents c) hnew]
  constructor
  · exact List.nodup_append.mpr ⟨h.nodup, List.nodup_singleton key, by
      rintro a ha b hb rfl
      exact hnew (by simpa [List.mem_singleton.mp hb] using ha)⟩
  · intro x hx
    rcases List.mem_append.mp hx with hx | hx
    · exact h.known hx
    · rwa [List.mem_singleton.mp hx]
  · exact h.topo.snoc hnew hparents
  · intro c hc
    rw [hacc.counts, hcount c hc]
    by_cases hdep : ProposalDependsOn steps c key
    · rw [if_pos (hI.mem_children.mpr hdep), if_pos (hI.mem_parents.mpr hdep)]
      rfl
    · rw [if_neg (mt hI.mem_children.mp hdep), if_neg (mt hI.mem_parents.mp hdep)]
      rfl
  · intro c
    rw [hacc.ready, BTreeSet.mem_erase_iff, h.ready, hI.mem_children]
    constructor
    · rintro (⟨hne, hco, hck, hcp⟩ | ⟨hdep, hone⟩)
      · exact ⟨by simp [hco, Ne.symm hne], hck, fun p hp => List.mem_append_left _ (hcp p hp)⟩
      · have hco : c ∉ order := fun hco => hnew (h.topo c hco key hdep).1
        have hne : c ≠ key := by
          rintro rfl
          exact hI.irreflexive hdep
        have hck := (hI.known hdep).1
        rw [hcount c hck, if_pos (hI.mem_parents.mpr hdep), Option.some.injEq, Nat.add_eq_right,
          countP_unvisited_eq_zero] at hone
        exact ⟨by simp [hco, hne], hck, fun p hp => hone p (hI.mem_parents.mpr hp)⟩
    · rintro ⟨hco, hck, hcp⟩
      obtain ⟨hco, hne⟩ : c ∉ order ∧ c ≠ key := by simpa [not_or] using hco
      by_cases hdep : ProposalDependsOn steps c key
      · refine Or.inr ⟨hdep, ?_⟩
        rw [hcount c hck, if_pos (hI.mem_parents.mpr hdep), Option.some.injEq, Nat.add_eq_right,
          countP_unvisited_eq_zero]
        exact fun p hp => hcp p (hI.mem_parents.mp hp)
      · refine Or.inl ⟨Ne.symm hne, hco, hck, fun p hp => ?_⟩
        have hmem := hcp p hp
        rw [List.mem_append, List.mem_singleton] at hmem
        rcases hmem with hmem | rfl
        · exact hmem
        · exact absurd hp hdep

theorem ProposalVisit.complete_iff (hI : ProposalIndex steps edges)
    (hdistinct : (steps.map ProposedPlanStep.key).Nodup)
    (h : ProposalVisit steps edges order indegree ∅) :
    order.length = steps.length ↔ Acyclic (ProposalDependsOn steps) := by
  constructor
  · intro hlen
    have hperm := (List.subperm_of_subset h.nodup h.known).perm_of_length_le
      (by rw [hlen, List.length_map])
    exact h.topo.acyclic fun a b hab => hperm.mem_iff.mpr (hI.known hab).1
  · intro hacyclic
    have hall : steps.map ProposedPlanStep.key ⊆ order := by
      intro key hkey
      by_contra hnot
      obtain ⟨x, hx, hxo, hxp⟩ := exists_ready hacyclic (steps.map ProposedPlanStep.key).toFinset
        (fun a _ b hab => List.mem_toFinset.mpr (hI.known hab).2) (List.mem_toFinset.mpr hkey) hnot
      have hready := (h.ready x).mpr ⟨hxo, List.mem_toFinset.mp hx, hxp⟩
      simp at hready
    have hle := (List.subperm_of_subset hdistinct hall).length_le
    rw [List.length_map] at hle
    exact le_antisymm h.length_le hle

/-- **The search ends**, with the number of keys that it visited. -/
theorem exists_visitProposals {children : BTreeMap String (List String)}
    (hI : ProposalIndex steps edges)
    (hchildren : ∀ key ∈ steps.map ProposedPlanStep.key,
      children[key]? = some (childrenOf edges key))
    (fuel : ℕ) : ∀ {order indegree ready}, ProposalVisit steps edges order indegree ready →
      steps.length ≤ order.length + fuel → ∃ order' indegree',
        ProposalVisit steps edges order' indegree' ∅ ∧
        visitProposals children fuel indegree ready order.length = .ok order'.length := by
  induction fuel with
  | zero =>
    intro order indegree ready hV hfuel
    cases hmin : BTreeSet.first? ready with
    | none =>
      refine ⟨order, indegree, ?_, by unfold visitProposals; rw [hmin]; rfl⟩
      rwa [BTreeSet.first?_eq_none_iff.mp hmin] at hV
    | some key =>
      -- another visit would list more keys than there are
      obtain ⟨hnew, hknown, _⟩ := (hV.ready key).mp (BTreeSet.mem_of_first?_eq_some hmin)
      have hle := (List.subperm_of_subset (List.nodup_cons.mpr ⟨hnew, hV.nodup⟩)
        (List.cons_subset.mpr ⟨hknown, hV.known⟩)).length_le
      rw [List.length_cons, List.length_map] at hle
      omega
  | succ fuel ih =>
    intro order indegree ready hV hfuel
    cases hmin : BTreeSet.first? ready with
    | none =>
      refine ⟨order, indegree, ?_, by unfold visitProposals; rw [hmin]; rfl⟩
      rwa [BTreeSet.first?_eq_none_iff.mp hmin] at hV
    | some key =>
      have hkey := BTreeSet.mem_of_first?_eq_some hmin
      obtain ⟨hnew, hknown, hparents⟩ := (hV.ready key).mp hkey
      have hpos : ∀ c ∈ childrenOf edges key, ∃ n, indegree[c]? = some (n + 1) := by
        intro c hc
        have hdep := hI.mem_children.mp hc
        rw [hV.counts c (hI.known hdep).1, countP_unvisited (hI.parents c) hnew,
          if_pos (hI.mem_parents.mpr hdep)]
        exact ⟨_, rfl⟩
      obtain ⟨acc, hacc, hreleased⟩ :=
        @releaseChildren_spec indegree (ready.erase key) _ (hI.children key) hpos
      have hlen : (order ++ [key]).length = order.length + 1 := by
        rw [List.length_append, List.length_singleton]
      obtain ⟨order', indegree', hV', hvisit⟩ := ih (hV.snoc hI hkey hreleased) (by omega)
      refine ⟨order', indegree', hV', ?_⟩
      unfold visitProposals
      rw [hmin]
      simp only [Outcome.bind_eq_ok, Outcome.expect_eq_ok, hchildren key hknown, Option.some.injEq,
        exists_eq_left', releaseProposals_eq_ok, hacc, Except.ok.injEq]
      rwa [← hlen]

end

/-! ## The whole check -/

section

variable {state : RunState} {frontier : WorkFrontier} {context : PlanningContext}
  {steps : List ProposedPlanStep}

theorem proposalIndex (hdistinct : (steps.map ProposedPlanStep.key).Nodup)
    (honce : ∀ step ∈ steps, step.dependsOn.Nodup)
    (hallowed : ∀ step ∈ steps, ∀ dependency ∈ step.dependsOn,
      AllowedDependency state frontier context (steps.map ProposedPlanStep.key) step.key
        dependency) :
    ProposalIndex steps (steps.flatMap ProposedPlanStep.edges) where
  parents := nodup_parentsOf (nodup_edges hdistinct honce)
  children := nodup_childrenOf (nodup_edges hdistinct honce)
  mem_parents := mem_parentsOf_edges
  mem_children := mem_childrenOf.trans mem_edges
  known := by
    rintro key parent ⟨step, hstep, rfl, hparent⟩
    exact ⟨List.mem_map_of_mem hstep, (hallowed step hstep _ hparent).2⟩
  irreflexive := by
    rintro key ⟨step, hstep, rfl, hparent⟩
    exact (hallowed step hstep _ hparent).1 rfl

theorem proposalVisit_start {keys : BTreeSet String} {graph : ProposalGraph}
    (hkeys : ∀ key, key ∈ keys ↔ key ∈ steps.map ProposedPlanStep.key)
    (hG : Graphed keys (steps.flatMap ProposedPlanStep.edges) graph) :
    ProposalVisit steps (steps.flatMap ProposedPlanStep.edges) [] graph.indegree (.ofList
      ((graph.indegree.toList.filter fun entry => entry.2 == 0).map Prod.fst) compare) where
  nodup := List.nodup_nil
  known := List.nil_subset _
  topo := TopoOrder.nil
  counts key hkey := by
    rw [hG.indegree, if_pos ((hkeys key).mpr hkey)]
    simp
  ready key := by
    rw [BTreeSet.mem_ofList_iff]
    simp only [List.mem_map, List.mem_filter, Prod.exists, exists_and_right, exists_eq_right,
      Std.ExtTreeMap.mem_toList_iff_getElem?_eq_some, hG.indegree, beq_iff_eq,
      Option.ite_none_right_eq_some, Option.some.injEq, ← mem_parentsOf_edges, List.not_mem_nil,
      not_false_eq_true, true_and]
    constructor
    · rintro ⟨hkey, hlen⟩
      refine ⟨List.mem_map.mp ((hkeys key).mp hkey), fun parent hparent => ?_⟩
      rw [List.length_eq_zero_iff.mp hlen] at hparent
      simp at hparent
    · rintro ⟨hkey, hnone⟩
      refine ⟨(hkeys key).mpr (List.mem_map.mpr hkey), ?_⟩
      rw [List.length_eq_zero_iff, List.eq_nil_iff_forall_not_mem]
      exact hnone

theorem valid_of_mem_keys {keys : BTreeSet String}
    (hmem : ∀ key, key ∈ keys ↔ key ∈ steps.map ProposedPlanStep.key)
    (hvalid : ∀ step ∈ steps, validProposalIdentifier step.key = true) :
    ∀ key ∈ keys, validProposalIdentifier key = true := by
  intro key hkey
  obtain ⟨step, hstep, rfl⟩ := List.mem_map.mp ((hmem key).mp hkey)
  exact hvalid step hstep

theorem mem_keys {keys : BTreeSet String}
    (hkeys : BTreeSet.insertAll ProposedPlanStep.key ∅ steps = keys) (key : String) :
    key ∈ keys ↔ key ∈ steps.map ProposedPlanStep.key := by
  rw [← hkeys, BTreeSet.mem_insertAll, List.mem_map]
  simp

theorem allowedDependency_congr {keys keys' : List String} {stepKey : String}
    (h : ∀ key, key ∈ keys ↔ key ∈ keys') {dependency : PlanDependency} :
    AllowedDependency state frontier context keys stepKey dependency ↔
      AllowedDependency state frontier context keys' stepKey dependency := by
  cases dependency with
  | existingStep stepId => exact Iff.rfl
  | proposedStep key => exact and_congr_right fun _ => h key

theorem checkEdges_spec {keys : BTreeSet String}
    (hvalid : ∀ step ∈ steps, validProposalIdentifier step.key = true)
    (hdistinct : (steps.map ProposedPlanStep.key).Nodup)
    (hkeys : BTreeSet.insertAll ProposedPlanStep.key ∅ steps = keys) {graph : ProposalGraph}
    (hgraph : Outcome.foldl (checkDependencies state frontier context keys) (.new keys) steps =
      .ok graph) :
    StepsChecked state frontier context keys steps graph ∧ ∃ visited,
      visitProposals graph.children steps.length graph.indegree (.ofList
        ((graph.indegree.toList.filter fun entry => entry.2 == 0).map Prod.fst) compare) 0 =
        .ok visited ∧
      (visited = steps.length ↔ Acyclic (ProposalDependsOn steps)) := by
  have hmem := mem_keys hkeys
  have hchecked := checkSteps_checked (valid_of_mem_keys hmem hvalid)
    (fun step hstep => (hmem _).mpr (List.mem_map_of_mem hstep)) hgraph
  have hI := proposalIndex hdistinct hchecked.once fun step hstep dependency hdep =>
    (allowedDependency_congr fun key => Std.ExtTreeSet.mem_toList.trans (hmem key)).mp
      (hchecked.allowed step hstep dependency hdep)
  obtain ⟨order, indegree, hV, hvisit⟩ := exists_visitProposals hI
    (fun key hkey => by rw [hchecked.graphed.children, if_pos ((hmem key).mpr hkey)]) steps.length
    (proposalVisit_start hmem hchecked.graphed) (Nat.le_add_left _ _)
  exact ⟨hchecked, order.length, hvisit, hV.complete_iff hI hdistinct⟩

theorem validateProposalStructure_eq_ok :
    validateProposalStructure state frontier context steps = .ok () ↔
      WellStructured state frontier context steps := by
  simp only [validateProposalStructure, Outcome.bind_eq_ok, checkProposedSteps_eq_ok,
    Outcome.failIf_eq_ok, ne_eq, not_not, forall_and]
  constructor
  · rintro ⟨keys, ⟨⟨hvalid, hobjectives⟩, -, hdistinct, hkeys⟩, graph, hgraph, visited, hvisited,
      hcount⟩
    obtain ⟨hchecked, visited', hvisited', hacyclic⟩ :=
      checkEdges_spec hvalid hdistinct hkeys hgraph
    obtain rfl := Except.ok.inj (hvisited.symm.trans hvisited')
    exact
      { keys := hvalid
        distinct := hdistinct
        objectives := hobjectives
        edges := length_edges ▸ hchecked.count
        once := hchecked.once
        allowed := fun step hstep dependency hdep =>
          (allowedDependency_congr fun key =>
            Std.ExtTreeSet.mem_toList.trans (mem_keys hkeys key)).mp
            (hchecked.allowed step hstep dependency hdep)
        acyclic := hacyclic.mp hcount }
  · intro h
    have hmem := mem_keys (Eq.refl (BTreeSet.insertAll ProposedPlanStep.key ∅ steps))
    obtain ⟨graph, hgraph⟩ := exists_checkSteps (valid_of_mem_keys hmem h.keys)
      (fun step hstep => (hmem _).mpr (List.mem_map_of_mem hstep)) h.edges h.once
      fun step hstep dependency hdep => (allowedDependency_congr fun key =>
        Std.ExtTreeSet.mem_toList.trans (hmem key)).mpr (h.allowed step hstep dependency hdep)
    obtain ⟨_, visited, hvisited, hacyclic⟩ := checkEdges_spec h.keys h.distinct rfl hgraph
    exact ⟨_, ⟨⟨h.keys, h.objectives⟩, by simp, h.distinct, rfl⟩, graph, hgraph, visited, hvisited,
      hacyclic.mpr h.acyclic⟩

theorem calm_validateProposalStructure :
    Outcome.Calm (validateProposalStructure state frontier context steps) := by
  simp only [validateProposalStructure, Outcome.calm_bind, Outcome.calm_failIf,
    checkProposedSteps_eq_ok, implies_true, and_true]
  refine ⟨Outcome.calm_foldl (I := fun _ _ => True) trivial (fun _ _ _ _ _ _ _ => trivial)
    fun _ _ _ _ _ => calm_checkProposedStep, ?_⟩
  rintro keys ⟨hfirst, -, hdistinct, hkeys⟩
  have hvalid := fun step hstep => (hfirst step hstep).1
  have hmem := mem_keys hkeys
  refine ⟨calm_checkSteps (valid_of_mem_keys hmem hvalid)
    fun step hstep => (hmem _).mpr (List.mem_map_of_mem hstep), fun graph hgraph => ?_⟩
  obtain ⟨_, visited, hvisited, -⟩ := checkEdges_spec hvalid hdistinct hkeys hgraph
  rw [hvisited]
  exact Outcome.calm_ok

/-- **The structure check is exact**, and none of its lookups fails. -/
theorem proposal_structure_exact (state : RunState) (frontier : WorkFrontier)
    (context : PlanningContext) (steps : List ProposedPlanStep) :
    (validateProposalStructure state frontier context steps = .ok () ↔
      WellStructured state frontier context steps) ∧
      Outcome.Calm (validateProposalStructure state frontier context steps) :=
  ⟨validateProposalStructure_eq_ok, calm_validateProposalStructure⟩

end

end Xgeny
