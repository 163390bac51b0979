import Xgeny.Lib.Worklist
import Xgeny.Receipt

set_option autoImplicit false

/-!
# The semantics of a work graph

The check of a work graph that has the right schema: step ids and dependencies, the states that steps
may be in, and the search for a cycle. The edges are recorded in the pass that checks them.

* `WorkGraphBody`: what the check reads of a graph;
* `validateWorkGraphSemantics`: the check, which returns the number of the checks that it made;
* `ValidWorkGraph`: what the check is for;
* `DependenciesRecorded`, `StepsRecorded`: the invariants of the two nested loops;
* **`work_graph_validation_exact`**: the check accepts exactly the valid graphs, and does not panic.
-/

namespace Xgeny

inductive ExecutionMode where
  | direct
  | tracked
  | persistent
  deriving DecidableEq

inductive WorkStepStatus where
  | pending
  | ready
  | running
  | waitingInput
  | validating
  | completed
  | failed
  | blocked
  | cancelled
  deriving DecidableEq

inductive VerificationState where
  | notStarted
  | running
  | passed
  | failed
  | inconclusive
  deriving DecidableEq

/-- What the check reads of a step. -/
structure WorkStep where
  stepId : String
  dependsOn : List String
  status : WorkStepStatus
  verificationStatus : VerificationState
  deriving DecidableEq

/-- What the check reads of a graph. -/
structure WorkGraphBody where
  executionMode : ExecutionMode
  steps : List WorkStep
  deriving DecidableEq

/-! ## The check -/

/-- `usize::saturating_add`. -/
def saturatingAdd (a b : ℕ) : ℕ := min (a + b) (2 ^ 64 - 1)

/-- The statuses of a step whose dependencies must be completed. -/
def WorkStepStatus.advanced : WorkStepStatus → Bool
  | .ready | .running | .waitingInput | .validating | .completed => true
  | _ => false

/-- The running state of the loop over the steps. -/
structure WorkGraphIndex where
  remainingDependencies : BTreeMap String ℕ
  dependents : BTreeMap String (List String)
  semanticChecks : ℕ

section

variable (name : String)

/-- `steps.insert(..)` for every step, which must be new. -/
def indexSteps (graph : WorkGraphBody) : Outcome ProtocolError (BTreeMap String WorkStep) :=
  Outcome.foldl (fun steps step => BTreeMap.insertNew steps step.stepId step
    (.fixture ("`" ++ name ++ "` repeats WorkGraph stepId `" ++ step.stepId ++ "`"))) ∅ graph.steps

/-- One dependency of a step: the dependencies seen so far, the dependents and the checks made. -/
def checkWorkDependency (stepId : String)
    (acc : BTreeSet String × BTreeMap String (List String) × ℕ) (dependencyId : String) :
    Outcome ProtocolError (BTreeSet String × BTreeMap String (List String) × ℕ) := do
  let semanticChecks := saturatingAdd acc.2.2 1
  Outcome.failIf (dependencyId = stepId)
    (.fixture ("`" ++ name ++ "` WorkGraph step `" ++ stepId ++ "` depends on itself"))
  Outcome.failIf (dependencyId ∈ acc.1)
    (.fixture ("`" ++ name ++ "` WorkGraph step `" ++ stepId ++ "` repeats dependency `" ++
      dependencyId ++ "`"))
  let children ← Outcome.okOr acc.2.1[dependencyId]?
    (.fixture ("`" ++ name ++ "` WorkGraph step `" ++ stepId ++ "` refers to unknown dependency `" ++
      dependencyId ++ "`"))
  pure (acc.1.insert dependencyId, acc.2.1.insert dependencyId (children ++ [stepId]),
    semanticChecks)

/-- `steps[dependency_id]`, which must be completed. -/
def checkCompletedDependency (steps : BTreeMap String WorkStep) (stepId dependencyId : String) :
    Outcome ProtocolError Unit := do
  let dependency ← Outcome.expect steps[dependencyId]? "no entry found for key"
  Outcome.failIf (dependency.status ≠ .completed)
    (.fixture ("`" ++ name ++ "` WorkGraph step `" ++ stepId ++ "` advanced before dependency `" ++
      dependencyId ++ "` completed"))

/-- The dependencies of a step that has advanced. -/
def checkAdvancedStep (steps : BTreeMap String WorkStep) (stepId : String) (step : WorkStep) :
    Outcome ProtocolError Unit :=
  if step.status.advanced = true then
    Outcome.forEach step.dependsOn (checkCompletedDependency name steps stepId)
  else pure ()

/-- One step of the graph. -/
def checkWorkStep (executionMode : ExecutionMode) (steps : BTreeMap String WorkStep)
    (acc : WorkGraphIndex) (entry : String × WorkStep) : Outcome ProtocolError WorkGraphIndex := do
  let (stepId, step) := entry
  let (_, dependents, semanticChecks) ← Outcome.foldl (checkWorkDependency name stepId)
    (∅, acc.dependents, acc.semanticChecks) step.dependsOn
  Outcome.failIf (executionMode = .direct ∧ step.dependsOn ≠ [])
    (.fixture ("`" ++ name ++ "` Direct WorkGraph step cannot declare dependencies"))
  checkAdvancedStep name steps stepId step
  Outcome.failIf (step.status = .completed ∧ step.verificationStatus ≠ .passed)
    (.fixture ("`" ++ name ++ "` completed WorkGraph step `" ++ stepId ++
      "` is not verification-passed"))
  pure
    { remainingDependencies := acc.remainingDependencies.insert stepId step.dependsOn.length
      dependents := dependents
      semanticChecks := semanticChecks }

def validateWorkGraphSemantics (graph : WorkGraphBody) : Outcome ProtocolError ℕ := do
  let steps ← indexSteps name graph
  let index ← Outcome.foldl (checkWorkStep name graph.executionMode steps)
    ⟨∅, steps.map fun _ _ => [], 1⟩ steps.toList
  let zeroIndegree : BTreeSet String := .ofList
    ((index.remainingDependencies.toList.filter fun entry => entry.2 == 0).map Prod.fst) compare
  let processed ← Worklist.visit "validated dependent should be indexed"
    "dependency count cannot underflow" index.dependents steps.size index.remainingDependencies
    zeroIndegree 0
  Outcome.failIf (processed ≠ steps.size)
    (.fixture ("`" ++ name ++ "` WorkGraph contains a dependency cycle"))
  pure index.semanticChecks

end

/-! ## What it is for -/

/-- One step of a graph depends on another. -/
def WorkGraphBody.DependsOn (graph : WorkGraphBody) (a b : String) : Prop :=
  ∃ step ∈ graph.steps, step.stepId = a ∧ b ∈ step.dependsOn

structure ValidWorkGraph (graph : WorkGraphBody) : Prop where
  distinct : (graph.steps.map WorkStep.stepId).Nodup
  another : ∀ step ∈ graph.steps, ∀ d ∈ step.dependsOn,
    d ≠ step.stepId ∧ ∃ other ∈ graph.steps, other.stepId = d
  once : ∀ step ∈ graph.steps, step.dependsOn.Nodup
  acyclic : Acyclic graph.DependsOn
  direct : graph.executionMode = .direct → ∀ step ∈ graph.steps, step.dependsOn = []
  advanced : ∀ step ∈ graph.steps, step.status.advanced = true → ∀ d ∈ step.dependsOn,
    ∀ other ∈ graph.steps, other.stepId = d → other.status = .completed
  verified : ∀ step ∈ graph.steps, step.status = .completed → step.verificationStatus = .passed

/-! ## One step -/

section

variable {name stepId : String} {dependents : BTreeMap String (List String)}
  {acc acc' : BTreeSet String × BTreeMap String (List String) × ℕ}

/-- After the dependencies `seen`: they are distinct and known, and the step stands under each. -/
structure DependenciesRecorded (stepId : String) (dependents : BTreeMap String (List String))
    (seen : List String) (acc : BTreeSet String × BTreeMap String (List String) × ℕ) : Prop where
  unique : ∀ d, d ∈ acc.1 ↔ d ∈ seen
  once : seen.Nodup
  irreflexive : stepId ∉ seen
  known : ∀ d ∈ seen, d ∈ dependents
  children : ∀ d, acc.2.1[d]? = dependents[d]?.map fun cs => if d ∈ seen then cs ++ [stepId] else cs

theorem checkWorkDependency_eq_ok {d : String} :
    checkWorkDependency name stepId acc d = .ok acc' ↔ d ≠ stepId ∧ d ∉ acc.1 ∧
      ∃ cs, acc.2.1[d]? = some cs ∧ (acc.1.insert d, acc.2.1.insert d (cs ++ [stepId]),
        saturatingAdd acc.2.2 1) = acc' := by
  simp only [checkWorkDependency, Outcome.bind_eq_ok, Outcome.exists_unit, Outcome.failIf_eq_ok,
    Outcome.okOr_eq_ok, Outcome.pure_eq_ok, ne_eq]

theorem dependenciesRecorded_nil {checks : ℕ} :
    DependenciesRecorded stepId dependents [] (∅, dependents, checks) where
  unique := by simp
  once := List.nodup_nil
  irreflexive := by simp
  known := by simp
  children := by simp

theorem DependenciesRecorded.snoc {seen : List String} {d : String}
    (h : DependenciesRecorded stepId dependents seen acc)
    (hd : checkWorkDependency name stepId acc d = .ok acc') :
    DependenciesRecorded stepId dependents (seen ++ [d]) acc' := by
  obtain ⟨hself, hnew, cs, hcs, rfl⟩ := checkWorkDependency_eq_ok.mp hd
  have hseen : d ∉ seen := fun hmem => hnew ((h.unique d).mpr hmem)
  have hdep : dependents[d]? = some cs := by
    rw [h.children d] at hcs
    simpa [hseen] using hcs
  constructor
  · intro x
    rw [BTreeSet.mem_insert_iff, h.unique, List.mem_append, List.mem_singleton, or_comm, eq_comm]
  · exact List.nodup_append.mpr ⟨h.once, List.nodup_singleton d, by
      rintro a ha b hb rfl
      exact hseen (by simpa [List.mem_singleton.mp hb] using ha)⟩
  · rw [List.mem_append, List.mem_singleton]
    rintro (hmem | rfl)
    · exact h.irreflexive hmem
    · exact hself rfl
  · intro x hx
    rw [List.mem_append, List.mem_singleton] at hx
    rcases hx with hx | rfl
    · exact h.known x hx
    · exact BTreeMap.mem_iff_exists.mpr ⟨cs, hdep⟩
  · intro x
    rw [Worklist.get_record hcs, h.children x, Option.map_map]
    congr 1
    funext children
    by_cases hx : x = d
    · subst hx
      simp [hseen]
    · simp [hx]

theorem exists_checkWorkDependencies {deps : List String} (checks : ℕ) (hself : stepId ∉ deps)
    (honce : deps.Nodup) (hknown : ∀ d ∈ deps, d ∈ dependents) :
    ∃ acc, Outcome.foldl (checkWorkDependency name stepId) (∅, dependents, checks) deps = .ok acc := by
  refine Outcome.foldl_total dependenciesRecorded_nil (fun _ _ _ _ _ hI hd => hI.snoc hd) ?_
  rintro seen acc d ⟨rest, rfl⟩ hI
  have hd : d ∈ seen ++ d :: rest := by simp
  have hseen : d ∉ seen := fun hmem =>
    (List.nodup_append.mp honce).2.2 d hmem d List.mem_cons_self rfl
  obtain ⟨cs, hcs⟩ := BTreeMap.mem_iff_exists.mp (hknown d hd)
  refine ⟨_, checkWorkDependency_eq_ok.mpr ⟨?_, ?_, cs, ?_, rfl⟩⟩
  · rintro rfl
    exact hself hd
  · rwa [hI.unique]
  · rw [hI.children, hcs]
    simp [hseen]

theorem calm_checkWorkDependencies {deps : List String} :
    Outcome.Calm (Outcome.foldl (checkWorkDependency name stepId) acc deps) :=
  Outcome.calm_foldl (I := fun _ _ => True) trivial (fun _ _ _ _ _ _ _ => trivial)
    fun _ _ _ _ _ => by simp [checkWorkDependency]

end

section

variable {name : String} {executionMode : ExecutionMode} {steps : BTreeMap String WorkStep}
  {acc acc' : WorkGraphIndex} {entry : String × WorkStep}

/-- What is checked of one step, among the steps of its graph. -/
structure AllowedWorkStep (executionMode : ExecutionMode) (steps : BTreeMap String WorkStep)
    (entry : String × WorkStep) : Prop where
  irreflexive : entry.1 ∉ entry.2.dependsOn
  once : entry.2.dependsOn.Nodup
  known : ∀ d ∈ entry.2.dependsOn, d ∈ steps
  direct : executionMode = .direct → entry.2.dependsOn = []
  advanced : entry.2.status.advanced = true → ∀ d ∈ entry.2.dependsOn,
    ∀ other, steps[d]? = some other → other.status = .completed
  verified : entry.2.status = .completed → entry.2.verificationStatus = .passed

theorem checkCompletedDependency_eq_ok {stepId d : String} :
    checkCompletedDependency name steps stepId d = .ok () ↔
      ∃ other, steps[d]? = some other ∧ other.status = .completed := by
  simp only [checkCompletedDependency, Outcome.bind_eq_ok, Outcome.expect_eq_ok,
    Outcome.failIf_eq_ok, ne_eq, not_not]

theorem checkAdvancedStep_eq_ok {stepId : String} {step : WorkStep} :
    checkAdvancedStep name steps stepId step = .ok () ↔
      (step.status.advanced = true → ∀ d ∈ step.dependsOn,
        ∃ other, steps[d]? = some other ∧ other.status = .completed) := by
  unfold checkAdvancedStep
  split
  · rename_i hadvanced
    simp only [hadvanced, Outcome.forEach_eq_ok, checkCompletedDependency_eq_ok, forall_const]
  · rename_i hadvanced
    exact iff_of_true rfl fun hstatus => absurd hstatus hadvanced

theorem calm_checkAdvancedStep {stepId : String} {step : WorkStep}
    (hknown : ∀ d ∈ step.dependsOn, d ∈ steps) :
    Outcome.Calm (checkAdvancedStep name steps stepId step) := by
  unfold checkAdvancedStep
  split
  · refine Outcome.calm_forEach fun d hd => ?_
    have hd := Std.ExtTreeMap.mem_iff_isSome_getElem?.mp (hknown d hd)
    simpa [checkCompletedDependency] using hd
  · exact Outcome.calm_pure

/-- **One step**: what an accepted step satisfies, and how it is recorded. -/
theorem checkWorkStep_eq_ok (hkeys : ∀ d, d ∈ acc.dependents ↔ d ∈ steps)
    (h : checkWorkStep name executionMode steps acc entry = .ok acc') :
    AllowedWorkStep executionMode steps entry ∧
      acc'.remainingDependencies =
        acc.remainingDependencies.insert entry.1 entry.2.dependsOn.length ∧
      ∀ d, acc'.dependents[d]? = acc.dependents[d]?.map fun cs =>
        if d ∈ entry.2.dependsOn then cs ++ [entry.1] else cs := by
  simp only [checkWorkStep, Outcome.bind_eq_ok, Outcome.exists_unit, Outcome.failIf_eq_ok,
    checkAdvancedStep_eq_ok, Outcome.pure_eq_ok, not_and, not_not] at h
  obtain ⟨recorded, hrecorded, hdirect, hadvanced, hverified, rfl⟩ := h
  have hI := Outcome.foldl_induction dependenciesRecorded_nil
    (fun _ _ _ _ _ hI hd => DependenciesRecorded.snoc hI hd) hrecorded
  refine ⟨⟨hI.irreflexive, hI.once, fun d hd => (hkeys d).mp (hI.known d hd), hdirect, ?_, hverified⟩,
    rfl, hI.children⟩
  intro hstatus d hd other hother
  obtain ⟨other', hother', hcompleted⟩ := hadvanced hstatus d hd
  rw [hother] at hother'
  rwa [Option.some.inj hother']

theorem exists_checkWorkStep (hkeys : ∀ d, d ∈ acc.dependents ↔ d ∈ steps)
    (h : AllowedWorkStep executionMode steps entry) :
    ∃ acc', checkWorkStep name executionMode steps acc entry = .ok acc' := by
  obtain ⟨recorded, hrecorded⟩ := @exists_checkWorkDependencies name entry.1 acc.dependents
    entry.2.dependsOn acc.semanticChecks h.irreflexive h.once fun d hd =>
      (hkeys d).mpr (h.known d hd)
  simp only [checkWorkStep, Outcome.bind_eq_ok, Outcome.exists_unit, Outcome.failIf_eq_ok,
    checkAdvancedStep_eq_ok, Outcome.pure_eq_ok, not_and, not_not]
  refine ⟨_, recorded, hrecorded, h.direct, fun hstatus d hd => ?_, h.verified, rfl⟩
  obtain ⟨other, hother⟩ := BTreeMap.mem_iff_exists.mp (h.known d hd)
  exact ⟨other, hother, h.advanced hstatus d hd other hother⟩

theorem calm_checkWorkStep (hkeys : ∀ d, d ∈ acc.dependents ↔ d ∈ steps) :
    Outcome.Calm (checkWorkStep name executionMode steps acc entry) := by
  simp only [checkWorkStep, Outcome.calm_bind, calm_checkWorkDependencies, Outcome.calm_failIf,
    Outcome.calm_pure, true_and, and_true, implies_true]
  intro recorded hrecorded _ _
  have hI := Outcome.foldl_induction dependenciesRecorded_nil
    (fun _ _ _ _ _ hI hd => DependenciesRecorded.snoc hI hd) hrecorded
  exact calm_checkAdvancedStep fun d hd => (hkeys d).mp (hI.known d hd)

end

/-! ## The graph -/

/-- The dependencies that are listed under an id. -/
def dependenciesOf (steps : BTreeMap String WorkStep) (id : String) : List String :=
  steps[id]?.elim [] WorkStep.dependsOn

section

variable {name : String} {executionMode : ExecutionMode} {steps : BTreeMap String WorkStep}

/-- After the steps `seen`: they are allowed, counted, and listed under their dependencies. -/
structure StepsRecorded (executionMode : ExecutionMode) (steps : BTreeMap String WorkStep)
    (seen : List (String × WorkStep)) (acc : WorkGraphIndex) : Prop where
  allowed : ∀ entry ∈ seen, AllowedWorkStep executionMode steps entry
  remaining : ∀ id n, acc.remainingDependencies[id]? = some n ↔
    ∃ entry ∈ seen, entry.1 = id ∧ entry.2.dependsOn.length = n
  dependents : Worklist.Recorded steps.keys (dependenciesOf steps) (seen.map Prod.fst) acc.dependents

theorem stepsRecorded_nil :
    StepsRecorded executionMode steps [] ⟨∅, steps.map fun _ _ => [], 1⟩ where
  allowed := by simp
  remaining := by simp
  dependents := by
    intro d
    by_cases hd : d ∈ steps
    · obtain ⟨step, hstep⟩ := BTreeMap.mem_iff_exists.mp hd
      simp [hd, Std.ExtTreeMap.mem_keys]
    · simp [hd, Std.ExtTreeMap.mem_keys]

theorem StepsRecorded.keys {seen : List (String × WorkStep)} {acc : WorkGraphIndex}
    (h : StepsRecorded executionMode steps seen acc) (d : String) :
    d ∈ acc.dependents ↔ d ∈ steps := by
  rw [Std.ExtTreeMap.mem_iff_isSome_getElem?, h.dependents d]
  by_cases hd : d ∈ steps <;> simp [hd, Std.ExtTreeMap.mem_keys]

theorem StepsRecorded.snoc {seen rest : List (String × WorkStep)} {entry : String × WorkStep}
    {acc acc' : WorkGraphIndex} (hsplit : steps.toList = seen ++ entry :: rest)
    (h : StepsRecorded executionMode steps seen acc)
    (hok : checkWorkStep name executionMode steps acc entry = .ok acc') :
    StepsRecorded executionMode steps (seen ++ [entry]) acc' := by
  obtain ⟨hallowed, hremaining, hdependents⟩ := checkWorkStep_eq_ok h.keys hok
  have hentry : steps[entry.1]? = some entry.2 :=
    Std.ExtTreeMap.mem_toList_iff_getElem?_eq_some.mp (by rw [hsplit]; simp)
  have hnew : ∀ other ∈ seen, other.1 ≠ entry.1 := by
    intro other hother hkey
    have hdistinct := steps.distinct_keys_toList
    rw [hsplit, List.pairwise_append] at hdistinct
    exact hdistinct.2.2 other hother entry List.mem_cons_self
      (by rw [hkey]; exact Std.ReflCmp.compare_self)
  constructor
  · intro other hother
    rcases List.mem_append.mp hother with hother | hother
    · exact h.allowed other hother
    · rwa [List.mem_singleton.mp hother]
  · intro id n
    rw [hremaining, BTreeMap.get_insert]
    by_cases hid : entry.1 = id
    · subst hid
      simp only [if_pos, Option.some.injEq, List.mem_append, List.mem_singleton]
      constructor
      · rintro rfl
        exact ⟨entry, Or.inr rfl, rfl, rfl⟩
      · rintro ⟨other, hother | rfl, hkey, hn⟩
        · exact absurd hkey (hnew other hother)
        · exact hn
    · rw [if_neg hid, h.remaining]
      constructor
      · rintro ⟨other, hother, hrest⟩
        exact ⟨other, List.mem_append_left _ hother, hrest⟩
      · rintro ⟨other, hother, hkey, hn⟩
        rcases List.mem_append.mp hother with hother | hother
        · exact ⟨other, hother, hkey, hn⟩
        · exact absurd (List.mem_singleton.mp hother ▸ hkey) hid
  · rw [List.map_append, List.map_singleton]
    refine h.dependents.snoc fun d => ?_
    rw [hdependents d, dependenciesOf, hentry]
    rfl

theorem exists_checkWorkSteps (hallowed : ∀ entry ∈ steps.toList,
      AllowedWorkStep executionMode steps entry) :
    ∃ index, Outcome.foldl (checkWorkStep name executionMode steps)
      ⟨∅, steps.map fun _ _ => [], 1⟩ steps.toList = .ok index := by
  refine Outcome.foldl_total stepsRecorded_nil (fun _ _ _ _ ⟨_, hsplit⟩ hI hok => hI.snoc hsplit hok)
    ?_
  rintro seen acc entry ⟨rest, hsplit⟩ hI
  exact exists_checkWorkStep hI.keys (hallowed entry (by rw [hsplit]; simp))

theorem stepsRecorded_of_foldl {index : WorkGraphIndex}
    (h : Outcome.foldl (checkWorkStep name executionMode steps) ⟨∅, steps.map fun _ _ => [], 1⟩
      steps.toList = .ok index) : StepsRecorded executionMode steps steps.toList index :=
  Outcome.foldl_induction stepsRecorded_nil
    (fun _ _ _ _ ⟨_, hsplit⟩ hI hok => hI.snoc hsplit hok) h

theorem calm_checkWorkSteps : Outcome.Calm (Outcome.foldl (checkWorkStep name executionMode steps)
    ⟨∅, steps.map fun _ _ => [], 1⟩ steps.toList) :=
  Outcome.calm_foldl stepsRecorded_nil
    (fun _ _ _ _ ⟨_, hsplit⟩ hI hok => StepsRecorded.snoc hsplit hI hok)
    fun _ _ _ _ hI => calm_checkWorkStep (StepsRecorded.keys hI)

theorem StepsRecorded.visit {index : WorkGraphIndex}
    (h : StepsRecorded executionMode steps steps.toList index) (missing underflow : String) :
    ∃ processed, Worklist.visit (ε := ProtocolError) missing underflow index.dependents steps.size
        index.remainingDependencies (.ofList
          ((index.remainingDependencies.toList.filter fun entry => entry.2 == 0).map Prod.fst)
          compare) 0 = .ok processed ∧
      (processed = steps.size ↔
        Acyclic (Worklist.DependsOn steps.keys (dependenciesOf steps))) := by
  have hget : ∀ key ∈ steps.keys, ∃ step, steps[key]? = some step ∧
      dependenciesOf steps key = step.dependsOn ∧ AllowedWorkStep executionMode steps (key, step) := by
    intro key hkey
    obtain ⟨step, hstep⟩ := BTreeMap.mem_iff_exists.mp (Std.ExtTreeMap.mem_keys.mp hkey)
    exact ⟨step, hstep, by rw [dependenciesOf, hstep]; rfl,
      h.allowed _ (Std.ExtTreeMap.mem_toList_iff_getElem?_eq_some.mpr hstep)⟩
  have hlength : steps.keys.length = steps.size := Std.ExtTreeMap.length_keys
  have hG : Worklist.Graph steps.keys (dependenciesOf steps) index.dependents := by
    have hrecorded := h.dependents
    rw [Std.ExtTreeMap.map_fst_toList_eq_keys] at hrecorded
    refine Worklist.graph_of_recorded Std.ExtTreeMap.nodup_keys hrecorded ?_ ?_ ?_
    · intro key hkey
      obtain ⟨step, -, hdeps, hallowed⟩ := hget key hkey
      exact hdeps ▸ hallowed.once
    · intro key hkey d hd
      obtain ⟨step, -, hdeps, hallowed⟩ := hget key hkey
      exact Std.ExtTreeMap.mem_keys.mpr (hallowed.known d (hdeps ▸ hd))
    · intro key hkey
      obtain ⟨step, -, hdeps, hallowed⟩ := hget key hkey
      exact hdeps ▸ hallowed.irreflexive
  have hcount : ∀ id n, index.remainingDependencies[id]? = some n ↔
      id ∈ steps.keys ∧ (dependenciesOf steps id).length = n := by
    intro id n
    rw [h.remaining]
    constructor
    · rintro ⟨⟨_, step⟩, hentry, rfl, hn⟩
      have hstep := Std.ExtTreeMap.mem_toList_iff_getElem?_eq_some.mp hentry
      exact ⟨Std.ExtTreeMap.mem_keys.mpr (BTreeMap.mem_iff_exists.mpr ⟨step, hstep⟩),
        by rw [dependenciesOf, hstep]; exact hn⟩
    · rintro ⟨hid, hn⟩
      obtain ⟨step, hstep, hdeps, -⟩ := hget id hid
      exact ⟨(id, step), Std.ExtTreeMap.mem_toList_iff_getElem?_eq_some.mpr hstep, rfl, hdeps ▸ hn⟩
  have hstart : Worklist.Visit steps.keys (dependenciesOf steps) [] index.remainingDependencies
      (.ofList ((index.remainingDependencies.toList.filter fun entry => entry.2 == 0).map Prod.fst)
        compare) := by
    refine Worklist.visit_start (fun key hkey => (hcount key _).mpr ⟨hkey, rfl⟩) fun key => ?_
    simp only [BTreeSet.mem_ofList_iff, List.mem_map, List.mem_filter, Prod.exists,
      exists_and_right, exists_eq_right, Std.ExtTreeMap.mem_toList_iff_getElem?_eq_some, beq_iff_eq,
      hcount, List.length_eq_zero_iff]
  obtain ⟨order, remaining, hV, hvisit⟩ := Worklist.exists_visit (ε := ProtocolError)
    missing underflow hG steps.size hstart (by rw [hlength, List.length_nil, Nat.zero_add])
  exact ⟨order.length, hvisit, hlength ▸ hV.complete_iff Std.ExtTreeMap.nodup_keys hG⟩

/-! ## The steps of a graph, under their ids -/

variable {graph : WorkGraphBody}

theorem indexSteps_eq_ok : indexSteps name graph = .ok steps ↔
    (graph.steps.map WorkStep.stepId).Nodup ∧
      BTreeMap.insertAll WorkStep.stepId (fun step => step) ∅ graph.steps = steps := by
  unfold indexSteps
  rw [BTreeMap.foldl_insertNew_eq_ok]
  simp

theorem calm_indexSteps : Outcome.Calm (indexSteps name graph) :=
  Outcome.calm_foldl (I := fun _ _ => True) trivial (fun _ _ _ _ _ _ _ => trivial)
    fun _ _ _ _ _ => by simp [BTreeMap.insertNew]

theorem get_indexSteps (h : indexSteps name graph = .ok steps) (id : String) (step : WorkStep) :
    steps[id]? = some step ↔ step ∈ graph.steps ∧ step.stepId = id := by
  obtain ⟨hdistinct, rfl⟩ := indexSteps_eq_ok.mp h
  constructor
  · intro hstep
    rcases BTreeMap.get_insertAll_eq_some hdistinct hstep with ⟨step', hmem, hid, rfl⟩ | ⟨-, hempty⟩
    · exact ⟨hmem, hid⟩
    · simp at hempty
  · rintro ⟨hmem, rfl⟩
    exact BTreeMap.get_insertAll_of_mem hdistinct hmem

theorem mem_indexSteps (h : indexSteps name graph = .ok steps) (id : String) :
    id ∈ steps ↔ ∃ step ∈ graph.steps, step.stepId = id := by
  simp only [BTreeMap.mem_iff_exists, get_indexSteps h]

theorem dependsOn_indexSteps (h : indexSteps name graph = .ok steps) :
    Worklist.DependsOn steps.keys (dependenciesOf steps) = graph.DependsOn := by
  funext a b
  apply propext
  unfold Worklist.DependsOn WorkGraphBody.DependsOn dependenciesOf
  rw [Std.ExtTreeMap.mem_keys, mem_indexSteps h]
  constructor
  · rintro ⟨⟨step, hmem, hid⟩, hb⟩
    rw [(get_indexSteps h a step).mpr ⟨hmem, hid⟩] at hb
    exact ⟨step, hmem, hid, hb⟩
  · rintro ⟨step, hmem, hid, hb⟩
    rw [(get_indexSteps h a step).mpr ⟨hmem, hid⟩]
    exact ⟨⟨step, hmem, hid⟩, hb⟩

theorem validWorkGraph_iff (h : indexSteps name graph = .ok steps) :
    ValidWorkGraph graph ↔
      (∀ entry ∈ steps.toList, AllowedWorkStep graph.executionMode steps entry) ∧
        Acyclic graph.DependsOn := by
  have hentry : ∀ id step, (id, step) ∈ steps.toList ↔ step ∈ graph.steps ∧ step.stepId = id :=
    fun id step => Std.ExtTreeMap.mem_toList_iff_getElem?_eq_some.trans (get_indexSteps h id step)
  constructor
  · intro hvalid
    refine ⟨?_, hvalid.acyclic⟩
    rintro ⟨id, step⟩ hmem
    obtain ⟨hstep, rfl⟩ := (hentry id step).mp hmem
    constructor
    · exact fun hself => (hvalid.another step hstep _ hself).1 rfl
    · exact hvalid.once step hstep
    · exact fun d hd => (mem_indexSteps h d).mpr (hvalid.another step hstep d hd).2
    · exact fun hdirect => hvalid.direct hdirect step hstep
    · intro hstatus d hd other hother
      obtain ⟨hmem, hid⟩ := (get_indexSteps h d other).mp hother
      exact hvalid.advanced step hstep hstatus d hd other hmem hid
    · exact hvalid.verified step hstep
  · rintro ⟨hallowed, hacyclic⟩
    have hstep : ∀ step ∈ graph.steps,
        AllowedWorkStep graph.executionMode steps (step.stepId, step) :=
      fun step hmem => hallowed _ ((hentry _ _).mpr ⟨hmem, rfl⟩)
    refine ⟨(indexSteps_eq_ok.mp h).1, ?_, fun step hmem => (hstep step hmem).once, hacyclic,
      fun hdirect step hmem => (hstep step hmem).direct hdirect, ?_,
      fun step hmem => (hstep step hmem).verified⟩
    · intro step hmem d hd
      refine ⟨?_, (mem_indexSteps h d).mp ((hstep step hmem).known d hd)⟩
      rintro rfl
      exact (hstep step hmem).irreflexive hd
    · intro step hmem hstatus d hd other hother hid
      exact (hstep step hmem).advanced hstatus d hd other ((get_indexSteps h d other).mpr ⟨hother, hid⟩)

end

/-- **The check is exact**: a graph is accepted just when it is valid, and no `expect` and no lookup
by index panics on any list of steps. -/
theorem work_graph_validation_exact (name : String) (graph : WorkGraphBody) :
    ((∃ checks, validateWorkGraphSemantics name graph = .ok checks) ↔ ValidWorkGraph graph) ∧
      Outcome.Calm (validateWorkGraphSemantics name graph) := by
  unfold validateWorkGraphSemantics
  constructor
  · constructor
    · rintro ⟨checks, h⟩
      simp only [Outcome.bind_eq_ok, Outcome.exists_unit, Outcome.failIf_eq_ok, ne_eq,
        not_not] at h
      obtain ⟨steps, hsteps, index, hindex, processed, hvisit, hall, -⟩ := h
      have hI := stepsRecorded_of_foldl hindex
      obtain ⟨processed', hvisit', hiff⟩ := hI.visit "validated dependent should be indexed"
        "dependency count cannot underflow"
      obtain rfl : processed' = processed := by
        rw [hvisit'] at hvisit
        simpa using hvisit
      exact (validWorkGraph_iff hsteps).mpr
        ⟨hI.allowed, dependsOn_indexSteps hsteps ▸ hiff.mp hall⟩
    · intro hvalid
      have hsteps := (@indexSteps_eq_ok name _ graph).mpr ⟨hvalid.distinct, rfl⟩
      obtain ⟨hallowed, hacyclic⟩ := (validWorkGraph_iff hsteps).mp hvalid
      obtain ⟨index, hindex⟩ := @exists_checkWorkSteps name _ _ hallowed
      obtain ⟨processed, hvisit, hiff⟩ := (stepsRecorded_of_foldl hindex).visit
        "validated dependent should be indexed" "dependency count cannot underflow"
      refine ⟨index.semanticChecks, ?_⟩
      simp only [Outcome.bind_eq_ok, Outcome.exists_unit, Outcome.failIf_eq_ok, ne_eq,
        not_not, Outcome.pure_eq_ok]
      exact ⟨_, hsteps, index, hindex, processed, hvisit,
        hiff.mpr (dependsOn_indexSteps hsteps ▸ hacyclic), rfl⟩
  · refine Outcome.calm_bind.mpr ⟨calm_indexSteps, fun steps hsteps => ?_⟩
    refine Outcome.calm_bind.mpr ⟨calm_checkWorkSteps, fun index hindex => ?_⟩
    obtain ⟨processed, hvisit, -⟩ := (stepsRecorded_of_foldl hindex).visit
      "validated dependent should be indexed" "dependency count cannot underflow"
    simp [hvisit]

end Xgeny
