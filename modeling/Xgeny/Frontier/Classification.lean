import Xgeny.Transition.Inversion

set_option autoImplicit false

/-!
# What a frontier says of each step

A frontier files every step in exactly one of its lists. A planned step is blocked when some step it
depends on, directly or through others, is settled without releasing its dependents; the loop of the
source carries one outcome for each step along the topological order, which is the same.

* `IsBlocked`: a step that blocks is reachable through dependencies;
* `Filed`: the invariant of the lists;
* **`frontier_acceptance_exact`**: on which states a frontier exists, and that nothing panics;
* **`frontier_classification_exact`**: what the lists of a frontier hold, and in which order.
-/

namespace Xgeny

/-! ## Panics -/

section

variable {state : RunState} {order : List String} {assembly : FrontierAssembly}

theorem calm_requireReleased {id : String} {step : StepState} {pending : List String}
    {blockers : List DependencyBlocker} :
    Outcome.Calm (FrontierAssembly.requireReleased id step pending blockers) := by
  unfold FrontierAssembly.requireReleased
  split
  · rename_i h
    refine Outcome.calm_bind.mpr ⟨?_, fun _ _ => Outcome.calm_fail⟩
    cases blockers with
    | cons blocker rest => exact Outcome.calm_pure
    | nil =>
      cases pending with
      | nil => exact absurd ⟨rfl, rfl⟩ h.2
      | cons first rest => simp [FrontierAssembly.unreleasedDependency]
  · exact Outcome.calm_pure

theorem calm_recordStep (hC : Classified state order assembly) {id : String} {step : StepState}
    (hid : state.steps[id]? = some step) (hdeps : ∀ d ∈ step.dependsOn, d ∈ order) :
    Outcome.Calm (assembly.recordStep state id) := by
  obtain ⟨pending, blockers, hpart, _⟩ := partitionDependencies_spec hC hdeps
  simp [FrontierAssembly.recordStep, hid, hpart, calm_requireReleased]

theorem calm_visitReady {graph : ValidatedFrontierGraph} (hg : WellFormedGraph state)
    (hG : GraphIndex state graph) (fuel : ℕ) :
    ∀ {order remaining ready assembly}, Visiting state order remaining ready assembly →
      state.steps.size < order.length + fuel →
      Outcome.Calm (visitReady state graph.dependents fuel remaining ready assembly) := by
  induction fuel with
  | zero =>
    intro order remaining ready assembly hV hfuel
    exact absurd hV.length_le (by omega)
  | succ fuel ih =>
    intro order remaining ready assembly hV hfuel
    cases hmin : BTreeSet.first? ready with
    | none =>
      rw [visitReady_done hmin]
      exact Outcome.calm_ok
    | some id =>
      have hid := BTreeSet.mem_of_first?_eq_some hmin
      obtain ⟨_, step, hstep, hdeps⟩ := (hV.ready id).mp hid
      obtain ⟨children, acc, hchildren, hacc, hsound, _⟩ := hV.round hg hG hid
      have hlen : state.steps.size < (order ++ [id]).length + fuel := by
        rw [List.length_append, List.length_singleton]
        omega
      rw [visitReady_next hmin, Outcome.calm_bind]
      refine ⟨calm_recordStep hV.classified hstep hdeps, fun assembly' hrec => ?_⟩
      rw [hchildren, Outcome.calm_bind]
      refine ⟨by simp, fun found hfound => ?_⟩
      obtain rfl : children = found := by simpa using hfound
      rw [hacc]
      exact ih (hsound _ hrec) hlen

theorem calm_validateFrontierGraph : Outcome.Calm (validateFrontierGraph state) := by
  have hloop : ∀ (stepId : String) (deps : List String)
      (acc : BTreeSet String × BTreeMap String (List String)),
      Outcome.Calm (Outcome.foldl (validateDependency stepId) acc deps) := fun _ _ _ =>
    Outcome.calm_foldl (I := fun _ _ => True) trivial (fun _ _ _ _ _ _ _ => trivial)
      fun _ _ _ _ _ => by simp [validateDependency]
  have hsteps : Outcome.Calm
      (Outcome.foldl validateStep (∅, state.steps.map fun _ _ => []) state.steps.toList) :=
    Outcome.calm_foldl (I := fun _ _ => True) trivial (fun _ _ _ _ _ _ _ => trivial)
      fun _ _ _ _ _ => by simp [validateStep, hloop]
  simp [validateFrontierGraph, hsteps]

theorem calm_deriveFrontier : Outcome.Calm (deriveFrontier state) := by
  simp only [deriveFrontier, Outcome.calm_bind, Outcome.calm_failIf, Outcome.calm_pure,
    implies_true, and_true]
  refine ⟨calm_validateFrontierGraph, fun graph hgraph => ?_⟩
  obtain ⟨hg, hG⟩ := validateFrontierGraph_eq_ok hgraph
  exact calm_visitReady hg hG _ (visiting_start hG) (by simp)

end

/-- **Frontier acceptance is exact.** A frontier exists exactly when dependencies are known, never
the step itself, listed once and without a cycle, and every step that left `planned` has only released
ones; and deriving a frontier never panics, on any state. -/
theorem frontier_acceptance_exact (state : RunState) :
    ((∃ frontier, deriveFrontier state = .ok frontier) ↔
      (∀ (id : String) (step : StepState), state.steps[id]? = some step →
        (∀ d ∈ step.dependsOn, d ∈ state.steps) ∧ id ∉ step.dependsOn ∧ step.dependsOn.Nodup ∧
          (step.status ≠ .planned → ∀ d ∈ step.dependsOn, ∃ dependency,
            state.steps[d]? = some dependency ∧ receiptReleasesDependency dependency = true)) ∧
        Acyclic (DependsOn state)) ∧
    ∀ message, deriveFrontier state ≠ .error (.panic message) := by
  refine ⟨?_, calm_deriveFrontier⟩
  rw [exists_deriveFrontier_iff]
  constructor
  · intro hS
    exact ⟨fun id step hstep => ⟨fun d hd => hS.known hstep hd, hS.irreflexive hstep,
      hS.nodup hstep, hS.released hstep⟩, hS.acyclic⟩
  · rintro ⟨hsteps, hacyclic⟩
    exact
      { known := fun hstep hd => (hsteps _ _ hstep).1 _ hd
        irreflexive := fun hstep => (hsteps _ _ hstep).2.1
        nodup := fun hstep => (hsteps _ _ hstep).2.2.1
        acyclic := hacyclic
        released := fun hstep => (hsteps _ _ hstep).2.2.2 }

/-! ## Blocked steps -/

/-- The step is settled and releases no dependent. -/
def StepState.Blocks (step : StepState) : Prop :=
  step.status = .failed ∨ step.status = .manualRequired ∨
    step.status = .completed ∧ receiptReleasesDependency step = false

/-- A step that blocks is reachable through dependencies. -/
def IsBlocked (state : RunState) (id : String) : Prop :=
  ∃ x step, Relation.ReflTransGen (DependsOn state) id x ∧ state.steps[x]? = some step ∧ step.Blocks

section

variable {state : RunState} {id : String} {step : StepState}

theorem isBlocked_iff (hid : state.steps[id]? = some step) :
    IsBlocked state id ↔ step.Blocks ∨ ∃ d ∈ step.dependsOn, IsBlocked state d := by
  constructor
  · rintro ⟨x, blocker, hpath, hx, hblocks⟩
    rcases hpath.cases_head with rfl | ⟨d, ⟨s, hs, hd⟩, hrest⟩
    · obtain rfl := Option.some.inj (hid.symm.trans hx)
      exact Or.inl hblocks
    · obtain rfl := Option.some.inj (hid.symm.trans hs)
      exact Or.inr ⟨d, hd, x, blocker, hrest, hx, hblocks⟩
  · rintro (hblocks | ⟨d, hd, x, blocker, hpath, hx, hblocks⟩)
    · exact ⟨id, step, .refl, hid, hblocks⟩
    · exact ⟨x, blocker, .head ⟨step, hid, hd⟩ hpath, hx, hblocks⟩

theorem isBlocked_split {step : StepState} (hid : state.steps[id]? = some step) :
    IsBlocked state id ↔ step.Blocks ∨ ∃ x blocker, Relation.TransGen (DependsOn state) id x ∧
      state.steps[x]? = some blocker ∧ blocker.Blocks := by
  constructor
  · rintro ⟨x, blocker, hpath, hx, hblocks⟩
    rcases Relation.reflTransGen_iff_eq_or_transGen.mp hpath with rfl | hpath
    · obtain rfl := Option.some.inj (hid.symm.trans hx)
      exact Or.inl hblocks
    · exact Or.inr ⟨x, blocker, hpath, hx, hblocks⟩
  · rintro (hblocks | ⟨x, blocker, hpath, hx, hblocks⟩)
    · exact ⟨id, step, .refl, hid, hblocks⟩
    · exact ⟨x, blocker, hpath.to_reflTransGen, hx, hblocks⟩

theorem not_blocks_of_releases (h : receiptReleasesDependency step = true) : ¬ step.Blocks := by
  have hcompleted := completed_of_releases h
  simp [StepState.Blocks, hcompleted, h]

/-! ## The lists of an assembly -/

/-- The lifecycle rank of a status and the action offered for it. -/
def StepStatus.offered : StepStatus → Option (ℕ × ContinuationAction)
  | .executing => some (0, .driveEffect)
  | .effectUnknown => some (1, .driveEffect)
  | .reconciling => some (2, .driveEffect)
  | .validating => some (3, .verify)
  | .intentCommitted => some (4, .driveEffect)
  | .planned => some (5, .admitStep)
  | .completed | .failed | .manualRequired => none

/-- The dependencies that do not release, in order. -/
def unreleased (state : RunState) (step : StepState) : List String :=
  (step.dependsOn.filter fun d => !releasesAt state d).insertionSort (· ≤ ·)

theorem unreleased_eq_nil : unreleased state step = [] ↔
    ∀ d ∈ step.dependsOn, releasesAt state d = true := by
  rw [unreleased, insertionSort_eq_nil, List.filter_eq_nil_iff]
  simp

/-- The ids in all lists. -/
def FrontierAssembly.filedIds (self : FrontierAssembly) : List String :=
  self.rankedActions.map (fun action => action.2.1) ++ self.waiting.map WaitingStep.stepId ++
    self.blocked.map BlockedStep.stepId ++ self.verifiedCompletedStepIds ++
    self.unverifiedCompletedStepIds ++ self.failedStepIds ++ self.manualRequiredStepIds

/-- What the lists hold after the steps `order` were visited. -/
structure Filed (state : RunState) (order : List String) (assembly : FrontierAssembly) : Prop where
  outcome : ∀ x ∈ order, ∃ o, assembly.outcomes[x]? = some o ∧
    (o = .satisfied ↔ releasesAt state x = true) ∧ (o = .blocked ↔ IsBlocked state x)
  filed : assembly.filedIds.Perm order
  actions : ∀ action ∈ assembly.rankedActions, ∃ s, state.steps[action.2.1]? = some s ∧
    s.status.offered = some (action.1, action.2.2) ∧
    (s.status = .planned → unreleased state s = [] ∧ ¬ IsBlocked state action.2.1)
  waiting : ∀ entry ∈ assembly.waiting, ∃ s, state.steps[entry.stepId]? = some s ∧
    s.status = .planned ∧ ¬ IsBlocked state entry.stepId ∧ unreleased state s ≠ [] ∧
    entry.pendingDependencies = unreleased state s
  blocked : ∀ entry ∈ assembly.blocked, ∃ s, state.steps[entry.stepId]? = some s ∧
    s.status = .planned ∧ IsBlocked state entry.stepId
  verified : ∀ x ∈ assembly.verifiedCompletedStepIds, ∃ s, state.steps[x]? = some s ∧
    receiptReleasesDependency s = true
  unverified : ∀ x ∈ assembly.unverifiedCompletedStepIds, ∃ s, state.steps[x]? = some s ∧
    s.status = .completed ∧ receiptReleasesDependency s = false
  failed : ∀ x ∈ assembly.failedStepIds, ∃ s, state.steps[x]? = some s ∧ s.status = .failed
  manualRequired : ∀ x ∈ assembly.manualRequiredStepIds, ∃ s, state.steps[x]? = some s ∧
    s.status = .manualRequired

theorem Filed.nil : Filed state [] {} := by
  constructor <;> simp [FrontierAssembly.filedIds]

variable {order : List String} {assembly : FrontierAssembly}

/-- The blockers are empty exactly when no dependency seen is blocked, and then the pending ones are
those that do not release. -/
def Sorted (state : RunState) (seen : List String) (acc : List String × List DependencyBlocker) :
    Prop :=
  (acc.2 = [] ↔ ∀ d ∈ seen, ¬ IsBlocked state d) ∧
    (acc.2 = [] → acc.1 = seen.filter fun d => !releasesAt state d)

theorem Filed.partition (hF : Filed state order assembly)
    (hdeps : ∀ d ∈ step.dependsOn, d ∈ order) {parts : List String × List DependencyBlocker}
    (h : assembly.partitionDependencies state step = .ok parts) :
    (parts.2 = [] ↔ ∀ d ∈ step.dependsOn, ¬ IsBlocked state d) ∧
      (parts.2 = [] → parts.1 = unreleased state step) := by
  simp only [FrontierAssembly.partitionDependencies, Outcome.bind_eq_ok, Outcome.pure_eq_ok] at h
  obtain ⟨acc, hacc, rfl⟩ := h
  have hsorted : Sorted state step.dependsOn acc := by
    refine Outcome.foldl_induction ⟨by simp, fun _ => rfl⟩ ?_ hacc
    rintro seen acc d acc' ⟨rest, hrest⟩ ⟨hblockers, hpending⟩ hok
    obtain ⟨o, ho, hsat, hblocked⟩ := hF.outcome d (hdeps d (by simp [hrest]))
    have hall : (∀ x ∈ seen ++ [d], ¬ IsBlocked state x) ↔
        (∀ x ∈ seen, ¬ IsBlocked state x) ∧ ¬ IsBlocked state d := by
      simp [or_imp, forall_and]
    unfold Sorted
    rw [hall, ← hblockers, ← hblocked, List.filter_append, List.filter_singleton]
    simp only [FrontierAssembly.partitionStep, Outcome.bind_eq_ok, Outcome.expect_eq_ok, ho,
      Option.some.injEq, exists_eq_left'] at hok
    cases o with
    | satisfied =>
      obtain rfl := Outcome.pure_eq_ok.mp hok
      have hreleases := hsat.mp rfl
      simpa [hreleases] using hpending
    | pending =>
      obtain rfl := Outcome.pure_eq_ok.mp hok
      have hreleases : releasesAt state d = false := by
        rw [← Bool.not_eq_true, ← hsat]
        decide
      simpa [hreleases] using hpending
    | blocked =>
      simp only [Outcome.bind_eq_ok, Outcome.pure_eq_ok] at hok
      obtain ⟨_, _, rfl⟩ := hok
      simp
  obtain ⟨hblockers, hpending⟩ := hsorted
  rw [dedup_eq_nil, insertionSort_eq_nil]
  exact ⟨hblockers, fun hnil => congrArg (List.insertionSort (· ≤ ·)) (hpending hnil)⟩

theorem forall_mem_snoc {α : Type} {p : α → Prop} {l : List α} {x : α} (h : ∀ a ∈ l, p a) (hx : p x) :
    ∀ a ∈ l ++ [x], p a := by
  intro a ha
  rcases List.mem_append.mp ha with ha | ha
  · exact h a ha
  · rwa [List.mem_singleton.mp ha]

theorem recordStatus_outcome (hid : state.steps[id]? = some step) {pending : List String}
    {blockers : List DependencyBlocker}
    (hblockers : blockers = [] ↔ ∀ d ∈ step.dependsOn, ¬ IsBlocked state d)
    (hreleased : step.status ≠ .planned → blockers = [] ∧ pending = []) :
    (assembly.recordStatus id step pending blockers).2 = .blocked ↔ IsBlocked state id := by
  have hdeps : (∃ d ∈ step.dependsOn, IsBlocked state d) ↔ blockers ≠ [] := by
    rw [ne_eq, hblockers]
    simp
  rw [isBlocked_iff hid, hdeps]
  unfold FrontierAssembly.recordStatus
  cases hstatus : step.status with
  | planned =>
    by_cases hnil : blockers = []
    · by_cases hwait : pending = [] <;> simp [StepState.Blocks, hstatus, hnil, hwait]
    · simp [hnil]
  | completed =>
    by_cases hrel : receiptReleasesDependency step = true
    · simp [StepState.Blocks, hstatus, hrel, hreleased (by simp [hstatus])]
    · simp [StepState.Blocks, hstatus, hrel]
  | failed | manualRequired => simp [StepState.Blocks, hstatus]
  | _ => simp [StepState.Blocks, hstatus, hreleased (by simp [hstatus])]

/-- The outcomes of the visited steps say whether they release and whether they are blocked. -/
def Outcomes (state : RunState) (order : List String) (outcomes : BTreeMap String DependencyOutcome) :
    Prop :=
  ∀ x ∈ order, ∃ o, outcomes[x]? = some o ∧ (o = .satisfied ↔ releasesAt state x = true) ∧
    (o = .blocked ↔ IsBlocked state x)

theorem filedIds_snoc {assembly' : FrontierAssembly} (h : assembly.filedIds.Perm order)
    (hcount : ∀ x, assembly'.filedIds.count x = assembly.filedIds.count x + [id].count x) :
    assembly'.filedIds.Perm (order ++ [id]) := by
  refine List.perm_iff_count.mpr fun x => ?_
  rw [hcount, List.count_append, h.count_eq]

theorem Filed.offer (hF : Filed state order assembly) (hid : state.steps[id]? = some step)
    {rank : ℕ} {action : ContinuationAction} (hoffered : step.status.offered = some (rank, action))
    (hfree : step.status = .planned → unreleased state step = [] ∧ ¬ IsBlocked state id)
    {outcomes : BTreeMap String DependencyOutcome} (houtcomes : Outcomes state (order ++ [id]) outcomes)
    {processed : ℕ} :
    Filed state (order ++ [id]) { assembly with
      rankedActions := assembly.rankedActions ++ [(rank, id, action)]
      outcomes := outcomes
      processed := processed } :=
  { hF with
    outcome := houtcomes
    filed := by
      refine filedIds_snoc hF.filed fun x => ?_
      simp only [FrontierAssembly.filedIds, List.map_append, List.map_cons, List.map_nil,
        List.count_append]
      omega
    actions := forall_mem_snoc hF.actions ⟨step, hid, hoffered, hfree⟩ }

theorem Filed.snoc (hF : Filed state order assembly) (hid : state.steps[id]? = some step)
    (hnew : id ∉ order) (hdeps : ∀ d ∈ step.dependsOn, d ∈ order) {assembly' : FrontierAssembly}
    (h : assembly.recordStep state id = .ok assembly') : Filed state (order ++ [id]) assembly' := by
  simp only [FrontierAssembly.recordStep, Outcome.bind_eq_ok, Outcome.expect_eq_ok, hid,
    Option.some.injEq, exists_eq_left', Outcome.exists_unit, Outcome.pure_eq_ok] at h
  obtain ⟨⟨pending, blockers⟩, hpart, hactive, rfl⟩ := h
  obtain ⟨hblockers, hpending⟩ := hF.partition hdeps hpart
  have hreleased := requireReleased_eq_ok.mp hactive
  obtain ⟨houtcomes, hsat, _⟩ := recordStatus_spec assembly id step pending blockers
  have hblocked : (assembly.recordStatus id step pending blockers).2 = .blocked ↔
      IsBlocked state id := recordStatus_outcome hid hblockers hreleased
  have houtcome : Outcomes state (order ++ [id])
      ((assembly.recordStatus id step pending blockers).1.outcomes.insert id
        (assembly.recordStatus id step pending blockers).2) := by
    refine forall_mem_snoc (fun x hx => ?_) ⟨_, Std.ExtTreeMap.getElem?_insert_self, ?_, hblocked⟩
    · have hne : id ≠ x := fun heq => hnew (heq ▸ hx)
      rw [BTreeMap.get_insert_ne _ _ hne, houtcomes]
      exact hF.outcome x hx
    · rw [hsat, releasesAt_eq hid]
  clear hpart hactive hsat houtcomes
  revert houtcome hblocked
  unfold FrontierAssembly.recordStatus
  cases hstatus : step.status with
  | planned =>
    by_cases hnil : blockers = []
    · by_cases hwait : pending = []
      · subst hnil hwait
        intro hblocked houtcome
        refine hF.offer hid (by rw [hstatus]; rfl) (fun _ => ⟨(hpending rfl).symm, ?_⟩) houtcome
        rw [← hblocked]
        simp
      · subst hnil
        simp only [ne_eq, not_true_eq_false, ↓reduceIte, hwait, not_false_eq_true]
        intro hblocked houtcome
        refine { hF with outcome := houtcome, filed := ?_, waiting := ?_ }
        · refine filedIds_snoc hF.filed fun x => ?_
          simp only [FrontierAssembly.filedIds, List.map_append, List.map_cons, List.map_nil,
            List.count_append]
          omega
        · obtain rfl : pending = unreleased state step := hpending rfl
          refine forall_mem_snoc hF.waiting ⟨step, hid, hstatus, ?_, hwait, rfl⟩
          rw [← hblocked]
          simp
    · simp only [ne_eq, hnil, not_false_eq_true, ↓reduceIte]
      intro hblocked houtcome
      refine { hF with outcome := houtcome, filed := ?_, blocked := ?_ }
      · refine filedIds_snoc hF.filed fun x => ?_
        simp only [FrontierAssembly.filedIds, List.map_append, List.map_cons, List.map_nil,
          List.count_append]
        omega
      · exact forall_mem_snoc hF.blocked ⟨step, hid, hstatus, hblocked.mp trivial⟩
  | completed =>
    by_cases hrel : receiptReleasesDependency step = true
    · simp only [hrel, ↓reduceIte]
      intro _ houtcome
      refine { hF with outcome := houtcome, filed := ?_, verified := ?_ }
      · refine filedIds_snoc hF.filed fun x => ?_
        simp only [FrontierAssembly.filedIds, List.count_append]
        omega
      · exact forall_mem_snoc hF.verified ⟨step, hid, hrel⟩
    · rw [Bool.not_eq_true] at hrel
      simp only [hrel, Bool.false_eq_true, ↓reduceIte]
      intro _ houtcome
      refine { hF with outcome := houtcome, filed := ?_, unverified := ?_ }
      · refine filedIds_snoc hF.filed fun x => ?_
        simp only [FrontierAssembly.filedIds, List.count_append]
        omega
      · exact forall_mem_snoc hF.unverified ⟨step, hid, hstatus, hrel⟩
  | failed =>
    intro _ houtcome
    refine { hF with outcome := houtcome, filed := ?_, failed := ?_ }
    · refine filedIds_snoc hF.filed fun x => ?_
      simp only [FrontierAssembly.filedIds, List.count_append]
      omega
    · exact forall_mem_snoc hF.failed ⟨step, hid, hstatus⟩
  | manualRequired =>
    intro _ houtcome
    refine { hF with outcome := houtcome, filed := ?_, manualRequired := ?_ }
    · refine filedIds_snoc hF.filed fun x => ?_
      simp only [FrontierAssembly.filedIds, List.count_append]
      omega
    · exact forall_mem_snoc hF.manualRequired ⟨step, hid, hstatus⟩
  | intentCommitted | executing | effectUnknown | reconciling | validating =>
    intro _ houtcome
    exact hF.offer hid (by rw [hstatus]; rfl) (by simp [hstatus]) houtcome

theorem Filed.planned (hF : Filed state order assembly) (hmem : id ∈ order)
    (hid : state.steps[id]? = some step) (hplanned : step.status = .planned) :
    ((5, id, .admitStep) ∈ assembly.rankedActions ∧ unreleased state step = [] ∧
        ¬ IsBlocked state id) ∨
      (⟨id, unreleased state step⟩ ∈ assembly.waiting ∧ unreleased state step ≠ [] ∧
        ¬ IsBlocked state id) ∨
      ((∃ entry ∈ assembly.blocked, entry.stepId = id) ∧ IsBlocked state id) := by
  have hsome := hF.filed.mem_iff.mpr hmem
  have hsame : ∀ {s : StepState}, state.steps[id]? = some s → s = step := fun hs =>
    Option.some.inj (hs.symm.trans hid)
  simp only [FrontierAssembly.filedIds, List.mem_append, List.mem_map] at hsome
  rcases hsome with (((((⟨⟨rank, x, action⟩, ha, rfl⟩ | ⟨⟨x, pending⟩, hw, rfl⟩) | ⟨entry, hb, rfl⟩) |
    hv) | hu) | hf) | hm
  · obtain ⟨s, hs, hoffered, hfree⟩ := hF.actions _ ha
    obtain rfl := hsame hs
    rw [hplanned] at hoffered
    obtain ⟨rfl, rfl⟩ := Prod.mk.inj (Option.some.inj hoffered)
    exact Or.inl ⟨ha, hfree hplanned⟩
  · obtain ⟨s, hs, _, hfree, hne, hpending⟩ := hF.waiting _ hw
    obtain rfl := hsame hs
    obtain rfl : pending = unreleased state s := hpending
    exact Or.inr (Or.inl ⟨hw, hne, hfree⟩)
  · obtain ⟨s, hs, _, hblocked⟩ := hF.blocked _ hb
    exact Or.inr (Or.inr ⟨⟨entry, hb, rfl⟩, hblocked⟩)
  · obtain ⟨s, hs, hreleases⟩ := hF.verified _ hv
    obtain rfl := hsame hs
    simp [completed_of_releases hreleases] at hplanned
  · obtain ⟨s, hs, hcompleted, _⟩ := hF.unverified _ hu
    obtain rfl := hsame hs
    simp [hcompleted] at hplanned
  · obtain ⟨s, hs, hfailed⟩ := hF.failed _ hf
    obtain rfl := hsame hs
    simp [hfailed] at hplanned
  · obtain ⟨s, hs, hmanual⟩ := hF.manualRequired _ hm
    obtain rfl := hsame hs
    simp [hmanual] at hplanned

/-! ## The frontier -/

theorem firstUnreleasedDependency_eq_none_iff (hknown : ∀ d ∈ step.dependsOn, d ∈ state.steps) :
    firstUnreleasedDependency state step = .ok none ↔ unreleased state step = [] := by
  rw [unreleased_eq_nil]
  constructor
  · exact firstUnreleasedDependency_eq_none
  · intro hall
    have hstep : ∀ seen (first : Option DependencyBlocker) d,
        (∃ rest, step.dependsOn = seen ++ d :: rest) → first = none →
        unreleasedStep state step first d = .ok none := by
      rintro seen first d ⟨rest, hrest⟩ rfl
      have hd : d ∈ step.dependsOn := by simp [hrest]
      obtain ⟨dependency, hdependency⟩ := BTreeMap.mem_iff_exists.mp (hknown d hd)
      have hreleases := hall d hd
      rw [releasesAt_eq hdependency] at hreleases
      simp [unreleasedStep, hdependency, dependencyReleaseBlockReason_eq_none.mpr hreleases,
        Outcome.okOr]
    have hkeep : ∀ seen (first : Option DependencyBlocker) d first',
        (∃ rest, step.dependsOn = seen ++ d :: rest) → first = none →
        unreleasedStep state step first d = .ok first' → first' = none := by
      intro seen first d first' hrest hnone hok
      rw [hstep seen first d hrest hnone, Except.ok.injEq] at hok
      exact hok.symm
    obtain ⟨found, hfound⟩ := Outcome.foldl_total (I := fun _ first => first = none) rfl hkeep
      fun seen first d hrest hnone => ⟨none, hstep seen first d hrest hnone⟩
    rw [firstUnreleasedDependency, hfound,
      Outcome.foldl_induction (I := fun _ first => first = none) rfl hkeep hfound]

theorem filed_of_deriveFrontier {frontier : WorkFrontier} (h : deriveFrontier state = .ok frontier) :
    ∃ order assembly, Filed state order assembly ∧ order.Perm state.steps.keys ∧
      frontier = assembly.finish state := by
  simp only [deriveFrontier, Outcome.bind_eq_ok, Outcome.exists_unit, Outcome.failIf_eq_ok,
    Outcome.pure_eq_ok, ne_eq, Decidable.not_not] at h
  obtain ⟨graph, hgraph, assembly, hassembly, hprocessed, rfl⟩ := h
  obtain ⟨hg, hG⟩ := validateFrontierGraph_eq_ok hgraph
  obtain ⟨order, remaining, hV, hF⟩ := visitReady_induction hg hG (J := Filed state)
    (fun hV hready hF hok => by
      obtain ⟨hnew, step, hstep, hdeps⟩ := (hV.ready _).mp hready
      exact hF.snoc hstep hnew hdeps hok)
    _ (visiting_start hG) Filed.nil hassembly
  have hall := hV.complete_iff.mp hprocessed
  refine ⟨order, assembly, hF, ?_, rfl⟩
  refine (List.perm_ext_iff_of_nodup hV.nodup Std.ExtTreeMap.nodup_keys).mpr fun id => ?_
  rw [Std.ExtTreeMap.mem_keys]
  exact ⟨hV.known id, hall id⟩

end

/-- All step ids of a frontier, list by list. -/
def WorkFrontier.stepIds (self : WorkFrontier) : List String :=
  self.actionable.map FrontierAction.stepId ++ self.waiting.map WaitingStep.stepId ++
    self.blocked.map BlockedStep.stepId ++ self.verifiedCompletedStepIds ++
    self.unverifiedCompletedStepIds ++ self.failedStepIds ++ self.manualRequiredStepIds

/-- The lifecycle rank under which an action is offered. -/
def offeredRank (state : RunState) (action : FrontierAction) (rank : ℕ) : Prop :=
  ∃ step, state.steps[action.stepId]? = some step ∧ step.status.offered = some (rank, action.action)

section

variable {state : RunState} {order : List String} {assembly : FrontierAssembly}

theorem perm_stepIds : (assembly.finish state).stepIds.Perm assembly.filedIds := by
  have hranked : ((assembly.finish state).actionable.map FrontierAction.stepId).Perm
      (assembly.rankedActions.map fun action => action.2.1) := by
    simp only [FrontierAssembly.finish, List.map_map]
    exact (List.perm_insertionSort _ _).map _
  exact (((((hranked.append ((List.perm_insertionSort _ _).map _)).append
    ((List.perm_insertionSort _ _).map _)).append (List.perm_insertionSort _ _)).append
    (List.perm_insertionSort _ _)).append (List.perm_insertionSort _ _)).append
    (List.perm_insertionSort _ _)

instance : IsTrans (ℕ × String × ContinuationAction) rankedBefore where
  trans a b c := by
    rintro (hab | ⟨hab, hid⟩) (hbc | ⟨hbc, hid'⟩)
    · exact Or.inl (hab.trans hbc)
    · exact Or.inl (hbc ▸ hab)
    · exact Or.inl (hab ▸ hbc)
    · exact Or.inr ⟨hab.trans hbc, String.le_trans hid hid'⟩

instance : Std.Total (rankedBefore) where
  total a b := by
    rcases lt_trichotomy a.1 b.1 with h | h | h
    · exact Or.inl (Or.inl h)
    · exact (String.le_total a.2.1 b.2.1).imp (fun hid => Or.inr ⟨h, hid⟩) fun hid => Or.inr ⟨h.symm, hid⟩
    · exact Or.inr (Or.inl h)

theorem Filed.pairwise_actionable (hF : Filed state order assembly) :
    (assembly.finish state).actionable.Pairwise fun a b => ∃ rankA rankB,
      offeredRank state a rankA ∧ offeredRank state b rankB ∧
        (rankA < rankB ∨ rankA = rankB ∧ a.stepId ≤ b.stepId) := by
  have hrank : ∀ action ∈ assembly.rankedActions.insertionSort rankedBefore,
      offeredRank state ⟨action.2.1, action.2.2⟩ action.1 := by
    intro action hmem
    obtain ⟨s, hs, hoffered, _⟩ := hF.actions action ((List.mem_insertionSort _).mp hmem)
    exact ⟨s, hs, hoffered⟩
  simp only [FrontierAssembly.finish, List.pairwise_map]
  refine (List.pairwise_insertionSort rankedBefore assembly.rankedActions).imp_of_mem ?_
  intro a b ha hb hab
  exact ⟨a.1, b.1, hrank a ha, hrank b hb, hab⟩

theorem reachable_of_planned {id : String} {step : StepState} (hid : state.steps[id]? = some step)
    (hplanned : step.status = .planned) :
    IsBlocked state id ↔ ∃ x blocker, Relation.TransGen (DependsOn state) id x ∧
      state.steps[x]? = some blocker ∧ blocker.Blocks := by
  have hself : ¬ step.Blocks := by simp [StepState.Blocks, hplanned]
  rw [isBlocked_split hid, or_iff_right hself]

/-- **Frontier classification is exact.** Every step is in exactly one list; a planned step is blocked
exactly when a settled step that releases nothing is reachable, is offered for admission exactly when
the intent gate finds no blocker, and otherwise waits for its unreleased dependencies; and actions
come in lifecycle order. -/
theorem frontier_classification_exact {state : RunState} {frontier : WorkFrontier}
    (h : deriveFrontier state = .ok frontier) :
    frontier.stepIds.Perm state.steps.keys ∧
      (∀ (id : String) (step : StepState), state.steps[id]? = some step → step.status = .planned →
        ((∃ entry ∈ frontier.blocked, entry.stepId = id) ↔
          ∃ x blocker, Relation.TransGen (DependsOn state) id x ∧ state.steps[x]? = some blocker ∧
            blocker.Blocks) ∧
        (⟨id, .admitStep⟩ ∈ frontier.actionable ↔
          firstUnreleasedDependency state step = .ok none) ∧
        ((¬ ∃ entry ∈ frontier.blocked, entry.stepId = id) →
          ⟨id, .admitStep⟩ ∉ frontier.actionable →
          ⟨id, unreleased state step⟩ ∈ frontier.waiting)) ∧
      frontier.actionable.Pairwise fun a b => ∃ rankA rankB,
        offeredRank state a rankA ∧ offeredRank state b rankB ∧
          (rankA < rankB ∨ rankA = rankB ∧ a.stepId ≤ b.stepId) := by
  have hgraph := (exists_deriveFrontier_iff.mp ⟨frontier, h⟩).toWellFormedGraph
  obtain ⟨order, assembly, hF, hperm, rfl⟩ := filed_of_deriveFrontier h
  refine ⟨perm_stepIds.trans (hF.filed.trans hperm), fun id step hid hplanned => ?_,
    hF.pairwise_actionable⟩
  have hmem : id ∈ order := by
    rw [hperm.mem_iff, Std.ExtTreeMap.mem_keys]
    exact BTreeMap.mem_iff_exists.mpr ⟨step, hid⟩
  have hblocked : ∀ entry ∈ assembly.blocked, entry.stepId = id → IsBlocked state id := by
    rintro entry hentry rfl
    obtain ⟨s, _, _, hb⟩ := hF.blocked entry hentry
    exact hb
  have hoffers : ⟨id, .admitStep⟩ ∈ (assembly.finish state).actionable →
      unreleased state step = [] ∧ ¬ IsBlocked state id := by
    simp only [FrontierAssembly.finish, List.mem_map, List.mem_insertionSort]
    rintro ⟨⟨rank, x, action⟩, ha, heq⟩
    obtain ⟨rfl, rfl⟩ := FrontierAction.mk.inj heq
    obtain ⟨s, hs, _, hfree⟩ := hF.actions _ ha
    obtain rfl := Option.some.inj (hs.symm.trans hid)
    exact hfree hplanned
  rw [← reachable_of_planned hid hplanned,
    firstUnreleasedDependency_eq_none_iff fun d hd => hgraph.known hid hd]
  simp only [FrontierAssembly.finish, List.mem_insertionSort, List.mem_map] at hoffers ⊢
  rcases hF.planned hmem hid hplanned with ⟨ha, hnil, hfree⟩ | ⟨hw, hne, hfree⟩ | ⟨hb, hblocks⟩
  · refine ⟨?_, ?_, ?_⟩
    · refine ⟨?_, fun hb => absurd hb hfree⟩
      rintro ⟨entry, hentry, heq⟩
      exact hblocked entry hentry heq
    · exact ⟨fun _ => hnil, fun _ => ⟨(5, id, .admitStep), ha, rfl⟩⟩
    · exact fun _ hno => absurd ⟨(5, id, .admitStep), ha, rfl⟩ hno
  · refine ⟨?_, ?_, ?_⟩
    · refine ⟨?_, fun hb => absurd hb hfree⟩
      rintro ⟨entry, hentry, heq⟩
      exact hblocked entry hentry heq
    · exact ⟨fun hoffered => (hoffers hoffered).1, fun hnil => absurd hnil hne⟩
    · exact fun _ _ => hw
  · refine ⟨⟨fun _ => hblocks, fun _ => hb⟩, ?_, fun hno => absurd hb hno⟩
    refine ⟨fun hoffered => absurd hblocks (hoffers hoffered).2, fun hnil => absurd hblocks ?_⟩
    -- a dependency that releases was filed as satisfied, so it is not blocked itself
    rw [isBlocked_iff hid]
    rintro (hself | ⟨d, hd, hdblocked⟩)
    · simp [StepState.Blocks, hplanned] at hself
    · have hdmem : d ∈ order := by
        rw [hperm.mem_iff, Std.ExtTreeMap.mem_keys]
        exact hgraph.known hid hd
      obtain ⟨o, _, hsat, hout⟩ := hF.outcome d hdmem
      have hboth := (hsat.mpr (unreleased_eq_nil.mp hnil d hd)).symm.trans (hout.mpr hdblocked)
      exact absurd hboth (by decide)

end

/-- `b` depends on a failed step and `c` on `b`; `e` waits for an executing step. -/
def chainSample : RunState where
  runId := "run"
  authority := "local"
  authorityEpoch := 1
  goal := "goal"
  revision := 1
  journalSequence := 1
  journalHeadDigest := ""
  steps := .ofList (["a", "b", "c", "d", "e"].map fun id => (id,
    match id with
    | "a" => { StepState.fresh id id [] none with status := .failed }
    | "b" => StepState.fresh id id ["a"] none
    | "c" => StepState.fresh id id ["b"] none
    | "d" => { StepState.fresh id id [] none with status := .executing }
    | _ => StepState.fresh id id ["d"] none)) compare
  authorizationConsumption := ∅
  agentLoop := none

/-- Blocking reaches the second step of the chain, and the last step waits. -/
theorem frontier_classification_exact_sample : ∃ frontier, deriveFrontier chainSample = .ok frontier ∧
    frontier.stepIds.Perm chainSample.steps.keys ∧ (∃ entry ∈ frontier.blocked, entry.stepId = "c") ∧
    ⟨"e", ["d"]⟩ ∈ frontier.waiting := by
  have hrun : (deriveFrontier chainSample).value?.any (fun frontier =>
      frontier.blocked.any (fun entry => entry.stepId == "c") &&
        frontier.waiting.contains ⟨"e", ["d"]⟩) = true := by
    decide
  obtain ⟨frontier, hfrontier, hlists⟩ := Outcome.exists_ok_of_any hrun
  rw [Bool.and_eq_true, List.any_eq_true, List.contains_iff_mem] at hlists
  simp only [beq_iff_eq] at hlists
  exact ⟨frontier, hfrontier, (frontier_classification_exact hfrontier).1, hlists⟩

end Xgeny
