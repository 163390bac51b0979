import Xgeny.Frontier.Model
import Xgeny.Lib.Topological

set_option autoImplicit false

/-!
# The checked dependency graph

`validateFrontierGraph` succeeds exactly on the graphs whose dependencies are known, irreflexive
and without repetition, and it then returns the right indexes.

* `DependsOn`, `WellFormedGraph`: the dependency relation and what is checked of it;
* `GraphIndex`: what the three indexes hold;
* **`validateFrontierGraph_eq_ok`**, **`exists_validateFrontierGraph`**: the two directions.
-/

namespace Xgeny

/-- The step `a` lists `b` among its dependencies. -/
def DependsOn (state : RunState) (a b : String) : Prop :=
  ∃ step, state.steps[a]? = some step ∧ b ∈ step.dependsOn

/-- Dependencies are known, never the step itself, and listed once. -/
structure WellFormedGraph (state : RunState) : Prop where
  known : ∀ {id d : String} {step : StepState}, state.steps[id]? = some step → d ∈ step.dependsOn → d ∈ state.steps
  irreflexive : ∀ {id : String} {step : StepState}, state.steps[id]? = some step → id ∉ step.dependsOn
  nodup : ∀ {id : String} {step : StepState}, state.steps[id]? = some step → step.dependsOn.Nodup

/-- The indexes of a checked graph. -/
structure GraphIndex (state : RunState) (graph : ValidatedFrontierGraph) : Prop where
  remaining : ∀ id : String, graph.remainingDependencies[id]? = (state.steps[id]?).map fun step => step.dependsOn.length
  dependents : ∀ d ∈ state.steps, ∃ children : List String, graph.dependents[d]? = some children ∧
    children.Nodup ∧ ∀ c, c ∈ children ↔ DependsOn state c d
  ready : ∀ id : String, id ∈ graph.zeroIndegree ↔
    ∃ step, state.steps[id]? = some step ∧ step.dependsOn = []

/-! ## One step -/

section

variable {stepId : String} {dependents : BTreeMap String (List String)}

/-- After the dependencies `seen`: they are distinct and known, and each lists the step. -/
structure DependenciesIndexed (stepId : String) (dependents : BTreeMap String (List String))
    (seen : List String) (acc : BTreeSet String × BTreeMap String (List String)) : Prop where
  unique : ∀ d, d ∈ acc.1 ↔ d ∈ seen
  nodup : seen.Nodup
  irreflexive : stepId ∉ seen
  known : ∀ d ∈ seen, d ∈ dependents
  children : ∀ d, acc.2[d]? =
    dependents[d]?.map fun cs => if d ∈ seen then cs ++ [stepId] else cs

theorem validateDependency_eq_ok {acc acc' : BTreeSet String × BTreeMap String (List String)}
    {d : String} : validateDependency stepId acc d = .ok acc' ↔
      d ≠ stepId ∧ d ∉ acc.1 ∧ ∃ cs, acc.2[d]? = some cs ∧
        (acc.1.insert d, acc.2.insert d (cs ++ [stepId])) = acc' := by
  simp only [validateDependency, Outcome.bind_eq_ok, Outcome.exists_unit, Outcome.failIf_eq_ok,
    Outcome.okOr_eq_ok, Outcome.pure_eq_ok, ne_eq]

theorem dependenciesIndexed_nil : DependenciesIndexed stepId dependents [] (∅, dependents) where
  unique := by simp
  nodup := List.nodup_nil
  irreflexive := by simp
  known := by simp
  children := by simp

theorem DependenciesIndexed.snoc {seen : List String} {d : String}
    {acc acc' : BTreeSet String × BTreeMap String (List String)}
    (h : DependenciesIndexed stepId dependents seen acc)
    (hd : validateDependency stepId acc d = .ok acc') :
    DependenciesIndexed stepId dependents (seen ++ [d]) acc' := by
  obtain ⟨hself, hnew, cs, hcs, rfl⟩ := validateDependency_eq_ok.mp hd
  have hseen : d ∉ seen := fun hmem => hnew ((h.unique d).mpr hmem)
  have hdep : dependents[d]? = some cs := by
    rw [h.children d] at hcs
    simpa [hseen] using hcs
  constructor
  · intro x
    rw [BTreeSet.mem_insert_iff, h.unique, List.mem_append, List.mem_singleton, or_comm, eq_comm]
  · exact List.nodup_append.mpr ⟨h.nodup, List.nodup_singleton d, by
      rintro a ha b hb rfl
      exact hseen (by simpa [List.mem_singleton.mp hb] using ha)⟩
  · rw [List.mem_append, List.mem_singleton]
    rintro (hmem | rfl)
    · exact h.irreflexive hmem
    · exact hself rfl
  · intro x hx
    rw [List.mem_append, List.mem_singleton] at hx
    rcases hx with hx | rfl
    · exact h.known x hx
    · exact BTreeMap.mem_iff_exists.mpr ⟨cs, hdep⟩
  · intro x
    rw [BTreeMap.get_insert]
    by_cases hx : d = x
    · subst hx
      simp [hdep]
    · rw [if_neg hx, h.children x]
      have : x ∈ seen ++ [d] ↔ x ∈ seen := by simp [Ne.symm hx]
      simp only [this]

theorem validateDependencies_eq_ok {deps : List String}
    {acc : BTreeSet String × BTreeMap String (List String)}
    (h : Outcome.foldl (validateDependency stepId) (∅, dependents) deps = .ok acc) :
    DependenciesIndexed stepId dependents deps acc :=
  Outcome.foldl_induction dependenciesIndexed_nil (fun _ _ _ _ _ hI hd => hI.snoc hd) h

theorem exists_validateDependencies {deps : List String} (hself : stepId ∉ deps)
    (hnodup : deps.Nodup) (hknown : ∀ d ∈ deps, d ∈ dependents) :
    ∃ acc, Outcome.foldl (validateDependency stepId) (∅, dependents) deps = .ok acc := by
  refine Outcome.foldl_total dependenciesIndexed_nil (fun _ _ _ _ _ hI hd => hI.snoc hd) ?_
  rintro seen acc d ⟨rest, rfl⟩ hI
  have hd : d ∈ seen ++ d :: rest := by simp
  have hseen : d ∉ seen := by
    intro hmem
    exact (List.nodup_append.mp hnodup).2.2 d hmem d List.mem_cons_self rfl
  obtain ⟨cs, hcs⟩ := BTreeMap.mem_iff_exists.mp (hknown d hd)
  refine ⟨_, validateDependency_eq_ok.mpr ⟨?_, ?_, cs, ?_, rfl⟩⟩
  · rintro rfl
    exact hself hd
  · rwa [hI.unique]
  · rw [hI.children, hcs]
    simp [hseen]

end

/-! ## All steps -/

section

variable {state : RunState}

/-- After the steps `seen`: they are well formed, counted, and listed under their dependencies. -/
structure StepsIndexed (state : RunState) (seen : List (String × StepState))
    (acc : BTreeMap String ℕ × BTreeMap String (List String)) : Prop where
  irreflexive : ∀ e ∈ seen, e.1 ∉ e.2.dependsOn
  nodup : ∀ e ∈ seen, e.2.dependsOn.Nodup
  known : ∀ e ∈ seen, ∀ d ∈ e.2.dependsOn, d ∈ state.steps
  remaining : ∀ id n, acc.1[id]? = some n ↔ ∃ e ∈ seen, e.1 = id ∧ e.2.dependsOn.length = n
  dependents : ∀ d, acc.2[d]? = state.steps[d]?.map fun _ =>
    (seen.filter fun e => decide (d ∈ e.2.dependsOn)).map Prod.fst

theorem validateStep_eq_ok {acc acc' : BTreeMap String ℕ × BTreeMap String (List String)}
    {e : String × StepState} : validateStep acc e = .ok acc' ↔
      ∃ inner, Outcome.foldl (validateDependency e.1) (∅, acc.2) e.2.dependsOn = .ok inner ∧
        (acc.1.insert e.1 e.2.dependsOn.length, inner.2) = acc' := by
  simp only [validateStep, Outcome.bind_eq_ok, Outcome.pure_eq_ok]

theorem stepsIndexed_nil :
    StepsIndexed state [] (∅, state.steps.map fun _ _ => ([] : List String)) where
  irreflexive := by simp
  nodup := by simp
  known := by simp
  remaining := by simp
  dependents := by simp

theorem toList_split_ne {seen rest : List (String × StepState)} {e : String × StepState}
    (h : state.steps.toList = seen ++ e :: rest) : ∀ e' ∈ seen, e'.1 ≠ e.1 := by
  intro e' he' hkey
  have hdistinct := state.steps.distinct_keys_toList
  rw [h, List.pairwise_append] at hdistinct
  exact hdistinct.2.2 e' he' e List.mem_cons_self (by rw [hkey]; exact Std.ReflCmp.compare_self)

theorem mem_dependents_iff {seen : List (String × StepState)}
    {acc : BTreeMap String ℕ × BTreeMap String (List String)} (h : StepsIndexed state seen acc)
    {d : String} : d ∈ acc.2 ↔ d ∈ state.steps := by
  rw [Std.ExtTreeMap.mem_iff_isSome_getElem?, Std.ExtTreeMap.mem_iff_isSome_getElem?, h.dependents]
  simp

theorem StepsIndexed.snoc {seen : List (String × StepState)} {e : String × StepState}
    {acc acc' : BTreeMap String ℕ × BTreeMap String (List String)}
    (h : StepsIndexed state seen acc) (hnew : ∀ e' ∈ seen, e'.1 ≠ e.1)
    (hok : validateStep acc e = .ok acc') : StepsIndexed state (seen ++ [e]) acc' := by
  obtain ⟨inner, hinner, rfl⟩ := validateStep_eq_ok.mp hok
  have hI := validateDependencies_eq_ok hinner
  constructor
  · intro x hx
    rcases List.mem_append.mp hx with hx | hx
    · exact h.irreflexive x hx
    · rw [List.mem_singleton.mp hx]
      exact hI.irreflexive
  · intro x hx
    rcases List.mem_append.mp hx with hx | hx
    · exact h.nodup x hx
    · rw [List.mem_singleton.mp hx]
      exact hI.nodup
  · intro x hx d hd
    rcases List.mem_append.mp hx with hx | hx
    · exact h.known x hx d hd
    · rw [List.mem_singleton.mp hx] at hd
      exact (mem_dependents_iff h).mp (hI.known d hd)
  · intro id n
    rw [BTreeMap.get_insert]
    by_cases hid : e.1 = id
    · subst hid
      simp only [if_pos, Option.some.injEq, List.mem_append, List.mem_singleton]
      constructor
      · rintro rfl
        exact ⟨e, Or.inr rfl, rfl, rfl⟩
      · rintro ⟨x, hx | rfl, hxe, hn⟩
        · exact absurd hxe (hnew x hx)
        · exact hn
    · rw [if_neg hid, h.remaining]
      constructor
      · rintro ⟨x, hx, hrest⟩
        exact ⟨x, List.mem_append_left _ hx, hrest⟩
      · rintro ⟨x, hx, hxe, hn⟩
        rcases List.mem_append.mp hx with hx | hx
        · exact ⟨x, hx, hxe, hn⟩
        · exact absurd (List.mem_singleton.mp hx ▸ hxe) hid
  · intro d
    rw [hI.children d, h.dependents d, Option.map_map]
    congr 1
    funext step
    by_cases hd : d ∈ e.2.dependsOn
    · simp [hd]
    · simp [hd]

theorem validateSteps_eq_ok {acc : BTreeMap String ℕ × BTreeMap String (List String)}
    (h : Outcome.foldl validateStep (∅, state.steps.map fun _ _ => []) state.steps.toList
      = .ok acc) : StepsIndexed state state.steps.toList acc := by
  refine Outcome.foldl_induction stepsIndexed_nil ?_ h
  rintro seen acc e acc' ⟨rest, hrest⟩ hI hok
  exact hI.snoc (toList_split_ne hrest) hok

theorem exists_validateSteps (hg : WellFormedGraph state) :
    ∃ acc, Outcome.foldl validateStep (∅, state.steps.map fun _ _ => []) state.steps.toList
      = .ok acc := by
  refine Outcome.foldl_total stepsIndexed_nil
    (fun seen acc e acc' ⟨rest, hrest⟩ hI hok => hI.snoc (toList_split_ne hrest) hok) ?_
  rintro seen acc e ⟨rest, hrest⟩ hI
  have he : state.steps[e.1]? = some e.2 :=
    Std.ExtTreeMap.mem_toList_iff_getElem?_eq_some.mp (by rw [hrest]; simp)
  obtain ⟨inner, hinner⟩ := exists_validateDependencies (hg.irreflexive he) (hg.nodup he)
    fun d hd => (mem_dependents_iff hI).mpr (hg.known he hd)
  exact ⟨_, validateStep_eq_ok.mpr ⟨inner, hinner, rfl⟩⟩

/-! ## The graph -/

theorem wellFormedGraph_of_stepsIndexed {acc : BTreeMap String ℕ × BTreeMap String (List String)}
    (h : StepsIndexed state state.steps.toList acc) : WellFormedGraph state where
  known hstep hd := h.known _ (Std.ExtTreeMap.mem_toList_iff_getElem?_eq_some.mpr hstep) _ hd
  irreflexive hstep :=
    h.irreflexive _ (Std.ExtTreeMap.mem_toList_iff_getElem?_eq_some.mpr hstep)
  nodup hstep := h.nodup _ (Std.ExtTreeMap.mem_toList_iff_getElem?_eq_some.mpr hstep)

theorem StepsIndexed.remaining_eq {acc : BTreeMap String ℕ × BTreeMap String (List String)}
    (h : StepsIndexed state state.steps.toList acc) (id : String) :
    acc.1[id]? = (state.steps[id]?).map fun step => step.dependsOn.length := by
  ext n
  rw [h.remaining, Option.map_eq_some_iff]
  constructor
  · rintro ⟨⟨_, step⟩, he, rfl, hn⟩
    exact ⟨step, Std.ExtTreeMap.mem_toList_iff_getElem?_eq_some.mp he, hn⟩
  · rintro ⟨step, hstep, hn⟩
    exact ⟨(id, step), Std.ExtTreeMap.mem_toList_iff_getElem?_eq_some.mpr hstep, rfl, hn⟩

theorem nodup_dependents (d : String) :
    ((state.steps.toList.filter fun e => decide (d ∈ e.2.dependsOn)).map Prod.fst).Nodup := by
  refine List.Nodup.map_on ?_ ((BTreeMap.nodup_toList state.steps).filter _)
  rintro ⟨a, sa⟩ ha ⟨b, sb⟩ hb hab
  obtain rfl : a = b := hab
  have hsa := Std.ExtTreeMap.mem_toList_iff_getElem?_eq_some.mp (List.mem_filter.mp ha).1
  have hsb := Std.ExtTreeMap.mem_toList_iff_getElem?_eq_some.mp (List.mem_filter.mp hb).1
  rw [hsa] at hsb
  rw [Option.some.inj hsb]

theorem mem_dependents {c d : String} :
    c ∈ (state.steps.toList.filter fun e => decide (d ∈ e.2.dependsOn)).map Prod.fst ↔
      DependsOn state c d := by
  simp only [List.mem_map, List.mem_filter, decide_eq_true_eq]
  constructor
  · rintro ⟨⟨a, step⟩, ⟨he, hd⟩, rfl⟩
    exact ⟨step, Std.ExtTreeMap.mem_toList_iff_getElem?_eq_some.mp he, hd⟩
  · rintro ⟨step, hstep, hd⟩
    exact ⟨(c, step), ⟨Std.ExtTreeMap.mem_toList_iff_getElem?_eq_some.mpr hstep, hd⟩, rfl⟩

theorem graphIndex_of_stepsIndexed {acc : BTreeMap String ℕ × BTreeMap String (List String)}
    (h : StepsIndexed state state.steps.toList acc) :
    GraphIndex state {
      remainingDependencies := acc.1
      dependents := acc.2.map fun _ children => children.insertionSort (· ≤ ·)
      zeroIndegree :=
        .ofList ((acc.1.toList.filter fun entry => entry.2 == 0).map Prod.fst) compare } where
  remaining := h.remaining_eq
  dependents := by
    intro d hd
    obtain ⟨step, hstep⟩ := BTreeMap.mem_iff_exists.mp hd
    have hchildren := (Std.ExtTreeMap.getElem?_map (t := acc.2) (k := d)
      (f := fun _ children => children.insertionSort (· ≤ ·))).trans (by rw [h.dependents, hstep])
    refine ⟨_, hchildren, ?_, fun c => ?_⟩
    · exact (List.perm_insertionSort _ _).nodup_iff.mpr (nodup_dependents d)
    · rw [List.mem_insertionSort]
      exact mem_dependents
  ready := by
    intro id
    simp only [BTreeSet.mem_ofList_iff, List.mem_map, List.mem_filter, beq_iff_eq, Prod.exists,
      Std.ExtTreeMap.mem_toList_iff_getElem?_eq_some, exists_and_right, exists_eq_right]
    rw [h.remaining_eq]
    simp

/-- **An accepted graph is well formed, and its indexes are right.** -/
theorem validateFrontierGraph_eq_ok {graph : ValidatedFrontierGraph}
    (h : validateFrontierGraph state = .ok graph) : WellFormedGraph state ∧ GraphIndex state graph := by
  simp only [validateFrontierGraph, Outcome.bind_eq_ok, Outcome.pure_eq_ok] at h
  obtain ⟨acc, hacc, rfl⟩ := h
  have hI := validateSteps_eq_ok hacc
  exact ⟨wellFormedGraph_of_stepsIndexed hI, graphIndex_of_stepsIndexed hI⟩

/-- **A well-formed graph is accepted.** -/
theorem exists_validateFrontierGraph (hg : WellFormedGraph state) :
    ∃ graph, validateFrontierGraph state = .ok graph := by
  obtain ⟨acc, hacc⟩ := exists_validateSteps hg
  simp only [validateFrontierGraph, Outcome.bind_eq_ok, Outcome.pure_eq_ok]
  exact ⟨_, acc, hacc, rfl⟩

end

end Xgeny
