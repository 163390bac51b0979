import Xgeny.Frontier.Classification

set_option autoImplicit false

/-!
# A run never waits for nothing

A waiting step waits for a step that is offered, active or itself waiting. Dependencies have no
cycles, so a frontier that offers nothing has no waiting step either, and what is then left of a run
is settled or blocked.

* `Filed.unoffered`: where a step is filed when nothing is offered;
* `Filed.waiting_eq_nil`: the descent along dependencies;
* **`no_scheduling_deadlock`**: an idle frontier has nothing waiting, and why it is not complete.
-/

namespace Xgeny

section

variable {state : RunState} {order : List String} {assembly : FrontierAssembly} {id : String}

theorem Filed.unoffered (hF : Filed state order assembly) (hidle : assembly.rankedActions = [])
    (hmem : id ∈ order) : (∃ entry ∈ assembly.waiting, entry.stepId = id) ∨
      releasesAt state id = true ∨ IsBlocked state id := by
  have hfiled := hF.filed.mem_iff.mpr hmem
  simp only [FrontierAssembly.filedIds, hidle, List.map_nil, List.nil_append, List.mem_append,
    List.mem_map] at hfiled
  rcases hfiled with ((((hw | ⟨entry, hb, rfl⟩) | hv) | hu) | hf) | hm
  · exact Or.inl hw
  · obtain ⟨step, hstep, _, hblocked⟩ := hF.blocked entry hb
    exact Or.inr (Or.inr hblocked)
  · obtain ⟨step, hstep, hreleases⟩ := hF.verified id hv
    refine Or.inr (Or.inl ?_)
    rw [releasesAt_eq hstep, hreleases]
  · obtain ⟨step, hstep, hcompleted⟩ := hF.unverified id hu
    exact Or.inr (Or.inr ⟨id, step, .refl, hstep, Or.inr (Or.inr hcompleted)⟩)
  · obtain ⟨step, hstep, hfailed⟩ := hF.failed id hf
    exact Or.inr (Or.inr ⟨id, step, .refl, hstep, Or.inl hfailed⟩)
  · obtain ⟨step, hstep, hmanual⟩ := hF.manualRequired id hm
    exact Or.inr (Or.inr ⟨id, step, .refl, hstep, Or.inr (Or.inl hmanual)⟩)

/-- **Descent.** A waiting step has a dependency that neither releases nor is blocked. With nothing
offered that dependency waits too, and without cycles some waiting step is the last. -/
theorem Filed.waiting_eq_nil (hF : Filed state order assembly) (hperm : order.Perm state.steps.keys)
    (hS : Schedulable state) (hidle : assembly.rankedActions = []) : assembly.waiting = [] := by
  by_contra hne
  obtain ⟨first, hfirst⟩ := List.exists_mem_of_ne_nil _ hne
  let waits : List String := assembly.waiting.map WaitingStep.stepId
  have hkeys : ∀ {x}, x ∈ state.steps.keys.toFinset ↔ x ∈ state.steps := by simp
  have hknown : ∀ entry ∈ assembly.waiting, entry.stepId ∈ state.steps := by
    intro entry hentry
    obtain ⟨step, hstep, _⟩ := hF.waiting entry hentry
    exact BTreeMap.mem_iff_exists.mpr ⟨step, hstep⟩
  have hnotSeen : first.stepId ∉ state.steps.keys.filter fun x => decide (x ∉ waits) := by
    simp only [List.mem_filter, decide_eq_true_eq, not_and, not_not]
    exact fun _ => List.mem_map_of_mem hfirst
  -- a waiting step none of whose dependencies waits
  obtain ⟨x, hx, hxSeen, hdeps⟩ := exists_ready hS.acyclic state.steps.keys.toFinset
    (fun a _ b ⟨step, hstep, hb⟩ => hkeys.mpr (hS.known hstep hb))
    (hkeys.mpr (hknown first hfirst)) hnotSeen
  have hxWaits : x ∈ waits := by
    by_contra hnot
    refine hxSeen (List.mem_filter.mpr ⟨?_, by simpa using hnot⟩)
    exact Std.ExtTreeMap.mem_keys.mpr (hkeys.mp hx)
  obtain ⟨entry, hentry, rfl⟩ := List.mem_map.mp hxWaits
  obtain ⟨step, hstep, _, hfree, hunreleased, _⟩ := hF.waiting entry hentry
  apply hunreleased
  rw [unreleased_eq_nil]
  intro d hd
  have hdWaits : ¬ ∃ other ∈ assembly.waiting, other.stepId = d := by
    have hd := (List.mem_filter.mp (hdeps d ⟨step, hstep, hd⟩)).2
    simpa [waits] using hd
  have hdOrder : d ∈ order := by
    rw [hperm.mem_iff, Std.ExtTreeMap.mem_keys]
    exact hS.known hstep hd
  rcases hF.unoffered hidle hdOrder with hw | hreleases | hblocked
  · exact absurd hw hdWaits
  · exact hreleases
  · exact absurd ((isBlocked_iff hstep).mpr (Or.inr ⟨d, hd, hblocked⟩)) hfree

theorem settled_of_idle {frontier : WorkFrontier} (h : deriveFrontier state = .ok frontier)
    (hidle : frontier.actionable = []) : frontier.waiting = [] ∧
      ∀ (id : String) (step : StepState), state.steps[id]? = some step →
        receiptReleasesDependency step = true ∨ IsBlocked state id := by
  have hS := exists_deriveFrontier_iff.mp ⟨frontier, h⟩
  obtain ⟨order, assembly, hF, hperm, rfl⟩ := filed_of_deriveFrontier h
  have hranked : assembly.rankedActions = [] := by
    simpa [FrontierAssembly.finish, insertionSort_eq_nil] using hidle
  have hwaiting := hF.waiting_eq_nil hperm hS hranked
  refine ⟨by simp [FrontierAssembly.finish, hwaiting], fun id step hstep => ?_⟩
  have hmem : id ∈ order := by
    rw [hperm.mem_iff, Std.ExtTreeMap.mem_keys]
    exact BTreeMap.mem_iff_exists.mpr ⟨step, hstep⟩
  rcases hF.unoffered hranked hmem with ⟨entry, hentry, _⟩ | hreleases | hblocked
  · simp [hwaiting] at hentry
  · rw [releasesAt_eq hstep] at hreleases
    exact Or.inl hreleases
  · exact Or.inr hblocked

end

/-- **No scheduling deadlock.** A frontier that offers nothing has nothing waiting. Then every step is
completed, failed, manual or blocked by such a step, directly or through others; and the run falls
short of completion exactly when it has no steps or one of them failed, is manual, is completed
without a receipt that releases it, or is blocked. -/
theorem no_scheduling_deadlock {state : RunState} {frontier : WorkFrontier}
    (h : deriveFrontier state = .ok frontier) :
    (frontier.actionable = [] → frontier.waiting = []) ∧
      (frontier.nextAction = none →
        (∀ (id : String) (step : StepState), state.steps[id]? = some step →
          step.status = .completed ∨ step.status = .failed ∨ step.status = .manualRequired ∨
            ∃ x blocker, Relation.TransGen (DependsOn state) id x ∧
              state.steps[x]? = some blocker ∧ blocker.Blocks) ∧
        (frontier.allStepsReceiptCompleted = false ↔
          state.steps.size = 0 ∨ ∃ (id : String) (step : StepState), state.steps[id]? = some step ∧
            (step.status = .failed ∨ step.status = .manualRequired ∨
              (step.status = .completed ∧ receiptReleasesDependency step = false) ∨
              ∃ x blocker, Relation.TransGen (DependsOn state) id x ∧
                state.steps[x]? = some blocker ∧ blocker.Blocks))) := by
  refine ⟨fun hidle => (settled_of_idle h hidle).1, fun hnone => ?_⟩
  have hidle : frontier.actionable = [] := List.head?_eq_none_iff.mp hnone
  have hsettled := (settled_of_idle h hidle).2
  constructor
  · intro id step hstep
    rcases hsettled id step hstep with hreleases | hblocked
    · exact Or.inl (completed_of_releases hreleases)
    · rcases (isBlocked_split hstep).mp hblocked with (hf | hm | hc) | hpath
      · exact Or.inr (Or.inl hf)
      · exact Or.inr (Or.inr (Or.inl hm))
      · exact Or.inl hc.1
      · exact Or.inr (Or.inr (Or.inr hpath))
  · rw [← Bool.not_eq_true, allStepsReceiptCompleted_iff h, not_and_or, Nat.not_lt, Nat.le_zero]
    apply or_congr_right
    push Not
    constructor
    · rintro ⟨id, step, hstep, hreleases⟩
      have hblocked := (hsettled id step hstep).resolve_left hreleases
      have hcases := (isBlocked_split hstep).mp hblocked
      simp only [StepState.Blocks, or_assoc] at hcases ⊢
      exact ⟨id, step, hstep, hcases⟩
    · rintro ⟨id, step, hstep, hcases⟩
      by_cases hreleases : receiptReleasesDependency step = true
      · -- a released step blocks nobody, so the reason is one of the steps it depends on
        rcases hcases with hf | hm | hc | ⟨x, blocker, _, hx, hblocks⟩
        · simp [completed_of_releases hreleases] at hf
        · simp [completed_of_releases hreleases] at hm
        · simp [hc.2] at hreleases
        · exact ⟨x, blocker, hx, fun hreleased => not_blocks_of_releases hreleased hblocks⟩
      · exact ⟨id, step, hstep, hreleases⟩

/-- A failed step and a chain of two steps behind it. -/
def idleSample : RunState where
  runId := "run"
  authority := "local"
  authorityEpoch := 1
  goal := "goal"
  revision := 1
  journalSequence := 1
  journalHeadDigest := ""
  steps := .ofList [
    ("a", { StepState.fresh "a" "a" [] none with status := .failed }),
    ("b", StepState.fresh "b" "b" ["a"] none),
    ("c", StepState.fresh "c" "c" ["b"] none)] compare
  authorizationConsumption := ∅
  agentLoop := none

/-- Nothing is left to do in the sample, and it is not complete. -/
theorem no_scheduling_deadlock_sample : ∃ frontier, deriveFrontier idleSample = .ok frontier ∧
    frontier.nextAction = none ∧ frontier.waiting = [] ∧
    frontier.allStepsReceiptCompleted = false := by
  have hrun : (deriveFrontier idleSample).value?.any (fun frontier =>
      frontier.nextAction == none) = true := by
    decide
  obtain ⟨frontier, hfrontier, hidle⟩ := Outcome.exists_ok_of_any hrun
  have hnone : frontier.nextAction = none := by simpa using hidle
  obtain ⟨hwaiting, hsettled⟩ := no_scheduling_deadlock hfrontier
  have hfailed : idleSample.steps["a"]? =
      some { StepState.fresh "a" "a" [] none with status := .failed } := by
    decide
  refine ⟨frontier, hfrontier, hnone, hwaiting (List.head?_eq_none_iff.mp hnone), ?_⟩
  exact (hsettled hnone).2.mpr (Or.inr ⟨"a", _, hfailed, Or.inl rfl⟩)

end Xgeny
