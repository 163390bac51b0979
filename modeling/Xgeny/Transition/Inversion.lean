import Xgeny.Transition.Relation

set_option autoImplicit false

/-!
# Every accepted event is a transition

One inversion lemma for each handler, assembled into **`transition_of_applyBody`**.
-/

namespace Xgeny

variable {D : Digests} {state state' : RunState}

/-! ## The effect lifecycle -/

theorem matchingStepMut_eq_ok {id effectId : String} {step : StepState} :
    matchingStepMut state id effectId = .ok step ↔
      state.steps[id]? = some step ∧ step.Commits effectId := by
  simp only [matchingStepMut, stepMut, StepState.Commits, Outcome.bind_eq_ok, Outcome.okOr_eq_ok,
    Outcome.exists_unit, Outcome.failIf_eq_ok, Outcome.pure_eq_ok, ne_eq, Decidable.not_not]
  constructor
  · rintro ⟨s, hs, heffect, rfl⟩
    exact ⟨hs, heffect⟩
  · rintro ⟨hs, heffect⟩
    exact ⟨step, hs, heffect, rfl⟩

theorem requireStatus_eq_ok {step : StepState} {required : StepStatus} {body : RunEventBody}
    {u : Unit} : requireStatus step required body = .ok u ↔ step.status = required := by
  simp only [requireStatus, Outcome.failIf_eq_ok, ne_eq, Decidable.not_not]

theorem totalAttempts_eq_some {steps : BTreeMap String StepState} {total : UInt32} :
    totalAttempts steps = some total ↔ total.toNat = attemptsTotal steps := by
  rw [totalAttempts, UInt32.checkedSum_eq_some, List.map_map]
  rfl

theorem checkToolCallBudget_eq_ok {u : Unit} (h : checkToolCallBudget state = .ok u) :
    ∀ loop, state.agentLoop = some loop →
      attemptsTotal state.steps < loop.budget.maxToolCalls.toNat := by
  simp only [checkToolCallBudget, Outcome.whenSome_eq_ok, Outcome.bind_eq_ok, Outcome.okOr_eq_ok,
    Outcome.failIf_eq_ok, ge_iff_le, UInt32.not_le, UInt32.lt_iff_toNat_lt] at h
  intro loop hloop
  obtain ⟨starts, hstarts, hlt⟩ := h loop hloop
  rwa [totalAttempts_eq_some.mp hstarts] at hlt

theorem transition_of_applyEffectLifecycle {body : RunEventBody}
    (h : applyEffectLifecycle state body = .ok state') : Transition D state body state' := by
  cases body with
  | invocationMaterialUnavailable id effectId reason =>
    simp only [applyEffectLifecycle, markMaterialUnavailable, Outcome.bind_eq_ok,
      Outcome.exists_unit, matchingStepMut_eq_ok, requireStatus_eq_ok, Outcome.pure_eq_ok] at h
    obtain ⟨step, ⟨hstep, heffect⟩, hstatus, rfl⟩ := h
    exact .moved hstep (.materialUnavailable heffect hstatus) (by simp)
  | effectExecutionStarted id effectId =>
    simp only [applyEffectLifecycle, recordExecutionStarted, Outcome.bind_eq_ok,
      Outcome.exists_unit, matchingStepMut_eq_ok, requireStatus_eq_ok, Outcome.okOr_eq_ok,
      UInt32.checkedAdd_eq_some, Outcome.pure_eq_ok] at h
    obtain ⟨hbudget, step, ⟨hstep, heffect⟩, hstatus, attempts, hattempts, rfl⟩ := h
    exact .moved hstep (.executionStarted heffect hstatus hattempts)
      fun _ _ => checkToolCallBudget_eq_ok hbudget
  | effectSucceeded id effectId evidence output =>
    simp only [applyEffectLifecycle, recordEffectObservation, Outcome.bind_eq_ok,
      Outcome.exists_unit, matchingStepMut_eq_ok, requireStatus_eq_ok, Outcome.pure_eq_ok] at h
    obtain ⟨step, ⟨hstep, heffect⟩, hstatus, houtput, rfl⟩ := h
    exact .moved hstep (.succeeded heffect hstatus houtput) (by simp)
  | effectFailed id effectId evidence =>
    simp only [applyEffectLifecycle, recordEffectObservation, Outcome.bind_eq_ok,
      Outcome.exists_unit, matchingStepMut_eq_ok, requireStatus_eq_ok, Outcome.pure_eq_ok] at h
    obtain ⟨step, ⟨hstep, heffect⟩, hstatus, _, rfl⟩ := h
    exact .moved hstep (.failed heffect hstatus) (by simp)
  | effectBecameUnknown id effectId reason =>
    simp only [applyEffectLifecycle, recordEffectUnknown, Outcome.bind_eq_ok,
      Outcome.exists_unit, matchingStepMut_eq_ok, requireStatus_eq_ok, Outcome.pure_eq_ok] at h
    obtain ⟨step, ⟨hstep, heffect⟩, hstatus, rfl⟩ := h
    exact .moved hstep (.becameUnknown heffect hstatus) (by simp)
  | reconciliationStarted id effectId =>
    simp only [applyEffectLifecycle, recordReconciliationStarted, Outcome.bind_eq_ok,
      Outcome.exists_unit, matchingStepMut_eq_ok, requireStatus_eq_ok, Outcome.pure_eq_ok] at h
    obtain ⟨step, ⟨hstep, heffect⟩, hstatus, rfl⟩ := h
    exact .moved hstep (.reconciliationStarted heffect hstatus) (by simp)
  | reconciliationResolved id effectId resolution evidence =>
    simp only [applyEffectLifecycle, recordReconciliation, Outcome.bind_eq_ok, Outcome.exists_unit,
      matchingStepMut_eq_ok, requireStatus_eq_ok, Outcome.failIf_eq_ok, Outcome.pure_eq_ok] at h
    obtain ⟨step, ⟨hstep, heffect⟩, hstatus, hprofile, rfl⟩ := h
    exact .moved hstep (.reconciliationResolved heffect hstatus hprofile) (by simp)
  | manualInterventionRequired id effectId reason =>
    simp only [applyEffectLifecycle, recordManualRequired, Outcome.bind_eq_ok, Outcome.exists_unit,
      matchingStepMut_eq_ok, Outcome.failIf_eq_ok, Decidable.not_not, Outcome.pure_eq_ok] at h
    obtain ⟨step, ⟨hstep, heffect⟩, hstatus, rfl⟩ := h
    exact .moved hstep (.manualRequired heffect hstatus) (by simp)
  | verificationPassed id =>
    simp only [applyEffectLifecycle, recordLegacyVerification, stepMut, Outcome.bind_eq_ok,
      Outcome.exists_unit, Outcome.okOr_eq_ok, requireStatus_eq_ok, Outcome.pure_eq_ok] at h
    obtain ⟨step, hstep, hstatus, rfl⟩ := h
    exact .moved hstep (.verificationPassed hstatus) (by simp)
  | verificationFailed id reason =>
    simp only [applyEffectLifecycle, recordLegacyVerification, stepMut, Outcome.bind_eq_ok,
      Outcome.exists_unit, Outcome.okOr_eq_ok, requireStatus_eq_ok, Outcome.pure_eq_ok] at h
    obtain ⟨step, hstep, hstatus, rfl⟩ := h
    exact .moved hstep (.verificationFailed hstatus) (by simp)
  | verificationRecorded id effectId disposition receiptId receiptDigest =>
    simp only [applyEffectLifecycle, recordVerification, Outcome.bind_eq_ok,
      Outcome.exists_unit, matchingStepMut_eq_ok, requireStatus_eq_ok, Outcome.pure_eq_ok] at h
    obtain ⟨step, ⟨hstep, heffect⟩, hstatus, rfl⟩ := h
    exact .moved hstep (.verificationRecorded heffect hstatus) (by simp)
  | _ => simp [applyEffectLifecycle] at h

/-! ## The agent loop -/

theorem transition_of_configureAgentLoop {budget : AgentLoopBudget}
    (h : configureAgentLoop state budget = .ok state') :
    Transition D state (.agentLoopConfigured budget) state' := by
  simp only [configureAgentLoop, Outcome.bind_eq_ok, Outcome.exists_unit, Outcome.failIf_eq_ok,
    Outcome.okOr_eq_ok, Outcome.pure_eq_ok, Bool.not_eq_true, Option.isSome_eq_false_iff,
    Option.isNone_iff_eq_none, gt_iff_lt, UInt32.not_lt, UInt32.le_iff_toNat_le,
    UInt32.tryFrom_eq_some, totalAttempts_eq_some] at h
  obtain ⟨_, hloop, planned, hplanned, hsteps, calls, hcalls, hattempts, rfl⟩ := h
  exact .agentLoopConfigured hloop (hplanned ▸ hsteps) (hcalls ▸ hattempts)

theorem transition_of_configureModelCallLifecycle {budget : ModelCallBudget}
    (h : configureModelCallLifecycle state budget = .ok state') :
    Transition D state (.modelCallLifecycleConfigured budget) state' := by
  simp only [configureModelCallLifecycle, Outcome.bind_eq_ok, Outcome.exists_unit,
    Outcome.failIf_eq_ok, Outcome.okOr_eq_ok, Outcome.pure_eq_ok, Bool.not_eq_true,
    Option.isSome_eq_false_iff, Option.isNone_iff_eq_none, UInt32.not_lt] at h
  obtain ⟨_, loop, hloop, hcalls, hbudget, _, rfl⟩ := h
  exact .modelCallLifecycleConfigured hloop hcalls hbudget

theorem transition_of_reserveModelCall {reservation : ModelCallReservation}
    (h : reserveModelCall D state reservation = .ok state') :
    Transition D state (.modelCallReserved reservation) state' := by
  simp only [reserveModelCall, Outcome.bind_eq_ok, Outcome.exists_unit, Outcome.mapErr_eq_ok,
    Outcome.failIf_eq_ok, Outcome.okOr_eq_ok, Outcome.pure_eq_ok, Bool.not_eq_true,
    Option.isSome_eq_false_iff, Option.isNone_iff_eq_none, ge_iff_le, UInt32.not_le, ne_eq,
    Decidable.not_not, not_or, UInt32.checkedAdd_eq_some] at h
  obtain ⟨hvalid, loop, hloop, hopen, hturns, calls, hcalls, hidle, hbudget, _, hindex, rfl, _, hturn,
    rfl, ⟨hbase, _⟩, _, rfl⟩ := h
  exact .modelCallReserved hloop hcalls hidle hopen hturns hbudget hindex hturn hbase hvalid

theorem transition_of_markModelCallUnknown {callId : String} {reason : ModelCallUnknownReason}
    (h : markModelCallUnknown state callId reason = .ok state') :
    Transition D state (.modelCallBecameUnknown callId reason) state' := by
  simp only [markModelCallUnknown, Outcome.bind_eq_ok, Outcome.exists_unit, Outcome.failIf_eq_ok,
    Outcome.okOr_eq_ok, Outcome.pure_eq_ok, ne_eq, Decidable.not_not, UInt32.checkedAdd_eq_some] at h
  obtain ⟨_, loop, hloop, calls, hcalls, active, hactive, hcall, hstatus, unknown, hunknown, _, rfl⟩ := h
  exact .modelCallBecameUnknown hloop hcalls hactive hcall hstatus hunknown

theorem transition_of_settleModelCall {callId : String} {settlement : ModelCallSettlement}
    (h : settleModelCall state callId settlement = .ok state') :
    Transition D state (.modelCallSettled callId settlement) state' := by
  simp only [settleModelCall, Outcome.bind_eq_ok, Outcome.exists_unit, Outcome.failIf_eq_ok,
    Outcome.okOr_eq_ok, Outcome.pure_eq_ok, ne_eq, Decidable.not_not, UInt32.checkedAdd_eq_some] at h
  obtain ⟨_, loop, hloop, calls, hcalls, active, hactive, hcall, hsettlement, settled, hsettled, _,
    rfl⟩ := h
  exact .modelCallSettled hloop hcalls hactive hcall hsettlement hsettled

/-! ## Decisions -/

theorem callEnds_of_settle {decision : ExpectedPlanningTurn} {loop start loop' : AgentLoopState}
    (hsettle : settleSuccessfulModelCall start = .ok loop') (hloop : state.agentLoop = some loop)
    (hcheck : validateModelCallSuccess state decision = .ok ())
    (hcalls : start.modelCalls = loop.modelCalls) :
    ∃ calls, CallEnds state decision loop.modelCalls calls ∧
      loop' = { start with modelCalls := calls } := by
  simp only [validateModelCallSuccess, Outcome.bind_eq_ok, Outcome.okOr_eq_ok, hloop,
    Option.some.injEq, exists_eq_left'] at hcheck
  cases hc : loop.modelCalls with
  | none =>
    rw [hc] at hcheck hcalls
    simp only [settleSuccessfulModelCall, hcalls, Outcome.pure_eq_ok] at hsettle
    cases hd : decision.modelCallId with
    | none => exact ⟨none, .legacy hd, by rw [← hsettle, ← hcalls]⟩
    | some callId => simp [hd] at hcheck
  | some calls =>
    rw [hc] at hcheck hcalls
    cases hd : decision.modelCallId with
    | none => simp [hd] at hcheck
    | some callId =>
      simp only [hd, checkActiveCall, Outcome.bind_eq_ok, Outcome.exists_unit, Outcome.okOr_eq_ok,
        Outcome.failIf_eq_ok, ne_eq, Decidable.not_not, UInt64.checkedAdd_eq_some] at hcheck
      obtain ⟨active, hactive, rfl, hstatus, hturn, hcontext, _, hhead, rfl⟩ := hcheck
      simp only [settleSuccessfulModelCall, hcalls, hactive, Outcome.bind_eq_ok,
        Outcome.exists_unit, Outcome.okOr_eq_ok, Outcome.failIf_eq_ok, Outcome.pure_eq_ok,
        UInt32.checkedAdd_eq_some] at hsettle
      obtain ⟨_, _, _, settled, hsettled, _, rfl⟩ := hsettle
      exact ⟨_, .bound hactive hstatus hd hturn hcontext hhead hsettled, rfl⟩

theorem exceedsBudget_eq_false {total : ℕ} {limit : UInt32} :
    exceedsBudget total limit = false ↔ total ≤ limit.toNat := by
  unfold exceedsBudget
  cases h : UInt32.tryFrom total with
  | none =>
    have hlimit := limit.toNat_lt
    have hbig : ¬ total < 2 ^ 32 := by simpa [UInt32.tryFrom] using h
    simp only [Bool.true_eq_false, false_iff]
    omega
  | some word =>
    rw [UInt32.tryFrom_eq_some] at h
    simp [UInt32.lt_iff_toNat_lt, h]

/-! ## Plans -/

theorem buildAcceptedPlanCandidate_eq_ok {plan : List AcceptedPlanStep}
    {proposedIds : BTreeSet String} {candidate : RunState}
    (h : buildAcceptedPlanCandidate state plan proposedIds = .ok candidate) :
    candidate = { state with steps := addAccepted state.steps plan } := by
  simp only [buildAcceptedPlanCandidate, Outcome.bind_eq_ok, Outcome.mapErr_eq_ok,
    Outcome.pure_eq_ok] at h
  obtain ⟨frontier, _, built, hbuilt, rfl⟩ := h
  refine Outcome.foldl_induction
    (I := fun seen acc => acc.1 = { state with steps := addAccepted state.steps seen }) rfl ?_ hbuilt
  rintro seen acc step acc' _ hacc hok
  simp only [addPlanStep, Outcome.bind_eq_ok, Outcome.pure_eq_ok] at hok
  obtain ⟨_, _, rfl⟩ := hok
  simp only [hacc, addAccepted, AcceptedPlanStep.toStep, List.foldl_append, List.foldl_cons,
    List.foldl_nil]

theorem transition_of_acceptPlan {decision : ExpectedPlanningTurn} {plan : List AcceptedPlanStep}
    (h : acceptPlan D state decision plan = .ok state') :
    Transition D state (.planAccepted decision plan) state' := by
  simp only [acceptPlan, Outcome.bind_eq_ok, Outcome.exists_unit, Outcome.mapErr_eq_ok,
    Outcome.failIf_eq_ok, Outcome.okOr_eq_ok, Outcome.expect_eq_ok, Outcome.pure_eq_ok,
    Bool.not_eq_true, Option.isSome_eq_false_iff, Option.isNone_iff_eq_none, ne_eq,
    Decidable.not_not, not_or, gt_iff_lt, UInt32.not_lt, UInt32.checkedAdd_eq_some,
    exceedsBudget_eq_false] at h
  obtain ⟨_, hcheck, loop, hloop, hopen, turn, hturn, rfl, hturns, ⟨hplan, _⟩, hsize, proposedIds,
    hheaders, candidate, hcandidate, frontier, hfrontier, candidateLoop, hcandidateLoop, loop',
    hsettle, rfl⟩ := h
  obtain rfl := buildAcceptedPlanCandidate_eq_ok hcandidate
  obtain rfl : loop = candidateLoop := Option.some.inj (hloop.symm.trans hcandidateLoop)
  obtain ⟨calls, hcall, rfl⟩ := callEnds_of_settle hsettle hloop hcheck rfl
  have ht := Transition.planAccepted hloop hopen hturn hturns hcall hplan hsize hheaders
    (deriveFrontier_eq_ok hfrontier).1
  exact ht

theorem transition_of_recordCompletionCandidate {decision : ExpectedPlanningTurn}
    {candidateId summaryDigest : String} {outputRecordDigest : Option String}
    (h : recordCompletionCandidate state decision candidateId summaryDigest outputRecordDigest
      = .ok state') :
    Transition D state
      (.completionCandidateRecorded decision candidateId summaryDigest outputRecordDigest)
      state' := by
  simp only [recordCompletionCandidate, Outcome.bind_eq_ok, Outcome.exists_unit,
    Outcome.mapErr_eq_ok, Outcome.failIf_eq_ok, Outcome.okOr_eq_ok, Outcome.pure_eq_ok,
    Bool.not_eq_true, Option.isSome_eq_false_iff, Option.isNone_iff_eq_none, ne_eq,
    Decidable.not_not, gt_iff_lt, UInt32.not_lt, UInt32.checkedAdd_eq_some,
    Bool.not_eq_false] at h
  obtain ⟨_, hcheck, _, _, _, frontier, hfrontier, hcompleted, loop, hloop, hopen, turn, hturn, rfl,
    hturns, loop', hsettle, rfl⟩ := h
  obtain ⟨hsome, hall⟩ := (allStepsReceiptCompleted_iff hfrontier).mp hcompleted
  obtain ⟨calls, hcall, rfl⟩ := callEnds_of_settle hsettle hloop hcheck rfl
  have ht := @Transition.completionCandidateRecorded D state decision candidateId summaryDigest
    outputRecordDigest loop calls hloop hopen hturn hturns hcall hsome hall
  exact ht

theorem transition_of_planStep {id objective : String} {dependsOn : List String}
    (h : planStep state id objective dependsOn none = .ok state') :
    Transition D state (.stepPlanned id objective dependsOn) state' := by
  simp only [planStep, checkStepBudget, Outcome.bind_eq_ok, Outcome.exists_unit,
    Outcome.whenSome_eq_ok, Outcome.failIf_eq_ok, Outcome.pure_eq_ok, Bool.not_eq_true,
    Option.isSome_eq_false_iff, Option.isNone_iff_eq_none, exceedsBudget_eq_false] at h
  obtain ⟨hopen, hnew, unique, hunique, rfl⟩ := h
  have hdeps := Outcome.foldl_induction
    (I := fun (seen : List String) (u : BTreeSet String) => (∀ d, d ∈ u ↔ d ∈ seen) ∧
      id ∉ seen ∧ seen.Nodup ∧ ∀ d ∈ seen, d ∈ state.steps) (by simp) ?_ hunique
  · exact .stepPlanned hnew hopen hdeps.2.1 hdeps.2.2.1 hdeps.2.2.2
  · rintro seen u d u' _ ⟨hmem, hself, hnodup, hknown⟩ hok
    simp only [checkStepDependency, Outcome.bind_eq_ok, Outcome.exists_unit, Outcome.failIf_eq_ok,
      Outcome.pure_eq_ok, Decidable.not_not] at hok
    obtain ⟨hne, hfresh, hstep, rfl⟩ := hok
    rw [hmem] at hfresh
    refine ⟨fun x => ?_, ?_, ?_, ?_⟩
    · rw [BTreeSet.mem_insert_iff, hmem, List.mem_append, List.mem_singleton, or_comm, eq_comm]
    · simp [hself, Ne.symm hne]
    · exact List.nodup_append.mpr ⟨hnodup, List.nodup_singleton d, by
        rintro a ha b hb rfl
        exact hfresh (by simpa [List.mem_singleton.mp hb] using ha)⟩
    · intro x hx
      rcases List.mem_append.mp hx with hx | hx
      · exact hknown x hx
      · rwa [List.mem_singleton.mp hx]

/-! ## Intents -/

theorem not_any_commits {effectId : String}
    (h : ¬ ((BTreeMap.vals state.steps).any fun step =>
      step.intent.any fun existing => existing.effectId == effectId) = true) :
    ∀ (other : String) (s : StepState), state.steps[other]? = some s → ¬ s.Commits effectId := by
  intro other s hs hcommits
  refine h (List.any_eq_true.mpr ⟨s, BTreeMap.mem_vals_iff.mpr ⟨other, hs⟩, ?_⟩)
  obtain ⟨intent, hintent, heffect⟩ := Option.map_eq_some_iff.mp hcommits
  simp [hintent, heffect]

theorem firstUnreleasedDependency_eq_none {step : StepState}
    (h : firstUnreleasedDependency state step = .ok none) :
    ∀ d ∈ step.dependsOn, releasesAt state d = true := by
  have hI := Outcome.foldl_induction
    (I := fun seen (first : Option DependencyBlocker) =>
      first = none → ∀ d ∈ seen, releasesAt state d = true) (by simp) ?_ h
  · exact hI rfl
  · rintro seen first d first' _ hfirst hok hnone
    subst hnone
    simp only [unreleasedStep, Outcome.bind_eq_ok, Outcome.okOr_eq_ok] at hok
    obtain ⟨dependency, hdependency, hok⟩ := hok
    cases hreason : dependencyReleaseBlockReason dependency with
    | none =>
      rw [hreason, Outcome.pure_eq_ok] at hok
      intro x hx
      rcases List.mem_append.mp hx with hx | hx
      · exact hfirst hok x hx
      · rw [List.mem_singleton.mp hx, releasesAt_eq hdependency]
        exact dependencyReleaseBlockReason_eq_none.mp hreason
    | some reason =>
      -- a blocker was found before or is found here, so the result is not empty
      simp only [hreason, Outcome.pure_eq_ok] at hok
      cases first with
      | none => simp at hok
      | some current => split at hok <;> simp at hok

theorem transition_of_commitEffectIntent {id : String} {intent : EffectIntent}
    (h : commitEffectIntent D state id intent = .ok state') :
    Transition D state (.effectIntentCommitted id intent) state' := by
  simp only [commitEffectIntent, Outcome.bind_eq_ok, Outcome.exists_unit, Outcome.failIf_eq_ok,
    Outcome.okOr_eq_ok, Outcome.expect_eq_ok, Outcome.whenSome_eq_ok, requireStatus_eq_ok,
    Outcome.pure_eq_ok, Outcome.fail_eq_ok, imp_false] at h
  obtain ⟨hintent, hdup, step, hstep, hstatus, blocker, hblocker, hnone, hplanned, hbinding,
    consumption, hconsumed, step', hstep', rfl⟩ := h
  obtain rfl : step = step' := Option.some.inj (hstep.symm.trans hstep')
  obtain rfl : blocker = none := Option.eq_none_iff_forall_ne_some.mpr hnone
  exact .effectIntentCommitted hstep hstatus hintent (not_any_commits hdup)
    (firstUnreleasedDependency_eq_none hblocker) hplanned hbinding hconsumed

/-! ## All events -/

/-- **Every accepted event is a transition.** -/
theorem transition_of_applyBody {body : RunEventBody} (h : applyBody D state body = .ok state') :
    Transition D state body state' := by
  cases body with
  | runCreated goal => simp [applyBody] at h
  | agentLoopConfigured budget => exact transition_of_configureAgentLoop h
  | modelCallLifecycleConfigured budget => exact transition_of_configureModelCallLifecycle h
  | modelCallReserved reservation => exact transition_of_reserveModelCall h
  | modelCallBecameUnknown callId reason => exact transition_of_markModelCallUnknown h
  | modelCallSettled callId settlement => exact transition_of_settleModelCall h
  | planAccepted decision plan => exact transition_of_acceptPlan h
  | completionCandidateRecorded decision candidateId summaryDigest digest =>
    exact transition_of_recordCompletionCandidate h
  | stepPlanned id objective dependsOn => exact transition_of_planStep h
  | effectIntentCommitted id intent => exact transition_of_commitEffectIntent h
  | _ => exact transition_of_applyEffectLifecycle h

end Xgeny
