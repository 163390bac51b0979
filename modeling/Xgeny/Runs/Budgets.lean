import Xgeny.Runs.ModelCalls

set_option autoImplicit false

/-!
# Budgets and counters

The budgets of a loop bound its steps, its effect starts and its turns, also when the loop was
configured late, and the three model-call counters stay in an order that no handler checks: one
call is reserved for each one settled, and one more while a call is open.

* `CallCounters`: the order of the counters; `LoopBudget`: the budgets of a loop;
* `Transition.loopBudget`: every transition keeps them;
* `CounterError`: the two errors that report broken counters;
* **`budgets_hold`**: the budgets hold in every reachable state, and no record makes a handler
  return a counter error.
-/

namespace Xgeny

variable {D : Digests} {state next : RunState} {body : RunEventBody} {loop : AgentLoopState}
  {calls : ModelCallLifecycleState}

/-! ## The invariant -/

/-- The number of open calls. -/
def ModelCallLifecycleState.openCalls (calls : ModelCallLifecycleState) : ℕ :=
  if calls.activeCall.isSome = true then 1 else 0

/-- The number of open calls that are not in doubt. -/
def ModelCallLifecycleState.certainCalls (calls : ModelCallLifecycleState) : ℕ :=
  if calls.activeCall.any (fun active => decide (active.status = .reserved)) = true then 1 else 0

/-- The order of the model-call counters, with the accepted turns and the journal they count. -/
structure CallCounters (accepted : UInt32) (sequence : ℕ) (calls : ModelCallLifecycleState) :
    Prop where
  budget : calls.reservedCalls.toNat ≤ calls.budget.maxModelCalls.toNat
  balance : calls.reservedCalls.toNat = calls.settledCalls.toNat + calls.openCalls
  accepted : accepted.toNat ≤ calls.settledCalls.toNat
  unknown : calls.unknownCalls.toNat + calls.certainCalls ≤ calls.reservedCalls.toNat
  base : ∀ active, calls.activeCall = some active →
    active.reservation.baseSequence.toNat < sequence

/-- The budgets of a loop. -/
structure LoopBudget (state : RunState) (loop : AgentLoopState) : Prop where
  steps : state.steps.size ≤ loop.budget.maxPlannedSteps.toNat
  attempts : attemptsTotal state.steps ≤ loop.budget.maxToolCalls.toNat
  turns : loop.acceptedModelTurns.toNat ≤ loop.budget.maxModelTurns.toNat
  calls : ∀ calls, loop.modelCalls = some calls →
    CallCounters loop.acceptedModelTurns state.journalSequence.toNat calls

theorem CallCounters.later {accepted : UInt32} {sequence sequence' : ℕ}
    (h : CallCounters accepted sequence calls) (hle : sequence ≤ sequence') :
    CallCounters accepted sequence' calls :=
  ⟨h.budget, h.balance, h.accepted, h.unknown, fun active hactive =>
    lt_of_lt_of_le (h.base active hactive) hle⟩

/-! ## Counters -/

section

variable {accepted : UInt32} {sequence : ℕ} {active : ModelCallState}

theorem CallCounters.reserve {reservation : ModelCallReservation}
    (h : CallCounters accepted sequence calls) (hidle : calls.activeCall = none)
    (hbudget : calls.reservedCalls < calls.budget.maxModelCalls)
    (hindex : reservation.callIndex.toNat = calls.reservedCalls.toNat + 1)
    (hbase : reservation.baseSequence.toNat = sequence) :
    CallCounters accepted (sequence + 1)
      { calls with
        reservedCalls := reservation.callIndex
        activeCall := some { reservation := reservation, status := .reserved } } := by
  have hbalance := h.balance
  have hunknown := h.unknown
  simp only [ModelCallLifecycleState.openCalls, ModelCallLifecycleState.certainCalls, hidle] at *
  rw [UInt32.lt_iff_toNat_lt] at hbudget
  refine ⟨?_, ?_, h.accepted, ?_, ?_⟩
  · simp only [hindex]
    omega
  · simp [hindex, hbalance, ModelCallLifecycleState.openCalls]
  · simpa [hindex, ModelCallLifecycleState.certainCalls] using hunknown
  · intro active hactive
    rw [← Option.some.inj hactive]
    simp only [hbase]
    omega

theorem CallCounters.settled_lt (h : CallCounters accepted sequence calls)
    (hactive : calls.activeCall = some active) :
    calls.reservedCalls.toNat = calls.settledCalls.toNat + 1 := by
  simpa [ModelCallLifecycleState.openCalls, hactive] using h.balance

theorem CallCounters.unknown_lt (h : CallCounters accepted sequence calls)
    (hactive : calls.activeCall = some active) (hstatus : active.status = .reserved) :
    calls.unknownCalls.toNat < calls.reservedCalls.toNat := by
  have hunknown := h.unknown
  simp only [ModelCallLifecycleState.certainCalls, hactive, Option.any_some, hstatus, decide_true,
    if_true] at hunknown
  omega

theorem CallCounters.doubt {unknownCalls : UInt32} {reason : ModelCallUnknownReason}
    (h : CallCounters accepted sequence calls) (hactive : calls.activeCall = some active)
    (hstatus : active.status = .reserved)
    (hunknown : unknownCalls.toNat = calls.unknownCalls.toNat + 1) :
    CallCounters accepted sequence
      { calls with
        unknownCalls := unknownCalls
        activeCall := some { active with status := .unknown reason } } := by
  refine ⟨h.budget, ?_, h.accepted, ?_, ?_⟩
  · simpa [ModelCallLifecycleState.openCalls] using h.settled_lt hactive
  · have := h.unknown_lt hactive hstatus
    simp only [ModelCallLifecycleState.certainCalls, hunknown, Option.any_some, reduceCtorEq,
      decide_false, Bool.false_eq_true, if_false]
    omega
  · intro other hother
    rw [← Option.some.inj hother]
    exact h.base active hactive

theorem CallCounters.settle {settled accepted' : UInt32} (h : CallCounters accepted sequence calls)
    (hactive : calls.activeCall = some active)
    (hsettled : settled.toNat = calls.settledCalls.toNat + 1)
    (haccepted : accepted'.toNat ≤ accepted.toNat + 1) :
    CallCounters accepted' sequence { calls with settledCalls := settled, activeCall := none } := by
  refine ⟨h.budget, ?_, ?_, ?_, by simp⟩
  · simpa [ModelCallLifecycleState.openCalls, hsettled] using h.settled_lt hactive
  · have := h.accepted
    simp only [hsettled]
    omega
  · have := h.unknown
    simp only [ModelCallLifecycleState.certainCalls, Option.any_none, Bool.false_eq_true, if_false]
    omega

theorem CallCounters.first {budget : ModelCallBudget} (h : accepted ≤ budget.maxModelCalls) :
    CallCounters accepted sequence
      { budget := budget
        reservedCalls := accepted
        settledCalls := accepted
        unknownCalls := 0
        activeCall := none } := by
  refine ⟨UInt32.le_iff_toNat_le.mp h, ?_, le_refl _, ?_, by simp⟩
  · simp [ModelCallLifecycleState.openCalls]
  · simp [ModelCallLifecycleState.certainCalls]

theorem CallEnds.counters {decision : ExpectedPlanningTurn}
    {old new : Option ModelCallLifecycleState} (h : CallEnds state decision old new)
    (hold : ∀ calls, old = some calls → CallCounters accepted sequence calls)
    (hturn : decision.turnIndex.toNat = accepted.toNat + 1) :
    ∀ calls, new = some calls → CallCounters decision.turnIndex sequence calls := by
  cases h with
  | legacy => simp
  | bound hactive _ _ _ _ _ hsettled =>
    intro calls hcalls
    rw [← Option.some.inj hcalls]
    exact (hold _ rfl).settle hactive hsettled (by omega)

end

/-! ## Transitions -/

theorem StepMove.attempts_eq {id : String} {step step' : StepState}
    (h : StepMove body id step step') :
    step'.attempts = step.attempts ∨ (∃ effectId, body = .effectExecutionStarted id effectId) ∧
      step'.attempts.toNat = step.attempts.toNat + 1 := by
  cases h with
  | executionStarted heffect hstatus hattempts => exact Or.inr ⟨⟨_, rfl⟩, hattempts⟩
  | _ => exact Or.inl rfl

theorem attemptsTotal_insert {steps : BTreeMap String StepState} {id : String}
    {step step' : StepState} (hstep : steps[id]? = some step) :
    attemptsTotal (steps.insert id step') + step.attempts.toNat =
      attemptsTotal steps + step'.attempts.toNat :=
  BTreeMap.total_insert_old _ hstep

/-- **Step lemma.** A transition keeps the budgets, in the journal that it is recorded in. -/
theorem Transition.loopBudget (h : Transition D state body next) {record : EventRecord}
    (hsequence : record.sequence.toNat = state.journalSequence.toNat + 1)
    (hI : ∀ loop, state.agentLoop = some loop → LoopBudget state loop) :
    ∀ loop, next.agentLoop = some loop → LoopBudget (next.advance record) loop := by
  intro loop hloop
  have hlater : ∀ {accepted calls}, CallCounters accepted state.journalSequence.toNat calls →
      CallCounters accepted record.sequence.toNat calls := fun hcalls =>
    hcalls.later (by rw [hsequence]; omega)
  cases h with
  | agentLoopConfigured hnone hsteps hattempts =>
    obtain rfl := Option.some.inj hloop
    exact ⟨hsteps, hattempts, by simp, by simp⟩
  | modelCallLifecycleConfigured hold hcalls hbudget =>
    obtain rfl := Option.some.inj hloop
    have hB := hI _ hold
    refine ⟨hB.steps, hB.attempts, hB.turns, fun calls hnew => ?_⟩
    rw [← Option.some.inj hnew]
    exact .first hbudget
  | modelCallReserved hold hcalls hidle hopen hturns hbudget hindex hturn hbase =>
    obtain rfl := Option.some.inj hloop
    have hB := hI _ hold
    refine ⟨hB.steps, hB.attempts, hB.turns, fun calls hnew => ?_⟩
    rw [← Option.some.inj hnew, RunState.advance_journalSequence, hsequence]
    exact (hB.calls _ hcalls).reserve hidle hbudget hindex (by rw [hbase])
  | modelCallBecameUnknown hold hcalls hactive hcall hstatus hunknown =>
    obtain rfl := Option.some.inj hloop
    have hB := hI _ hold
    refine ⟨hB.steps, hB.attempts, hB.turns, fun calls hnew => ?_⟩
    rw [← Option.some.inj hnew]
    exact hlater ((hB.calls _ hcalls).doubt hactive hstatus hunknown)
  | modelCallSettled hold hcalls hactive hcall hsettlement hsettled =>
    obtain rfl := Option.some.inj hloop
    have hB := hI _ hold
    refine ⟨hB.steps, hB.attempts, hB.turns, fun calls hnew => ?_⟩
    rw [← Option.some.inj hnew]
    exact hlater ((hB.calls _ hcalls).settle hactive hsettled (Nat.le_succ _))
  | planAccepted hold hopen hturn hturns hcall hplan hsize hheaders =>
    obtain rfl := Option.some.inj hloop
    have hB := hI _ hold
    have hfresh := headers_fresh hheaders
    refine ⟨?_, ?_, UInt32.le_iff_toNat_le.mp hturns, fun calls hnew => ?_⟩
    · rw [RunState.advance_steps, size_addAccepted hfresh]
      exact hsize
    · rw [RunState.advance_steps, attemptsTotal_addAccepted hfresh]
      exact hB.attempts
    · exact hlater (hcall.counters hB.calls hturn calls hnew)
  | completionCandidateRecorded hold hopen hturn hturns hcall =>
    obtain rfl := Option.some.inj hloop
    have hB := hI _ hold
    exact ⟨hB.steps, hB.attempts, UInt32.le_iff_toNat_le.mp hturns, fun calls hnew =>
      hlater (hcall.counters hB.calls hturn calls hnew)⟩
  | stepPlanned hnew hopen =>
    have hB := hI loop hloop
    refine ⟨?_, ?_, hB.turns, fun calls hcalls => hlater (hB.calls calls hcalls)⟩
    · rw [RunState.advance_steps, RunState.setStep, BTreeMap.size_insert_new _ hnew]
      exact (hopen loop hloop).2
    · rw [RunState.advance_steps, RunState.setStep, attemptsTotal, BTreeMap.total_insert_new _ hnew]
      simpa [StepState.fresh, attemptsTotal] using hB.attempts
  | effectIntentCommitted hstep hstatus hintent hfresh hreleased hplanned hbinding hconsumed =>
    have hB := hI loop hloop
    refine ⟨?_, ?_, hB.turns, fun calls hcalls => hlater (hB.calls calls hcalls)⟩
    · rw [RunState.advance_steps, BTreeMap.size_insert_old _ hstep]
      exact hB.steps
    · rename_i id intent step consumption
      have htotal := @attemptsTotal_insert _ _ _
        { step with intent := some intent, status := .intentCommitted } hstep
      refine le_trans (le_of_eq ?_) hB.attempts
      exact Nat.add_right_cancel htotal
  | moved hstep hmove hbudget =>
    have hB := hI loop hloop
    refine ⟨?_, ?_, hB.turns, fun calls hcalls => hlater (hB.calls calls hcalls)⟩
    · rw [RunState.advance_steps, RunState.setStep, BTreeMap.size_insert_old _ hstep]
      exact hB.steps
    · rename_i id step step'
      have htotal := @attemptsTotal_insert _ _ _ step' hstep
      have hattempts := hB.attempts
      show attemptsTotal (state.steps.insert id step') ≤ _
      rcases hmove.attempts_eq with hsame | ⟨⟨effectId, hstart⟩, hmore⟩
      · rw [hsame] at htotal
        omega
      · have := hbudget effectId hstart loop hloop
        omega

/-- **Run lemma.** The budgets hold in every reachable state. -/
theorem reachable_loopBudget (h : Reachable D state) :
    ∀ loop, state.agentLoop = some loop → LoopBudget state loop := by
  refine reachable_induction
    (I := fun s => ∀ loop, s.agentLoop = some loop → LoopBudget s loop) ?_ ?_ h
  · intro record goal _ loop hloop
    simp [RunState.created, RunState.advance] at hloop
  · exact fun s record next _ hI hfollows ht => ht.loopBudget hfollows.sequence hI

/-! ## Counter errors -/

/-- The errors that report broken counters. -/
def CounterError (error : TransitionError) : Prop :=
  error = .modelCallCounterInvariant ∨ error = .modelCallCounterOverflow

open Outcome

theorem validateModelCallCounters_avoids {sequence : ℕ} (hcalls : loop.modelCalls = some calls)
    (h : CallCounters loop.acceptedModelTurns sequence calls) :
    Avoids CounterError (validateModelCallCounters loop) := by
  have haccepted := h.accepted
  have hbalance := h.balance
  have hunknown := h.unknown
  simp only [validateModelCallCounters, hcalls, avoids_whenSome, Option.some.injEq, forall_eq',
    avoids_failIf, gt_iff_lt, UInt32.lt_iff_toNat_lt]
  omega

/-! ### Handlers that do not touch the counters -/

theorem configureAgentLoop_avoids (budget : AgentLoopBudget) :
    Avoids CounterError (configureAgentLoop state budget) := by
  simp [configureAgentLoop, avoids_mapErr, CounterError]

theorem planStep_avoids (stepId objective : String) (dependsOn : List String) :
    Avoids CounterError (planStep state stepId objective dependsOn none) := by
  simp [planStep, checkStepBudget, checkStepDependency, avoids_foldl, CounterError]

theorem checkOutputRecord_avoids (step : StepState) (effectId : String) (output : Option String)
    (status : StepStatus) :
    Avoids CounterError (checkOutputRecord step effectId output status) := by
  cases output <;> simp [checkOutputRecord, CounterError]

theorem applyEffectLifecycle_avoids : Avoids CounterError (applyEffectLifecycle state body) := by
  have hmatching : ∀ stepId effectId, Avoids CounterError (matchingStepMut state stepId effectId) := by
    simp [matchingStepMut, stepMut, CounterError]
  have hstatus : ∀ step required, Avoids CounterError (requireStatus step required body) := by
    simp [requireStatus, invalidTransition, CounterError]
  have hlegacy : ∀ stepId status, Avoids CounterError
      (recordLegacyVerification state stepId status body) := by
    simp [recordLegacyVerification, stepMut, hstatus, CounterError]
  cases body with
  | effectExecutionStarted =>
    simp [applyEffectLifecycle, recordExecutionStarted, checkToolCallBudget, hmatching, hstatus,
      CounterError]
  | effectSucceeded | effectFailed =>
    simp [applyEffectLifecycle, recordEffectObservation, checkOutputRecord_avoids, hmatching,
      hstatus]
  | reconciliationResolved =>
    simp [applyEffectLifecycle, recordReconciliation, hmatching, hstatus, CounterError]
  | manualInterventionRequired =>
    simp [applyEffectLifecycle, recordManualRequired, invalidTransition, hmatching, CounterError]
  | verificationPassed | verificationFailed => simp [applyEffectLifecycle, hlegacy]
  | _ =>
    simp [applyEffectLifecycle, markMaterialUnavailable, recordEffectUnknown,
      recordReconciliationStarted, recordVerification, hmatching, hstatus]

theorem validatePlannedInvocationBinding_avoids (step : StepState) (intent : EffectIntent) :
    Avoids CounterError (validatePlannedInvocationBinding D step intent) := by
  have hprofile : ∀ stepId profile, Avoids CounterError
      (validatePlannedProfile stepId profile intent) := by
    intro stepId profile
    cases profile <;> simp [validatePlannedProfile, CounterError]
  simp [validatePlannedInvocationBinding, validatePlannedExecutionProfile, hprofile, avoids_mapErr,
    avoids_forEach, CounterError]

theorem checkIntent_avoids (intent : EffectIntent) : Avoids CounterError (checkIntent D intent) := by
  have hprovenance : Avoids CounterError (checkReceiptProvenance D intent) := by
    unfold checkReceiptProvenance
    split <;> simp [avoids_mapErr, CounterError]
  simp [checkIntent, validateToolOutputProfile, hprovenance, CounterError]

theorem firstUnreleasedDependency_avoids (step : StepState) :
    Avoids CounterError (firstUnreleasedDependency state step) := by
  refine avoids_foldl (fun first dependencyId => ?_) _ _
  refine avoids_bind.mpr ⟨by simp [CounterError], fun dependency _ => ?_⟩
  cases dependencyReleaseBlockReason dependency <;> simp

theorem commitEffectIntent_avoids (stepId : String) (intent : EffectIntent) :
    Avoids CounterError (commitEffectIntent D state stepId intent) := by
  simp [commitEffectIntent, requireStatus, invalidTransition, validateAuthorizationBinding,
    consumeAuthorization, checkIntent_avoids, firstUnreleasedDependency_avoids,
    validatePlannedInvocationBinding_avoids, avoids_mapErr, CounterError]

/-! ### Handlers that count calls -/

theorem configureModelCallLifecycle_avoids (budget : ModelCallBudget) :
    Avoids CounterError (configureModelCallLifecycle state budget) := by
  simp [configureModelCallLifecycle, validateModelCallCounters, avoids_mapErr, CounterError]

section

variable (hI : ∀ loop, state.agentLoop = some loop → LoopBudget state loop)
include hI

theorem reserveModelCall_avoids (reservation : ModelCallReservation) :
    Avoids CounterError (reserveModelCall D state reservation) := by
  simp only [reserveModelCall, ge_iff_le, ne_eq, bind_pure_comp, avoids_bind, CounterError,
    reduceCtorEq, or_self, not_false_eq_true, implies_true, avoids_mapErr, mapErr_eq_ok,
    avoids_okOr, okOr_eq_ok, avoids_failIf, failIf_eq_ok, Bool.not_eq_true,
    Option.isSome_eq_false_iff, Option.isNone_iff_eq_none, UInt32.not_le, UInt32.checkedAdd_eq_some,
    UInt32.reduceToNat, Decidable.not_not, not_or, avoids_map, and_imp, forall_const, true_and]
  intro _ _ loop hloop _ _ calls hcalls hidle hbudget index hindex rfl _ _ _ hbase _
  have hcounters := ((hI loop hloop).calls calls hcalls).reserve hidle hbudget hindex
    (by rw [hbase])
  exact validateModelCallCounters_avoids rfl hcounters

theorem markModelCallUnknown_avoids (callId : String) (reason : ModelCallUnknownReason) :
    Avoids CounterError (markModelCallUnknown state callId reason) := by
  simp only [markModelCallUnknown, ne_eq, bind_pure_comp, avoids_bind, CounterError, reduceCtorEq,
    or_self, not_false_eq_true, implies_true, avoids_mapErr, mapErr_eq_ok, avoids_okOr, okOr_eq_ok,
    avoids_failIf, failIf_eq_ok, Decidable.not_not, UInt32.checkedAdd_eq_none, Nat.reducePow,
    UInt32.reduceToNat, or_true, not_true_eq_false, imp_false, not_le, UInt32.checkedAdd_eq_some,
    avoids_map, forall_const, true_and]
  intro _ _ loop hloop calls hcalls active hactive _ hstatus
  have hcounters := (hI loop hloop).calls calls hcalls
  refine ⟨?_, fun unknown hunknown => ?_⟩
  · have := hcounters.unknown_lt hactive hstatus
    have := calls.reservedCalls.toNat_lt
    omega
  · exact validateModelCallCounters_avoids rfl (hcounters.doubt hactive hstatus hunknown)

theorem checkedAdd_base_ne_none {active : ModelCallState} (hloop : state.agentLoop = some loop)
    (hcalls : loop.modelCalls = some calls) (hactive : calls.activeCall = some active) :
    active.reservation.baseSequence.checkedAdd 1 ≠ none := by
  have hbase := ((hI loop hloop).calls calls hcalls).base active hactive
  have hlt := state.journalSequence.toNat_lt
  rw [ne_eq, UInt64.checkedAdd_eq_none]
  simp only [UInt64.toNat_one]
  omega

theorem settleModelCall_avoids (callId : String) (settlement : ModelCallSettlement) :
    Avoids CounterError (settleModelCall state callId settlement) := by
  simp only [settleModelCall, ne_eq, bind_pure_comp, avoids_bind, CounterError, reduceCtorEq,
    or_self, not_false_eq_true, implies_true, avoids_mapErr, mapErr_eq_ok, avoids_okOr, okOr_eq_ok,
    avoids_failIf, failIf_eq_ok, Decidable.not_not, UInt32.checkedAdd_eq_none, Nat.reducePow,
    UInt32.reduceToNat, or_true, not_true_eq_false, imp_false, not_le, UInt32.checkedAdd_eq_some,
    avoids_map, forall_const, true_and]
  intro _ _ loop hloop calls hcalls active hactive _
  have hcounters := (hI loop hloop).calls calls hcalls
  refine ⟨?_, fun _ _ => ⟨?_, fun settled hsettled => ?_⟩⟩
  · cases settlement with
    | abandoned => exact avoids_ok
    | rejected =>
      simp [checkSettlement, checkedAdd_base_ne_none hI hloop hcalls hactive, CounterError]
  · have := hcounters.settled_lt hactive
    have := calls.reservedCalls.toNat_lt
    omega
  · exact validateModelCallCounters_avoids rfl (hcounters.settle hactive hsettled (Nat.le_succ _))

theorem validateModelCallSuccess_avoids (decision : ExpectedPlanningTurn) :
    Avoids CounterError (validateModelCallSuccess state decision) := by
  refine avoids_bind.mpr ⟨by simp [CounterError], fun loop hloop => ?_⟩
  rw [okOr_eq_ok] at hloop
  cases hcalls : loop.modelCalls with
  | none => cases decision.modelCallId <;> simp [CounterError]
  | some calls =>
    cases decision.modelCallId with
    | none => simp [CounterError]
    | some callId =>
      simp only [checkActiveCall, ne_eq, avoids_bind, avoids_okOr, CounterError, reduceCtorEq,
        or_self, not_false_eq_true, implies_true, okOr_eq_ok, avoids_failIf, failIf_eq_ok,
        Decidable.not_not, or_true, not_true_eq_false, imp_false, and_true, forall_const, true_and]
      exact fun active hactive _ _ _ _ => checkedAdd_base_ne_none hI hloop hcalls hactive

end

theorem settleSuccessfulModelCall_avoids {accepted : UInt32} {sequence : ℕ}
    (h : ∀ calls, loop.modelCalls = some calls → CallCounters accepted sequence calls)
    (hturn : loop.acceptedModelTurns.toNat = accepted.toNat + 1) :
    Avoids CounterError (settleSuccessfulModelCall loop) := by
  unfold settleSuccessfulModelCall
  cases hcalls : loop.modelCalls with
  | none => exact avoids_pure
  | some calls =>
    have hcounters := h calls hcalls
    simp only [ne_eq, bind_pure_comp, avoids_bind, avoids_okOr, CounterError, reduceCtorEq,
      or_self, not_false_eq_true, implies_true, okOr_eq_ok, avoids_failIf, failIf_eq_ok,
      Decidable.not_not, UInt32.checkedAdd_eq_none, Nat.reducePow, UInt32.reduceToNat, or_true,
      not_true_eq_false, imp_false, not_le, UInt32.checkedAdd_eq_some, avoids_map, forall_const,
      true_and]
    intro active hactive _
    refine ⟨?_, fun settled hsettled => ?_⟩
    · have := hcounters.settled_lt hactive
      have := calls.reservedCalls.toNat_lt
      omega
    · exact validateModelCallCounters_avoids rfl (hcounters.settle hactive hsettled hturn.le)

theorem validateAcceptedPlanHeaders_avoids (decision : ExpectedPlanningTurn)
    (plan : List AcceptedPlanStep) :
    Avoids CounterError (validateAcceptedPlanHeaders D state decision plan) := by
  have hclaim : ∀ stepId owners action, Avoids CounterError (claimAction stepId owners action) := by
    simp [claimAction, CounterError]
  simp [validateAcceptedPlanHeaders, existingActionOwners, validateAcceptedPlanHeader,
    validateAcceptedObjective, hclaim, avoids_foldl, avoids_mapErr, CounterError]

theorem deriveFrontier_avoids :
    Avoids CounterError ((deriveFrontier state).mapErr mapPlanFrontierError) :=
  avoids_mapErr fun error => by cases error <;> simp [mapPlanFrontierError, CounterError]

theorem buildAcceptedPlanCandidate_avoids (plan : List AcceptedPlanStep)
    (proposedIds : BTreeSet String) :
    Avoids CounterError (buildAcceptedPlanCandidate state plan proposedIds) := by
  simp [buildAcceptedPlanCandidate, addPlanStep, checkPlanDependency, deriveFrontier_avoids,
    avoids_foldl, CounterError]

section

variable (hI : ∀ loop, state.agentLoop = some loop → LoopBudget state loop)
include hI

theorem acceptPlan_avoids (decision : ExpectedPlanningTurn) (plan : List AcceptedPlanStep) :
    Avoids CounterError (acceptPlan D state decision plan) := by
  simp only [acceptPlan, ne_eq, gt_iff_lt, bind_pure_comp, avoids_bind, CounterError,
    reduceCtorEq, or_self, not_false_eq_true, implies_true, avoids_mapErr, mapErr_eq_ok,
    validateModelCallSuccess_avoids hI, avoids_okOr, okOr_eq_ok, avoids_failIf, failIf_eq_ok,
    Bool.not_eq_true, Option.isSome_eq_false_iff, Option.isNone_iff_eq_none,
    UInt32.checkedAdd_eq_some, UInt32.reduceToNat, Decidable.not_not, UInt32.not_lt, not_or, not_lt,
    validateAcceptedPlanHeaders_avoids, buildAcceptedPlanCandidate_avoids, deriveFrontier_avoids,
    avoids_expect, expect_eq_ok, avoids_map, true_and, forall_const, and_imp]
  intro _ _ _ _ loop hloop _ turn hturn _ _ _ _ _ proposedIds _ candidate hcandidate _ _ loop' hloop'
  rw [buildAcceptedPlanCandidate_eq_ok hcandidate] at hloop'
  obtain rfl := Option.some.inj (hloop.symm.trans hloop')
  exact settleSuccessfulModelCall_avoids (hI loop hloop).calls hturn

theorem recordCompletionCandidate_avoids (decision : ExpectedPlanningTurn)
    (candidateId summaryDigest : String) (output : Option String) :
    Avoids CounterError
      (recordCompletionCandidate state decision candidateId summaryDigest output) := by
  simp only [recordCompletionCandidate, Bool.not_eq_true, ne_eq, gt_iff_lt, bind_pure_comp,
    avoids_bind, CounterError, reduceCtorEq, or_self, not_false_eq_true, implies_true,
    avoids_mapErr, mapErr_eq_ok, validateModelCallSuccess_avoids hI, avoids_whenSome,
    whenSome_eq_ok, deriveFrontier_avoids, avoids_failIf, failIf_eq_ok, Bool.not_eq_false,
    avoids_okOr, okOr_eq_ok, Option.isSome_eq_false_iff, Option.isNone_iff_eq_none,
    UInt32.checkedAdd_eq_some, UInt32.reduceToNat, Decidable.not_not, UInt32.not_lt, avoids_map,
    forall_const, true_and]
  intro _ _ _ _ _ _ _ _ _ _ _ _ loop hloop _ turn hturn _ _
  exact settleSuccessfulModelCall_avoids (hI loop hloop).calls hturn

theorem applyBody_avoids : Avoids CounterError (applyBody D state body) := by
  cases body with
  | runCreated => exact avoids_abort
  | agentLoopConfigured budget => exact configureAgentLoop_avoids budget
  | modelCallLifecycleConfigured budget => exact configureModelCallLifecycle_avoids budget
  | modelCallReserved reservation => exact reserveModelCall_avoids hI reservation
  | modelCallBecameUnknown callId reason => exact markModelCallUnknown_avoids hI callId reason
  | modelCallSettled callId settlement => exact settleModelCall_avoids hI callId settlement
  | planAccepted decision plan => exact acceptPlan_avoids hI decision plan
  | completionCandidateRecorded decision candidateId summaryDigest output =>
    exact recordCompletionCandidate_avoids hI decision candidateId summaryDigest output
  | stepPlanned stepId objective dependsOn => exact planStep_avoids stepId objective dependsOn
  | effectIntentCommitted stepId intent => exact commitEffectIntent_avoids stepId intent
  | _ =>
    rw [applyBody]
    exact applyEffectLifecycle_avoids
    all_goals simp

theorem applyRecord_avoids (record : EventRecord) :
    Avoids CounterError (applyRecord D (some state) record) := by
  have hverify : Avoids CounterError (verifyRecordAgainstState D (some state) record) := by
    simp [verifyRecordAgainstState, checkRunIdentity, avoids_mapErr, CounterError]
  have hevent : Avoids CounterError (applyEvent D (some state) record.event) := by
    unfold applyEvent
    split
    · exact avoids_pure
    · simp at *
    · simp [CounterError]
    · rename_i heq _
      obtain rfl := Option.some.inj heq
      exact applyBody_avoids hI
  simp [applyRecord, hverify, hevent]

end

/-- **Budgets and counters.** In every reachable state with a loop, the steps, the effect starts
and the accepted turns are within the budget of the loop; with a model-call lifecycle the reserved
calls are within its budget, one is reserved for each one settled and one more while a call is open,
and the accepted turns and the calls in doubt are covered by them. No record makes a handler report
that the counters are out of order or overflow. -/
theorem budgets_hold (h : Reachable D state) :
    (∀ loop, state.agentLoop = some loop →
      state.steps.size ≤ loop.budget.maxPlannedSteps.toNat ∧
        BTreeMap.total (fun step => step.attempts.toNat) state.steps
          ≤ loop.budget.maxToolCalls.toNat ∧
        loop.acceptedModelTurns ≤ loop.budget.maxModelTurns ∧
        ∀ calls, loop.modelCalls = some calls →
          calls.reservedCalls ≤ calls.budget.maxModelCalls ∧
            calls.reservedCalls.toNat =
              calls.settledCalls.toNat + (if calls.activeCall.isSome = true then 1 else 0) ∧
            loop.acceptedModelTurns ≤ calls.settledCalls ∧
            calls.unknownCalls ≤ calls.reservedCalls) ∧
      ∀ record, applyRecord D (some state) record ≠ .error (.err .modelCallCounterInvariant) ∧
        applyRecord D (some state) record ≠ .error (.err .modelCallCounterOverflow) := by
  have hI := reachable_loopBudget h
  refine ⟨fun loop hloop => ?_, fun record => ?_⟩
  · have hB := hI loop hloop
    refine ⟨hB.steps, hB.attempts, UInt32.le_iff_toNat_le.mpr hB.turns, fun calls hcalls => ?_⟩
    have hC := hB.calls calls hcalls
    have hunknown := hC.unknown
    exact ⟨UInt32.le_iff_toNat_le.mpr hC.budget, hC.balance, UInt32.le_iff_toNat_le.mpr hC.accepted,
      UInt32.le_iff_toNat_le.mpr (by omega)⟩
  · have havoids := applyRecord_avoids (D := D) hI record
    exact ⟨fun he => havoids _ he (Or.inl rfl), fun he => havoids _ he (Or.inr rfl)⟩

/-- The sample run with model calls has spent two reservations of its four. -/
theorem budgets_hold_sample : ∃ state loop calls,
    Reachable (tableDigests callTable) state ∧ state.agentLoop = some loop ∧
      loop.modelCalls = some calls ∧ calls.reservedCalls = 2 ∧
      calls.reservedCalls ≤ calls.budget.maxModelCalls ∧
      loop.acceptedModelTurns ≤ calls.settledCalls := by
  obtain ⟨state, loop, calls, hreplay, hloop, hcalls, hreserved⟩ := callJournal_replays
  have hbudget := (budgets_hold ⟨_, hreplay⟩).1 loop hloop
  obtain ⟨hle, _, haccepted, _⟩ := hbudget.2.2.2 calls hcalls
  exact ⟨state, loop, calls, ⟨_, hreplay⟩, hloop, hcalls, hreserved, hle, haccepted⟩

end Xgeny
