import Xgeny.Transition.Inversion

set_option autoImplicit false

/-!
# How the steps of a run change

A transition leaves the steps alone, replaces one of them, or adds new ones.

* `StepEvolves`: what replacing a step keeps of it;
* `StepsChange`: the three ways;
* **`Transition.stepsChange`**: every transition takes one of them;
* `headers_fresh`, `addAccepted_*`: the steps that an accepted plan adds;
* `LocalMove`, **`Transition.localMove`**: a transition as one step sees it.
-/

namespace Xgeny

/-! ## One step -/

/-- The statuses that no event leaves. -/
def StepStatus.Terminal (status : StepStatus) : Prop :=
  status = .completed ∨ status = .failed ∨ status = .manualRequired

/-- What is kept of a step that an event replaces. -/
structure StepEvolves (step step' : StepState) : Prop where
  stepId : step'.stepId = step.stepId
  objective : step'.objective = step.objective
  dependsOn : step'.dependsOn = step.dependsOn
  plannedInvocation : step'.plannedInvocation = step.plannedInvocation
  intent : step.status ≠ .planned ∧ step'.intent = step.intent ∨
    step.status = .planned ∧ step'.intent.isSome = true
  attempts : step.attempts ≤ step'.attempts
  live : ¬ step.status.Terminal
  left : step'.status ≠ .planned

theorem ReconciliationResolution.nextStatus_ne_planned (resolution : ReconciliationResolution) :
    resolution.nextStatus ≠ .planned := by
  cases resolution <;> simp [ReconciliationResolution.nextStatus]

theorem VerificationDisposition.nextStatus_ne_planned (disposition : VerificationDisposition) :
    disposition.nextStatus ≠ .planned := by
  cases disposition <;> simp [VerificationDisposition.nextStatus]

theorem StepMove.intent_eq {body : RunEventBody} {id : String} {step step' : StepState}
    (h : StepMove body id step step') : step'.intent = step.intent ∧ step.status ≠ .planned := by
  cases h <;> simp_all
  case manualRequired hstatus => rcases hstatus with hstatus | hstatus <;> simp [hstatus]

theorem StepMove.evolves {body : RunEventBody} {id : String} {step step' : StepState}
    (h : StepMove body id step step') : StepEvolves step step' := by
  have hintent : step.status ≠ .planned ∧ step'.intent = step.intent ∨
      step.status = .planned ∧ step'.intent.isSome = true := Or.inl h.intent_eq.symm
  cases h with
  | executionStarted heffect hstatus hattempts =>
    refine ⟨rfl, rfl, rfl, rfl, hintent, ?_, by simp [StepStatus.Terminal, hstatus], by simp⟩
    rw [UInt32.le_iff_toNat_le]
    simp only [hattempts]
    omega
  | reconciliationResolved heffect hstatus hprofile =>
    exact ⟨rfl, rfl, rfl, rfl, hintent, UInt32.le_refl _,
      by simp [StepStatus.Terminal, hstatus], ReconciliationResolution.nextStatus_ne_planned _⟩
  | manualRequired heffect hstatus =>
    refine ⟨rfl, rfl, rfl, rfl, hintent, UInt32.le_refl _, ?_, by simp⟩
    rcases hstatus with hstatus | hstatus <;> simp [StepStatus.Terminal, hstatus]
  | verificationRecorded heffect hstatus =>
    exact ⟨rfl, rfl, rfl, rfl, hintent, UInt32.le_refl _,
      by simp [StepStatus.Terminal, hstatus], VerificationDisposition.nextStatus_ne_planned _⟩
  | materialUnavailable heffect hstatus | succeeded heffect hstatus houtput
  | failed heffect hstatus | becameUnknown heffect hstatus
  | reconciliationStarted heffect hstatus | verificationPassed hstatus
  | verificationFailed hstatus =>
    exact ⟨rfl, rfl, rfl, rfl, hintent, UInt32.le_refl _,
      by simp [StepStatus.Terminal, hstatus], by simp⟩

/-! ## Accepted plans -/

section

variable {D : Digests} {state : RunState}

theorem addAccepted_cons (steps : BTreeMap String StepState) (p : AcceptedPlanStep)
    (plan : List AcceptedPlanStep) :
    addAccepted steps (p :: plan) = addAccepted (steps.insert p.stepId p.toStep) plan := rfl

theorem addAccepted_get_of_ne {steps : BTreeMap String StepState} {plan : List AcceptedPlanStep}
    {id : String} (h : ∀ p ∈ plan, p.stepId ≠ id) : (addAccepted steps plan)[id]? = steps[id]? := by
  induction plan generalizing steps with
  | nil => rfl
  | cons p plan ih =>
    rw [addAccepted_cons, ih fun q hq => h q (List.mem_cons_of_mem _ hq),
      BTreeMap.get_insert_ne _ _ (h p List.mem_cons_self)]

theorem addAccepted_get {steps : BTreeMap String StepState} {plan : List AcceptedPlanStep}
    {id : String} {step : StepState} (h : (addAccepted steps plan)[id]? = some step) :
    steps[id]? = some step ∨ ∃ p ∈ plan, p.stepId = id ∧ step = p.toStep := by
  induction plan generalizing steps with
  | nil => exact Or.inl h
  | cons p plan ih =>
    rw [addAccepted_cons] at h
    rcases ih h with hold | ⟨q, hq, hid, hstep⟩
    · rw [BTreeMap.get_insert] at hold
      split at hold
      · rename_i hid
        exact Or.inr ⟨p, List.mem_cons_self, hid, (Option.some.inj hold).symm⟩
      · exact Or.inl hold
    · exact Or.inr ⟨q, List.mem_cons_of_mem _ hq, hid, hstep⟩

/-- The steps named by an accepted plan are new and distinct. -/
structure FreshPlan (steps : BTreeMap String StepState) (plan : List AcceptedPlanStep) : Prop where
  fresh : ∀ p ∈ plan, p.stepId ∉ steps
  nodup : (plan.map AcceptedPlanStep.stepId).Nodup

theorem FreshPlan.cons {steps : BTreeMap String StepState} {p : AcceptedPlanStep}
    {plan : List AcceptedPlanStep} (h : FreshPlan steps (p :: plan)) :
    p.stepId ∉ steps ∧ FreshPlan (steps.insert p.stepId p.toStep) plan := by
  refine ⟨h.fresh p List.mem_cons_self, fun q hq => ?_, ?_⟩
  · rw [BTreeMap.mem_insert_iff]
    rintro (hid | hold)
    · exact (List.nodup_cons.mp h.nodup).1 (hid ▸ List.mem_map_of_mem hq)
    · exact h.fresh q (List.mem_cons_of_mem _ hq) hold
  · exact (List.nodup_cons.mp h.nodup).2

theorem addAccepted_get_of_mem {steps : BTreeMap String StepState} {plan : List AcceptedPlanStep}
    {p : AcceptedPlanStep} (h : FreshPlan steps plan) (hp : p ∈ plan) :
    (addAccepted steps plan)[p.stepId]? = some p.toStep := by
  induction plan generalizing steps with
  | nil => simp at hp
  | cons q plan ih =>
    obtain ⟨_, hrest⟩ := h.cons
    rw [addAccepted_cons]
    rcases List.mem_cons.mp hp with rfl | hp
    · rw [addAccepted_get_of_ne, Std.ExtTreeMap.getElem?_insert_self]
      intro r hr hid
      exact (List.nodup_cons.mp h.nodup).1 (hid ▸ List.mem_map_of_mem hr)
    · exact ih hrest hp

theorem size_addAccepted {steps : BTreeMap String StepState} {plan : List AcceptedPlanStep}
    (h : FreshPlan steps plan) : (addAccepted steps plan).size = steps.size + plan.length := by
  induction plan generalizing steps with
  | nil => rfl
  | cons p plan ih =>
    obtain ⟨hnew, hrest⟩ := h.cons
    rw [addAccepted_cons, ih hrest, BTreeMap.size_insert_new _ hnew, List.length_cons]
    omega

theorem attemptsTotal_addAccepted {steps : BTreeMap String StepState}
    {plan : List AcceptedPlanStep} (h : FreshPlan steps plan) :
    attemptsTotal (addAccepted steps plan) = attemptsTotal steps := by
  induction plan generalizing steps with
  | nil => rfl
  | cons p plan ih =>
    obtain ⟨hnew, hrest⟩ := h.cons
    rw [addAccepted_cons, ih hrest, attemptsTotal, BTreeMap.total_insert_new _ hnew]
    simp [AcceptedPlanStep.toStep, StepState.fresh, attemptsTotal]

theorem validateAcceptedPlanHeader_eq_ok {decision : ExpectedPlanningTurn}
    {acc acc' : BTreeSet String × BTreeMap String String} {p : AcceptedPlanStep}
    (h : validateAcceptedPlanHeader D state decision acc p = .ok acc') :
    p.stepId ∉ state.steps ∧ p.stepId ∉ acc.1 ∧ acc'.1 = acc.1.insert p.stepId ∧
      p.invocation.validate D = .ok () ∧
      claimAction p.stepId acc.2 p.invocation.actionDigest = .ok acc'.2 := by
  simp only [validateAcceptedPlanHeader, Outcome.bind_eq_ok, Outcome.exists_unit,
    Outcome.mapErr_eq_ok, Outcome.failIf_eq_ok, Outcome.pure_eq_ok, not_or] at h
  obtain ⟨_, _, hvalid, owners, howners, _, ⟨hnew, hfresh⟩, rfl⟩ := h
  exact ⟨hnew, hfresh, rfl, hvalid, howners⟩

theorem headers_fresh {decision : ExpectedPlanningTurn} {plan : List AcceptedPlanStep}
    {proposedIds : BTreeSet String}
    (h : validateAcceptedPlanHeaders D state decision plan = .ok proposedIds) :
    FreshPlan state.steps plan := by
  simp only [validateAcceptedPlanHeaders, Outcome.bind_eq_ok, Outcome.pure_eq_ok] at h
  obtain ⟨owners, _, acc, hacc, _⟩ := h
  have hI := Outcome.foldl_induction
    (I := fun (seen : List AcceptedPlanStep) (acc : BTreeSet String × BTreeMap String String) =>
      (∀ id, id ∈ acc.1 ↔ id ∈ seen.map AcceptedPlanStep.stepId) ∧ FreshPlan state.steps seen)
    ⟨by simp, by simp, by simp⟩ ?_ hacc
  · exact hI.2
  · rintro seen acc p acc' _ ⟨hids, hfresh, hnodup⟩ hok
    obtain ⟨hnew, hpfresh, hacc', -, -⟩ := validateAcceptedPlanHeader_eq_ok hok
    rw [hids] at hpfresh
    refine ⟨fun id => ?_, fun q hq => ?_, ?_⟩
    · rw [hacc', BTreeSet.mem_insert_iff, hids, List.map_append, List.mem_append]
      simp [or_comm, eq_comm]
    · rcases List.mem_append.mp hq with hq | hq
      · exact hfresh q hq
      · rwa [List.mem_singleton.mp hq]
    · rw [List.map_append]
      refine List.nodup_append.mpr ⟨hnodup, by simp, ?_⟩
      rintro a ha b hb rfl
      simp only [List.map_cons, List.map_nil, List.mem_singleton] at hb
      exact hpfresh (hb ▸ ha)

end

/-! ## All steps -/

/-- A step as it enters the graph. -/
def StepState.IsFresh (step : StepState) (id : String) : Prop :=
  step = StepState.fresh id step.objective step.dependsOn step.plannedInvocation

/-- The three ways in which the steps change. -/
inductive StepsChange (steps steps' : BTreeMap String StepState) : Prop where
  | same (h : steps' = steps)
  | replaced {id : String} {step step' : StepState} (hstep : steps[id]? = some step)
      (h : steps' = steps.insert id step') (hevolves : StepEvolves step step')
  | added (hold : ∀ {id : String} {step : StepState}, steps[id]? = some step →
        steps'[id]? = some step)
      (hnew : ∀ {id : String} {step : StepState}, steps'[id]? = some step →
        steps[id]? = some step ∨ id ∉ steps ∧ step.IsFresh id)

/-- **Every transition leaves the steps alone, replaces one of them, or adds new ones.** -/
theorem Transition.stepsChange {D : Digests} {state state' : RunState} {body : RunEventBody}
    (h : Transition D state body state') : StepsChange state.steps state'.steps := by
  cases h with
  | planAccepted hloop hopen hturn hturns hcall hplan hsize hheaders hschedulable =>
    have hfresh := headers_fresh hheaders
    refine .added (fun {id step} hid => ?_) fun {id step} hid => ?_
    · have hmem : id ∈ state.steps := BTreeMap.mem_iff_exists.mpr ⟨step, hid⟩
      rw [addAccepted_get_of_ne fun p hp hpid => hfresh.fresh p hp (hpid ▸ hmem), hid]
    · rcases addAccepted_get hid with hold | ⟨p, hp, rfl, rfl⟩
      · exact Or.inl hold
      · exact Or.inr ⟨hfresh.fresh p hp, rfl⟩
  | stepPlanned hnew hopen hself hnodup hknown =>
    refine .added (fun {id step} hid => ?_) fun {id step} hid => ?_
    · have hmem : id ∈ state.steps := BTreeMap.mem_iff_exists.mpr ⟨step, hid⟩
      have hne : ∀ {a}, a ∉ state.steps → a ≠ id := fun ha heq => ha (heq ▸ hmem)
      rw [RunState.setStep, BTreeMap.get_insert_ne _ _ (hne hnew), hid]
    · rw [RunState.setStep, BTreeMap.get_insert] at hid
      split at hid
      · rename_i heq
        subst heq
        obtain rfl := Option.some.inj hid
        exact Or.inr ⟨hnew, rfl⟩
      · exact Or.inl hid
  | effectIntentCommitted hstep hstatus hintent hfresh hreleased hplanned hbinding hconsumed =>
    exact .replaced hstep rfl ⟨rfl, rfl, rfl, rfl, Or.inr ⟨hstatus, rfl⟩, UInt32.le_refl _,
      by simp [StepStatus.Terminal, hstatus], by simp⟩
  | moved hstep hmove hbudget => exact .replaced hstep rfl hmove.evolves
  | agentLoopConfigured | modelCallLifecycleConfigured | modelCallReserved
  | modelCallBecameUnknown | modelCallSettled | completionCandidateRecorded => exact .same rfl

/-! ## The view of one step -/

/-- The step that an event of the effect lifecycle, or an intent, is about. -/
def RunEventBody.subject : RunEventBody → Option String
  | .effectIntentCommitted id _ => some id
  | .invocationMaterialUnavailable id _ _ => some id
  | .effectExecutionStarted id _ => some id
  | .effectSucceeded id _ _ _ => some id
  | .effectFailed id _ _ => some id
  | .effectBecameUnknown id _ _ => some id
  | .reconciliationStarted id _ => some id
  | .reconciliationResolved id _ _ _ => some id
  | .manualInterventionRequired id _ _ => some id
  | .verificationPassed id => some id
  | .verificationFailed id _ => some id
  | .verificationRecorded id _ _ _ _ => some id
  | _ => none

/-- How an event looks from the step `id`, which may not exist yet. -/
inductive LocalMove : RunEventBody → String → Option StepState → Option StepState → Prop where
  | idle {body : RunEventBody} {id : String} {view : Option StepState}
      (hbody : body.subject ≠ some id) : LocalMove body id view view
  | enters {body : RunEventBody} {id : String} {step : StepState}
      (hbody : body.subject ≠ some id) (hfresh : step.IsFresh id) :
      LocalMove body id none (some step)
  | commits {id : String} {intent : EffectIntent} {step : StepState}
      (hstatus : step.status = .planned) :
      LocalMove (.effectIntentCommitted id intent) id (some step)
        (some { step with intent := some intent, status := .intentCommitted })
  | moves {body : RunEventBody} {id : String} {step step' : StepState}
      (hmove : StepMove body id step step') : LocalMove body id (some step) (some step')

theorem StepMove.subject {body : RunEventBody} {id : String} {step step' : StepState}
    (h : StepMove body id step step') : body.subject = some id := by
  cases h <;> rfl

/-- **Every transition, seen from one step.** -/
theorem Transition.localMove {D : Digests} {state state' : RunState} {body : RunEventBody}
    (h : Transition D state body state') (id : String) :
    LocalMove body id state.steps[id]? state'.steps[id]? := by
  cases h with
  | planAccepted hloop hopen hturn hturns hcall hplan hsize hheaders hschedulable =>
    have hfresh := headers_fresh hheaders
    by_cases hmem : id ∈ state.steps
    · rw [addAccepted_get_of_ne fun p hp hpid => hfresh.fresh p hp (hpid ▸ hmem)]
      exact .idle (by simp [RunEventBody.subject])
    · rw [BTreeMap.get_eq_none_iff.mpr hmem]
      cases hnew : (addAccepted state.steps _)[id]? with
      | none => exact .idle (by simp [RunEventBody.subject])
      | some step =>
        rcases addAccepted_get hnew with hold | ⟨p, hp, rfl, rfl⟩
        · exact absurd (BTreeMap.mem_iff_exists.mpr ⟨step, hold⟩) hmem
        · exact .enters (by simp [RunEventBody.subject]) rfl
  | stepPlanned hnew hopen hself hnodup hknown =>
    rename_i new objective dependsOn
    rw [RunState.setStep, BTreeMap.get_insert]
    split
    · rename_i heq
      subst heq
      rw [BTreeMap.get_eq_none_iff.mpr hnew]
      exact .enters (by simp [RunEventBody.subject]) rfl
    · exact .idle (by simp [RunEventBody.subject])
  | effectIntentCommitted hstep hstatus hintent hfresh hreleased hplanned hbinding hconsumed =>
    rename_i other intent step consumption
    rw [BTreeMap.get_insert]
    split
    · rename_i heq
      subst heq
      rw [hstep]
      exact .commits hstatus
    · rename_i hne
      exact .idle (by simp [RunEventBody.subject, hne])
  | moved hstep hmove hbudget =>
    rename_i other step step'
    rw [RunState.setStep, BTreeMap.get_insert]
    split
    · rename_i heq
      subst heq
      rw [hstep]
      exact .moves hmove
    · rename_i hne
      exact .idle (by rw [hmove.subject]; simpa using hne)
  | agentLoopConfigured | modelCallLifecycleConfigured | modelCallReserved
  | modelCallBecameUnknown | modelCallSettled | completionCandidateRecorded =>
    exact .idle (by simp [RunEventBody.subject])

end Xgeny
