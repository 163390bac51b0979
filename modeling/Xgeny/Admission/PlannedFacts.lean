import Xgeny.Admission.Admitted
import Xgeny.AgentLoop.ContextBuilds
import Xgeny.AgentLoop.Presentation
import Xgeny.AgentLoop.Tick
import Xgeny.Policy.Coverage
import Xgeny.Runtime.Recovery

set_option autoImplicit false

/-!
# One action, derived three times

The facts of a planned invocation are derived from the arguments of the planner, again from the
normalized arguments under the final id of the step, at its admission, and at its recovery.

* `Derives`: how facts are derived;
* `Validates`, `StepFrom`: what a validated and a prepared step carry of the two derivations;
* `StepFrom.definitionBinding`, `StepFrom.preparePending`, `StepFrom.recovers`: the checks of
  admission and of recovery pass, because the plan has checked its steps under their final ids;
* **`planned_action_agrees`**: planning, admission and recovery agree.
-/

namespace Xgeny

section

variable {D : Digests} {J : Schemas} {registry : CapabilityRegistry} {resolver : ResourceResolver}

/-! ## Facts -/

/-- The facts of one action; the permission requests may be for different steps. -/
structure SameAction (a b : PreparedInvocationFacts) : Prop where
  normalizedArguments : a.normalizedArguments = b.normalizedArguments
  definitionDigest : a.definitionDigest = b.definitionDigest
  semanticActionDigest : a.semanticActionDigest = b.semanticActionDigest
  materialDigest : a.materialDigest = b.materialDigest

/-- How the facts of an invocation are derived. -/
structure Derives (D : Digests) (J : Schemas) (registry : CapabilityRegistry)
    (resolver : ResourceResolver) (runId stepId : String) (capability : CapabilityRef)
    (arguments : Json) (definition : CapabilityDefinitionBody) (facts : PreparedInvocationFacts) :
    Prop where
  registered : registry.definition capability = some definition
  effectClass : ∃ effectClass, mapEffectClass definition.spec.effect.class_ = .ok effectClass
  keySupported : ¬ (definition.spec.effect.class_ ≠ .readOnly ∧
    definition.spec.execution.idempotencyKeySupported = false)
  accepted : validateArguments D J definition arguments = .ok ()
  resolved : ∃ identity request, D.digest (.requestIdentity runId stepId capability arguments)
      AdmissionError.canonicalization = .ok identity ∧
    resolveInvocation resolver (contentId "permission" identity) runId stepId definition arguments
      .once = .ok request ∧
    request.normalizedArguments = facts.normalizedArguments ∧
    request.permissionRequest = facts.permissionRequest
  normalized : validateArguments D J definition facts.normalizedArguments = .ok ()
  contract : definitionContractDigest D definition = .ok facts.definitionDigest
  semantic : semanticActionDigest D capability facts.definitionDigest definition.spec.effect.class_
    facts.normalizedArguments facts.permissionRequest = .ok facts.semanticActionDigest
  material : invocationMaterialDigest D facts.normalizedArguments = .ok facts.materialDigest

theorem prepareInvocationFacts_eq_ok {runId stepId : String} {capability : CapabilityRef}
    {arguments : Json} {facts : PreparedInvocationFacts} :
    prepareInvocationFacts D J runId stepId capability arguments registry resolver = .ok facts ↔
      ∃ definition,
        Derives D J registry resolver runId stepId capability arguments definition facts := by
  simp only [prepareInvocationFacts, Outcome.bind_eq_ok, Outcome.exists_unit, Outcome.mapErr_eq_ok,
    Outcome.okOr_eq_ok, Outcome.failIf_eq_ok, Outcome.pure_eq_ok, digestSerializable]
  constructor
  · rintro ⟨definition, hdefinition, effectClass, hclass, hkey, harguments, identity, hidentity,
      request, hrequest, hnormalized, definitionDigest, hcontract, semantic, hsemantic, material,
      hmaterial, rfl⟩
    exact ⟨definition, hdefinition, ⟨effectClass, hclass⟩, hkey, harguments,
      ⟨identity, request, hidentity, hrequest, rfl, rfl⟩, hnormalized, hcontract, hsemantic,
      hmaterial⟩
  · rintro ⟨definition, h⟩
    obtain ⟨effectClass, hclass⟩ := h.effectClass
    obtain ⟨identity, request, hidentity, hrequest, harguments, hpermission⟩ := h.resolved
    have hsemantic := h.semantic
    have hnormalized := h.normalized
    have hmaterial := h.material
    rw [← harguments] at hnormalized hmaterial
    rw [← harguments, ← hpermission] at hsemantic
    refine ⟨definition, h.registered, effectClass, hclass, h.keySupported, h.accepted, identity,
      hidentity, request, hrequest, hnormalized, _, h.contract, _, hsemantic, _, hmaterial, ?_⟩
    rw [harguments, hpermission]

/-! ## The plan -/

variable {state : RunState} {context : PlanningContext}

/-- What a validated step carries of the first derivation. -/
structure Validates (D : Digests) (J : Schemas) (registry : CapabilityRegistry)
    (resolver : ResourceResolver) (runId : String) (proposed : ProposedPlanStep)
    (step : ValidatedPlanStep) (definition : CapabilityDefinitionBody)
    (facts : PreparedInvocationFacts) : Prop where
  key : step.key = proposed.key
  dependsOn : step.dependsOn = proposed.dependsOn
  capability : step.capability = proposed.capability
  derived : ∃ stepId, Derives D J registry resolver runId stepId proposed.capability
    proposed.arguments definition facts
  normalizedArguments : step.normalizedArguments = facts.normalizedArguments
  definitionDigest : step.definitionDigest = facts.definitionDigest
  semanticActionDigest : step.semanticActionDigest = facts.semanticActionDigest
  materialDigest : step.materialDigest = facts.materialDigest
  effectClass : step.effectClass = definition.spec.effect.class_

theorem validatePlanStep_eq_ok {acc acc' : BTreeSet String × List ValidatedPlanStep}
    {proposed : ProposedPlanStep}
    (h : validatePlanStep D J state context registry resolver acc proposed = .ok acc') :
    ∃ step, acc'.2 = acc.2 ++ [step] ∧
      ∃ definition facts, Validates D J registry resolver state.runId proposed step definition
        facts := by
  simp only [validatePlanStep, Outcome.bind_eq_ok, Outcome.exists_unit, Outcome.failIf_eq_ok,
    Outcome.okOr_eq_ok, Outcome.mapErr_eq_ok, Outcome.pure_eq_ok] at h
  obtain ⟨-, definition, hdefinition, -, preflightId, -, facts, hfacts, digests, -, rfl⟩ := h
  obtain ⟨definition', hderives⟩ := prepareInvocationFacts_eq_ok.mp hfacts
  obtain rfl := Option.some.inj (hdefinition.symm.trans hderives.registered)
  exact ⟨_, rfl, definition, facts,
    { key := rfl
      dependsOn := rfl
      capability := rfl
      derived := ⟨preflightId, hderives⟩
      normalizedArguments := rfl
      definitionDigest := rfl
      semanticActionDigest := rfl
      materialDigest := rfl
      effectClass := rfl }⟩

theorem validates_of_foldl {proposals : List ProposedPlanStep} {digests : BTreeSet String}
    {validated : List ValidatedPlanStep}
    (h : Outcome.foldl (validatePlanStep D J state context registry resolver) (∅, []) proposals =
      .ok (digests, validated)) :
    List.Forall₂ (fun proposed step => ∃ definition facts,
      Validates D J registry resolver state.runId proposed step definition facts)
        proposals validated := by
  refine Outcome.foldl_induction (I := fun seen acc => List.Forall₂ (fun proposed step =>
    ∃ definition facts, Validates D J registry resolver state.runId proposed step definition facts)
      seen acc.2) .nil ?_ h
  intro seen acc proposed acc' _ hseen hstep
  obtain ⟨step, hacc, hvalidates⟩ := validatePlanStep_eq_ok hstep
  rw [hacc]
  exact List.rel_append hseen (.cons hvalidates .nil)

/-! ## The second derivation -/

/-- What a prepared step carries: the facts of the proposed arguments, and those of the normalized
arguments under the final id of the step, which the plan has compared. -/
structure StepFrom (D : Digests) (J : Schemas) (registry : CapabilityRegistry)
    (resolver : ResourceResolver) (runId : String) (capability : CapabilityRef) (arguments : Json)
    (step : PreparedPlanStep) (definition : CapabilityDefinitionBody)
    (facts : PreparedInvocationFacts) : Prop where
  planned : step.capability = capability
  proposed : ∃ stepId first, Derives D J registry resolver runId stepId capability arguments
    definition first ∧ SameAction facts first
  derived : Derives D J registry resolver runId step.stepId step.capability step.normalizedArguments
    definition facts
  normalizedArguments : facts.normalizedArguments = step.normalizedArguments
  definitionDigest : facts.definitionDigest = step.definitionDigest
  materialDigest : facts.materialDigest = step.materialDigest
  actionDigest : plannedActionOccurrenceDigest D runId step.stepId facts.semanticActionDigest =
    .ok step.actionDigest
  effectClass : step.effectClass = definition.spec.effect.class_

theorem finalInvocationFacts_eq_ok {stepId : String} {step : ValidatedPlanStep}
    {facts : PreparedInvocationFacts}
    (h : finalInvocationFacts D J state registry resolver stepId step = .ok facts) :
    prepareInvocationFacts D J state.runId stepId step.capability step.normalizedArguments registry
      resolver = .ok facts := by
  rw [finalInvocationFacts] at h
  split at h
  · rename_i found hfound
    rw [hfound, Outcome.pure_eq_ok.mp h]
  · exact absurd h Outcome.abort_eq_ok
  · obtain ⟨_, -, h⟩ := Outcome.bind_eq_ok.mp h
    exact absurd h Outcome.fail_eq_ok

theorem preparePlanStep_eq_ok {ids : BTreeMap String String} {proposed : ProposedPlanStep}
    {step : ValidatedPlanStep} {definition : CapabilityDefinitionBody}
    {first : PreparedInvocationFacts} {prepared : PreparedPlanStep}
    (hv : Validates D J registry resolver state.runId proposed step definition first)
    (h : preparePlanStep D J state registry resolver ids step = .ok prepared) :
    ∃ facts, StepFrom D J registry resolver state.runId proposed.capability proposed.arguments
      prepared definition facts := by
  simp only [preparePlanStep, Outcome.bind_eq_ok, Outcome.exists_unit, Outcome.expect_eq_ok,
    Outcome.failIf_eq_ok, Outcome.mapErr_eq_ok, Outcome.pure_eq_ok, not_or, ne_eq, not_not] at h
  obtain ⟨stepId, -, facts, hfacts, ⟨harguments, hdefinition, hsemantic, hmaterial⟩, actionDigest,
    haction, dependsOn, -, rfl⟩ := h
  obtain ⟨preflightId, hfirst⟩ := hv.derived
  obtain ⟨found, hderives⟩ := prepareInvocationFacts_eq_ok.mp (finalInvocationFacts_eq_ok hfacts)
  have hregistered := hderives.registered
  rw [hv.capability, hfirst.registered] at hregistered
  obtain rfl := Option.some.inj hregistered
  rw [← harguments] at hderives
  exact ⟨facts,
    { planned := hv.capability
      proposed := ⟨preflightId, first, hfirst,
        { normalizedArguments := harguments.trans hv.normalizedArguments
          definitionDigest := hdefinition.trans hv.definitionDigest
          semanticActionDigest := hsemantic.trans hv.semanticActionDigest
          materialDigest := hmaterial.trans hv.materialDigest }⟩
      derived := hderives
      normalizedArguments := rfl
      definitionDigest := rfl
      materialDigest := rfl
      actionDigest := haction
      effectClass := hv.effectClass }⟩

/-! ## Plans -/

theorem mem_normalizeProposal {steps : List ProposedPlanStep} {proposed : ProposedPlanStep} :
    proposed ∈ normalizeProposal steps ↔ ∃ step ∈ steps, step.normalized = proposed := by
  rw [normalizeProposal, List.mem_map]
  exact exists_congr fun step => and_congr_left fun _ => List.mem_insertionSort _

/-- **Every step of a plan carries the facts of a proposed step**, checked once more. -/
theorem stepFrom_of_preparePlan {frontier : WorkFrontier} {budget : AgentLoopBudget}
    {steps : List ProposedPlanStep} {plan : PreparedPlan}
    (h : preparePlan D J state context registry resolver frontier budget steps = .ok plan)
    {step : PreparedPlanStep} (hstep : step ∈ plan.steps) :
    ∃ proposed ∈ steps, ∃ definition facts, StepFrom D J registry resolver state.runId
      proposed.capability proposed.arguments step definition facts := by
  simp only [preparePlan, Outcome.bind_eq_ok, Outcome.exists_unit, Outcome.mapErr_eq_ok,
    Outcome.pure_eq_ok] at h
  obtain ⟨-, -, ⟨digests, validated⟩, hvalidated, proposalDigest, -, ids, -, prepared, hprepared,
    rfl⟩ := h
  have hvalidates := validates_of_foldl hvalidated
  suffices hall : ∀ step ∈ prepared, ∃ done ∈ validated,
      preparePlanStep D J state registry resolver ids done = .ok step by
    obtain ⟨done, hdone, hprepare⟩ := hall step hstep
    obtain ⟨proposed, hproposed, definition, first, hv⟩ := Outcome.exists_left_of_mem hvalidates hdone
    obtain ⟨original, horiginal, rfl⟩ := mem_normalizeProposal.mp hproposed
    obtain ⟨facts, hfrom⟩ := preparePlanStep_eq_ok hv hprepare
    exact ⟨original, horiginal, definition, facts, hfrom⟩
  refine Outcome.foldl_induction (I := fun seen prepared => ∀ step ∈ prepared, ∃ done ∈ seen,
    preparePlanStep D J state registry resolver ids done = .ok step)
    (fun step hstep => absurd hstep List.not_mem_nil) ?_ hprepared
  intro seen acc done acc' _ hseen hdone
  simp only [Outcome.bind_eq_ok, Outcome.pure_eq_ok] at hdone
  obtain ⟨preparedStep, hprepare, rfl⟩ := hdone
  intro step hstep
  rcases List.mem_append.mp hstep with hold | hnew
  · obtain ⟨old, hmem, hold⟩ := hseen step hold
    exact ⟨old, List.mem_append_left _ hmem, hold⟩
  · obtain rfl := List.mem_singleton.mp hnew
    exact ⟨done, List.mem_append_right _ (List.mem_singleton.mpr rfl), hprepare⟩

end

/-! ## Bindings -/

section

variable {D : Digests} {J : Schemas} {registry : CapabilityRegistry} {resolver : ResourceResolver}
  {runId : String} {capability : CapabilityRef} {arguments : Json} {step : PreparedPlanStep}
  {definition : CapabilityDefinitionBody} {facts : PreparedInvocationFacts} {host : Host}
  {binding : PlannedInvocationBinding} {record : PlannedInvocationMaterialRecord}
  {state : RunState} {route : RouteRequest} {pending : PendingInvocation}

/-- The binding and the recipe that `materialize_plan` makes of a prepared step. -/
def Materializes (D : Digests) (host : Host) (runId : String) (step : PreparedPlanStep)
    (binding : PlannedInvocationBinding) (record : PlannedInvocationMaterialRecord) : Prop :=
  ∃ spec proposalDigest reference, plannedInvocationSpec host step = .ok spec ∧
    PlannedInvocationMaterialRecord.bind D runId step.stepId proposalDigest spec reference =
      .ok (binding, record)

/-- The fields of a binding that come from the step. -/
structure BindsStep (host : Host) (step : PreparedPlanStep) (binding : PlannedInvocationBinding) :
    Prop where
  capability : binding.capability = step.capability
  definitionDigest : binding.definitionDigest = step.definitionDigest
  actionDigest : binding.actionDigest = step.actionDigest
  planInputDigest : binding.planInputDigest = step.materialDigest
  profile : plannedExecutionProfile step.effectClass = .ok binding.executionProfile
  targetOs : binding.targetOs = host.os
  targetArch : binding.targetArch = host.arch

theorem Materializes.bindsStep (h : Materializes D host runId step binding record) :
    BindsStep host step binding ∧ record.verifyFor D runId step.stepId binding = .ok () := by
  obtain ⟨spec, proposalDigest, reference, hspec, hbind⟩ := h
  simp only [plannedInvocationSpec, PlannedInvocationSpec.new, Outcome.bind_eq_ok,
    Outcome.exists_unit, Outcome.mapErr_eq_ok, Outcome.pure_eq_ok] at hspec
  obtain ⟨profile, hprofile, -, rfl⟩ := hspec
  simp only [PlannedInvocationMaterialRecord.bind, Outcome.bind_eq_ok, Outcome.exists_unit,
    Outcome.pure_eq_ok, Prod.mk.injEq] at hbind
  obtain ⟨-, -, -, -, -, specDigest, -, planId, -, recordDigest, -, hverify, rfl, rfl⟩ := hbind
  exact ⟨⟨rfl, rfl, rfl, rfl, hprofile, rfl, rfl⟩, hverify⟩

/-- A state of the run holds the binding of a step. -/
structure HoldsBinding (state : RunState) (runId stepId : String)
    (binding : PlannedInvocationBinding) : Prop where
  run : state.runId = runId
  bound : ∃ step, state.steps[stepId]? = some step ∧ step.plannedInvocation = some binding

theorem plannedExecutionProfile_eq_ok {effectClass : ProtocolEffectClass}
    {profile : PlannedExecutionProfile} (h : plannedExecutionProfile effectClass = .ok profile) :
    effectClass = .readOnly ∧ profile = .localSyncReadOnlyOccurrenceV1 ∨
      (effectClass = .idempotent ∨ effectClass = .nonIdempotent) ∧
        profile = .localSyncOnceOccurrenceV1 := by
  cases effectClass with
  | readOnly => exact Or.inl ⟨rfl, (Outcome.pure_eq_ok.mp h).symm⟩
  | idempotent => exact Or.inr ⟨Or.inl rfl, (Outcome.pure_eq_ok.mp h).symm⟩
  | nonIdempotent => exact Or.inr ⟨Or.inr rfl, (Outcome.pure_eq_ok.mp h).symm⟩
  | compensatable => exact absurd h Outcome.fail_eq_ok
  | unknown => exact absurd h Outcome.fail_eq_ok

theorem BindsStep.plannedActionDigest (h : BindsStep host step binding)
    (hholds : HoldsBinding state runId step.stepId binding) (semantic : String) :
    plannedActionDigest D state step.stepId semantic =
      plannedActionOccurrenceDigest D runId step.stepId semantic := by
  obtain ⟨bound, hbound, hplanned⟩ := hholds.bound
  rw [Xgeny.plannedActionDigest, hbound, ← hholds.run]
  rcases plannedExecutionProfile_eq_ok h.profile with ⟨-, hprofile⟩ | ⟨-, hprofile⟩
  · simp [Outcome.okOr, hplanned, hprofile, bind, Except.bind]
  · simp [Outcome.okOr, hplanned, hprofile, bind, Except.bind]

/-! ## Admission -/

theorem StepFrom.registered
    (h : StepFrom D J registry resolver runId capability arguments step definition facts) :
    registry.definition step.capability = some definition :=
  h.derived.registered

theorem StepFrom.contract
    (h : StepFrom D J registry resolver runId capability arguments step definition facts) :
    definitionContractDigest D definition = .ok step.definitionDigest := by
  rw [← h.definitionDigest]
  exact h.derived.contract

theorem StepFrom.definitionBinding
    (h : StepFrom D J registry resolver runId capability arguments step definition facts)
    (hb : BindsStep host step binding) (hholds : HoldsBinding state runId step.stepId binding) :
    verifyPlannedDefinitionBinding D state step.stepId registry = .ok () := by
  obtain ⟨bound, hbound, hplanned⟩ := hholds.bound
  simp only [verifyPlannedDefinitionBinding, Outcome.bind_eq_ok, Outcome.exists_unit,
    Outcome.okOr_eq_ok, Outcome.whenSome_eq_ok, Outcome.failIf_eq_ok]
  refine ⟨bound, hbound, fun planned hsome => ?_⟩
  obtain rfl := Option.some.inj (hplanned.symm.trans hsome)
  refine ⟨definition, ?_, step.definitionDigest, h.contract, ?_, ?_⟩
  · rw [hb.capability]
    exact h.registered
  · exact not_not_intro hb.definitionDigest.symm
  · rw [← h.effectClass]
    rcases plannedExecutionProfile_eq_ok hb.profile with ⟨hclass, hprofile⟩ | ⟨hclass, hprofile⟩
    · simp [hclass, hprofile, PlannedExecutionProfile.admitsEffectClass]
    · rcases hclass with hclass | hclass <;>
        simp [hclass, hprofile, PlannedExecutionProfile.admitsEffectClass]

/-- A route asks for the capability of a step, on the platform that it was planned for. -/
structure RoutesStep (host : Host) (step : PreparedPlanStep) (route : RouteRequest) : Prop where
  capability : route.capability = step.capability
  style : route.requiredFeatures.executionStyle = .sync
  idempotencyKey : route.requiredFeatures.idempotencyKey = (step.effectClass != .readOnly)
  os : route.targetPlatform.os.name = host.os
  arch : route.targetPlatform.arch.name = host.arch

theorem BindsStep.routeBinding (hb : BindsStep host step binding)
    (hholds : HoldsBinding state runId step.stepId binding) (hroute : RoutesStep host step route) :
    verifyPlannedRouteBinding state step.stepId route = .ok () := by
  obtain ⟨bound, hbound, hplanned⟩ := hholds.bound
  have hcapability : binding.capability = route.capability := hb.capability.trans hroute.capability.symm
  have hfeatures : binding.executionProfile.idempotencyFeatureMatches route.requiredFeatures = true := by
    rcases plannedExecutionProfile_eq_ok hb.profile with ⟨hclass, hprofile⟩ | ⟨hclass, hprofile⟩
    · simp [hprofile, PlannedExecutionProfile.idempotencyFeatureMatches, hroute.idempotencyKey, hclass]
    · rcases hclass with hclass | hclass <;>
        simp [hprofile, PlannedExecutionProfile.idempotencyFeatureMatches, hroute.idempotencyKey,
          hclass]
  simp only [verifyPlannedRouteBinding, Outcome.bind_eq_ok, Outcome.exists_unit,
    Outcome.okOr_eq_ok, Outcome.failIf_eq_ok]
  refine ⟨not_not_intro hroute.style, bound, hbound, ?_⟩
  rw [hplanned]
  simp [requireMatches, hfeatures, ← hcapability, PlannedInvocationBinding.capability, hb.targetOs,
    hb.targetArch, hroute.os, hroute.arch]

/-- The pending invocation of a planned step: its request, with the resources, is that of the facts
that the plan has checked. -/
structure PendingOf (step : PreparedPlanStep) (facts : PreparedInvocationFacts)
    (binding : PlannedInvocationBinding) (record : PlannedInvocationMaterialRecord)
    (route : RouteRequest) (pending : PendingInvocation) : Prop where
  routed : pending.route = route
  stepId : pending.permissionRequest.stepId = step.stepId
  permissionRequest : pending.permissionRequest = facts.permissionRequest
  normalizedArguments : pending.normalizedArguments = step.normalizedArguments
  definitionDigest : pending.definitionDigest = step.definitionDigest
  actionDigest : pending.actionDigest = step.actionDigest
  materialDigest : pending.materialDigest = step.materialDigest
  planId : pending.planId = some binding.planId
  retention : pending.materialRetention = .reconstructableReference record.reference

theorem resolveInvocation_stepId {requestId stepId : String} {requestedLifetime : GrantLifetime}
    {result : ResolvedInvocationRequest}
    (h : resolveInvocation resolver requestId runId stepId definition arguments requestedLifetime =
      .ok result) : result.permissionRequest.stepId = stepId := by
  simp only [resolveInvocation, Outcome.bind_eq_ok, Outcome.exists_unit, Outcome.pure_eq_ok] at h
  obtain ⟨-, derived, -, actions, -, rfl⟩ := h
  rfl

/-- **The first phase of admission** prepares the planned action. -/
theorem StepFrom.preparePending
    (h : StepFrom D J registry resolver runId capability arguments step definition facts)
    (record : PlannedInvocationMaterialRecord) (hb : BindsStep host step binding)
    (hholds : HoldsBinding state runId step.stepId binding) (hroute : RoutesStep host step route) :
    ∃ pending, InvocationAdmission.preparePending D J state (some record) registry resolver
        ⟨step.stepId, route, step.normalizedArguments⟩ = .ok pending ∧
      PendingOf step facts binding record route pending := by
  obtain ⟨identity, request, -, hrequest, -, hpermission⟩ := h.derived.resolved
  have hfacts := prepareInvocationFacts_eq_ok.mpr ⟨definition, h.derived⟩
  rw [← hholds.run, ← hroute.capability] at hfacts
  have haction : plannedActionDigest D state step.stepId facts.semanticActionDigest =
      .ok step.actionDigest := by
    rw [hb.plannedActionDigest hholds]
    exact h.actionDigest
  have hdigests : verifyPlannedDigests step.stepId binding facts.definitionDigest step.actionDigest
      facts.materialDigest = .ok () := by
    simp [verifyPlannedDigests, requireMatches, h.definitionDigest, h.materialDigest,
      hb.definitionDigest, hb.actionDigest, hb.planInputDigest]
  obtain ⟨bound, hbound, hplanned⟩ := hholds.bound
  refine ⟨{ runBinding := .fromState state
            route := route
            normalizedArguments := facts.normalizedArguments
            permissionRequest := facts.permissionRequest
            definitionDigest := facts.definitionDigest
            actionDigest := step.actionDigest
            materialDigest := facts.materialDigest
            materialRetention := .reconstructableReference record.reference
            planId := some binding.planId }, ?_, ?_⟩
  · simp only [InvocationAdmission.preparePending, verifyPlannedAdmissionBinding, Outcome.bind_eq_ok,
      Outcome.exists_unit, Outcome.okOr_eq_ok, Outcome.pure_eq_ok]
    refine ⟨facts, hfacts, step.actionDigest, haction, some binding.planId,
      ⟨hb.routeBinding hholds hroute, bound, hbound, ?_⟩, _, rfl, rfl⟩
    rw [hplanned]
    simp only [Outcome.bind_eq_ok, Outcome.exists_unit, Outcome.pure_eq_ok]
    exact ⟨hdigests, trivial⟩
  · exact
      { routed := rfl
        stepId := hpermission ▸ resolveInvocation_stepId hrequest
        permissionRequest := rfl
        normalizedArguments := h.normalizedArguments
        definitionDigest := h.definitionDigest
        actionDigest := rfl
        materialDigest := h.materialDigest
        planId := rfl
        retention := rfl }

theorem StepFrom.currentDefinition
    (h : StepFrom D J registry resolver runId capability arguments step definition facts)
    (hholds : HoldsBinding state runId step.stepId binding) (hroute : RoutesStep host step route)
    (hpending : PendingOf step facts binding record route pending) :
    InvocationAdmission.currentDefinition D pending state (some record) registry = .ok definition := by
  obtain ⟨bound, hbound, hplanned⟩ := hholds.bound
  simp only [InvocationAdmission.currentDefinition, verifyPendingPlannedMaterial, Outcome.bind_eq_ok,
    Outcome.exists_unit, Outcome.okOr_eq_ok, Outcome.failIf_eq_ok, Outcome.pure_eq_ok]
  refine ⟨⟨bound, ?_, ?_⟩, definition, ?_, step.definitionDigest, h.contract, ?_, rfl⟩
  · rw [hpending.stepId]
    exact hbound
  · rw [hplanned]
    simp only [Outcome.bind_eq_ok, Outcome.exists_unit, Outcome.okOr_eq_ok, Outcome.failIf_eq_ok]
    exact ⟨not_not_intro hpending.planId, record, rfl, not_not_intro hpending.retention⟩
  · rw [hpending.routed, hroute.capability]
    exact h.registered
  · exact not_not_intro hpending.definitionDigest.symm

/-! ## Recovery -/

theorem issueOnceEffect_planned {H : Host} {instance_ : CapabilityInstanceBody}
    {selectedInstanceId decidedAt : String} {evaluation : BoundPolicyEvaluation}
    {issued : IssuedEffect}
    (h : issueOnceEffect D J H pending state definition instance_ selectedInstanceId evaluation
      decidedAt = .ok issued) : issued.intent.actionDigest = pending.actionDigest ∧
        issued.materialRecord.retention = pending.materialRetention := by
  simp only [issueOnceEffect, Outcome.bind_eq_ok, Outcome.mapErr_eq_ok, Outcome.pure_eq_ok] at h
  obtain ⟨⟨authorization, sources⟩, -, identity, -, evidence, -, ⟨decisionId, decisionDigest⟩, -,
    provenanceDigest, -, bindingDigest, -, retention, -, grant, -, effectClass, -, grantId, -, record,
    hrecord, rfl⟩ := h
  simp only [InvocationMaterialRecord.new, Outcome.bind_eq_ok, Outcome.exists_unit,
    Outcome.pure_eq_ok] at hrecord
  obtain ⟨-, _, -, _, -, -, rfl⟩ := hrecord
  exact ⟨rfl, rfl⟩

theorem InvocationMaterialRecord.verifyFor_actionDigest {self : InvocationMaterialRecord}
    {stepId : String} {intent : EffectIntent} (h : self.verifyFor D runId stepId intent = .ok ()) :
    self.actionDigest = intent.actionDigest := by
  simp only [InvocationMaterialRecord.verifyFor, Outcome.bind_eq_ok, Outcome.exists_unit,
    Outcome.failIf_eq_ok, ne_eq, Decidable.not_not] at h
  exact h.2.2.2.2.2.1

theorem resolveInvocation_renamed {requestId stepId : String} {requestedLifetime : GrantLifetime}
    {result : ResolvedInvocationRequest} (name : String) (hname : name ≠ "")
    (h : resolveInvocation resolver requestId runId stepId definition arguments requestedLifetime =
      .ok result) :
    resolveInvocation resolver name runId stepId definition arguments requestedLifetime =
      .ok { result with permissionRequest := { result.permissionRequest with requestId := name } } := by
  simp only [resolveInvocation, Outcome.bind_eq_ok, Outcome.exists_unit, Outcome.pure_eq_ok] at h ⊢
  obtain ⟨hshape, derived, hderived, actions, hactions, rfl⟩ := h
  refine ⟨?_, derived, hderived, actions, hactions, rfl⟩
  simp only [validateDerivedRequestShape, Outcome.bind_eq_ok, Outcome.exists_unit,
    Outcome.failIf_eq_ok, not_or] at hshape ⊢
  obtain ⟨hversion, hextensions, ⟨-, hids⟩, hselectors⟩ := hshape
  exact ⟨hversion, hextensions, ⟨hname, hids⟩, hselectors⟩

/-- The checks of a recovery pass and give the planned arguments. -/
structure Recovers (D : Digests) (J : Schemas) (registry : CapabilityRegistry)
    (resolver : ResourceResolver) (later : RunState) (step : PreparedPlanStep)
    (definition : CapabilityDefinitionBody) (reference : ReconstructableMaterialReference)
    (issued : IssuedEffect) : Prop where
  record : issued.materialRecord.verifyFor D later.runId step.stepId issued.intent = .ok ()
  reference : InvocationMaterialRecovery.retainedReference issued.materialRecord = .ok reference
  committed : InvocationMaterialRecovery.committedDefinition D registry issued.intent =
    .ok definition
  material : InvocationMaterialRecovery.verifyReconstructed D J resolver later step.stepId
    issued.intent issued.materialRecord definition step.normalizedArguments =
      .ok ⟨issued.materialRecord, step.normalizedArguments⟩

/-- **The recovered material** passes its checks, and is the planned one. -/
theorem StepFrom.recovers
    (h : StepFrom D J registry resolver runId capability arguments step definition facts)
    (hb : BindsStep host step binding) (hroute : RoutesStep host step route)
    (hpending : PendingOf step facts binding record route pending)
    (hcurrent : HoldsBinding state runId step.stepId binding) {H : Host}
    {instance_ : CapabilityInstanceBody} {selectedInstanceId decidedAt : String}
    {evaluation : BoundPolicyEvaluation} {issued : IssuedEffect}
    (hinstance : registry.instance? selectedInstanceId = some instance_)
    (hdefines : instance_.definition = step.capability)
    (hissued : issueOnceEffect D J H pending state definition instance_ selectedInstanceId evaluation
      decidedAt = .ok issued) {later : RunState}
    (hholds : HoldsBinding later runId step.stepId binding) :
    Recovers D J registry resolver later step definition record.reference issued := by
  have hissues := issueOnceEffect_eq_ok hissued
  obtain ⟨haction, hretention⟩ := issueOnceEffect_planned hissued
  have hcapability : issued.intent.invocation.capability = step.capability := by
    rw [hissues.capability, hpending.routed, hroute.capability]
  have hdefinition : issued.intent.invocation.definitionDigest = step.definitionDigest :=
    hissues.definitionDigest.trans hpending.definitionDigest
  have hverify := hissues.material
  rw [hcurrent.run, hpending.stepId] at hverify
  refine ⟨hholds.run.symm ▸ hverify, ?_, ?_, ?_⟩
  · rw [InvocationMaterialRecovery.retainedReference, hretention, hpending.retention]
    rfl
  · simp only [InvocationMaterialRecovery.committedDefinition, Outcome.bind_eq_ok,
      Outcome.exists_unit, Outcome.okOr_eq_ok, Outcome.mapErr_eq_ok, Outcome.failIf_eq_ok,
      Outcome.pure_eq_ok, hcapability, hissues.instanceId]
    exact ⟨definition, h.registered, _, h.contract, not_not_intro hdefinition.symm, instance_,
      hinstance, not_not_intro hdefines, _, hissues.bindingDigest, not_not_intro rfl, rfl⟩
  · obtain ⟨identity, request, -, hrequest, harguments, hpermission⟩ := h.derived.resolved
    have hrecovered := resolveInvocation_renamed
      ("material-recovery-" ++ issued.materialRecord.materialId) (by simp) hrequest
    have hdigest : facts.materialDigest = issued.materialRecord.materialDigest := by
      rw [hissues.materialDigest, hpending.materialDigest, h.materialDigest]
    have hintent : issued.intent.actionDigest = step.actionDigest :=
      haction.trans hpending.actionDigest
    have hrecord : issued.materialRecord.actionDigest = step.actionDigest :=
      (InvocationMaterialRecord.verifyFor_actionDigest hverify).trans hintent
    have hplanned : plannedActionDigest D later step.stepId facts.semanticActionDigest =
        .ok step.actionDigest := by
      rw [hb.plannedActionDigest hholds]
      exact h.actionDigest
    have hsemantic := h.derived.semantic
    rw [h.definitionDigest, ← hpermission] at hsemantic
    simp only [InvocationMaterialRecovery.verifyReconstructed, Outcome.bind_eq_ok,
      Outcome.exists_unit, Outcome.mapErr_eq_ok, Outcome.failIf_eq_ok, Outcome.pure_eq_ok, hholds.run,
      hcapability, hdefinition]
    refine ⟨h.derived.accepted, _, hrecovered, ?_, facts.materialDigest, ?_, not_not_intro hdigest,
      facts.semanticActionDigest, ?_, step.actionDigest, hplanned, ?_, ?_⟩
    · rw [harguments]
      exact h.derived.normalized
    · rw [harguments]
      exact h.derived.material
    · rw [harguments]
      exact hsemantic
    · rw [hintent, hrecord]
      simp
    · rw [harguments, h.normalizedArguments]

end

/-! ## Planning, admission and recovery -/

section

variable {D : Digests} {J : Schemas} {registry : CapabilityRegistry} {resolver : ResourceResolver}
  {state : RunState} {context : PlanningContext} {frontier : WorkFrontier} {budget : AgentLoopBudget}

/-- **Planning, admission and recovery derive the same action.** Every step of a plan carries the
facts of a proposed step, checked again under its final id. While a state holds the binding of the
step, its admission for the planned material passes every check on the planned invocation and asks
for the resources of these facts; and whatever effect is issued for it, for a registered instance of
its capability, is recovered with the planned material. -/
theorem planned_action_agrees {proposals : List ProposedPlanStep} {plan : PreparedPlan}
    (hplan : preparePlan D J state context registry resolver frontier budget proposals = .ok plan)
    {step : PreparedPlanStep} (hstep : step ∈ plan.steps) :
    ∃ proposed ∈ proposals, ∃ definition facts,
      StepFrom D J registry resolver state.runId proposed.capability proposed.arguments step
        definition facts ∧
      ∀ host binding record route now, Materializes D host state.runId step binding record →
        RoutesStep host step route → HoldsBinding now state.runId step.stepId binding →
        verifyPlannedDefinitionBinding D now step.stepId registry = .ok () ∧
        record.verifyFor D now.runId step.stepId binding = .ok () ∧
        ∃ pending, InvocationAdmission.preparePending D J now (some record) registry resolver
            ⟨step.stepId, route, step.normalizedArguments⟩ = .ok pending ∧
          PendingOf step facts binding record route pending ∧
          ∀ current, HoldsBinding current state.runId step.stepId binding →
            InvocationAdmission.currentDefinition D pending current (some record) registry =
              .ok definition ∧
            ∀ H instance_ selectedInstanceId evaluation decidedAt issued,
              registry.instance? selectedInstanceId = some instance_ →
              instance_.definition = step.capability →
              issueOnceEffect D J H pending current definition instance_ selectedInstanceId
                evaluation decidedAt = .ok issued →
              ∀ later, HoldsBinding later state.runId step.stepId binding →
                Recovers D J registry resolver later step definition record.reference issued := by
  obtain ⟨proposed, hproposed, definition, facts, hfrom⟩ := stepFrom_of_preparePlan hplan hstep
  refine ⟨proposed, hproposed, definition, facts, hfrom, ?_⟩
  intro host binding record route now hmaterializes hroute hnow
  obtain ⟨hbinds, hverify⟩ := hmaterializes.bindsStep
  obtain ⟨pending, hprepare, hpending⟩ := hfrom.preparePending record hbinds hnow hroute
  refine ⟨hfrom.definitionBinding hbinds hnow, hnow.run.symm ▸ hverify, pending, hprepare, hpending,
    fun current hcurrent => ⟨hfrom.currentDefinition hcurrent hroute hpending, ?_⟩⟩
  intro H instance_ selectedInstanceId evaluation decidedAt issued hinstance hdefines hissued later
    hlater
  exact hfrom.recovers hbinds hroute hpending hcurrent hinstance hdefines hissued hlater

end

/-! ## One plan -/

def linuxHost : Host := ⟨"linux", "x86_64"⟩

/-- A route for reading a file on Linux. -/
def readRoute : RouteRequest where
  capability := readCapability
  targetPlatform := ⟨.linux, .x86_64⟩
  requiredFeatures := ⟨.sync, false, false, false⟩
  allowedTrustLevels := []
  allowedDataBoundaries := []
  trustPreference := []
  dataBoundaryPreference := []
  preferredInstanceIds := []
  pinnedInstanceId := none

/-- A local instance that reads files. -/
def readInstance : CapabilityInstanceBody :=
  { gateInstance .available with definition := readCapability }

/-- The registry of the plan, with the instance installed. -/
def readInstalled : CapabilityRegistry where
  definitions := readRegistry.definitions
  instances := (∅ : BTreeMap String CapabilityInstanceBody).insert "read-1" readInstance

/-- The state of the sample run with one bound step. -/
def boundSample (step : PreparedPlanStep) (binding : PlannedInvocationBinding) : RunState :=
  { planSample with
    steps := (∅ : BTreeMap String StepState).insert step.stepId
      (.fresh step.stepId step.objective [] (some binding)) }

/-- The plan of one step. -/
def readPlan : Outcome ProposalRejection PreparedPlan :=
  preparePlan samplePlanDigests sampleSchemas planSample planSampleContext readInstalled
    (fun _ resource => .ok resource) planSampleFrontier ⟨1, 8, 8, 4096⟩ [readStep "a" []]

/-- The first phase of the admission of a bound step. -/
def readPending (step : PreparedPlanStep) (binding : PlannedInvocationBinding)
    (record : PlannedInvocationMaterialRecord) : Outcome AdmissionError PendingInvocation :=
  InvocationAdmission.preparePending samplePlanDigests sampleSchemas (boundSample step binding)
    (some record) readInstalled (fun _ resource => .ok resource)
    ⟨step.stepId, readRoute, step.normalizedArguments⟩

/-- The effect that is issued for it, with the consent of both policy layers. -/
def readIssued (step : PreparedPlanStep) (binding : PlannedInvocationBinding)
    (pending : PendingInvocation) : Outcome AdmissionError IssuedEffect := do
  let evaluation ← (evaluateBound pending.permissionRequest
    (gateInputs pending.permissionRequest)).mapErr .broker
  issueOnceEffect samplePlanDigests sampleSchemas linuxHost pending (boundSample step binding)
    readDefinition readInstance "read-1" evaluation "2026-01-01T00:00:00Z"

theorem planned_action_agrees_sample : ∃ plan step binding record pending issued,
    readPlan = .ok plan ∧ step ∈ plan.steps ∧
    Materializes samplePlanDigests linuxHost "run" step binding record ∧
    readPending step binding record = .ok pending ∧
    pending.permissionRequest.resources = [⟨"filesystem.read", "a"⟩] ∧
    pending.actionDigest = step.actionDigest ∧
    readIssued step binding pending = .ok issued ∧
    Recovers samplePlanDigests sampleSchemas readInstalled (fun _ resource => .ok resource)
      (boundSample step binding) step readDefinition record.reference issued := by
  have hprepared : readPlan.value?.any (fun plan =>
      plan.steps.any fun step => step.capability == readCapability && step.effectClass == .readOnly &&
        (plannedInvocationSpec linuxHost step).value?.any fun spec =>
          (PlannedInvocationMaterialRecord.bind samplePlanDigests "run" step.stepId
            plan.proposalDigest spec ⟨"recipes", "a", "1"⟩).value?.any fun bound =>
            (readPending step bound.1 bound.2).value?.any fun pending =>
              pending.permissionRequest.resources == [⟨"filesystem.read", "a"⟩] &&
                (readIssued step bound.1 pending).value?.isSome) = true := by
    decide +kernel
  obtain ⟨plan, hplan, hany⟩ := Outcome.exists_ok_of_any hprepared
  obtain ⟨step, hstep, hkind⟩ := List.any_eq_true.mp hany
  simp only [Bool.and_eq_true, beq_iff_eq] at hkind
  obtain ⟨⟨hcapability, hclass⟩, hbound⟩ := hkind
  obtain ⟨spec, hspec, hbind⟩ := Outcome.exists_ok_of_any hbound
  obtain ⟨⟨binding, record⟩, hbinding, hpend⟩ := Outcome.exists_ok_of_any hbind
  obtain ⟨pending, hpending, hasked⟩ := Outcome.exists_ok_of_any hpend
  simp only [Bool.and_eq_true, beq_iff_eq] at hasked
  obtain ⟨hresources, hissue⟩ := hasked
  obtain ⟨issued, hissued⟩ := Outcome.exists_ok_of_isSome hissue
  have hmaterializes : Materializes samplePlanDigests linuxHost "run" step binding record :=
    ⟨spec, _, _, hspec, hbinding⟩
  have hroute : RoutesStep linuxHost step readRoute :=
    ⟨hcapability.symm, rfl, by rw [hclass]; rfl, rfl, rfl⟩
  have hholds : HoldsBinding (boundSample step binding) "run" step.stepId binding :=
    ⟨rfl, _, Std.ExtTreeMap.getElem?_insert_self, rfl⟩
  obtain ⟨proposed, -, definition, facts, hfrom, hchecks⟩ := planned_action_agrees hplan hstep
  obtain ⟨-, -, found, hfound, hof, hafter⟩ :=
    hchecks linuxHost binding record readRoute _ hmaterializes hroute hholds
  obtain rfl : found = pending := Except.ok.inj (hfound.symm.trans hpending)
  obtain ⟨-, hrecovers⟩ := hafter _ hholds
  obtain ⟨evaluation, -, hissues⟩ := Outcome.bind_eq_ok.mp hissued
  have hdefinition : readInstalled.definition step.capability = some readDefinition := by
    rw [hcapability]
    exact Std.ExtTreeMap.getElem?_insert_self
  obtain rfl : definition = readDefinition :=
    Option.some.inj (hfrom.registered.symm.trans hdefinition)
  have hinstance : readInstalled.instance? "read-1" = some readInstance := by
    rw [CapabilityRegistry.instance?, readInstalled, BTreeMap.get_insert, if_pos rfl]
  exact ⟨plan, step, binding, record, found, issued, hplan, hstep, hmaterializes, hpending,
    hresources, hof.actionDigest, hissued,
    hrecovers _ _ _ _ _ _ hinstance hcapability.symm hissues _ hholds⟩

end Xgeny
