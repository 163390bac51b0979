import Xgeny.Frontier.Model
import Xgeny.Reducer.Effects

set_option autoImplicit false

/-!
# Committing an effect intent

`commitEffectIntent` is the gate between a planned step and an external effect. It checks the
semantics of the intent, the release of every dependency, the planned invocation the step may
carry, and the one-shot authorization, which it consumes.
-/

namespace Xgeny

/-- `validate_tool_output_profile`. -/
def validateToolOutputProfile (intent : EffectIntent) : Outcome TransitionError Unit :=
  Outcome.whenSome intent.toolOutputProfile fun profile =>
    Outcome.failIf (profile ≠ toolOutputProfileV1 ∨
      ¬ (intent.effectClass = .readOnly ∨ intent.effectClass = .idempotent ∨
        intent.effectClass = .nonIdempotent))
      (.unsupportedToolOutputProfile intent.effectId)

/-- The receipt provenance and its digest in the authorization come together and agree. -/
def checkReceiptProvenance (D : Digests) (intent : EffectIntent) : Outcome TransitionError Unit :=
  match intent.receiptProvenance, intent.authorization.binding.receiptProvenanceDigest with
  | some provenance, some expected => do
    let actual ← (receiptProvenanceDigest D provenance).mapErr .authorizationDigest
    Outcome.failIf (actual ≠ expected) (.receiptProvenanceDigestMismatch intent.effectId)
  | none, none => pure ()
  | _, _ => Outcome.fail (.receiptProvenanceBindingMismatch intent.effectId)

/-- One dependency of `first_unreleased_dependency`, which keeps the smallest blocker. -/
def unreleasedStep (state : RunState) (step : StepState) (first : Option DependencyBlocker)
    (dependencyId : String) : Outcome TransitionError (Option DependencyBlocker) := do
  let dependency ← Outcome.okOr state.steps[dependencyId]?
    (.unknownDependency step.stepId dependencyId)
  match dependencyReleaseBlockReason dependency with
  | none => pure first
  | some reason =>
    let candidate : DependencyBlocker := ⟨dependencyId, reason⟩
    pure (if first.all (fun current => decide (candidate.lt current)) then some candidate else first)

def firstUnreleasedDependency (state : RunState) (step : StepState) :
    Outcome TransitionError (Option DependencyBlocker) :=
  Outcome.foldl (unreleasedStep state step) none step.dependsOn

/-! ## Planned invocations -/

/-- An absent or empty idempotency key. -/
def EffectIntent.lacksIdempotencyKey (intent : EffectIntent) : Bool :=
  intent.idempotencyKey.all fun key => key == ""

/-- The effect class and the key that an execution profile asks for. -/
def validatePlannedProfile (stepId : String) (profile : PlannedExecutionProfile)
    (intent : EffectIntent) : Outcome TransitionError Unit :=
  match profile with
  | .localSyncOnceV1 | .localSyncOnceOccurrenceV1 => do
    Outcome.failIf (intent.effectClass = .readOnly)
      (.plannedInvocationMismatch stepId "effect_class")
    Outcome.failIf (intent.lacksIdempotencyKey = true)
      (.plannedInvocationMismatch stepId "idempotency_key")
  | .localSyncReadOnlyV1 | .localSyncReadOnlyOccurrenceV1 => do
    Outcome.failIf (intent.effectClass ≠ .readOnly)
      (.plannedInvocationMismatch stepId "effect_class")
    Outcome.failIf (intent.idempotencyKey.isSome = true)
      (.plannedInvocationMismatch stepId "idempotency_key")
    Outcome.failIf (intent.sinkGuarantee ≠ .none)
      (.plannedInvocationMismatch stepId "sink_guarantee")

def validatePlannedExecutionProfile (step : StepState) (planned : PlannedInvocationBinding)
    (intent : EffectIntent) (provenance : ReceiptProvenance) : Outcome TransitionError Unit := do
  validatePlannedProfile step.stepId planned.executionProfile intent
  Outcome.failIf (provenance.executorPlacement ≠ .localHost)
    (.plannedInvocationMismatch step.stepId "receipt_provenance.executor_placement")
  Outcome.failIf (provenance.executorPlatform ≠ planned.targetOs ++ "-" ++ planned.targetArch)
    (.plannedInvocationMismatch step.stepId "receipt_provenance.executor_platform")

def validatePlannedInvocationBinding (D : Digests) (step : StepState) (intent : EffectIntent) :
    Outcome TransitionError Unit :=
  Outcome.whenSome step.plannedInvocation fun planned => do
    (planned.validate D).mapErr .planningContract
    Outcome.forEach
      [("capability_id", planned.capabilityId == intent.invocation.capabilityId),
        ("contract_version", planned.contractVersion == intent.invocation.contractVersion),
        ("definition_digest", planned.definitionDigest == intent.invocation.definitionDigest),
        ("action_digest", planned.actionDigest == intent.actionDigest),
        ("plan_input_digest",
          planned.planInputDigest == intent.authorization.binding.materialDigest)]
      fun (field, fits) =>
        Outcome.failIf (fits = false) (.plannedInvocationMismatch step.stepId field)
    let provenance ← Outcome.okOr intent.receiptProvenance
      (.plannedInvocationMismatch step.stepId "receipt_provenance.plan_id")
    Outcome.failIf (provenance.planId ≠ planned.planId)
      (.plannedInvocationMismatch step.stepId "receipt_provenance.plan_id")
    validatePlannedExecutionProfile step planned intent provenance

/-! ## Authorizations -/

def validateAuthorizationBinding (D : Digests) (state : RunState) (stepId : String)
    (intent : EffectIntent) : Outcome TransitionError Unit := do
  let authorization := intent.authorization
  let binding := authorization.binding
  let invocation := intent.invocation
  Outcome.failIf (binding.runId ≠ state.runId) (.authorizationRunMismatch authorization.grantId)
  Outcome.failIf (binding.stepId ≠ stepId) (.authorizationStepMismatch authorization.grantId)
  Outcome.failIf (binding.authority ≠ state.authority)
    (.authorizationAuthorityMismatch authorization.grantId)
  Outcome.failIf (binding.authorityEpoch ≠ state.authorityEpoch)
    (.authorizationEpochMismatch authorization.grantId)
  Outcome.failIf (binding.issuedAtSequence ≠ state.journalSequence ∨
    binding.issuedAtHeadDigest ≠ state.journalHeadDigest)
    (.authorizationHeadMismatch authorization.grantId)
  Outcome.failIf (binding.actionDigest ≠ intent.actionDigest)
    (.authorizationActionMismatch authorization.grantId)
  Outcome.failIf (binding.capabilityId ≠ invocation.capabilityId ∨
    binding.contractVersion ≠ invocation.contractVersion ∨
    binding.definitionDigest ≠ invocation.definitionDigest ∨
    binding.instanceId ≠ invocation.instanceId ∨
    binding.instanceBindingDigest ≠ invocation.instanceBindingDigest)
    (.authorizationInvocationMismatch authorization.grantId)
  let expectedId ← (onceAuthorizationId D binding.runId binding.actionDigest).mapErr
    .authorizationDigest
  Outcome.failIf (authorization.grantId ≠ expectedId)
    (.authorizationIdMismatch authorization.grantId)
  let expected ← (authorizationDigest D binding authorization.maxUses).mapErr .authorizationDigest
  Outcome.failIf (authorization.grantDigest ≠ expected)
    (.authorizationDigestMismatch authorization.grantId)

/-- The entry of a grant, created with no uses when the grant is new. -/
def consumptionEntry (state : RunState) (authorization : AuthorizationUse) :
    AuthorizationConsumption :=
  (state.authorizationConsumption[authorization.grantId]?).getD {
    grantDigest := authorization.grantDigest
    maxUses := authorization.maxUses
    uses := 0
    effectIds := ∅ }

/-- Use a grant once for an effect. -/
def consumeAuthorization (state : RunState) (intent : EffectIntent) :
    Outcome TransitionError AuthorizationConsumption := do
  let authorization := intent.authorization
  let consumption := consumptionEntry state authorization
  Outcome.failIf (consumption.grantDigest ≠ authorization.grantDigest ∨
    consumption.maxUses ≠ authorization.maxUses) (.authorizationGrantChanged authorization.grantId)
  Outcome.failIf (consumption.uses ≥ consumption.maxUses)
    (.authorizationBudgetExceeded authorization.grantId consumption.maxUses)
  pure { consumption with
    uses := consumption.uses + 1
    effectIds := consumption.effectIds.insert intent.effectId }

/-- The checks on the intent alone. -/
def checkIntent (D : Digests) (intent : EffectIntent) : Outcome TransitionError Unit := do
  validateToolOutputProfile intent
  checkReceiptProvenance D intent
  Outcome.failIf (intent.authorization.maxUses ≠ 1)
    (.invalidAuthorizationBudget intent.authorization.grantId)
  Outcome.failIf (intent.sinkGuarantee ≠ .none ∧ intent.lacksIdempotencyKey = true)
    (.sinkGuaranteeRequiresIdempotencyKey intent.effectId)
  Outcome.failIf (intent.effectClass = .readOnly ∧
    (intent.idempotencyKey.isSome = true ∨ intent.sinkGuarantee ≠ .none))
    (.readOnlyEffectSemanticsInvalid intent.effectId)

def commitEffectIntent (D : Digests) (state : RunState) (stepId : String) (intent : EffectIntent) :
    Outcome TransitionError RunState := do
  checkIntent D intent
  Outcome.failIf ((BTreeMap.vals state.steps).any fun step =>
    step.intent.any fun existing => existing.effectId == intent.effectId)
    (.duplicateEffect intent.effectId)
  let step ← Outcome.okOr state.steps[stepId]? (.unknownStep stepId)
  requireStatus step .planned (.effectIntentCommitted stepId intent)
  let blocker ← firstUnreleasedDependency state step
  Outcome.whenSome blocker fun blocker =>
    Outcome.fail (.dependencyNotReleased stepId blocker.stepId blocker.reason)
  validatePlannedInvocationBinding D step intent
  validateAuthorizationBinding D state stepId intent
  let consumption ← consumeAuthorization state intent
  let step ← Outcome.expect state.steps[stepId]? "step was checked before authorization mutation"
  pure { state with
    authorizationConsumption :=
      state.authorizationConsumption.insert intent.authorization.grantId consumption
    steps := state.steps.insert stepId
      { step with intent := some intent, status := .intentCommitted } }

end Xgeny
