import Xgeny.Runtime.Operations

set_option autoImplicit false

/-!
# Admission

An invocation is admitted in two phases. The first derives the permission request from the exact
arguments, for the host to put before its policy layers. The second evaluates the layers, routes
again, and commits the intent of one effect with its one-shot authorization and its material.

* `PendingInvocation`, `AdmittedEffect`: what the two phases return;
* `issueOnceEffect`: the intent with everything that is bound into its authorization;
* `InvocationAdmission.prepare`, `InvocationAdmission.authorizeAndCommit`: the two phases.
-/

namespace Xgeny

structure AdmissionRequest where
  stepId : String
  route : RouteRequest
  arguments : Json
  deriving DecidableEq

structure PendingRunBinding where
  runId : String
  authority : String
  authorityEpoch : UInt64
  journalSequence : UInt64
  journalHeadDigest : String
  deriving DecidableEq

/-- `PendingRunBinding::from_state`. -/
def PendingRunBinding.fromState (state : RunState) : PendingRunBinding where
  runId := state.runId
  authority := state.authority
  authorityEpoch := state.authorityEpoch
  journalSequence := state.journalSequence
  journalHeadDigest := state.journalHeadDigest

/-- The binding is that of the state; `matches` in the source. -/
def PendingRunBinding.fits (self : PendingRunBinding) (state : RunState) : Bool :=
  self.runId == state.runId && self.authority == state.authority &&
    self.authorityEpoch == state.authorityEpoch && self.journalSequence == state.journalSequence &&
    self.journalHeadDigest == state.journalHeadDigest

/-- A prepared invocation, which carries no authority yet. -/
structure PendingInvocation where
  runBinding : PendingRunBinding
  route : RouteRequest
  normalizedArguments : Json
  permissionRequest : ResolvedPermissionRequest
  definitionDigest : String
  actionDigest : String
  materialDigest : String
  materialRetention : InvocationMaterialRetention
  planId : Option String
  deriving DecidableEq

/-- Choose a recipe for the material; a planned invocation keeps the one it was planned with. -/
def PendingInvocation.withReconstructableMaterial (self : PendingInvocation)
    (reference : ReconstructableMaterialReference) : PendingInvocation :=
  if self.planId = none then
    { self with materialRetention := .reconstructableReference reference }
  else self

structure AdmittedEffect where
  normalizedArguments : Json
  capability : CapabilityRef
  selectedInstanceId : String
  definitionDigest : String
  instanceBindingDigest : String
  actionDigest : String
  effectId : String
  materialRecord : InvocationMaterialRecord
  commit : Commit

inductive AdmissionOutcome where
  | authorized (effect : AdmittedEffect)
  | notAuthorized (route : RouteOutcome)

/-! ## Checks on the step -/

def admissionVerifyLease (lease : RunLease) (state : RunState) : Outcome AdmissionError Unit :=
  Outcome.failIf (lease.runId ≠ state.runId) (.leaseRunMismatch lease.runId state.runId)

/-- One dependency of `require_admission_ready_step`, which keeps the smallest blocker. -/
def admissionBlocker (state : RunState) (stepId : String)
    (first : Option (String × DependencyBlockReason)) (dependencyId : String) :
    Outcome AdmissionError (Option (String × DependencyBlockReason)) := do
  let dependency ← Outcome.okOr state.steps[dependencyId]?
    (.stepDependencyUnknown stepId dependencyId)
  match dependencyReleaseBlockReason dependency with
  | none => pure first
  | some reason =>
    pure (if first.all (fun current => decide (dependencyId < current.1)) then
      some (dependencyId, reason) else first)

def requireAdmissionReadyStep (state : RunState) (stepId : String) :
    Outcome AdmissionError Unit := do
  let step ← Outcome.okOr state.steps[stepId]? (.stepNotFound stepId)
  Outcome.failIf (step.status ≠ .planned) (.stepNotPlanned stepId step.status)
  let firstBlocker ← Outcome.foldl (admissionBlocker state stepId) none step.dependsOn
  Outcome.whenSome firstBlocker fun blocker =>
    Outcome.fail (.stepDependencyNotReleased stepId blocker.1 blocker.2)

def verifyUnplannedReadOnlyBoundary (state : RunState) (stepId : String)
    (capability : CapabilityRef) (registry : CapabilityRegistry) : Outcome AdmissionError Unit := do
  let step ← Outcome.okOr state.steps[stepId]? (.stepNotFound stepId)
  if step.plannedInvocation.isSome then pure ()
  else do
    let definition ← Outcome.okOr (registry.definition capability)
      (.definitionNotFound capability.capabilityId capability.contractVersion)
    Outcome.failIf (definition.spec.effect.class_ = .readOnly) .unplannedReadOnlyUnsupported

def OperatingSystem.name : OperatingSystem → String
  | .linux => "linux"
  | .macos => "macos"
  | .windows => "windows"
  | .any => "any"

def Architecture.name : Architecture → String
  | .x86_64 => "x86_64"
  | .aarch64 => "aarch64"
  | .any => "any"

/-- Whether a route asks for idempotency keys as an execution profile does. -/
def PlannedExecutionProfile.idempotencyFeatureMatches (profile : PlannedExecutionProfile)
    (features : RequiredRouteFeatures) : Bool :=
  match profile with
  | .localSyncOnceV1 | .localSyncOnceOccurrenceV1 => features.idempotencyKey
  | .localSyncReadOnlyV1 | .localSyncReadOnlyOccurrenceV1 => !features.idempotencyKey

def verifyPlannedRouteBinding (state : RunState) (stepId : String) (route : RouteRequest) :
    Outcome AdmissionError Unit := do
  Outcome.failIf (route.requiredFeatures.executionStyle ≠ .sync) .unsupportedExecutionStyle
  let step ← Outcome.okOr state.steps[stepId]? (.stepNotFound stepId)
  match step.plannedInvocation with
  | none =>
    Outcome.failIf (route.requiredFeatures.idempotencyKey = false) .idempotencyKeyFeatureRequired
  | some planned =>
    requireMatches (.plannedInvocationMismatch stepId)
      [("capability_id", planned.capabilityId == route.capability.capabilityId),
        ("contract_version", planned.contractVersion == route.capability.contractVersion),
        ("execution_profile",
          planned.executionProfile.idempotencyFeatureMatches route.requiredFeatures),
        ("target_os", planned.targetOs == route.targetPlatform.os.name),
        ("target_arch", planned.targetArch == route.targetPlatform.arch.name)]

/-- The capability that a step is planned for. -/
def PlannedInvocationBinding.capability (self : PlannedInvocationBinding) : CapabilityRef where
  capabilityId := self.capabilityId
  contractVersion := self.contractVersion

/-- The effect class that an execution profile is for. -/
def PlannedExecutionProfile.admitsEffectClass (profile : PlannedExecutionProfile)
    (effectClass : ProtocolEffectClass) : Bool :=
  match profile, effectClass with
  | .localSyncReadOnlyV1, .readOnly => true
  | .localSyncReadOnlyOccurrenceV1, .readOnly => true
  | .localSyncOnceV1, .idempotent => true
  | .localSyncOnceV1, .nonIdempotent => true
  | .localSyncOnceOccurrenceV1, .idempotent => true
  | .localSyncOnceOccurrenceV1, .nonIdempotent => true
  | _, _ => false

/-- The checks of `verify_planned_admission_binding` on the digests of a planned step. -/
def verifyPlannedDigests (stepId : String) (planned : PlannedInvocationBinding)
    (definitionDigest actionDigest materialDigest : String) : Outcome AdmissionError Unit :=
  requireMatches (.plannedInvocationMismatch stepId)
    [("definition_digest", planned.definitionDigest == definitionDigest),
      ("action_digest", planned.actionDigest == actionDigest),
      ("plan_input_digest", planned.planInputDigest == materialDigest)]

def verifyPlannedAdmissionBinding (state : RunState) (request : AdmissionRequest)
    (definitionDigest actionDigest materialDigest : String) :
    Outcome AdmissionError (Option String) := do
  verifyPlannedRouteBinding state request.stepId request.route
  let step ← Outcome.okOr state.steps[request.stepId]? (.stepNotFound request.stepId)
  match step.plannedInvocation with
  | none => pure none
  | some planned => do
    verifyPlannedDigests request.stepId planned definitionDigest actionDigest materialDigest
    pure (some planned.planId)

/-- A pending invocation is still the planned one, with its recipe. -/
def verifyPendingPlannedMaterial (state : RunState) (stepId : String) (pending : PendingInvocation)
    (input : Option PlannedInvocationMaterialRecord) : Outcome AdmissionError Unit := do
  let step ← Outcome.okOr state.steps[stepId]? (.stepNotFound stepId)
  match step.plannedInvocation with
  | none =>
    Outcome.failIf (pending.planId.isSome ∨ input.isSome)
      (.plannedInvocationMismatch stepId "plan_input_sidecar")
  | some planned => do
    Outcome.failIf (pending.planId ≠ some planned.planId)
      (.plannedInvocationMismatch stepId "plan_id")
    let input ← Outcome.okOr input (.plannedInputMissing stepId)
    Outcome.failIf (pending.materialRetention ≠ .reconstructableReference input.reference)
      (.plannedInvocationMismatch stepId "material_retention.reference")

section

variable (D : Digests)

def verifyPlannedDefinitionBinding (state : RunState) (stepId : String)
    (registry : CapabilityRegistry) : Outcome AdmissionError Unit := do
  let step ← Outcome.okOr state.steps[stepId]? (.stepNotFound stepId)
  Outcome.whenSome step.plannedInvocation fun planned => do
    let definition ← Outcome.okOr (registry.definition planned.capability)
      (.definitionNotFound planned.capabilityId planned.contractVersion)
    let digest ← definitionContractDigest D definition
    Outcome.failIf (digest ≠ planned.definitionDigest) .definitionChanged
    Outcome.failIf (planned.executionProfile.admitsEffectClass definition.spec.effect.class_ = false)
      (.plannedInvocationMismatch stepId "execution_profile")

/-- The recipe of a planned step, as the store keeps it. -/
def verifyPlannedInputSidecar (state : RunState) (stepId : String) :
    Routine AdmissionError (Option PlannedInvocationMaterialRecord) := do
  let step ← Prog.lift (Outcome.okOr state.steps[stepId]? (.stepNotFound stepId))
  match step.plannedInvocation with
  | none => pure none
  | some binding => do
    let found ← (Routine.loadPlannedInvocation stepId).mapErr .store
    let input ← Prog.lift (Outcome.okOr found (.plannedInputMissing stepId))
    Prog.lift ((input.verifyFor D state.runId stepId binding).mapErr .planningContract)
    pure (some input)

/-! ## Issuing -/

/-- `ONCE_MAX_USES`. -/
def onceMaxUses : UInt32 := 1

structure IssuedEffect where
  intent : EffectIntent
  instanceBindingDigest : String
  effectId : String
  materialRecord : InvocationMaterialRecord
  deriving DecidableEq

/-- `receipt_placement`. -/
def receiptPlacement : Placement → ReceiptPlacement
  | .localHost => .localHost
  | .device => .device
  | .remote => .remote

/-- `receipt_verification_strategy`. -/
def receiptVerificationStrategy : VerificationStrategy → ReceiptVerificationStrategy
  | .outputSchema => .outputSchema
  | .postcondition => .postcondition
  | .artifactDigest => .artifactDigest
  | .receipt => .receipt
  | .human => .human

/-- Whether the output of an effect is kept with its receipt. -/
def CapabilityDefinitionBody.keepsToolOutput (self : CapabilityDefinitionBody) : Bool :=
  self.spec.effect.class_ == .readOnly ||
    (self.spec.effect.class_ == .idempotent || self.spec.effect.class_ == .nonIdempotent) &&
      self.spec.execution.durableToolOutput

def buildReceiptProvenance (H : Host) (effectIdentityDigest : String)
    (plannedPlanId : Option String) (policyDecisionId policyDecisionDigest : String)
    (instance_ : CapabilityInstanceBody) (definition : CapabilityDefinitionBody) :
    ReceiptProvenance where
  profileVersion := if definition.keepsToolOutput then coreReceiptProfileV2 else coreReceiptProfileV1
  toolOutputProfile := if definition.keepsToolOutput then some toolOutputProfileV1 else none
  invocationId := contentId "invocation" effectIdentityDigest
  planId := plannedPlanId.getD (contentId "plan" effectIdentityDigest)
  policyDecisionId := policyDecisionId
  policyDecisionDigest := policyDecisionDigest
  executorId := localExecutorId
  executorPlacement := receiptPlacement instance_.placement
  executorPlatform := H.localExecutorPlatform
  inputSummary := coreReceiptInputSummaryV1
  verificationPlan := definition.spec.verification.map fun rule =>
    { strategy := receiptVerificationStrategy rule.strategy, required := rule.required }

def policyEvidenceDigest (request : ResolvedPermissionRequest)
    (provisional : ProvisionalAuthorization) (sources : List PolicySource) :
    Outcome AdmissionError String := do
  Outcome.failIf (provisional.scopes ≠ request.requestedScopes ∨
    provisional.resources ≠ request.resources ∨
    provisional.criticalActions ≠ request.criticalActions) .policyAllowanceDetached
  digestSerializable D (.policyEvidence request.apiVersion request.requestId request.runId
    request.stepId request.capability request.effectClass request.requestedScopes request.resources
    request.criticalActions provisional.lifetime sources)

/-- The policy decision document of an allowed request. -/
def allowedDecision (request : ResolvedPermissionRequest) (authorization : ProvisionalAuthorization)
    (sources : List PolicySource) (decisionId decidedAt : String) : PolicyDecisionBody where
  apiVersion := request.apiVersion
  extensions := ∅
  requiredExtensions := []
  decisionId := decisionId
  requestId := request.requestId
  decision := .allow
  policySources := sources
  grant := some
    { lifetime := authorization.lifetime
      expiresAt := none
      scopes := authorization.scopes
      resources := authorization.resources.map fun resource =>
        { scope := resource.scope
          resource := resource.canonicalResource
          normalized := true
          metadata := ∅ }
      criticalActions := authorization.criticalActions }
  interactionId := none
  denyReasons := []
  decidedAt := decidedAt

def policyDecisionCommitment (J : Schemas) (request : ResolvedPermissionRequest)
    (authorization : ProvisionalAuthorization) (sources : List PolicySource)
    (evidenceDigest decidedAt : String) : Outcome AdmissionError (String × String) := do
  let decisionId := contentId "decision" evidenceDigest
  let decision := allowedDecision request authorization sources decisionId decidedAt
  Outcome.failIf (J.policyDecision decision = false) .policyDecisionInvalid
  let digest ← D.digest (.policyDecision decision) AdmissionError.protocol
  pure (decisionId, digest)

/-- The allowance of an evaluation, which has to be for one use of nothing critical. -/
def requireOnceAllowance (request : ResolvedPermissionRequest) (outcome : BrokerOutcome) :
    Outcome AdmissionError (ProvisionalAuthorization × List PolicySource) :=
  match outcome with
  | .allow authorization sources => do
    Outcome.failIf (authorization.lifetime ≠ .once ∨ request.requestedLifetime ≠ .once)
      .nonOnceAuthorization
    Outcome.failIf (authorization.criticalActions ≠ []) .criticalAuthorizationUnsupported
    pure (authorization, sources)
  | _ => Outcome.fail .selectedRouteWithoutPolicyAllow

def issueOnceEffect (J : Schemas) (H : Host) (pending : PendingInvocation) (state : RunState)
    (definition : CapabilityDefinitionBody) (instance_ : CapabilityInstanceBody)
    (selectedInstanceId : String) (evaluation : BoundPolicyEvaluation) (decidedAt : String) :
    Outcome AdmissionError IssuedEffect := do
  let request := pending.permissionRequest
  let (authorization, sources) ← requireOnceAllowance request evaluation.outcome
  let effectIdentityDigest ← digestSerializable D
    (.effectIdentity state.runId pending.actionDigest)
  let policyEvidenceDigest ← policyEvidenceDigest D request authorization sources
  let (policyDecisionId, policyDecisionDigest) ← policyDecisionCommitment D J request authorization
    sources policyEvidenceDigest decidedAt
  let receiptProvenance := buildReceiptProvenance H effectIdentityDigest pending.planId
    policyDecisionId policyDecisionDigest instance_ definition
  let receiptProvenanceDigest ← (receiptProvenanceDigest D receiptProvenance).mapErr
    .authorizationDigest
  let instanceBindingDigest ← executableBindingDigest D instance_
  let invocation : InvocationBinding :=
    { capabilityId := pending.route.capability.capabilityId
      contractVersion := pending.route.capability.contractVersion
      definitionDigest := pending.definitionDigest
      instanceId := selectedInstanceId
      instanceBindingDigest := instanceBindingDigest }
  let materialRetentionDigest ← (invocationMaterialRetentionDigest D
    pending.materialRetention).mapErr .invocationMaterial
  let binding : AuthorizationBinding :=
    { runId := state.runId
      stepId := request.stepId
      authority := state.authority
      authorityEpoch := state.authorityEpoch
      issuedAtSequence := state.journalSequence
      issuedAtHeadDigest := state.journalHeadDigest
      capabilityId := invocation.capabilityId
      contractVersion := invocation.contractVersion
      definitionDigest := invocation.definitionDigest
      instanceId := invocation.instanceId
      instanceBindingDigest := invocation.instanceBindingDigest
      actionDigest := pending.actionDigest
      materialDigest := pending.materialDigest
      materialRetentionDigest := materialRetentionDigest
      policyEvidenceDigest := policyEvidenceDigest
      receiptProvenanceDigest := some receiptProvenanceDigest }
  let grantDigest ← (authorizationDigest D binding onceMaxUses).mapErr .authorizationDigest
  let effectId := contentId "effect" effectIdentityDigest
  let effectClass ← mapEffectClass definition.spec.effect.class_
  let grantId ← (onceAuthorizationId D state.runId pending.actionDigest).mapErr .authorizationDigest
  let intent : EffectIntent :=
    { effectId := effectId
      actionDigest := pending.actionDigest
      invocation := invocation
      effectClass := effectClass
      idempotencyKey :=
        if effectClass = .readOnly then none else some (contentId "xgeny" effectIdentityDigest)
      sinkGuarantee := .none
      authorization :=
        { grantId := grantId
          grantDigest := grantDigest
          maxUses := onceMaxUses
          binding := binding }
      receiptProvenance := some receiptProvenance }
  let materialRecord ← (InvocationMaterialRecord.new D state.runId request.stepId intent
    pending.materialDigest pending.materialRetention).mapErr .invocationMaterial
  pure
    { intent := intent
      instanceBindingDigest := instanceBindingDigest
      effectId := effectId
      materialRecord := materialRecord }

end

/-! ## The two phases -/

namespace InvocationAdmission

variable (D : Digests) (P : Protocol) (J : Schemas) (H : Host)

/-- The state that both phases start from. -/
def loadLeased (lease : RunLease) : Routine AdmissionError RunState := do
  let current ← Routine.loadCurrent.mapErr .store
  let state ← Prog.lift (Outcome.okOr current .runNotInitialized)
  Prog.lift (admissionVerifyLease lease state)
  pure state

/-- The retention of the material: a planned step keeps its recipe. -/
def initialRetention (stepId : String) (planId : Option String)
    (plannedInput : Option PlannedInvocationMaterialRecord) :
    Outcome AdmissionError InvocationMaterialRetention :=
  match planId, plannedInput with
  | some _, some input => pure (.reconstructableReference input.reference)
  | none, none => pure .ephemeral
  | _, _ => Outcome.fail (.plannedInvocationMismatch stepId "plan_input_sidecar")

/-- The part of `prepare` that follows the loads. -/
def preparePending (state : RunState) (plannedInput : Option PlannedInvocationMaterialRecord)
    (registry : CapabilityRegistry) (resolver : ResourceResolver) (request : AdmissionRequest) :
    Outcome AdmissionError PendingInvocation := do
  let facts ← prepareInvocationFacts D J state.runId request.stepId request.route.capability
    request.arguments registry resolver
  let actionDigest ← plannedActionDigest D state request.stepId facts.semanticActionDigest
  let planId ← verifyPlannedAdmissionBinding state request facts.definitionDigest actionDigest
    facts.materialDigest
  let materialRetention ← initialRetention request.stepId planId plannedInput
  pure
    { runBinding := .fromState state
      route := request.route
      normalizedArguments := facts.normalizedArguments
      permissionRequest := facts.permissionRequest
      definitionDigest := facts.definitionDigest
      actionDigest := actionDigest
      materialDigest := facts.materialDigest
      materialRetention := materialRetention
      planId := planId }

def prepare (lease : RunLease) (registry : CapabilityRegistry) (resolver : ResourceResolver)
    (request : AdmissionRequest) : Routine AdmissionError PendingInvocation := do
  let state ← loadLeased lease
  Prog.lift (requireAdmissionReadyStep state request.stepId)
  Prog.lift (verifyUnplannedReadOnlyBoundary state request.stepId request.route.capability registry)
  Prog.lift (verifyPlannedRouteBinding state request.stepId request.route)
  Prog.lift (verifyPlannedDefinitionBinding D state request.stepId registry)
  let plannedInput ← verifyPlannedInputSidecar D state request.stepId
  Prog.lift (preparePending D J state plannedInput registry resolver request)

/-- The checks of the second phase on the loaded state, up to the evaluation of the policy. -/
def currentDefinition (pending : PendingInvocation) (state : RunState)
    (plannedInput : Option PlannedInvocationMaterialRecord) (registry : CapabilityRegistry) :
    Outcome AdmissionError CapabilityDefinitionBody := do
  verifyPendingPlannedMaterial state pending.permissionRequest.stepId pending plannedInput
  let capability := pending.route.capability
  let definition ← Outcome.okOr (registry.definition capability)
    (.definitionNotFound capability.capabilityId capability.contractVersion)
  let digest ← definitionContractDigest D definition
  Outcome.failIf (digest ≠ pending.definitionDigest) .definitionChanged
  pure definition

/-- The selected instance, which has to be local. -/
def selectedInstance (registry : CapabilityRegistry) (selectedInstanceId : String) :
    Outcome AdmissionError CapabilityInstanceBody := do
  let instance_ ← Outcome.okOr (registry.instance? selectedInstanceId)
    (.selectedInstanceMissing selectedInstanceId)
  Outcome.failIf (instance_.placement ≠ .localHost)
    (.unsupportedExecutorPlacement instance_.placement)
  pure instance_

/-- Issue the effect for a selected instance and commit its intent. -/
def commitIssued (pending : PendingInvocation) (state : RunState)
    (definition : CapabilityDefinitionBody) (instance_ : CapabilityInstanceBody)
    (selectedInstanceId : String) (evaluation : BoundPolicyEvaluation) :
    Routine AdmissionError AdmissionOutcome := do
  let metadata ← (Routine.createMetadata state).mapErr .eventFactory
  Prog.lift (Outcome.failIf (P.rfc3339 metadata.recordedAt = none) .eventMetadata)
  let issued ← Prog.lift (issueOnceEffect D J H pending state definition instance_
    selectedInstanceId evaluation metadata.recordedAt)
  let event := state.event metadata
    (.effectIntentCommitted pending.permissionRequest.stepId issued.intent)
  let commit ← (Routine.append (.withInvocationMaterial (.fromState state) event
    issued.materialRecord)).mapErr .store
  pure (.authorized
    { normalizedArguments := pending.normalizedArguments
      capability := pending.route.capability
      selectedInstanceId := selectedInstanceId
      definitionDigest := pending.definitionDigest
      instanceBindingDigest := issued.instanceBindingDigest
      actionDigest := pending.actionDigest
      effectId := issued.effectId
      materialRecord := issued.materialRecord
      commit := commit })

def authorizeAndCommit (pending : PendingInvocation) (policyInputs : PolicyInputs)
    (registry : CapabilityRegistry) (lease : RunLease) :
    Routine AdmissionError AdmissionOutcome := do
  Prog.lift (Outcome.failIf (policyInputs.isManaged = true) .managedPolicyUnsupported)
  let state ← loadLeased lease
  Prog.lift (Outcome.failIf (pending.runBinding.fits state = false) .runHeadChanged)
  let stepId := pending.permissionRequest.stepId
  Prog.lift (requireAdmissionReadyStep state stepId)
  let plannedInput ← verifyPlannedInputSidecar D state stepId
  let definition ← Prog.lift (currentDefinition D pending state plannedInput registry)
  let evaluation ← Prog.lift ((evaluateBound pending.permissionRequest policyInputs).mapErr .broker)
  let outcome ← Prog.lift ((route registry pending.route (some evaluation)).mapErr .route)
  match outcome with
  | .selected selectedInstanceId _ _ _ => do
    let instance_ ← Prog.lift (selectedInstance registry selectedInstanceId)
    commitIssued D P J H pending state definition instance_ selectedInstanceId evaluation
  | .interactionRequired .. | .blocked .. => pure (.notAuthorized outcome)

end InvocationAdmission

end Xgeny
