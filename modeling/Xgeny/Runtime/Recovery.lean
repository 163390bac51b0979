import Xgeny.Runtime.Executor

set_option autoImplicit false

/-!
# Recovering the material of an invocation

The arguments of an invocation are not in the journal. A trusted provider rebuilds them from the
recipe that was committed, before a planned step is admitted and again before a committed intent is
executed, and everything that was bound to the arguments is checked against what it returns.

* `MaterialProviderRegistry`: the providers of a host, by their identifiers;
* `InvocationMaterialRecovery.preparePlannedAdmission`: the first phase for a planned step;
* `InvocationMaterialRecovery.recover`: the material of a committed intent.
-/

namespace Xgeny

inductive MaterialRecoveryError where
  | store (error : StoreError)
  | admission (error : AdmissionError)
  | invocationResolution (error : InvocationResolutionError)
  | materialRecord (error : InvocationMaterialError)
  | planningContract (error : PlanningContractError)
  | runNotInitialized
  | stepNotFound (stepId : String)
  | intentMissing (stepId : String)
  | stepNotIntentCommitted (stepId : String) (actual : StepStatus)
  | stepNotPlanned (stepId : String) (actual : StepStatus)
  | plannedInvocationMissing (stepId : String)
  | plannedInputRecordMissing (stepId : String)
  | materialRecordMissing (effectId : String)
  | ephemeralMaterialUnavailable
  | providerNotRegistered
  | provider (failure : MaterialProviderFailure)
  | definitionNotFound (capabilityId contractVersion : String)
  | definitionChanged
  | instanceNotFound (instanceId : String)
  | instanceBindingChanged
  | materialDigestMismatch
  | actionDigestMismatch
  | leaseRunMismatch (leaseRunId stateRunId : String)
  deriving DecidableEq

/-- The identifiers of the registered providers; a provider itself answers as an operation. -/
structure MaterialProviderRegistry where
  providerIds : List String

/-- `PlannedAdmissionRequest`. -/
structure PlannedAdmissionRequest where
  stepId : String
  route : RouteRequest
  deriving DecidableEq

namespace InvocationMaterialRecovery

variable (D : Digests) (J : Schemas)

/-- `verify_lease` of the recovery. -/
def verifyLease (lease : RunLease) (state : RunState) : Outcome MaterialRecoveryError Unit :=
  Outcome.failIf (lease.runId ≠ state.runId) (.leaseRunMismatch lease.runId state.runId)

/-- The leased state that both entry points start from. -/
def loadLeased (lease : RunLease) : Routine MaterialRecoveryError RunState := do
  let current ← Routine.loadCurrent.mapErr .store
  let state ← Prog.lift (Outcome.okOr current .runNotInitialized)
  Prog.lift (verifyLease lease state)
  pure state

/-- Ask the provider of a recipe for the arguments. -/
def reconstruct (providers : MaterialProviderRegistry)
    (reference : ReconstructableMaterialReference) : Routine MaterialRecoveryError Json := do
  Prog.lift (Outcome.failIf (reference.providerId ∉ providers.providerIds) .providerNotRegistered)
  (Routine.reconstruct reference.providerId reference.referenceId reference.revision).mapErr .provider

/-- The checks on a step before its planned input is loaded. -/
def plannedBinding (registry : CapabilityRegistry) (state : RunState) (stepId : String)
    (route : RouteRequest) : Outcome MaterialRecoveryError PlannedInvocationBinding := do
  let step ← Outcome.okOr state.steps[stepId]? (.stepNotFound stepId)
  Outcome.failIf (step.status ≠ .planned) (.stepNotPlanned stepId step.status)
  (requireAdmissionReadyStep state stepId).mapErr .admission
  (verifyPlannedRouteBinding state stepId route).mapErr .admission
  (verifyPlannedDefinitionBinding D state stepId registry).mapErr .admission
  Outcome.okOr step.plannedInvocation (.plannedInvocationMissing stepId)

/-- Rebuild the arguments of a planned step and prepare them for admission. -/
def preparePlannedAdmission (lease : RunLease) (registry : CapabilityRegistry)
    (resolver : ResourceResolver) (providers : MaterialProviderRegistry)
    (request : PlannedAdmissionRequest) : Routine MaterialRecoveryError PendingInvocation := do
  let state ← loadLeased lease
  let binding ← Prog.lift (plannedBinding D registry state request.stepId request.route)
  let found ← (Routine.loadPlannedInvocation request.stepId).mapErr .store
  let input ← Prog.lift (Outcome.okOr found (.plannedInputRecordMissing request.stepId))
  Prog.lift ((input.verifyFor D state.runId request.stepId binding).mapErr .planningContract)
  let reconstructed ← reconstruct providers input.reference
  (InvocationAdmission.prepare D J lease registry resolver
    { stepId := request.stepId
      route := request.route
      arguments := reconstructed }).mapErr .admission

/-- The recipe of a record, which has to be reconstructable. -/
def retainedReference (record : InvocationMaterialRecord) :
    Outcome MaterialRecoveryError ReconstructableMaterialReference :=
  match record.retention with
  | .reconstructableReference reference => pure reference
  | .ephemeral => Outcome.fail .ephemeralMaterialUnavailable

/-- The definition of a committed intent, with its instance still bound. -/
def committedDefinition (registry : CapabilityRegistry) (intent : EffectIntent) :
    Outcome MaterialRecoveryError CapabilityDefinitionBody := do
  let capability := intent.invocation.capability
  let definition ← Outcome.okOr (registry.definition capability)
    (.definitionNotFound capability.capabilityId capability.contractVersion)
  let definitionDigest ← (definitionContractDigest D definition).mapErr .admission
  Outcome.failIf (definitionDigest ≠ intent.invocation.definitionDigest) .definitionChanged
  let instance_ ← Outcome.okOr (registry.instance? intent.invocation.instanceId)
    (.instanceNotFound intent.invocation.instanceId)
  Outcome.failIf (instance_.definition ≠ capability) .instanceBindingChanged
  let bindingDigest ← (executableBindingDigest D instance_).mapErr .admission
  Outcome.failIf (bindingDigest ≠ intent.invocation.instanceBindingDigest) .instanceBindingChanged
  pure definition

/-- The part of `recover` that follows the reconstruction. -/
def verifyReconstructed (resolver : ResourceResolver) (state : RunState) (stepId : String)
    (intent : EffectIntent) (record : InvocationMaterialRecord)
    (definition : CapabilityDefinitionBody) (reconstructed : Json) :
    Outcome MaterialRecoveryError InvocationMaterial := do
  (validateArguments D J definition reconstructed).mapErr .admission
  let recovered ← (resolveInvocation resolver ("material-recovery-" ++ record.materialId) state.runId
    stepId definition reconstructed .once).mapErr .invocationResolution
  (validateArguments D J definition recovered.normalizedArguments).mapErr .admission
  let materialDigest ← (invocationMaterialDigest D recovered.normalizedArguments).mapErr
    .materialRecord
  Outcome.failIf (materialDigest ≠ record.materialDigest) .materialDigestMismatch
  let semanticDigest ← (semanticActionDigest D intent.invocation.capability
    intent.invocation.definitionDigest definition.spec.effect.class_ recovered.normalizedArguments
    recovered.permissionRequest).mapErr .admission
  let actionDigest ← (plannedActionDigest D state stepId semanticDigest).mapErr .admission
  Outcome.failIf (actionDigest ≠ intent.actionDigest ∨ actionDigest ≠ record.actionDigest)
    .actionDigestMismatch
  pure
    { record := record
      normalizedArguments := recovered.normalizedArguments }

/-- The committed intent of a step. -/
def committedIntent (state : RunState) (stepId : String) :
    Outcome MaterialRecoveryError EffectIntent := do
  let step ← Outcome.okOr state.steps[stepId]? (.stepNotFound stepId)
  Outcome.failIf (step.status ≠ .intentCommitted) (.stepNotIntentCommitted stepId step.status)
  Outcome.okOr step.intent (.intentMissing stepId)

/-- Rebuild the material of a committed intent. -/
def recover (lease : RunLease) (registry : CapabilityRegistry) (resolver : ResourceResolver)
    (providers : MaterialProviderRegistry) (stepId : String) :
    Routine MaterialRecoveryError InvocationMaterial := do
  let state ← loadLeased lease
  let intent ← Prog.lift (committedIntent state stepId)
  let found ← (Routine.loadInvocationMaterial intent.effectId).mapErr .store
  let record ← Prog.lift (Outcome.okOr found (.materialRecordMissing intent.effectId))
  Prog.lift ((record.verifyFor D state.runId stepId intent).mapErr .materialRecord)
  let reference ← Prog.lift (retainedReference record)
  let definition ← Prog.lift (committedDefinition D registry intent)
  let reconstructed ← reconstruct providers reference
  Prog.lift (verifyReconstructed D J resolver state stepId intent record definition reconstructed)

end InvocationMaterialRecovery

end Xgeny
