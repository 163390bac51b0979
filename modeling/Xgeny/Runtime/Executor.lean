import Xgeny.Admission.Invocation
import Xgeny.Store.Receipts

set_option autoImplicit false

/-!
# Driving one step

The direct executor advances one step from the durable state that it finds. A committed intent is
executed: the adapter prepares the effect, the start is committed, and only then the effect is
executed and its outcome is committed. A step that is found while it executes has lost its outcome;
it becomes unknown, and an unknown effect is asked for at its sink, never executed again.

* `DirectSink`: what the runtime calls of an adapter, with its answers classified;
* `DurableEffectRuntime.driveStep`: the transitions, from a state that it loads itself;
* `DirectExecutor.driveStep`: the checks before an adapter is called, and the call of the runtime.
-/

namespace Xgeny

/-! ## Reports, policies and errors -/

/-- What one call of the runtime has done with a step. -/
inductive DriveAction where
  | effectSucceeded
  | effectFailed
  | effectUnknown
  | executionRecoveredAsUnknown
  | reconciliationApplied
  | reconciliationNotApplied
  | reconciliationFailed
  | manualRequired
  | verificationPassed
  | verificationFailed
  | verificationInconclusive
  | noAction
  deriving DecidableEq

/-- The answer of one call: what it did, and the commit when it made one. -/
structure DriveReport where
  action : DriveAction
  state : RunState

/-- `RuntimePolicy`: the limit is a `NonZeroU32`. -/
structure RuntimePolicy where
  maxExecutionAttempts : UInt32
  nonzero : maxExecutionAttempts ≠ 0

/-- `RuntimePolicy::default`. -/
def RuntimePolicy.default : RuntimePolicy where
  maxExecutionAttempts := 3
  nonzero := by decide +kernel

/-- Why the runtime refuses a step. -/
inductive RuntimeError where
  | store (error : StoreError)
  | eventFactory (error : EventFactoryError)
  | eventMetadata
  | runNotInitialized
  | stepNotFound (stepId : String)
  | intentMissing (stepId : String)
  | preparedEffectRequired (stepId : String)
  | preparedEffectHeadChanged (stepId : String)
  | preparedEffectBindingMismatch (stepId : String)
  | preparedMaterialRecordInvalid (error : InvocationMaterialError)
  | preparedMaterialRecordMissing (effectId : String)
  | preparedMaterialRecordChanged (stepId : String)
  | executionAttemptLimitReached (stepId : String) (attempts maximum : UInt32)
  | invalidSinkObservation (observation field : String)
  | leaseRunMismatch (leaseRunId stateRunId : String)
  deriving DecidableEq

/-- Why an adapter is not registered. -/
inductive AdapterRegistryError where
  | invalidBinding
  | duplicateBinding
  deriving DecidableEq

/-- Why the executor refuses a step before or while it drives it. -/
inductive DirectExecutorError where
  | store (error : StoreError)
  | runtime (error : RuntimeError)
  | admission (error : AdmissionError)
  | materialRecord (error : InvocationMaterialError)
  | adapterRegistry (error : AdapterRegistryError)
  | runNotInitialized
  | stepNotFound (stepId : String)
  | intentMissing (stepId : String)
  | materialRequired (stepId : String)
  | materialRecordMissing (effectId : String)
  | materialRecordChanged
  | materialDigestMismatch
  | receiptProvenanceUnavailable (effectId : String)
  | unsupportedReceiptProfile
  | unsupportedToolOutputProfile
  | toolOutputSchemaInvalid
  | receiptProvenanceBindingMismatch
  | receiptVerificationPlanMismatch
  | receiptExecutorProvenanceMismatch
  | definitionNotFound (capabilityId contractVersion : String)
  | definitionChanged
  | instanceNotFound (instanceId : String)
  | instanceBindingChanged
  | instanceNotAvailable (status : HealthStatus)
  | credentialWitnessUnavailable
  | unsupportedExecutorPlacement (placement : Placement)
  | adapterNotRegistered (instanceId : String)
  | adapterPrepare (failure : AdapterPrepareFailure)
  | leaseRunMismatch (leaseRunId stateRunId : String)
  deriving DecidableEq

/-- `InvocationMaterial`: verified arguments, bound to one committed intent. -/
structure InvocationMaterial where
  record : InvocationMaterialRecord
  normalizedArguments : Json

/-! ## Adapters -/

/-- `MAX_BINDING_COMPONENT_BYTES`. -/
def maxBindingComponentBytes : ℕ := 2048

/-- One component of a binding key. -/
def validateBindingComponent (component : String) : Outcome AdapterRegistryError Unit :=
  Outcome.failIf (component = "" ∨ byteLen component > maxBindingComponentBytes ∨
    trimmed component ≠ component ∨ component.toList.any isControl = true) .invalidBinding

/-- `AdapterBindingKey::from_binding`. -/
def AdapterBindingKey.fromBinding (binding : InstanceBinding) :
    Outcome AdapterRegistryError AdapterBindingKey := do
  validateBindingComponent binding.bindingRef
  Outcome.whenSome binding.operationRef validateBindingComponent
  Outcome.whenSome binding.protocolVersion validateBindingComponent
  pure
    { bindingRef := binding.bindingRef
      operationRef := binding.operationRef
      protocolVersion := binding.protocolVersion }

/-- The keys under which adapters are registered; an adapter itself answers as an operation. -/
structure EffectAdapterRegistry where
  keys : List AdapterBindingKey

/-- The stable code of a reason. -/
def AdapterExecutionUnknownReason.code : AdapterExecutionUnknownReason → String
  | .transportOutcomeUnknown => "adapter_transport_outcome_unknown"
  | .adapterTerminated => "adapter_terminated_after_start"
  | .responseUnverifiable => "adapter_response_unverifiable"

/-- The stable code of a reason. -/
def AdapterReconciliationInconclusiveReason.code :
    AdapterReconciliationInconclusiveReason → String
  | .queryUnavailable => "adapter_reconciliation_query_unavailable"
  | .responseUnverifiable => "adapter_reconciliation_response_unverifiable"
  | .stableKeyUnsupported => "adapter_reconciliation_stable_key_unsupported"

/-! ## The sink -/

/-- What the sink has seen of an execution. -/
inductive ExecutionObservation where
  | succeeded (evidenceDigest : String)
  | succeededWithOutput (evidenceDigest : String) (output : Json)
  | failed (evidenceDigest : String)
  | unknown (reason : String)
  deriving DecidableEq

/-- What the sink has learnt of an effect whose outcome was unknown. -/
inductive ReconciliationObservation where
  | applied (evidenceDigest : String)
  | notApplied (evidenceDigest : String)
  | failed (evidenceDigest : String)
  | inconclusive (reason : String)
  deriving DecidableEq

/-- `DirectSink`, with its adapter given by the key. -/
structure DirectSink where
  adapter : Option AdapterBindingKey
  reconciliationInstance : Option CapabilityInstanceBody
  outputValidator : Option Validator

/-- The sink of a step that needs no adapter. -/
def DirectSink.withoutAdapter : DirectSink where
  adapter := none
  reconciliationInstance := none
  outputValidator := none

/-- The observation of an execution: an answer that its schema does not verify is no answer. -/
def DirectSink.observeExecution (D : Digests) (self : DirectSink) :
    AdapterExecutionObservation → ExecutionObservation
  | .succeeded evidenceDigest =>
    if self.outputValidator.isSome then
      .unknown AdapterExecutionUnknownReason.responseUnverifiable.code
    else .succeeded evidenceDigest.val
  | .succeededWithOutput evidenceDigest output =>
    if (validateToolOutput D output).value?.isSome ∧
        self.outputValidator.any (fun validator => validator.isValid output) = true then
      .succeededWithOutput evidenceDigest.val output
    else .unknown AdapterExecutionUnknownReason.responseUnverifiable.code
  | .failed evidenceDigest => .failed evidenceDigest.val
  | .unknown reason => .unknown reason.code

/-- The answer of the adapter to a reconciliation. -/
def DirectSink.observeReconciliation : AdapterReconciliationObservation → ReconciliationObservation
  | .applied evidenceDigest => .applied evidenceDigest.val
  | .notApplied evidenceDigest => .notApplied evidenceDigest.val
  | .failed evidenceDigest => .failed evidenceDigest.val
  | .inconclusive reason => .inconclusive reason.code

section

variable {ε : Type}

/-- Run a prepared effect and observe it. -/
def DirectSink.execute (D : Digests) (self : DirectSink) (prepared : CorePreparedEffect) :
    Routine ε ExecutionObservation := do
  let observation ← Routine.execute prepared
  pure (self.observeExecution D observation)

/-- Ask the adapter about an effect whose outcome is unknown. -/
def DirectSink.reconcile (self : DirectSink) (intent : EffectIntent) :
    Routine ε ReconciliationObservation := do
  let adapter ← Prog.lift (Outcome.expect self.adapter
    "DirectExecutor supplies an adapter before reconciliation")
  let instance_ ← Prog.lift (Outcome.expect self.reconciliationInstance
    "DirectExecutor supplies an Instance before reconciliation")
  let observation ← Routine.reconcile adapter { intent := intent, instance_ := instance_ }
  pure (observeReconciliation observation)

end

/-! ## The runtime -/

/-- `supports_query`, which the runtime and the executor both define. -/
def SinkGuarantee.supportsQuery : SinkGuarantee → Bool
  | .queryByKey => true
  | .deduplicateAndQuery => true
  | _ => false

/-- `PreparedEffectBinding::from_verified`. -/
def PreparedEffectBinding.fromVerified (state : RunState) (stepId : String) (intent : EffectIntent)
    (materialRecord : InvocationMaterialRecord) : PreparedEffectBinding where
  runId := state.runId
  authority := state.authority
  authorityEpoch := state.authorityEpoch
  journalSequence := state.journalSequence
  journalHeadDigest := state.journalHeadDigest
  stepId := stepId
  effectId := intent.effectId
  materialRecord := materialRecord

/-- The committed intent of a step. -/
def requireIntent (step : StepState) : Outcome RuntimeError EffectIntent :=
  Outcome.okOr step.intent (.intentMissing step.stepId)

/-- A value of an observation must not be empty. -/
def requireObservationValue (observation field value : String) : Outcome RuntimeError String := do
  Outcome.failIf (trimmed value = "") (.invalidSinkObservation observation field)
  pure value

/-- The prepared effect is the one that the intent binds. -/
def verifyPreparedInvocation (D : Digests) (state : RunState) (step : StepState)
    (intent : EffectIntent) (binding : PreparedEffectBinding) : Outcome RuntimeError Unit := do
  Outcome.failIf (binding.runId ≠ state.runId ∨ binding.authority ≠ state.authority ∨
    binding.authorityEpoch ≠ state.authorityEpoch ∨
    binding.journalSequence ≠ state.journalSequence ∨
    binding.journalHeadDigest ≠ state.journalHeadDigest) (.preparedEffectHeadChanged step.stepId)
  Outcome.failIf (binding.stepId ≠ step.stepId ∨ binding.effectId ≠ intent.effectId)
    (.preparedEffectBindingMismatch step.stepId)
  (binding.materialRecord.verifyFor D state.runId step.stepId intent).mapErr
    .preparedMaterialRecordInvalid

/-- `PendingExecutionCommit`: what an observation is going to be committed as. -/
structure PendingExecutionCommit where
  body : RunEventBody
  action : DriveAction
  output : Option ToolOutputRecord

namespace PendingExecutionCommit

/-- The event of a success. -/
def succeeded (step : StepState) (intent : EffectIntent) (evidenceDigest : String)
    (output : Option ToolOutputRecord) : PendingExecutionCommit where
  body := .effectSucceeded step.stepId intent.effectId evidenceDigest
    (output.map ToolOutputRecord.recordDigest)
  action := .effectSucceeded
  output := output

/-- The event of a failure. -/
def failed (step : StepState) (intent : EffectIntent) (evidenceDigest : String) :
    PendingExecutionCommit where
  body := .effectFailed step.stepId intent.effectId evidenceDigest
  action := .effectFailed
  output := none

/-- The event of an unknown outcome. -/
def unknown (step : StepState) (intent : EffectIntent) (reason : String) :
    PendingExecutionCommit where
  body := .effectBecameUnknown step.stepId intent.effectId reason
  action := .effectUnknown
  output := none

end PendingExecutionCommit

/-- A success with a durable output keeps the output with the event. -/
def classifyOutputSuccess (D : Digests) (started : RunState) (step : StepState)
    (intent : EffectIntent) (outputRequired : Bool) (evidenceDigest : String) (output : Json) :
    Outcome RuntimeError PendingExecutionCommit := do
  let evidenceDigest ← requireObservationValue "execution_succeeded" "evidence_digest" evidenceDigest
  let current ← Outcome.okOr started.steps[step.stepId]? (.stepNotFound step.stepId)
  if outputRequired then
    match (ToolOutputRecord.new D started.runId step.stepId intent current.attempts evidenceDigest
      output).value? with
    | some record => pure (.succeeded step intent evidenceDigest (some record))
    | none => pure (.unknown step intent "adapter tool output is invalid")
  else pure (.unknown step intent "adapter returned an unexpected tool output")

/-- The event that an observation is recorded as. -/
def classifyExecutionObservation (D : Digests) (started : RunState) (step : StepState)
    (intent : EffectIntent) (outputRequired : Bool) :
    ExecutionObservation → Outcome RuntimeError PendingExecutionCommit
  | .succeeded evidenceDigest => do
    let evidenceDigest ←
      requireObservationValue "execution_succeeded" "evidence_digest" evidenceDigest
    if outputRequired then pure (.unknown step intent "adapter returned no durable tool output")
    else pure (.succeeded step intent evidenceDigest none)
  | .succeededWithOutput evidenceDigest output =>
    classifyOutputSuccess D started step intent outputRequired evidenceDigest output
  | .failed evidenceDigest => do
    let evidenceDigest ← requireObservationValue "execution_failed" "evidence_digest" evidenceDigest
    pure (.failed step intent evidenceDigest)
  | .unknown reason => do
    let reason ← requireObservationValue "execution_unknown" "reason" reason
    pure (.unknown step intent reason)

/-- What an answer of the sink to a query is committed as. -/
def reconciliationReport (step : StepState) (intent : EffectIntent) :
    ReconciliationObservation → Outcome RuntimeError (RunEventBody × DriveAction)
  | .applied evidenceDigest => do
    let evidenceDigest ←
      requireObservationValue "reconciliation_applied" "evidence_digest" evidenceDigest
    pure (.reconciliationResolved step.stepId intent.effectId .provedApplied evidenceDigest,
      .reconciliationApplied)
  | .notApplied evidenceDigest => do
    let evidenceDigest ←
      requireObservationValue "reconciliation_not_applied" "evidence_digest" evidenceDigest
    pure (.reconciliationResolved step.stepId intent.effectId .provedNotApplied evidenceDigest,
      .reconciliationNotApplied)
  | .failed evidenceDigest => do
    let evidenceDigest ←
      requireObservationValue "reconciliation_failed" "evidence_digest" evidenceDigest
    pure (.reconciliationResolved step.stepId intent.effectId .failed evidenceDigest,
      .reconciliationFailed)
  | .inconclusive reason => do
    let reason ← requireObservationValue "reconciliation_inconclusive" "reason" reason
    pure (.manualInterventionRequired step.stepId intent.effectId reason, .manualRequired)

namespace DurableEffectRuntime

variable (D : Digests) (P : Protocol)

/-- The lease is for the run. -/
def verifyLease (lease : RunLease) (state : RunState) : Outcome RuntimeError Unit :=
  Outcome.failIf (lease.runId ≠ state.runId) (.leaseRunMismatch lease.runId state.runId)

/-- Append one event to the journal with fresh metadata. -/
def appendEvent (state : RunState) (body : RunEventBody) : Routine RuntimeError Commit := do
  let event ← createEvent P .eventFactory .eventMetadata state body
  (Routine.append (.append (.fromState state) event)).mapErr .store

/-- Append one event and report it. -/
def commitReport (state : RunState) (body : RunEventBody) (action : DriveAction) :
    Routine RuntimeError DriveReport := do
  let commit ← appendEvent P state body
  pure { action := action, state := commit.state }

/-- Append one event with its tool output and report it. -/
def commitToolOutputReport (state : RunState) (body : RunEventBody) (action : DriveAction)
    (output : ToolOutputRecord) : Routine RuntimeError DriveReport := do
  let event ← createEvent P .eventFactory .eventMetadata state body
  let commit ← (Routine.append (.withToolOutput (.fromState state) event output)).mapErr .store
  pure { action := action, state := commit.state }

/-- The checks of `execute_intent` that need no operation. -/
def requirePrepared (policy : RuntimePolicy) (state : RunState) (step : StepState)
    (prepared : Option CorePreparedEffect) :
    Outcome RuntimeError (EffectIntent × CorePreparedEffect) := do
  let intent ← requireIntent step
  Outcome.failIf (step.attempts ≥ policy.maxExecutionAttempts)
    (.executionAttemptLimitReached step.stepId step.attempts policy.maxExecutionAttempts)
  let prepared ← Outcome.okOr prepared (.preparedEffectRequired step.stepId)
  verifyPreparedInvocation D state step intent prepared.binding
  pure (intent, prepared)

/-- Execute a prepared effect whose start is committed, and commit its outcome. -/
def executeStarted (sink : DirectSink) (started : RunState) (step : StepState)
    (intent : EffectIntent) (prepared : CorePreparedEffect) : Routine RuntimeError DriveReport := do
  let observation ← sink.execute D prepared
  let outputRequired := decide (intent.toolOutputProfile = some toolOutputProfileV1)
  let pending ← Prog.lift (classifyExecutionObservation D started step intent outputRequired
    observation)
  match pending.output with
  | some output => commitToolOutputReport P started pending.body pending.action output
  | none => commitReport P started pending.body pending.action

/-- Start the effect of an intent, execute it, and record what was seen. -/
def executeIntent (policy : RuntimePolicy) (sink : DirectSink) (state : RunState) (step : StepState)
    (prepared : Option CorePreparedEffect) : Routine RuntimeError DriveReport := do
  let (intent, prepared) ← Prog.lift (requirePrepared D policy state step prepared)
  let found ← (Routine.loadInvocationMaterial intent.effectId).mapErr .store
  let currentRecord ← Prog.lift (Outcome.okOr found
    (.preparedMaterialRecordMissing intent.effectId))
  Prog.lift (Outcome.failIf (currentRecord ≠ prepared.binding.materialRecord)
    (.preparedMaterialRecordChanged step.stepId))
  let started ← appendEvent P state (.effectExecutionStarted step.stepId intent.effectId)
  executeStarted D P sink started.state step intent prepared

/-- An execution that a crash has interrupted has an unknown outcome. -/
def markRecoveredExecutionUnknown (state : RunState) (step : StepState) :
    Routine RuntimeError DriveReport := do
  let intent ← Prog.lift (requireIntent step)
  commitReport P state
    (.effectBecameUnknown step.stepId intent.effectId
      "runtime resumed with no committed effect outcome")
    .executionRecoveredAsUnknown

/-- Ask for the outcome and record what can be proved. -/
def finishReconciliation (sink : DirectSink) (state : RunState) (step : StepState) :
    Routine RuntimeError DriveReport := do
  let intent ← Prog.lift (requireIntent step)
  if intent.sinkGuarantee.supportsQuery then do
    let observation ← sink.reconcile intent
    let (body, action) ← Prog.lift (reconciliationReport step intent observation)
    commitReport P state body action
  else
    commitReport P state
      (.manualInterventionRequired step.stepId intent.effectId
        "reconciliation state has no query-capable sink contract")
      .manualRequired

/-- Record that the outcome is being looked for. -/
def beginReconciliation (sink : DirectSink) (state : RunState) (step : StepState) :
    Routine RuntimeError DriveReport := do
  let intent ← Prog.lift (requireIntent step)
  if intent.sinkGuarantee.supportsQuery then do
    let reconciling ← appendEvent P state (.reconciliationStarted step.stepId intent.effectId)
    let reconcilingStep ← Prog.lift (Outcome.okOr reconciling.state.steps[step.stepId]?
      (.stepNotFound step.stepId))
    finishReconciliation P sink reconciling.state reconcilingStep
  else
    commitReport P state
      (.manualInterventionRequired step.stepId intent.effectId
        "sink cannot query the effect by its stable key; blind retry is disabled")
      .manualRequired

/-- Advance one step from a state: only a committed intent is executed. -/
def driveFrom (policy : RuntimePolicy) (sink : DirectSink) (state : RunState) (step : StepState)
    (prepared : Option CorePreparedEffect) : Routine RuntimeError DriveReport :=
  match step.status with
  | .intentCommitted => executeIntent D P policy sink state step prepared
  | .executing => markRecoveredExecutionUnknown P state step
  | .effectUnknown => beginReconciliation P sink state step
  | .reconciling => finishReconciliation P sink state step
  | .planned | .validating | .completed | .failed | .manualRequired =>
    pure { action := .noAction, state := state }

def driveStep (policy : RuntimePolicy) (sink : DirectSink) (lease : RunLease) (stepId : String)
    (prepared : Option CorePreparedEffect) : Routine RuntimeError DriveReport := do
  let current ← Routine.loadCurrent.mapErr .store
  let state ← Prog.lift (Outcome.okOr current .runNotInitialized)
  Prog.lift (verifyLease lease state)
  let step ← Prog.lift (Outcome.okOr state.steps[stepId]? (.stepNotFound stepId))
  driveFrom D P policy sink state step prepared

end DurableEffectRuntime

/-! ## The executor -/

/-- `receipt_verification_plan_matches`. -/
def receiptVerificationPlanMatches (definition : CapabilityDefinitionBody)
    (provenance : ReceiptProvenance) : Bool :=
  definition.spec.verification.length == provenance.verificationPlan.length &&
    (definition.spec.verification.zip provenance.verificationPlan).all fun rules =>
      rules.1.required == rules.2.required &&
        decide (rules.1.strategy = protocolVerificationStrategy rules.2.strategy)

/-- The effect classes of a receipt profile. -/
def receiptProfileMatches (profileVersion : String) (effectClass : EffectClass) : Bool :=
  if profileVersion = coreReceiptProfileV2 then
    effectClass == .readOnly || effectClass == .idempotent || effectClass == .nonIdempotent
  else
    profileVersion == coreReceiptProfileV1 &&
      (effectClass == .reversible || effectClass == .idempotent || effectClass == .nonIdempotent)

/-- The tool-output profile that comes with a receipt profile. -/
def toolOutputProfileMatches (provenance : ReceiptProvenance) (effectClass : EffectClass) : Bool :=
  receiptProfileMatches provenance.profileVersion effectClass &&
    if provenance.profileVersion = coreReceiptProfileV2 then
      decide (provenance.toolOutputProfile = some toolOutputProfileV1)
    else provenance.toolOutputProfile.isNone

/-- The capability of a committed invocation. -/
def InvocationBinding.capability (self : InvocationBinding) : CapabilityRef where
  capabilityId := self.capabilityId
  contractVersion := self.contractVersion

namespace DirectExecutor

variable (D : Digests) (P : Protocol) (J : Schemas) (H : Host)

/-- The state of the run, which has to exist. -/
def requireCurrentState : Routine DirectExecutorError RunState := do
  let current ← Routine.loadCurrent.mapErr .store
  Prog.lift (Outcome.okOr current .runNotInitialized)

/-- The lease is for the run. -/
def verifyLease (lease : RunLease) (state : RunState) : Outcome DirectExecutorError Unit :=
  Outcome.failIf (lease.runId ≠ state.runId) (.leaseRunMismatch lease.runId state.runId)

/-- The receipt provenance of an intent. -/
def requireProvenance (intent : EffectIntent) : Outcome DirectExecutorError ReceiptProvenance :=
  Outcome.okOr intent.receiptProvenance (.receiptProvenanceUnavailable intent.effectId)

/-- The provenance fits the effect, names the executor of this host, and is the authorized one. -/
def verifyReceiptProvenance (intent : EffectIntent) : Outcome DirectExecutorError Unit := do
  let provenance ← requireProvenance intent
  Outcome.failIf (receiptProfileMatches provenance.profileVersion intent.effectClass = false)
    .unsupportedReceiptProfile
  Outcome.failIf (toolOutputProfileMatches provenance intent.effectClass = false)
    .unsupportedToolOutputProfile
  Outcome.failIf (provenance.inputSummary ≠ coreReceiptInputSummaryV1)
    .receiptProvenanceBindingMismatch
  Outcome.failIf (provenance.executorId ≠ localExecutorId ∨
    provenance.executorPlacement ≠ .localHost ∨
    provenance.executorPlatform ≠ H.localExecutorPlatform) .receiptExecutorProvenanceMismatch
  let expected ← Outcome.okOr intent.authorization.binding.receiptProvenanceDigest
    .receiptProvenanceBindingMismatch
  let actual ← (receiptProvenanceDigest D provenance).mapErr
    fun _ => .receiptProvenanceBindingMismatch
  Outcome.failIf (actual ≠ expected) .receiptProvenanceBindingMismatch

/-- The supplied material is the durable one. -/
def verifyMaterial (state : RunState) (stepId : String) (intent : EffectIntent)
    (material : InvocationMaterial) : Routine DirectExecutorError Unit := do
  Prog.lift ((material.record.verifyFor D state.runId stepId intent).mapErr .materialRecord)
  let found ← (Routine.loadInvocationMaterial intent.effectId).mapErr .store
  let durableRecord ← Prog.lift (Outcome.okOr found (.materialRecordMissing intent.effectId))
  Prog.lift (Outcome.failIf (durableRecord ≠ material.record) .materialRecordChanged)
  let digest ← Prog.lift ((invocationMaterialDigest D material.normalizedArguments).mapErr
    .materialRecord)
  Prog.lift (Outcome.failIf (digest ≠ material.record.materialDigest) .materialDigestMismatch)

/-- The definition of an intent, which has to be registered still. -/
def requireDefinition (registry : CapabilityRegistry) (intent : EffectIntent) :
    Outcome DirectExecutorError CapabilityDefinitionBody :=
  Outcome.okOr (registry.definition intent.invocation.capability)
    (.definitionNotFound intent.invocation.capabilityId intent.invocation.contractVersion)

/-- The instance of an intent is registered and has not changed. -/
def verifyCurrentInstance (registry : CapabilityRegistry) (intent : EffectIntent) :
    Outcome DirectExecutorError CapabilityInstanceBody := do
  let definition ← requireDefinition registry intent
  let definitionDigest ← (definitionContractDigest D definition).mapErr .admission
  Outcome.failIf (definitionDigest ≠ intent.invocation.definitionDigest) .definitionChanged
  let provenance ← requireProvenance intent
  Outcome.failIf (receiptVerificationPlanMatches definition provenance = false)
    .receiptVerificationPlanMismatch
  let instance_ ← Outcome.okOr (registry.instance? intent.invocation.instanceId)
    (.instanceNotFound intent.invocation.instanceId)
  Outcome.failIf (instance_.definition ≠ intent.invocation.capability) .instanceBindingChanged
  let bindingDigest ← (executableBindingDigest D instance_).mapErr .admission
  Outcome.failIf (bindingDigest ≠ intent.invocation.instanceBindingDigest) .instanceBindingChanged
  pure instance_

/-- The instance is local, available, and needs no credentials. -/
def verifyDynamicExecutionGate (instance_ : CapabilityInstanceBody) :
    Outcome DirectExecutorError Unit := do
  Outcome.failIf (instance_.placement ≠ .localHost)
    (.unsupportedExecutorPlacement instance_.placement)
  Outcome.failIf (instance_.health.status ≠ .available)
    (.instanceNotAvailable instance_.health.status)
  Outcome.failIf (instance_.auth.state ≠ .notRequired ∨ instance_.auth.authRef.isSome)
    .credentialWitnessUnavailable

/-- The validator of the output schema, for an intent that keeps its output. -/
def buildToolOutputValidator (registry : CapabilityRegistry) (intent : EffectIntent) :
    Outcome DirectExecutorError (Option Validator) :=
  if intent.toolOutputProfile = some toolOutputProfileV1 then do
    let definition ← requireDefinition registry intent
    let validator ← Outcome.okOr (J.build definition.spec.outputSchema) .toolOutputSchemaInvalid
    pure (some validator)
  else pure none

/-- The key of a registered adapter for an instance. -/
def registeredAdapter (adapters : EffectAdapterRegistry) (instance_ : CapabilityInstanceBody) :
    Outcome DirectExecutorError AdapterBindingKey := do
  let key ← (AdapterBindingKey.fromBinding instance_.binding).mapErr .adapterRegistry
  Outcome.failIf (key ∉ adapters.keys) (.adapterNotRegistered instance_.instanceId)
  pure key

/-- A state of the step for which no adapter is needed. -/
def driveWithoutAdapter (policy : RuntimePolicy) (lease : RunLease) (stepId : String) :
    Routine DirectExecutorError DriveReport :=
  (DurableEffectRuntime.driveStep D P policy .withoutAdapter lease stepId none).mapErr .runtime

/-- The checks on a committed intent before its material. -/
def requireAttempt (policy : RuntimePolicy) (stepId : String) (step : StepState)
    (material : Option InvocationMaterial) :
    Outcome DirectExecutorError (EffectIntent × InvocationMaterial) := do
  let intent ← Outcome.okOr step.intent (.intentMissing stepId)
  verifyReceiptProvenance D H intent
  Outcome.failIf (step.attempts ≥ policy.maxExecutionAttempts)
    (.runtime (.executionAttemptLimitReached stepId step.attempts policy.maxExecutionAttempts))
  let material ← Outcome.okOr material (.materialRequired stepId)
  pure (intent, material)

/-- The instance that executes, its validator and its adapter. -/
def executionTarget (capabilities : CapabilityRegistry) (adapters : EffectAdapterRegistry)
    (intent : EffectIntent) :
    Outcome DirectExecutorError
      (CapabilityInstanceBody × Option Validator × AdapterBindingKey) := do
  let instance_ ← verifyCurrentInstance D capabilities intent
  verifyDynamicExecutionGate instance_
  let outputValidator ← buildToolOutputValidator J capabilities intent
  let adapterKey ← registeredAdapter adapters instance_
  pure (instance_, outputValidator, adapterKey)

/-- A step whose intent is committed and not yet started. -/
def driveCommittedIntent (policy : RuntimePolicy) (lease : RunLease)
    (capabilities : CapabilityRegistry) (adapters : EffectAdapterRegistry) (state : RunState)
    (stepId : String) (step : StepState) (material : Option InvocationMaterial) :
    Routine DirectExecutorError DriveReport := do
  let (intent, material) ← Prog.lift (requireAttempt D H policy stepId step material)
  verifyMaterial D state stepId intent material
  let (instance_, outputValidator, adapterKey) ← Prog.lift (executionTarget D J capabilities
    adapters intent)
  let invocation ← (Routine.prepare adapterKey
    { intent := intent
      instance_ := instance_
      normalizedArguments := material.normalizedArguments }).mapErr .adapterPrepare
  let prepared : CorePreparedEffect :=
    { binding := .fromVerified state stepId intent material.record
      adapterKey := adapterKey
      invocation := invocation }
  let sink : DirectSink :=
    { adapter := none
      reconciliationInstance := none
      outputValidator := outputValidator }
  (DurableEffectRuntime.driveStep D P policy sink lease stepId (some prepared)).mapErr .runtime

/-- The instance that is asked, and its adapter. -/
def reconciliationTarget (capabilities : CapabilityRegistry) (adapters : EffectAdapterRegistry)
    (intent : EffectIntent) :
    Outcome DirectExecutorError (CapabilityInstanceBody × AdapterBindingKey) := do
  let instance_ ← verifyCurrentInstance D capabilities intent
  verifyDynamicExecutionGate instance_
  let key ← registeredAdapter adapters instance_
  pure (instance_, key)

/-- A step whose outcome is unknown. -/
def driveUnknownEffect (policy : RuntimePolicy) (lease : RunLease)
    (capabilities : CapabilityRegistry) (adapters : EffectAdapterRegistry) (stepId : String)
    (step : StepState) : Routine DirectExecutorError DriveReport := do
  let intent ← Prog.lift (Outcome.okOr step.intent (.intentMissing stepId))
  Prog.lift (verifyReceiptProvenance D H intent)
  if intent.sinkGuarantee.supportsQuery then do
    let (instance_, key) ← Prog.lift (reconciliationTarget D capabilities adapters intent)
    let sink : DirectSink :=
      { adapter := some key
        reconciliationInstance := some instance_
        outputValidator := none }
    (DurableEffectRuntime.driveStep D P policy sink lease stepId none).mapErr .runtime
  else driveWithoutAdapter D P policy lease stepId

/-- What a step is driven to, by the status that it is found with. -/
def driveFrom (policy : RuntimePolicy) (lease : RunLease) (capabilities : CapabilityRegistry)
    (adapters : EffectAdapterRegistry) (state : RunState) (stepId : String) (step : StepState)
    (material : Option InvocationMaterial) : Routine DirectExecutorError DriveReport :=
  match step.status with
  | .intentCommitted =>
    driveCommittedIntent D P J H policy lease capabilities adapters state stepId step material
  | .effectUnknown | .reconciling =>
    driveUnknownEffect D P H policy lease capabilities adapters stepId step
  | .executing | .planned | .validating | .completed | .failed | .manualRequired =>
    driveWithoutAdapter D P policy lease stepId

def driveStep (policy : RuntimePolicy) (lease : RunLease) (capabilities : CapabilityRegistry)
    (adapters : EffectAdapterRegistry) (stepId : String) (material : Option InvocationMaterial) :
    Routine DirectExecutorError DriveReport := do
  let state ← requireCurrentState
  Prog.lift (verifyLease lease state)
  let step ← Prog.lift (Outcome.okOr state.steps[stepId]? (.stepNotFound stepId))
  driveFrom D P J H policy lease capabilities adapters state stepId step material

end DirectExecutor

end Xgeny
