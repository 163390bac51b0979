import Xgeny.Runtime.Executor
import Xgeny.Store.Snapshots
import Xgeny.Verification.Report

set_option autoImplicit false

/-!
# The verification runner

A step whose effect has been observed is verified by a read-only verifier. The runner checks that
the intent, the definition and the instance are still the committed ones, asks the verifier, and
commits a receipt together with the event that finishes the step.

* `verifyStep`: the checks and the question to the verifier;
* `buildExecutionReceipt`: the receipt, field by field;
* `VerificationRunner.decide`, `VerificationRunner.driveStep`: what is committed, and the commit.
-/

namespace Xgeny

/-! ## Verifiers -/

/-- A read-only verification request assembled from durable state. -/
structure VerificationRequest where
  intent : EffectIntent
  definition : CapabilityDefinitionBody
  instance_ : CapabilityInstanceBody
  outcomeEvidenceDigest : AdapterEvidenceDigest
  toolOutput : Option ToolOutputRecord

inductive VerificationPortFailure where
  | unavailable
  | unsupportedStrategy
  | evidenceUnavailable
  | responseUnverifiable
  deriving DecidableEq

/-- An `EffectVerifier`, by its answers. -/
abbrev EffectVerifier := VerificationRequest → Except VerificationPortFailure VerificationReport

/-- The registered verifiers by their keys. -/
structure EffectVerifierRegistry where
  verifier : AdapterBindingKey → Option EffectVerifier

inductive VerificationRunnerError where
  | store (error : StoreError)
  | eventFactory (error : EventFactoryError)
  | eventMetadata
  | admission (error : AdmissionError)
  | protocol (error : ProtocolError)
  | verifier (failure : VerificationPortFailure)
  | evidenceDigest
  | runNotInitialized
  | stepNotFound (stepId : String)
  | stepNotValidating (stepId : String) (actual : StepStatus)
  | intentMissing (stepId : String)
  | receiptProvenanceMissing (effectId : String)
  | unsupportedReceiptProfile
  | unsupportedToolOutputProfile
  | receiptProvenanceBindingMismatch
  | effectEvidenceMissing (effectId : String)
  | definitionNotFound (capabilityId contractVersion : String)
  | definitionChanged
  | instanceNotFound (instanceId : String)
  | instanceBindingChanged
  | invalidVerifierBinding
  | verifierNotRegistered (instanceId : String)
  | verificationPlanChanged
  | verificationReportMismatch
  | toolOutputMismatch
  | effectStartMissing (effectId : String)
  | leaseRunMismatch (leaseRunId stateRunId : String)
  deriving DecidableEq

/-! ## Verifying a step -/

structure VerifiedStep where
  intent : EffectIntent
  provenance : ReceiptProvenance
  report : VerificationReport
  outcome : CoreVerificationOutcome
  verification : List VerificationEvidence

/-- The disposition of a verified step is that of its outcome. -/
def VerifiedStep.disposition (self : VerifiedStep) : VerificationDisposition :=
  self.outcome.disposition

def verifyReportProfile (intent : EffectIntent) (provenance : ReceiptProvenance)
    (report : VerificationReport) : Outcome VerificationRunnerError Unit :=
  Outcome.failIf
    (¬ if provenance.profileVersion = coreReceiptProfileV1 then report.artifacts.isEmpty = true
      else provenance.profileVersion = coreReceiptProfileV2 ∧
        (intent.effectClass = .readOnly ∨ intent.effectClass = .idempotent ∨
          intent.effectClass = .nonIdempotent) ∧ report.artifacts.isEmpty = false)
    .verificationReportMismatch

/-- The evidence that an observation becomes under the rule of the durable plan. -/
def RuleVerificationObservation.evidence (observed : RuleVerificationObservation)
    (rule : ReceiptVerificationRule) : VerificationEvidence where
  strategy := protocolVerificationStrategy rule.strategy
  required := rule.required
  result := observed.result
  summary := coreVerificationSummaryV1 observed.result
  evidenceDigest := observed.evidenceDigest.map Subtype.val
  artifact := none

/-- One iteration of `verify_report`. -/
def verifyReportRule (evidence : List VerificationEvidence)
    (pair : RuleVerificationObservation × ReceiptVerificationRule) :
    Outcome VerificationRunnerError (List VerificationEvidence) := do
  Outcome.failIf (pair.1.strategy ≠ protocolVerificationStrategy pair.2.strategy ∨
    (pair.1.result = .passed ∧ pair.1.evidenceDigest = none)) .verificationReportMismatch
  pure (evidence ++ [pair.1.evidence pair.2])

def verifyReport (provenance : ReceiptProvenance) (report : VerificationReport) :
    Outcome VerificationRunnerError (CoreVerificationOutcome × List VerificationEvidence) := do
  Outcome.failIf (report.rules.length ≠ provenance.verificationPlan.length)
    .verificationReportMismatch
  let evidence ← Outcome.foldl verifyReportRule []
    (report.rules.zip provenance.verificationPlan)
  pure (evaluateCoreVerificationV1 evidence, evidence)

/-- The output that the verifier has seen is the durable one. -/
def verifyReportOutput (provenance : ReceiptProvenance) (toolOutput : Option ToolOutputRecord)
    (report : VerificationReport) : Outcome VerificationRunnerError Unit :=
  match provenance.toolOutputProfile, toolOutput with
  | some profile, some output =>
    Outcome.failIf (¬ (profile = toolOutputProfileV1 ∧ report.outputDigest.val = output.outputDigest))
      .toolOutputMismatch
  | none, none => pure ()
  | _, _ => Outcome.fail .toolOutputMismatch

/-- The checks of `verify_step` on the provenance of an intent. -/
def verifyProvenance (D : Digests) (intent : EffectIntent) :
    Outcome VerificationRunnerError ReceiptProvenance := do
  let provenance ← Outcome.okOr intent.receiptProvenance (.receiptProvenanceMissing intent.effectId)
  Outcome.failIf (receiptProfileMatches provenance.profileVersion intent.effectClass = false)
    .unsupportedReceiptProfile
  Outcome.failIf (toolOutputProfileMatches provenance intent.effectClass = false)
    .unsupportedToolOutputProfile
  Outcome.failIf (provenance.inputSummary ≠ coreReceiptInputSummaryV1)
    .receiptProvenanceBindingMismatch
  let expected ← Outcome.okOr intent.authorization.binding.receiptProvenanceDigest
    .receiptProvenanceBindingMismatch
  let actual ← (receiptProvenanceDigest D provenance).mapErr
    fun _ => .receiptProvenanceBindingMismatch
  Outcome.failIf (actual ≠ expected) .receiptProvenanceBindingMismatch
  pure provenance

def verifyCurrentDefinition (D : Digests) (registry : CapabilityRegistry) (intent : EffectIntent) :
    Outcome VerificationRunnerError CapabilityDefinitionBody := do
  let definition ← Outcome.okOr (registry.definition intent.invocation.capability)
    (.definitionNotFound intent.invocation.capabilityId intent.invocation.contractVersion)
  let digest ← (definitionContractDigest D definition).mapErr .admission
  Outcome.failIf (digest ≠ intent.invocation.definitionDigest) .definitionChanged
  pure definition

def verifyCurrentInstance (D : Digests) (registry : CapabilityRegistry) (intent : EffectIntent) :
    Outcome VerificationRunnerError CapabilityInstanceBody := do
  let instance_ ← Outcome.okOr (registry.instance? intent.invocation.instanceId)
    (.instanceNotFound intent.invocation.instanceId)
  Outcome.failIf (instance_.definition ≠ intent.invocation.capability) .instanceBindingChanged
  let digest ← (executableBindingDigest D instance_).mapErr .admission
  Outcome.failIf (digest ≠ intent.invocation.instanceBindingDigest) .instanceBindingChanged
  pure instance_

/-- The outcome of the effect, as its adapter or its reconciliation has attested it. -/
def outcomeEvidence (step : StepState) (intent : EffectIntent) :
    Outcome VerificationRunnerError AdapterEvidenceDigest := do
  let evidence ← Outcome.okOr (step.effectEvidenceDigest <|> step.reconciliationEvidenceDigest)
    (.effectEvidenceMissing intent.effectId)
  if h : isSha256Digest evidence = true then pure ⟨evidence, h⟩ else Outcome.fail .evidenceDigest

/-- The answer of the verifier that is registered for an instance. -/
def askVerifier (verifiers : EffectVerifierRegistry) (request : VerificationRequest) :
    Outcome VerificationRunnerError VerificationReport := do
  let key ← (AdapterBindingKey.fromBinding request.instance_.binding).mapErr
    fun _ => .invalidVerifierBinding
  let verifier ← Outcome.okOr (verifiers.verifier key)
    (.verifierNotRegistered request.instance_.instanceId)
  match verifier request with
  | .ok report => pure report
  | .error failure => Outcome.fail (.verifier failure)

def verifyStep (D : Digests) (step : StepState) (toolOutput : Option ToolOutputRecord)
    (capabilities : CapabilityRegistry) (verifiers : EffectVerifierRegistry) :
    Outcome VerificationRunnerError VerifiedStep := do
  let intent ← Outcome.okOr step.intent (.intentMissing step.stepId)
  let provenance ← verifyProvenance D intent
  let definition ← verifyCurrentDefinition D capabilities intent
  Outcome.failIf (receiptVerificationPlanMatches definition provenance = false)
    .verificationPlanChanged
  let instance_ ← verifyCurrentInstance D capabilities intent
  let evidence ← outcomeEvidence step intent
  let report ← askVerifier verifiers
    { intent := intent
      definition := definition
      instance_ := instance_
      outcomeEvidenceDigest := evidence
      toolOutput := toolOutput }
  verifyReportProfile intent provenance report
  verifyReportOutput provenance toolOutput report
  let (outcome, verification) ← verifyReport provenance report
  pure
    { intent := intent
      provenance := provenance
      report := report
      outcome := outcome
      verification := verification }

/-! ## The receipt -/

/-- `EMPTY_RECEIPT_DIGEST`. -/
def emptyReceiptDigest : String :=
  "sha256:0000000000000000000000000000000000000000000000000000000000000000"

/-- The artifact of a descriptor, with the provenance that the core attaches. -/
def VerifiedArtifactDescriptor.artifactRef (self : VerifiedArtifactDescriptor)
    (runId stepId receiptId : String) : ArtifactRef where
  artifactId := self.artifactId
  name := self.name
  mediaType := self.mediaType
  size := self.size
  digest := self.digest
  provenance := some { runId := runId, stepId := stepId, receiptId := some receiptId }
  extensions := ∅
  requiredExtensions := []

/-- The receipt before its digest is known. -/
def receiptDraft (state : RunState) (stepId startedAt endedAt : String)
    (previousReceiptDigest : Option String) (verified : VerifiedStep) : ExecutionReceiptBody :=
  let intent := verified.intent
  let provenance := verified.provenance
  let receiptId := coreReceiptIdV1 intent.effectId
  { apiVersion := apiVersionV1alpha1
    extensions := ∅
    requiredExtensions := []
    receiptId := receiptId
    runId := state.runId
    stepId := stepId
    invocationId := provenance.invocationId
    planId := provenance.planId
    capability := intent.invocation.capability
    instanceId := intent.invocation.instanceId
    inputDigest := intent.authorization.binding.materialDigest
    inputSummary := provenance.inputSummary
    policy :=
      { decisionId := provenance.policyDecisionId
        decisionDigest := provenance.policyDecisionDigest
        leaseId := none
        leaseDigest := none }
    executor :=
      { id := provenance.executorId
        placement := protocolPlacement provenance.executorPlacement
        platform := provenance.executorPlatform }
    effect :=
      { class_ := protocolEffectClass intent.effectClass
        started := true
        startedAt := some startedAt
        idempotencyKey := intent.idempotencyKey }
    status := coreReceiptStatusV1 verified.outcome
    startedAt := startedAt
    endedAt := endedAt
    outputDigest := verified.report.outputDigest.val
    artifacts := verified.report.artifacts.map fun artifact =>
      artifact.artifactRef state.runId stepId receiptId
    verification := verified.verification
    redactionsApplied := coreReceiptRedactionsV1
    previousReceiptDigest := previousReceiptDigest
    receiptDigest := emptyReceiptDigest }

/-- The digest of a receipt without its digest field. -/
def executionReceiptDigest (D : Digests) (receipt : ExecutionReceiptBody) :
    Outcome VerificationRunnerError String :=
  (D.digest (.executionReceipt { receipt with receiptDigest := "" })
    ProtocolError.canonicalization).mapErr .protocol

def buildExecutionReceipt (D : Digests) (P : Protocol) (state : RunState)
    (stepId startedAt endedAt : String) (previousReceiptDigest : Option String)
    (verified : VerifiedStep) : Outcome VerificationRunnerError ExecutionReceiptBody := do
  let draft := receiptDraft state stepId startedAt endedAt previousReceiptDigest verified
  let digest ← executionReceiptDigest D draft
  let receipt := { draft with receiptDigest := digest }
  (validateExecutionReceipt D P receipt).mapErr .protocol
  pure receipt

/-! ## The runner -/

/-- The action that reports a disposition. -/
def VerificationDisposition.action : VerificationDisposition → DriveAction
  | .passed => .verificationPassed
  | .failed => .verificationFailed
  | .inconclusive => .verificationInconclusive

namespace VerificationRunner

variable (D : Digests) (P : Protocol)

def verifyLease (lease : RunLease) (state : RunState) : Outcome VerificationRunnerError Unit :=
  Outcome.failIf (lease.runId ≠ state.runId) (.leaseRunMismatch lease.runId state.runId)

/-- What a pass over one step comes to: nothing, or a receipt with the event that finishes the
step. -/
inductive Decision where
  | noAction (state : RunState)
  | finalize (state : RunState) (event : RunEvent) (receipt : ExecutionReceiptBody)
      (disposition : VerificationDisposition)

/-- The event that a receipt finishes its step with. -/
def finalization (state : RunState) (stepId : String) (metadata : EventMetadata)
    (verified : VerifiedStep) (receipt : ExecutionReceiptBody) : RunEvent :=
  state.event metadata
    (.verificationRecorded stepId verified.intent.effectId verified.disposition receipt.receiptId
      receipt.receiptDigest)

/-- The verification of a step that is `Validating`, up to the append. -/
def finalize (events : RunState → Except EventFactoryError EventMetadata)
    (capabilities : CapabilityRegistry) (verifiers : EffectVerifierRegistry) (stepId : String)
    (snapshot : RunVerificationSnapshot) (step : StepState) :
    Outcome VerificationRunnerError Decision := do
  let verified ← verifyStep D step snapshot.toolOutput capabilities verifiers
  let metadata ← match events snapshot.state with
    | .ok metadata => pure metadata
    | .error error => Outcome.fail (.eventFactory error)
  Outcome.failIf (P.rfc3339 metadata.recordedAt = none) .eventMetadata
  let startedAt ← Outcome.okOr snapshot.effectStartedAt
    (.effectStartMissing verified.intent.effectId)
  let receipt ← buildExecutionReceipt D P snapshot.state stepId startedAt metadata.recordedAt
    snapshot.previousReceiptDigest verified
  pure (.finalize snapshot.state (finalization snapshot.state stepId metadata verified receipt)
    receipt verified.disposition)

/-- Everything of `drive_step` that comes before the append. -/
def decide (store : MemoryRunStore) (events : RunState → Except EventFactoryError EventMetadata)
    (lease : RunLease) (capabilities : CapabilityRegistry) (verifiers : EffectVerifierRegistry)
    (stepId : String) : Outcome VerificationRunnerError Decision := do
  let loaded ← (store.loadVerificationSnapshot D stepId).mapErr .store
  let snapshot ← Outcome.okOr loaded .runNotInitialized
  verifyLease lease snapshot.state
  let step ← Outcome.okOr snapshot.state.steps[stepId]? (.stepNotFound stepId)
  match step.status with
  | .completed | .failed | .manualRequired => pure (.noAction snapshot.state)
  | .validating => finalize D P events capabilities verifiers stepId snapshot step
  | actual => Outcome.fail (.stepNotValidating stepId actual)

def driveStep (store : MemoryRunStore) (events : RunState → Except EventFactoryError EventMetadata)
    (lease : RunLease) (capabilities : CapabilityRegistry) (verifiers : EffectVerifierRegistry)
    (stepId : String) : Outcome VerificationRunnerError (DriveReport × MemoryRunStore) := do
  match ← decide D P store events lease capabilities verifiers stepId with
  | .noAction state => pure ({ action := .noAction, state := state }, store)
  | .finalize state event receipt disposition => do
    let (commit, store) ← (store.appendWithExecutionReceipt D P (.fromState state) event
      receipt).mapErr .store
    pure ({ action := disposition.action, state := commit.state }, store)

end VerificationRunner

end Xgeny
