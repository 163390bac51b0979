import Xgeny.Text
import Xgeny.Lib.KeyedMap

set_option autoImplicit false

/-!
# Journal events

The vocabulary of a run journal: the facts bound by an effect intent, the facts bound by a model
call, the planned invocations of an accepted plan, the 21 event bodies, and the hash-chained
record that carries one event.

Records of the journal arrive from storage, so every field is free here; the reducer and the
`validate` functions decide which values are accepted.
-/

namespace Xgeny

/-! ## Effect intents -/

inductive ReceiptPlacement where
  | localHost
  | device
  | remote
  deriving DecidableEq

inductive ReceiptVerificationStrategy where
  | outputSchema
  | postcondition
  | artifactDigest
  | receipt
  | human
  deriving DecidableEq

structure ReceiptVerificationRule where
  strategy : ReceiptVerificationStrategy
  required : Bool
  deriving DecidableEq

/-- The secret-free facts from which a receipt is built after a restart. -/
structure ReceiptProvenance where
  profileVersion : String
  toolOutputProfile : Option String
  invocationId : String
  planId : String
  policyDecisionId : String
  policyDecisionDigest : String
  executorId : String
  executorPlacement : ReceiptPlacement
  executorPlatform : String
  inputSummary : String
  verificationPlan : List ReceiptVerificationRule
  deriving DecidableEq

/-- The final verification result bound to one persisted receipt. -/
inductive VerificationDisposition where
  | passed
  | failed
  | inconclusive
  deriving DecidableEq

/-- The executable endpoint selected for an effect. -/
structure InvocationBinding where
  capabilityId : String
  contractVersion : String
  definitionDigest : String
  instanceId : String
  instanceBindingDigest : String
  deriving DecidableEq

inductive EffectClass where
  | readOnly
  | reversible
  | idempotent
  | nonIdempotent
  deriving DecidableEq

inductive SinkGuarantee where
  | none
  | deduplicateByKey
  | queryByKey
  | deduplicateAndQuery
  deriving DecidableEq

/-- The run-local facts covered by one authorization digest. -/
structure AuthorizationBinding where
  runId : String
  stepId : String
  authority : String
  authorityEpoch : UInt64
  issuedAtSequence : UInt64
  issuedAtHeadDigest : String
  capabilityId : String
  contractVersion : String
  definitionDigest : String
  instanceId : String
  instanceBindingDigest : String
  actionDigest : String
  materialDigest : String
  materialRetentionDigest : String
  policyEvidenceDigest : String
  receiptProvenanceDigest : Option String
  deriving DecidableEq

structure AuthorizationUse where
  grantId : String
  grantDigest : String
  maxUses : UInt32
  binding : AuthorizationBinding
  deriving DecidableEq

structure EffectIntent where
  effectId : String
  actionDigest : String
  invocation : InvocationBinding
  effectClass : EffectClass
  idempotencyKey : Option String
  sinkGuarantee : SinkGuarantee
  authorization : AuthorizationUse
  receiptProvenance : Option ReceiptProvenance
  deriving DecidableEq

inductive ReconciliationResolution where
  | provedApplied
  | provedNotApplied
  | failed
  deriving DecidableEq

inductive InvocationMaterialUnavailableReason where
  | ephemeralMaterialLost
  | referenceUnavailable
  | referenceChanged
  | adapterBindingUnavailable
  | credentialBindingChanged
  | unsupportedMaterialVersion
  deriving DecidableEq

/-- The code recorded with a step whose material is lost. -/
def InvocationMaterialUnavailableReason.code : InvocationMaterialUnavailableReason → String
  | .ephemeralMaterialLost => "ephemeral_material_lost"
  | .referenceUnavailable => "reference_unavailable"
  | .referenceChanged => "reference_changed"
  | .adapterBindingUnavailable => "adapter_binding_unavailable"
  | .credentialBindingChanged => "credential_binding_changed"
  | .unsupportedMaterialVersion => "unsupported_material_version"

/-- `TOOL_OUTPUT_PROFILE_V1`. -/
def toolOutputProfileV1 : String := "xgeny.tool-output/v1"

/-- The tool-output profile of an intent, when it has one. -/
def EffectIntent.toolOutputProfile (intent : EffectIntent) : Option String :=
  intent.receiptProvenance.bind ReceiptProvenance.toolOutputProfile

/-! ## Model calls and accepted plans -/

/-- The upper bound on model-call reservations. -/
structure ModelCallBudget where
  maxModelCalls : UInt32
  deriving DecidableEq

/-- One possible outbound planner request, bound to an exact run head. -/
structure ModelCallReservation where
  formatVersion : UInt32
  callId : String
  plannerId : String
  callIndex : UInt32
  turnIndex : UInt32
  baseSequence : UInt64
  baseHeadDigest : String
  contextDigest : String
  requestDigest : String
  deriving DecidableEq

inductive ModelCallUnknownReason where
  | timeout
  | transportUnavailable
  | interrupted
  deriving DecidableEq

inductive ModelCallRejectionReason where
  | plannerInvalidResponse
  | providerLimit
  | requestTooLarge
  | rateLimited
  | outputTruncated
  | providerRejected
  | proposalRejected
  | materializationFailed
  | staleHead
  deriving DecidableEq

inductive ModelCallAbandonmentReason where
  | recoveryDiscarded
  deriving DecidableEq

inductive ModelCallSettlement where
  | rejected (reason : ModelCallRejectionReason)
  | abandoned (reason : ModelCallAbandonmentReason)
  deriving DecidableEq

/-- The limits of the model-owned part of a run. -/
structure AgentLoopBudget where
  maxModelTurns : UInt32
  maxPlannedSteps : UInt32
  maxToolCalls : UInt32
  maxContextBytes : UInt64
  deriving DecidableEq

/-- The host-owned binding of one accepted planner decision. -/
structure ExpectedPlanningTurn where
  turnIndex : UInt32
  modelCallId : Option String
  contextDigest : String
  proposalDigest : String
  deriving DecidableEq

inductive PlannedExecutionProfile where
  | localSyncOnceV1
  | localSyncReadOnlyV1
  | localSyncOnceOccurrenceV1
  | localSyncReadOnlyOccurrenceV1
  deriving DecidableEq

/-- The semantic facts of a planned invocation. -/
structure PlannedInvocationSpec where
  capabilityId : String
  contractVersion : String
  definitionDigest : String
  actionDigest : String
  planInputDigest : String
  executionProfile : PlannedExecutionProfile
  targetOs : String
  targetArch : String
  deriving DecidableEq

/-- The journal-safe binding between an accepted step and its future admission input. -/
structure PlannedInvocationBinding where
  formatVersion : UInt32
  planId : String
  proposalDigest : String
  capabilityId : String
  contractVersion : String
  definitionDigest : String
  actionDigest : String
  planInputDigest : String
  executionProfile : PlannedExecutionProfile
  targetOs : String
  targetArch : String
  specDigest : String
  planInputRecordDigest : String
  deriving DecidableEq

structure AcceptedPlanStep where
  stepId : String
  objective : String
  dependsOn : List String
  invocation : PlannedInvocationBinding
  deriving DecidableEq

/-! ## Steps -/

inductive StepStatus where
  | planned
  | intentCommitted
  | executing
  | effectUnknown
  | reconciling
  | validating
  | completed
  | failed
  | manualRequired
  deriving DecidableEq

/-! ## Events and records -/

inductive RunEventBody where
  | runCreated (goal : String)
  | agentLoopConfigured (budget : AgentLoopBudget)
  | modelCallLifecycleConfigured (budget : ModelCallBudget)
  | modelCallReserved (reservation : ModelCallReservation)
  | modelCallBecameUnknown (callId : String) (reason : ModelCallUnknownReason)
  | modelCallSettled (callId : String) (settlement : ModelCallSettlement)
  | planAccepted (decision : ExpectedPlanningTurn) (steps : List AcceptedPlanStep)
  | completionCandidateRecorded (decision : ExpectedPlanningTurn) (candidateId summaryDigest : String)
      (completionOutputRecordDigest : Option String)
  | stepPlanned (stepId objective : String) (dependsOn : List String)
  | effectIntentCommitted (stepId : String) (intent : EffectIntent)
  | invocationMaterialUnavailable (stepId effectId : String)
      (reason : InvocationMaterialUnavailableReason)
  | effectExecutionStarted (stepId effectId : String)
  | effectSucceeded (stepId effectId evidenceDigest : String) (outputRecordDigest : Option String)
  | effectFailed (stepId effectId evidenceDigest : String)
  | effectBecameUnknown (stepId effectId reason : String)
  | reconciliationStarted (stepId effectId : String)
  | reconciliationResolved (stepId effectId : String) (resolution : ReconciliationResolution)
      (evidenceDigest : String)
  | manualInterventionRequired (stepId effectId reason : String)
  | verificationPassed (stepId : String)
  | verificationFailed (stepId reason : String)
  | verificationRecorded (stepId effectId : String) (disposition : VerificationDisposition)
      (receiptId receiptDigest : String)
  deriving DecidableEq

/-- The name of an event body in error messages. -/
def RunEventBody.kind : RunEventBody → String
  | .runCreated .. => "run_created"
  | .agentLoopConfigured .. => "agent_loop_configured"
  | .modelCallLifecycleConfigured .. => "model_call_lifecycle_configured"
  | .modelCallReserved .. => "model_call_reserved"
  | .modelCallBecameUnknown .. => "model_call_became_unknown"
  | .modelCallSettled .. => "model_call_settled"
  | .planAccepted .. => "plan_accepted"
  | .completionCandidateRecorded .. => "completion_candidate_recorded"
  | .stepPlanned .. => "step_planned"
  | .effectIntentCommitted .. => "effect_intent_committed"
  | .invocationMaterialUnavailable .. => "invocation_material_unavailable"
  | .effectExecutionStarted .. => "effect_execution_started"
  | .effectSucceeded .. => "effect_succeeded"
  | .effectFailed .. => "effect_failed"
  | .effectBecameUnknown .. => "effect_became_unknown"
  | .reconciliationStarted .. => "reconciliation_started"
  | .reconciliationResolved .. => "reconciliation_resolved"
  | .manualInterventionRequired .. => "manual_intervention_required"
  | .verificationPassed .. => "verification_passed"
  | .verificationFailed .. => "verification_failed"
  | .verificationRecorded .. => "verification_recorded"

structure RunEvent where
  eventId : String
  runId : String
  authority : String
  authorityEpoch : UInt64
  recordedAt : String
  body : RunEventBody
  deriving DecidableEq

/-- One link of the hash chain. -/
structure EventRecord where
  sequence : UInt64
  previousDigest : Option String
  event : RunEvent
  digest : String
  deriving DecidableEq

end Xgeny
