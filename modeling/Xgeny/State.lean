import Xgeny.Planning
import Xgeny.Lib.KeyedMap

set_option autoImplicit false

/-!
# Run state

The projection of a journal: the steps with their statuses, the consumed authorizations and the
agent loop with its model-call slot, and the errors of a transition.

* `receiptReleasesDependency`: a step that releases what depends on it;
* `dependencyReleaseBlockReason`, `blockerReason`: why a step does not.
-/

namespace Xgeny

/-! ## Steps -/

structure StepState where
  stepId : String
  objective : String
  dependsOn : List String
  plannedInvocation : Option PlannedInvocationBinding
  status : StepStatus
  attempts : UInt32
  intent : Option EffectIntent
  effectEvidenceDigest : Option String
  outputRecordDigest : Option String
  executionReceiptId : Option String
  executionReceiptDigest : Option String
  uncertaintyReason : Option String
  reconciliationEvidenceDigest : Option String
  deriving DecidableEq

/-- A step as it enters the graph. -/
def StepState.fresh (stepId objective : String) (dependsOn : List String)
    (plannedInvocation : Option PlannedInvocationBinding) : StepState where
  stepId := stepId
  objective := objective
  dependsOn := dependsOn
  plannedInvocation := plannedInvocation
  status := .planned
  attempts := 0
  intent := none
  effectEvidenceDigest := none
  outputRecordDigest := none
  executionReceiptId := none
  executionReceiptDigest := none
  uncertaintyReason := none
  reconciliationEvidenceDigest := none

/-- The tool-output profile of the intent committed for a step. -/
def StepState.toolOutputProfile (step : StepState) : Option String :=
  step.intent.bind EffectIntent.toolOutputProfile

/-- `receipt_releases_dependency`: completed, with a receipt id and a well-formed receipt digest. -/
def receiptReleasesDependency (step : StepState) : Bool :=
  step.status == .completed && step.executionReceiptId.any (fun id => id != "") &&
    step.executionReceiptDigest.any isSha256Digest

/-- Why a dependency does not release, in the order of the source's derived `Ord`. -/
inductive DependencyBlockReason where
  | notCompleted
  | failed
  | manualRequired
  | receiptMissing
  | dependencyBlocked
  deriving DecidableEq

def dependencyReleaseBlockReason (step : StepState) : Option DependencyBlockReason :=
  if receiptReleasesDependency step then none
  else
    match step.status with
    | .failed => some .failed
    | .manualRequired => some .manualRequired
    | .completed => some .receiptMissing
    | _ => some .notCompleted

def blockerReason (step : StepState) : DependencyBlockReason :=
  match step.status with
  | .failed => .failed
  | .manualRequired => .manualRequired
  | .completed => if receiptReleasesDependency step then .dependencyBlocked else .receiptMissing
  | _ => .dependencyBlocked

theorem dependencyReleaseBlockReason_eq_none {step : StepState} :
    dependencyReleaseBlockReason step = none ↔ receiptReleasesDependency step = true := by
  unfold dependencyReleaseBlockReason
  split
  · rename_i h
    simp [h]
  · rename_i h
    constructor
    · intro hnone
      split at hnone <;> simp at hnone
    · exact fun hr => absurd hr h

theorem completed_of_releases {step : StepState} (h : receiptReleasesDependency step = true) :
    step.status = .completed := by
  simp only [receiptReleasesDependency, Bool.and_eq_true, beq_iff_eq] at h
  exact h.1.1

/-! ## Authorizations and the agent loop -/

structure AuthorizationConsumption where
  grantDigest : String
  maxUses : UInt32
  uses : UInt32
  effectIds : BTreeSet String
  deriving DecidableEq

inductive ModelCallStatus where
  | reserved
  | unknown (reason : ModelCallUnknownReason)
  deriving DecidableEq

structure ModelCallState where
  reservation : ModelCallReservation
  status : ModelCallStatus
  deriving DecidableEq

structure ModelCallLifecycleState where
  budget : ModelCallBudget
  reservedCalls : UInt32
  settledCalls : UInt32
  unknownCalls : UInt32
  activeCall : Option ModelCallState
  deriving DecidableEq

structure CompletionCandidateState where
  candidateId : String
  contextDigest : String
  proposalDigest : String
  summaryDigest : String
  completionOutputRecordDigest : Option String
  deriving DecidableEq

structure AgentLoopState where
  budget : AgentLoopBudget
  acceptedModelTurns : UInt32
  modelCalls : Option ModelCallLifecycleState
  completionCandidate : Option CompletionCandidateState
  deriving DecidableEq

structure RunState where
  runId : String
  authority : String
  authorityEpoch : UInt64
  goal : String
  revision : UInt64
  journalSequence : UInt64
  journalHeadDigest : String
  steps : BTreeMap String StepState
  authorizationConsumption : BTreeMap String AuthorizationConsumption
  agentLoop : Option AgentLoopState
  deriving DecidableEq

/-! ## Errors -/

inductive TransitionError where
  | record (error : RecordError)
  | firstEventMustCreateRun
  | runAlreadyCreated
  | planningContract (error : PlanningContractError)
  | agentLoopAlreadyConfigured
  | agentLoopNotConfigured
  | modelCallLifecycleAlreadyConfigured
  | modelCallLifecycleNotConfigured
  | modelCallBudgetBelowHistoricalAcceptedTurns (maxModelCalls acceptedModelTurns : UInt32)
  | modelCallBudgetExceeded
  | modelCallActive
  | unexpectedModelCallIndex (expected actual : UInt32)
  | unexpectedModelCallTurn (expected actual : UInt32)
  | modelCallBaseHeadMismatch
  | modelCallIdMismatch
  | modelCallContextMismatch
  | modelCallDecisionRequired
  | modelCallNotReserved
  | staleModelCallResponse
  | modelCallSettlementHeadMismatch
  | modelCallCounterOverflow
  | modelCallCounterInvariant
  | unexpectedPlanningTurn (expected actual : UInt32)
  | modelTurnBudgetExceeded
  | plannedStepBudgetExceeded
  | toolCallBudgetExceeded
  | acceptedPlanStepCountInvalid (actual : ℕ)
  | acceptedPlanEdgeBudgetExceeded
  | invalidAcceptedObjective
  | planProposalDigestMismatch (stepId : String)
  | planDependencyBlocked (stepId dependencyId : String) (reason : DependencyBlockReason)
  | dependencyCycle
  | completionCandidateAlreadyRecorded
  | completionCandidateRequiresReceiptCompletedPlan
  | unexpectedSequence (expected actual : UInt64)
  | previousDigestMismatch (sequence : UInt64) (expected actual : Option String)
  | runIdMismatch
  | authorityMismatch
  | authorityEpochMismatch
  | duplicateStep (stepId : String)
  | selfDependency (stepId : String)
  | duplicateDependency (stepId dependencyId : String)
  | unknownDependency (stepId dependencyId : String)
  | unknownStep (stepId : String)
  | dependencyNotReleased (stepId dependencyId : String) (reason : DependencyBlockReason)
  | duplicateEffect (effectId : String)
  | plannedInvocationMismatch (stepId field : String)
  | duplicatePlannedAction (stepId existingStepId : String)
  | effectMismatch (stepId : String) (expected : Option String) (actual : String)
  | invalidStepTransition (stepId : String) (status : StepStatus) (event : String)
  | invalidAuthorizationBudget (grantId : String)
  | authorizationRunMismatch (grantId : String)
  | authorizationStepMismatch (grantId : String)
  | authorizationAuthorityMismatch (grantId : String)
  | authorizationEpochMismatch (grantId : String)
  | authorizationHeadMismatch (grantId : String)
  | authorizationActionMismatch (grantId : String)
  | authorizationInvocationMismatch (grantId : String)
  | authorizationIdMismatch (grantId : String)
  | authorizationDigestMismatch (grantId : String)
  | authorizationDigest (error : AuthorizationDigestError)
  | authorizationGrantChanged (grantId : String)
  | authorizationBudgetExceeded (grantId : String) (maxUses : UInt32)
  | sinkGuaranteeRequiresIdempotencyKey (effectId : String)
  | readOnlyEffectSemanticsInvalid (effectId : String)
  | receiptProvenanceBindingMismatch (effectId : String)
  | receiptProvenanceDigestMismatch (effectId : String)
  | unsupportedToolOutputProfile (effectId : String)
  | toolOutputRecordRequired (effectId : String)
  | unexpectedToolOutputRecord (effectId : String)
  | invalidToolOutputRecordDigest (effectId : String)
  | attemptOverflow (stepId : String)
  deriving DecidableEq

inductive ReplayError where
  | emptyJournal
  | unexpectedSequence (expected actual : UInt64)
  | previousDigestMismatch (sequence : UInt64) (expected actual : Option String)
  | record (error : RecordError)
  | transition (error : TransitionError)
  deriving DecidableEq

end Xgeny
