import Xgeny.Capability

set_option autoImplicit false

/-!
# Planning documents

What a planner is shown and what it answers: the bounded context of one call, and the proposal that
comes back. A proposal is untrusted and transient; only its validated form reaches the journal.
-/

namespace Xgeny

/-! ## The planning context -/

structure PlanningResourceSelector where
  scope : String
  argumentPointer : String
  deriving DecidableEq

structure PlanningCapabilitySummary where
  capability : CapabilityRef
  definitionDigest : String
  summary : String
  inputSchema : Json
  outputSchema : Json
  effectClass : ProtocolEffectClass
  resourceSelectors : List PlanningResourceSelector
  criticalActions : List CriticalAction
  executionStyles : List ExecutionStyle
  idempotencyKeySupported : Bool
  defaultTimeoutMs : UInt64
  maxTimeoutMs : UInt64
  deriving DecidableEq

structure PlanningStepSummary where
  stepId : String
  objective : String
  dependsOn : List String
  status : StepStatus
  attempts : UInt32
  capability : Option CapabilityRef
  dependencyReleased : Bool
  deriving DecidableEq

structure PlanningToolOutput where
  stepId : String
  capability : CapabilityRef
  outputId : String
  outputDigest : String
  receiptDigest : String
  canonicalSizeBytes : UInt64
  output : Json
  deriving DecidableEq

structure PlanningConstraint where
  constraintId : String
  description : String
  deriving DecidableEq

structure PlanningContextPayload where
  profileVersion : String
  capabilities : List PlanningCapabilitySummary
  omittedCapabilities : ℕ
  catalogDigest : String
  goal : String
  planningConstraints : List PlanningConstraint
  steps : List PlanningStepSummary
  omittedSteps : ℕ
  toolOutputs : List PlanningToolOutput
  totalSteps : ℕ
  verifiedCompletedSteps : ℕ
  runId : String
  authority : String
  authorityEpoch : UInt64
  journalSequence : UInt64
  journalHeadDigest : String
  deriving DecidableEq

/-- `CatalogDigestEntry`. -/
structure CatalogDigestEntry where
  capabilityId : String
  contractVersion : String
  definitionDigest : String
  deriving DecidableEq

/-! ## Proposals -/

/-- A dependency named by a proposal, in the order of the source's derived `Ord`. -/
inductive PlanDependency where
  | existingStep (stepId : String)
  | proposedStep (key : String)
  deriving DecidableEq

structure ProposedPlanStep where
  key : String
  objective : String
  dependsOn : List PlanDependency
  capability : CapabilityRef
  arguments : Json
  deriving DecidableEq

inductive PlanProposal where
  | plan (steps : List ProposedPlanStep)
  | completionCandidate (summary : String)
  deriving DecidableEq

/-- `AcceptedPlanDigestStep`: what the digest of a validated proposal covers of one step. -/
structure AcceptedPlanDigestStep where
  proposalKey : String
  objective : String
  dependsOn : List PlanDependency
  capability : CapabilityRef
  definitionDigest : String
  semanticActionDigest : String
  materialDigest : String
  deriving DecidableEq

end Xgeny
