import Xgeny.AgentLoop.Proposal
import Xgeny.Lib.Process
import Xgeny.Store.Snapshots

set_option autoImplicit false

/-!
# The operations of the runtime

The routines of the runtime and of the driver talk to a store, to an event factory, and to ports
that the host supplies: a planner, a materializer, providers of material, adapters, a route and an
approval port, an observer. Here these are the operations of a `Prog`, so that a routine is read as
the sequence of its calls.

* the requests and the answers of each port;
* `RuntimeOp`, `RuntimeOp.Response`, `Routine`: the operations and the programs over them;
* one routine for each operation, which turns an error answer into an error;
* `createEvent`: an event of the run with fresh metadata.
-/

namespace Xgeny

/-! ## Events and leases -/

/-- The id and the time of an event. -/
structure EventMetadata where
  eventId : String
  recordedAt : String
  deriving DecidableEq

/-- `RunLease`: what is read of a lease. -/
structure RunLease where
  runId : String
  deriving DecidableEq

/-- `ExpectedHead::from_state`. -/
def ExpectedHead.fromState (state : RunState) : ExpectedHead :=
  .exact state.journalSequence state.journalHeadDigest

/-! ## Planning -/

/-- What the planner is asked. -/
structure PlannerCallRequest where
  callId : String
  requestDigest : String
  context : PlanningContext
  deriving DecidableEq

/-- How the planner fails. -/
inductive PlannerPortFailure where
  | timeout
  | unavailable
  | invalidResponse
  | providerLimit
  | requestTooLarge
  | rateLimited
  | outputTruncated
  | providerRejected
  deriving DecidableEq

/-- A plan with the arguments that have to be kept before it is accepted. -/
structure PlanMaterializationRequest where
  runId : String
  stepId : String
  proposalDigest : String
  capability : CapabilityRef
  normalizedArguments : Json
  materialDigest : String
  deriving DecidableEq

/-- How the materializer fails. -/
inductive PlanMaterializerFailure where
  | unavailable
  | rejected
  | persistenceFailed
  deriving DecidableEq

/-! ## Material providers and adapters -/

/-- How a provider of material fails. -/
inductive MaterialProviderFailure where
  | unavailable
  | notFound
  | revisionChanged
  | unsupportedVersion
  deriving DecidableEq

/-- The key under which an adapter is registered. -/
structure AdapterBindingKey where
  bindingRef : String
  operationRef : Option String
  protocolVersion : Option String
  deriving DecidableEq

/-- What an adapter prepares. -/
structure AdapterPrepareRequest where
  intent : EffectIntent
  instance_ : CapabilityInstanceBody
  normalizedArguments : Json
  deriving DecidableEq

/-- What an adapter reconciles. -/
structure AdapterReconcileRequest where
  intent : EffectIntent
  instance_ : CapabilityInstanceBody
  deriving DecidableEq

/-- How preparation fails, before anything has happened. -/
inductive AdapterPrepareFailure where
  | unavailable
  | unsupportedProtocol
  | invalidMaterial
  | resourceUnavailable
  deriving DecidableEq

/-- The opaque session that an adapter has prepared, to be executed once. -/
structure PreparedAdapterInvocation where
  session : ℕ
  deriving DecidableEq

/-- `AdapterEvidenceDigest`: a canonical SHA-256 digest. -/
abbrev AdapterEvidenceDigest := {value : String // isSha256Digest value = true}

/-- Why the adapter does not know the outcome of an execution. -/
inductive AdapterExecutionUnknownReason where
  | transportOutcomeUnknown
  | adapterTerminated
  | responseUnverifiable
  deriving DecidableEq

/-- What the adapter has seen of an execution. -/
inductive AdapterExecutionObservation where
  | succeeded (evidenceDigest : AdapterEvidenceDigest)
  | succeededWithOutput (evidenceDigest : AdapterEvidenceDigest) (output : Json)
  | failed (evidenceDigest : AdapterEvidenceDigest)
  | unknown (reason : AdapterExecutionUnknownReason)
  deriving DecidableEq

/-- Why a reconciliation proves nothing. -/
inductive AdapterReconciliationInconclusiveReason where
  | queryUnavailable
  | responseUnverifiable
  | stableKeyUnsupported
  deriving DecidableEq

/-- What the adapter proves about an earlier execution. -/
inductive AdapterReconciliationObservation where
  | applied (evidenceDigest : AdapterEvidenceDigest)
  | notApplied (evidenceDigest : AdapterEvidenceDigest)
  | failed (evidenceDigest : AdapterEvidenceDigest)
  | inconclusive (reason : AdapterReconciliationInconclusiveReason)
  deriving DecidableEq

/-- The durable identity of a prepared invocation. -/
structure PreparedEffectBinding where
  runId : String
  authority : String
  authorityEpoch : UInt64
  journalSequence : UInt64
  journalHeadDigest : String
  stepId : String
  effectId : String
  materialRecord : InvocationMaterialRecord
  deriving DecidableEq

/-- An effect that is ready to start. -/
structure CorePreparedEffect where
  binding : PreparedEffectBinding
  adapterKey : AdapterBindingKey
  invocation : PreparedAdapterInvocation
  deriving DecidableEq

/-! ## Ports of the driver -/

/-- How the host fails to route a planned step. -/
inductive PlannedRouteFailure where
  | unavailable
  | rejected
  deriving DecidableEq

/-- The answer to a request for approval. -/
inductive ApprovalDecision where
  | approved (inputs : PolicyInputs)
  | denied
  | pending

/-- How the host fails to decide. -/
inductive ApprovalPortFailure where
  | unavailable
  | invalidResponse
  deriving DecidableEq

/-- What the driver reports to its observer. -/
inductive DriverProgress where
  | modelCallStarting
  | planCommitted
  | approvalRequired (effectClass : ProtocolEffectClass)
  | actionAuthorized (effectClass : ProtocolEffectClass)
  | effectStarting (effectClass : ProtocolEffectClass)
  | effectCommitted (effectClass : ProtocolEffectClass)
  | verificationStarting
  | verificationCommitted
  | completionCommitted
  deriving DecidableEq

/-- Whether the observer lets the driver go on. -/
inductive DriverProgressControl where
  | continue_
  | cancel
  deriving DecidableEq

/-! ## Operations -/

/-- Everything that the runtime asks of the outside world. `verifyStep` stands for a whole pass of the
verification runner over one step, which is not part of this development. -/
inductive RuntimeOp where
  | loadCurrent
  | loadPlannedInvocation (stepId : String)
  | loadInvocationMaterial (effectId : String)
  | loadCompletionOutput (expected : ExpectedHead) (candidateId : String)
  | loadPlanningSnapshot (expected : ExpectedHead) (maxOutputBytes : UInt64)
  | append (call : AppendCall)
  | createMetadata (state : RunState)
  | plan (request : PlannerCallRequest)
  | materialize (request : PlanMaterializationRequest)
  | reconstruct (providerId referenceId revision : String)
  | prepare (key : AdapterBindingKey) (request : AdapterPrepareRequest)
  | execute (prepared : CorePreparedEffect)
  | reconcile (key : AdapterBindingKey) (request : AdapterReconcileRequest)
  | routeFor (state : RunState) (stepId : String)
  | decide (request : ResolvedPermissionRequest)
  | observe (progress : DriverProgress)
  | verifyStep (stepId : String)

/-- The answers to an operation. -/
def RuntimeOp.Response : RuntimeOp → Type
  | .loadCurrent => Except StoreError (Option RunState)
  | .loadPlannedInvocation _ => Except StoreError (Option PlannedInvocationMaterialRecord)
  | .loadInvocationMaterial _ => Except StoreError (Option InvocationMaterialRecord)
  | .loadCompletionOutput _ _ => Except StoreError (Option CompletionOutputRecord)
  | .loadPlanningSnapshot _ _ => Except StoreError (Option RunPlanningSnapshot)
  | .append _ => Except StoreError Commit
  | .createMetadata _ => Except EventFactoryError EventMetadata
  | .plan _ => Except PlannerPortFailure PlanProposal
  | .materialize _ => Except PlanMaterializerFailure ReconstructableMaterialReference
  | .reconstruct _ _ _ => Except MaterialProviderFailure Json
  | .prepare _ _ => Except AdapterPrepareFailure PreparedAdapterInvocation
  | .execute _ => AdapterExecutionObservation
  | .reconcile _ _ => AdapterReconciliationObservation
  | .routeFor _ _ => Except PlannedRouteFailure RouteRequest
  | .decide _ => Except ApprovalPortFailure ApprovalDecision
  | .observe _ => DriverProgressControl
  | .verifyStep _ => Except String Unit

/-- A routine of the runtime. -/
abbrev Routine (ε α : Type) := Prog RuntimeOp RuntimeOp.Response ε α

/-- An operation of the runtime with its answer. -/
abbrev RuntimeMove := Move RuntimeOp RuntimeOp.Response

namespace Routine

variable {ε α : Type}

/-- The value of an answer, or its error. -/
def answered (answer : Except ε α) : Routine ε α :=
  match answer with
  | .ok a => .ret a
  | .error e => .stop (.err e)

/-- Load the state of the run. -/
def loadCurrent : Routine StoreError (Option RunState) :=
  .call .loadCurrent answered

/-- Load the sidecar of a planned step. -/
def loadPlannedInvocation (stepId : String) :
    Routine StoreError (Option PlannedInvocationMaterialRecord) :=
  .call (.loadPlannedInvocation stepId) answered

/-- Load the material of an effect. -/
def loadInvocationMaterial (effectId : String) :
    Routine StoreError (Option InvocationMaterialRecord) :=
  .call (.loadInvocationMaterial effectId) answered

/-- Load the output of a completion candidate. -/
def loadCompletionOutput (expected : ExpectedHead) (candidateId : String) :
    Routine StoreError (Option CompletionOutputRecord) :=
  .call (.loadCompletionOutput expected candidateId) answered

/-- Load what planning is based on. -/
def loadPlanningSnapshot (expected : ExpectedHead) (maxOutputBytes : UInt64) :
    Routine StoreError (Option RunPlanningSnapshot) :=
  .call (.loadPlanningSnapshot expected maxOutputBytes) answered

/-- Append one event with its sidecars. -/
def append (call : AppendCall) : Routine StoreError Commit :=
  .call (.append call) answered

/-- Ask for the metadata of the next event. -/
def createMetadata (state : RunState) : Routine EventFactoryError EventMetadata :=
  .call (.createMetadata state) answered

/-- Ask the planner. -/
def plan (request : PlannerCallRequest) : Routine PlannerPortFailure PlanProposal :=
  .call (.plan request) answered

/-- Keep the arguments of a plan. -/
def materialize (request : PlanMaterializationRequest) :
    Routine PlanMaterializerFailure ReconstructableMaterialReference :=
  .call (.materialize request) answered

/-- Get kept arguments back. -/
def reconstruct (providerId referenceId revision : String) : Routine MaterialProviderFailure Json :=
  .call (.reconstruct providerId referenceId revision) answered

/-- Prepare an effect. -/
def prepare (key : AdapterBindingKey) (request : AdapterPrepareRequest) :
    Routine AdapterPrepareFailure PreparedAdapterInvocation :=
  .call (.prepare key request) answered

/-- Execute a prepared effect. -/
def execute (prepared : CorePreparedEffect) : Routine ε AdapterExecutionObservation :=
  .call (.execute prepared) .ret

/-- Reconcile an effect. -/
def reconcile (key : AdapterBindingKey) (request : AdapterReconcileRequest) :
    Routine ε AdapterReconciliationObservation :=
  .call (.reconcile key request) .ret

/-- Ask the host for the route of a step. -/
def routeFor (state : RunState) (stepId : String) : Routine PlannedRouteFailure RouteRequest :=
  .call (.routeFor state stepId) answered

/-- Ask the host for approval. -/
def decide (request : ResolvedPermissionRequest) : Routine ApprovalPortFailure ApprovalDecision :=
  .call (.decide request) answered

/-- Report progress. -/
def observe (progress : DriverProgress) : Routine ε DriverProgressControl :=
  .call (.observe progress) .ret

/-- Verify the outcome of a step. -/
def verifyStep (stepId : String) : Routine String Unit :=
  .call (.verifyStep stepId) answered

end Routine

/-! ## Events -/

/-- An event of the run with some metadata. -/
def RunState.event (state : RunState) (metadata : EventMetadata) (body : RunEventBody) : RunEvent where
  eventId := metadata.eventId
  runId := state.runId
  authority := state.authority
  authorityEpoch := state.authorityEpoch
  recordedAt := metadata.recordedAt
  body := body

/-- `create_event`: ask for metadata, check its time, and build the event. -/
def createEvent {ε : Type} (P : Protocol) (onFactory : EventFactoryError → ε) (onMetadata : ε)
    (state : RunState) (body : RunEventBody) : Routine ε RunEvent := do
  let metadata ← (Routine.createMetadata state).mapErr onFactory
  Prog.lift (Outcome.failIf (P.rfc3339 metadata.recordedAt = none) onMetadata)
  pure (state.event metadata body)

end Xgeny
