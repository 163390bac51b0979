import Xgeny.AgentLoop.Tick
import Xgeny.Runtime.Recovery

set_option autoImplicit false

/-!
# Driving a run until it pauses

The driver lets the agent loop tick and does what a tick asks for: it admits a planned step after an
approval, drives a committed effect, or has a step verified. It stops where a user, the host or the
model provider has to do something first, and after a number of ticks in any case. When a model call
may be next, it asks for consent before the tick.

* `modelCallMayBeNext`: whether the next tick may call the model;
* `admitAction`, `driveEffectAction`, `verifyAction`: what an action is answered with;
* `RunDriver.driveUntilPauseWithModelEgressObserved`: the loop.
-/

namespace Xgeny

/-! ## Outcomes and errors -/

inductive DriverOutcome where
  | completionCandidate (candidate : CompletionCandidateState)
      (output : Option CompletionOutputRecord)
  | quiescent (reason : AgentLoopQuiescence)
  | approvalPending (stepId : String) (effectClass : ProtocolEffectClass)
  | approvalDenied (stepId : String)
  | admissionNotAuthorized (stepId : String) (outcome : RouteOutcome)
  | plannerUnavailable (failure : PlannerPortFailure)
  | proposalRejected (reason : ProposalRejection)
  | materializerUnavailable (failure : PlanMaterializerFailure)
  | modelCallRecoveryRequired (callId : String) (reason : ModelCallUnknownReason)
  | modelCallRejected (reason : ModelCallRejectionReason)
  | modelEgressRequired
  | cancelled
  | tickBudgetExhausted

/-- `RunDriverError`; an error of the verification runner is kept as its text. -/
inductive RunDriverError where
  | store (error : StoreError)
  | agentLoop (error : AgentLoopError)
  | materialRecovery (error : MaterialRecoveryError)
  | admission (error : AdmissionError)
  | executor (error : DirectExecutorError)
  | verification (message : String)
  | frontier (error : FrontierError)
  | route (failure : PlannedRouteFailure)
  | approval (failure : ApprovalPortFailure)
  | runNotInitialized
  | stepNotFound (stepId : String)

/-- `RunDriver`: the tick bound is a `NonZeroU32`. -/
structure RunDriver where
  agentLoop : AgentLoop
  executor : RuntimePolicy
  maxTicks : UInt32
  nonzero : maxTicks ≠ 0

/-- What an invocation of the driver is given besides the ports. -/
structure DriverInputs where
  tick : TickInputs
  providers : MaterialProviderRegistry
  adapters : EffectAdapterRegistry
  modelEgressAllowed : Bool

/-- `domain_effect_class`. -/
def domainEffectClass : EffectClass → ProtocolEffectClass
  | .readOnly => .readOnly
  | .reversible => .compensatable
  | .idempotent => .idempotent
  | .nonIdempotent => .nonIdempotent

/-! ## The gate -/

/-- Whether the next tick may call the model on an open loop. -/
def loopMayCallModel (state : RunState) (agent : AgentLoopState)
    (modelCalls : ModelCallLifecycleState) : Outcome RunDriverError Bool :=
  if modelCalls.activeCall.isSome ∨ agent.completionCandidate.isSome then pure false
  else do
    let frontier ← (deriveFrontier state).mapErr .frontier
    if frontier.nextAction.isSome ∨ frontier.failedStepIds ≠ [] ∨
        frontier.manualRequiredStepIds ≠ [] ∨
        agent.acceptedModelTurns ≥ agent.budget.maxModelTurns ∨
        modelCalls.reservedCalls ≥ modelCalls.budget.maxModelCalls then pure false
    else pure true

/-- `model_call_may_be_next` on a loaded state. -/
def stateMayCallModel : Option RunState → Outcome RunDriverError Bool
  | none => pure false
  | some state =>
    match state.agentLoop with
    | none => pure false
    | some agent =>
      match agent.modelCalls with
      | none => pure false
      | some modelCalls => loopMayCallModel state agent modelCalls

/-- `model_call_may_be_next`. -/
def modelCallMayBeNext : Routine RunDriverError Bool := do
  let current ← Routine.loadCurrent.mapErr .store
  Prog.lift (stateMayCallModel current)

/-- Report progress, and stop when the observer cancels. -/
def observeOrCancel (progress : DriverProgress) : Routine RunDriverError (Option DriverOutcome) := do
  match ← Routine.observe progress with
  | .continue_ => pure none
  | .cancel => pure (some .cancelled)

/-- What happens before a tick: an outcome ends the invocation. -/
def consentToModelCall (modelEgressAllowed : Bool) :
    Routine RunDriverError (Option DriverOutcome) := do
  if ← modelCallMayBeNext then
    if modelEgressAllowed then observeOrCancel .modelCallStarting
    else pure (some .modelEgressRequired)
  else pure none

/-! ## Actions -/

/-- The current state, which has to be initialized. -/
def loadDriven : Routine RunDriverError RunState := do
  let current ← Routine.loadCurrent.mapErr .store
  Prog.lift (Outcome.okOr current .runNotInitialized)

/-- The status of a step and the effect class of its intent. -/
def drivenEffect (state : RunState) (stepId : String) :
    Outcome RunDriverError (StepStatus × ProtocolEffectClass) := do
  let step ← Outcome.okOr state.steps[stepId]? (.stepNotFound stepId)
  let intent ← Outcome.okOr step.intent (.stepNotFound stepId)
  pure (step.status, domainEffectClass intent.effectClass)

section

variable (D : Digests) (P : Protocol) (J : Schemas) (H : Host) (self : RunDriver)
  (inputs : DriverInputs)

/-- Authorize what was approved. -/
def admitApproved (stepId : String) (pending : PendingInvocation) (policyInputs : PolicyInputs) :
    Routine RunDriverError (Option DriverOutcome) := do
  let outcome ← (InvocationAdmission.authorizeAndCommit D P J H pending policyInputs
    inputs.tick.capabilities inputs.tick.lease).mapErr .admission
  match outcome with
  | .authorized _ =>
    observeOrCancel (.actionAuthorized pending.permissionRequest.effectClass)
  | .notAuthorized outcome => pure (some (.admissionNotAuthorized stepId outcome))

/-- `ContinuationAction::Admit`. -/
def admitAction (stepId : String) : Routine RunDriverError (Option DriverOutcome) := do
  let state ← loadDriven
  let route ← (Routine.routeFor state stepId).mapErr .route
  let pending ← (InvocationMaterialRecovery.preparePlannedAdmission D J inputs.tick.lease
    inputs.tick.capabilities inputs.tick.resolver inputs.providers ⟨stepId, route⟩).mapErr
    .materialRecovery
  let decision ← (Routine.decide pending.permissionRequest).mapErr .approval
  match decision with
  | .pending => do
    let effectClass := pending.permissionRequest.effectClass
    let _ ← Routine.observe (.approvalRequired effectClass)
    pure (some (.approvalPending stepId effectClass))
  | .denied => pure (some (.approvalDenied stepId))
  | .approved policyInputs => admitApproved D P J H inputs stepId pending policyInputs

/-- Drive an effect, with its material when it is still to be executed. -/
def driveFound (stepId : String) (status : StepStatus) : Routine RunDriverError Unit := do
  if status = .intentCommitted then do
    let material ← (InvocationMaterialRecovery.recover D J inputs.tick.lease
      inputs.tick.capabilities inputs.tick.resolver inputs.providers stepId).mapErr .materialRecovery
    let _ ← (DirectExecutor.driveStep D P J H self.executor inputs.tick.lease
      inputs.tick.capabilities inputs.adapters stepId (some material)).mapErr .executor
    pure ()
  else do
    let _ ← (DirectExecutor.driveStep D P J H self.executor inputs.tick.lease
      inputs.tick.capabilities inputs.adapters stepId none).mapErr .executor
    pure ()

/-- `ContinuationAction::DriveEffect`. -/
def driveEffectAction (stepId : String) : Routine RunDriverError (Option DriverOutcome) := do
  let state ← loadDriven
  let (status, effectClass) ← Prog.lift (drivenEffect state stepId)
  match ← observeOrCancel (.effectStarting effectClass) with
  | some outcome => pure (some outcome)
  | none => do
    driveFound D P J H self inputs stepId status
    observeOrCancel (.effectCommitted effectClass)

/-- `ContinuationAction::Verify`. -/
def verifyAction (stepId : String) : Routine RunDriverError (Option DriverOutcome) := do
  match ← observeOrCancel .verificationStarting with
  | some outcome => pure (some outcome)
  | none => do
    (Routine.verifyStep stepId).mapErr .verification
    observeOrCancel .verificationCommitted

/-! ## The loop -/

/-- What a tick is answered with: an outcome ends the invocation. -/
def afterTick : AgentLoopTick → Routine RunDriverError (Option DriverOutcome)
  | .configured _ | .modelCallLifecycleConfigured _ | .modelCallAbandoned _ _ => pure none
  | .planAccepted _ _ => observeOrCancel .planCommitted
  | .actionRequired action _ =>
    match action.action with
    | .admitStep => admitAction D P J H inputs action.stepId
    | .driveEffect => driveEffectAction D P J H self inputs action.stepId
    | .verify => verifyAction action.stepId
  | .completionCandidate candidate output _ _ => do
    let _ ← Routine.observe .completionCommitted
    pure (some (.completionCandidate candidate output))
  | .quiescent reason _ => pure (some (.quiescent reason))
  | .plannerUnavailable failure _ => pure (some (.plannerUnavailable failure))
  | .proposalRejected reason _ => pure (some (.proposalRejected reason))
  | .materializerUnavailable failure _ => pure (some (.materializerUnavailable failure))
  | .modelCallRecoveryRequired callId reason _ _ =>
    pure (some (.modelCallRecoveryRequired callId reason))
  | .modelCallRejected reason _ => pure (some (.modelCallRejected reason))

/-- At most so many ticks. -/
def driveTicks : ℕ → Routine RunDriverError DriverOutcome
  | 0 => pure .tickBudgetExhausted
  | count + 1 => do
    match ← consentToModelCall inputs.modelEgressAllowed with
    | some outcome => pure outcome
    | none => do
      let tick ← (self.agentLoop.tick D P J H inputs.tick).mapErr .agentLoop
      match ← afterTick D P J H self inputs tick with
      | some outcome => pure outcome
      | none => driveTicks count

/-- `RunDriver::drive_until_pause_with_model_egress_observed`. -/
def RunDriver.driveUntilPauseWithModelEgressObserved : Routine RunDriverError DriverOutcome :=
  driveTicks D P J H self inputs self.maxTicks.toNat

end

end Xgeny
