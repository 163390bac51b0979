import Xgeny.Runtime.Operations

set_option autoImplicit false

/-!
# One tick of the agent loop

A tick loads the state once and then does one thing: it configures the loop, hands out a frontier
action, deals with an open model call, or makes one planner call, which it reserves in the journal
before and settles after.

* `tick`, `abandonModelCall`: the two entry points;
* `planTurn`: the reservation and the planner call;
* `handleProposal`, `recordPlannerFailure`: what becomes of the answer;
* `resolveModelCallConflict`: what is done when the settling append finds another head.
-/

namespace Xgeny

/-! ## Results -/

structure AgentLoopHead where
  sequence : UInt64
  digest : String
  deriving DecidableEq

/-- `AgentLoopHead::from_state`. -/
def AgentLoopHead.fromState (state : RunState) : AgentLoopHead :=
  ⟨state.journalSequence, state.journalHeadDigest⟩

inductive AgentLoopQuiescence where
  | failedSteps
  | manualIntervention
  | unverifiedCompletion
  | blockedDependencies
  | waitingDependencies
  | modelTurnBudgetExhausted
  | modelCallBudgetExhausted
  | plannedStepBudgetExhausted
  | toolCallBudgetExhausted
  | contextBudgetExceeded
  | contextInputLimitExceeded
  | noActionableWork
  deriving DecidableEq

inductive AgentLoopTick where
  | configured (head : AgentLoopHead)
  | modelCallLifecycleConfigured (head : AgentLoopHead)
  | actionRequired (action : FrontierAction) (head : AgentLoopHead)
  | planAccepted (stepIds : List String) (head : AgentLoopHead)
  | completionCandidate (candidate : CompletionCandidateState)
      (output : Option CompletionOutputRecord) (newlyRecorded : Bool) (head : AgentLoopHead)
  | quiescent (reason : AgentLoopQuiescence) (head : AgentLoopHead)
  | plannerUnavailable (failure : PlannerPortFailure) (head : AgentLoopHead)
  | proposalRejected (reason : ProposalRejection) (head : AgentLoopHead)
  | materializerUnavailable (failure : PlanMaterializerFailure) (head : AgentLoopHead)
  | modelCallRecoveryRequired (callId : String) (reason : ModelCallUnknownReason)
      (newlyRecorded : Bool) (head : AgentLoopHead)
  | modelCallRejected (reason : ModelCallRejectionReason) (head : AgentLoopHead)
  | modelCallAbandoned (callId : String) (head : AgentLoopHead)

/-- `AgentLoop`: the configuration of a loop. -/
structure AgentLoop where
  budget : AgentLoopBudget
  modelCallBudget : ModelCallBudget
  planningConstraints : List PlanningConstraint

/-- What a planner says of itself. -/
structure PlannerIdentity where
  plannerId : String
  requestProfileDigest : String

/-- What a tick is given besides the ports. -/
structure TickInputs where
  lease : RunLease
  capabilities : CapabilityRegistry
  resolver : ResourceResolver
  planner : PlannerIdentity

/-! ## Parts without calls -/

/-- `verify_lease`. -/
def verifyAgentLoopLease (lease : RunLease) (state : RunState) : Outcome AgentLoopError Unit :=
  Outcome.failIf (lease.runId ≠ state.runId) .leaseRunMismatch

def totalToolCalls (state : RunState) : Outcome AgentLoopError UInt32 :=
  Outcome.foldl (fun total step => Outcome.okOr (UInt32.checkedAdd total step.attempts)
    .budgetCounterOverflow) 0 (BTreeMap.vals state.steps)

def actionWouldIssueNewToolCall (state : RunState) (action : FrontierAction) : Bool :=
  match action.action with
  | .admitStep | .verify => false
  | .driveEffect => state.steps[action.stepId]?.any fun step => step.status == .intentCommitted

def terminalQuiescence (frontier : WorkFrontier) : Option AgentLoopQuiescence :=
  if frontier.manualRequiredStepIds ≠ [] then some .manualIntervention
  else if frontier.failedStepIds ≠ [] then some .failedSteps
  else if frontier.unverifiedCompletedStepIds ≠ [] then some .unverifiedCompletion
  else if frontier.blocked ≠ [] then some .blockedDependencies
  else if frontier.waiting ≠ [] then some .waitingDependencies
  else if frontier.totalSteps > 0 ∧ frontier.allStepsReceiptCompleted = false then
    some .noActionableWork
  else none

/-- The checks between the open call and the planning snapshot, in their order. -/
def planningQuiescence (state : RunState) (loopState : AgentLoopState)
    (modelCalls : ModelCallLifecycleState) (frontier : WorkFrontier)
    (capabilities : CapabilityRegistry) : Option AgentLoopQuiescence :=
  match terminalQuiescence frontier with
  | some reason => some reason
  | none =>
    if loopState.acceptedModelTurns ≥ loopState.budget.maxModelTurns then
      some .modelTurnBudgetExhausted
    else if modelCalls.reservedCalls ≥ modelCalls.budget.maxModelCalls then
      some .modelCallBudgetExhausted
    else if state.steps.size ≥ loopState.budget.maxPlannedSteps.toNat ∧
        frontier.allStepsReceiptCompleted = false then
      some .plannedStepBudgetExhausted
    else if planningContextPreflight state capabilities = false then
      some .contextInputLimitExceeded
    else none

def nextTurnIndex (state : RunState) : Outcome AgentLoopError UInt32 := do
  let loopState ← Outcome.okOr state.agentLoop .agentLoopNotConfigured
  Outcome.okOr (loopState.acceptedModelTurns.checkedAdd 1) .budgetCounterOverflow

/-- The outcome of a failed context, as a result or as an error. -/
def contextBuildFailure (state : RunState) : ContextBuildError → Outcome AgentLoopError AgentLoopTick
  | .budgetExceeded => pure (.quiescent .contextBudgetExceeded (.fromState state))
  | .inputLimitExceeded => pure (.quiescent .contextInputLimitExceeded (.fromState state))
  | .canonicalization => Outcome.fail .canonicalization
  | .catalog => Outcome.fail .capabilityCatalog
  | .outputBinding => Outcome.fail .planningSnapshotMismatch

/-- The execution profile of a planned effect class. -/
def plannedExecutionProfile :
    ProtocolEffectClass → Outcome PlanMaterializerFailure PlannedExecutionProfile
  | .readOnly => pure .localSyncReadOnlyOccurrenceV1
  | .idempotent | .nonIdempotent => pure .localSyncOnceOccurrenceV1
  | .compensatable | .unknown => Outcome.fail .rejected

/-- The spec that a prepared step asks to be planned. -/
def plannedInvocationSpec (host : Host) (step : PreparedPlanStep) :
    Outcome PlanMaterializerFailure PlannedInvocationSpec := do
  let profile ← plannedExecutionProfile step.effectClass
  let spec : PlannedInvocationSpec :=
    { capabilityId := step.capability.capabilityId
      contractVersion := step.capability.contractVersion
      definitionDigest := step.definitionDigest
      actionDigest := step.actionDigest
      planInputDigest := step.materialDigest
      executionProfile := profile
      targetOs := host.os
      targetArch := host.arch }
  spec.new.mapErr fun _ => PlanMaterializerFailure.rejected

/-! ## Settling a call -/

/-- `load_current()?.ok_or(RunNotInitialized)`. -/
def loadInitialized : Routine AgentLoopError RunState := do
  let current ← Routine.loadCurrent.mapErr .store
  Prog.lift (Outcome.okOr current .runNotInitialized)

section

variable (P : Protocol)

/-- `create_event` of the agent loop. -/
def createLoopEvent (state : RunState) (body : RunEventBody) : Routine AgentLoopError RunEvent :=
  createEvent P .eventFactory .eventMetadata state body

/-- Append an event without sidecars on the head of a state. -/
def appendLoopEvent (state : RunState) (body : RunEventBody) : Routine AgentLoopError Commit := do
  let event ← createLoopEvent P state body
  (Routine.append (.append (.fromState state) event)).mapErr .store

def appendModelCallUnknown (state : RunState) (callId : String) (reason : ModelCallUnknownReason) :
    Routine AgentLoopError Commit :=
  appendLoopEvent P state (.modelCallBecameUnknown callId reason)

def appendModelCallRejection (state : RunState) (callId : String)
    (reason : ModelCallRejectionReason) : Routine AgentLoopError Commit :=
  appendLoopEvent P state (.modelCallSettled callId (.rejected reason))

inductive ModelCallConflictIntent where
  | markUnknown (reason : ModelCallUnknownReason)
  | rejectStale
  deriving DecidableEq

/-- The open call of a loaded state, when it is the named one. -/
def requireOpenCall (current : RunState) (callId : String) : Outcome AgentLoopError ModelCallState := do
  let loopState ← Outcome.okOr current.agentLoop .agentLoopNotConfigured
  let modelCalls ← Outcome.okOr loopState.modelCalls .modelCallLifecycleNotConfigured
  let active ← Outcome.okOr modelCalls.activeCall .modelCallNoLongerActive
  Outcome.failIf (active.reservation.callId ≠ callId) .modelCallNoLongerActive
  pure active

def resolveModelCallConflict (callId : String) (intent : ModelCallConflictIntent) :
    Routine AgentLoopError AgentLoopTick := do
  let current ← loadInitialized
  let active ← Prog.lift (requireOpenCall current callId)
  match active.status with
  | .unknown reason => pure (.modelCallRecoveryRequired callId reason false (.fromState current))
  | .reserved =>
    match intent with
    | .markUnknown reason => do
      let commit ← appendModelCallUnknown P current callId reason
      pure (.modelCallRecoveryRequired callId reason true (.fromState commit.state))
    | .rejectStale => do
      let commit ← appendModelCallRejection P current callId .staleHead
      pure (.modelCallRejected .staleHead (.fromState commit.state))

/-- Go on after a settling append; another head leads to the resolution of the conflict. -/
def settleOrResolve (callId : String) (intent : ModelCallConflictIntent)
    (settled : Routine AgentLoopError Commit)
    (finish : Commit → Outcome AgentLoopError AgentLoopTick) :
    Routine AgentLoopError AgentLoopTick := do
  match ← settled.attempt with
  | .ok commit => Prog.lift (finish commit)
  | .error (.store (.headConflict _ _)) => resolveModelCallConflict P callId intent
  | .error error => .stop (.err error)

def recordProposalRejection (reservedState : RunState) (callId : String)
    (reason : ProposalRejection) : Routine AgentLoopError AgentLoopTick :=
  settleOrResolve P callId .rejectStale
    (appendModelCallRejection P reservedState callId .proposalRejected)
    fun commit => pure (.proposalRejected reason (.fromState commit.state))

/-- The append that records a planner failure, with what a conflict would call for. -/
def plannerFailureAppend (reservedState : RunState) (callId : String) (failure : PlannerPortFailure) :
    Routine AgentLoopError Commit × ModelCallConflictIntent :=
  match failure with
  | .timeout => (appendModelCallUnknown P reservedState callId .timeout, .markUnknown .timeout)
  | .unavailable => (appendModelCallUnknown P reservedState callId .transportUnavailable,
      .markUnknown .transportUnavailable)
  | .invalidResponse =>
    (appendModelCallRejection P reservedState callId .plannerInvalidResponse, .rejectStale)
  | .providerLimit => (appendModelCallRejection P reservedState callId .providerLimit, .rejectStale)
  | .requestTooLarge =>
    (appendModelCallRejection P reservedState callId .requestTooLarge, .rejectStale)
  | .rateLimited => (appendModelCallRejection P reservedState callId .rateLimited, .rejectStale)
  | .outputTruncated =>
    (appendModelCallRejection P reservedState callId .outputTruncated, .rejectStale)
  | .providerRejected =>
    (appendModelCallRejection P reservedState callId .providerRejected, .rejectStale)

def recordPlannerFailure (reservedState : RunState) (callId : String) (failure : PlannerPortFailure) :
    Routine AgentLoopError AgentLoopTick :=
  let (settled, conflictIntent) := plannerFailureAppend P reservedState callId failure
  settleOrResolve P callId conflictIntent settled
    fun commit => pure (.plannerUnavailable failure (.fromState commit.state))

def markModelCallUnknownTick (state : RunState) (callId : String) (reason : ModelCallUnknownReason) :
    Routine AgentLoopError AgentLoopTick :=
  settleOrResolve P callId (.markUnknown reason) (appendModelCallUnknown P state callId reason)
    fun commit => pure (.modelCallRecoveryRequired callId reason true (.fromState commit.state))

end

/-! ## Proposals -/

section

variable (D : Digests) (P : Protocol)

/-- `materialize_plan`: retain the arguments of every step and bind their references. -/
def materializePlan (host : Host) (state : RunState) (proposalDigest : String) :
    List PreparedPlanStep → Routine PlanMaterializerFailure
      (List AcceptedPlanStep × List PlannedInvocationMaterialRecord)
  | [] => pure ([], [])
  | step :: rest => do
    let spec ← Prog.lift (plannedInvocationSpec host step)
    let reference ← Routine.materialize
      { runId := state.runId
        stepId := step.stepId
        proposalDigest := proposalDigest
        capability := step.capability
        normalizedArguments := step.normalizedArguments
        materialDigest := step.materialDigest }
    let (binding, input) ← Prog.lift ((PlannedInvocationMaterialRecord.bind D state.runId step.stepId
      proposalDigest spec reference).mapErr fun _ => PlanMaterializerFailure.rejected)
    let (accepted, inputs) ← materializePlan host state proposalDigest rest
    let acceptedStep : AcceptedPlanStep :=
      { stepId := step.stepId
        objective := step.objective
        dependsOn := step.dependsOn
        invocation := binding }
    pure (acceptedStep :: accepted, input :: inputs)

def recordCompletionCandidateTick (baseState reservedState : RunState) (frontier : WorkFrontier)
    (context : PlanningContext) (callId summary : String) : Routine AgentLoopError AgentLoopTick := do
  if frontier.allStepsReceiptCompleted = false then
    recordProposalRejection P reservedState callId .completionWithoutReceiptCompletedPlan
  else if (validateCompletionSummaryCandidate summary).value?.isNone = true then
    recordProposalRejection P reservedState callId .invalidCompletionSummary
  else do
    let turnIndex ← Prog.lift (nextTurnIndex baseState)
    let output ← Prog.lift ((CompletionOutputRecord.bind D baseState.runId turnIndex callId
      context.contextDigest summary).mapErr .completionOutput)
    let decision ← Prog.lift (output.decision.mapErr .completionOutput)
    let event ← createLoopEvent P reservedState (.completionCandidateRecorded decision
      output.candidateId output.summaryDigest (some output.recordDigest))
    settleOrResolve P callId .rejectStale
      ((Routine.append (.withCompletionOutput (.fromState reservedState) event output)).mapErr .store)
      fun commit => do
        let candidate ← Outcome.okOr
          (commit.state.agentLoop.bind AgentLoopState.completionCandidate)
          .completionCandidateNotProjected
        pure (.completionCandidate candidate (some output) true (.fromState commit.state))

variable (J : Schemas) (host : Host) (self : AgentLoop) (inputs : TickInputs)

/-- The plan branch of `handle_proposal`. -/
def handlePlan (baseState reservedState : RunState) (frontier : WorkFrontier)
    (context : PlanningContext) (callId : String) (steps : List ProposedPlanStep)
    (toolCalls : UInt32) : Routine AgentLoopError AgentLoopTick := do
  if toolCalls ≥ self.budget.maxToolCalls then
    recordProposalRejection P reservedState callId .toolCallBudgetExhausted
  else
    match preparePlan D J baseState context inputs.capabilities inputs.resolver frontier self.budget
      steps with
    | .error (.panic message) => .stop (.panic message)
    | .error (.err reason) => recordProposalRejection P reservedState callId reason
    | .ok prepared =>
      match ← (materializePlan D host baseState prepared.proposalDigest prepared.steps).attempt with
      | .error failure =>
        settleOrResolve P callId .rejectStale
          (appendModelCallRejection P reservedState callId .materializationFailed)
          fun commit => pure (.materializerUnavailable failure (.fromState commit.state))
      | .ok (acceptedSteps, records) => do
        let turnIndex ← Prog.lift (nextTurnIndex baseState)
        let decision ← Prog.lift ((ExpectedPlanningTurn.forModelCall turnIndex callId
          context.contextDigest prepared.proposalDigest).mapErr .planningContract)
        let event ← createLoopEvent P reservedState (.planAccepted decision acceptedSteps)
        settleOrResolve P callId .rejectStale
          ((Routine.append (.withPlanInputs (.fromState reservedState) event records)).mapErr .store)
          fun commit => pure (.planAccepted (acceptedSteps.map AcceptedPlanStep.stepId)
            (.fromState commit.state))

def handleProposal (baseState reservedState : RunState) (frontier : WorkFrontier)
    (context : PlanningContext) (callId : String) (proposal : PlanProposal) (toolCalls : UInt32) :
    Routine AgentLoopError AgentLoopTick :=
  match proposal with
  | .completionCandidate summary =>
    recordCompletionCandidateTick D P baseState reservedState frontier context callId summary
  | .plan steps =>
    handlePlan D P J host self inputs baseState reservedState frontier context callId steps toolCalls

/-! ## The planner call -/

/-- The reservation of the next call on a head. -/
def reserveCall (state : RunState) (modelCalls : ModelCallLifecycleState)
    (context : PlanningContext) : Outcome AgentLoopError ModelCallReservation := do
  Outcome.failIf (isSha256Digest inputs.planner.requestProfileDigest = false)
    .invalidPlannerRequestProfileDigest
  let requestDigest ← agentLoopDigest D (.plannerRequest inputs.planner.plannerId
    inputs.planner.requestProfileDigest context.contextDigest)
  let callIndex ← Outcome.okOr (modelCalls.reservedCalls.checkedAdd 1) .budgetCounterOverflow
  let turnIndex ← nextTurnIndex state
  (ModelCallReservation.new D state.runId state.authorityEpoch inputs.planner.plannerId callIndex
    turnIndex state.journalSequence state.journalHeadDigest context.contextDigest
    requestDigest).mapErr .planningContract

/-- Reserve the call, call the planner, and deal with its answer. -/
def callPlanner (state : RunState) (frontier : WorkFrontier) (modelCalls : ModelCallLifecycleState)
    (toolCalls : UInt32) (context : PlanningContext) : Routine AgentLoopError AgentLoopTick := do
  let reservation ← Prog.lift (reserveCall D inputs state modelCalls context)
  let commit ← appendLoopEvent P state (.modelCallReserved reservation)
  match ← (Routine.plan ⟨reservation.callId, reservation.requestDigest, context⟩).attempt with
  | .error failure => recordPlannerFailure P commit.state reservation.callId failure
  | .ok proposal =>
    handleProposal D P J host self inputs state commit.state frontier context reservation.callId
      proposal toolCalls

/-- Load the planning snapshot of the exact head, build the context, and call the planner. -/
def planTurn (state : RunState) (loopState : AgentLoopState) (modelCalls : ModelCallLifecycleState)
    (frontier : WorkFrontier) (toolCalls : UInt32) : Routine AgentLoopError AgentLoopTick := do
  match ← (Routine.loadPlanningSnapshot (.fromState state)
    (min loopState.budget.maxContextBytes maxPlanningContextBytes)).attempt with
  | .error .planningSnapshotBudgetExceeded =>
    pure (.quiescent .contextBudgetExceeded (.fromState state))
  | .error error => .stop (.err (.store error))
  | .ok none => .stop (.err .runNotInitialized)
  | .ok (some snapshot) => do
    Prog.lift (Outcome.failIf (snapshot.state ≠ state) .planningSnapshotMismatch)
    match buildContextOrdered D state snapshot.completedToolOutputs snapshot.planningStepOrder
      snapshot.completedToolOutputOrder frontier inputs.capabilities self.planningConstraints
      loopState.budget with
    | .error (.err error) => Prog.lift (contextBuildFailure state error)
    | .error (.panic message) => .stop (.panic message)
    | .ok context => callPlanner D P J host self inputs state frontier modelCalls toolCalls context

/-- A recorded completion candidate, with its output when it has one. -/
def reportCompletionCandidate (state : RunState) (candidate : CompletionCandidateState) :
    Routine AgentLoopError AgentLoopTick :=
  match candidate.completionOutputRecordDigest with
  | none => pure (.completionCandidate candidate none false (.fromState state))
  | some expectedRecordDigest => do
    let loaded ← (Routine.loadCompletionOutput (.fromState state) candidate.candidateId).mapErr .store
    let output ← Prog.lift (Outcome.okOr loaded .completionOutputMissing)
    let decision ← Prog.lift (output.decision.mapErr .completionOutput)
    Prog.lift ((output.verifyFor D state.runId decision candidate.candidateId
      candidate.summaryDigest).mapErr .completionOutput)
    Prog.lift (Outcome.failIf (output.recordDigest ≠ expectedRecordDigest ∨
      output.contextDigest ≠ candidate.contextDigest ∨
      output.proposalDigest ≠ candidate.proposalDigest) .completionOutputMismatch)
    pure (.completionCandidate candidate (some output) false (.fromState state))

/-! ## Ticks -/

/-- `configure`. -/
def configureLoop (state : RunState) : Routine AgentLoopError AgentLoopTick := do
  let commit ← appendLoopEvent P state (.agentLoopConfigured self.budget)
  pure (.configured (.fromState commit.state))

def configureModelCallLifecycleTick (state : RunState) : Routine AgentLoopError AgentLoopTick := do
  let commit ← appendLoopEvent P state (.modelCallLifecycleConfigured self.modelCallBudget)
  pure (.modelCallLifecycleConfigured (.fromState commit.state))

/-- The open call found by a tick: a reserved one was interrupted. -/
def reportOpenCall (state : RunState) (active : ModelCallState) :
    Routine AgentLoopError AgentLoopTick :=
  match active.status with
  | .reserved => markModelCallUnknownTick P state active.reservation.callId .interrupted
  | .unknown reason =>
    pure (.modelCallRecoveryRequired active.reservation.callId reason false (.fromState state))

/-- What a tick does when the frontier offers no action. -/
def tickIdle (state : RunState) (loopState : AgentLoopState) (modelCalls : ModelCallLifecycleState)
    (frontier : WorkFrontier) (toolCalls : UInt32) : Routine AgentLoopError AgentLoopTick :=
  match modelCalls.activeCall with
  | some active => reportOpenCall P state active
  | none =>
    match loopState.completionCandidate with
    | some candidate => reportCompletionCandidate D state candidate
    | none =>
      match planningQuiescence state loopState modelCalls frontier inputs.capabilities with
      | some reason => pure (.quiescent reason (.fromState state))
      | none => planTurn D P J host self inputs state loopState modelCalls frontier toolCalls

/-- A tick of a configured loop. -/
def tickConfigured (state : RunState) (loopState : AgentLoopState)
    (modelCalls : ModelCallLifecycleState) : Routine AgentLoopError AgentLoopTick := do
  Prog.lift (Outcome.failIf (modelCalls.budget ≠ self.modelCallBudget) .modelCallBudgetMismatch)
  let frontier ← Prog.lift ((deriveFrontier state).mapErr .frontier)
  let toolCalls ← Prog.lift (totalToolCalls state)
  match frontier.nextAction with
  | some action =>
    if actionWouldIssueNewToolCall state action = true ∧
        toolCalls ≥ loopState.budget.maxToolCalls then
      pure (.quiescent .toolCallBudgetExhausted (.fromState state))
    else pure (.actionRequired action (.fromState state))
  | none => tickIdle D P J host self inputs state loopState modelCalls frontier toolCalls

/-- `AgentLoop::tick`. -/
def AgentLoop.tick : Routine AgentLoopError AgentLoopTick := do
  let state ← loadInitialized
  Prog.lift (verifyAgentLoopLease inputs.lease state)
  match state.agentLoop with
  | none => configureLoop P self state
  | some loopState => do
    Prog.lift (Outcome.failIf (loopState.budget ≠ self.budget) .budgetMismatch)
    match loopState.modelCalls with
    | none => configureModelCallLifecycleTick P self state
    | some modelCalls => tickConfigured D P J host self inputs state loopState modelCalls

/-- `AgentLoop::abandon_model_call`. -/
def AgentLoop.abandonModelCall (lease : RunLease) (callId : String) :
    Routine AgentLoopError AgentLoopTick := do
  let state ← loadInitialized
  Prog.lift (verifyAgentLoopLease lease state)
  let loopState ← Prog.lift (Outcome.okOr state.agentLoop .agentLoopNotConfigured)
  Prog.lift (Outcome.failIf (loopState.budget ≠ self.budget) .budgetMismatch)
  let lifecycle ← Prog.lift (Outcome.okOr loopState.modelCalls .modelCallLifecycleNotConfigured)
  Prog.lift (Outcome.failIf (lifecycle.budget ≠ self.modelCallBudget) .modelCallBudgetMismatch)
  let active ← Prog.lift (Outcome.okOr lifecycle.activeCall .modelCallNotActive)
  Prog.lift (Outcome.failIf (active.reservation.callId ≠ callId) .modelCallIdMismatch)
  let commit ← appendLoopEvent P state
    (.modelCallSettled callId (.abandoned .recoveryDiscarded))
  pure (.modelCallAbandoned callId (.fromState commit.state))

end

end Xgeny
