import Xgeny.State
import Xgeny.Lib.Word

set_option autoImplicit false

/-!
# Agent loop and model calls

The handlers that configure the agent loop and its model-call lifecycle, and the four ways in
which a call moves: it is reserved, it becomes unknown, it is settled, or it ends with an accepted
decision (`validateModelCallSuccess`, `settleSuccessfulModelCall`).
-/

namespace Xgeny

/-- The number of external effect starts over all steps, as a checked sum. -/
def totalAttempts (steps : BTreeMap String StepState) : Option UInt32 :=
  UInt32.checkedSum ((BTreeMap.vals steps).map StepState.attempts)

def configureAgentLoop (state : RunState) (budget : AgentLoopBudget) :
    Outcome TransitionError RunState := do
  budget.validate.mapErr .planningContract
  Outcome.failIf (state.agentLoop.isSome = true) .agentLoopAlreadyConfigured
  let plannedSteps ← Outcome.okOr (UInt32.tryFrom state.steps.size) .plannedStepBudgetExceeded
  Outcome.failIf (plannedSteps > budget.maxPlannedSteps) .plannedStepBudgetExceeded
  let toolCalls ← Outcome.okOr (totalAttempts state.steps) .toolCallBudgetExceeded
  Outcome.failIf (toolCalls > budget.maxToolCalls) .toolCallBudgetExceeded
  pure { state with agentLoop := some {
    budget := budget
    acceptedModelTurns := 0
    modelCalls := none
    completionCandidate := none } }

/-- The durable order of the model-call counters. -/
def validateModelCallCounters (loopState : AgentLoopState) : Outcome TransitionError Unit :=
  Outcome.whenSome loopState.modelCalls fun calls =>
    Outcome.failIf (loopState.acceptedModelTurns > calls.settledCalls ∨
      calls.settledCalls > calls.reservedCalls ∨ calls.unknownCalls > calls.reservedCalls)
      .modelCallCounterInvariant

def configureModelCallLifecycle (state : RunState) (budget : ModelCallBudget) :
    Outcome TransitionError RunState := do
  budget.validate.mapErr .planningContract
  let loopState ← Outcome.okOr state.agentLoop .agentLoopNotConfigured
  Outcome.failIf (loopState.modelCalls.isSome = true) .modelCallLifecycleAlreadyConfigured
  Outcome.failIf (budget.maxModelCalls < loopState.acceptedModelTurns)
    (.modelCallBudgetBelowHistoricalAcceptedTurns budget.maxModelCalls loopState.acceptedModelTurns)
  let loopState := { loopState with modelCalls := some {
    budget := budget
    reservedCalls := loopState.acceptedModelTurns
    settledCalls := loopState.acceptedModelTurns
    unknownCalls := 0
    activeCall := none } }
  validateModelCallCounters loopState
  pure { state with agentLoop := some loopState }

def reserveModelCall (D : Digests) (state : RunState) (reservation : ModelCallReservation) :
    Outcome TransitionError RunState := do
  (reservation.validateFor D state.runId state.authorityEpoch).mapErr .planningContract
  let loopState ← Outcome.okOr state.agentLoop .agentLoopNotConfigured
  Outcome.failIf (loopState.completionCandidate.isSome = true) .completionCandidateAlreadyRecorded
  Outcome.failIf (loopState.acceptedModelTurns ≥ loopState.budget.maxModelTurns)
    .modelTurnBudgetExceeded
  let calls ← Outcome.okOr loopState.modelCalls .modelCallLifecycleNotConfigured
  Outcome.failIf (calls.activeCall.isSome = true) .modelCallActive
  Outcome.failIf (calls.reservedCalls ≥ calls.budget.maxModelCalls) .modelCallBudgetExceeded
  let expectedCallIndex ← Outcome.okOr (calls.reservedCalls.checkedAdd 1) .modelCallBudgetExceeded
  Outcome.failIf (reservation.callIndex ≠ expectedCallIndex)
    (.unexpectedModelCallIndex expectedCallIndex reservation.callIndex)
  let expectedTurnIndex ← Outcome.okOr (loopState.acceptedModelTurns.checkedAdd 1)
    .modelTurnBudgetExceeded
  Outcome.failIf (reservation.turnIndex ≠ expectedTurnIndex)
    (.unexpectedModelCallTurn expectedTurnIndex reservation.turnIndex)
  Outcome.failIf (reservation.baseSequence ≠ state.journalSequence ∨
    reservation.baseHeadDigest ≠ state.journalHeadDigest) .modelCallBaseHeadMismatch
  let loopState := { loopState with modelCalls := some { calls with
    reservedCalls := expectedCallIndex
    activeCall := some { reservation := reservation, status := .reserved } } }
  validateModelCallCounters loopState
  pure { state with agentLoop := some loopState }

def markModelCallUnknown (state : RunState) (callId : String) (reason : ModelCallUnknownReason) :
    Outcome TransitionError RunState := do
  (requireModelCallId "call_id" callId).mapErr .planningContract
  let loopState ← Outcome.okOr state.agentLoop .agentLoopNotConfigured
  let calls ← Outcome.okOr loopState.modelCalls .modelCallLifecycleNotConfigured
  let active ← Outcome.okOr calls.activeCall .modelCallNotReserved
  Outcome.failIf (active.reservation.callId ≠ callId) .modelCallIdMismatch
  Outcome.failIf (active.status ≠ .reserved) .modelCallNotReserved
  let unknownCalls ← Outcome.okOr (calls.unknownCalls.checkedAdd 1) .modelCallCounterOverflow
  let loopState := { loopState with modelCalls := some { calls with
    unknownCalls := unknownCalls
    activeCall := some { active with status := .unknown reason } } }
  validateModelCallCounters loopState
  pure { state with agentLoop := some loopState }

/-- A rejection must come from a reserved call, and its reason must say whether the head is still
the one right after the reservation. An abandonment is always possible. -/
def checkSettlement (state : RunState) (active : ModelCallState) :
    ModelCallSettlement → Outcome TransitionError Unit
  | .rejected reason => do
    Outcome.failIf (active.status ≠ .reserved) .modelCallNotReserved
    let immediateSequence ← Outcome.okOr (active.reservation.baseSequence.checkedAdd 1)
      .modelCallCounterOverflow
    Outcome.failIf (¬ (state.journalSequence = immediateSequence ↔ reason ≠ .staleHead))
      .modelCallSettlementHeadMismatch
  | .abandoned _ => pure ()

def settleModelCall (state : RunState) (callId : String) (settlement : ModelCallSettlement) :
    Outcome TransitionError RunState := do
  (requireModelCallId "call_id" callId).mapErr .planningContract
  let loopState ← Outcome.okOr state.agentLoop .agentLoopNotConfigured
  let calls ← Outcome.okOr loopState.modelCalls .modelCallLifecycleNotConfigured
  let active ← Outcome.okOr calls.activeCall .modelCallNotReserved
  Outcome.failIf (active.reservation.callId ≠ callId) .modelCallIdMismatch
  checkSettlement state active settlement
  let settledCalls ← Outcome.okOr (calls.settledCalls.checkedAdd 1) .modelCallCounterOverflow
  let loopState := { loopState with modelCalls := some { calls with
    settledCalls := settledCalls
    activeCall := none } }
  validateModelCallCounters loopState
  pure { state with agentLoop := some loopState }

/-! ## Calls that end with a decision -/

/-- The decision names the reserved call, its turn and its context, and the journal head is the
reservation itself. -/
def checkActiveCall (state : RunState) (decision : ExpectedPlanningTurn)
    (calls : ModelCallLifecycleState) (callId : String) : Outcome TransitionError Unit := do
  let active ← Outcome.okOr calls.activeCall .modelCallNotReserved
  Outcome.failIf (active.reservation.callId ≠ callId) .modelCallIdMismatch
  Outcome.failIf (active.status ≠ .reserved) .modelCallNotReserved
  Outcome.failIf (active.reservation.turnIndex ≠ decision.turnIndex)
    (.unexpectedModelCallTurn active.reservation.turnIndex decision.turnIndex)
  Outcome.failIf (active.reservation.contextDigest ≠ decision.contextDigest)
    .modelCallContextMismatch
  let immediateSequence ← Outcome.okOr (active.reservation.baseSequence.checkedAdd 1)
    .modelCallCounterOverflow
  Outcome.failIf (state.journalSequence ≠ immediateSequence) .staleModelCallResponse

def validateModelCallSuccess (state : RunState) (decision : ExpectedPlanningTurn) :
    Outcome TransitionError Unit := do
  let loopState ← Outcome.okOr state.agentLoop .agentLoopNotConfigured
  match loopState.modelCalls, decision.modelCallId with
  | none, none => pure ()
  | none, some _ => Outcome.fail .modelCallLifecycleNotConfigured
  | some _, none => Outcome.fail .modelCallDecisionRequired
  | some calls, some callId => checkActiveCall state decision calls callId

def settleSuccessfulModelCall (loopState : AgentLoopState) :
    Outcome TransitionError AgentLoopState :=
  match loopState.modelCalls with
  | none => pure loopState
  | some calls => do
    let active ← Outcome.okOr calls.activeCall .modelCallNotReserved
    Outcome.failIf (active.status ≠ .reserved) .modelCallNotReserved
    let settledCalls ← Outcome.okOr (calls.settledCalls.checkedAdd 1) .modelCallCounterOverflow
    let loopState := { loopState with modelCalls := some { calls with
      settledCalls := settledCalls
      activeCall := none } }
    validateModelCallCounters loopState
    pure loopState

end Xgeny
