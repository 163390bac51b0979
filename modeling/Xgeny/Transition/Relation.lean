import Xgeny.Frontier.Exact
import Xgeny.Reducer.Apply

set_option autoImplicit false

/-!
# What one event can do

The transition relation of a run, said once: every invariant of the later modules is a case
analysis on it, and never unfolds a handler.

* `StepMove`: how an event of the effect lifecycle changes the step it names;
* `CallEnds`: how an accepted decision ends the active model call;
* `Transition`: how any event changes the run state;
* **`transition_of_applyBody`**: every accepted event is such a transition.
-/

namespace Xgeny

/-- The number of external effect starts over all steps. -/
def attemptsTotal (steps : BTreeMap String StepState) : ℕ :=
  BTreeMap.total (fun step => step.attempts.toNat) steps

/-- The step has committed the effect `effectId`. -/
def StepState.Commits (step : StepState) (effectId : String) : Prop :=
  step.intent.map EffectIntent.effectId = some effectId

/-- How an event of the effect lifecycle changes the step it names. -/
inductive StepMove : RunEventBody → String → StepState → StepState → Prop where
  | materialUnavailable {id effectId : String} {reason : InvocationMaterialUnavailableReason}
      {step : StepState} (heffect : step.Commits effectId) (hstatus : step.status = .intentCommitted) :
      StepMove (.invocationMaterialUnavailable id effectId reason) id step
        { step with status := .manualRequired, uncertaintyReason := some reason.code }
  | executionStarted {id effectId : String} {step : StepState} {attempts : UInt32}
      (heffect : step.Commits effectId) (hstatus : step.status = .intentCommitted)
      (hattempts : attempts.toNat = step.attempts.toNat + 1) :
      StepMove (.effectExecutionStarted id effectId) id step
        { step with status := .executing, attempts := attempts }
  | succeeded {id effectId evidence : String} {output : Option String} {step : StepState}
      (heffect : step.Commits effectId) (hstatus : step.status = .executing)
      (houtput : checkOutputRecord step effectId output .validating = .ok ()) :
      StepMove (.effectSucceeded id effectId evidence output) id step
        { step with
          status := .validating
          effectEvidenceDigest := some evidence
          outputRecordDigest := output }
  | failed {id effectId evidence : String} {step : StepState}
      (heffect : step.Commits effectId) (hstatus : step.status = .executing) :
      StepMove (.effectFailed id effectId evidence) id step
        { step with
          status := .failed
          effectEvidenceDigest := some evidence
          outputRecordDigest := none }
  | becameUnknown {id effectId reason : String} {step : StepState}
      (heffect : step.Commits effectId) (hstatus : step.status = .executing) :
      StepMove (.effectBecameUnknown id effectId reason) id step
        { step with status := .effectUnknown, uncertaintyReason := some reason }
  | reconciliationStarted {id effectId : String} {step : StepState}
      (heffect : step.Commits effectId) (hstatus : step.status = .effectUnknown) :
      StepMove (.reconciliationStarted id effectId) id step { step with status := .reconciling }
  | reconciliationResolved {id effectId evidence : String} {resolution : ReconciliationResolution}
      {step : StepState} (heffect : step.Commits effectId) (hstatus : step.status = .reconciling)
      (hprofile : ¬ (resolution = .provedApplied ∧
        step.toolOutputProfile = some toolOutputProfileV1)) :
      StepMove (.reconciliationResolved id effectId resolution evidence) id step
        { step with
          reconciliationEvidenceDigest := some evidence
          uncertaintyReason := none
          status := resolution.nextStatus }
  | manualRequired {id effectId reason : String} {step : StepState}
      (heffect : step.Commits effectId)
      (hstatus : step.status = .effectUnknown ∨ step.status = .reconciling) :
      StepMove (.manualInterventionRequired id effectId reason) id step
        { step with status := .manualRequired, uncertaintyReason := some reason }
  | verificationPassed {id : String} {step : StepState} (hstatus : step.status = .validating) :
      StepMove (.verificationPassed id) id step { step with status := .completed }
  | verificationFailed {id reason : String} {step : StepState}
      (hstatus : step.status = .validating) :
      StepMove (.verificationFailed id reason) id step { step with status := .failed }
  | verificationRecorded {id effectId receiptId receiptDigest : String}
      {disposition : VerificationDisposition} {step : StepState}
      (heffect : step.Commits effectId) (hstatus : step.status = .validating) :
      StepMove (.verificationRecorded id effectId disposition receiptId receiptDigest) id step
        { step with
          executionReceiptId := some receiptId
          executionReceiptDigest := some receiptDigest
          uncertaintyReason := disposition.uncertainty
          status := disposition.nextStatus }

/-- How an accepted decision changes the model-call lifecycle: not at all when there is none, and
otherwise it ends the reserved call it names, right after the reservation. -/
inductive CallEnds (state : RunState) (decision : ExpectedPlanningTurn) :
    Option ModelCallLifecycleState → Option ModelCallLifecycleState → Prop where
  | legacy (hcall : decision.modelCallId = none) : CallEnds state decision none none
  | bound {calls : ModelCallLifecycleState} {active : ModelCallState} {settled : UInt32}
      (hactive : calls.activeCall = some active) (hstatus : active.status = .reserved)
      (hcall : decision.modelCallId = some active.reservation.callId)
      (hturn : active.reservation.turnIndex = decision.turnIndex)
      (hcontext : active.reservation.contextDigest = decision.contextDigest)
      (hhead : state.journalSequence.toNat = active.reservation.baseSequence.toNat + 1)
      (hsettled : settled.toNat = calls.settledCalls.toNat + 1) :
      CallEnds state decision (some calls)
        (some { calls with settledCalls := settled, activeCall := none })

/-- The state with a new agent loop. -/
def RunState.setLoop (state : RunState) (loop : AgentLoopState) : RunState :=
  { state with agentLoop := some loop }

/-- The loop with new model calls. -/
def AgentLoopState.setCalls (loop : AgentLoopState) (calls : ModelCallLifecycleState) :
    AgentLoopState :=
  { loop with modelCalls := some calls }

/-- The step that a proposed step becomes. -/
def AcceptedPlanStep.toStep (step : AcceptedPlanStep) : StepState :=
  StepState.fresh step.stepId step.objective step.dependsOn (some step.invocation)

/-- The steps after an accepted plan. -/
def addAccepted (steps : BTreeMap String StepState) (plan : List AcceptedPlanStep) :
    BTreeMap String StepState :=
  plan.foldl (fun steps step => steps.insert step.stepId step.toStep) steps

/-- How an event changes the run state. -/
inductive Transition (D : Digests) (state : RunState) : RunEventBody → RunState → Prop where
  | agentLoopConfigured {budget : AgentLoopBudget} (hloop : state.agentLoop = none)
      (hsteps : state.steps.size ≤ budget.maxPlannedSteps.toNat)
      (hattempts : attemptsTotal state.steps ≤ budget.maxToolCalls.toNat) :
      Transition D state (.agentLoopConfigured budget)
        (state.setLoop
          { budget := budget
            acceptedModelTurns := 0
            modelCalls := none
            completionCandidate := none })
  | modelCallLifecycleConfigured {budget : ModelCallBudget} {loop : AgentLoopState}
      (hloop : state.agentLoop = some loop) (hcalls : loop.modelCalls = none)
      (hbudget : loop.acceptedModelTurns ≤ budget.maxModelCalls) :
      Transition D state (.modelCallLifecycleConfigured budget)
        (state.setLoop (loop.setCalls
          { budget := budget
            reservedCalls := loop.acceptedModelTurns
            settledCalls := loop.acceptedModelTurns
            unknownCalls := 0
            activeCall := none }))
  | modelCallReserved {reservation : ModelCallReservation} {loop : AgentLoopState}
      {calls : ModelCallLifecycleState} (hloop : state.agentLoop = some loop)
      (hcalls : loop.modelCalls = some calls) (hidle : calls.activeCall = none)
      (hopen : loop.completionCandidate = none)
      (hturns : loop.acceptedModelTurns < loop.budget.maxModelTurns)
      (hbudget : calls.reservedCalls < calls.budget.maxModelCalls)
      (hindex : reservation.callIndex.toNat = calls.reservedCalls.toNat + 1)
      (hturn : reservation.turnIndex.toNat = loop.acceptedModelTurns.toNat + 1)
      (hbase : reservation.baseSequence = state.journalSequence)
      (hvalid : reservation.validateFor D state.runId state.authorityEpoch = .ok ()) :
      Transition D state (.modelCallReserved reservation)
        (state.setLoop (loop.setCalls
          { calls with
            reservedCalls := reservation.callIndex
            activeCall := some { reservation := reservation, status := .reserved } }))
  | modelCallBecameUnknown {callId : String} {reason : ModelCallUnknownReason}
      {loop : AgentLoopState} {calls : ModelCallLifecycleState} {active : ModelCallState}
      {unknownCalls : UInt32} (hloop : state.agentLoop = some loop)
      (hcalls : loop.modelCalls = some calls) (hactive : calls.activeCall = some active)
      (hcall : active.reservation.callId = callId) (hstatus : active.status = .reserved)
      (hunknown : unknownCalls.toNat = calls.unknownCalls.toNat + 1) :
      Transition D state (.modelCallBecameUnknown callId reason)
        (state.setLoop (loop.setCalls
          { calls with
            unknownCalls := unknownCalls
            activeCall := some { active with status := .unknown reason } }))
  | modelCallSettled {callId : String} {settlement : ModelCallSettlement} {loop : AgentLoopState}
      {calls : ModelCallLifecycleState} {active : ModelCallState} {settledCalls : UInt32}
      (hloop : state.agentLoop = some loop) (hcalls : loop.modelCalls = some calls)
      (hactive : calls.activeCall = some active) (hcall : active.reservation.callId = callId)
      (hsettlement : checkSettlement state active settlement = .ok ())
      (hsettled : settledCalls.toNat = calls.settledCalls.toNat + 1) :
      Transition D state (.modelCallSettled callId settlement)
        (state.setLoop (loop.setCalls
          { calls with
            settledCalls := settledCalls
            activeCall := none }))
  | planAccepted {decision : ExpectedPlanningTurn} {plan : List AcceptedPlanStep}
      {loop : AgentLoopState} {calls : Option ModelCallLifecycleState}
      {proposedIds : BTreeSet String} (hloop : state.agentLoop = some loop)
      (hopen : loop.completionCandidate = none)
      (hturn : decision.turnIndex.toNat = loop.acceptedModelTurns.toNat + 1)
      (hturns : decision.turnIndex ≤ loop.budget.maxModelTurns)
      (hcall : CallEnds state decision loop.modelCalls calls) (hplan : plan ≠ [])
      (hsize : state.steps.size + plan.length ≤ loop.budget.maxPlannedSteps.toNat)
      (hheaders : validateAcceptedPlanHeaders D state decision plan = .ok proposedIds)
      (hschedulable : Schedulable { state with steps := addAccepted state.steps plan }) :
      Transition D state (.planAccepted decision plan)
        { state with
          steps := addAccepted state.steps plan
          agentLoop := some
            { loop with acceptedModelTurns := decision.turnIndex, modelCalls := calls } }
  | completionCandidateRecorded {decision : ExpectedPlanningTurn}
      {candidateId summaryDigest : String} {outputRecordDigest : Option String}
      {loop : AgentLoopState} {calls : Option ModelCallLifecycleState}
      (hloop : state.agentLoop = some loop) (hopen : loop.completionCandidate = none)
      (hturn : decision.turnIndex.toNat = loop.acceptedModelTurns.toNat + 1)
      (hturns : decision.turnIndex ≤ loop.budget.maxModelTurns)
      (hcall : CallEnds state decision loop.modelCalls calls) (hsome : 0 < state.steps.size)
      (hcompleted : ∀ (id : String) (step : StepState), state.steps[id]? = some step →
        receiptReleasesDependency step = true) :
      Transition D state
        (.completionCandidateRecorded decision candidateId summaryDigest outputRecordDigest)
        (state.setLoop
          { loop with
            acceptedModelTurns := decision.turnIndex
            modelCalls := calls
            completionCandidate := some
              { candidateId := candidateId
                contextDigest := decision.contextDigest
                proposalDigest := decision.proposalDigest
                summaryDigest := summaryDigest
                completionOutputRecordDigest := outputRecordDigest } })
  | stepPlanned {id objective : String} {dependsOn : List String} (hnew : id ∉ state.steps)
      (hopen : ∀ loop, state.agentLoop = some loop → loop.completionCandidate = none ∧
        state.steps.size + 1 ≤ loop.budget.maxPlannedSteps.toNat)
      (hself : id ∉ dependsOn) (hnodup : dependsOn.Nodup)
      (hknown : ∀ d ∈ dependsOn, d ∈ state.steps) :
      Transition D state (.stepPlanned id objective dependsOn)
        (state.setStep id (StepState.fresh id objective dependsOn none))
  | effectIntentCommitted {id : String} {intent : EffectIntent} {step : StepState}
      {consumption : AuthorizationConsumption} (hstep : state.steps[id]? = some step)
      (hstatus : step.status = .planned) (hintent : checkIntent D intent = .ok ())
      (hfresh : ∀ (other : String) (s : StepState), state.steps[other]? = some s →
        ¬ s.Commits intent.effectId)
      (hreleased : ∀ d ∈ step.dependsOn, releasesAt state d = true)
      (hplanned : validatePlannedInvocationBinding D step intent = .ok ())
      (hbinding : validateAuthorizationBinding D state id intent = .ok ())
      (hconsumed : consumeAuthorization state intent = .ok consumption) :
      Transition D state (.effectIntentCommitted id intent)
        { state with
          steps := state.steps.insert id
            { step with intent := some intent, status := .intentCommitted }
          authorizationConsumption :=
            state.authorizationConsumption.insert intent.authorization.grantId consumption }
  | moved {body : RunEventBody} {id : String} {step step' : StepState}
      (hstep : state.steps[id]? = some step) (hmove : StepMove body id step step')
      (hbudget : ∀ effectId, body = .effectExecutionStarted id effectId →
        ∀ loop, state.agentLoop = some loop →
          attemptsTotal state.steps < loop.budget.maxToolCalls.toNat) :
      Transition D state body (state.setStep id step')

end Xgeny
