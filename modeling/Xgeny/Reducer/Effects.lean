import Xgeny.Reducer.ModelCalls

set_option autoImplicit false

/-!
# The effect lifecycle of one step

Each handler finds the step, checks that the event names its committed effect and that the step is
in the one status the event may leave, and writes the step back with its next status.
-/

namespace Xgeny

/-- Write one step back. -/
def RunState.setStep (state : RunState) (stepId : String) (step : StepState) : RunState :=
  { state with steps := state.steps.insert stepId step }

/-- `step_mut`. -/
def stepMut (state : RunState) (stepId : String) : Outcome TransitionError StepState :=
  Outcome.okOr state.steps[stepId]? (.unknownStep stepId)

/-- `matching_step_mut`: the step whose committed effect is `effectId`. -/
def matchingStepMut (state : RunState) (stepId effectId : String) :
    Outcome TransitionError StepState := do
  let step ← stepMut state stepId
  let actual := step.intent.map EffectIntent.effectId
  Outcome.failIf (actual ≠ some effectId) (.effectMismatch stepId actual effectId)
  pure step

def invalidTransition (step : StepState) (body : RunEventBody) : TransitionError :=
  .invalidStepTransition step.stepId step.status body.kind

def requireStatus (step : StepState) (required : StepStatus) (body : RunEventBody) :
    Outcome TransitionError Unit :=
  Outcome.failIf (step.status ≠ required) (invalidTransition step body)

def recordLegacyVerification (state : RunState) (stepId : String) (nextStatus : StepStatus)
    (body : RunEventBody) : Outcome TransitionError RunState := do
  let step ← stepMut state stepId
  requireStatus step .validating body
  pure (state.setStep stepId { step with status := nextStatus })

/-- A configured loop still admits one more effect start. -/
def checkToolCallBudget (state : RunState) : Outcome TransitionError Unit :=
  Outcome.whenSome state.agentLoop fun loopState => do
    let starts ← Outcome.okOr (totalAttempts state.steps) .toolCallBudgetExceeded
    Outcome.failIf (starts ≥ loopState.budget.maxToolCalls) .toolCallBudgetExceeded

def recordExecutionStarted (state : RunState) (stepId effectId : String) (body : RunEventBody) :
    Outcome TransitionError RunState := do
  checkToolCallBudget state
  let step ← matchingStepMut state stepId effectId
  requireStatus step .intentCommitted body
  let attempts ← Outcome.okOr (step.attempts.checkedAdd 1) (.attemptOverflow stepId)
  pure (state.setStep stepId { step with status := .executing, attempts := attempts })

def recordEffectUnknown (state : RunState) (stepId effectId reason : String) (body : RunEventBody) :
    Outcome TransitionError RunState := do
  let step ← matchingStepMut state stepId effectId
  requireStatus step .executing body
  pure (state.setStep stepId
    { step with status := .effectUnknown, uncertaintyReason := some reason })

/-- The branch `ReconciliationStarted` of `apply_effect_lifecycle`. -/
def recordReconciliationStarted (state : RunState) (stepId effectId : String)
    (body : RunEventBody) : Outcome TransitionError RunState := do
  let step ← matchingStepMut state stepId effectId
  requireStatus step .effectUnknown body
  pure (state.setStep stepId { step with status := .reconciling })

/-- The status after a reconciliation. -/
def ReconciliationResolution.nextStatus : ReconciliationResolution → StepStatus
  | .provedApplied => .validating
  | .provedNotApplied => .intentCommitted
  | .failed => .failed

def recordReconciliation (state : RunState) (stepId effectId : String)
    (resolution : ReconciliationResolution) (evidenceDigest : String) (body : RunEventBody) :
    Outcome TransitionError RunState := do
  let step ← matchingStepMut state stepId effectId
  requireStatus step .reconciling body
  Outcome.failIf (resolution = .provedApplied ∧ step.toolOutputProfile = some toolOutputProfileV1)
    (.toolOutputRecordRequired effectId)
  pure (state.setStep stepId
    { step with
      reconciliationEvidenceDigest := some evidenceDigest
      uncertaintyReason := none
      status := resolution.nextStatus })

def recordManualRequired (state : RunState) (stepId effectId reason : String)
    (body : RunEventBody) : Outcome TransitionError RunState := do
  let step ← matchingStepMut state stepId effectId
  Outcome.failIf (¬ (step.status = .effectUnknown ∨ step.status = .reconciling))
    (invalidTransition step body)
  pure (state.setStep stepId
    { step with status := .manualRequired, uncertaintyReason := some reason })

/-- An observation carries an output record exactly when its profile asks for one. -/
def checkOutputRecord (step : StepState) (effectId : String) (outputRecordDigest : Option String)
    (nextStatus : StepStatus) : Outcome TransitionError Unit :=
  match outputRecordDigest with
  | some digest => do
    Outcome.failIf (step.toolOutputProfile ≠ some toolOutputProfileV1)
      (.unexpectedToolOutputRecord effectId)
    Outcome.failIf (¬ isSha256Digest digest = true) (.invalidToolOutputRecordDigest effectId)
  | none =>
    Outcome.failIf (step.toolOutputProfile = some toolOutputProfileV1 ∧ nextStatus = .validating)
      (.toolOutputRecordRequired effectId)

def recordEffectObservation (state : RunState) (stepId effectId evidenceDigest : String)
    (outputRecordDigest : Option String) (nextStatus : StepStatus) (body : RunEventBody) :
    Outcome TransitionError RunState := do
  let step ← matchingStepMut state stepId effectId
  requireStatus step .executing body
  checkOutputRecord step effectId outputRecordDigest nextStatus
  pure (state.setStep stepId
    { step with
      status := nextStatus
      effectEvidenceDigest := some evidenceDigest
      outputRecordDigest := outputRecordDigest })

/-- The status after a recorded verification. -/
def VerificationDisposition.nextStatus : VerificationDisposition → StepStatus
  | .passed => .completed
  | .failed => .failed
  | .inconclusive => .manualRequired

/-- The uncertainty left by a recorded verification. -/
def VerificationDisposition.uncertainty : VerificationDisposition → Option String
  | .passed => none
  | .failed => none
  | .inconclusive => some "verification_inconclusive"

def recordVerification (state : RunState) (stepId effectId : String)
    (disposition : VerificationDisposition) (receiptId receiptDigest : String)
    (body : RunEventBody) : Outcome TransitionError RunState := do
  let step ← matchingStepMut state stepId effectId
  requireStatus step .validating body
  pure (state.setStep stepId
    { step with
      executionReceiptId := some receiptId
      executionReceiptDigest := some receiptDigest
      uncertaintyReason := disposition.uncertainty
      status := disposition.nextStatus })

def markMaterialUnavailable (state : RunState) (stepId effectId : String)
    (reason : InvocationMaterialUnavailableReason) (body : RunEventBody) :
    Outcome TransitionError RunState := do
  let step ← matchingStepMut state stepId effectId
  requireStatus step .intentCommitted body
  pure (state.setStep stepId
    { step with status := .manualRequired, uncertaintyReason := some reason.code })

/-- `apply_effect_lifecycle`; the events handled by `apply_body` never reach it. -/
def applyEffectLifecycle (state : RunState) (body : RunEventBody) :
    Outcome TransitionError RunState :=
  match body with
  | .invocationMaterialUnavailable stepId effectId reason =>
    markMaterialUnavailable state stepId effectId reason body
  | .effectExecutionStarted stepId effectId => recordExecutionStarted state stepId effectId body
  | .effectSucceeded stepId effectId evidenceDigest outputRecordDigest =>
    recordEffectObservation state stepId effectId evidenceDigest outputRecordDigest .validating body
  | .effectFailed stepId effectId evidenceDigest =>
    recordEffectObservation state stepId effectId evidenceDigest none .failed body
  | .effectBecameUnknown stepId effectId reason =>
    recordEffectUnknown state stepId effectId reason body
  | .reconciliationStarted stepId effectId =>
    recordReconciliationStarted state stepId effectId body
  | .reconciliationResolved stepId effectId resolution evidenceDigest =>
    recordReconciliation state stepId effectId resolution evidenceDigest body
  | .manualInterventionRequired stepId effectId reason =>
    recordManualRequired state stepId effectId reason body
  | .verificationPassed stepId => recordLegacyVerification state stepId .completed body
  | .verificationFailed stepId _ => recordLegacyVerification state stepId .failed body
  | .verificationRecorded stepId effectId disposition receiptId receiptDigest =>
    recordVerification state stepId effectId disposition receiptId receiptDigest body
  | _ => Outcome.abort "handled by apply_body"

end Xgeny
