import Xgeny.Store.Receipts

set_option autoImplicit false

/-!
# Sidecar checks of a store

Every kind of sidecar is checked three times: as a bundle, against the event it is handed in with;
as a candidate, against the index before the commit; and as a stored record, against the index
rebuilt from the journal.

* `verifyCommitSidecars`: the five bundle checks;
* `verifyReceiptCandidate`, `verifyToolOutputCandidate`, `verifyCompletionOutputCandidate`,
  `verifyPlannedMaterialRetention`: the candidate checks;
* `verifyPlanInputRecords`, `verifyMaterialRecords`, `verifyToolOutputRecords`,
  `verifyReceiptRecords`, `verifyCompletionOutputRecord`: the audit passes.
-/

namespace Xgeny

/-- The key set of a map. -/
def keySet {β : Type} (m : BTreeMap String β) : BTreeSet String :=
  Std.ExtTreeSet.ofList m.keys compare

section

variable (D : Digests) (P : Protocol)

/-! ## Planned inputs -/

/-- The inputs of a bundle by step, each step at most once. -/
def inputsByStep (inputs : List PlannedInvocationMaterialRecord) :
    Outcome StoreError (BTreeMap String PlannedInvocationMaterialRecord) :=
  Outcome.foldl (fun byStep input => byStep.insertNew input.stepId input
    (.duplicatePlannedInvocationInput input.stepId)) ∅ inputs

def verifyPlanInputBundle (event : RunEvent)
    (inputs : Option (List PlannedInvocationMaterialRecord)) : Outcome StoreError Unit :=
  match event.body, inputs with
  | .planAccepted _ steps, some inputs => do
    Outcome.failIf (inputs.length ≠ steps.length)
      (.plannedInvocationInputCountMismatch steps.length inputs.length)
    let byStep ← inputsByStep inputs
    Outcome.forEach steps fun step => do
      let input ← Outcome.okOr byStep[step.stepId]? (.plannedInvocationInputMissing step.stepId)
      (input.verifyFor D event.runId step.stepId step.invocation).mapErr .planningContract
  | .planAccepted .., none => Outcome.fail .plannedInvocationInputsRequired
  | _, some inputs => Outcome.failIf (inputs ≠ []) .unexpectedPlannedInvocationInputs
  | _, none => pure ()

def verifyPlanInputRecords (index : VerifiedRunIndex)
    (inputs : BTreeMap String PlannedInvocationMaterialRecord) :
    Outcome StoreError VerifiedRunIndex := do
  Outcome.forEach index.plannedInvocations.toList fun (stepId, anchor) => do
    let input ← Outcome.okOr inputs[stepId]?
      (.corrupt ("planned Step `" ++ stepId ++ "` has no invocation input sidecar"))
    let state ← Outcome.okOr index.state (.corrupt "planned input exists without a Run")
    (input.verifyFor D state.runId stepId anchor.binding).mapErr fun error =>
      .corrupt ("planned invocation input for Step `" ++ stepId ++ "` is invalid: " ++ error.display)
  Outcome.failIf (inputs.size ≠ index.plannedInvocations.size)
    (.corrupt ("planned invocation input count differs from accepted Steps: expected " ++
      toString index.plannedInvocations.size ++ ", actual " ++ toString inputs.size))
  pure { index with planInputStepIds := keySet inputs }

def verifyPlannedMaterialRetention (index : VerifiedRunIndex) (event : RunEvent)
    (material : InvocationMaterialRecord) (input : Option PlannedInvocationMaterialRecord) :
    Outcome StoreError Unit :=
  match event.body with
  | .effectIntentCommitted stepId _ =>
    match index.plannedInvocations[stepId]?, input with
    | none, none => pure ()
    | none, some _ => Outcome.fail (.corrupt "planned input exists for a legacy effect Step")
    | some _, none => Outcome.fail (.plannedInvocationInputMissing stepId)
    | some anchor, some input => do
      let state ← Outcome.okOr index.state (.corrupt "planned input exists without a Run")
      (input.verifyFor D state.runId stepId anchor.binding).mapErr .planningContract
      Outcome.failIf (material.retention ≠ .reconstructableReference input.reference)
        (.plannedInvocationRetentionMismatch stepId)
  | _ => pure ()

/-! ## Invocation material -/

/-- The receipt profile and the tool-output profile fit the class of the effect. -/
def verifyIntentProfiles (intent : EffectIntent) : Outcome StoreError Unit := do
  let provenance ← Outcome.okOr intent.receiptProvenance .receiptProvenanceRequired
  let secondProfile := provenance.profileVersion = coreReceiptProfileV2 ∧
    (intent.effectClass = .readOnly ∨ intent.effectClass = .idempotent ∨
      intent.effectClass = .nonIdempotent)
  let firstProfile := provenance.profileVersion = coreReceiptProfileV1 ∧
    (intent.effectClass = .reversible ∨ intent.effectClass = .idempotent ∨
      intent.effectClass = .nonIdempotent)
  Outcome.failIf (¬ (secondProfile ∨ firstProfile)) .unsupportedReceiptProfile
  Outcome.failIf
    (¬ (secondProfile ∧ provenance.toolOutputProfile = some toolOutputProfileV1 ∨
      firstProfile ∧ provenance.toolOutputProfile = none)) .toolOutputProfileRequired

def verifyMaterialBundle (event : RunEvent) (material : Option InvocationMaterialRecord) :
    Outcome StoreError Unit :=
  match event.body, material with
  | .effectIntentCommitted stepId intent, some material => do
    verifyIntentProfiles intent
    (material.verifyFor D event.runId stepId intent).mapErr .invocationMaterial
  | .effectIntentCommitted _ intent, none => do
    verifyIntentProfiles intent
    Outcome.fail .invocationMaterialRequired
  | _, some _ => Outcome.fail .unexpectedInvocationMaterial
  | _, none => pure ()

def verifyMaterialRecords (index : VerifiedRunIndex)
    (materials : BTreeMap String InvocationMaterialRecord) : Outcome StoreError VerifiedRunIndex := do
  Outcome.forEach index.intents.toList fun (effectId, anchor) => do
    let material ← Outcome.okOr materials[effectId]?
      (.corrupt ("effect `" ++ effectId ++ "` has no invocation material descriptor"))
    let state ← Outcome.okOr index.state (.corrupt "invocation material exists without a Run")
    (material.verifyFor D state.runId anchor.stepId anchor.intent).mapErr fun error =>
      .corrupt ("invocation material for effect `" ++ effectId ++ "` is invalid: " ++ error.display)
  Outcome.failIf (materials.size ≠ index.intents.size)
    (.corrupt ("invocation material count differs from effect intents: expected " ++
      toString index.intents.size ++ ", actual " ++ toString materials.size))
  pure { index with materialEffectIds := keySet materials }

/-! ## Tool outputs -/

def verifyToolOutputBundle (event : RunEvent) (output : Option ToolOutputRecord) :
    Outcome StoreError Unit :=
  match event.body, output with
  | .effectSucceeded _ _ _ expected, some output =>
    Outcome.failIf (expected ≠ some output.recordDigest) .toolOutputBindingMismatch
  | .effectSucceeded _ _ _ (some _), none => Outcome.fail .toolOutputRequired
  | _, some _ => Outcome.fail .unexpectedToolOutput
  | _, none => pure ()

def verifyToolOutputCandidate (index : VerifiedRunIndex) (record : EventRecord)
    (output : ToolOutputRecord) : Outcome StoreError ToolOutputEventAnchor := do
  let anchor ← index.toolOutputAnchorFor record
  Outcome.failIf
    (anchor.effectId ∈ index.toolOutputEffectIds ∨ output.outputId ∈ index.toolOutputIds ∨
      output.recordDigest ∈ index.toolOutputRecordDigests)
    (.corrupt "duplicate tool-output identity")
  let intent ← Outcome.expect index.intents[anchor.effectId]?
    "output anchor verifies its effect intent"
  (output.verifyFor D anchor.runId anchor.stepId intent.intent anchor.executionAttempt
    anchor.evidenceDigest).mapErr fun _ => .toolOutputBindingMismatch
  Outcome.failIf (output.recordDigest ≠ anchor.recordDigest) .toolOutputBindingMismatch
  pure anchor

def verifyStoredToolOutput (index : VerifiedRunIndex) (anchor : ToolOutputEventAnchor)
    (stored : StoredToolOutput) : Outcome StoreError Unit := do
  Outcome.failIf
    (stored.eventSequence ≠ anchor.eventSequence ∨ stored.record.effectId ≠ anchor.effectId ∨
      stored.record.recordDigest ≠ anchor.recordDigest)
    (.corrupt "tool output differs from its journal binding")
  let intent ← Outcome.okOr index.intents[anchor.effectId]?
    (.corrupt "tool output has no effect intent")
  (stored.record.verifyFor D anchor.runId anchor.stepId intent.intent anchor.executionAttempt
    anchor.evidenceDigest).mapErr fun _ => .corrupt "tool output record is invalid"

def indexToolOutput (index : VerifiedRunIndex) (anchor : ToolOutputEventAnchor)
    (output : ToolOutputRecord) : Outcome StoreError VerifiedRunIndex := do
  let duplicate := StoreError.corrupt "duplicate tool-output identity"
  let effectIds ← index.toolOutputEffectIds.insertNew anchor.effectId duplicate
  let outputIds ← index.toolOutputIds.insertNew output.outputId duplicate
  let recordDigests ← index.toolOutputRecordDigests.insertNew output.recordDigest duplicate
  let digests ← index.toolOutputDigests.insertNew anchor.effectId output.outputDigest duplicate
  let sizes ← index.toolOutputSizes.insertNew anchor.effectId output.canonicalSizeBytes duplicate
  pure { index with
    toolOutputEffectIds := effectIds
    toolOutputIds := outputIds
    toolOutputRecordDigests := recordDigests
    toolOutputDigests := digests
    toolOutputSizes := sizes }

/-- `sort_by_key(|anchor| anchor.event_sequence)` over the tool-output events. -/
def VerifiedRunIndex.sortedToolOutputEvents (index : VerifiedRunIndex) :
    List ToolOutputEventAnchor :=
  (BTreeMap.vals index.toolOutputEvents).insertionSort
    fun left right => left.eventSequence ≤ right.eventSequence

/-- One iteration of `verify_tool_output_records`. -/
def verifyToolOutputRecord (outputs : BTreeMap String StoredToolOutput) (index : VerifiedRunIndex)
    (anchor : ToolOutputEventAnchor) : Outcome StoreError VerifiedRunIndex := do
  let stored ← Outcome.okOr outputs[anchor.effectId]?
    (.corrupt ("effect `" ++ anchor.effectId ++ "` has no durable tool output"))
  verifyStoredToolOutput D index anchor stored
  indexToolOutput index anchor stored.record

def verifyToolOutputRecords (index : VerifiedRunIndex)
    (outputs : BTreeMap String StoredToolOutput) : Outcome StoreError VerifiedRunIndex := do
  Outcome.failIf (index.toolOutputEvents.size ≠ outputs.size)
    (.corrupt ("tool-output count differs from output-bound success events: expected " ++
      toString index.toolOutputEvents.size ++ ", actual " ++ toString outputs.size))
  Outcome.foldl (verifyToolOutputRecord D outputs) index index.sortedToolOutputEvents

/-! ## Completion outputs -/

def verifyCompletionOutputBundle (event : RunEvent) (output : Option CompletionOutputRecord) :
    Outcome StoreError Unit :=
  match event.body, output with
  | .completionCandidateRecorded _ _ _ expected, some output =>
    Outcome.failIf (expected ≠ some output.recordDigest) .completionOutputBindingMismatch
  | .completionCandidateRecorded .., none => Outcome.fail .completionOutputRequired
  | _, some _ => Outcome.fail .unexpectedCompletionOutput
  | _, none => pure ()

def completionAnchorDecision (anchor : CompletionOutputEventAnchor) :
    Outcome StoreError ExpectedPlanningTurn :=
  (ExpectedPlanningTurn.forModelCall anchor.turnIndex anchor.modelCallId anchor.contextDigest
    anchor.proposalDigest).mapErr .planningContract

def verifyCompletionOutputCandidate (index : VerifiedRunIndex) (record : EventRecord)
    (output : CompletionOutputRecord) : Outcome StoreError CompletionOutputEventAnchor := do
  Outcome.failIf (index.completionOutputEvent ≠ none)
    (.corrupt "duplicate completion-output identity")
  let anchor ← completionOutputAnchorFor record
  let decision ← completionAnchorDecision anchor
  (output.verifyFor D anchor.runId decision anchor.candidateId anchor.summaryDigest).mapErr
    fun _ => .completionOutputBindingMismatch
  Outcome.failIf (output.recordDigest ≠ anchor.recordDigest) .completionOutputBindingMismatch
  pure anchor

def verifyStoredCompletionOutput (anchor : CompletionOutputEventAnchor)
    (stored : StoredCompletionOutput) : Outcome StoreError Unit := do
  Outcome.failIf
    (stored.eventSequence ≠ anchor.eventSequence ∨ stored.record.candidateId ≠ anchor.candidateId ∨
      stored.record.recordDigest ≠ anchor.recordDigest)
    (.corrupt "completion output differs from its journal binding")
  let decision ← completionAnchorDecision anchor
  (stored.record.verifyFor D anchor.runId decision anchor.candidateId anchor.summaryDigest).mapErr
    fun _ => .corrupt "completion output record is invalid"

def verifyCompletionOutputRecord (index : VerifiedRunIndex)
    (stored : Option StoredCompletionOutput) : Outcome StoreError Unit :=
  match index.completionOutputEvent, stored with
  | none, none => pure ()
  | none, some _ =>
    Outcome.fail (.corrupt "completion output has no digest-bound completion event")
  | some _, none =>
    Outcome.fail (.corrupt "digest-bound completion event has no durable output")
  | some anchor, some stored => verifyStoredCompletionOutput D anchor stored

/-! ## Receipts -/

def verifyReceiptBundle (event : RunEvent) (receipt : Option ExecutionReceiptBody) :
    Outcome StoreError Unit :=
  match event.body, receipt with
  | .verificationRecorded stepId _ _ receiptId receiptDigest, some receipt => do
    (validateExecutionReceipt D P receipt).mapErr fun _ => .executionReceiptInvalid
    Outcome.failIf
      (receipt.runId ≠ event.runId ∨ receipt.stepId ≠ stepId ∨ receipt.receiptId ≠ receiptId ∨
        receipt.receiptDigest ≠ receiptDigest) .executionReceiptBindingMismatch
  | .verificationRecorded .., none => Outcome.fail .executionReceiptRequired
  | .verificationPassed .., none => Outcome.fail .legacyVerificationAppendRejected
  | .verificationFailed .., none => Outcome.fail .legacyVerificationAppendRejected
  | _, some _ => Outcome.fail .unexpectedExecutionReceipt
  | _, none => pure ()

/-- The receipt repeats the event it is bound to and the head of the receipt chain. -/
def receiptFollows (anchor : ReceiptEventAnchor) (previousDigest : Option String)
    (receipt : ExecutionReceiptBody) : Bool :=
  receipt.receiptId == anchor.receiptId && receipt.receiptDigest == anchor.receiptDigest &&
    receipt.runId == anchor.runId && receipt.stepId == anchor.stepId &&
    decide (receipt.previousReceiptDigest = previousDigest)

def verifyReceiptCandidate (index : VerifiedRunIndex) (record : EventRecord)
    (receipt : ExecutionReceiptBody) : Outcome StoreError ReceiptEventAnchor := do
  let anchor ← index.receiptAnchorFor record
  Outcome.failIf
    (receipt.receiptId ∈ index.receiptIds ∨ receipt.receiptDigest ∈ index.receiptDigests ∨
      anchor.effectId ∈ index.receiptEffectIds)
    (.corrupt "duplicate execution receipt identity")
  Outcome.failIf (¬ receiptFollows anchor index.receiptHeadDigest receipt = true)
    (.corrupt "execution receipt differs from its verified journal or chain anchor")
  let intent ← Outcome.expect index.intents[anchor.effectId]?
    "Receipt anchor creation verifies the effect intent"
  let provenance ← Outcome.okOr intent.intent.receiptProvenance .receiptProvenanceRequired
  verifyReceiptIntentBinding receipt intent.intent provenance anchor.disposition
  verifyReceiptToolOutputBinding index anchor.effectId receipt
  verifyReceiptTimestamps P anchor receipt
  pure anchor

/-- One iteration of `verify_receipt_records`, with the digest of the receipt before. -/
def verifyReceiptRecord (acc : VerifiedRunIndex × Option String)
    (entry : ReceiptEventAnchor × StoredExecutionReceipt) :
    Outcome StoreError (VerifiedRunIndex × Option String) := do
  let (index, previousDigest) := acc
  let (anchor, stored) := entry
  let receipt := stored.receipt
  (validateExecutionReceipt D P receipt).mapErr fun _ =>
    StoreError.corrupt "execution receipt document is invalid"
  Outcome.failIf
    (stored.eventSequence ≠ anchor.eventSequence ∨ stored.effectId ≠ anchor.effectId ∨
      ¬ receiptFollows anchor previousDigest receipt = true)
    (.corrupt "execution receipt differs from its journal binding")
  let intent ← Outcome.expect index.intents[anchor.effectId]?
    "Receipt anchor creation verifies the effect intent"
  let provenance ← Outcome.okOr intent.intent.receiptProvenance
    (.corrupt "execution receipt has no durable provenance")
  verifyReceiptIntentBinding receipt intent.intent provenance anchor.disposition
  verifyReceiptToolOutputBinding index anchor.effectId receipt
  verifyReceiptTimestamps P anchor receipt
  let duplicate := StoreError.corrupt "execution receipt identity is duplicated"
  let receiptIds ← index.receiptIds.insertNew receipt.receiptId duplicate
  let receiptDigests ← index.receiptDigests.insertNew receipt.receiptDigest duplicate
  let receiptEffectIds ← index.receiptEffectIds.insertNew anchor.effectId duplicate
  pure
    ({ index with
        receiptIds := receiptIds
        receiptDigests := receiptDigests
        receiptEffectIds := receiptEffectIds },
      some receipt.receiptDigest)

def verifyReceiptRecords (index : VerifiedRunIndex) (receipts : List StoredExecutionReceipt) :
    Outcome StoreError VerifiedRunIndex := do
  Outcome.failIf (index.receiptEvents.length ≠ receipts.length)
    (.corrupt ("execution receipt count differs from finalization events: expected " ++
      toString index.receiptEvents.length ++ ", actual " ++ toString receipts.length))
  let (index, previousDigest) ← Outcome.foldl (verifyReceiptRecord D P) (index, none)
    (index.receiptEvents.zip receipts)
  pure { index with receiptHeadDigest := previousDigest }

/-! ## The bundle of one append -/

/-- `verify_commit_sidecars`; the memory store makes the same five checks in the same order. -/
def verifyCommitSidecars (event : RunEvent) (sidecars : CommitSidecars) : Outcome StoreError Unit := do
  verifyPlanInputBundle D event sidecars.planInputs
  verifyMaterialBundle D event sidecars.material
  verifyReceiptBundle D P event sidecars.receipt
  verifyToolOutputBundle event sidecars.output
  verifyCompletionOutputBundle event sidecars.completionOutput

end

end Xgeny
