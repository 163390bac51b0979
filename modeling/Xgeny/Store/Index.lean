import Xgeny.SidecarChecks
import Xgeny.Reducer.Apply

set_option autoImplicit false

/-!
# The verified index of a run

A store keeps an index over its journal and its sidecar records, so that an append need not read
the history again. The index is built in two ways: from a whole snapshot, and by one committed
event after the other.

* `VerifiedRunIndex`: the 22 fields of the index;
* `fromSnapshot`: the pass over all records, which refuses a journal with duplicates;
* `applyCommitted`: the update after one commit, which checks nothing again;
* `prepareCommit`: the next record and projection, or the reason why there is none.
-/

namespace Xgeny

/-! ## Heads, commits and errors -/

/-- The head of the journal that an append expects. -/
inductive ExpectedHead where
  | empty
  | exact (sequence : UInt64) (digest : String)
  deriving DecidableEq

/-- What an append has committed. -/
structure Commit where
  record : EventRecord
  state : RunState
  deriving DecidableEq

/-- A state with the journal that it is the state of. -/
structure RunSnapshot where
  records : List EventRecord
  state : RunState
  deriving DecidableEq

/-- Why a store refuses an operation. -/
inductive StoreError where
  | headConflict (expected actual : ExpectedHead)
  | record (error : RecordError)
  | transition (error : TransitionError)
  | invocationMaterial (error : InvocationMaterialError)
  | planningContract (error : PlanningContractError)
  | replay (error : ReplayError)
  | duplicateEventId (eventId : String)
  | sqlite (error : String)
  | json (error : String)
  | sequenceOutOfRange
  | corrupt (message : String)
  | invocationMaterialRequired
  | plannedInvocationInputsRequired
  | unexpectedPlannedInvocationInputs
  | plannedInvocationInputCountMismatch (expected actual : ℕ)
  | plannedInvocationInputMissing (stepId : String)
  | duplicatePlannedInvocationInput (stepId : String)
  | plannedInvocationRetentionMismatch (stepId : String)
  | unexpectedInvocationMaterial
  | executionReceiptRequired
  | unexpectedExecutionReceipt
  | executionReceiptBindingMismatch
  | executionReceiptInvalid
  | unsupportedReceiptProfile
  | receiptProvenanceRequired
  | legacyVerificationAppendRejected
  | toolOutputRequired
  | unexpectedToolOutput
  | toolOutputBindingMismatch
  | toolOutputProfileRequired
  | completionOutputRequired
  | unexpectedCompletionOutput
  | completionOutputBindingMismatch
  | planningSnapshotBudgetExceeded
  | injectedFault (stage : String)
  deriving DecidableEq

/-! ## Anchors -/

/-- A receipt with its place in the journal. -/
structure StoredExecutionReceipt where
  eventSequence : UInt64
  effectId : String
  receipt : ExecutionReceiptBody
  deriving DecidableEq

/-- A tool output with its place in the journal. -/
structure StoredToolOutput where
  eventSequence : UInt64
  record : ToolOutputRecord
  deriving DecidableEq

/-- A completion output with its place in the journal. -/
structure StoredCompletionOutput where
  eventSequence : UInt64
  record : CompletionOutputRecord
  deriving DecidableEq

/-- Where an intent stands in the journal. -/
structure EffectIntentAnchor where
  eventSequence : UInt64
  stepId : String
  intent : EffectIntent
  deriving DecidableEq

/-- Where the start of an effect stands in the journal. -/
structure EffectStartAnchor where
  eventSequence : UInt64
  stepId : String
  recordedAt : String
  executionAttempt : UInt32
  deriving DecidableEq

/-- Where the plan of a step stands in the journal. -/
structure PlannedInvocationAnchor where
  eventSequence : UInt64
  binding : PlannedInvocationBinding
  deriving DecidableEq

/-- Where a step was planned: the record, and its place in the plan. -/
structure StepJournalPosition where
  eventSequence : UInt64
  eventStepIndex : ℕ
  deriving DecidableEq

/-- What the event of a receipt binds. -/
structure ReceiptEventAnchor where
  eventSequence : UInt64
  runId : String
  stepId : String
  effectId : String
  disposition : VerificationDisposition
  receiptId : String
  receiptDigest : String
  startedAt : String
  endedAt : String
  deriving DecidableEq

/-- What the event of a tool output binds. -/
structure ToolOutputEventAnchor where
  eventSequence : UInt64
  runId : String
  stepId : String
  effectId : String
  evidenceDigest : String
  recordDigest : String
  executionAttempt : UInt32
  deriving DecidableEq

/-- What the event of a completion output binds. -/
structure CompletionOutputEventAnchor where
  eventSequence : UInt64
  runId : String
  candidateId : String
  turnIndex : UInt32
  modelCallId : String
  contextDigest : String
  proposalDigest : String
  summaryDigest : String
  recordDigest : String
  deriving DecidableEq

/-- The sidecar records handed to one append. -/
structure CommitSidecars where
  planInputs : Option (List PlannedInvocationMaterialRecord) := none
  material : Option InvocationMaterialRecord := none
  output : Option ToolOutputRecord := none
  completionOutput : Option CompletionOutputRecord := none
  receipt : Option ExecutionReceiptBody := none

/-- The anchors found while the sidecar records were verified. -/
structure CommitAnchors where
  output : Option ToolOutputEventAnchor := none
  completionOutput : Option CompletionOutputEventAnchor := none
  receipt : Option ReceiptEventAnchor := none

/-! ## The index -/

/-- What is kept about a journal so that an append need not read all of it. -/
structure VerifiedRunIndex where
  state : Option RunState
  lastRecord : Option EventRecord
  eventIds : BTreeSet String
  stepPositions : BTreeMap String StepJournalPosition
  plannedInvocations : BTreeMap String PlannedInvocationAnchor
  planInputStepIds : BTreeSet String
  intents : BTreeMap String EffectIntentAnchor
  effectStarts : BTreeMap String EffectStartAnchor
  receiptEvents : List ReceiptEventAnchor
  receiptEventPositions : BTreeMap String ℕ
  toolOutputEvents : BTreeMap String ToolOutputEventAnchor
  materialEffectIds : BTreeSet String
  receiptIds : BTreeSet String
  receiptDigests : BTreeSet String
  receiptEffectIds : BTreeSet String
  receiptHeadDigest : Option String
  toolOutputEffectIds : BTreeSet String
  toolOutputIds : BTreeSet String
  toolOutputRecordDigests : BTreeSet String
  toolOutputDigests : BTreeMap String String
  toolOutputSizes : BTreeMap String UInt64
  completionOutputEvent : Option CompletionOutputEventAnchor
  deriving DecidableEq

/-- `VerifiedRunIndex::default`. -/
def VerifiedRunIndex.default : VerifiedRunIndex where
  state := none
  lastRecord := none
  eventIds := ∅
  stepPositions := ∅
  plannedInvocations := ∅
  planInputStepIds := ∅
  intents := ∅
  effectStarts := ∅
  receiptEvents := []
  receiptEventPositions := ∅
  toolOutputEvents := ∅
  materialEffectIds := ∅
  receiptIds := ∅
  receiptDigests := ∅
  receiptEffectIds := ∅
  receiptHeadDigest := none
  toolOutputEffectIds := ∅
  toolOutputIds := ∅
  toolOutputRecordDigests := ∅
  toolOutputDigests := ∅
  toolOutputSizes := ∅
  completionOutputEvent := none

/-- The head that a record makes. -/
def EventRecord.head (record : EventRecord) : ExpectedHead := .exact record.sequence record.digest

/-- The head of the indexed journal. -/
def VerifiedRunIndex.head (self : VerifiedRunIndex) : ExpectedHead :=
  (self.lastRecord.map EventRecord.head).getD .empty

/-! ## Anchors of an event -/

/-- The anchor of the receipt of an event, when it has one. -/
def VerifiedRunIndex.receiptAnchorFor (self : VerifiedRunIndex) (record : EventRecord) :
    Outcome StoreError ReceiptEventAnchor :=
  match record.event.body with
  | .verificationRecorded stepId effectId disposition receiptId receiptDigest => do
    let intent ← Outcome.okOr self.intents[effectId]?
      (.corrupt "execution receipt has no committed effect intent")
    Outcome.failIf (intent.stepId ≠ stepId ∨ intent.eventSequence ≥ record.sequence)
      (.corrupt "execution receipt precedes or differs from its effect intent")
    let started ← Outcome.okOr self.effectStarts[effectId]?
      (.corrupt "execution receipt has no start event")
    Outcome.failIf (started.stepId ≠ stepId ∨ started.eventSequence ≥ record.sequence)
      (.corrupt "execution receipt precedes or differs from its start event")
    pure
      { eventSequence := record.sequence
        runId := record.event.runId
        stepId := stepId
        effectId := effectId
        disposition := disposition
        receiptId := receiptId
        receiptDigest := receiptDigest
        startedAt := started.recordedAt
        endedAt := record.event.recordedAt }
  | _ => Outcome.fail .unexpectedExecutionReceipt

/-- The anchor of the tool output of an event, when it has one. -/
def VerifiedRunIndex.toolOutputAnchorFor (self : VerifiedRunIndex) (record : EventRecord) :
    Outcome StoreError ToolOutputEventAnchor :=
  match record.event.body with
  | .effectSucceeded stepId effectId evidenceDigest (some recordDigest) => do
    let intent ← Outcome.okOr self.intents[effectId]?
      (.corrupt "tool output has no committed effect intent")
    Outcome.failIf (intent.stepId ≠ stepId ∨ intent.eventSequence ≥ record.sequence)
      (.corrupt "tool output precedes or differs from its effect intent")
    Outcome.failIf (intent.intent.toolOutputProfile ≠ some toolOutputProfileV1)
      (.corrupt "tool output has no supported durable profile")
    let started ← Outcome.okOr self.effectStarts[effectId]?
      (.corrupt "tool output has no effect start event")
    Outcome.failIf (started.stepId ≠ stepId ∨ started.eventSequence ≥ record.sequence)
      (.corrupt "tool output precedes or differs from its start event")
    pure
      { eventSequence := record.sequence
        runId := record.event.runId
        stepId := stepId
        effectId := effectId
        evidenceDigest := evidenceDigest
        recordDigest := recordDigest
        executionAttempt := started.executionAttempt }
  | _ => Outcome.fail .unexpectedToolOutput

/-- The anchor of the completion output of an event, when it has one. -/
def completionOutputAnchorFor (record : EventRecord) :
    Outcome StoreError CompletionOutputEventAnchor :=
  match record.event.body with
  | .completionCandidateRecorded decision candidateId summaryDigest (some recordDigest) => do
    let modelCallId ← Outcome.okOr decision.modelCallId
      (.corrupt "completion output event has no durable model-call binding")
    pure
      { eventSequence := record.sequence
        runId := record.event.runId
        candidateId := candidateId
        turnIndex := decision.turnIndex
        modelCallId := modelCallId
        contextDigest := decision.contextDigest
        proposalDigest := decision.proposalDigest
        summaryDigest := summaryDigest
        recordDigest := recordDigest }
  | _ => Outcome.fail .unexpectedCompletionOutput

/-- The start anchor that `EffectExecutionStarted` leaves, one attempt after the last. -/
def VerifiedRunIndex.effectStartFor (self : VerifiedRunIndex) (record : EventRecord)
    (stepId effectId : String) : EffectStartAnchor where
  eventSequence := record.sequence
  stepId := stepId
  recordedAt := record.event.recordedAt
  executionAttempt := (self.effectStarts[effectId]?.map fun anchor =>
    anchor.executionAttempt.saturatingAdd 1).getD 1

/-! ## The pass over a snapshot -/

/-- One step of an accepted plan, entered by the pass over a snapshot. -/
def VerifiedRunIndex.indexPlannedStep (sequence : UInt64) (index : VerifiedRunIndex)
    (entry : AcceptedPlanStep × ℕ) : Outcome StoreError VerifiedRunIndex := do
  let stepPositions ← index.stepPositions.insertNew entry.1.stepId
    { eventSequence := sequence, eventStepIndex := entry.2 }
    (.corrupt "journal contains a duplicate Step position")
  let plannedInvocations ← index.plannedInvocations.insertNew entry.1.stepId
    { eventSequence := sequence, binding := entry.1.invocation }
    (.corrupt "journal contains a duplicate planned invocation")
  pure { index with stepPositions := stepPositions, plannedInvocations := plannedInvocations }

/-- Index the event of a receipt. -/
def VerifiedRunIndex.indexReceiptEvent (index : VerifiedRunIndex) (record : EventRecord) :
    Outcome StoreError VerifiedRunIndex := do
  let anchor ← index.receiptAnchorFor record
  let positions ← index.receiptEventPositions.insertNew anchor.effectId index.receiptEvents.length
    (.corrupt "journal contains duplicate Receipt events for one effect")
  pure { index with
    receiptEventPositions := positions
    receiptEvents := index.receiptEvents ++ [anchor] }

/-- The branches of `from_snapshot` over one event. -/
def VerifiedRunIndex.indexEvent (index : VerifiedRunIndex) (record : EventRecord) :
    Outcome StoreError VerifiedRunIndex :=
  match record.event.body with
  | .stepPlanned stepId _ _ => do
    let stepPositions ← index.stepPositions.insertNew stepId
      { eventSequence := record.sequence, eventStepIndex := 0 }
      (.corrupt "journal contains a duplicate Step position")
    pure { index with stepPositions := stepPositions }
  | .planAccepted _ steps =>
    Outcome.foldl (VerifiedRunIndex.indexPlannedStep record.sequence) index steps.zipIdx
  | .effectIntentCommitted stepId intent => do
    let intents ← index.intents.insertNew intent.effectId
      { eventSequence := record.sequence, stepId := stepId, intent := intent }
      (.corrupt "journal contains a duplicate effect intent")
    pure { index with intents := intents }
  | .effectExecutionStarted stepId effectId =>
    pure { index with
      effectStarts := index.effectStarts.insert effectId
        (index.effectStartFor record stepId effectId) }
  | .effectSucceeded _ _ _ (some _) => do
    let anchor ← index.toolOutputAnchorFor record
    let toolOutputEvents ← index.toolOutputEvents.insertNew anchor.effectId anchor
      (.corrupt "journal contains duplicate tool-output events")
    pure { index with toolOutputEvents := toolOutputEvents }
  | .completionCandidateRecorded _ _ _ (some _) => do
    Outcome.failIf (index.completionOutputEvent ≠ none)
      (.corrupt "journal contains duplicate completion-output events")
    let anchor ← completionOutputAnchorFor record
    pure { index with completionOutputEvent := some anchor }
  | .verificationRecorded .. => index.indexReceiptEvent record
  | _ => pure index

/-- One iteration of `from_snapshot`. -/
def VerifiedRunIndex.indexRecord (index : VerifiedRunIndex) (record : EventRecord) :
    Outcome StoreError VerifiedRunIndex := do
  let eventIds ← index.eventIds.insertNew record.event.eventId
    (.corrupt "journal contains a duplicate event identifier")
  let index ← { index with eventIds := eventIds }.indexEvent record
  pure { index with lastRecord := some record }

/-- Build the index from the whole journal. -/
def VerifiedRunIndex.fromSnapshot (snapshot : Option RunSnapshot) :
    Outcome StoreError VerifiedRunIndex :=
  match snapshot with
  | none => pure .default
  | some snapshot =>
    Outcome.foldl VerifiedRunIndex.indexRecord
      { VerifiedRunIndex.default with state := some snapshot.state } snapshot.records

/-! ## The update after a commit -/

/-- One step of an accepted plan, entered after a commit. -/
def VerifiedRunIndex.applyPlannedStep (sequence : UInt64) (index : VerifiedRunIndex)
    (entry : AcceptedPlanStep × ℕ) : VerifiedRunIndex :=
  { index with
    stepPositions := index.stepPositions.insert entry.1.stepId
      { eventSequence := sequence, eventStepIndex := entry.2 }
    plannedInvocations := index.plannedInvocations.insert entry.1.stepId
      { eventSequence := sequence, binding := entry.1.invocation } }

/-- The branches of `apply_committed` over the event. -/
def VerifiedRunIndex.applyCommittedEvent (index : VerifiedRunIndex) (record : EventRecord)
    (anchors : CommitAnchors) : Outcome StoreError VerifiedRunIndex :=
  match record.event.body with
  | .stepPlanned stepId _ _ =>
    pure { index with
      stepPositions := index.stepPositions.insert stepId
        { eventSequence := record.sequence, eventStepIndex := 0 } }
  | .planAccepted _ steps =>
    pure (steps.zipIdx.foldl (VerifiedRunIndex.applyPlannedStep record.sequence) index)
  | .effectIntentCommitted stepId intent =>
    pure { index with
      intents := index.intents.insert intent.effectId
        { eventSequence := record.sequence, stepId := stepId, intent := intent } }
  | .effectExecutionStarted stepId effectId =>
    pure { index with
      effectStarts := index.effectStarts.insert effectId
        (index.effectStartFor record stepId effectId) }
  | .effectSucceeded _ _ _ (some _) => do
    let anchor ← Outcome.expect anchors.output
      "verified tool-output commit must retain its event anchor"
    pure { index with toolOutputEvents := index.toolOutputEvents.insert anchor.effectId anchor }
  | .completionCandidateRecorded _ _ _ (some _) => do
    let anchor ← Outcome.expect anchors.completionOutput
      "verified completion-output commit must retain its event anchor"
    pure { index with completionOutputEvent := some anchor }
  | .verificationRecorded .. => do
    let anchor ← Outcome.expect anchors.receipt
      "verified Receipt commit must retain its event anchor"
    pure { index with
      receiptEventPositions := index.receiptEventPositions.insert anchor.effectId
        index.receiptEvents.length
      receiptEvents := index.receiptEvents ++ [anchor] }
  | _ => pure index

/-- Add the sidecars of a plan. -/
def VerifiedRunIndex.applyPlanInputs (index : VerifiedRunIndex)
    (inputs : List PlannedInvocationMaterialRecord) : VerifiedRunIndex :=
  { index with
    planInputStepIds := inputs.foldl (fun ids input => ids.insert input.stepId)
      index.planInputStepIds }

/-- Add the material of an effect. -/
def VerifiedRunIndex.applyMaterial (index : VerifiedRunIndex) (material : InvocationMaterialRecord) :
    VerifiedRunIndex :=
  { index with materialEffectIds := index.materialEffectIds.insert material.effectId }

/-- Add a tool output. -/
def VerifiedRunIndex.applyOutput (index : VerifiedRunIndex) (output : ToolOutputRecord) :
    VerifiedRunIndex :=
  { index with
    toolOutputEffectIds := index.toolOutputEffectIds.insert output.effectId
    toolOutputIds := index.toolOutputIds.insert output.outputId
    toolOutputRecordDigests := index.toolOutputRecordDigests.insert output.recordDigest
    toolOutputDigests := index.toolOutputDigests.insert output.effectId output.outputDigest
    toolOutputSizes := index.toolOutputSizes.insert output.effectId output.canonicalSizeBytes }

/-- Add a receipt. -/
def VerifiedRunIndex.applyReceipt (index : VerifiedRunIndex) (body : RunEventBody)
    (receipt : ExecutionReceiptBody) : VerifiedRunIndex :=
  { index with
    receiptIds := index.receiptIds.insert receipt.receiptId
    receiptDigests := index.receiptDigests.insert receipt.receiptDigest
    receiptEffectIds :=
      match body with
      | .verificationRecorded _ effectId _ _ _ => index.receiptEffectIds.insert effectId
      | _ => index.receiptEffectIds
    receiptHeadDigest := some receipt.receiptDigest }

/-- Apply an update for the content of an option, when it has one. -/
def VerifiedRunIndex.updateWith {α : Type} (index : VerifiedRunIndex) (o : Option α)
    (f : VerifiedRunIndex → α → VerifiedRunIndex) : VerifiedRunIndex :=
  match o with
  | some a => f index a
  | none => index

/-- The index after a commit. -/
def VerifiedRunIndex.applyCommitted (self : VerifiedRunIndex) (commit : Commit)
    (sidecars : CommitSidecars) (anchors : CommitAnchors) : Outcome StoreError VerifiedRunIndex := do
  let index := { self with eventIds := self.eventIds.insert commit.record.event.eventId }
  let index ← index.applyCommittedEvent commit.record anchors
  let index := index.updateWith sidecars.planInputs VerifiedRunIndex.applyPlanInputs
  let index := index.updateWith sidecars.material VerifiedRunIndex.applyMaterial
  let index := index.updateWith sidecars.output VerifiedRunIndex.applyOutput
  let index := index.updateWith sidecars.receipt fun index receipt =>
    index.applyReceipt commit.record.event.body receipt
  pure { index with state := some commit.state, lastRecord := some commit.record }

/-! ## The next commit -/

section

variable (D : Digests)

/-- Check an append against the index and build its commit. -/
def prepareCommit (index : VerifiedRunIndex) (expected : ExpectedHead) (event : RunEvent) :
    Outcome StoreError Commit := do
  Outcome.failIf (expected ≠ index.head) (.headConflict expected index.head)
  Outcome.failIf (event.eventId ∈ index.eventIds) (.duplicateEventId event.eventId)
  let record ← (EventRecord.next D index.lastRecord event).mapErr .record
  let state ← (applyRecord D index.state record).mapErr .transition
  pure { record := record, state := state }

/-- The journal replays to the persisted state, or there is neither. -/
def verifiedSnapshot (records : List EventRecord) (persisted : Option RunState) :
    Outcome StoreError (Option RunSnapshot) :=
  match records, persisted with
  | [], none => pure none
  | [], some _ => Outcome.fail (.corrupt "projection exists without committed events")
  | _ :: _, none => Outcome.fail (.corrupt "committed events exist without a projection")
  | _ :: _, some persisted => do
    let replayed ← (replay D records).mapErr .replay
    Outcome.failIf (persisted ≠ replayed)
      (.corrupt "persisted projection differs from event replay")
    pure (some { records := records, state := replayed })

/-- The snapshot with the index built from it. -/
def auditSnapshot (records : List EventRecord) (persisted : Option RunState) :
    Outcome StoreError (Option RunSnapshot × VerifiedRunIndex) := do
  let snapshot ← verifiedSnapshot D records persisted
  let index ← VerifiedRunIndex.fromSnapshot snapshot
  pure (snapshot, index)

end

end Xgeny
