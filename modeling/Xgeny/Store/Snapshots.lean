import Xgeny.Store.Memory

set_option autoImplicit false

/-!
# Snapshots for verification and for planning

What the runtime reads of a run besides its journal: the minimal state that finalizes a step, and the
state with the completed tool outputs that a planning turn shows to the model.

* `RunStore`: the methods of the trait that its default implementations call;
* `RunStore.loadVerificationSnapshot`: the default, which reads the records backwards;
* `MemoryRunStore.loadVerificationSnapshot`: the override, which reads the index;
* `buildPlanningSnapshot`: steps in the order of the journal, outputs in the order of the receipts.
-/

namespace Xgeny

/-! ## Verification snapshots -/

structure RunVerificationSnapshot where
  state : RunState
  effectStartedAt : Option String
  previousReceiptDigest : Option String
  toolOutput : Option ToolOutputRecord

/-- The start of the effect of a step. -/
def VerifiedRunIndex.effectStartedAt (self : VerifiedRunIndex) (state : RunState) (stepId : String) :
    Option String := do
  let step ← state.steps[stepId]?
  let intent ← step.intent
  let started ← self.effectStarts[intent.effectId]?
  if started.stepId = stepId then some started.recordedAt else none

/-- `verification_snapshot` of the index. -/
def VerifiedRunIndex.verificationSnapshot (self : VerifiedRunIndex) (stepId : String) :
    Option RunVerificationSnapshot :=
  self.state.map fun state =>
    { state := state
      effectStartedAt := self.effectStartedAt state stepId
      previousReceiptDigest := self.receiptHeadDigest
      toolOutput := none }

section

variable (D : Digests) (P : Protocol)

/-- The stored output of one effect agrees with its event. -/
def verifyToolOutputPoint (index : VerifiedRunIndex) (effectId : String)
    (stored : Option StoredToolOutput) : Outcome StoreError Unit :=
  match index.toolOutputEvents[effectId]?, stored with
  | none, none => pure ()
  | none, some _ => Outcome.fail (.corrupt "tool output has no output-bound success event")
  | some _, none => Outcome.fail (.corrupt "output-bound success has no durable tool output")
  | some anchor, some stored => verifyStoredToolOutput D index anchor stored

def MemoryRunStore.loadVerificationSnapshot (self : MemoryRunStore) (stepId : String) :
    Outcome StoreError (Option RunVerificationSnapshot) :=
  match self.index.verificationSnapshot stepId with
  | none => pure none
  | some snapshot =>
    match (snapshot.state.steps[stepId]?.bind StepState.intent).map EffectIntent.effectId with
    | none => pure (some snapshot)
    | some effectId => do
      verifyToolOutputPoint D self.index effectId self.outputs[effectId]?
      pure (some { snapshot with
        toolOutput := self.outputs[effectId]?.map StoredToolOutput.record })

/-- The effect of a step, once it is committed. -/
def RunState.effectOf (state : RunState) (stepId : String) : Option String :=
  (state.steps[stepId]?.bind StepState.intent).map EffectIntent.effectId

def MemoryRunStore.loadToolOutput (self : MemoryRunStore) (effectId : String) :
    Outcome StoreError (Option ToolOutputRecord) := do
  verifyToolOutputPoint D self.index effectId self.outputs[effectId]?
  pure (self.outputs[effectId]?.map StoredToolOutput.record)

def MemoryRunStore.loadWithExecutionReceipts (self : MemoryRunStore) :
    Outcome StoreError (Option RunSnapshot × List ExecutionReceiptBody) := do
  let snapshot ← self.load D P
  pure (snapshot, self.receipts.map StoredExecutionReceipt.receipt)

/-- The methods of a store that the default implementations of the trait call. -/
structure RunStore where
  loadWithExecutionReceipts : Outcome StoreError (Option RunSnapshot × List ExecutionReceiptBody)
  loadToolOutput : String → Outcome StoreError (Option ToolOutputRecord)

def MemoryRunStore.runStore (self : MemoryRunStore) : RunStore where
  loadWithExecutionReceipts := self.loadWithExecutionReceipts D P
  loadToolOutput := self.loadToolOutput D

/-- The time of the start of an effect by this record. -/
def EventRecord.startedAt (stepId effectId : String) (record : EventRecord) : Option String :=
  match record.event.body with
  | .effectExecutionStarted candidateStep candidateEffect =>
    if candidateStep = stepId ∧ candidateEffect = effectId then some record.event.recordedAt
    else none
  | _ => none

/-- The default `load_verification_snapshot`. -/
def RunStore.loadVerificationSnapshot (self : RunStore) (stepId : String) :
    Outcome StoreError (Option RunVerificationSnapshot) := do
  let (snapshot, receipts) ← self.loadWithExecutionReceipts
  match snapshot with
  | none => pure none
  | some snapshot => do
    let effectId := snapshot.state.effectOf stepId
    let outputRequired := snapshot.state.steps[stepId]?.any fun step => step.outputRecordDigest.isSome
    let effectStartedAt := effectId.bind fun effectId =>
      snapshot.records.reverse.findSome? (EventRecord.startedAt stepId effectId)
    let toolOutput ← match outputRequired, effectId with
      | true, some effectId => self.loadToolOutput effectId
      | _, _ => pure none
    pure (some
      { state := snapshot.state
        effectStartedAt := effectStartedAt
        previousReceiptDigest := receipts.getLast?.map ExecutionReceiptBody.receiptDigest
        toolOutput := toolOutput })

/-! ## Planning snapshots -/

structure RunPlanningSnapshot where
  state : RunState
  completedToolOutputs : BTreeMap String ToolOutputRecord
  planningStepOrder : List String
  completedToolOutputOrder : List String

/-- The order of positioned steps: by event, by place in the event, and then by name. -/
def positionedLe (a b : StepJournalPosition × String) : Prop :=
  a.1.eventSequence < b.1.eventSequence ∨ a.1.eventSequence = b.1.eventSequence ∧
    (a.1.eventStepIndex < b.1.eventStepIndex ∨
      a.1.eventStepIndex = b.1.eventStepIndex ∧ a.2 ≤ b.2)

instance decidablePositionedLe : DecidableRel positionedLe := fun a b =>
  inferInstanceAs (Decidable (a.1.eventSequence < b.1.eventSequence ∨ _ ∧ (_ ∨ _)))

def planningStepOrder (index : VerifiedRunIndex) (state : RunState) :
    Outcome StoreError (List String) := do
  Outcome.failIf
    (index.stepPositions.size ≠ state.steps.size ∨ ∃ id ∈ index.stepPositions.keys, id ∉ state.steps)
    (.corrupt "journal Step chronology differs from the projected WorkGraph")
  let positioned := index.stepPositions.toList.map fun entry => (entry.2, entry.1)
  pure ((positioned.insertionSort positionedLe).map Prod.snd)

/-- The order of receipts: by event, and then by step. -/
def receiptLe (a b : ReceiptEventAnchor) : Prop :=
  a.eventSequence < b.eventSequence ∨ a.eventSequence = b.eventSequence ∧ a.stepId ≤ b.stepId

instance decidableReceiptLe : DecidableRel receiptLe := fun a b =>
  inferInstanceAs (Decidable (a.eventSequence < b.eventSequence ∨ _ ∧ _))

/-- One receipt in the order of the completed outputs. -/
def observeReceipt (acc : BTreeSet String × List String) (receipt : ReceiptEventAnchor) :
    Outcome StoreError (BTreeSet String × List String) := do
  let observed ← acc.1.insertNew receipt.stepId
    (StoreError.corrupt "completed ToolOutput has duplicate Receipt chronology")
  pure (observed, acc.2 ++ [receipt.stepId])

def completedToolOutputOrder (index : VerifiedRunIndex) (expected : BTreeSet String) :
    Outcome StoreError (List String) := do
  let receipts := (index.receiptEvents.filter fun receipt =>
    receipt.disposition = .passed ∧ receipt.stepId ∈ expected).insertionSort receiptLe
  let (observed, order) ← Outcome.foldl observeReceipt (∅, []) receipts
  Outcome.failIf (observed ≠ expected)
    (.corrupt "completed ToolOutput chronology differs from passed Receipts")
  pure order

/-- A step whose output is selected, its effect and the digest that the projection expects. -/
structure OutputSelection where
  stepId : String
  effectId : String
  expectedRecordDigest : String

/-- The output of one step is selected when the step is completed and bound to an output. -/
def selectOutput (index : VerifiedRunIndex) (maxOutputBytes : UInt64)
    (acc : UInt64 × List OutputSelection) (entry : String × StepState) :
    Outcome StoreError (UInt64 × List OutputSelection) :=
  let (stepId, step) := entry
  if step.status ≠ .completed then pure acc
  else match step.outputRecordDigest with
    | none => pure acc
    | some expectedRecordDigest => do
      let intent ← Outcome.okOr step.intent
        (.corrupt "completed output-bound Step has no committed effect intent")
      let receiptId ← Outcome.okOr step.executionReceiptId
        (.corrupt "completed output-bound Step has no Core Receipt ID")
      let receiptDigest ← Outcome.okOr step.executionReceiptDigest
        (.corrupt "completed output-bound Step has no Core Receipt digest")
      let receiptAnchor ← Outcome.okOr
        (index.receiptEventPositions[intent.effectId]?.bind fun position =>
          index.receiptEvents[position]?)
        (.corrupt "completed output-bound Step has no verified Core Receipt")
      Outcome.failIf
        (receiptAnchor.stepId ≠ stepId ∨ receiptAnchor.disposition ≠ .passed ∨
          receiptAnchor.receiptId ≠ receiptId ∨ receiptAnchor.receiptDigest ≠ receiptDigest ∨
          intent.effectId ∉ index.receiptEffectIds)
        (.corrupt "completed tool output differs from its passed Core Receipt")
      let outputSize ← Outcome.okOr index.toolOutputSizes[intent.effectId]?
        (.corrupt "completed tool output has no verified size commitment")
      let selectedOutputBytes ← Outcome.okOr (UInt64.checkedAdd acc.1 outputSize)
        .planningSnapshotBudgetExceeded
      Outcome.failIf (selectedOutputBytes > maxOutputBytes) .planningSnapshotBudgetExceeded
      pure (selectedOutputBytes, acc.2 ++ [⟨stepId, intent.effectId, expectedRecordDigest⟩])

/-- One selected output is loaded. -/
def loadSelected (index : VerifiedRunIndex)
    (loadOutput : String → Outcome StoreError (Option StoredToolOutput))
    (completedToolOutputs : BTreeMap String ToolOutputRecord) (selection : OutputSelection) :
    Outcome StoreError (BTreeMap String ToolOutputRecord) := do
  let stored ← loadOutput selection.effectId
  verifyToolOutputPoint D index selection.effectId stored
  let stored ← Outcome.okOr stored
    (.corrupt "completed output-bound Step has no durable tool output")
  Outcome.failIf
    (stored.record.stepId ≠ selection.stepId ∨
      stored.record.recordDigest ≠ selection.expectedRecordDigest ∨
      index.toolOutputDigests[selection.effectId]? ≠ some stored.record.outputDigest)
    (.corrupt "completed tool output differs from its verified projection")
  completedToolOutputs.insertNew selection.stepId stored.record
    (.corrupt "completed tool output Step identity is duplicated")

def buildPlanningSnapshot (index : VerifiedRunIndex) (expected : ExpectedHead)
    (maxOutputBytes : UInt64) (loadOutput : String → Outcome StoreError (Option StoredToolOutput)) :
    Outcome StoreError (Option RunPlanningSnapshot) := do
  Outcome.failIf (expected ≠ index.head) (.headConflict expected index.head)
  match index.state with
  | none => pure none
  | some state => do
    let planningStepOrder ← planningStepOrder index state
    let (_, selections) ← Outcome.foldl (selectOutput index maxOutputBytes) (0, []) state.steps.toList
    let completedToolOutputs ← Outcome.foldl (loadSelected D index loadOutput) ∅ selections
    let completedToolOutputOrder ← completedToolOutputOrder index (keySet completedToolOutputs)
    pure (some
      { state := state
        completedToolOutputs := completedToolOutputs
        planningStepOrder := planningStepOrder
        completedToolOutputOrder := completedToolOutputOrder })

def MemoryRunStore.loadPlanningSnapshot (self : MemoryRunStore) (expected : ExpectedHead)
    (maxOutputBytes : UInt64) : Outcome StoreError (Option RunPlanningSnapshot) :=
  buildPlanningSnapshot D self.index expected maxOutputBytes fun effectId =>
    pure self.outputs[effectId]?

end

end Xgeny
