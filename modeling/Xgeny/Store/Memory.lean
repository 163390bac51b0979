import Xgeny.Store.Checks

set_option autoImplicit false

/-!
# The in-memory store

The store keeps the records of a run, its projection, its sidecar records and the index over them.
An append checks its bundle, prepares the commit on the index, checks the candidate and then
changes everything at once; loading audits the committed data from the start and compares the
rebuilt index with the one that was kept.

* `RunData`: the committed data of a run; `RunData.commit`: one more commit with its sidecars;
* `RunData.audit`: the index rebuilt by the audit passes;
* `MemoryRunStore`: the data with the index; its six appends, and `load`;
* `AppendCall`, `runCalls`: any sequence of appends from the empty store, with the commits that
  were returned.
-/

namespace Xgeny

/-- The committed data of a run. -/
structure RunData where
  records : List EventRecord
  projection : Option RunState
  planInputs : BTreeMap String PlannedInvocationMaterialRecord
  materials : BTreeMap String InvocationMaterialRecord
  receipts : List StoredExecutionReceipt
  outputs : BTreeMap String StoredToolOutput
  completionOutput : Option StoredCompletionOutput

def RunData.empty : RunData where
  records := []
  projection := none
  planInputs := ∅
  materials := ∅
  receipts := []
  outputs := ∅
  completionOutput := none

/-- One more record with the projection after it. -/
def RunData.push (data : RunData) (commit : Commit) : RunData :=
  { data with records := data.records ++ [commit.record], projection := some commit.state }

/-- Enter the inputs of a plan by step. -/
def insertPlanInputs (planInputs : BTreeMap String PlannedInvocationMaterialRecord)
    (inputs : List PlannedInvocationMaterialRecord) :
    BTreeMap String PlannedInvocationMaterialRecord :=
  BTreeMap.insertAll PlannedInvocationMaterialRecord.stepId id planInputs inputs

section

variable (D : Digests) (P : Protocol)

/-- The audit of the committed data: the snapshot, and the index rebuilt by the five passes. -/
def RunData.audit (data : RunData) :
    Outcome StoreError (Option RunSnapshot × VerifiedRunIndex) := do
  let (snapshot, index) ← auditSnapshot D data.records data.projection
  let index ← verifyPlanInputRecords D index data.planInputs
  let index ← verifyMaterialRecords D index data.materials
  let index ← verifyToolOutputRecords D index data.outputs
  let index ← verifyReceiptRecords D P index data.receipts
  verifyCompletionOutputRecord D index data.completionOutput
  pure (snapshot, index)

structure MemoryRunStore extends RunData where
  index : VerifiedRunIndex

def MemoryRunStore.new : MemoryRunStore where
  toRunData := .empty
  index := .default

/-! ## Appends -/

def MemoryRunStore.append (self : MemoryRunStore) (expected : ExpectedHead) (event : RunEvent) :
    Outcome StoreError (Commit × MemoryRunStore) := do
  verifyCommitSidecars D P event {}
  let commit ← prepareCommit D self.index expected event
  let index ← self.index.applyCommitted commit {} {}
  pure (commit, { self with toRunData := self.push commit, index := index })

def MemoryRunStore.appendWithPlanInputs (self : MemoryRunStore) (expected : ExpectedHead)
    (event : RunEvent) (inputs : List PlannedInvocationMaterialRecord) :
    Outcome StoreError (Commit × MemoryRunStore) := do
  verifyCommitSidecars D P event { planInputs := some inputs }
  let commit ← prepareCommit D self.index expected event
  Outcome.forEach inputs fun input =>
    Outcome.failIf (input.stepId ∈ self.index.planInputStepIds ∨ input.stepId ∈ self.planInputs)
      (.corrupt "duplicate planned invocation input Step ID")
  let index ← self.index.applyCommitted commit { planInputs := some inputs } {}
  pure (commit, { self with
    toRunData := { self.push commit with planInputs := insertPlanInputs self.planInputs inputs }
    index := index })

/-- The planned input of the step that an intent is committed for. -/
def RunData.plannedInput (data : RunData) (event : RunEvent) :
    Option PlannedInvocationMaterialRecord :=
  match event.body with
  | .effectIntentCommitted stepId _ => data.planInputs[stepId]?
  | _ => none

def MemoryRunStore.appendWithInvocationMaterial (self : MemoryRunStore) (expected : ExpectedHead)
    (event : RunEvent) (material : InvocationMaterialRecord) :
    Outcome StoreError (Commit × MemoryRunStore) := do
  verifyCommitSidecars D P event { material := some material }
  verifyPlannedMaterialRetention D self.index event material (self.plannedInput event)
  let commit ← prepareCommit D self.index expected event
  Outcome.failIf (material.effectId ∈ self.index.materialEffectIds)
    (.corrupt "duplicate invocation material effect ID")
  let materials := self.materials.insert material.effectId material
  let effectId ← match commit.record.event.body with
    | .effectIntentCommitted _ intent => pure intent.effectId
    | _ => Outcome.abort "material bundle requires an effect intent"
  let material ← Outcome.expect materials[effectId]? "committed material must be indexed"
  let index ← self.index.applyCommitted commit { material := some material } {}
  pure (commit, { self with
    toRunData := { self.push commit with materials := materials }
    index := index })

def MemoryRunStore.appendWithExecutionReceipt (self : MemoryRunStore) (expected : ExpectedHead)
    (event : RunEvent) (receipt : ExecutionReceiptBody) :
    Outcome StoreError (Commit × MemoryRunStore) := do
  verifyCommitSidecars D P event { receipt := some receipt }
  let commit ← prepareCommit D self.index expected event
  let anchor ← verifyReceiptCandidate P self.index commit.record receipt
  let effectId ← match commit.record.event.body with
    | .verificationRecorded _ effectId _ _ _ => pure effectId
    | _ => Outcome.abort "receipt bundle validation requires a finalization event"
  let stored : StoredExecutionReceipt :=
    { eventSequence := commit.record.sequence, effectId := effectId, receipt := receipt }
  let index ← self.index.applyCommitted commit { receipt := some receipt }
    { receipt := some anchor }
  pure (commit, { self with
    toRunData := { self.push commit with receipts := self.receipts ++ [stored] }
    index := index })

def MemoryRunStore.appendWithToolOutput (self : MemoryRunStore) (expected : ExpectedHead)
    (event : RunEvent) (output : ToolOutputRecord) :
    Outcome StoreError (Commit × MemoryRunStore) := do
  verifyCommitSidecars D P event { output := some output }
  let commit ← prepareCommit D self.index expected event
  let anchor ← verifyToolOutputCandidate D self.index commit.record output
  Outcome.failIf (output.effectId ∈ self.outputs) (.corrupt "duplicate tool output effect ID")
  let outputs := self.outputs.insert output.effectId
    { eventSequence := commit.record.sequence, record := output }
  let effectId ← match commit.record.event.body with
    | .effectSucceeded _ effectId _ _ => pure effectId
    | _ => Outcome.abort "tool-output bundle requires a success event"
  let stored ← Outcome.expect outputs[effectId]? "committed tool output must be retained"
  let index ← self.index.applyCommitted commit { output := some stored.record }
    { output := some anchor }
  pure (commit, { self with
    toRunData := { self.push commit with outputs := outputs }
    index := index })

def MemoryRunStore.appendWithCompletionOutput (self : MemoryRunStore) (expected : ExpectedHead)
    (event : RunEvent) (output : CompletionOutputRecord) :
    Outcome StoreError (Commit × MemoryRunStore) := do
  verifyCommitSidecars D P event { completionOutput := some output }
  let commit ← prepareCommit D self.index expected event
  let anchor ← verifyCompletionOutputCandidate D self.index commit.record output
  Outcome.failIf (self.completionOutput.isSome = true) (.corrupt "duplicate completion output")
  let stored : StoredCompletionOutput :=
    { eventSequence := commit.record.sequence, record := output }
  let index ← self.index.applyCommitted commit { completionOutput := some output }
    { completionOutput := some anchor }
  pure (commit, { self with
    toRunData := { self.push commit with completionOutput := some stored }
    index := index })

/-! ## Loads -/

def MemoryRunStore.load (self : MemoryRunStore) : Outcome StoreError (Option RunSnapshot) := do
  let (snapshot, auditedIndex) ← self.toRunData.audit D P
  Outcome.failIf (auditedIndex ≠ self.index)
    (.corrupt "in-memory verified index differs from committed data")
  pure snapshot

def MemoryRunStore.loadCurrent (self : MemoryRunStore) : Outcome StoreError (Option RunState) :=
  pure self.projection

/-! ## Sequences of calls -/

/-- A call of one of the append operations, with its arguments. -/
inductive AppendCall where
  | append (expected : ExpectedHead) (event : RunEvent)
  | withPlanInputs (expected : ExpectedHead) (event : RunEvent)
      (inputs : List PlannedInvocationMaterialRecord)
  | withInvocationMaterial (expected : ExpectedHead) (event : RunEvent)
      (material : InvocationMaterialRecord)
  | withExecutionReceipt (expected : ExpectedHead) (event : RunEvent)
      (receipt : ExecutionReceiptBody)
  | withToolOutput (expected : ExpectedHead) (event : RunEvent) (output : ToolOutputRecord)
  | withCompletionOutput (expected : ExpectedHead) (event : RunEvent)
      (output : CompletionOutputRecord)

namespace AppendCall

/-- The head that a call expects. -/
def expected : AppendCall → ExpectedHead
  | .append expected _ => expected
  | .withPlanInputs expected _ _ => expected
  | .withInvocationMaterial expected _ _ => expected
  | .withExecutionReceipt expected _ _ => expected
  | .withToolOutput expected _ _ => expected
  | .withCompletionOutput expected _ _ => expected

/-- The event that a call appends. -/
def event : AppendCall → RunEvent
  | .append _ event => event
  | .withPlanInputs _ event _ => event
  | .withInvocationMaterial _ event _ => event
  | .withExecutionReceipt _ event _ => event
  | .withToolOutput _ event _ => event
  | .withCompletionOutput _ event _ => event

/-- The sidecars that a call hands in. -/
def sidecars : AppendCall → CommitSidecars
  | .append _ _ => {}
  | .withPlanInputs _ _ inputs => { planInputs := some inputs }
  | .withInvocationMaterial _ _ material => { material := some material }
  | .withExecutionReceipt _ _ receipt => { receipt := some receipt }
  | .withToolOutput _ _ output => { output := some output }
  | .withCompletionOutput _ _ output => { completionOutput := some output }

end AppendCall

def MemoryRunStore.call (self : MemoryRunStore) :
    AppendCall → Outcome StoreError (Commit × MemoryRunStore)
  | .append expected event => self.append D P expected event
  | .withPlanInputs expected event inputs => self.appendWithPlanInputs D P expected event inputs
  | .withInvocationMaterial expected event material =>
    self.appendWithInvocationMaterial D P expected event material
  | .withExecutionReceipt expected event receipt =>
    self.appendWithExecutionReceipt D P expected event receipt
  | .withToolOutput expected event output => self.appendWithToolOutput D P expected event output
  | .withCompletionOutput expected event output =>
    self.appendWithCompletionOutput D P expected event output

/-- One call in a sequence: a failed call changes nothing, a successful one adds its commit. -/
def MemoryRunStore.afterCall (acc : MemoryRunStore × List Commit) (call : AppendCall) :
    MemoryRunStore × List Commit :=
  match acc.1.call D P call with
  | .ok (commit, store) => (store, acc.2 ++ [commit])
  | .error _ => acc

/-- The store after some calls on the empty store, and the commits that they returned. -/
def runCalls (calls : List AppendCall) : MemoryRunStore × List Commit :=
  calls.foldl (MemoryRunStore.afterCall D P) (.new, [])

end

end Xgeny
