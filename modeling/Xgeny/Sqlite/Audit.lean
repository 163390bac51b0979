import Mathlib.Data.Prod.Lex
import Mathlib.Data.String.Basic
import Xgeny.Sqlite.Schema

set_option autoImplicit false

/-!
# The audit of a database

What the store reads back: the rows of a table in the order of its query, each decoded and compared
with the columns that index it, and the indexes of the intents compared with the journal. Loading a
whole database runs all of it and ends with the verified index.

* `loadRecords`, `loadProjection`, `loadPlannedInvocations`, …: the queries;
* `validateEffectIntentIndex`, `validateAuthorizationIndex`, `validateForeignKeys`: the indexes;
* `verifySqliteToolOutputs`: the tool outputs in lockstep with the events that announce them;
* `loadVerifiedStoreData`: the audit.
-/

namespace Xgeny

open Table

/-- `u64::try_from(n).map_err(|_| StoreError::SequenceOutOfRange)`. -/
def u64TryFrom (n : I64) : Outcome StoreError UInt64 := Outcome.okOr n.toU64 .sequenceOutOfRange

/-- `u32::try_from(n).map_err(|_| StoreError::SequenceOutOfRange)`. -/
def u32TryFrom (n : I64) : Outcome StoreError UInt32 := Outcome.okOr n.toU32 .sequenceOutOfRange

section

variable (C : StoreCodecs)

/-! ## The journal -/

/-- One row of `load_records`. -/
def decodeEventRow (row : RunEventRow) : Outcome StoreError EventRecord := do
  let sequence ← u64TryFrom row.sequence
  let event ← C.runEvent.decode row.eventJson
  Outcome.failIf (event.eventId ≠ row.eventId)
    (.corrupt "run event ID index differs from the journal event")
  pure
    { sequence := sequence
      previousDigest := row.previousDigest
      event := event
      digest := row.digest }

def loadRecords (db : Database) : Outcome StoreError (List EventRecord) :=
  (orderBy RunEventRow.sequence db.runEvents).mapM (decodeEventRow C)

def loadProjection (db : Database) : Outcome StoreError (Option RunState) :=
  match selectWhere (fun row => row.singleton.val) 1 db.runProjection with
  | none => pure none
  | some row => do
    let state ← C.runState.decode row.stateJson
    pure (some state)

def loadDurableHead (db : Database) : Outcome StoreError ExpectedHead :=
  match (orderBy RunEventRow.sequence db.runEvents).getLast? with
  | none => pure .empty
  | some row => do
    let sequence ← u64TryFrom row.sequence
    pure (.exact sequence row.digest)

/-! ## The indexes of the intents -/

/-- The intents of the index, by event and effect. -/
def expectedIntents (index : VerifiedRunIndex) : List EffectIntentAnchor :=
  orderBy (fun anchor => toLex (anchor.eventSequence.toNat, anchor.intent.effectId))
    (BTreeMap.vals index.intents)

/-- One iteration of `validate_effect_intent_index`. -/
def validateEffectIntentRow (anchor : EffectIntentAnchor) (row : EffectIntentRow) :
    Outcome StoreError Unit := do
  let storedSequence ← u64TryFrom row.eventSequence
  let storedIntent ← C.effectIntent.decode row.intentJson
  Outcome.failIf
    (row.effectId ≠ anchor.intent.effectId ∨ storedSequence ≠ anchor.eventSequence ∨
      row.stepId ≠ anchor.stepId ∨ row.actionDigest ≠ anchor.intent.actionDigest ∨
      storedIntent ≠ anchor.intent)
    (.corrupt ("effect index at event " ++ toString anchor.eventSequence ++
      " differs from committed intent"))

def validateEffectIntentIndex (db : Database) (index : VerifiedRunIndex) :
    Outcome StoreError Unit := do
  let expected := expectedIntents index
  let actual := orderBy (fun row => toLex (row.eventSequence, row.effectId)) db.effectIntents
  Outcome.failIf (actual.length ≠ expected.length)
    (.corrupt ("effect index count differs from events: expected " ++ toString expected.length ++
      ", actual " ++ toString actual.length))
  Outcome.forEach (expected.zip actual) fun (anchor, row) => validateEffectIntentRow C anchor row

/-- One iteration of `validate_authorization_index`. -/
def validateAuthorizationRow (intent : EffectIntent) (row : AuthorizationConsumptionRow) :
    Outcome StoreError Unit := do
  let maxUses ← u32TryFrom row.maxUses
  Outcome.failIf
    (row.effectId ≠ intent.effectId ∨ row.grantId ≠ intent.authorization.grantId ∨
      row.actionDigest ≠ intent.actionDigest ∨
      row.grantDigest ≠ intent.authorization.grantDigest ∨
      maxUses ≠ intent.authorization.maxUses)
    (.corrupt ("authorization index for effect `" ++ intent.effectId ++
      "` differs from committed intent"))

def validateAuthorizationIndex (db : Database) (index : VerifiedRunIndex) :
    Outcome StoreError Unit := do
  let expected := orderBy (fun intent => toLex (intent.effectId, intent.authorization.grantId))
    ((expectedIntents index).map EffectIntentAnchor.intent)
  let actual := orderBy (fun row => toLex (row.effectId, row.grantId)) db.authorizationConsumption
  Outcome.failIf (actual.length ≠ expected.length)
    (.corrupt ("authorization index count differs from intents: expected " ++
      toString expected.length ++ ", actual " ++ toString actual.length))
  Outcome.forEach (expected.zip actual) fun (intent, row) => validateAuthorizationRow intent row

/-- The rows of `PRAGMA foreign_key_check` are none. -/
def Database.foreignKeysHold (self : Database) : Bool :=
  (self.effectIntents.all fun row => decide (row.eventSequence ∈ self.eventSequences)) &&
  (self.authorizationConsumption.all fun row => decide (row.effectId ∈ self.effectIds)) &&
  (self.invocationMaterials.all fun row => decide (row.effectId ∈ self.effectIds)) &&
  (self.toolOutputs.all fun row =>
    decide (row.eventSequence ∈ self.eventSequences ∧ row.effectId ∈ self.effectIds)) &&
  (self.plannedInvocations.all fun row => decide (row.eventSequence ∈ self.eventSequences)) &&
  (self.executionReceipts.all fun row =>
    decide (row.eventSequence ∈ self.eventSequences ∧ row.effectId ∈ self.effectIds) &&
      row.previousReceiptDigest.all fun digest =>
        decide (digest ∈ self.executionReceipts.map ExecutionReceiptRow.receiptDigest)) &&
  (self.completionOutputs.all fun row => decide (row.eventSequence ∈ self.eventSequences))

def validateForeignKeys (db : Database) : Outcome StoreError Unit :=
  Outcome.failIf (¬ db.foreignKeysHold = true)
    (.corrupt "SQLite foreign-key integrity check failed")

/-! ## Planned inputs and materials -/

/-- The columns of a planned invocation, as `load_planned_invocation` compares them. -/
def decodePlannedInvocation (stepId : String) (row : PlannedInvocationRow) :
    Outcome StoreError PlannedInvocationMaterialRecord := do
  let input ← C.plannedInvocation.decode row.recordJson
  Outcome.failIf
    (stepId ≠ input.stepId ∨ row.planId ≠ input.planId ∨ row.recordDigest ≠ input.recordDigest)
    (.corrupt ("planned invocation index for Step `" ++ stepId ++ "` differs from its record"))
  pure input

/-- One row of `load_planned_invocations`. -/
def loadPlannedInvocationRow (index : VerifiedRunIndex)
    (inputs : BTreeMap String PlannedInvocationMaterialRecord) (row : PlannedInvocationRow) :
    Outcome StoreError (BTreeMap String PlannedInvocationMaterialRecord) := do
  let eventSequence ← u64TryFrom row.eventSequence
  let input ← C.plannedInvocation.decode row.recordJson
  let anchor ← Outcome.okOr index.plannedInvocations[row.stepId]?
    (.corrupt ("planned invocation input for Step `" ++ row.stepId ++ "` has no accepted event"))
  Outcome.failIf
    (eventSequence ≠ anchor.eventSequence ∨ row.stepId ≠ input.stepId ∨
      row.planId ≠ input.planId ∨ row.recordDigest ≠ input.recordDigest)
    (.corrupt ("planned invocation index for Step `" ++ row.stepId ++
      "` differs from its record"))
  inputs.insertNew row.stepId input
    (.corrupt ("duplicate planned invocation input for Step `" ++ row.stepId ++ "`"))

def loadPlannedInvocations (db : Database) (index : VerifiedRunIndex) :
    Outcome StoreError (BTreeMap String PlannedInvocationMaterialRecord) :=
  Outcome.foldl (loadPlannedInvocationRow C index) ∅
    (orderBy PlannedInvocationRow.stepId db.plannedInvocations)

def loadPlannedInvocation (db : Database) (stepId : String) :
    Outcome StoreError (Option PlannedInvocationMaterialRecord) :=
  match selectWhere PlannedInvocationRow.stepId stepId db.plannedInvocations with
  | none => pure none
  | some row => do
    let input ← decodePlannedInvocation C stepId row
    pure (some input)

/-- The columns of an invocation material, compared with its record. -/
def decodeInvocationMaterial (effectId : String) (row : InvocationMaterialRow) :
    Outcome StoreError InvocationMaterialRecord := do
  let material ← C.invocationMaterial.decode row.recordJson
  Outcome.failIf
    (effectId ≠ material.effectId ∨ row.materialId ≠ material.materialId ∨
      row.materialDigest ≠ material.materialDigest ∨ row.recordDigest ≠ material.recordDigest)
    (.corrupt ("invocation material index for effect `" ++ effectId ++
      "` differs from its record"))
  pure material

/-- One row of `load_invocation_materials`. -/
def loadInvocationMaterialRow (materials : BTreeMap String InvocationMaterialRecord)
    (row : InvocationMaterialRow) :
    Outcome StoreError (BTreeMap String InvocationMaterialRecord) := do
  let material ← decodeInvocationMaterial C row.effectId row
  materials.insertNew row.effectId material
    (.corrupt ("duplicate invocation material for effect `" ++ row.effectId ++ "`"))

def loadInvocationMaterials (db : Database) :
    Outcome StoreError (BTreeMap String InvocationMaterialRecord) :=
  Outcome.foldl (loadInvocationMaterialRow C) ∅
    (orderBy InvocationMaterialRow.effectId db.invocationMaterials)

def loadInvocationMaterial (db : Database) (effectId : String) :
    Outcome StoreError (Option InvocationMaterialRecord) :=
  match selectWhere InvocationMaterialRow.effectId effectId db.invocationMaterials with
  | none => pure none
  | some row => do
    let material ← decodeInvocationMaterial C effectId row
    pure (some material)

/-! ## Tool outputs -/

def decodeToolOutputRecord (recordJson : Blob) : Outcome StoreError ToolOutputRecord :=
  match C.toolOutput.fromSlice recordJson with
  | .ok record => .ok record
  | .error _ => Outcome.fail (.corrupt "tool-output record JSON is invalid")

/-- `decode_tool_output_row`, which `decode_tool_output_row_offset` repeats one column further. -/
def decodeToolOutputRow (effectId : String) (row : ToolOutputRow) :
    Outcome StoreError StoredToolOutput := do
  let eventSequence ← u64TryFrom row.eventSequence
  let canonicalSizeBytes ← u64TryFrom row.canonicalSizeBytes
  Outcome.failIf (¬ (1 ≤ row.recordJson.length ∧ row.recordJson.length ≤ 1100000))
    (.corrupt "tool-output record bytes exceed the fixed limit")
  let record ← decodeToolOutputRecord C row.recordJson
  Outcome.failIf
    (record.effectId ≠ effectId ∨ record.stepId ≠ row.stepId ∨ record.outputId ≠ row.outputId ∨
      record.invocation.capabilityId ≠ row.capabilityId ∨
      record.invocation.contractVersion ≠ row.contractVersion ∨
      record.invocation.definitionDigest ≠ row.definitionDigest ∨
      record.canonicalSizeBytes ≠ canonicalSizeBytes ∨ record.outputDigest ≠ row.outputDigest ∨
      record.recordDigest ≠ row.recordDigest)
    (.corrupt ("tool-output index for effect `" ++ effectId ++ "` differs from its record"))
  pure { eventSequence := eventSequence, record := record }

def loadToolOutput (db : Database) (effectId : String) :
    Outcome StoreError (Option StoredToolOutput) :=
  match selectWhere ToolOutputRow.effectId effectId db.toolOutputs with
  | none => pure none
  | some row => do
    let stored ← decodeToolOutputRow C effectId row
    pure (some stored)

/-- One iteration of `verify_sqlite_tool_outputs`, with the position of the next anchor. -/
def verifySqliteToolOutput (D : Digests) (anchors : List ToolOutputEventAnchor)
    (acc : VerifiedRunIndex × ℕ) (row : ToolOutputRow) : Outcome StoreError (VerifiedRunIndex × ℕ) := do
  let (index, position) := acc
  let anchor ← Outcome.okOr anchors[position]?
    (.corrupt "tool-output rows outnumber output-bound success events")
  let stored ← decodeToolOutputRow C row.effectId row
  verifyStoredToolOutput D index anchor stored
  let index ← indexToolOutput index anchor stored.record
  pure (index, position + 1)

def verifySqliteToolOutputs (D : Digests) (db : Database) (index : VerifiedRunIndex) :
    Outcome StoreError VerifiedRunIndex := do
  let anchors := index.sortedToolOutputEvents
  let (index, position) ← Outcome.foldl (verifySqliteToolOutput C D anchors) (index, 0)
    (orderBy (fun row => toLex (row.eventSequence, row.effectId)) db.toolOutputs)
  Outcome.failIf (position ≠ anchors.length)
    (.corrupt ("tool-output count differs from output-bound success events: expected " ++
      toString anchors.length ++ ", actual " ++ toString position))
  pure index

/-! ## Receipts and the completion output -/

/-- One row of `load_execution_receipts`. -/
def decodeReceiptRow (row : ExecutionReceiptRow) : Outcome StoreError StoredExecutionReceipt := do
  let eventSequence ← u64TryFrom row.eventSequence
  match ← C.protocolDocument.decode row.receiptJson with
  | .executionReceipt receipt => do
    Outcome.failIf
      (receipt.receiptId ≠ row.receiptId ∨ receipt.stepId ≠ row.stepId ∨
        receipt.previousReceiptDigest ≠ row.previousReceiptDigest ∨
        receipt.receiptDigest ≠ row.receiptDigest)
      (.corrupt "execution receipt index differs from its document")
    pure { eventSequence := eventSequence, effectId := row.effectId, receipt := receipt }
  | .other _ =>
    Outcome.fail (.corrupt "receipt row does not contain an ExecutionReceipt document")

def loadExecutionReceipts (db : Database) : Outcome StoreError (List StoredExecutionReceipt) :=
  (orderBy ExecutionReceiptRow.eventSequence db.executionReceipts).mapM (decodeReceiptRow C)

/-- The columns of a completion output, compared with its record. -/
def decodeCompletionOutputRow (row : CompletionOutputRow) :
    Outcome StoreError StoredCompletionOutput := do
  Outcome.failIf (row.singleton.val ≠ 1)
    (.corrupt "completion-output singleton identity is invalid")
  let eventSequence ← u64TryFrom row.eventSequence
  let turnIndex ← u32TryFrom row.turnIndex
  let summarySizeBytes ← u64TryFrom row.summarySizeBytes
  Outcome.failIf (¬ (1 ≤ row.recordJson.length ∧ row.recordJson.length ≤ 20000))
    (.corrupt "completion-output record bytes exceed the fixed limit")
  let record ← match C.completionOutput.fromSlice row.recordJson with
    | .ok record => pure record
    | .error _ => Outcome.fail (.corrupt "completion-output record JSON is invalid")
  Outcome.failIf
    (record.candidateId ≠ row.candidateId ∨ record.turnIndex ≠ turnIndex ∨
      record.modelCallId ≠ row.modelCallId ∨ record.contextDigest ≠ row.contextDigest ∨
      record.proposalDigest ≠ row.proposalDigest ∨ record.summarySizeBytes ≠ summarySizeBytes ∨
      record.summaryDigest ≠ row.summaryDigest ∨ record.recordDigest ≠ row.recordDigest)
    (.corrupt "completion-output index differs from its record")
  pure { eventSequence := eventSequence, record := record }

def loadCompletionOutputRow (db : Database) : Outcome StoreError (Option StoredCompletionOutput) :=
  match orderBy CompletionOutputRow.singleton db.completionOutputs with
  | [] => pure none
  | row :: rest => do
    let stored ← decodeCompletionOutputRow C row
    Outcome.failIf (rest ≠ [])
      (.corrupt "completion-output rows outnumber completion events")
    pure (some stored)

/-! ## The audit -/

variable (D : Digests) (P : Protocol)

def validateDerivedStateWithoutReceipts (db : Database) (index : VerifiedRunIndex) :
    Outcome StoreError VerifiedRunIndex := do
  validateForeignKeys db
  validateEffectIntentIndex C db index
  validateAuthorizationIndex db index
  let planInputs ← loadPlannedInvocations C db index
  let index ← verifyPlanInputRecords D index planInputs
  let materials ← loadInvocationMaterials C db
  verifyMaterialRecords D index materials

def loadVerifiedStoreData (db : Database) :
    Outcome StoreError (Option RunSnapshot × List StoredExecutionReceipt × VerifiedRunIndex) := do
  let records ← loadRecords C db
  let projection ← loadProjection C db
  let (snapshot, index) ← auditSnapshot D records projection
  let index ← validateDerivedStateWithoutReceipts C D db index
  let index ← verifySqliteToolOutputs C D db index
  let receipts ← loadExecutionReceipts C db
  let index ← verifyReceiptRecords D P index receipts
  let completionOutput ← loadCompletionOutputRow C db
  verifyCompletionOutputRecord D index completionOutput
  pure (snapshot, receipts, index)

end

end Xgeny
