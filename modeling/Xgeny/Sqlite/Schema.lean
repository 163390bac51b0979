import Xgeny.Lib.Table
import Xgeny.Store.Commit

set_option autoImplicit false

/-!
# The schema of the SQLite store

The nine tables in which a database keeps one run: the rows with their typed columns, the constraints
of version 8 of the schema, and the writers that insert what one commit adds. A record is stored as
its JSON text, with the columns that index it.

* `I64`: the integers of a column, with the conversions that the store makes;
* `JsonCodec`, `StoreCodecs`: `serde_json` at the types that are stored, as a parameter;
* `Database`: the tables; `Database.constraints`-lists: `CHECK`, `UNIQUE` and `REFERENCES`;
* `insertEvent`, …, `insertExecutionReceipt`, `writeProjection`: the row writers.
-/

namespace Xgeny

open Table

/-! ## Integers -/

/-- An `INTEGER` of SQLite. -/
abbrev I64 := { n : ℤ // -2 ^ 63 ≤ n ∧ n < 2 ^ 63 }

namespace I64

/-- `i64::try_from` of a `u64`. -/
def tryFromU64 (n : UInt64) : Option I64 :=
  if h : n.toNat < 2 ^ 63 then some ⟨n.toNat, by omega⟩ else none

/-- `u64::try_from` of an `i64`. -/
def toU64 (n : I64) : Option UInt64 := if 0 ≤ n.val then some (UInt64.ofNat n.val.toNat) else none

/-- `i64::from` of a `u32`. -/
def fromU32 (n : UInt32) : I64 :=
  ⟨n.toNat, by have h := UInt32.toNat_lt n; omega⟩

/-- `u32::try_from` of an `i64`. -/
def toU32 (n : I64) : Option UInt32 :=
  if 0 ≤ n.val ∧ n.val < 2 ^ 32 then some (UInt32.ofNat n.val.toNat) else none

end I64

/-! ## JSON -/

abbrev Blob := List UInt8

/-- `serde_json::to_vec` and `serde_json::from_slice` at one type. -/
structure JsonCodec (α : Type) where
  toVec : α → Except String Blob
  fromSlice : Blob → Except String α

/-- `ProtocolDocument`: the documents other than receipts are told apart by their kind. -/
inductive ProtocolDocument where
  | executionReceipt (receipt : ExecutionReceiptBody)
  | other (kind : String)

/-- The encodings of what the store keeps as JSON. -/
structure StoreCodecs where
  runEvent : JsonCodec RunEvent
  effectIntent : JsonCodec EffectIntent
  plannedInvocation : JsonCodec PlannedInvocationMaterialRecord
  invocationMaterial : JsonCodec InvocationMaterialRecord
  toolOutput : JsonCodec ToolOutputRecord
  completionOutput : JsonCodec CompletionOutputRecord
  protocolDocument : JsonCodec ProtocolDocument
  runState : JsonCodec RunState

namespace JsonCodec

variable {α : Type}

/-- `serde_json::to_vec(value)?` in a function of the store. -/
def encode (self : JsonCodec α) (a : α) : Outcome StoreError Blob :=
  match self.toVec a with
  | .ok bytes => .ok bytes
  | .error error => Outcome.fail (.json error)

/-- `serde_json::from_slice(bytes)?` in a function of the store. -/
def decode (self : JsonCodec α) (bytes : Blob) : Outcome StoreError α :=
  match self.fromSlice bytes with
  | .ok a => .ok a
  | .error error => Outcome.fail (.json error)

end JsonCodec

/-! ## Rows -/

/-- A row of `run_events`. -/
structure RunEventRow where
  sequence : I64
  eventId : String
  previousDigest : Option String
  digest : String
  eventJson : Blob

/-- A row of `run_projection`. -/
structure RunProjectionRow where
  singleton : I64
  stateJson : Blob

/-- A row of `effect_intents`. -/
structure EffectIntentRow where
  effectId : String
  eventSequence : I64
  stepId : String
  actionDigest : String
  intentJson : Blob

/-- A row of `authorization_consumption`. -/
structure AuthorizationConsumptionRow where
  grantId : String
  effectId : String
  actionDigest : String
  grantDigest : String
  maxUses : I64

/-- A row of `invocation_materials`. -/
structure InvocationMaterialRow where
  effectId : String
  materialId : String
  materialDigest : String
  recordDigest : String
  recordJson : Blob

/-- A row of `tool_outputs`. -/
structure ToolOutputRow where
  effectId : String
  eventSequence : I64
  stepId : String
  outputId : String
  capabilityId : String
  contractVersion : String
  definitionDigest : String
  canonicalSizeBytes : I64
  outputDigest : String
  recordDigest : String
  recordJson : Blob

/-- A row of `planned_invocations`. -/
structure PlannedInvocationRow where
  stepId : String
  eventSequence : I64
  planId : String
  recordDigest : String
  recordJson : Blob

/-- A row of `execution_receipts`. -/
structure ExecutionReceiptRow where
  receiptId : String
  eventSequence : I64
  effectId : String
  stepId : String
  previousReceiptDigest : Option String
  receiptDigest : String
  receiptJson : Blob

/-- A row of `completion_outputs`. -/
structure CompletionOutputRow where
  singleton : I64
  eventSequence : I64
  candidateId : String
  turnIndex : I64
  modelCallId : String
  contextDigest : String
  proposalDigest : String
  summarySizeBytes : I64
  summaryDigest : String
  recordDigest : String
  recordJson : Blob

/-- The tables of one database, each with its rows in the order of insertion. -/
structure Database where
  runEvents : List RunEventRow := []
  runProjection : List RunProjectionRow := []
  effectIntents : List EffectIntentRow := []
  authorizationConsumption : List AuthorizationConsumptionRow := []
  invocationMaterials : List InvocationMaterialRow := []
  toolOutputs : List ToolOutputRow := []
  plannedInvocations : List PlannedInvocationRow := []
  executionReceipts : List ExecutionReceiptRow := []
  completionOutputs : List CompletionOutputRow := []

/-! ## Constraints -/

/-- `NOT NULL UNIQUE` or `PRIMARY KEY` on one column. -/
def uniqueColumn {ρ κ : Type} [DecidableEq κ] (column : String) (key : ρ → κ) : Constraint ρ :=
  .unique ("UNIQUE constraint failed: " ++ column) key

/-- `CHECK` on a row. -/
def checkRow {ρ : Type} (expression : String) (p : ρ → Bool) : Constraint ρ :=
  .check ("CHECK constraint failed: " ++ expression) p

/-- `FOREIGN KEY … REFERENCES` on one column. -/
def foreignKey {ρ κ : Type} [DecidableEq κ] (key : ρ → κ) (parents : List κ) : Constraint ρ :=
  .references "FOREIGN KEY constraint failed" (fun row => some (key row)) fun _ => parents

def runEventConstraints : List (Constraint RunEventRow) :=
  [checkRow "sequence >= 1" fun row => decide (1 ≤ row.sequence.val),
    uniqueColumn "run_events.sequence" RunEventRow.sequence,
    uniqueColumn "run_events.event_id" RunEventRow.eventId,
    uniqueColumn "run_events.digest" RunEventRow.digest]

namespace Database

variable (self : Database)

/-- The parent keys of `REFERENCES run_events(sequence)`. -/
def eventSequences : List I64 := self.runEvents.map RunEventRow.sequence

/-- The parent keys of `REFERENCES effect_intents(effect_id)`. -/
def effectIds : List String := self.effectIntents.map EffectIntentRow.effectId

def effectIntentConstraints : List (Constraint EffectIntentRow) :=
  [uniqueColumn "effect_intents.effect_id" EffectIntentRow.effectId,
    uniqueColumn "effect_intents.event_sequence" EffectIntentRow.eventSequence,
    foreignKey EffectIntentRow.eventSequence self.eventSequences]

def authorizationConstraints : List (Constraint AuthorizationConsumptionRow) :=
  [checkRow "max_uses >= 1" fun row => decide (1 ≤ row.maxUses.val),
    uniqueColumn "authorization_consumption.effect_id" AuthorizationConsumptionRow.effectId,
    uniqueColumn "authorization_consumption.grant_id, authorization_consumption.effect_id"
      fun row => (row.grantId, row.effectId),
    foreignKey AuthorizationConsumptionRow.effectId self.effectIds]

def invocationMaterialConstraints : List (Constraint InvocationMaterialRow) :=
  [uniqueColumn "invocation_materials.effect_id" InvocationMaterialRow.effectId,
    uniqueColumn "invocation_materials.material_id" InvocationMaterialRow.materialId,
    uniqueColumn "invocation_materials.record_digest" InvocationMaterialRow.recordDigest,
    foreignKey InvocationMaterialRow.effectId self.effectIds]

def toolOutputConstraints : List (Constraint ToolOutputRow) :=
  [checkRow "event_sequence >= 1" fun row => decide (1 ≤ row.eventSequence.val),
    checkRow "canonical_size_bytes BETWEEN 1 AND 1048576" fun row =>
      decide (1 ≤ row.canonicalSizeBytes.val ∧ row.canonicalSizeBytes.val ≤ 1048576),
    checkRow "length(record_json) BETWEEN 1 AND 1100000" fun row =>
      decide (1 ≤ row.recordJson.length ∧ row.recordJson.length ≤ 1100000),
    uniqueColumn "tool_outputs.effect_id" ToolOutputRow.effectId,
    uniqueColumn "tool_outputs.event_sequence" ToolOutputRow.eventSequence,
    uniqueColumn "tool_outputs.output_id" ToolOutputRow.outputId,
    uniqueColumn "tool_outputs.record_digest" ToolOutputRow.recordDigest,
    foreignKey ToolOutputRow.eventSequence self.eventSequences,
    foreignKey ToolOutputRow.effectId self.effectIds]

def plannedInvocationConstraints : List (Constraint PlannedInvocationRow) :=
  [checkRow "event_sequence >= 1" fun row => decide (1 ≤ row.eventSequence.val),
    uniqueColumn "planned_invocations.step_id" PlannedInvocationRow.stepId,
    uniqueColumn "planned_invocations.plan_id" PlannedInvocationRow.planId,
    uniqueColumn "planned_invocations.record_digest" PlannedInvocationRow.recordDigest,
    foreignKey PlannedInvocationRow.eventSequence self.eventSequences]

def executionReceiptConstraints : List (Constraint ExecutionReceiptRow) :=
  [checkRow "event_sequence >= 1" fun row => decide (1 ≤ row.eventSequence.val),
    uniqueColumn "execution_receipts.receipt_id" ExecutionReceiptRow.receiptId,
    uniqueColumn "execution_receipts.event_sequence" ExecutionReceiptRow.eventSequence,
    uniqueColumn "execution_receipts.effect_id" ExecutionReceiptRow.effectId,
    uniqueColumn "execution_receipts.receipt_digest" ExecutionReceiptRow.receiptDigest,
    foreignKey ExecutionReceiptRow.eventSequence self.eventSequences,
    foreignKey ExecutionReceiptRow.effectId self.effectIds,
    .references "FOREIGN KEY constraint failed" ExecutionReceiptRow.previousReceiptDigest
      (List.map ExecutionReceiptRow.receiptDigest)]

def completionOutputConstraints : List (Constraint CompletionOutputRow) :=
  [checkRow "singleton = 1" fun row => decide (row.singleton.val = 1),
    checkRow "event_sequence >= 1" fun row => decide (1 ≤ row.eventSequence.val),
    checkRow "turn_index >= 1" fun row => decide (1 ≤ row.turnIndex.val),
    checkRow "summary_size_bytes BETWEEN 1 AND 5000" fun row =>
      decide (1 ≤ row.summarySizeBytes.val ∧ row.summarySizeBytes.val ≤ 5000),
    checkRow "length(record_json) BETWEEN 1 AND 20000" fun row =>
      decide (1 ≤ row.recordJson.length ∧ row.recordJson.length ≤ 20000),
    uniqueColumn "completion_outputs.singleton" CompletionOutputRow.singleton,
    uniqueColumn "completion_outputs.event_sequence" CompletionOutputRow.eventSequence,
    uniqueColumn "completion_outputs.candidate_id" CompletionOutputRow.candidateId,
    uniqueColumn "completion_outputs.model_call_id" CompletionOutputRow.modelCallId,
    uniqueColumn "completion_outputs.record_digest" CompletionOutputRow.recordDigest,
    foreignKey CompletionOutputRow.eventSequence self.eventSequences]

end Database

/-! ## Writers -/

/-- `transaction.execute("INSERT INTO …")?`. -/
def executeInsert {ρ : Type} (constraints : List (Constraint ρ)) (rows : List ρ) (row : ρ) :
    Outcome StoreError (List ρ) :=
  (insertRow constraints rows row).mapErr .sqlite

section

variable (C : StoreCodecs) (db : Database)

/-- `i64::try_from(n).map_err(|_| StoreError::SequenceOutOfRange)`. -/
def i64TryFrom (n : UInt64) : Outcome StoreError I64 :=
  Outcome.okOr (I64.tryFromU64 n) .sequenceOutOfRange

/-- Insert the row of a record. -/
def insertEvent (record : EventRecord) : Outcome StoreError Database := do
  let sequence ← i64TryFrom record.sequence
  let eventJson ← C.runEvent.encode record.event
  let rows ← executeInsert runEventConstraints db.runEvents
    { sequence := sequence
      eventId := record.event.eventId
      previousDigest := record.previousDigest
      digest := record.digest
      eventJson := eventJson }
  pure { db with runEvents := rows }

def insertEffectIntentIndex (record : EventRecord) : Outcome StoreError Database :=
  match record.event.body with
  | .effectIntentCommitted stepId intent => do
    let sequence ← i64TryFrom record.sequence
    let intentJson ← C.effectIntent.encode intent
    let rows ← executeInsert db.effectIntentConstraints db.effectIntents
      { effectId := intent.effectId
        eventSequence := sequence
        stepId := stepId
        actionDigest := intent.actionDigest
        intentJson := intentJson }
    pure { db with effectIntents := rows }
  | _ => pure db

def insertAuthorizationConsumption (record : EventRecord) : Outcome StoreError Database :=
  match record.event.body with
  | .effectIntentCommitted _ intent => do
    let maxUses := I64.fromU32 intent.authorization.maxUses
    let rows ← executeInsert db.authorizationConstraints db.authorizationConsumption
      { grantId := intent.authorization.grantId
        effectId := intent.effectId
        actionDigest := intent.actionDigest
        grantDigest := intent.authorization.grantDigest
        maxUses := maxUses }
    pure { db with authorizationConsumption := rows }
  | _ => pure db

/-- One iteration of `insert_planned_invocations`. -/
def insertPlannedInvocation (sequence : I64) (db : Database) (input : PlannedInvocationMaterialRecord) :
    Outcome StoreError Database := do
  let recordJson ← C.plannedInvocation.encode input
  let rows ← executeInsert db.plannedInvocationConstraints db.plannedInvocations
    { stepId := input.stepId
      eventSequence := sequence
      planId := input.planId
      recordDigest := input.recordDigest
      recordJson := recordJson }
  pure { db with plannedInvocations := rows }

/-- Insert the sidecars of a plan. -/
def insertPlannedInvocations (record : EventRecord)
    (inputs : Option (List PlannedInvocationMaterialRecord)) : Outcome StoreError Database :=
  match inputs with
  | none => pure db
  | some inputs => do
    let sequence ← i64TryFrom record.sequence
    Outcome.foldl (insertPlannedInvocation C sequence) db inputs

/-- Insert the material of an effect, when there is some. -/
def insertInvocationMaterial (material : Option InvocationMaterialRecord) :
    Outcome StoreError Database :=
  match material with
  | none => pure db
  | some material => do
    let recordJson ← C.invocationMaterial.encode material
    let rows ← executeInsert db.invocationMaterialConstraints db.invocationMaterials
      { effectId := material.effectId
        materialId := material.materialId
        materialDigest := material.materialDigest
        recordDigest := material.recordDigest
        recordJson := recordJson }
    pure { db with invocationMaterials := rows }

/-- Insert a tool output, when there is one. -/
def insertToolOutput (event : EventRecord) (output : Option ToolOutputRecord) :
    Outcome StoreError Database :=
  match output with
  | none => pure db
  | some output =>
    match event.event.body with
    | .effectSucceeded stepId _ _ _ => do
      let eventSequence ← i64TryFrom event.sequence
      let canonicalSizeBytes ← i64TryFrom output.canonicalSizeBytes
      let recordJson ← C.toolOutput.encode output
      let rows ← executeInsert db.toolOutputConstraints db.toolOutputs
        { effectId := output.effectId
          eventSequence := eventSequence
          stepId := stepId
          outputId := output.outputId
          capabilityId := output.invocation.capabilityId
          contractVersion := output.invocation.contractVersion
          definitionDigest := output.invocation.definitionDigest
          canonicalSizeBytes := canonicalSizeBytes
          outputDigest := output.outputDigest
          recordDigest := output.recordDigest
          recordJson := recordJson }
      pure { db with toolOutputs := rows }
    | _ => Outcome.abort "tool-output bundle validation requires a success event"

/-- Insert a completion output, when there is one. -/
def insertCompletionOutput (event : EventRecord) (output : Option CompletionOutputRecord) :
    Outcome StoreError Database :=
  match output with
  | none => pure db
  | some output => do
    let eventSequence ← i64TryFrom event.sequence
    let turnIndex := I64.fromU32 output.turnIndex
    let summarySizeBytes ← i64TryFrom output.summarySizeBytes
    let recordJson ← C.completionOutput.encode output
    let rows ← executeInsert db.completionOutputConstraints db.completionOutputs
      { singleton := I64.fromU32 1
        eventSequence := eventSequence
        candidateId := output.candidateId
        turnIndex := turnIndex
        modelCallId := output.modelCallId
        contextDigest := output.contextDigest
        proposalDigest := output.proposalDigest
        summarySizeBytes := summarySizeBytes
        summaryDigest := output.summaryDigest
        recordDigest := output.recordDigest
        recordJson := recordJson }
    pure { db with completionOutputs := rows }

/-- Insert a receipt, when there is one. -/
def insertExecutionReceipt (record : EventRecord) (receipt : Option ExecutionReceiptBody) :
    Outcome StoreError Database :=
  match receipt with
  | none => pure db
  | some receipt =>
    match record.event.body with
    | .verificationRecorded stepId effectId _ _ _ => do
      let sequence ← i64TryFrom record.sequence
      let receiptJson ← C.protocolDocument.encode (.executionReceipt receipt)
      let rows ← executeInsert db.executionReceiptConstraints db.executionReceipts
        { receiptId := receipt.receiptId
          eventSequence := sequence
          effectId := effectId
          stepId := stepId
          previousReceiptDigest := receipt.previousReceiptDigest
          receiptDigest := receipt.receiptDigest
          receiptJson := receiptJson }
      pure { db with executionReceipts := rows }
    | _ => Outcome.abort "receipt bundle validation requires a finalization event"

/-- The upsert of the one projection row. -/
def writeProjection (state : RunState) : Outcome StoreError Database := do
  let stateJson ← C.runState.encode state
  let rows := if db.runProjection.any fun row => decide (row.singleton.val = 1) then
    db.runProjection.map fun row =>
      if row.singleton.val = 1 then { row with stateJson := stateJson } else row
    else db.runProjection ++ [{ singleton := I64.fromU32 1, stateJson := stateJson }]
  pure { db with runProjection := rows }

end

end Xgeny
