import Xgeny.Sqlite.Store
import Xgeny.Store.Chronology

set_option autoImplicit false

/-!
# A database that mirrors the data of a run

The rows that the committed data of a run are written as. A database that mirrors some data holds
exactly these rows, each of which can be read back, and its queries return the data.

* `JsonCodec.bytes`, `JsonCodec.Reads`: what a value is written as, and that it is read back;
* `StoreCodecs.RoundTrip`: what is written is read back;
* `eventRow`, …, `completionRow`: the row of each record;
* `Storable`: what of the data a row can hold;
* `Mirrors`: the relation.
-/

namespace Xgeny

open Table

/-! ## Integers -/

namespace I64

theorem tryFromU64_eq_some {n : UInt64} {i : I64} : tryFromU64 n = some i ↔ i.val = n.toNat := by
  unfold tryFromU64
  split
  · rw [Option.some.injEq, Subtype.ext_iff]
    exact eq_comm
  · rename_i hlarge
    have hi := i.property
    simp only [reduceCtorEq, false_iff]
    omega

theorem toU64_eq_some {i : I64} {n : UInt64} (h : i.val = n.toNat) : i.toU64 = some n := by
  have hn : n.toNat = i.val.toNat := by omega
  rw [toU64, if_pos (by omega), ← hn, UInt64.ofNat_toNat]

@[simp] theorem toU32_fromU32 (n : UInt32) : (fromU32 n).toU32 = some n := by
  have hn := n.toNat_lt
  have hval : (fromU32 n).val = n.toNat := rfl
  rw [toU32, if_pos (by omega), hval, Int.toNat_natCast, UInt32.ofNat_toNat]

/-- The column of a number that fits. -/
def ofU64 (n : UInt64) : I64 := (tryFromU64 n).getD (fromU32 0)

theorem ofU64_eq {n : UInt64} {i : I64} (h : tryFromU64 n = some i) : ofU64 n = i := by
  rw [ofU64, h, Option.getD_some]

theorem tryFromU64_ofU64 {n : UInt64} (h : n.toNat < 2 ^ 63) : tryFromU64 n = some (ofU64 n) := by
  rw [ofU64, tryFromU64, dif_pos h, Option.getD_some]

theorem ofU64_val {n : UInt64} (h : n.toNat < 2 ^ 63) : (ofU64 n).val = n.toNat :=
  tryFromU64_eq_some.mp (tryFromU64_ofU64 h)

theorem toU64_ofU64 {n : UInt64} (h : n.toNat < 2 ^ 63) : (ofU64 n).toU64 = some n :=
  toU64_eq_some (ofU64_val h)

theorem ofU64_lt {a b : UInt64} (h : a < b) (hb : b.toNat < 2 ^ 63) : ofU64 a < ofU64 b := by
  have hab := UInt64.lt_iff_toNat_lt.mp h
  rw [← Subtype.coe_lt_coe, ofU64_val hb, ofU64_val (by omega)]
  omega

end I64

theorem u64TryFrom_ofU64 {n : UInt64} (h : n.toNat < 2 ^ 63) : u64TryFrom (I64.ofU64 n) = .ok n := by
  rw [u64TryFrom, I64.toU64_ofU64 h]
  rfl

theorem i64TryFrom_eq_ok {n : UInt64} {i : I64} :
    i64TryFrom n = .ok i ↔ n.toNat < 2 ^ 63 ∧ I64.ofU64 n = i := by
  rw [i64TryFrom, Outcome.okOr_eq_ok]
  constructor
  · intro h
    have hval := I64.tryFromU64_eq_some.mp h
    have hi := i.property
    exact ⟨by omega, I64.ofU64_eq h⟩
  · rintro ⟨hn, rfl⟩
    exact I64.tryFromU64_ofU64 hn

@[simp] theorem u32TryFrom_fromU32 (n : UInt32) : u32TryFrom (I64.fromU32 n) = .ok n := by
  rw [u32TryFrom, I64.toU32_fromU32]
  rfl

/-! ## Encodings -/

namespace JsonCodec

variable {α : Type} {self : JsonCodec α} {a : α} {blob : Blob}

/-- What a value is written as. -/
def bytes (self : JsonCodec α) (a : α) : Blob :=
  match self.toVec a with
  | .ok blob => blob
  | .error _ => []

/-- A value is read back from what it is written as. -/
def Reads (self : JsonCodec α) (a : α) : Prop := self.fromSlice (self.bytes a) = .ok a

/-- A value has an encoding. -/
def Encodes (self : JsonCodec α) (a : α) : Prop := self.toVec a = .ok (self.bytes a)

/-- A value that is written is read back. -/
def Returns (self : JsonCodec α) (a : α) : Prop :=
  ∀ blob, self.toVec a = .ok blob → self.fromSlice blob = .ok a

theorem encode_iff : self.encode a = .ok blob ↔ self.Encodes a ∧ self.bytes a = blob := by
  unfold encode Encodes bytes
  cases self.toVec a with
  | ok written => simp
  | error error => simp

theorem Returns.reads (h : self.Returns a) (hencodes : self.Encodes a) : self.Reads a :=
  h _ hencodes

theorem Reads.decode (h : self.Reads a) : self.decode (self.bytes a) = .ok a := by
  rw [JsonCodec.decode, h]

end JsonCodec

/-- What the store writes is read back. Tool outputs are left out: they hold arbitrary JSON. -/
structure StoreCodecs.RoundTrip (C : StoreCodecs) : Prop where
  runEvent : ∀ a, C.runEvent.Returns a
  effectIntent : ∀ a, C.effectIntent.Returns a
  plannedInvocation : ∀ a, C.plannedInvocation.Returns a
  invocationMaterial : ∀ a, C.invocationMaterial.Returns a
  completionOutput : ∀ a, C.completionOutput.Returns a
  executionReceipt : ∀ a, C.protocolDocument.Returns (.executionReceipt a)
  runState : ∀ a, C.runState.Returns a

/-! ## Rows -/

section

variable (C : StoreCodecs)

def eventRow (record : EventRecord) : RunEventRow where
  sequence := .ofU64 record.sequence
  eventId := record.event.eventId
  previousDigest := record.previousDigest
  digest := record.digest
  eventJson := C.runEvent.bytes record.event

def projectionRow (state : RunState) : RunProjectionRow where
  singleton := .fromU32 1
  stateJson := C.runState.bytes state

def intentRow (anchor : EffectIntentAnchor) : EffectIntentRow where
  effectId := anchor.intent.effectId
  eventSequence := .ofU64 anchor.eventSequence
  stepId := anchor.stepId
  actionDigest := anchor.intent.actionDigest
  intentJson := C.effectIntent.bytes anchor.intent

def authorizationRow (intent : EffectIntent) : AuthorizationConsumptionRow where
  grantId := intent.authorization.grantId
  effectId := intent.effectId
  actionDigest := intent.actionDigest
  grantDigest := intent.authorization.grantDigest
  maxUses := .fromU32 intent.authorization.maxUses

def materialRow (material : InvocationMaterialRecord) : InvocationMaterialRow where
  effectId := material.effectId
  materialId := material.materialId
  materialDigest := material.materialDigest
  recordDigest := material.recordDigest
  recordJson := C.invocationMaterial.bytes material

/-- The event that planned a step. -/
def VerifiedRunIndex.plannedAt (index : VerifiedRunIndex) (stepId : String) : UInt64 :=
  (index.plannedInvocations[stepId]?.map PlannedInvocationAnchor.eventSequence).getD 0

def plannedRow (sequence : UInt64) (input : PlannedInvocationMaterialRecord) :
    PlannedInvocationRow where
  stepId := input.stepId
  eventSequence := .ofU64 sequence
  planId := input.planId
  recordDigest := input.recordDigest
  recordJson := C.plannedInvocation.bytes input

def outputRow (stored : StoredToolOutput) : ToolOutputRow where
  effectId := stored.record.effectId
  eventSequence := .ofU64 stored.eventSequence
  stepId := stored.record.stepId
  outputId := stored.record.outputId
  capabilityId := stored.record.invocation.capabilityId
  contractVersion := stored.record.invocation.contractVersion
  definitionDigest := stored.record.invocation.definitionDigest
  canonicalSizeBytes := .ofU64 stored.record.canonicalSizeBytes
  outputDigest := stored.record.outputDigest
  recordDigest := stored.record.recordDigest
  recordJson := C.toolOutput.bytes stored.record

def receiptRow (stored : StoredExecutionReceipt) : ExecutionReceiptRow where
  receiptId := stored.receipt.receiptId
  eventSequence := .ofU64 stored.eventSequence
  effectId := stored.effectId
  stepId := stored.receipt.stepId
  previousReceiptDigest := stored.receipt.previousReceiptDigest
  receiptDigest := stored.receipt.receiptDigest
  receiptJson := C.protocolDocument.bytes (.executionReceipt stored.receipt)

def completionRow (stored : StoredCompletionOutput) : CompletionOutputRow where
  singleton := .fromU32 1
  eventSequence := .ofU64 stored.eventSequence
  candidateId := stored.record.candidateId
  turnIndex := .fromU32 stored.record.turnIndex
  modelCallId := stored.record.modelCallId
  contextDigest := stored.record.contextDigest
  proposalDigest := stored.record.proposalDigest
  summarySizeBytes := .ofU64 stored.record.summarySizeBytes
  summaryDigest := stored.record.summaryDigest
  recordDigest := stored.record.recordDigest
  recordJson := C.completionOutput.bytes stored.record

/-! ## The relation -/

/-- The row of a tool output holds it. -/
structure StorableOutput (stored : StoredToolOutput) : Prop where
  sequence : stored.eventSequence.toNat < 2 ^ 63
  size : stored.record.canonicalSizeBytes.toNat < 2 ^ 63
  length : 1 ≤ (C.toolOutput.bytes stored.record).length ∧
    (C.toolOutput.bytes stored.record).length ≤ 1100000
  reads : C.toolOutput.Reads stored.record

/-- The row of the completion output holds it. -/
structure StorableCompletion (stored : StoredCompletionOutput) : Prop where
  sequence : stored.eventSequence.toNat < 2 ^ 63
  size : stored.record.summarySizeBytes.toNat < 2 ^ 63
  length : 1 ≤ (C.completionOutput.bytes stored.record).length ∧
    (C.completionOutput.bytes stored.record).length ≤ 20000
  reads : C.completionOutput.Reads stored.record

/-- The rows of some data hold them. -/
structure Storable (data : RunData) (index : VerifiedRunIndex) : Prop where
  records : ∀ record ∈ data.records,
    record.sequence.toNat < 2 ^ 63 ∧ C.runEvent.Reads record.event
  projection : ∀ state, data.projection = some state → C.runState.Reads state
  intents : ∀ (id : String) (anchor : EffectIntentAnchor), index.intents[id]? = some anchor →
    anchor.eventSequence.toNat < 2 ^ 63 ∧ C.effectIntent.Reads anchor.intent
  planInputs : ∀ (id : String) (input : PlannedInvocationMaterialRecord),
    data.planInputs[id]? = some input →
      (index.plannedAt id).toNat < 2 ^ 63 ∧ C.plannedInvocation.Reads input
  materials : ∀ (id : String) (material : InvocationMaterialRecord),
    data.materials[id]? = some material → C.invocationMaterial.Reads material
  outputs : ∀ (id : String) (stored : StoredToolOutput), data.outputs[id]? = some stored →
    StorableOutput C stored
  receipts : ∀ stored ∈ data.receipts, stored.eventSequence.toNat < 2 ^ 63 ∧
    C.protocolDocument.Reads (.executionReceipt stored.receipt)
  completion : ∀ stored, data.completionOutput = some stored → StorableCompletion C stored

/-- A database holds the rows of some data, and nothing else. -/
structure Mirrors (data : RunData) (index : VerifiedRunIndex) (db : Database) : Prop where
  events : db.runEvents = data.records.map (eventRow C)
  projection : db.runProjection = data.projection.toList.map (projectionRow C)
  intents : Stores EffectIntentRow.effectId (fun _ anchor => intentRow C anchor) index.intents
    db.effectIntents
  authorizations : Stores AuthorizationConsumptionRow.effectId
    (fun _ anchor => authorizationRow anchor.intent) index.intents db.authorizationConsumption
  planInputs : Stores PlannedInvocationRow.stepId (fun id => plannedRow C (index.plannedAt id))
    data.planInputs db.plannedInvocations
  materials : Stores InvocationMaterialRow.effectId (fun _ => materialRow C) data.materials
    db.invocationMaterials
  outputs : Stores ToolOutputRow.effectId (fun _ => outputRow C) data.outputs db.toolOutputs
  receipts : db.executionReceipts = data.receipts.map (receiptRow C)
  completion : db.completionOutputs = data.completionOutput.toList.map (completionRow C)
  foreignKeys : db.foreignKeysHold = true
  storable : Storable C data index

end

theorem Mirrors.empty {C : StoreCodecs} : Mirrors C .empty .default {} := by
  refine ⟨rfl, rfl, .empty, .empty, .empty, .empty, .empty, rfl, rfl, rfl, ?_⟩
  constructor <;> simp [RunData.empty, VerifiedRunIndex.default]

end Xgeny
