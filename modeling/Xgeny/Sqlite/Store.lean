import Xgeny.Lib.Mutation
import Xgeny.Sqlite.Audit
import Xgeny.Store.Loads

set_option autoImplicit false

/-!
# The SQLite store

An open handle of the store: the database behind its connection, and the verified index that it keeps
between calls with the `data_version` at which the index was built. Every call runs in one transaction.
An append writes its rows, passes a checkpoint after each table and commits; an error before that
leaves the database as it was.

* `Engine`: what SQLite answers during one call, faults included;
* `ensureVerifiedCache`: keep the cached index, or audit the database;
* `SqliteRunStore.appendInternal`: the append, and `SqliteRunStore.call` the six methods over it;
* `LoadCall`: the reads; `SqliteRunStore.read`, `MemoryRunStore.read`: what the two stores answer.
-/

namespace Xgeny

open Mutation

inductive CommitStage where
  | event
  | effectIntentIndex
  | authorizationConsumption
  | plannedInvocation
  | invocationMaterial
  | toolOutput
  | completionOutput
  | executionReceipt
  | projection
  deriving DecidableEq

/-- What SQLite answers during one call: the `data_version` that the transaction sees, and the errors
with which it does not begin, stops after a stage, or does not commit. -/
structure Engine where
  dataVersion : ℤ
  beginFault : Option String
  checkpointFault : CommitStage → Option StoreError
  commitFault : Option String

namespace Engine

variable (self : Engine)

/-- Return an error, if there is one. -/
def raise (error : Option StoreError) : Outcome StoreError Unit :=
  match error with
  | none => pure ()
  | some error => Outcome.fail error

/-- `connection.transaction_with_behavior(…)?` or `connection.unchecked_transaction()?`. -/
def begin : Outcome StoreError Unit := raise (self.beginFault.map .sqlite)

/-- `checkpoint(stage)?`. -/
def checkpoint (stage : CommitStage) : Outcome StoreError Unit := raise (self.checkpointFault stage)

/-- `transaction.commit()?`. -/
def commit : Outcome StoreError Unit := raise (self.commitFault.map .sqlite)

end Engine

structure VerifiedSqliteCache where
  dataVersion : ℤ
  index : VerifiedRunIndex
  deriving DecidableEq

/-- One handle, with the database behind it. -/
structure SqliteRunStore where
  database : Database
  cache : Option VerifiedSqliteCache

section

variable (C : StoreCodecs) (D : Digests) (P : Protocol) (E : Engine)

/-! ## The cache -/

/-- The audit, which must end at the durable head. -/
def auditAtHead (db : Database) :
    Outcome StoreError (Option RunSnapshot × List StoredExecutionReceipt × VerifiedRunIndex) := do
  let durableHead ← loadDurableHead db
  let (snapshot, receipts, index) ← loadVerifiedStoreData C D P db
  Outcome.failIf (index.head ≠ durableHead)
    (.corrupt "verified journal head differs from the durable head")
  pure (snapshot, receipts, index)

/-- `build_verified_cache`, when a handle is opened. -/
def buildVerifiedCache (db : Database) : Outcome StoreError VerifiedSqliteCache := do
  E.begin
  let (_, _, index) ← auditAtHead C D P db
  E.commit
  pure { dataVersion := E.dataVersion, index := index }

/-- The cached index may be kept: neither another connection nor this one has moved on. -/
def VerifiedSqliteCache.isCurrent (self : VerifiedSqliteCache) (durableHead : ExpectedHead) : Bool :=
  decide (self.dataVersion = E.dataVersion ∧ self.index.head = durableHead)

namespace SqliteRunStore

def ensureVerifiedCache : Mutation SqliteRunStore StoreError Unit := do
  let durableHead ← reads fun self => loadDurableHead self.database
  let kept ← reads fun self => pure (self.cache.any fun cached => cached.isCurrent E durableHead)
  if kept = true then pure ()
  else do
    writes fun self => { self with cache := none }
    let (_, _, index) ← reads fun self => auditAtHead C D P self.database
    writes fun self => { self with cache := some { dataVersion := E.dataVersion, index := index } }

/-- `cache.borrow().as_ref().expect(…).index`. -/
def cachedIndex : Mutation SqliteRunStore StoreError VerifiedRunIndex :=
  reads fun self => Outcome.expect (self.cache.map VerifiedSqliteCache.index)
    "cache refresh must install a verified index"

/-- `if let Err(error) = … { cache.replace(None); return Err(error); }`. -/
def orDropCache {α : Type} (m : Mutation SqliteRunStore StoreError α) :
    Mutation SqliteRunStore StoreError α := fun self =>
  match m self with
  | (.error (.err error), self') => (.error (.err error), { self' with cache := none })
  | result => result

end SqliteRunStore

/-! ## Appends -/

/-- The stored input of the step that an intent is committed for. -/
def loadPlannedInput (db : Database) (event : RunEvent) :
    Outcome StoreError (Option PlannedInvocationMaterialRecord) :=
  match event.body with
  | .effectIntentCommitted stepId _ => loadPlannedInvocation C db stepId
  | _ => pure none

/-- The checks between the refresh of the cache and the first write. -/
def verifyCandidate (db : Database) (index : VerifiedRunIndex) (expected : ExpectedHead)
    (event : RunEvent) (sidecars : CommitSidecars) : Outcome StoreError (Commit × CommitAnchors) := do
  Outcome.whenSome sidecars.material fun material => do
    let plannedInput ← loadPlannedInput C db event
    verifyPlannedMaterialRetention D index event material plannedInput
  let commit ← prepareCommit D index expected event
  Outcome.whenSome sidecars.material fun material =>
    Outcome.failIf (material.effectId ∈ index.materialEffectIds)
      (.corrupt "duplicate invocation material effect ID")
  Outcome.whenSome sidecars.planInputs fun inputs =>
    Outcome.failIf (∃ input ∈ inputs, input.stepId ∈ index.planInputStepIds)
      (.corrupt "duplicate planned invocation input Step ID")
  let receipt ← Outcome.mapSome sidecars.receipt (verifyReceiptCandidate P index commit.record)
  let output ← Outcome.mapSome sidecars.output (verifyToolOutputCandidate D index commit.record)
  let completionOutput ← Outcome.mapSome sidecars.completionOutput
    (verifyCompletionOutputCandidate D index commit.record)
  pure (commit, { output := output, completionOutput := completionOutput, receipt := receipt })

/-- The writes of one commit, each followed by its checkpoint. -/
def writeCommit (db : Database) (commit : Commit) (sidecars : CommitSidecars) :
    Outcome StoreError Database := do
  let db ← insertEvent C db commit.record
  E.checkpoint .event
  let db ← insertEffectIntentIndex C db commit.record
  E.checkpoint .effectIntentIndex
  let db ← insertAuthorizationConsumption db commit.record
  E.checkpoint .authorizationConsumption
  let db ← insertPlannedInvocations C db commit.record sidecars.planInputs
  E.checkpoint .plannedInvocation
  let db ← insertInvocationMaterial C db sidecars.material
  E.checkpoint .invocationMaterial
  let db ← insertToolOutput C db commit.record sidecars.output
  E.checkpoint .toolOutput
  let db ← insertCompletionOutput C db commit.record sidecars.completionOutput
  E.checkpoint .completionOutput
  let db ← insertExecutionReceipt C db commit.record sidecars.receipt
  E.checkpoint .executionReceipt
  let db ← writeProjection C db commit.state
  E.checkpoint .projection
  E.commit
  pure db

namespace SqliteRunStore

/-- `append_internal`. A transaction that is dropped before its commit leaves no row. -/
def appendInternal (expected : ExpectedHead) (event : RunEvent) (sidecars : CommitSidecars) :
    Mutation SqliteRunStore StoreError Commit := do
  reads fun _ => verifyCommitSidecars D P event sidecars
  reads fun _ => E.begin
  orDropCache (ensureVerifiedCache C D P E)
  let index ← cachedIndex
  let (commit, anchors) ← reads fun self =>
    verifyCandidate C D P self.database index expected event sidecars
  let database ← orDropCache (reads fun self => writeCommit C E self.database commit sidecars)
  writes fun self => { self with database := database }
  let index ← reads fun _ => index.applyCommitted commit sidecars anchors
  writes fun self =>
    { self with cache := self.cache.map fun cached => { cached with index := index } }
  pure commit

/-- A call of one of the six append methods. -/
def call (call : AppendCall) : Mutation SqliteRunStore StoreError Commit :=
  appendInternal C D P E call.expected call.event call.sidecars

/-! ## Loads -/

/-- A load that audits the whole database and keeps the index it found. -/
def loadAudited :
    Mutation SqliteRunStore StoreError (Option RunSnapshot × List StoredExecutionReceipt) := do
  reads fun _ => E.begin
  let (snapshot, receipts, index) ← reads fun self => auditAtHead C D P self.database
  reads fun _ => E.commit
  writes fun self => { self with cache := some { dataVersion := E.dataVersion, index := index } }
  pure (snapshot, receipts)

def load : Mutation SqliteRunStore StoreError (Option RunSnapshot) := do
  let (snapshot, _) ← loadAudited C D P E
  pure snapshot

def loadWithExecutionReceipts :
    Mutation SqliteRunStore StoreError (Option RunSnapshot × List ExecutionReceiptBody) := do
  let (snapshot, receipts) ← loadAudited C D P E
  pure (snapshot, receipts.map StoredExecutionReceipt.receipt)

/-- A load over the verified index. -/
def loadOver {α : Type} (body : Database → VerifiedRunIndex → Outcome StoreError α) :
    Mutation SqliteRunStore StoreError α := do
  reads fun _ => E.begin
  ensureVerifiedCache C D P E
  let index ← cachedIndex
  let a ← reads fun self => body self.database index
  reads fun _ => E.commit
  pure a

def loadCurrent : Mutation SqliteRunStore StoreError (Option RunState) :=
  loadOver C D P E fun _ index => pure index.state

def loadInvocationMaterial (effectId : String) :
    Mutation SqliteRunStore StoreError (Option InvocationMaterialRecord) :=
  loadOver C D P E fun db index => do
    let material ← Xgeny.loadInvocationMaterial C db effectId
    verifyMaterialPoint D index effectId material
    pure material

def loadPlannedInvocation (stepId : String) :
    Mutation SqliteRunStore StoreError (Option PlannedInvocationMaterialRecord) :=
  loadOver C D P E fun db index => do
    let input ← Xgeny.loadPlannedInvocation C db stepId
    verifyPlanInputPoint D index stepId input
    pure input

def loadExecutionReceipts : Mutation SqliteRunStore StoreError (List ExecutionReceiptBody) :=
  loadOver C D P E fun db _ => do
    let receipts ← Xgeny.loadExecutionReceipts C db
    pure (receipts.map StoredExecutionReceipt.receipt)

def loadToolOutput (effectId : String) :
    Mutation SqliteRunStore StoreError (Option ToolOutputRecord) :=
  loadOver C D P E fun db index => do
    let output ← Xgeny.loadToolOutput C db effectId
    verifyToolOutputPoint D index effectId output
    pure (output.map StoredToolOutput.record)

def loadCompletionOutput (expected : ExpectedHead) (candidateId : String) :
    Mutation SqliteRunStore StoreError (Option CompletionOutputRecord) :=
  loadOver C D P E fun db index => do
    let stored ← loadCompletionOutputRow C db
    buildCompletionOutput D index expected candidateId stored

def loadVerificationSnapshot (stepId : String) :
    Mutation SqliteRunStore StoreError (Option RunVerificationSnapshot) :=
  loadOver C D P E fun db index =>
    match index.verificationSnapshot stepId with
    | none => pure none
    | some snapshot =>
      match snapshot.state.effectOf stepId with
      | none => pure (some snapshot)
      | some effectId => do
        let output ← Xgeny.loadToolOutput C db effectId
        verifyToolOutputPoint D index effectId output
        pure (some { snapshot with toolOutput := output.map StoredToolOutput.record })

def loadPlanningSnapshot (expected : ExpectedHead) (maxOutputBytes : UInt64) :
    Mutation SqliteRunStore StoreError (Option RunPlanningSnapshot) :=
  loadOver C D P E fun db index =>
    buildPlanningSnapshot D index expected maxOutputBytes (Xgeny.loadToolOutput C db)

end SqliteRunStore

/-! ## The reads of a store -/

/-- A call of one of the load methods of `RunStore`. -/
inductive LoadCall where
  | load
  | loadCurrent
  | loadInvocationMaterial (effectId : String)
  | loadPlannedInvocation (stepId : String)
  | loadExecutionReceipts
  | loadToolOutput (effectId : String)
  | loadCompletionOutput (expected : ExpectedHead) (candidateId : String)
  | loadWithExecutionReceipts
  | loadVerificationSnapshot (stepId : String)
  | loadPlanningSnapshot (expected : ExpectedHead) (maxOutputBytes : UInt64)

/-- What a load returns. -/
def LoadCall.Answer : LoadCall → Type
  | .load => Option RunSnapshot
  | .loadCurrent => Option RunState
  | .loadInvocationMaterial _ => Option InvocationMaterialRecord
  | .loadPlannedInvocation _ => Option PlannedInvocationMaterialRecord
  | .loadExecutionReceipts => List ExecutionReceiptBody
  | .loadToolOutput _ => Option ToolOutputRecord
  | .loadCompletionOutput _ _ => Option CompletionOutputRecord
  | .loadWithExecutionReceipts => Option RunSnapshot × List ExecutionReceiptBody
  | .loadVerificationSnapshot _ => Option RunVerificationSnapshot
  | .loadPlanningSnapshot _ _ => Option RunPlanningSnapshot

def SqliteRunStore.read : (call : LoadCall) → Mutation SqliteRunStore StoreError call.Answer
  | .load => load C D P E
  | .loadCurrent => loadCurrent C D P E
  | .loadInvocationMaterial effectId => loadInvocationMaterial C D P E effectId
  | .loadPlannedInvocation stepId => loadPlannedInvocation C D P E stepId
  | .loadExecutionReceipts => loadExecutionReceipts C D P E
  | .loadToolOutput effectId => loadToolOutput C D P E effectId
  | .loadCompletionOutput expected candidateId => loadCompletionOutput C D P E expected candidateId
  | .loadWithExecutionReceipts => loadWithExecutionReceipts C D P E
  | .loadVerificationSnapshot stepId => loadVerificationSnapshot C D P E stepId
  | .loadPlanningSnapshot expected maxOutputBytes =>
    loadPlanningSnapshot C D P E expected maxOutputBytes

def MemoryRunStore.read (self : MemoryRunStore) : (call : LoadCall) → Outcome StoreError call.Answer
  | .load => self.load D P
  | .loadCurrent => self.loadCurrent
  | .loadInvocationMaterial effectId => self.loadInvocationMaterial D effectId
  | .loadPlannedInvocation stepId => self.loadPlannedInvocation D stepId
  | .loadExecutionReceipts => self.loadExecutionReceipts
  | .loadToolOutput effectId => self.loadToolOutput D effectId
  | .loadCompletionOutput expected candidateId => self.loadCompletionOutput D expected candidateId
  | .loadWithExecutionReceipts => self.loadWithExecutionReceipts D P
  | .loadVerificationSnapshot stepId => self.loadVerificationSnapshot D stepId
  | .loadPlanningSnapshot expected maxOutputBytes =>
    self.loadPlanningSnapshot D expected maxOutputBytes

end

end Xgeny
