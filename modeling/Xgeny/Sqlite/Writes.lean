import Xgeny.Sqlite.Mirror

set_option autoImplicit false

/-!
# What the writers add

Each writer of a commit either fails or adds its rows to one table. Together they turn a database
into one that has the rows of the commit, with the conditions under which they do so.

* `insertEvent_eq_ok`, …, `writeProjection_eq_ok`: each writer;
* `Database.written`, `Writable`: the database with the rows of one commit more, and when they can be
  written;
* **`writeCommit_eq_ok`**: the commit.
-/

namespace Xgeny

open Table

/-! ## Single rows -/

@[simp] theorem executeInsert_eq_ok {ρ : Type} {constraints : List (Constraint ρ)} {rows rows' : List ρ}
    {row : ρ} : executeInsert constraints rows row = .ok rows' ↔
      Admits constraints rows row ∧ rows ++ [row] = rows' := by
  rw [executeInsert, Outcome.mapErr_eq_ok, insertRow_eq_ok]

@[simp] theorem uniqueColumn_violated {ρ κ : Type} [DecidableEq κ] {column : String} {key : ρ → κ}
    {rows : List ρ} {row : ρ} :
    (uniqueColumn column key).violated rows row = false ↔ key row ∉ rows.map key :=
  unique_violated

@[simp] theorem checkRow_violated {ρ : Type} {expression : String} {p : ρ → Bool} {rows : List ρ}
    {row : ρ} : (checkRow expression p).violated rows row = false ↔ p row = true :=
  check_violated

@[simp] theorem foreignKey_violated {ρ κ : Type} [DecidableEq κ] {key : ρ → κ} {parents : List κ}
    {rows : List ρ} {row : ρ} :
    (foreignKey key parents).violated rows row = false ↔ key row ∈ parents := by
  rw [foreignKey, references_violated]
  simp

/-! ## Writers -/

section

variable {C : StoreCodecs} {db db' : Database} {record : EventRecord}

theorem insertEvent_eq_ok : insertEvent C db record = .ok db' ↔
    (record.sequence.toNat < 2 ^ 63 ∧ C.runEvent.Encodes record.event ∧
      Admits runEventConstraints db.runEvents (eventRow C record)) ∧
      { db with runEvents := db.runEvents ++ [eventRow C record] } = db' := by
  simp only [insertEvent, Outcome.bind_eq_ok, i64TryFrom_eq_ok, JsonCodec.encode_iff,
    executeInsert_eq_ok, Outcome.pure_eq_ok]
  constructor
  · rintro ⟨_, ⟨hsequence, rfl⟩, _, ⟨hencodes, rfl⟩, _, ⟨hadmits, rfl⟩, rfl⟩
    exact ⟨⟨hsequence, hencodes, hadmits⟩, rfl⟩
  · rintro ⟨⟨hsequence, hencodes, hadmits⟩, rfl⟩
    exact ⟨_, ⟨hsequence, rfl⟩, _, ⟨hencodes, rfl⟩, _, ⟨hadmits, rfl⟩, rfl⟩

/-- The intent that a record commits. -/
def EventRecord.committed (record : EventRecord) : Option EffectIntentAnchor :=
  match record.event.body with
  | .effectIntentCommitted stepId intent =>
    some { eventSequence := record.sequence, stepId := stepId, intent := intent }
  | _ => none

theorem EventRecord.committed_eq_some {anchor : EffectIntentAnchor} :
    record.committed = some anchor ↔
      record.event.body = .effectIntentCommitted anchor.stepId anchor.intent ∧
        anchor.eventSequence = record.sequence := by
  unfold EventRecord.committed
  split
  · rename_i stepId intent hbody
    rw [hbody, Option.some.injEq]
    constructor
    · rintro rfl
      exact ⟨rfl, rfl⟩
    · rintro ⟨hbody', hsequence⟩
      obtain ⟨rfl, rfl⟩ := RunEventBody.effectIntentCommitted.inj hbody'
      rw [← hsequence]
  · rename_i hother
    simp only [reduceCtorEq, false_iff, not_and]
    exact fun hbody => absurd hbody (hother _ _)

theorem EventRecord.committed_eq_none (h : ∀ stepId intent,
    record.event.body ≠ .effectIntentCommitted stepId intent) : record.committed = none := by
  cases hcommitted : record.committed with
  | none => rfl
  | some anchor => exact absurd (EventRecord.committed_eq_some.mp hcommitted).1 (h _ _)

theorem insertEffectIntentIndex_eq_ok : insertEffectIntentIndex C db record = .ok db' ↔
    (∀ anchor, record.committed = some anchor → anchor.eventSequence.toNat < 2 ^ 63 ∧
      C.effectIntent.Encodes anchor.intent ∧
      Admits db.effectIntentConstraints db.effectIntents (intentRow C anchor)) ∧
      { db with effectIntents :=
          db.effectIntents ++ record.committed.toList.map (intentRow C) } = db' := by
  unfold insertEffectIntentIndex
  split
  · rename_i stepId intent hbody
    have hcommitted : record.committed = some ⟨record.sequence, stepId, intent⟩ :=
      EventRecord.committed_eq_some.mpr ⟨hbody, rfl⟩
    simp only [hcommitted, Outcome.bind_eq_ok, i64TryFrom_eq_ok, JsonCodec.encode_iff, executeInsert_eq_ok,
      Outcome.pure_eq_ok, Option.some.injEq, forall_eq', Option.toList_some, List.map_cons,
      List.map_nil]
    constructor
    · rintro ⟨_, ⟨hsequence, rfl⟩, _, ⟨hencodes, rfl⟩, _, ⟨hadmits, rfl⟩, rfl⟩
      exact ⟨⟨hsequence, hencodes, hadmits⟩, rfl⟩
    · rintro ⟨⟨hsequence, hencodes, hadmits⟩, rfl⟩
      exact ⟨_, ⟨hsequence, rfl⟩, _, ⟨hencodes, rfl⟩, _, ⟨hadmits, rfl⟩, rfl⟩
  · rename_i hother
    simp [EventRecord.committed_eq_none hother]

theorem insertAuthorizationConsumption_eq_ok :
    insertAuthorizationConsumption db record = .ok db' ↔
    (∀ anchor, record.committed = some anchor → Admits db.authorizationConstraints
      db.authorizationConsumption (authorizationRow anchor.intent)) ∧
      { db with authorizationConsumption := db.authorizationConsumption ++
          record.committed.toList.map fun anchor => authorizationRow anchor.intent } = db' := by
  unfold insertAuthorizationConsumption
  split
  · rename_i stepId intent hbody
    have hcommitted : record.committed = some ⟨record.sequence, stepId, intent⟩ :=
      EventRecord.committed_eq_some.mpr ⟨hbody, rfl⟩
    simp only [hcommitted, Outcome.bind_eq_ok, executeInsert_eq_ok, Outcome.pure_eq_ok, Option.some.injEq,
      forall_eq', Option.toList_some, List.map_cons, List.map_nil]
    constructor
    · rintro ⟨_, ⟨hadmits, rfl⟩, rfl⟩
      exact ⟨hadmits, rfl⟩
    · rintro ⟨hadmits, rfl⟩
      exact ⟨_, ⟨hadmits, rfl⟩, rfl⟩
  · rename_i hother
    simp [EventRecord.committed_eq_none hother]

theorem insertPlannedInvocation_eq_ok {sequence : UInt64} {input : PlannedInvocationMaterialRecord} :
    insertPlannedInvocation C (.ofU64 sequence) db input = .ok db' ↔
    (C.plannedInvocation.Encodes input ∧
      Admits db.plannedInvocationConstraints db.plannedInvocations (plannedRow C sequence input)) ∧
      { db with plannedInvocations :=
          db.plannedInvocations ++ [plannedRow C sequence input] } = db' := by
  simp only [insertPlannedInvocation, Outcome.bind_eq_ok, JsonCodec.encode_iff,
    executeInsert_eq_ok, Outcome.pure_eq_ok]
  constructor
  · rintro ⟨_, ⟨hencodes, rfl⟩, _, ⟨hadmits, rfl⟩, rfl⟩
    exact ⟨⟨hencodes, hadmits⟩, rfl⟩
  · rintro ⟨⟨hencodes, hadmits⟩, rfl⟩
    exact ⟨_, ⟨hencodes, rfl⟩, _, ⟨hadmits, rfl⟩, rfl⟩

theorem foldl_insertPlannedInvocation {sequence : UInt64}
    {inputs : List PlannedInvocationMaterialRecord} :
    Outcome.foldl (insertPlannedInvocation C (.ofU64 sequence)) db inputs = .ok db' ↔
    (∀ before input after, inputs = before ++ input :: after →
      C.plannedInvocation.Encodes input ∧ Admits db.plannedInvocationConstraints
        (db.plannedInvocations ++ before.map (plannedRow C sequence)) (plannedRow C sequence input)) ∧
      { db with plannedInvocations :=
          db.plannedInvocations ++ inputs.map (plannedRow C sequence) } = db' := by
  induction inputs generalizing db with
  | nil => simp [Outcome.foldl]
  | cons first inputs ih =>
    simp only [Outcome.foldl, Outcome.bind_eq_ok, insertPlannedInvocation_eq_ok]
    constructor
    · rintro ⟨_, ⟨hfirst, rfl⟩, hloop⟩
      obtain ⟨hrest, rfl⟩ := ih.mp hloop
      refine ⟨fun before input after hinputs => ?_, by simp⟩
      cases before with
      | nil =>
        obtain ⟨rfl, rfl⟩ := List.cons.inj hinputs
        simpa using hfirst
      | cons _ before =>
        obtain ⟨rfl, htail⟩ := List.cons.inj hinputs
        have hinput := hrest before input after htail
        rw [List.append_assoc] at hinput
        exact hinput
    · rintro ⟨hall, rfl⟩
      refine ⟨_, ⟨by simpa using hall [] first inputs rfl, rfl⟩, ih.mpr ⟨?_, by simp⟩⟩
      intro before input after hinputs
      rw [List.append_assoc]
      exact hall (first :: before) input after (by rw [hinputs, List.cons_append])

theorem insertPlannedInvocations_eq_ok {inputs : Option (List PlannedInvocationMaterialRecord)} :
    insertPlannedInvocations C db record inputs = .ok db' ↔
    ((∀ given, inputs = some given → record.sequence.toNat < 2 ^ 63) ∧
      ∀ before input after, inputs.getD [] = before ++ input :: after →
        C.plannedInvocation.Encodes input ∧ Admits db.plannedInvocationConstraints
          (db.plannedInvocations ++ before.map (plannedRow C record.sequence))
          (plannedRow C record.sequence input)) ∧
      { db with plannedInvocations := db.plannedInvocations ++
          (inputs.getD []).map (plannedRow C record.sequence) } = db' := by
  cases inputs with
  | none => simp [insertPlannedInvocations]
  | some given =>
    simp only [insertPlannedInvocations, Outcome.bind_eq_ok, i64TryFrom_eq_ok, Option.getD_some,
      Option.some.injEq, forall_eq']
    constructor
    · rintro ⟨_, ⟨hsequence, rfl⟩, hloop⟩
      obtain ⟨hall, rfl⟩ := foldl_insertPlannedInvocation.mp hloop
      exact ⟨⟨hsequence, hall⟩, rfl⟩
    · rintro ⟨⟨hsequence, hall⟩, rfl⟩
      exact ⟨_, ⟨hsequence, rfl⟩, foldl_insertPlannedInvocation.mpr ⟨hall, rfl⟩⟩

theorem insertInvocationMaterial_eq_ok {material : Option InvocationMaterialRecord} :
    insertInvocationMaterial C db material = .ok db' ↔
    (∀ given, material = some given → C.invocationMaterial.Encodes given ∧
      Admits db.invocationMaterialConstraints db.invocationMaterials (materialRow C given)) ∧
      { db with invocationMaterials :=
          db.invocationMaterials ++ material.toList.map (materialRow C) } = db' := by
  cases material with
  | none => simp [insertInvocationMaterial]
  | some given =>
    simp only [insertInvocationMaterial, Outcome.bind_eq_ok, JsonCodec.encode_iff,
      executeInsert_eq_ok, Outcome.pure_eq_ok, Option.some.injEq, forall_eq', Option.toList_some,
      List.map_cons, List.map_nil]
    constructor
    · rintro ⟨_, ⟨hencodes, rfl⟩, _, ⟨hadmits, rfl⟩, rfl⟩
      exact ⟨⟨hencodes, hadmits⟩, rfl⟩
    · rintro ⟨⟨hencodes, hadmits⟩, rfl⟩
      exact ⟨_, ⟨hencodes, rfl⟩, _, ⟨hadmits, rfl⟩, rfl⟩

theorem insertToolOutput_eq_ok {output : Option ToolOutputRecord}
    (hbody : ∀ given, output = some given → ∃ effectId evidence digest,
      record.event.body = .effectSucceeded given.stepId effectId evidence digest) :
    insertToolOutput C db record output = .ok db' ↔
    (∀ given, output = some given → record.sequence.toNat < 2 ^ 63 ∧
      given.canonicalSizeBytes.toNat < 2 ^ 63 ∧ C.toolOutput.Encodes given ∧
      Admits db.toolOutputConstraints db.toolOutputs (outputRow C ⟨record.sequence, given⟩)) ∧
      { db with toolOutputs := db.toolOutputs ++
          output.toList.map fun given => outputRow C ⟨record.sequence, given⟩ } = db' := by
  cases output with
  | none => simp [insertToolOutput]
  | some given =>
    obtain ⟨effectId, evidence, digest, hbody⟩ := hbody given rfl
    simp only [insertToolOutput, hbody, Outcome.bind_eq_ok, i64TryFrom_eq_ok, JsonCodec.encode_iff,
      executeInsert_eq_ok, Outcome.pure_eq_ok, Option.some.injEq, forall_eq', Option.toList_some,
      List.map_cons, List.map_nil]
    constructor
    · rintro ⟨_, ⟨hsequence, rfl⟩, _, ⟨hsize, rfl⟩, _, ⟨hencodes, rfl⟩, _, ⟨hadmits, rfl⟩, rfl⟩
      exact ⟨⟨hsequence, hsize, hencodes, hadmits⟩, rfl⟩
    · rintro ⟨⟨hsequence, hsize, hencodes, hadmits⟩, rfl⟩
      exact ⟨_, ⟨hsequence, rfl⟩, _, ⟨hsize, rfl⟩, _, ⟨hencodes, rfl⟩, _, ⟨hadmits, rfl⟩, rfl⟩

theorem insertCompletionOutput_eq_ok {output : Option CompletionOutputRecord} :
    insertCompletionOutput C db record output = .ok db' ↔
    (∀ given, output = some given → record.sequence.toNat < 2 ^ 63 ∧
      given.summarySizeBytes.toNat < 2 ^ 63 ∧ C.completionOutput.Encodes given ∧
      Admits db.completionOutputConstraints db.completionOutputs
        (completionRow C ⟨record.sequence, given⟩)) ∧
      { db with completionOutputs := db.completionOutputs ++
          output.toList.map fun given => completionRow C ⟨record.sequence, given⟩ } = db' := by
  cases output with
  | none => simp [insertCompletionOutput]
  | some given =>
    simp only [insertCompletionOutput, Outcome.bind_eq_ok, i64TryFrom_eq_ok, JsonCodec.encode_iff,
      executeInsert_eq_ok, Outcome.pure_eq_ok, Option.some.injEq, forall_eq', Option.toList_some,
      List.map_cons, List.map_nil]
    constructor
    · rintro ⟨_, ⟨hsequence, rfl⟩, _, ⟨hsize, rfl⟩, _, ⟨hencodes, rfl⟩, _, ⟨hadmits, rfl⟩, rfl⟩
      exact ⟨⟨hsequence, hsize, hencodes, hadmits⟩, rfl⟩
    · rintro ⟨⟨hsequence, hsize, hencodes, hadmits⟩, rfl⟩
      exact ⟨_, ⟨hsequence, rfl⟩, _, ⟨hsize, rfl⟩, _, ⟨hencodes, rfl⟩, _, ⟨hadmits, rfl⟩, rfl⟩

theorem insertExecutionReceipt_eq_ok {receipt : Option ExecutionReceiptBody}
    (hbody : ∀ given, receipt = some given → ∃ effectId disposition receiptId digest,
      record.event.body = .verificationRecorded given.stepId effectId disposition receiptId digest) :
    insertExecutionReceipt C db record receipt = .ok db' ↔
    (∀ given, receipt = some given → record.sequence.toNat < 2 ^ 63 ∧
      C.protocolDocument.Encodes (.executionReceipt given) ∧
      Admits db.executionReceiptConstraints db.executionReceipts
        (receiptRow C ⟨record.sequence, record.event.body.receiptEffect, given⟩)) ∧
      { db with executionReceipts := db.executionReceipts ++ receipt.toList.map fun given =>
          receiptRow C ⟨record.sequence, record.event.body.receiptEffect, given⟩ } = db' := by
  cases receipt with
  | none => simp [insertExecutionReceipt]
  | some given =>
    obtain ⟨effectId, disposition, receiptId, digest, hbody⟩ := hbody given rfl
    simp only [insertExecutionReceipt, hbody, RunEventBody.receiptEffect, Outcome.bind_eq_ok,
      i64TryFrom_eq_ok, JsonCodec.encode_iff, executeInsert_eq_ok, Outcome.pure_eq_ok,
      Option.some.injEq, forall_eq', Option.toList_some, List.map_cons, List.map_nil]
    constructor
    · rintro ⟨_, ⟨hsequence, rfl⟩, _, ⟨hencodes, rfl⟩, _, ⟨hadmits, rfl⟩, rfl⟩
      exact ⟨⟨hsequence, hencodes, hadmits⟩, rfl⟩
    · rintro ⟨⟨hsequence, hencodes, hadmits⟩, rfl⟩
      exact ⟨_, ⟨hsequence, rfl⟩, _, ⟨hencodes, rfl⟩, _, ⟨hadmits, rfl⟩, rfl⟩

theorem writeProjection_eq_ok {before : Option RunState} {state : RunState}
    (hbefore : db.runProjection = before.toList.map (projectionRow C)) :
    writeProjection C db state = .ok db' ↔
    C.runState.Encodes state ∧ { db with runProjection := [projectionRow C state] } = db' := by
  have hone : (I64.fromU32 1).val = 1 := rfl
  have hrows : (if db.runProjection.any (fun row => decide (row.singleton.val = 1)) then
      db.runProjection.map fun row =>
        if row.singleton.val = 1 then { row with stateJson := C.runState.bytes state } else row
      else db.runProjection ++
        [{ singleton := I64.fromU32 1, stateJson := C.runState.bytes state }]) =
      [projectionRow C state] := by
    rw [hbefore]
    cases before with
    | none => rfl
    | some old => simp [projectionRow, hone]
  simp only [writeProjection, Outcome.bind_eq_ok, JsonCodec.encode_iff, Outcome.pure_eq_ok]
  constructor
  · rintro ⟨_, ⟨hencodes, rfl⟩, rfl⟩
    exact ⟨hencodes, by rw [hrows]⟩
  · rintro ⟨hencodes, rfl⟩
    exact ⟨_, ⟨hencodes, rfl⟩, by rw [hrows]⟩

end

/-! ## Commits -/

section

variable (C : StoreCodecs) (db : Database) (commit : Commit) (sidecars : CommitSidecars)

/-- The database with the rows of one commit more. -/
def Database.written : Database where
  runEvents := db.runEvents ++ [eventRow C commit.record]
  runProjection := [projectionRow C commit.state]
  effectIntents := db.effectIntents ++ commit.record.committed.toList.map (intentRow C)
  authorizationConsumption := db.authorizationConsumption ++
    commit.record.committed.toList.map fun anchor => authorizationRow anchor.intent
  invocationMaterials := db.invocationMaterials ++ sidecars.material.toList.map (materialRow C)
  toolOutputs := db.toolOutputs ++
    sidecars.output.toList.map fun output => outputRow C ⟨commit.record.sequence, output⟩
  plannedInvocations := db.plannedInvocations ++
    (sidecars.planInputs.getD []).map (plannedRow C commit.record.sequence)
  executionReceipts := db.executionReceipts ++ sidecars.receipt.toList.map fun receipt =>
    receiptRow C ⟨commit.record.sequence, commit.record.event.body.receiptEffect, receipt⟩
  completionOutputs := db.completionOutputs ++
    sidecars.completionOutput.toList.map fun output => completionRow C ⟨commit.record.sequence, output⟩

/-- The rows of one commit can be written. -/
structure Writable : Prop where
  sequence : commit.record.sequence.toNat < 2 ^ 63
  event : C.runEvent.Encodes commit.record.event
  eventRow : Admits runEventConstraints db.runEvents (eventRow C commit.record)
  intent : ∀ anchor, commit.record.committed = some anchor → C.effectIntent.Encodes anchor.intent
  intentRow : ∀ anchor, commit.record.committed = some anchor →
    Admits (db.written C commit sidecars).effectIntentConstraints db.effectIntents
      (intentRow C anchor)
  authorizationRow : ∀ anchor, commit.record.committed = some anchor →
    Admits (db.written C commit sidecars).authorizationConstraints db.authorizationConsumption
      (authorizationRow anchor.intent)
  planInputs : ∀ before input after, sidecars.planInputs.getD [] = before ++ input :: after →
    C.plannedInvocation.Encodes input ∧
      Admits (db.written C commit sidecars).plannedInvocationConstraints
        (db.plannedInvocations ++ before.map (plannedRow C commit.record.sequence))
        (plannedRow C commit.record.sequence input)
  material : ∀ material, sidecars.material = some material →
    C.invocationMaterial.Encodes material ∧
      Admits (db.written C commit sidecars).invocationMaterialConstraints db.invocationMaterials
        (materialRow C material)
  output : ∀ output, sidecars.output = some output → output.canonicalSizeBytes.toNat < 2 ^ 63 ∧
    C.toolOutput.Encodes output ∧
      Admits (db.written C commit sidecars).toolOutputConstraints db.toolOutputs
        (outputRow C ⟨commit.record.sequence, output⟩)
  completionOutput : ∀ output, sidecars.completionOutput = some output →
    output.summarySizeBytes.toNat < 2 ^ 63 ∧ C.completionOutput.Encodes output ∧
      Admits (db.written C commit sidecars).completionOutputConstraints db.completionOutputs
        (completionRow C ⟨commit.record.sequence, output⟩)
  receipt : ∀ receipt, sidecars.receipt = some receipt →
    C.protocolDocument.Encodes (.executionReceipt receipt) ∧
      Admits (db.written C commit sidecars).executionReceiptConstraints db.executionReceipts
        (receiptRow C ⟨commit.record.sequence, commit.record.event.body.receiptEffect, receipt⟩)
  state : C.runState.Encodes commit.state

/-- The events of a tool output and of a receipt name their step. -/
structure NamesStep : Prop where
  output : ∀ output, sidecars.output = some output → ∃ effectId evidence digest,
    commit.record.event.body = .effectSucceeded output.stepId effectId evidence digest
  receipt : ∀ receipt, sidecars.receipt = some receipt → ∃ effectId disposition receiptId digest,
    commit.record.event.body =
      .verificationRecorded receipt.stepId effectId disposition receiptId digest

end

variable {C : StoreCodecs} {E : Engine} {db db' : Database} {commit : Commit}
  {sidecars : CommitSidecars}

theorem Engine.raise_eq_ok {error : Option StoreError} {u : Unit} :
    Engine.raise error = .ok u ↔ error = none := by
  cases error <;> simp [Engine.raise]

/-- The transaction of an append passes its checkpoints and commits. -/
structure Engine.Completes (E : Engine) : Prop where
  checkpoints : ∀ stage, E.checkpointFault stage = none
  commits : E.commitFault = none

/-- No call of SQLite fails. -/
structure Engine.Sound (E : Engine) : Prop extends E.Completes where
  begins : E.beginFault = none

theorem Engine.checkpoint_eq_ok {stage : CommitStage} {u : Unit} :
    E.checkpoint stage = .ok u ↔ E.checkpointFault stage = none :=
  Engine.raise_eq_ok

theorem Engine.commit_eq_ok {u : Unit} : E.commit = .ok u ↔ E.commitFault = none := by
  rw [Engine.commit, Engine.raise_eq_ok, Option.map_eq_none_iff]

/-- **A commit is written** when its rows can be written and the engine completes. -/
theorem writeCommit_eq_ok {before : Option RunState}
    (hbefore : db.runProjection = before.toList.map (projectionRow C))
    (hnames : NamesStep commit sidecars) :
    writeCommit C E db commit sidecars = .ok db' ↔
      (E.Completes ∧ Writable C db commit sidecars) ∧ db.written C commit sidecars = db' := by
  simp only [writeCommit, Outcome.bind_eq_ok, Outcome.exists_unit, Outcome.pure_eq_ok,
    insertEvent_eq_ok, insertEffectIntentIndex_eq_ok, insertAuthorizationConsumption_eq_ok,
    insertPlannedInvocations_eq_ok, insertInvocationMaterial_eq_ok,
    insertToolOutput_eq_ok hnames.output, insertCompletionOutput_eq_ok,
    insertExecutionReceipt_eq_ok hnames.receipt, Engine.checkpoint_eq_ok, Engine.commit_eq_ok]
  constructor
  · rintro ⟨_, ⟨hevent, rfl⟩, hc₁, _, ⟨hintent, rfl⟩, hc₂, _, ⟨hauthorization, rfl⟩, hc₃, _,
      ⟨hplan, rfl⟩, hc₄, _, ⟨hmaterial, rfl⟩, hc₅, _, ⟨houtput, rfl⟩, hc₆, _,
      ⟨hcompletion, rfl⟩, hc₇, _, ⟨hreceipt, rfl⟩, hc₈, _, hprojection, hc₉, hcommits, rfl⟩
    obtain ⟨hstate, rfl⟩ := (writeProjection_eq_ok (by exact hbefore)).mp hprojection
    refine ⟨⟨⟨fun stage => ?_, hcommits⟩, ?_⟩, rfl⟩
    · cases stage <;> assumption
    · exact
        { sequence := hevent.1
          event := hevent.2.1
          eventRow := hevent.2.2
          intent := fun anchor hanchor => (hintent anchor hanchor).2.1
          intentRow := fun anchor hanchor => (hintent anchor hanchor).2.2
          authorizationRow := hauthorization
          planInputs := hplan.2
          material := hmaterial
          output := fun output houtput' => (houtput output houtput').2
          completionOutput := fun output houtput' => (hcompletion output houtput').2
          receipt := fun receipt hreceipt' => (hreceipt receipt hreceipt').2
          state := hstate }
  · rintro ⟨⟨hcompletes, h⟩, rfl⟩
    have hc := hcompletes.checkpoints
    refine ⟨_, ⟨⟨h.sequence, h.event, h.eventRow⟩, rfl⟩, hc _, _, ⟨fun anchor hanchor => ?_, rfl⟩, hc _,
      _, ⟨h.authorizationRow, rfl⟩, hc _, _, ⟨⟨fun _ _ => h.sequence, h.planInputs⟩, rfl⟩, hc _, _,
      ⟨h.material, rfl⟩, hc _, _, ⟨fun output houtput => ⟨h.sequence, h.output output houtput⟩, rfl⟩,
      hc _, _, ⟨fun output houtput => ⟨h.sequence, h.completionOutput output houtput⟩, rfl⟩, hc _, _,
      ⟨fun receipt hreceipt => ⟨h.sequence, h.receipt receipt hreceipt⟩, rfl⟩, hc _, _,
      (writeProjection_eq_ok (by exact hbefore)).mpr ⟨h.state, rfl⟩, hc _,
      hcompletes.commits, rfl⟩
    have hsequence := (EventRecord.committed_eq_some.mp hanchor).2
    exact ⟨hsequence ▸ h.sequence, h.intent anchor hanchor, h.intentRow anchor hanchor⟩

end Xgeny
