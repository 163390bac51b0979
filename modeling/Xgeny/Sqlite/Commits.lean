import Xgeny.Sqlite.Rebuild
import Xgeny.Sqlite.Writes
import Xgeny.Store.Atomicity

set_option autoImplicit false

/-!
# Commits keep the mirror

The rows that an accepted commit writes are the rows of the data after it: a database that mirrors
the data before mirrors the data after, and its rows reference rows that are there.

* `Database.written_foreignKeys`: the references of the rows;
* `Mirrors.written_records`, …, `Mirrors.written_storable`: table by table;
* **`Mirrors.written`**: the commit.
-/

namespace Xgeny

open Table VerifiedRunIndex

variable {C : StoreCodecs} {D : Digests} {P : Protocol} {db : Database} {commit : Commit}
  {sidecars : CommitSidecars} {anchors : CommitAnchors}

/-! ## References -/

theorem Database.foreignKeysHold_iff {db : Database} : db.foreignKeysHold = true ↔
    (∀ row ∈ db.effectIntents, row.eventSequence ∈ db.eventSequences) ∧
    (∀ row ∈ db.authorizationConsumption, row.effectId ∈ db.effectIds) ∧
    (∀ row ∈ db.invocationMaterials, row.effectId ∈ db.effectIds) ∧
    (∀ row ∈ db.toolOutputs, row.eventSequence ∈ db.eventSequences ∧ row.effectId ∈ db.effectIds) ∧
    (∀ row ∈ db.plannedInvocations, row.eventSequence ∈ db.eventSequences) ∧
    (∀ row ∈ db.executionReceipts, (row.eventSequence ∈ db.eventSequences ∧
      row.effectId ∈ db.effectIds) ∧ ∀ digest, row.previousReceiptDigest = some digest →
        digest ∈ db.executionReceipts.map ExecutionReceiptRow.receiptDigest) ∧
    ∀ row ∈ db.completionOutputs, row.eventSequence ∈ db.eventSequences := by
  simp only [Database.foreignKeysHold, Bool.and_eq_true, List.all_eq_true, decide_eq_true_eq,
    Option.all_eq_true, and_assoc]

theorem forall_mem_append_map {ρ π : Type} {p q : ρ → Prop} {rows : List ρ} {row : π → ρ}
    {xs : List π} (hold : ∀ r ∈ rows, p r) (hkeep : ∀ r, p r → q r) (hnew : ∀ x ∈ xs, q (row x)) :
    ∀ r ∈ rows ++ xs.map row, q r := by
  intro r hr
  rcases List.mem_append.mp hr with hr | hr
  · exact hkeep r (hold r hr)
  · obtain ⟨x, hx, rfl⟩ := List.mem_map.mp hr
    exact hnew x hx

theorem mem_map_append {ρ κ : Type} {key : ρ → κ} {rows new : List ρ} {k : κ}
    (h : k ∈ rows.map key) : k ∈ (rows ++ new).map key := by
  rw [List.map_append]
  exact List.mem_append_left _ h

/-- **The rows of a commit reference rows that are there.** -/
theorem Database.written_foreignKeys (h : db.foreignKeysHold = true)
    (hw : Writable C db commit sidecars) : (db.written C commit sidecars).foreignKeysHold = true := by
  obtain ⟨hintents, hauthorizations, hmaterials, houtputs, hplanned, hreceipts, hcompletions⟩ :=
    Database.foreignKeysHold_iff.mp h
  have hsequences : ∀ i ∈ db.eventSequences, i ∈ (db.written C commit sidecars).eventSequences :=
    fun _ hi => mem_map_append hi
  have heffects : ∀ id ∈ db.effectIds, id ∈ (db.written C commit sidecars).effectIds :=
    fun _ hid => mem_map_append hid
  have hdigests : ∀ digest ∈ db.executionReceipts.map ExecutionReceiptRow.receiptDigest,
      digest ∈ (db.written C commit sidecars).executionReceipts.map
        ExecutionReceiptRow.receiptDigest := fun _ hdigest => mem_map_append hdigest
  refine Database.foreignKeysHold_iff.mpr ⟨?_, ?_, ?_, ?_, ?_, ?_, ?_⟩
  · refine forall_mem_append_map hintents (fun _ hr => hsequences _ hr) fun anchor hanchor => ?_
    have hadmits := hw.intentRow anchor (Option.mem_toList.mp hanchor)
    simp only [effectIntentConstraints, admits_cons, foreignKey_violated] at hadmits
    exact hadmits.2.2.1
  · refine forall_mem_append_map hauthorizations (fun _ hr => heffects _ hr) fun anchor hanchor => ?_
    have hadmits := hw.authorizationRow anchor (Option.mem_toList.mp hanchor)
    simp only [authorizationConstraints, admits_cons, foreignKey_violated] at hadmits
    exact hadmits.2.2.2.1
  · refine forall_mem_append_map hmaterials (fun _ hr => heffects _ hr) fun material hmaterial => ?_
    have hadmits := (hw.material material (Option.mem_toList.mp hmaterial)).2
    simp only [invocationMaterialConstraints, admits_cons, foreignKey_violated] at hadmits
    exact hadmits.2.2.2.1
  · refine forall_mem_append_map houtputs (fun _ hr => ⟨hsequences _ hr.1, heffects _ hr.2⟩)
      fun output houtput => ?_
    have hadmits := (hw.output output (Option.mem_toList.mp houtput)).2.2
    simp only [toolOutputConstraints, admits_cons, foreignKey_violated] at hadmits
    exact ⟨hadmits.2.2.2.2.2.2.2.1, hadmits.2.2.2.2.2.2.2.2.1⟩
  · refine forall_mem_append_map hplanned (fun _ hr => hsequences _ hr) fun input hinput => ?_
    obtain ⟨before, after, hinputs⟩ := List.append_of_mem hinput
    have hadmits := (hw.planInputs before input after hinputs).2
    simp only [plannedInvocationConstraints, admits_cons, foreignKey_violated] at hadmits
    exact hadmits.2.2.2.2.1
  · refine forall_mem_append_map hreceipts (fun _ hr => ⟨⟨hsequences _ hr.1.1, heffects _ hr.1.2⟩,
      fun digest hdigest => hdigests _ (hr.2 digest hdigest)⟩) fun receipt hreceipt => ?_
    have hsome := Option.mem_toList.mp hreceipt
    have hadmits := (hw.receipt receipt hsome).2
    simp only [executionReceiptConstraints, admits_cons, foreignKey_violated,
      references_violated] at hadmits
    refine ⟨⟨hadmits.2.2.2.2.2.1, hadmits.2.2.2.2.2.2.1⟩, fun digest hdigest => ?_⟩
    have hchain := hadmits.2.2.2.2.2.2.2.1 digest hdigest
    rw [Database.written, hsome]
    exact hchain
  · refine forall_mem_append_map hcompletions (fun _ hr => hsequences _ hr) fun output houtput => ?_
    have hadmits := (hw.completionOutput output (Option.mem_toList.mp houtput)).2.2
    simp only [completionOutputConstraints, admits_cons, foreignKey_violated] at hadmits
    exact hadmits.2.2.2.2.2.2.2.2.2.2.1

/-! ## Committed rows -/

section

variable {store store' : MemoryRunStore}

theorem Committed.step (h : Committed D P store sidecars anchors commit store') :
    CommitStep D P store.toRunData store.index commit store'.toRunData store'.index := by
  obtain ⟨index', hindex', hstep⟩ := h.accepted.step store.toRunData
  obtain rfl : store'.index = index' := Except.ok.inj (h.index.symm.trans hindex')
  rw [h.data]
  exact hstep

theorem PlanCoherent.mem_planned {data : RunData} {index : VerifiedRunIndex}
    (h : PlanCoherent D data index) {id : String} (hid : id ∈ data.planInputs) :
    id ∈ index.plannedInvocations := by
  refine BTreeMap.mem_of_size_eq (fun other hother => ?_) h.size hid
  obtain ⟨anchor, hanchor⟩ := BTreeMap.mem_iff_exists.mp hother
  obtain ⟨input, _, hinput, _⟩ := h.verified other anchor hanchor
  exact BTreeMap.mem_iff_exists.mpr ⟨input, hinput⟩

theorem Committed.plannedAt (h : Committed D P store sidecars anchors commit store')
    (hcoherent : Coherent D P store.toRunData store.index) :
    (∀ id, id ∈ store.planInputs → store'.index.plannedAt id = store.index.plannedAt id) ∧
      ∀ input ∈ sidecars.planInputs.getD [],
        store'.index.plannedAt input.stepId = commit.record.sequence := by
  have hinputs := (h.adds_planInputs hcoherent).2
  have hstep := h.step
  generalize hdata : store'.toRunData = data' at hstep
  generalize hindex : store'.index = index' at hstep ⊢
  cases hstep with
  | planAccepted hbody =>
    rename_i decision steps inputs byStep _ _ _ _
    obtain ⟨hnodup, hfresh⟩ := hcoherent.journal.plan_fresh h.accepted.prepared hbody
    refine ⟨fun id hid => ?_, fun input hinput => ?_⟩
    · have hne : ∀ entry ∈ steps.zipIdx, entry.1.stepId ≠ id := by
        rintro entry hentry rfl
        exact hfresh entry hentry
          (hcoherent.journal.invocations _ (hcoherent.plan.mem_planned hid))
      simp only [VerifiedRunIndex.plannedAt, insertInvocations, BTreeMap.get_insertAll_of_ne hne]
    · have hid := hinputs.mem_iff.mp (List.mem_map_of_mem hinput)
      rw [hbody] at hid
      obtain ⟨entry, hentry, hname⟩ := exists_zipIdx_iff.mpr (List.mem_map.mp hid)
      simp only [VerifiedRunIndex.plannedAt, insertInvocations, ← hname]
      rw [BTreeMap.get_insertAll_of_mem hnodup hentry]
      rfl
  | plain hbody | stepPlanned hbody | intentCommitted hbody | executionStarted hbody
  | toolOutput hbody | completionOutput hbody | receipt hbody =>
    refine ⟨fun _ _ => rfl, fun input hinput => ?_⟩
    have hid := hinputs.mem_iff.mp (List.mem_map_of_mem hinput)
    revert hid
    unfold RunEventBody.requires
    split <;> simp_all [RunEventBody.plain]

variable (hm : Mirrors C store.toRunData store.index db)
  (h : Committed D P store sidecars anchors commit store')
  (hcoherent : Coherent D P store.toRunData store.index)

include hm h hcoherent

theorem Mirrors.written_intents :
    Stores EffectIntentRow.effectId (fun _ anchor => intentRow C anchor) store'.index.intents
      (db.written C commit sidecars).effectIntents := by
  rcases h.step.intents_cases with ⟨hbody, hsame⟩ | ⟨stepId, intent, hbody, hnew⟩
  · simp only [hsame, Database.written, EventRecord.committed_eq_none hbody, Option.toList_none,
      List.map_nil, List.append_nil]
    exact hm.intents
  · have hcommitted : commit.record.committed = some ⟨commit.record.sequence, stepId, intent⟩ :=
      EventRecord.committed_eq_some.mpr ⟨hbody, rfl⟩
    rw [hnew, Database.written, hcommitted]
    exact hm.intents.insert (hcoherent.journal.intent_fresh h.accepted.prepared hbody) rfl

theorem Mirrors.written_authorizations :
    Stores AuthorizationConsumptionRow.effectId (fun _ anchor => authorizationRow anchor.intent)
      store'.index.intents (db.written C commit sidecars).authorizationConsumption := by
  rcases h.step.intents_cases with ⟨hbody, hsame⟩ | ⟨stepId, intent, hbody, hnew⟩
  · simp only [hsame, Database.written, EventRecord.committed_eq_none hbody, Option.toList_none,
      List.map_nil, List.append_nil]
    exact hm.authorizations
  · have hcommitted : commit.record.committed = some ⟨commit.record.sequence, stepId, intent⟩ :=
      EventRecord.committed_eq_some.mpr ⟨hbody, rfl⟩
    rw [hnew, Database.written, hcommitted]
    exact hm.authorizations.insert (hcoherent.journal.intent_fresh h.accepted.prepared hbody) rfl

theorem Mirrors.written_planInputs :
    Stores PlannedInvocationRow.stepId (fun id => plannedRow C (store'.index.plannedAt id))
      store'.planInputs (db.written C commit sidecars).plannedInvocations := by
  obtain ⟨hold, hnew⟩ := h.plannedAt hcoherent
  have hkept : Stores PlannedInvocationRow.stepId
      (fun id => plannedRow C (store'.index.plannedAt id)) store.planInputs
      db.plannedInvocations := hm.planInputs.congr fun id input hinput => by
    rw [hold id (BTreeMap.mem_iff_exists.mpr ⟨input, hinput⟩)]
  have hadds := hkept.adds (h.adds_planInputs hcoherent).1 ?_
  · have hrows : (((sidecars.planInputs.getD []).map fun input => (input.stepId, input)).map
        fun entry => plannedRow C (store'.index.plannedAt entry.1) entry.2) =
        (sidecars.planInputs.getD []).map (plannedRow C commit.record.sequence) := by
      rw [List.map_map]
      exact List.map_congr_left fun input hinput => by rw [Function.comp_apply, hnew input hinput]
    rwa [hrows] at hadds
  · intro entry hentry
    obtain ⟨input, _, rfl⟩ := List.mem_map.mp hentry
    rfl

theorem Mirrors.written_materials :
    Stores InvocationMaterialRow.effectId (fun _ => materialRow C) store'.materials
      (db.written C commit sidecars).invocationMaterials := by
  have hadds := hm.materials.adds (h.adds_material hcoherent).1 ?_
  · rwa [List.map_map] at hadds
  · intro entry hentry
    obtain ⟨material, _, rfl⟩ := List.mem_map.mp hentry
    rfl

theorem Mirrors.written_outputs :
    Stores ToolOutputRow.effectId (fun _ => outputRow C) store'.outputs
      (db.written C commit sidecars).toolOutputs := by
  have hadds := hm.outputs.adds (h.adds_output hcoherent).1 ?_
  · rwa [List.map_map] at hadds
  · intro entry hentry
    obtain ⟨output, _, rfl⟩ := List.mem_map.mp hentry
    rfl

theorem Mirrors.written_storable (hw : Writable C db commit sidecars) (hreturns : C.RoundTrip)
    (houtput : ∀ output, sidecars.output = some output → C.toolOutput.Returns output) :
    Storable C store'.toRunData store'.index where
  records := by
    rw [h.step.common.1]
    intro record hrecord
    rcases List.mem_append.mp hrecord with hrecord | hrecord
    · exact hm.storable.records record hrecord
    · rw [List.mem_singleton.mp hrecord]
      exact ⟨hw.sequence, (hreturns.runEvent _).reads hw.event⟩
  projection := by
    rw [h.step.common.2.1]
    intro state hstate
    rw [← Option.some.inj hstate]
    exact (hreturns.runState _).reads hw.state
  intents := by
    intro id anchor hanchor
    rcases h.step.intents_cases with ⟨_, hsame⟩ | ⟨stepId, intent, hbody, hnew⟩
    · rw [hsame] at hanchor
      exact hm.storable.intents id anchor hanchor
    · have hcommitted : commit.record.committed = some ⟨commit.record.sequence, stepId, intent⟩ :=
        EventRecord.committed_eq_some.mpr ⟨hbody, rfl⟩
      rw [hnew, BTreeMap.get_insert] at hanchor
      split at hanchor
      · obtain rfl := Option.some.inj hanchor
        exact ⟨hw.sequence, (hreturns.effectIntent _).reads (hw.intent _ hcommitted)⟩
      · exact hm.storable.intents id anchor hanchor
  planInputs := by
    obtain ⟨hold, hnew⟩ := h.plannedAt hcoherent
    intro id input hinput
    rcases ((h.adds_planInputs hcoherent).1.lookup id input).mp hinput with hinput | hinput
    · rw [hold id (BTreeMap.mem_iff_exists.mpr ⟨input, hinput⟩)]
      exact hm.storable.planInputs id input hinput
    · obtain ⟨input, hmem, heq⟩ := List.mem_map.mp hinput
      obtain ⟨rfl, rfl⟩ := Prod.mk.inj heq
      obtain ⟨before, after, hinputs⟩ := List.append_of_mem hmem
      rw [hnew input hmem]
      exact ⟨hw.sequence, (hreturns.plannedInvocation _).reads
        (hw.planInputs before input after hinputs).1⟩
  materials := by
    intro id material hmaterial
    rcases ((h.adds_material hcoherent).1.lookup id material).mp hmaterial with hold | hnew
    · exact hm.storable.materials id material hold
    · obtain ⟨material, hmem, heq⟩ := List.mem_map.mp hnew
      obtain ⟨rfl, rfl⟩ := Prod.mk.inj heq
      exact (hreturns.invocationMaterial _).reads (hw.material _ (Option.mem_toList.mp hmem)).1
  outputs := by
    intro id stored hstored
    rcases ((h.adds_output hcoherent).1.lookup id stored).mp hstored with hold | hnew
    · exact hm.storable.outputs id stored hold
    · obtain ⟨output, hmem, heq⟩ := List.mem_map.mp hnew
      obtain ⟨rfl, rfl⟩ := Prod.mk.inj heq
      obtain ⟨hsize, hencodes, hadmits⟩ := hw.output output (Option.mem_toList.mp hmem)
      simp only [Database.toolOutputConstraints, admits_cons, checkRow_violated,
        decide_eq_true_eq] at hadmits
      exact ⟨hw.sequence, hsize, hadmits.2.2.1,
        (houtput output (Option.mem_toList.mp hmem)).reads hencodes⟩
  receipts := by
    rw [h.adds_receipt.1]
    intro stored hstored
    rcases List.mem_append.mp hstored with hstored | hstored
    · exact hm.storable.receipts stored hstored
    · obtain ⟨receipt, hmem, rfl⟩ := List.mem_map.mp hstored
      exact ⟨hw.sequence, (hreturns.executionReceipt _).reads
        (hw.receipt receipt (Option.mem_toList.mp hmem)).1⟩
  completion := by
    intro stored hstored
    have hlisted := Option.mem_toList.mpr hstored
    rw [(h.adds_completion hcoherent).1] at hlisted
    rcases List.mem_append.mp hlisted with hold | hnew
    · exact hm.storable.completion stored (Option.mem_toList.mp hold)
    · obtain ⟨output, hmem, rfl⟩ := List.mem_map.mp hnew
      obtain ⟨hsize, hencodes, hadmits⟩ := hw.completionOutput output (Option.mem_toList.mp hmem)
      simp only [Database.completionOutputConstraints, admits_cons, checkRow_violated,
        decide_eq_true_eq] at hadmits
      exact ⟨hw.sequence, hsize, hadmits.2.2.2.2.1, (hreturns.completionOutput _).reads hencodes⟩

/-- **A commit keeps the mirror.** -/
theorem Mirrors.written (hw : Writable C db commit sidecars) (hreturns : C.RoundTrip)
    (houtput : ∀ output, sidecars.output = some output → C.toolOutput.Returns output) :
    Mirrors C store'.toRunData store'.index (db.written C commit sidecars) where
  events := by
    rw [h.step.common.1, Database.written, hm.events, List.map_append]
    rfl
  projection := by
    rw [h.step.common.2.1]
    rfl
  intents := hm.written_intents h hcoherent
  authorizations := hm.written_authorizations h hcoherent
  planInputs := hm.written_planInputs h hcoherent
  materials := hm.written_materials h hcoherent
  outputs := hm.written_outputs h hcoherent
  receipts := by
    rw [h.adds_receipt.1, Database.written, hm.receipts, List.map_append, List.map_map]
    rfl
  completion := by
    rw [(h.adds_completion hcoherent).1, Database.written, hm.completion, List.map_append,
      List.map_map]
    rfl
  foreignKeys := Database.written_foreignKeys hm.foreignKeys hw
  storable := hm.written_storable h hcoherent hw hreturns houtput

end

end Xgeny
