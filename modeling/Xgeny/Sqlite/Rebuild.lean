import Xgeny.Snapshots.Points
import Xgeny.Sqlite.Mirror

set_option autoImplicit false

/-!
# The audit rebuilds the index

A database that mirrors a coherent store passes the audit, which returns the snapshot and the receipts
of that store and rebuilds its index. Every query returns the data that the rows were written for, in
the order in which the checks of the memory store visit them.

* `Mirrors.loadRecords`, …, `Mirrors.loadCompletionOutputRow`: what each query returns;
* `Mirrors.validateEffectIntentIndex`, `Mirrors.validateAuthorizationIndex`: the indexes agree;
* `Mirrors.verifySqliteToolOutputs`: the pass in lockstep is the pass by effect;
* **`Mirrors.loadVerifiedStoreData`**: the audit.
-/

namespace Xgeny

open Table VerifiedRunIndex

variable {C : StoreCodecs} {D : Digests} {P : Protocol} {data : RunData} {index : VerifiedRunIndex}
  {db : Database}

/-! ## The journal -/

theorem JournalCoherent.increasing (h : JournalCoherent D data index) :
    data.records.Pairwise fun a b => a.sequence < b.sequence := by
  have hreplayed := h.replayed
  cases hstate : index.state with
  | none =>
    rw [hstate] at hreplayed
    rw [EventLog.run_eq_none hreplayed]
    exact .nil
  | some state =>
    rw [hstate] at hreplayed
    have hjournal := replay_journal (replay_eq_ok.mpr hreplayed)
    refine List.pairwise_iff_getElem.mpr fun i j hi hj hij => ?_
    have hfirst := hjournal.position i _ (List.getElem?_eq_getElem hi)
    have hsecond := hjournal.position j _ (List.getElem?_eq_getElem hj)
    rw [UInt64.lt_iff_toNat_lt, hfirst, hsecond]
    omega

theorem Mirrors.orderBy_events (h : Mirrors C data index db) (hj : JournalCoherent D data index) :
    orderBy RunEventRow.sequence db.runEvents = data.records.map (eventRow C) := by
  refine orderBy_eq (List.Perm.of_eq h.events) (List.pairwise_map.mpr ?_)
  refine hj.increasing.imp_of_mem fun _ hb hab => ?_
  exact I64.ofU64_lt hab (h.storable.records _ hb).1

/-- **The journal is read back.** -/
theorem Mirrors.loadRecords (h : Mirrors C data index db) (hj : JournalCoherent D data index) :
    Xgeny.loadRecords C db = .ok data.records := by
  rw [Xgeny.loadRecords, h.orderBy_events hj]
  refine mapM_map_eq_ok fun record hrecord => ?_
  obtain ⟨hsequence, hreads⟩ := h.storable.records record hrecord
  simp only [decodeEventRow, Outcome.bind_eq_ok, Outcome.exists_unit, Outcome.failIf_eq_ok,
    Outcome.pure_eq_ok]
  exact ⟨_, u64TryFrom_ofU64 hsequence, _, hreads.decode, by simp [eventRow], rfl⟩

theorem Mirrors.loadProjection (h : Mirrors C data index db) :
    Xgeny.loadProjection C db = .ok data.projection := by
  rw [Xgeny.loadProjection, h.projection]
  cases hstate : data.projection with
  | none => rfl
  | some state =>
    have hreads := (h.storable.projection state hstate).decode
    have hrow : selectWhere (fun row : RunProjectionRow => row.singleton.val) 1
        ((some state).toList.map (projectionRow C)) = some (projectionRow C state) := rfl
    simp only [hrow, Outcome.bind_eq_ok, Outcome.pure_eq_ok]
    exact ⟨_, hreads, rfl⟩

theorem Mirrors.loadDurableHead (h : Mirrors C data index db) (hj : JournalCoherent D data index) :
    Xgeny.loadDurableHead db = .ok index.head := by
  rw [Xgeny.loadDurableHead, h.orderBy_events hj, List.getLast?_map, VerifiedRunIndex.head, hj.last]
  cases hlast : data.records.getLast? with
  | none => rfl
  | some record =>
    have hsequence := (h.storable.records record (List.mem_of_getLast? hlast)).1
    simp only [Option.map_some, Outcome.bind_eq_ok, Outcome.pure_eq_ok]
    exact ⟨_, u64TryFrom_ofU64 hsequence, rfl⟩

/-! ## The indexes of the intents -/

theorem expectedIntents_eq : expectedIntents index =
    (orderBy (fun entry : String × EffectIntentAnchor =>
      toLex (entry.2.eventSequence.toNat, entry.2.intent.effectId)) index.intents.toList).map
        Prod.snd :=
  orderBy_map Prod.snd _

theorem Mirrors.orderBy_intents (h : Mirrors C data index db) :
    orderBy (fun row : EffectIntentRow => toLex (row.eventSequence, row.effectId))
      db.effectIntents = (expectedIntents index).map (intentRow C) := by
  have hrows := h.intents.orderBy_other (fun row => toLex (row.eventSequence, row.effectId)) ?_
  · rw [hrows, expectedIntents_eq, List.map_map]
    refine congrArg (List.map _) (orderBy_key fun a ha b hb => ?_)
    have hseq : ∀ entry ∈ index.intents.toList, entry.2.eventSequence.toNat < 2 ^ 63 :=
      fun entry hentry => (h.storable.intents _ _
        (Std.ExtTreeMap.mem_toList_iff_getElem?_eq_some.mp hentry)).1
    simp only [Prod.Lex.toLex_le_toLex, intentRow, ← Subtype.coe_lt_coe, ← Subtype.coe_inj,
      I64.ofU64_val (hseq a ha), I64.ofU64_val (hseq b hb), Nat.cast_lt, Nat.cast_inj]
  · intro a _ b _ hab
    exact (Prod.ext_iff.mp (toLex.injective hab)).2

theorem Mirrors.validateEffectIntentIndex (h : Mirrors C data index db) {audited : VerifiedRunIndex}
    (hintents : audited.intents = index.intents) :
    Xgeny.validateEffectIntentIndex C db audited = .ok () := by
  have hexpected : expectedIntents audited = expectedIntents index := by
    rw [expectedIntents, expectedIntents, hintents]
  simp only [Xgeny.validateEffectIntentIndex, h.orderBy_intents, hexpected, List.length_map,
    Outcome.bind_eq_ok, Outcome.exists_unit, Outcome.failIf_eq_ok, Outcome.forEach_eq_ok, ne_eq,
    not_true_eq_false, not_false_eq_true, true_and, forall_zip_map]
  intro anchor hin
  obtain ⟨id, hid⟩ := BTreeMap.mem_vals_iff.mp ((orderBy_perm _ _).mem_iff.mp hin)
  obtain ⟨hsequence, hreads⟩ := h.storable.intents id _ hid
  simp only [validateEffectIntentRow, Outcome.bind_eq_ok, Outcome.failIf_eq_ok]
  exact ⟨_, u64TryFrom_ofU64 hsequence, _, hreads.decode, by simp [intentRow]⟩

theorem Mirrors.validateAuthorizationIndex (h : Mirrors C data index db)
    {audited : VerifiedRunIndex} (hintents : audited.intents = index.intents) :
    Xgeny.validateAuthorizationIndex db audited = .ok () := by
  have hexpected : expectedIntents audited = expectedIntents index := by
    rw [expectedIntents, expectedIntents, hintents]
  -- both sides list the intents by effect and grant
  have hrows : orderBy (fun row : AuthorizationConsumptionRow => toLex (row.effectId, row.grantId))
      db.authorizationConsumption = (orderBy (fun intent : EffectIntent =>
        toLex (intent.effectId, intent.authorization.grantId))
          ((expectedIntents index).map EffectIntentAnchor.intent)).map authorizationRow := by
    have hperm : db.authorizationConsumption.Perm
        (((expectedIntents index).map EffectIntentAnchor.intent).map authorizationRow) := by
      refine h.authorizations.perm.trans ?_
      rw [expectedIntents_eq, List.map_map, List.map_map]
      exact ((orderBy_perm _ _).map _).symm
    refine (orderBy_congr hperm ?_).trans (orderBy_map authorizationRow _)
    refine (hperm.map _).nodup_iff.mp (List.Nodup.of_map (fun k => (ofLex k).1) ?_)
    rw [List.map_map]
    exact h.authorizations.nodup
  simp only [Xgeny.validateAuthorizationIndex, hrows, hexpected, List.length_map,
    Outcome.bind_eq_ok, Outcome.exists_unit, Outcome.failIf_eq_ok, Outcome.forEach_eq_ok, ne_eq,
    not_true_eq_false, not_false_eq_true, true_and, forall_zip_map]
  intro intent _
  simp only [validateAuthorizationRow, Outcome.bind_eq_ok, Outcome.failIf_eq_ok]
  exact ⟨_, u32TryFrom_fromU32 _, by simp [authorizationRow]⟩

/-! ## Planned inputs and materials -/

theorem Mirrors.loadPlannedInvocations (h : Mirrors C data index db)
    (hkeys : ∀ id, id ∈ data.planInputs → id ∈ index.plannedInvocations)
    {audited : VerifiedRunIndex}
    (hplanned : audited.plannedInvocations = index.plannedInvocations) :
    Xgeny.loadPlannedInvocations C db audited = .ok data.planInputs := by
  rw [Xgeny.loadPlannedInvocations,
    h.planInputs.orderBy PlannedInvocationRow.stepId fun _ _ => compare_lt_iff_lt.mp]
  refine foldl_insert_rows (fun id => plannedRow C (index.plannedAt id))
    fun id input acc hid hnew => ?_
  obtain ⟨hsequence, hreads⟩ := h.storable.planInputs id input hid
  obtain rfl : input.stepId = id := h.planInputs.keyed id input hid
  obtain ⟨anchor, hanchor⟩ := BTreeMap.mem_iff_exists.mp
    (hkeys _ (BTreeMap.mem_iff_exists.mpr ⟨input, hid⟩))
  have hat : index.plannedAt input.stepId = anchor.eventSequence := by
    rw [VerifiedRunIndex.plannedAt, hanchor]
    rfl
  simp only [loadPlannedInvocationRow, Outcome.bind_eq_ok, Outcome.exists_unit,
    Outcome.okOr_eq_ok, Outcome.failIf_eq_ok, BTreeMap.insertNew_eq_ok]
  refine ⟨_, u64TryFrom_ofU64 hsequence, _, hreads.decode, anchor, ?_, ?_, hnew, rfl⟩
  · rw [hplanned]
    exact hanchor
  · simp [plannedRow, hat]

theorem Mirrors.loadInvocationMaterials (h : Mirrors C data index db) :
    Xgeny.loadInvocationMaterials C db = .ok data.materials := by
  rw [Xgeny.loadInvocationMaterials,
    h.materials.orderBy InvocationMaterialRow.effectId fun _ _ => compare_lt_iff_lt.mp]
  refine foldl_insert_rows (fun _ => materialRow C) fun id material acc hid hnew => ?_
  have hreads := h.storable.materials id material hid
  obtain rfl : material.effectId = id := h.materials.keyed id material hid
  simp only [loadInvocationMaterialRow, decodeInvocationMaterial, Outcome.bind_eq_ok,
    Outcome.exists_unit, Outcome.failIf_eq_ok, Outcome.pure_eq_ok, BTreeMap.insertNew_eq_ok]
  exact ⟨_, ⟨_, hreads.decode, by simp [materialRow], rfl⟩, hnew, rfl⟩

/-- **One planned input is read back.** -/
theorem Mirrors.loadPlannedInvocation (h : Mirrors C data index db) (stepId : String) :
    Xgeny.loadPlannedInvocation C db stepId = .ok data.planInputs[stepId]? := by
  rw [Xgeny.loadPlannedInvocation, h.planInputs.select]
  cases hinput : data.planInputs[stepId]? with
  | none => rfl
  | some input =>
    have hreads := (h.storable.planInputs stepId input hinput).2
    obtain rfl : input.stepId = stepId := h.planInputs.keyed stepId input hinput
    simp only [Option.map_some, decodePlannedInvocation, Outcome.bind_eq_ok, Outcome.exists_unit,
      Outcome.failIf_eq_ok, Outcome.pure_eq_ok]
    exact ⟨_, ⟨_, hreads.decode, by simp [plannedRow], rfl⟩, rfl⟩

/-- **One material is read back.** -/
theorem Mirrors.loadInvocationMaterial (h : Mirrors C data index db) (effectId : String) :
    Xgeny.loadInvocationMaterial C db effectId = .ok data.materials[effectId]? := by
  rw [Xgeny.loadInvocationMaterial, h.materials.select]
  cases hmaterial : data.materials[effectId]? with
  | none => rfl
  | some material =>
    have hreads := h.storable.materials effectId material hmaterial
    obtain rfl : material.effectId = effectId := h.materials.keyed effectId material hmaterial
    simp only [Option.map_some, decodeInvocationMaterial, Outcome.bind_eq_ok, Outcome.exists_unit,
      Outcome.failIf_eq_ok, Outcome.pure_eq_ok]
    exact ⟨_, ⟨_, hreads.decode, by simp [materialRow], rfl⟩, rfl⟩

/-! ## Tool outputs -/

theorem StorableOutput.decode {stored : StoredToolOutput} (h : StorableOutput C stored) :
    decodeToolOutputRow C stored.record.effectId (outputRow C stored) = .ok stored := by
  have hrecord : decodeToolOutputRecord C (C.toolOutput.bytes stored.record) = .ok stored.record := by
    rw [decodeToolOutputRecord, h.reads]
  simp only [decodeToolOutputRow, Outcome.bind_eq_ok, Outcome.exists_unit, Outcome.failIf_eq_ok,
    Outcome.pure_eq_ok, Decidable.not_not]
  exact ⟨_, u64TryFrom_ofU64 h.sequence, _, u64TryFrom_ofU64 h.size, h.length, _, hrecord,
    by simp [outputRow], rfl⟩

/-- **One tool output is read back.** -/
theorem Mirrors.loadToolOutput (h : Mirrors C data index db) (effectId : String) :
    Xgeny.loadToolOutput C db effectId = .ok data.outputs[effectId]? := by
  rw [Xgeny.loadToolOutput, h.outputs.select]
  cases hstored : data.outputs[effectId]? with
  | none => rfl
  | some stored =>
    obtain rfl : stored.record.effectId = effectId := h.outputs.keyed effectId stored hstored
    simp only [Option.map_some, Outcome.bind_eq_ok, Outcome.pure_eq_ok]
    exact ⟨stored, (h.storable.outputs _ stored hstored).decode, rfl⟩

/-- The tool outputs in the order of their events. -/
def RunData.sortedOutputs (data : RunData) (index : VerifiedRunIndex) : List StoredToolOutput :=
  index.sortedToolOutputEvents.filterMap fun anchor => data.outputs[anchor.effectId]?

theorem OutputCoherent.sortedOutputs (h : OutputCoherent D data index) :
    List.Forall₂ (fun (anchor : ToolOutputEventAnchor) stored =>
      data.outputs[anchor.effectId]? = some stored ∧
        verifyStoredToolOutput D index anchor stored = .ok ())
      index.sortedToolOutputEvents (data.sortedOutputs index) := by
  have hall := h.checked
  rw [RunData.sortedOutputs]
  generalize index.sortedToolOutputEvents = anchors at hall
  induction anchors with
  | nil => exact .nil
  | cons anchor anchors ih =>
    obtain ⟨⟨stored, hstored, hverified⟩, hrest⟩ := List.forall_mem_cons.mp hall
    rw [List.filterMap_cons, hstored]
    exact .cons ⟨hstored, hverified⟩ (ih hrest)

theorem verifyStoredToolOutput_names {anchor : ToolOutputEventAnchor} {stored : StoredToolOutput}
    (h : verifyStoredToolOutput D index anchor stored = .ok ()) :
    stored.eventSequence = anchor.eventSequence ∧ stored.record.effectId = anchor.effectId := by
  simp only [verifyStoredToolOutput, Outcome.bind_eq_ok, Outcome.exists_unit, Outcome.failIf_eq_ok,
    not_or, ne_eq, Decidable.not_not] at h
  exact ⟨h.1.1, h.1.2.1⟩

theorem OutputCoherent.pairwise_sorted (h : OutputCoherent D data index) :
    index.sortedToolOutputEvents.Pairwise fun a b => a.eventSequence < b.eventSequence := by
  have hle : index.sortedToolOutputEvents.Pairwise fun a b => a.eventSequence ≤ b.eventSequence := by
    have htotal : Std.Total fun a b : ToolOutputEventAnchor =>
        a.eventSequence ≤ b.eventSequence := ⟨fun _ _ => UInt64.le_total _ _⟩
    have htrans : IsTrans ToolOutputEventAnchor fun a b => a.eventSequence ≤ b.eventSequence :=
      ⟨fun _ _ _ => UInt64.le_trans⟩
    exact List.pairwise_insertionSort _ _
  have hnodup : index.sortedToolOutputEvents.Nodup := by
    refine (List.perm_insertionSort _ _).nodup_iff.mpr ?_
    -- each event stands under its own effect
    refine List.Nodup.of_map ToolOutputEventAnchor.effectId ?_
    have hkeys : (BTreeMap.vals index.toolOutputEvents).map ToolOutputEventAnchor.effectId =
        index.toolOutputEvents.keys := by
      rw [← Std.ExtTreeMap.map_fst_toList_eq_keys]
      refine (List.map_map ..).trans (List.map_congr_left fun entry hentry => ?_)
      exact (h.anchored _ _ (Std.ExtTreeMap.mem_toList_iff_getElem?_eq_some.mp hentry)).1
    rw [hkeys]
    exact Std.ExtTreeMap.nodup_keys
  refine (hle.and hnodup).imp_of_mem fun {a b} ha hb hab => ?_
  obtain ⟨i, hi⟩ := mem_sortedToolOutputEvents.mp ha
  obtain ⟨j, hj⟩ := mem_sortedToolOutputEvents.mp hb
  exact UInt64.lt_of_le_of_ne hab.1 fun heq => hab.2 (h.ordered _ _ _ _ hi hj heq)

theorem OutputCoherent.sortedOutputs_sequences (h : OutputCoherent D data index) :
    (data.sortedOutputs index).map StoredToolOutput.eventSequence =
      index.sortedToolOutputEvents.map ToolOutputEventAnchor.eventSequence := by
  have hall := h.sortedOutputs
  generalize data.sortedOutputs index = outputs, index.sortedToolOutputEvents = anchors at hall
  induction hall with
  | nil => rfl
  | cons hhead _ ih => rw [List.map_cons, List.map_cons, ih, (verifyStoredToolOutput_names hhead.2).1]

theorem OutputCoherent.mem_sortedOutputs (h : OutputCoherent D data index)
    {stored : StoredToolOutput} :
    stored ∈ data.sortedOutputs index ↔ ∃ id : String, data.outputs[id]? = some stored := by
  rw [RunData.sortedOutputs, List.mem_filterMap]
  constructor
  · rintro ⟨anchor, _, hstored⟩
    exact ⟨_, hstored⟩
  · rintro ⟨id, hid⟩
    have hevent : id ∈ index.toolOutputEvents := by
      rw [h.events, ← h.stored]
      exact BTreeMap.mem_iff_exists.mpr ⟨stored, hid⟩
    obtain ⟨anchor, hanchor⟩ := BTreeMap.mem_iff_exists.mp hevent
    refine ⟨anchor, mem_sortedToolOutputEvents.mpr ⟨id, hanchor⟩, ?_⟩
    rw [(h.anchored id anchor hanchor).1]
    exact hid

theorem Mirrors.orderBy_outputs (h : Mirrors C data index db) (ho : OutputCoherent D data index) :
    orderBy (fun row : ToolOutputRow => toLex (row.eventSequence, row.effectId)) db.toolOutputs =
      (data.sortedOutputs index).map (outputRow C) := by
  have hsorted : ((data.sortedOutputs index).map (outputRow C)).Pairwise fun a b =>
      toLex (a.eventSequence, a.effectId) < toLex (b.eventSequence, b.effectId) := by
    rw [List.pairwise_map]
    have hsequences : (data.sortedOutputs index).Pairwise
        fun a b => a.eventSequence < b.eventSequence := by
      have hpairwise := List.pairwise_map.mpr ho.pairwise_sorted
      rw [← ho.sortedOutputs_sequences] at hpairwise
      exact List.pairwise_map.mp hpairwise
    refine hsequences.imp_of_mem fun _ hb hab => ?_
    obtain ⟨id, hid⟩ := ho.mem_sortedOutputs.mp hb
    exact Prod.Lex.toLex_lt_toLex.mpr (.inl (I64.ofU64_lt hab (h.storable.outputs _ _ hid).sequence))
  refine orderBy_eq ((List.perm_ext_iff_of_nodup (List.Nodup.of_map _ h.outputs.nodup)
    (hsorted.imp fun hlt => ?_)).mpr fun row => ?_) hsorted
  · rintro rfl
    exact lt_irrefl _ hlt
  · rw [h.outputs.mem_iff, List.mem_map]
    constructor
    · rintro ⟨id, stored, hid, rfl⟩
      exact ⟨stored, ho.mem_sortedOutputs.mpr ⟨id, hid⟩, rfl⟩
    · rintro ⟨stored, hmem, rfl⟩
      obtain ⟨id, hid⟩ := ho.mem_sortedOutputs.mp hmem
      exact ⟨id, stored, hid, rfl⟩

/-- **The pass in lockstep is the pass by effect**: each row meets the anchor at its place. -/
theorem foldl_verifySqliteToolOutput {outputs : BTreeMap String StoredToolOutput}
    {rest : List ToolOutputEventAnchor} {stored : List StoredToolOutput}
    (hrest : List.Forall₂ (fun (anchor : ToolOutputEventAnchor) stored =>
      outputs[anchor.effectId]? = some stored ∧ StorableOutput C stored) rest stored)
    (seen : List ToolOutputEventAnchor) (audited audited' : VerifiedRunIndex)
    (hpass : Outcome.foldl (verifyToolOutputRecord D outputs) audited rest = .ok audited') :
    Outcome.foldl (verifySqliteToolOutput C D (seen ++ rest)) (audited, seen.length)
      (stored.map (outputRow C)) = .ok (audited', (seen ++ rest).length) := by
  induction hrest generalizing seen audited with
  | nil =>
    obtain rfl := Except.ok.inj hpass
    rw [List.append_nil]
    rfl
  | @cons anchor output rest stored hhead _ ih =>
    simp only [Outcome.foldl, verifyToolOutputRecord, Outcome.bind_eq_ok, Outcome.exists_unit,
      Outcome.okOr_eq_ok] at hpass
    obtain ⟨next, ⟨output', houtput, hverified, hindexed⟩, hpass⟩ := hpass
    obtain rfl : output = output' := Option.some.inj (hhead.1.symm.trans houtput)
    have hloop := ih (seen ++ [anchor]) next hpass
    rw [List.append_assoc, List.singleton_append, List.length_append,
      List.length_singleton] at hloop
    simp only [List.map_cons, Outcome.foldl, verifySqliteToolOutput, Outcome.bind_eq_ok,
      Outcome.exists_unit, Outcome.okOr_eq_ok, Outcome.pure_eq_ok]
    refine ⟨_, ⟨anchor, by simp, output, hhead.2.decode, hverified, next, hindexed, rfl⟩, hloop⟩

theorem Mirrors.verifySqliteToolOutputs (h : Mirrors C data index db)
    (ho : OutputCoherent D data index) {audited : VerifiedRunIndex}
    (hevents : audited.toolOutputEvents = index.toolOutputEvents)
    (hintents : audited.intents = index.intents)
    (hempty : audited = audited.setOutputs index.bare) :
    Xgeny.verifySqliteToolOutputs C D db audited = .ok (audited.setOutputs index) := by
  have hsorted : audited.sortedToolOutputEvents = index.sortedToolOutputEvents := by
    rw [sortedToolOutputEvents, sortedToolOutputEvents, hevents]
  have hpass := ho.verifyRecords hevents hintents hempty
  simp only [verifyToolOutputRecords, Outcome.bind_eq_ok, Outcome.exists_unit, hsorted] at hpass
  have hrows : List.Forall₂ (fun (anchor : ToolOutputEventAnchor) stored =>
      data.outputs[anchor.effectId]? = some stored ∧ StorableOutput C stored)
      index.sortedToolOutputEvents (data.sortedOutputs index) :=
    ho.sortedOutputs.imp fun _ _ hentry => ⟨hentry.1, h.storable.outputs _ _ hentry.1⟩
  have hloop := foldl_verifySqliteToolOutput hrows [] audited _ hpass.2
  simp only [Xgeny.verifySqliteToolOutputs, h.orderBy_outputs ho, hsorted, Outcome.bind_eq_ok,
    Outcome.exists_unit, Outcome.failIf_eq_ok, Outcome.pure_eq_ok]
  exact ⟨_, hloop, by simp, rfl⟩

/-! ## Receipts and the completion output -/

theorem ReceiptCoherent.sequences (h : ReceiptCoherent D P data index) :
    data.receipts.map StoredExecutionReceipt.eventSequence =
      index.receiptEvents.map ReceiptEventAnchor.eventSequence := by
  have hfold := Outcome.foldl_induction
    (I := fun seen (_ : VerifiedRunIndex × Option String) =>
      ∀ entry ∈ seen, entry.2.eventSequence = entry.1.eventSequence) (by simp) ?_ h.verified
  · have hreceipts : (index.receiptEvents.zip data.receipts).map Prod.snd = data.receipts :=
      List.map_snd_zip (Nat.le_of_eq h.length.symm)
    have hanchors : (index.receiptEvents.zip data.receipts).map Prod.fst = index.receiptEvents :=
      List.map_fst_zip (Nat.le_of_eq h.length)
    calc data.receipts.map StoredExecutionReceipt.eventSequence
      _ = (index.receiptEvents.zip data.receipts).map fun entry => entry.2.eventSequence := by
        conv_lhs => rw [← hreceipts, List.map_map]
        rfl
      _ = (index.receiptEvents.zip data.receipts).map fun entry => entry.1.eventSequence :=
        List.map_congr_left hfold
      _ = index.receiptEvents.map ReceiptEventAnchor.eventSequence := by
        conv_rhs => rw [← hanchors, List.map_map]
        rfl
  · rintro seen ⟨c, previous⟩ ⟨anchor, stored⟩ ⟨c', digest⟩ _ hseen hok entry hentry
    simp only [verifyReceiptRecord, Outcome.bind_eq_ok, Outcome.exists_unit, Outcome.failIf_eq_ok,
      not_or, ne_eq, Decidable.not_not] at hok
    rcases List.mem_append.mp hentry with hentry | hentry
    · exact hseen entry hentry
    · rw [List.mem_singleton.mp hentry]
      exact hok.2.1.1

theorem decodeReceiptRow_receiptRow {stored : StoredExecutionReceipt}
    (hsequence : stored.eventSequence.toNat < 2 ^ 63)
    (hreads : C.protocolDocument.Reads (.executionReceipt stored.receipt)) :
    decodeReceiptRow C (receiptRow C stored) = .ok stored := by
  simp only [decodeReceiptRow, Outcome.bind_eq_ok]
  refine ⟨_, u64TryFrom_ofU64 hsequence, _, hreads.decode, ?_⟩
  simp only [Outcome.bind_eq_ok, Outcome.exists_unit, Outcome.failIf_eq_ok, Outcome.pure_eq_ok]
  exact ⟨by simp [receiptRow], rfl⟩

/-- **The receipts are read back** in the order of the chain. -/
theorem Mirrors.loadExecutionReceipts (h : Mirrors C data index db)
    (hr : ReceiptCoherent D P data index) (hc : Chronicled data index) :
    Xgeny.loadExecutionReceipts C db = .ok data.receipts := by
  have hsequences : data.receipts.Pairwise fun a b => a.eventSequence < b.eventSequence := by
    have hpairwise := List.pairwise_map.mpr hc.receiptOrder
    rw [← hr.sequences] at hpairwise
    exact List.pairwise_map.mp hpairwise
  have horder : orderBy ExecutionReceiptRow.eventSequence db.executionReceipts =
      data.receipts.map (receiptRow C) := by
    refine orderBy_eq (List.Perm.of_eq h.receipts) (List.pairwise_map.mpr ?_)
    exact hsequences.imp_of_mem fun _ hb hab => I64.ofU64_lt hab (h.storable.receipts _ hb).1
  rw [Xgeny.loadExecutionReceipts, horder]
  refine mapM_map_eq_ok fun stored hstored => ?_
  obtain ⟨hsequence, hreads⟩ := h.storable.receipts stored hstored
  exact decodeReceiptRow_receiptRow hsequence hreads

/-- **The completion output is read back.** -/
theorem Mirrors.loadCompletionOutputRow (h : Mirrors C data index db) :
    Xgeny.loadCompletionOutputRow C db = .ok data.completionOutput := by
  rw [Xgeny.loadCompletionOutputRow, h.completion]
  cases hstored : data.completionOutput with
  | none => rfl
  | some stored =>
    have hs := h.storable.completion stored hstored
    have hrows : orderBy CompletionOutputRow.singleton ((some stored).toList.map (completionRow C)) =
        [completionRow C stored] := rfl
    have hdecoded : C.completionOutput.fromSlice (completionRow C stored).recordJson =
        .ok stored.record := hs.reads
    simp only [hrows, decodeCompletionOutputRow, hdecoded, Outcome.bind_eq_ok, Outcome.exists_unit,
      Outcome.failIf_eq_ok, Outcome.pure_eq_ok, Decidable.not_not, ne_eq, exists_eq_left',
      not_true_eq_false, not_false_eq_true, true_and]
    refine ⟨stored, ⟨rfl, _, u64TryFrom_ofU64 hs.sequence, _, u32TryFrom_fromU32 _, _,
      u64TryFrom_ofU64 hs.size, hs.length, by simp [completionRow], rfl⟩, rfl⟩

/-! ## The audit -/

/-- **The audit rebuilds the index** of a coherent store from the rows that mirror it. -/
theorem Mirrors.loadVerifiedStoreData (h : Mirrors C data index db) (hcoherent : Coherent D P data index)
    (hplanned : ∀ id, id ∈ data.planInputs → id ∈ index.plannedInvocations)
    (hc : Chronicled data index) :
    Xgeny.loadVerifiedStoreData C D P db = .ok (data.snapshot, data.receipts, index) := by
  simp only [Xgeny.loadVerifiedStoreData, validateDerivedStateWithoutReceipts, validateForeignKeys,
    h.loadRecords hcoherent.journal, h.loadProjection, hcoherent.journal.auditSnapshot,
    h.foreignKeys, h.loadInvocationMaterials, h.loadExecutionReceipts hcoherent.receipt hc,
    h.loadCompletionOutputRow, Outcome.bind_eq_ok, Outcome.exists_unit, Outcome.failIf_eq_ok,
    Outcome.pure_eq_ok, Except.ok.injEq, exists_eq_left', not_true_eq_false, not_false_eq_true,
    true_and]
  refine ⟨_, ⟨h.validateEffectIntentIndex rfl, h.validateAuthorizationIndex rfl, _,
    h.loadPlannedInvocations hplanned rfl, _, hcoherent.plan.verifyRecords rfl rfl,
    hcoherent.material.verifyRecords rfl rfl⟩, _,
    h.verifySqliteToolOutputs hcoherent.output rfl rfl rfl, _,
    hcoherent.receipt.verifyRecords rfl rfl rfl rfl, ?_, rfl⟩
  exact hcoherent.completion

end Xgeny
