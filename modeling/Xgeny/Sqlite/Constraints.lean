import Xgeny.Runs.TamperEvidence
import Xgeny.Sqlite.Connections

set_option autoImplicit false

/-!
# The constraints of the schema never fire

The tables constrain their columns, and the checks of an append do not look at most of these columns.
Every row that an accepted commit writes satisfies the constraints of its table, whatever was appended
before: names are derived from documents that differ, sequence numbers grow, and every reference is
to a row that was written earlier. What is left to SQLite is that texts exist, that they are not too
long and that sequence numbers fit into a column.

* `Digests.Proper`: documents are not empty, and their hashes do not collide;
* `Room`: what is left;
* `Backs.admits_event`, …, `Backs.admits_completion`: table by table;
* **`Backs.writable_iff`**: an accepted commit can be written exactly when there is room;
* **`sqlite_append_commits_iff`**: the same of every handle after any actions.
-/

namespace Xgeny

open Table VerifiedRunIndex

/-! ## Hashes -/

/-- Documents have at least one byte, and different documents have different hashes. -/
structure Digests.Proper (D : Digests) : Prop where
  nonempty : ∀ a c, D.canonicalize a = .ok c → 1 ≤ c.size
  injective : ∀ a b c d, D.canonicalize a = .ok c → D.canonicalize b = .ok d →
    c.sha256 = d.sha256 → a = b

variable {C : StoreCodecs} {D : Digests} {P : Protocol} {db : Database}
  {data : RunData} {index : VerifiedRunIndex}

theorem Digests.Proper.digest (hproper : D.Proper) {ε ε' : Type} {a b : DigestInput}
    {onError : String → ε} {onError' : String → ε'} {t : String} (ha : D.digest a onError = .ok t)
    (hb : D.digest b onError' = .ok t) : a = b := by
  obtain ⟨c, hc, rfl⟩ := Digests.digest_eq_ok.mp ha
  obtain ⟨d, hd, heq⟩ := Digests.digest_eq_ok.mp hb
  exact hproper.injective a b c d hc hd (Subtype.ext ((String.append_right_inj _).mp heq.symm))

theorem Digests.Proper.identifier (hproper : D.Proper) {ε ε' : Type} {a b : DigestInput}
    {pre : String} {onError : String → ε} {onError' : String → ε'} {t : String}
    (ha : D.identifier pre a onError = .ok t) (hb : D.identifier pre b onError' = .ok t) : a = b := by
  obtain ⟨c, hc, rfl⟩ := Digests.identifier_eq_ok.mp ha
  obtain ⟨d, hd, heq⟩ := Digests.identifier_eq_ok.mp hb
  exact hproper.injective a b c d hc hd (Subtype.ext ((String.append_right_inj _).mp heq.symm))

/-! ## Names of the sidecars -/

theorem InvocationMaterialRecord.verifyFor_names {self : InvocationMaterialRecord}
    {runId stepId : String} {intent : EffectIntent}
    (h : self.verifyFor D runId stepId intent = .ok ()) :
    invocationMaterialId D self.runId self.effectId self.materialDigest = .ok self.materialId ∧
      invocationMaterialRecordDigest D self = .ok self.recordDigest := by
  simp only [InvocationMaterialRecord.verifyFor, Outcome.bind_eq_ok, Outcome.exists_unit,
    Outcome.failIf_eq_ok, ne_eq, Decidable.not_not] at h
  obtain ⟨-, -, -, -, -, -, -, -, _, -, -, _, hid, rfl, _, hdigest, rfl⟩ := h
  exact ⟨hid, hdigest⟩

theorem PlannedInvocationMaterialRecord.verifyFor_names {self : PlannedInvocationMaterialRecord}
    {runId stepId : String} {binding : PlannedInvocationBinding}
    (h : self.verifyFor D runId stepId binding = .ok ()) :
    plannedInvocationId D runId stepId self.proposalDigest self.specDigest = .ok self.planId ∧
      plannedInvocationMaterialRecordDigest D self = .ok self.recordDigest := by
  simp only [PlannedInvocationMaterialRecord.verifyFor, Outcome.bind_eq_ok, Outcome.exists_unit,
    Outcome.failIf_eq_ok, not_or, ne_eq, Decidable.not_not] at h
  obtain ⟨-, -, -, -, -, -, -, -, _, hid, rfl, _, hdigest, rfl, -⟩ := h
  exact ⟨hid, hdigest⟩

theorem ToolOutputRecord.verifyFor_size {self : ToolOutputRecord} {runId stepId : String}
    {intent : EffectIntent} {executionAttempt : UInt32} {evidenceDigest : String}
    (hproper : D.Proper)
    (h : self.verifyFor D runId stepId intent executionAttempt evidenceDigest = .ok ()) :
    1 ≤ self.canonicalSizeBytes.toNat ∧ self.canonicalSizeBytes.toNat ≤ 1048576 := by
  simp only [ToolOutputRecord.verifyFor, validateToolOutput, Outcome.bind_eq_ok,
    Outcome.exists_unit, Outcome.failIf_eq_ok, Digests.toVec_eq_ok, Outcome.pure_eq_ok, ne_eq,
    Decidable.not_not, not_lt, gt_iff_lt] at h
  obtain ⟨-, _, -, -, -, -, _, ⟨-, c, hc, hmax, rfl⟩, hsize, -⟩ := h
  have hmin := hproper.nonempty _ _ hc
  rw [maxToolOutputCanonicalBytes] at hmax
  rw [hsize, Nat.toUInt64_eq, UInt64.toNat_ofNat_of_lt' (by rw [UInt64.size]; omega)]
  exact ⟨hmin, hmax⟩

theorem CompletionOutputRecord.verifyFor_size {self : CompletionOutputRecord}
    {runId candidateId summaryDigest : String} {decision : ExpectedPlanningTurn}
    (h : self.verifyFor D runId decision candidateId summaryDigest = .ok ()) :
    1 ≤ self.turnIndex.toNat ∧ 1 ≤ self.summarySizeBytes.toNat ∧
      self.summarySizeBytes.toNat ≤ 5000 := by
  simp only [CompletionOutputRecord.verifyFor, ExpectedPlanningTurn.validate, requireMatches,
    validateCompletionSummaryCandidate, Outcome.bind_eq_ok, Outcome.exists_unit,
    Outcome.failIf_eq_ok, Outcome.mapErr_eq_ok, Outcome.forEach_eq_ok, List.forall_mem_cons,
    beq_iff_eq, not_or, ne_eq, Decidable.not_not, not_lt, gt_iff_lt] at h
  obtain ⟨-, ⟨hturn, -⟩, _, -, -, -, -, ⟨-, -, hsame, -⟩, ⟨⟨hsummary, -⟩, hmax⟩, hsize, -⟩ := h
  have hmin : byteLen self.summary ≠ 0 := fun hzero => hsummary (String.utf8ByteSize_eq_zero_iff.mp hzero)
  rw [maxCompletionSummaryBytes] at hmax
  rw [hsize, Nat.toUInt64_eq, UInt64.toNat_ofNat_of_lt' (by rw [UInt64.size]; omega), hsame]
  exact ⟨Nat.one_le_iff_ne_zero.mpr fun hzero => hturn (UInt32.toNat_inj.mp hzero), by omega, hmax⟩

/-! ## What the index knows -/

theorem OutputCoherent.used (h : OutputCoherent D data index) {id : String}
    {stored : StoredToolOutput} (hstored : data.outputs[id]? = some stored) :
    index.Used stored.eventSequence := by
  obtain ⟨anchor, hanchor⟩ := BTreeMap.mem_iff_exists.mp
    ((h.events id).mpr ((h.stored id).mp (BTreeMap.mem_iff_exists.mpr ⟨stored, hstored⟩)))
  obtain ⟨heffect, -, hused⟩ := h.anchored id anchor hanchor
  obtain ⟨found, hfound, hverified⟩ :=
    h.checked anchor (mem_sortedToolOutputEvents.mpr ⟨id, hanchor⟩)
  rw [heffect] at hfound
  obtain rfl := Option.some.inj (hstored.symm.trans hfound)
  rw [(verifyStoredToolOutput_names hverified).1]
  exact hused

theorem OutputCoherent.names (h : OutputCoherent D data index) {id : String}
    {stored : StoredToolOutput} (hstored : data.outputs[id]? = some stored) :
    stored.record.outputId ∈ index.toolOutputIds ∧
      stored.record.recordDigest ∈ index.toolOutputRecordDigests := by
  have hfold := Outcome.foldl_induction (I := fun seen (c : VerifiedRunIndex) =>
    ∀ anchor ∈ seen, ∀ stored, data.outputs[anchor.effectId]? = some stored →
      stored.record.outputId ∈ c.toolOutputIds ∧
        stored.record.recordDigest ∈ c.toolOutputRecordDigests) (by simp) ?_ h.verified
  · obtain ⟨anchor, hanchor⟩ := BTreeMap.mem_iff_exists.mp
      ((h.events id).mpr ((h.stored id).mp (BTreeMap.mem_iff_exists.mpr ⟨stored, hstored⟩)))
    refine hfold anchor (mem_sortedToolOutputEvents.mpr ⟨id, hanchor⟩) stored ?_
    rwa [(h.anchored id anchor hanchor).1]
  · rintro seen c anchor c' _ hseen hok other hother stored' hstored'
    simp only [verifyToolOutputRecord, indexToolOutput, Outcome.bind_eq_ok, Outcome.exists_unit,
      Outcome.okOr_eq_ok, BTreeSet.insertNew_eq_ok, Outcome.pure_eq_ok] at hok
    obtain ⟨new, hnew, -, _, -, _, ⟨-, rfl⟩, _, ⟨-, rfl⟩, _, -, _, -, rfl⟩ := hok
    simp only [BTreeSet.mem_insert_iff]
    rcases List.mem_append.mp hother with hold | hlast
    · obtain ⟨hid, hdigest⟩ := hseen other hold stored' hstored'
      exact ⟨.inr hid, .inr hdigest⟩
    · rw [List.mem_singleton.mp hlast, hnew] at hstored'
      rw [Option.some.inj hstored']
      exact ⟨.inl rfl, .inl rfl⟩

theorem MaterialCoherent.named (h : MaterialCoherent D data index)
    (hj : JournalCoherent D data index) {id : String} {material : InvocationMaterialRecord} (hmaterial : data.materials[id]? = some material) :
    material.effectId = id ∧
      invocationMaterialId D material.runId material.effectId material.materialDigest =
        .ok material.materialId ∧
      invocationMaterialRecordDigest D material = .ok material.recordDigest := by
  have hin : id ∈ index.intents := by
    refine BTreeMap.mem_of_size_eq (fun other hother => ?_) h.size
      (BTreeMap.mem_iff_exists.mpr ⟨material, hmaterial⟩)
    obtain ⟨anchor, hanchor⟩ := BTreeMap.mem_iff_exists.mp hother
    obtain ⟨found, _, hfound, _⟩ := h.verified other anchor hanchor
    exact BTreeMap.mem_iff_exists.mpr ⟨found, hfound⟩
  obtain ⟨anchor, hanchor⟩ := BTreeMap.mem_iff_exists.mp hin
  obtain ⟨found, _, hfound, _, hverified⟩ := h.verified id anchor hanchor
  obtain rfl := Option.some.inj (hmaterial.symm.trans hfound)
  have heffect := InvocationMaterialRecord.verifyFor_effectId hverified
  exact ⟨heffect.trans (hj.intents id anchor hanchor).1,
    InvocationMaterialRecord.verifyFor_names hverified⟩

theorem PlanCoherent.named (h : PlanCoherent D data index) {id : String}
    {input : PlannedInvocationMaterialRecord} (hinput : data.planInputs[id]? = some input) :
    input.stepId = id ∧
      plannedInvocationId D input.runId id input.proposalDigest input.specDigest =
        .ok input.planId ∧
      plannedInvocationMaterialRecordDigest D input = .ok input.recordDigest := by
  obtain ⟨anchor, hanchor⟩ := BTreeMap.mem_iff_exists.mp
    (h.mem_planned (BTreeMap.mem_iff_exists.mpr ⟨input, hinput⟩))
  obtain ⟨found, _, hfound, _, hverified⟩ := h.verified id anchor hanchor
  obtain rfl := Option.some.inj (hinput.symm.trans hfound)
  obtain ⟨hrun, hstep, -⟩ := PlannedInvocationMaterialRecord.verifyFor_fields hverified
  rw [hrun]
  exact ⟨hstep, PlannedInvocationMaterialRecord.verifyFor_names hverified⟩

theorem ReceiptCoherent.names (h : ReceiptCoherent D P data index)
    {stored : StoredExecutionReceipt} (hstored : stored ∈ data.receipts) :
    stored.receipt.receiptDigest ∈ index.receiptDigests := by
  have hfold := Outcome.foldl_induction (I := fun seen (c : VerifiedRunIndex × Option String) =>
    ∀ entry ∈ seen, entry.2.receipt.receiptDigest ∈ c.1.receiptDigests) (by simp) ?_ h.verified
  · have hreceipts : (index.receiptEvents.zip data.receipts).map Prod.snd = data.receipts :=
      List.map_snd_zip (Nat.le_of_eq h.length.symm)
    rw [← hreceipts] at hstored
    obtain ⟨entry, hentry, rfl⟩ := List.mem_map.mp hstored
    exact hfold entry hentry
  · rintro seen ⟨c, previous⟩ ⟨anchor, new⟩ ⟨c', digest⟩ _ hseen hok entry hentry
    simp only [verifyReceiptRecord, Outcome.bind_eq_ok, Outcome.exists_unit,
      BTreeSet.insertNew_eq_ok, Outcome.pure_eq_ok, Prod.mk.injEq] at hok
    obtain ⟨-, -, _, -, _, -, -, -, -, _, -, _, ⟨-, rfl⟩, _, -, rfl, -⟩ := hok
    simp only [BTreeSet.mem_insert_iff]
    rcases List.mem_append.mp hentry with hold | hlast
    · exact .inr (hseen entry hold)
    · rw [List.mem_singleton.mp hlast]
      exact .inl rfl

/-! ## Sequence numbers and digests of records -/

theorem EventRecord.next_own {previous : Option EventRecord} {event : RunEvent} {record : EventRecord}
    (h : EventRecord.next D previous event = .ok record) : 1 ≤ record.sequence.toNat ∧
      recordDigest D record.sequence record.previousDigest record.event = .ok record.digest := by
  cases previous with
  | none =>
    simp only [EventRecord.next, Outcome.bind_eq_ok, Outcome.pure_eq_ok] at h
    obtain ⟨_, rfl, _, hdigest, rfl⟩ := h
    exact ⟨Nat.le_refl _, hdigest⟩
  | some last =>
    obtain ⟨hsequence, -, -, hdigest⟩ := EventRecord.next_some h
    exact ⟨by omega, hdigest⟩

theorem JournalCoherent.digests (h : JournalCoherent D data index) {r : EventRecord}
    (hr : r ∈ data.records) : recordDigest D r.sequence r.previousDigest r.event = .ok r.digest := by
  have hreplayed := h.replayed
  cases hstate : index.state with
  | none =>
    rw [hstate] at hreplayed
    rw [EventLog.run_eq_none hreplayed] at hr
    cases hr
  | some state =>
    rw [hstate] at hreplayed
    exact (replay_chain (replay_eq_ok.mpr hreplayed)).digests r hr

variable {commit : Commit}

theorem Prepared.sequence_ne (hp : Prepared D index commit.record.event commit) {sequence : UInt64}
    (hused : index.Used sequence) (hfits : commit.record.sequence.toNat < 2 ^ 63) :
    I64.ofU64 sequence ≠ I64.ofU64 commit.record.sequence := by
  obtain ⟨last, hlast, hle⟩ := hused
  exact (I64.ofU64_lt (UInt64.lt_of_le_of_lt hle (hp.sequence_lt hlast)) hfits).ne

/-! ## Table by table -/

theorem Database.sequence_written {sidecars : CommitSidecars} :
    I64.ofU64 commit.record.sequence ∈ (db.written C commit sidecars).eventSequences :=
  List.mem_map.mpr ⟨eventRow C commit.record, List.mem_append_right _ List.mem_cons_self, rfl⟩

theorem Database.effect_written {sidecars : CommitSidecars} {anchor : EffectIntentAnchor}
    (hanchor : commit.record.committed = some anchor) :
    anchor.intent.effectId ∈ (db.written C commit sidecars).effectIds := by
  refine List.mem_map.mpr ⟨intentRow C anchor, List.mem_append_right _ ?_, rfl⟩
  rw [hanchor]
  exact List.mem_cons_self

theorem Database.effect_kept {sidecars : CommitSidecars} {effectId : String}
    (h : effectId ∈ db.effectIds) : effectId ∈ (db.written C commit sidecars).effectIds :=
  mem_map_append h

/-- What is left to SQLite: texts exist and fit, and so do sequence numbers. -/
structure Room (C : StoreCodecs) (commit : Commit) (sidecars : CommitSidecars) : Prop where
  sequence : commit.record.sequence.toNat < 2 ^ 63
  event : C.runEvent.Encodes commit.record.event
  intent : ∀ anchor, commit.record.committed = some anchor → C.effectIntent.Encodes anchor.intent
  planInputs : ∀ input ∈ sidecars.planInputs.getD [], C.plannedInvocation.Encodes input
  material : ∀ material, sidecars.material = some material → C.invocationMaterial.Encodes material
  output : ∀ output, sidecars.output = some output → C.toolOutput.Encodes output ∧
    1 ≤ (C.toolOutput.bytes output).length ∧ (C.toolOutput.bytes output).length ≤ 1100000
  completionOutput : ∀ output, sidecars.completionOutput = some output →
    C.completionOutput.Encodes output ∧ 1 ≤ (C.completionOutput.bytes output).length ∧
      (C.completionOutput.bytes output).length ≤ 20000
  receipt : ∀ receipt, sidecars.receipt = some receipt →
    C.protocolDocument.Encodes (.executionReceipt receipt)
  state : C.runState.Encodes commit.state

variable {sidecars : CommitSidecars} {anchors : CommitAnchors} {store store' : MemoryRunStore}

section

variable (h : Backs C D P db store) (hc : Committed D P store sidecars anchors commit store')
  (hfits : commit.record.sequence.toNat < 2 ^ 63)

include h hc hfits

theorem Backs.admits_event (hproper : D.Proper) :
    Admits runEventConstraints db.runEvents (eventRow C commit.record) := by
  have hp := hc.accepted.prepared
  obtain ⟨hpositive, hdigest⟩ := EventRecord.next_own hp.next
  have hused := h.reached.chronicled.2.sequences
  simp only [runEventConstraints, admits_cons, admits_nil, checkRow_violated, uniqueColumn_violated,
    decide_eq_true_eq, and_true, h.mirrors.events, List.map_map, List.mem_map, not_exists, not_and,
    Function.comp_apply, eventRow]
  refine ⟨?_, fun r hr heq => ?_, fun r hr heq => ?_, fun r hr heq => ?_⟩
  · rw [I64.ofU64_val hfits]
    omega
  · exact hp.sequence_ne (hused r hr) hfits heq
  · exact hp.fresh ((h.reached.chronicled.1.events _).mpr ⟨r, hr, heq⟩)
  · have hown := h.reached.coherent.journal.digests hr
    rw [heq] at hown
    obtain ⟨hsequence, -⟩ := DigestInput.record.inj (hproper.digest hown hdigest)
    exact hp.sequence_ne (hused r hr) hfits (congrArg I64.ofU64 hsequence)

theorem Backs.admits_intent {anchor : EffectIntentAnchor}
    (hanchor : commit.record.committed = some anchor) :
    Admits (db.written C commit sidecars).effectIntentConstraints db.effectIntents
      (intentRow C anchor) := by
  obtain ⟨hbody, hsequence⟩ := EventRecord.committed_eq_some.mp hanchor
  have hp := hc.accepted.prepared
  simp only [Database.effectIntentConstraints, admits_cons, admits_nil, uniqueColumn_violated,
    foreignKey_violated, and_true]
  refine ⟨?_, fun hin => ?_, ?_⟩
  · rw [h.mirrors.intents.mem_keys]
    exact h.reached.coherent.journal.intent_fresh hp hbody
  · obtain ⟨row, hrow, heq⟩ := List.mem_map.mp hin
    obtain ⟨id, old, hold, rfl⟩ := h.mirrors.intents.mem_iff.mp hrow
    rw [intentRow, intentRow, hsequence] at heq
    exact hp.sequence_ne (h.reached.chronicled.1.intents id old hold) hfits heq
  · rw [intentRow, hsequence]
    exact Database.sequence_written

omit hfits in
theorem Backs.admits_authorization {anchor : EffectIntentAnchor}
    (hanchor : commit.record.committed = some anchor) :
    Admits (db.written C commit sidecars).authorizationConstraints db.authorizationConsumption
      (authorizationRow anchor.intent) := by
  obtain ⟨hbody, -⟩ := EventRecord.committed_eq_some.mp hanchor
  have hp := hc.accepted.prepared
  have hfresh := h.reached.coherent.journal.intent_fresh hp hbody
  have hrows := h.mirrors.authorizations.mem_keys.not.mpr hfresh
  have honce : anchor.intent.authorization.maxUses = 1 := by
    obtain ⟨state, next, -, -, ht, -⟩ := hp.transition (by simp [hbody])
    rw [hbody] at ht
    rcases ht.intents with ⟨hother, -⟩ | ⟨_, _, _, heq, hcommits, -⟩
    · exact absurd rfl (hother _ _)
    · obtain ⟨-, rfl⟩ := RunEventBody.effectIntentCommitted.inj heq
      exact checkIntent_eq_ok hcommits.checked
  simp only [Database.authorizationConstraints, admits_cons, admits_nil, checkRow_violated,
    uniqueColumn_violated, foreignKey_violated, decide_eq_true_eq, and_true]
  refine ⟨?_, hrows, fun hin => ?_, Database.effect_written hanchor⟩
  · rw [authorizationRow, honce]
    exact Int.le_refl 1
  · obtain ⟨row, hrow, heq⟩ := List.mem_map.mp hin
    exact hrows (List.mem_map.mpr ⟨row, hrow, (Prod.mk.inj heq).2⟩)

omit hfits in
theorem Backs.admits_material (hproper : D.Proper)
    (hnext : Coherent D P store'.toRunData store'.index) {material : InvocationMaterialRecord}
    (hgiven : sidecars.material = some material) :
    Admits (db.written C commit sidecars).invocationMaterialConstraints db.invocationMaterials
      (materialRow C material) := by
  have hcoherent := h.reached.coherent
  have hstores := h.mirrors.written_materials hc hcoherent
  have hrows : (db.written C commit sidecars).invocationMaterials =
      db.invocationMaterials ++ materialRow C material :: [] := by
    rw [Database.written, hgiven]
    rfl
  have hids : ((db.written C commit sidecars).invocationMaterials.map
      InvocationMaterialRow.materialId).Nodup := hstores.nodup_column fun a v b w hv hw heq => by
    obtain ⟨hkey, hid, -⟩ := hnext.material.named hnext.journal hv
    obtain ⟨hkey', hid', -⟩ := hnext.material.named hnext.journal hw
    rw [show v.materialId = w.materialId from heq] at hid
    obtain ⟨-, heffect, -⟩ := DigestInput.invocationMaterialId.inj (hproper.identifier hid hid')
    exact hkey.symm.trans (heffect.trans hkey')
  have hdigests : ((db.written C commit sidecars).invocationMaterials.map
      InvocationMaterialRow.recordDigest).Nodup := hstores.nodup_column fun a v b w hv hw heq => by
    obtain ⟨hkey, -, hdigest⟩ := hnext.material.named hnext.journal hv
    obtain ⟨hkey', -, hdigest'⟩ := hnext.material.named hnext.journal hw
    rw [show v.recordDigest = w.recordDigest from heq] at hdigest
    obtain ⟨-, -, -, -, heffect, -⟩ :=
      DigestInput.invocationMaterialRecord.inj (hproper.digest hdigest hdigest')
    exact hkey.symm.trans (heffect.trans hkey')
  have hkeys := hstores.nodup
  rw [hrows] at hids hdigests hkeys
  simp only [Database.invocationMaterialConstraints, admits_cons, admits_nil,
    uniqueColumn_violated, foreignKey_violated, and_true]
  refine ⟨not_mem_of_nodup hkeys, not_mem_of_nodup hids, not_mem_of_nodup hdigests, ?_⟩
  rcases verifyMaterialBundle_eq_ok hc.accepted.bundles.2.1 with ⟨hnone, -⟩ |
    ⟨stepId, intent, given, hbody, hsome, hverified⟩
  · rw [hgiven] at hnone
    cases hnone
  · obtain rfl := Option.some.inj (hgiven.symm.trans hsome)
    have hcommitted : commit.record.committed = some ⟨commit.record.sequence, stepId, intent⟩ :=
      EventRecord.committed_eq_some.mpr ⟨hbody, rfl⟩
    rw [materialRow, InvocationMaterialRecord.verifyFor_effectId hverified]
    exact Database.effect_written hcommitted

theorem Backs.admits_planned (hproper : D.Proper)
    (hnext : Coherent D P store'.toRunData store'.index)
    {before after : List PlannedInvocationMaterialRecord} {input : PlannedInvocationMaterialRecord}
    (hgiven : sidecars.planInputs.getD [] = before ++ input :: after) :
    Admits (db.written C commit sidecars).plannedInvocationConstraints
      (db.plannedInvocations ++ before.map (plannedRow C commit.record.sequence))
      (plannedRow C commit.record.sequence input) := by
  have hstores := h.mirrors.written_planInputs hc h.reached.coherent
  have hrows : (db.written C commit sidecars).plannedInvocations =
      (db.plannedInvocations ++ before.map (plannedRow C commit.record.sequence)) ++
        plannedRow C commit.record.sequence input ::
          after.map (plannedRow C commit.record.sequence) := by
    rw [Database.written, hgiven, List.map_append, List.map_cons, List.append_assoc]
  have hids : ((db.written C commit sidecars).plannedInvocations.map
      PlannedInvocationRow.planId).Nodup := hstores.nodup_column fun a v b w hv hw heq => by
    obtain ⟨-, hid, -⟩ := hnext.plan.named hv
    obtain ⟨-, hid', -⟩ := hnext.plan.named hw
    rw [show v.planId = w.planId from heq] at hid
    exact (DigestInput.plannedInvocationId.inj (hproper.identifier hid hid')).2.1
  have hdigests : ((db.written C commit sidecars).plannedInvocations.map
      PlannedInvocationRow.recordDigest).Nodup := hstores.nodup_column fun a v b w hv hw heq => by
    obtain ⟨hkey, -, hdigest⟩ := hnext.plan.named hv
    obtain ⟨hkey', -, hdigest'⟩ := hnext.plan.named hw
    rw [show v.recordDigest = w.recordDigest from heq] at hdigest
    obtain ⟨-, -, hstep, -⟩ :=
      DigestInput.plannedInvocationMaterialRecord.inj (hproper.digest hdigest hdigest')
    exact hkey.symm.trans (hstep.trans hkey')
  have hkeys := hstores.nodup
  rw [hrows] at hids hdigests hkeys
  simp only [Database.plannedInvocationConstraints, admits_cons, admits_nil, checkRow_violated,
    uniqueColumn_violated, foreignKey_violated, decide_eq_true_eq, and_true]
  refine ⟨?_, not_mem_of_nodup hkeys, not_mem_of_nodup hids, not_mem_of_nodup hdigests,
    Database.sequence_written⟩
  have hpositive := (EventRecord.next_own hc.accepted.prepared.next).1
  rw [plannedRow, I64.ofU64_val hfits]
  omega

theorem Backs.admits_output (hproper : D.Proper) {output : ToolOutputRecord}
    (hgiven : sidecars.output = some output)
    (hlength : 1 ≤ (C.toolOutput.bytes output).length ∧
      (C.toolOutput.bytes output).length ≤ 1100000) :
    output.canonicalSizeBytes.toNat < 2 ^ 63 ∧
      Admits (db.written C commit sidecars).toolOutputConstraints db.toolOutputs
        (outputRow C ⟨commit.record.sequence, output⟩) := by
  have hcoherent := h.reached.coherent
  have hp := hc.accepted.prepared
  have hpositive := (EventRecord.next_own hp.next).1
  obtain ⟨anchor, -, hcandidate⟩ := hc.accepted.output output hgiven
  obtain ⟨-, hfresh, hid, hdigest, ⟨intent, hintent, hverified⟩, -⟩ :=
    verifyToolOutputCandidate_eq_ok hcandidate
  obtain ⟨hmin, hmax⟩ := ToolOutputRecord.verifyFor_size hproper hverified
  have heffect : output.effectId = anchor.effectId :=
    (ToolOutputRecord.verifyFor_effectId hverified).2.trans
      (hcoherent.journal.intents _ _ hintent).1
  have hrow : ∀ row ∈ db.toolOutputs, ∃ id stored, store.outputs[id]? = some stored ∧
      outputRow C stored = row := fun row hrow => h.mirrors.outputs.mem_iff.mp hrow
  have hsize : output.canonicalSizeBytes.toNat < 2 ^ 63 := by omega
  simp only [Database.toolOutputConstraints, admits_cons, admits_nil, checkRow_violated,
    uniqueColumn_violated, foreignKey_violated, decide_eq_true_eq, and_true, List.mem_map,
    not_exists, not_and]
  refine ⟨hsize, ?_, ?_, hlength, ?_, fun row hin heq => ?_, fun row hin heq => ?_,
    fun row hin heq => ?_, Database.sequence_written, ?_⟩
  · rw [outputRow, I64.ofU64_val hfits]
    omega
  · rw [outputRow, I64.ofU64_val hsize]
    omega
  · intro row hin heq
    obtain ⟨id, stored, hstored, rfl⟩ := hrow row hin
    have hkey : stored.record.effectId = id := h.mirrors.outputs.keyed id stored hstored
    have hsame : stored.record.effectId = output.effectId := heq
    refine hfresh ((hcoherent.output.stored _).mp ?_)
    rw [← heffect, ← hsame, hkey]
    exact BTreeMap.mem_iff_exists.mpr ⟨stored, hstored⟩
  · obtain ⟨id, stored, hstored, rfl⟩ := hrow row hin
    exact hp.sequence_ne (hcoherent.output.used hstored) hfits heq
  · obtain ⟨id, stored, hstored, rfl⟩ := hrow row hin
    have hsame : stored.record.outputId = output.outputId := heq
    exact hid (hsame ▸ (hcoherent.output.names hstored).1)
  · obtain ⟨id, stored, hstored, rfl⟩ := hrow row hin
    have hsame : stored.record.recordDigest = output.recordDigest := heq
    exact hdigest (hsame ▸ (hcoherent.output.names hstored).2)
  · refine Database.effect_kept (h.mirrors.intents.mem_keys.mpr ?_)
    rw [outputRow, heffect]
    exact BTreeMap.mem_iff_exists.mpr ⟨intent, hintent⟩

theorem Backs.admits_receipt {receipt : ExecutionReceiptBody}
    (hgiven : sidecars.receipt = some receipt) :
    Admits (db.written C commit sidecars).executionReceiptConstraints db.executionReceipts
      (receiptRow C ⟨commit.record.sequence, commit.record.event.body.receiptEffect, receipt⟩) := by
  have hcoherent := h.reached.coherent
  have hanchored := h.reached.chronicled.1
  have hp := hc.accepted.prepared
  have hpositive := (EventRecord.next_own hp.next).1
  obtain ⟨anchor, -, hcandidate⟩ := hc.accepted.receipt receipt hgiven
  obtain ⟨hanchor, hid, hdigest, hfresh, hfollows, ⟨intent, -, hintent, -⟩, -⟩ :=
    verifyReceiptCandidate_eq_ok hcandidate
  have heffect : commit.record.event.body.receiptEffect = anchor.effectId := by
    unfold VerifiedRunIndex.receiptAnchorFor at hanchor
    split at hanchor
    · rename_i stepId effectId disposition receiptId receiptDigest hbody
      simp only [Outcome.bind_eq_ok, Outcome.exists_unit, Outcome.pure_eq_ok] at hanchor
      obtain ⟨_, -, -, _, -, -, rfl⟩ := hanchor
      rw [hbody]
      rfl
    · simp at hanchor
  have hprevious : receipt.previousReceiptDigest = store.index.receiptHeadDigest := by
    simp only [receiptFollows, Bool.and_eq_true, decide_eq_true_eq] at hfollows
    exact hfollows.2
  simp only [Database.executionReceiptConstraints, admits_cons, admits_nil, checkRow_violated,
    uniqueColumn_violated, foreignKey_violated, references_violated, decide_eq_true_eq, and_true,
    h.mirrors.receipts, List.map_map, List.mem_map, not_exists, not_and, Function.comp_apply]
  refine ⟨?_, fun stored hin heq => ?_, fun stored hin heq => ?_, fun stored hin heq => ?_,
    fun stored hin heq => ?_, Database.sequence_written, ?_, fun digest hsome => ?_⟩
  · rw [receiptRow, I64.ofU64_val hfits]
    omega
  · have hsame : stored.receipt.receiptId = receipt.receiptId := heq
    exact hid ((hanchored.stored _).mpr ⟨stored, hin, hsame⟩)
  · have hmem := List.mem_map_of_mem (f := StoredExecutionReceipt.eventSequence) hin
    rw [hcoherent.receipt.sequences] at hmem
    obtain ⟨event, hevent, hsequence⟩ := List.mem_map.mp hmem
    have hused := h.reached.chronicled.2.receipt_used hevent
    rw [hsequence] at hused
    exact hp.sequence_ne hused hfits heq
  · have hsame : stored.effectId = commit.record.event.body.receiptEffect := heq
    rw [heffect] at hsame
    exact hfresh (hsame ▸ (hanchored.named stored hin).2)
  · have hsame : stored.receipt.receiptDigest = receipt.receiptDigest := heq
    exact hdigest (hsame ▸ hcoherent.receipt.names hin)
  · refine Database.effect_kept (h.mirrors.intents.mem_keys.mpr ?_)
    rw [receiptRow, heffect]
    exact BTreeMap.mem_iff_exists.mpr ⟨intent, hintent⟩
  · -- the receipt before is stored
    have hlast : store.index.receiptHeadDigest = some digest := hprevious.symm.trans hsome
    rw [hcoherent.receipt.head] at hlast
    obtain ⟨stored, hstored, rfl⟩ := Option.map_eq_some_iff.mp hlast
    have hrow := List.mem_map_of_mem (f := receiptRow C) (List.mem_of_getLast? hstored)
    exact ⟨receiptRow C stored, List.mem_append_left _ hrow, rfl⟩

theorem Backs.admits_completion {output : CompletionOutputRecord}
    (hgiven : sidecars.completionOutput = some output)
    (hlength : 1 ≤ (C.completionOutput.bytes output).length ∧
      (C.completionOutput.bytes output).length ≤ 20000) :
    output.summarySizeBytes.toNat < 2 ^ 63 ∧
      Admits (db.written C commit sidecars).completionOutputConstraints db.completionOutputs
        (completionRow C ⟨commit.record.sequence, output⟩) := by
  have hpositive := (EventRecord.next_own hc.accepted.prepared.next).1
  obtain ⟨anchor, -, hcandidate⟩ := hc.accepted.completionOutput output hgiven
  obtain ⟨hfirst, -, ⟨decision, -, hverified⟩, -⟩ := verifyCompletionOutputCandidate_eq_ok hcandidate
  obtain ⟨hturn, hmin, hmax⟩ := CompletionOutputRecord.verifyFor_size hverified
  -- the index knows of an output that is stored
  have hrows : db.completionOutputs = [] := by
    have hcompletion := h.reached.coherent.completion
    unfold verifyCompletionOutputRecord at hcompletion
    rw [hfirst] at hcompletion
    rw [h.mirrors.completion]
    cases hstored : store.completionOutput with
    | none => rfl
    | some stored => simp [hstored] at hcompletion
  have hsize : output.summarySizeBytes.toNat < 2 ^ 63 := by omega
  simp only [Database.completionOutputConstraints, admits_cons, admits_nil, checkRow_violated,
    uniqueColumn_violated, foreignKey_violated, decide_eq_true_eq, and_true, hrows, List.map_nil,
    List.not_mem_nil, not_false_eq_true, true_and]
  refine ⟨hsize, rfl, ?_, ?_, ?_, hlength, Database.sequence_written⟩
  · rw [completionRow, I64.ofU64_val hfits]
    omega
  · rw [completionRow]
    exact Int.ofNat_le.mpr hturn
  · rw [completionRow, I64.ofU64_val hsize]
    omega

end

/-! ## Commits -/

/-- **An accepted commit can be written** exactly when there is room. -/
theorem Backs.writable_iff (h : Backs C D P db store)
    (hc : Committed D P store sidecars anchors commit store') (hproper : D.Proper)
    (hnext : Coherent D P store'.toRunData store'.index) :
    Writable C db commit sidecars ↔ Room C commit sidecars := by
  constructor
  · intro hw
    refine ⟨hw.sequence, hw.event, hw.intent, fun input hinput => ?_,
      fun material hgiven => (hw.material material hgiven).1, fun output hgiven => ?_,
      fun output hgiven => ?_, fun receipt hgiven => (hw.receipt receipt hgiven).1, hw.state⟩
    · obtain ⟨before, after, hinputs⟩ := List.append_of_mem hinput
      exact (hw.planInputs before input after hinputs).1
    · obtain ⟨-, hencodes, hadmits⟩ := hw.output output hgiven
      simp only [Database.toolOutputConstraints, admits_cons, checkRow_violated,
        decide_eq_true_eq] at hadmits
      exact ⟨hencodes, hadmits.2.2.1⟩
    · obtain ⟨-, hencodes, hadmits⟩ := hw.completionOutput output hgiven
      simp only [Database.completionOutputConstraints, admits_cons, checkRow_violated,
        decide_eq_true_eq] at hadmits
      exact ⟨hencodes, hadmits.2.2.2.2.1⟩
  · intro hroom
    have hfits := hroom.sequence
    exact
      { sequence := hfits
        event := hroom.event
        eventRow := h.admits_event hc hfits hproper
        intent := hroom.intent
        intentRow := fun anchor hanchor => h.admits_intent hc hfits hanchor
        authorizationRow := fun anchor hanchor => h.admits_authorization hc hanchor
        planInputs := fun before input after hinputs =>
          ⟨hroom.planInputs input (hinputs ▸ List.mem_append_right _ List.mem_cons_self),
            h.admits_planned hc hfits hproper hnext hinputs⟩
        material := fun material hgiven =>
          ⟨hroom.material material hgiven, h.admits_material hc hproper hnext hgiven⟩
        output := fun output hgiven =>
          have hroomy := hroom.output output hgiven
          have hstored := h.admits_output hc hfits hproper hgiven hroomy.2
          ⟨hstored.1, hroomy.1, hstored.2⟩
        completionOutput := fun output hgiven =>
          have hroomy := hroom.completionOutput output hgiven
          have hstored := h.admits_completion hc hfits hgiven hroomy.2
          ⟨hstored.1, hroomy.1, hstored.2⟩
        receipt := fun receipt hgiven =>
          ⟨hroom.receipt receipt hgiven, h.admits_receipt hc hfits hgiven⟩
        state := hroom.state }

theorem SqliteRunStore.call_commits_iff {E : Engine} {self : SqliteRunStore} (hreturns : C.RoundTrip)
    (hproper : D.Proper) (h : Backs C D P self.database store)
    (hfits : self.Fits E.dataVersion store.index) {call : AppendCall}
    (houtput : ∀ output, call.sidecars.output = some output → C.toolOutput.Returns output)
    (hmemory : store.call D P call = .ok (commit, store')) :
    (SqliteRunStore.call C D P E call self).1 = .ok commit ↔ E.Sound ∧ Room C commit call.sidecars := by
  have hcoherent := h.reached.coherent
  obtain ⟨anchors, hcommitted⟩ := MemoryRunStore.call_eq_ok hcoherent hmemory
  have hnext : Coherent D P store'.toRunData store'.index :=
    (h.reached.call (perform_eq_ok_iff.mpr hmemory) (by simp)).coherent
  have hwritten : writeCommit C E self.database commit call.sidecars =
      .ok (self.database.written C commit call.sidecars) ↔
        E.Completes ∧ Room C commit call.sidecars := by
    rw [writeCommit_eq_ok h.mirrors.projection (hcommitted.accepted.namesStep hcoherent),
      h.writable_iff hcommitted hproper hnext, and_iff_left rfl]
  have hresult := SqliteRunStore.call_result hreturns h hfits call houtput
  generalize SqliteRunStore.call C D P E call self = outcome at hresult ⊢
  cases hresult with
  | refused hrefused =>
    rw [hmemory] at hrefused
    cases hrefused
  | notBegun hbegin =>
    refine ⟨fun heq => (by cases heq), fun hsound => ?_⟩
    rw [hsound.1.begins] at hbegin
    cases hbegin
  | notWritten hsame hwrite =>
    refine ⟨fun heq => (by cases heq), fun hsound => ?_⟩
    rw [hmemory] at hsame
    obtain ⟨rfl, -⟩ := Prod.mk.inj (Except.ok.inj hsame)
    rw [hwritten.mpr ⟨hsound.1.toCompletes, hsound.2⟩] at hwrite
    cases hwrite
  | appended hsame hbegin hwrite =>
    rw [hmemory] at hsame
    obtain ⟨rfl, -⟩ := Prod.mk.inj (Except.ok.inj hsame)
    refine ⟨fun _ => ?_, fun _ => rfl⟩
    obtain ⟨⟨hcompletes, hw⟩, -⟩ := (writeCommit_eq_ok h.mirrors.projection
      (hcommitted.accepted.namesStep hcoherent)).mp hwrite
    exact ⟨⟨hcompletes, hbegin⟩, (h.writable_iff hcommitted hproper hnext).mp hw⟩

/-- **No constraint of the schema fires.** After any actions of any handles, an append that the memory
store accepts is committed by every open handle, unless SQLite fails, or a text or a sequence number
does not fit. -/
theorem sqlite_append_commits_iff (hreturns : C.RoundTrip) (hproper : D.Proper)
    (actions : List Action) (hlegible : ∀ action ∈ actions, action.Legible C) {k : ℕ}
    {session : SqliteSession} (hsession : (Cluster.run C D P actions).sessions k = some session)
    (faults : Faults) {call : AppendCall}
    (houtput : ∀ output, call.sidecars.output = some output → C.toolOutput.Returns output)
    (hmemory : (runCalls D P ((Cluster.run C D P actions).log.map Prod.fst)).1.call D P call =
      .ok (commit, store')) :
    (SqliteRunStore.call C D P (faults.engine session.now) call
        (.over (Cluster.run C D P actions).contents session)).1 = .ok commit ↔
      (faults.engine session.now).Sound ∧ Room C commit call.sidecars := by
  obtain ⟨store, h⟩ := Cluster.sound_run (D := D) (P := P) hreturns actions hlegible
  rw [h.logged] at hmemory
  exact SqliteRunStore.call_commits_iff hreturns hproper h.backs (h.fits hsession faults) houtput
    hmemory

theorem sampleTable_proper : (tableDigests sampleTable).Proper where
  nonempty input c hc := by
    have hsizes : ∀ entry ∈ sampleTable, 1 ≤ entry.2.1 := by decide
    simp only [tableDigests] at hc
    split at hc
    · cases hc
    · rename_i document size hash hfound
      split at hc
      · obtain rfl := Except.ok.inj hc
        exact hsizes _ (List.mem_of_find?_eq_some hfound)
      · cases hc
  injective _ _ _ _ ha hb heq :=
    tableDigests_injective (by decide) ha hb (congrArg Subtype.val heq)

theorem createSample_fits : ∃ commit store,
    MemoryRunStore.new.call (tableDigests sampleTable) timelessProtocol createSample =
      .ok (commit, store) ∧ Room sampleCodecs commit createSample.sidecars := by
  have hcall : (MemoryRunStore.new.call (tableDigests sampleTable) timelessProtocol
      createSample).value?.any (fun result => decide (result.1.record.sequence = 1 ∧
        result.1.record.event = sampleEvent 1 (.runCreated "write two files") ∧
        result.1.state = createdState)) = true := by
    decide
  obtain ⟨⟨commit, store⟩, hresult, hfacts⟩ := Outcome.exists_ok_of_any hcall
  obtain ⟨hsequence, hevent, hstate⟩ := of_decide_eq_true hfacts
  have hnone : createSample.sidecars = {} := rfl
  rw [hnone]
  refine ⟨commit, store, hresult, ?_, ?_, fun anchor hanchor => ?_, by simp, by simp, by simp,
    by simp, by simp, ?_⟩
  · rw [hsequence]
    decide
  · rw [hevent]
    exact JsonCodec.only_encodes
  · obtain ⟨hbody, -⟩ := EventRecord.committed_eq_some.mp hanchor
    rw [hevent] at hbody
    cases hbody
  · rw [hstate]
    exact JsonCodec.only_encodes

theorem sqlite_append_commits_iff_sample : ∃ session commit,
    (Cluster.run sampleCodecs (tableDigests sampleTable) timelessProtocol
        (sampleActions.take 2)).sessions 1 = some session ∧
      (SqliteRunStore.call sampleCodecs (tableDigests sampleTable) timelessProtocol
        (Faults.engine {} session.now) createSample (.over (Cluster.run sampleCodecs
          (tableDigests sampleTable) timelessProtocol (sampleActions.take 2)).contents session)).1 =
        .ok commit := by
  have hlegible : ∀ action ∈ sampleActions.take 2, action.Legible sampleCodecs :=
    fun action haction => sampleActions_legible action (List.mem_of_mem_take haction)
  obtain ⟨commit, store, hcall, hroom⟩ := createSample_fits
  have hopen : ((Cluster.run sampleCodecs (tableDigests sampleTable) timelessProtocol
      (sampleActions.take 2)).sessions 1).isSome = true := by
    decide
  obtain ⟨session, hsession⟩ := Option.isSome_iff_exists.mp hopen
  have hlog : (Cluster.run sampleCodecs (tableDigests sampleTable) timelessProtocol
      (sampleActions.take 2)).log = [] :=
    List.length_eq_zero_iff.mp (by decide)
  have hmemory : (runCalls (tableDigests sampleTable) timelessProtocol
      ((Cluster.run sampleCodecs (tableDigests sampleTable) timelessProtocol
        (sampleActions.take 2)).log.map Prod.fst)).1.call (tableDigests sampleTable)
      timelessProtocol createSample = .ok (commit, store) := by
    rw [hlog]
    exact hcall
  exact ⟨session, commit, hsession, (sqlite_append_commits_iff sampleCodecs_roundTrip
    sampleTable_proper (sampleActions.take 2) hlegible hsession {} nofun hmemory).mpr
      ⟨⟨⟨fun _ => rfl, rfl⟩, rfl⟩, hroom⟩⟩

end Xgeny
