import Xgeny.Runs.Authorization
import Xgeny.Store.Commit

set_option autoImplicit false

/-!
# Coherence of data and index

The relation between the committed data of a run and the index over it. Each part says what one
audit pass will find: the pass over the journal, the planned inputs, the materials, the tool
outputs, the receipts and the completion output.

* `bare`, `withOutputs`, `withReceipts`: the index as the passes build it up, from the journal on;
* `indexRecord_setState`, `foldl_verifyToolOutputRecord`, `foldl_verifyReceiptRecord`: what a pass
  leaves alone, it does not read;
* `Coherent`: the relation;
* **`Coherent.audit`**: coherent data pass every audit, which rebuilds the index.
-/

namespace Xgeny

variable {D : Digests} {P : Protocol}

/-! ## The index in stages -/

namespace VerifiedRunIndex

/-- What the journal alone says: no projection and no sidecar. -/
def bare (index : VerifiedRunIndex) : VerifiedRunIndex :=
  { index with
    state := none
    planInputStepIds := ∅
    materialEffectIds := ∅
    receiptIds := ∅
    receiptDigests := ∅
    receiptEffectIds := ∅
    receiptHeadDigest := none
    toolOutputEffectIds := ∅
    toolOutputIds := ∅
    toolOutputRecordDigests := ∅
    toolOutputDigests := ∅
    toolOutputSizes := ∅ }

/-- The index with another projection. -/
def setState (index : VerifiedRunIndex) (state : Option RunState) : VerifiedRunIndex :=
  { index with state := state }

/-- The index with the tool-output fields of another one. -/
def setOutputs (index other : VerifiedRunIndex) : VerifiedRunIndex :=
  { index with
    toolOutputEffectIds := other.toolOutputEffectIds
    toolOutputIds := other.toolOutputIds
    toolOutputRecordDigests := other.toolOutputRecordDigests
    toolOutputDigests := other.toolOutputDigests
    toolOutputSizes := other.toolOutputSizes }

/-- The index with the receipt identities of another one. -/
def setReceipts (index other : VerifiedRunIndex) : VerifiedRunIndex :=
  { index with
    receiptIds := other.receiptIds
    receiptDigests := other.receiptDigests
    receiptEffectIds := other.receiptEffectIds }

/-- The journal and the tool outputs. -/
def withOutputs (index : VerifiedRunIndex) : VerifiedRunIndex := index.bare.setOutputs index

/-- The journal, the tool outputs and the receipts. -/
def withReceipts (index : VerifiedRunIndex) : VerifiedRunIndex := index.withOutputs.setReceipts index

end VerifiedRunIndex

open VerifiedRunIndex

/-! ## What the passes do not read -/

theorem indexEvent_setState {index index' : VerifiedRunIndex} {record : EventRecord}
    (state : Option RunState) (h : index.indexEvent record = .ok index') :
    (index.setState state).indexEvent record = .ok (index'.setState state) := by
  unfold indexEvent at h ⊢
  split at h
  · simp only [Outcome.bind_eq_ok, BTreeMap.insertNew_eq_ok, Outcome.pure_eq_ok] at h ⊢
    obtain ⟨_, ⟨hnew, rfl⟩, rfl⟩ := h
    exact ⟨_, ⟨hnew, rfl⟩, rfl⟩
  · have hsim := Outcome.foldl_simulates (R := fun b c => c = b.setState state)
      (g := indexPlannedStep record.sequence) ?_ rfl h
    · obtain ⟨_, hfold, rfl⟩ := hsim
      exact hfold
    · rintro entry _ b _ b' rfl hb
      simp only [indexPlannedStep, Outcome.bind_eq_ok, BTreeMap.insertNew_eq_ok,
        Outcome.pure_eq_ok] at hb ⊢
      obtain ⟨_, ⟨hposition, rfl⟩, _, ⟨hinvocation, rfl⟩, rfl⟩ := hb
      exact ⟨_, ⟨_, ⟨hposition, rfl⟩, _, ⟨hinvocation, rfl⟩, rfl⟩, rfl⟩
  · simp only [Outcome.bind_eq_ok, BTreeMap.insertNew_eq_ok, Outcome.pure_eq_ok] at h ⊢
    obtain ⟨_, ⟨hnew, rfl⟩, rfl⟩ := h
    exact ⟨_, ⟨hnew, rfl⟩, rfl⟩
  · simp only [Outcome.pure_eq_ok] at h ⊢
    rw [← h]
    rfl
  · simp only [Outcome.bind_eq_ok, BTreeMap.insertNew_eq_ok, Outcome.pure_eq_ok] at h ⊢
    obtain ⟨anchor, hanchor, _, ⟨hnew, rfl⟩, rfl⟩ := h
    exact ⟨anchor, hanchor, _, ⟨hnew, rfl⟩, rfl⟩
  · simp only [Outcome.bind_eq_ok, Outcome.exists_unit, Outcome.failIf_eq_ok,
      Outcome.pure_eq_ok] at h ⊢
    obtain ⟨hnone, anchor, hanchor, rfl⟩ := h
    exact ⟨hnone, anchor, hanchor, rfl⟩
  · simp only [indexReceiptEvent, Outcome.bind_eq_ok, BTreeMap.insertNew_eq_ok,
      Outcome.pure_eq_ok] at h ⊢
    obtain ⟨anchor, hanchor, _, ⟨hnew, rfl⟩, rfl⟩ := h
    exact ⟨anchor, hanchor, _, ⟨hnew, rfl⟩, rfl⟩
  · rw [Outcome.pure_eq_ok.mp h]
    rfl

theorem indexRecord_setState {index index' : VerifiedRunIndex} {record : EventRecord}
    (state : Option RunState) (h : index.indexRecord record = .ok index') :
    (index.setState state).indexRecord record = .ok (index'.setState state) := by
  simp only [indexRecord, Outcome.bind_eq_ok, BTreeSet.insertNew_eq_ok, Outcome.pure_eq_ok] at h ⊢
  obtain ⟨_, ⟨hnew, rfl⟩, mid, hmid, rfl⟩ := h
  exact ⟨_, ⟨hnew, rfl⟩, _, indexEvent_setState state hmid, rfl⟩

theorem foldl_verifyToolOutputRecord {outputs outputs' : BTreeMap String StoredToolOutput}
    {b b' c : VerifiedRunIndex} {anchors : List ToolOutputEventAnchor}
    (houtputs : ∀ a ∈ anchors, outputs'[a.effectId]? = outputs[a.effectId]?)
    (hintents : ∀ a ∈ anchors, c.intents[a.effectId]? = b.intents[a.effectId]?)
    (h : Outcome.foldl (verifyToolOutputRecord D outputs) b anchors = .ok b') :
    Outcome.foldl (verifyToolOutputRecord D outputs') (c.setOutputs b) anchors =
      .ok (c.setOutputs b') := by
  have hsim := Outcome.foldl_simulates
    (R := fun x y => y = c.setOutputs x ∧ x.intents = b.intents)
    (g := verifyToolOutputRecord D outputs') ?_ ⟨rfl, rfl⟩ h
  · obtain ⟨_, hfold, rfl, _⟩ := hsim
    exact hfold
  · rintro a ha x _ x' ⟨rfl, hx⟩ hok
    simp only [verifyToolOutputRecord, verifyStoredToolOutput, indexToolOutput, Outcome.bind_eq_ok,
      Outcome.exists_unit, Outcome.okOr_eq_ok, Outcome.failIf_eq_ok, Outcome.mapErr_eq_ok,
      BTreeSet.insertNew_eq_ok, BTreeMap.insertNew_eq_ok, Outcome.pure_eq_ok] at hok ⊢
    obtain ⟨stored, hstored, ⟨hsame, intent, hintent, hverify⟩, _, ⟨h₁, rfl⟩, _, ⟨h₂, rfl⟩, _,
      ⟨h₃, rfl⟩, _, ⟨h₄, rfl⟩, _, ⟨h₅, rfl⟩, rfl⟩ := hok
    refine ⟨_, ⟨stored, (houtputs a ha).trans hstored, ⟨hsame, intent, ?_, hverify⟩, _, ⟨h₁, rfl⟩,
      _, ⟨h₂, rfl⟩, _, ⟨h₃, rfl⟩, _, ⟨h₄, rfl⟩, _, ⟨h₅, rfl⟩, rfl⟩, rfl, hx⟩
    exact (hintents a ha).trans (hx ▸ hintent)

theorem verifyReceiptToolOutputBinding_congr {b c : VerifiedRunIndex} {effectId : String}
    {receipt : ExecutionReceiptBody} (hintents : c.intents[effectId]? = b.intents[effectId]?)
    (hdigests : c.toolOutputDigests[effectId]? = b.toolOutputDigests[effectId]?) :
    verifyReceiptToolOutputBinding c effectId receipt =
      verifyReceiptToolOutputBinding b effectId receipt := by
  unfold verifyReceiptToolOutputBinding
  rw [hintents, hdigests]

theorem foldl_verifyReceiptRecord {b b' c : VerifiedRunIndex} {digest digest' : Option String}
    {entries : List (ReceiptEventAnchor × StoredExecutionReceipt)}
    (hintents : ∀ e ∈ entries, c.intents[e.1.effectId]? = b.intents[e.1.effectId]?)
    (hdigests : ∀ e ∈ entries,
      c.toolOutputDigests[e.1.effectId]? = b.toolOutputDigests[e.1.effectId]?)
    (h : Outcome.foldl (verifyReceiptRecord D P) (b, digest) entries = .ok (b', digest')) :
    Outcome.foldl (verifyReceiptRecord D P) (c.setReceipts b, digest) entries =
      .ok (c.setReceipts b', digest') := by
  have hsim := Outcome.foldl_simulates
    (R := fun (x y : VerifiedRunIndex × Option String) => y = (c.setReceipts x.1, x.2) ∧
      x.1.intents = b.intents ∧ x.1.toolOutputDigests = b.toolOutputDigests)
    (g := verifyReceiptRecord D P) ?_ ⟨rfl, rfl, rfl⟩ h
  · obtain ⟨_, hfold, rfl, _⟩ := hsim
    exact hfold
  · rintro ⟨anchor, stored⟩ he ⟨x, previous⟩ _ ⟨x', previous'⟩ ⟨rfl, hx, hxd⟩ hok
    simp only [verifyReceiptRecord, Outcome.bind_eq_ok, Outcome.exists_unit, Outcome.failIf_eq_ok,
      Outcome.mapErr_eq_ok, Outcome.expect_eq_ok, Outcome.okOr_eq_ok, BTreeSet.insertNew_eq_ok,
      Outcome.pure_eq_ok, Prod.mk.injEq] at hok ⊢
    obtain ⟨hvalid, hsame, intent, hintent, provenance, hprovenance, hbinding, houtput, htimes, _,
      ⟨h₁, rfl⟩, _, ⟨h₂, rfl⟩, _, ⟨h₃, rfl⟩, rfl, rfl⟩ := hok
    have hci : c.intents[anchor.effectId]? = x.intents[anchor.effectId]? := by
      rw [hx]
      exact hintents _ he
    have hcd : c.toolOutputDigests[anchor.effectId]? = x.toolOutputDigests[anchor.effectId]? := by
      rw [hxd]
      exact hdigests _ he
    refine ⟨_, ⟨hvalid, hsame, intent, hci.trans hintent, provenance, hprovenance, hbinding, ?_,
      htimes, _, ⟨h₁, rfl⟩, _, ⟨h₂, rfl⟩, _, ⟨h₃, rfl⟩, rfl⟩, rfl, hx, hxd⟩
    rw [← houtput]
    exact verifyReceiptToolOutputBinding_congr hci hcd

/-! ## The relation -/

/-- The journal replays to the projection, and its pass gives the journal fields of the index. -/
structure JournalCoherent (D : Digests) (data : RunData) (index : VerifiedRunIndex) : Prop where
  replayed : EventLog.run
    (fun current record => (applyRecord D current record).mapErr replayTransitionError)
    data.records = .ok index.state
  projection : data.projection = index.state
  last : index.lastRecord = data.records.getLast?
  indexed : Outcome.foldl indexRecord .default data.records = .ok index.bare
  positions : ∀ id, id ∈ index.stepPositions →
    ∃ state, index.state = some state ∧ id ∈ state.steps
  invocations : ∀ id, id ∈ index.plannedInvocations → id ∈ index.stepPositions
  intents : ∀ (effectId : String) (anchor : EffectIntentAnchor),
    index.intents[effectId]? = some anchor → anchor.intent.effectId = effectId ∧
      ∃ state, index.state = some state ∧ state.intentOf anchor.stepId = some anchor.intent

/-- Every planned step has its input, and there is no other one. -/
structure PlanCoherent (D : Digests) (data : RunData) (index : VerifiedRunIndex) : Prop where
  verified : ∀ (id : String) (anchor : PlannedInvocationAnchor),
    index.plannedInvocations[id]? = some anchor → ∃ input state, data.planInputs[id]? = some input ∧
      index.state = some state ∧ input.verifyFor D state.runId id anchor.binding = .ok ()
  size : data.planInputs.size = index.plannedInvocations.size
  keys : ∀ id, id ∈ data.planInputs ↔ id ∈ index.planInputStepIds

/-- Every committed intent has its material, and there is no other one. -/
structure MaterialCoherent (D : Digests) (data : RunData) (index : VerifiedRunIndex) : Prop where
  verified : ∀ (effectId : String) (anchor : EffectIntentAnchor),
    index.intents[effectId]? = some anchor → ∃ material state,
      data.materials[effectId]? = some material ∧ index.state = some state ∧
      material.verifyFor D state.runId anchor.stepId anchor.intent = .ok ()
  size : data.materials.size = index.intents.size
  keys : ∀ id, id ∈ data.materials ↔ id ∈ index.materialEffectIds

/-- The tool outputs are those of the success events, in the order of the journal. -/
structure OutputCoherent (D : Digests) (data : RunData) (index : VerifiedRunIndex) : Prop where
  verified : Outcome.foldl (verifyToolOutputRecord D data.outputs) index.bare
    index.sortedToolOutputEvents = .ok index.withOutputs
  size : index.toolOutputEvents.size = data.outputs.size
  anchored : ∀ (effectId : String) (anchor : ToolOutputEventAnchor),
    index.toolOutputEvents[effectId]? = some anchor → anchor.effectId = effectId ∧
      effectId ∈ index.intents ∧
      ∃ last, index.lastRecord = some last ∧ anchor.eventSequence ≤ last.sequence
  ordered : ∀ (a b : String) (x y : ToolOutputEventAnchor), index.toolOutputEvents[a]? = some x →
    index.toolOutputEvents[b]? = some y → x.eventSequence = y.eventSequence → x = y
  events : ∀ id, id ∈ index.toolOutputEvents ↔ id ∈ index.toolOutputEffectIds
  stored : ∀ id, id ∈ data.outputs ↔ id ∈ index.toolOutputEffectIds
  digests : ∀ id, id ∈ index.toolOutputDigests ↔ id ∈ index.toolOutputEffectIds
  sizes : ∀ id, id ∈ index.toolOutputSizes ↔ id ∈ index.toolOutputEffectIds

/-- The receipts are those of the finalization events, in the order of the journal. -/
structure ReceiptCoherent (D : Digests) (P : Protocol) (data : RunData) (index : VerifiedRunIndex) :
    Prop where
  verified : Outcome.foldl (verifyReceiptRecord D P) (index.withOutputs, none)
    (index.receiptEvents.zip data.receipts) = .ok (index.withReceipts, index.receiptHeadDigest)
  length : index.receiptEvents.length = data.receipts.length
  anchored : ∀ anchor ∈ index.receiptEvents, ∃ intent,
    index.intents[anchor.effectId]? = some intent ∧
      (intent.intent.toolOutputProfile = some toolOutputProfileV1 →
        anchor.effectId ∈ index.toolOutputEffectIds)
  events : ∀ id, id ∈ index.receiptEventPositions ↔ id ∈ index.receiptEffectIds

/-- The committed data of a run and the index over it. -/
structure Coherent (D : Digests) (P : Protocol) (data : RunData) (index : VerifiedRunIndex) :
    Prop where
  journal : JournalCoherent D data index
  plan : PlanCoherent D data index
  material : MaterialCoherent D data index
  output : OutputCoherent D data index
  receipt : ReceiptCoherent D P data index
  completion : verifyCompletionOutputRecord D index data.completionOutput = .ok ()

/-! ## Coherent data pass every audit -/

/-- The snapshot of some data. -/
def RunData.snapshot (data : RunData) : Option RunSnapshot :=
  data.projection.map fun state => { records := data.records, state := state }

theorem keySet_eq {β : Type} {m : BTreeMap String β} {s : BTreeSet String}
    (h : ∀ id, id ∈ m ↔ id ∈ s) : keySet m = s := by
  refine Std.ExtTreeSet.ext_mem fun id => ?_
  rw [keySet, BTreeSet.mem_ofList_iff, Std.ExtTreeMap.mem_keys, h]

variable {data : RunData} {index : VerifiedRunIndex}

theorem JournalCoherent.auditSnapshot (h : JournalCoherent D data index) :
    auditSnapshot D data.records data.projection =
      .ok (data.snapshot, index.bare.setState index.state) := by
  have hreplayed := h.replayed
  have hprojection := h.projection
  have hindexed := h.indexed
  rw [Xgeny.auditSnapshot, RunData.snapshot, hprojection]
  cases hstate : index.state with
  | none =>
    rw [hstate] at hreplayed
    have hempty := EventLog.run_eq_none hreplayed
    rw [hempty] at hindexed ⊢
    have hbare : VerifiedRunIndex.default = index.bare := Except.ok.inj hindexed
    simp only [verifiedSnapshot, fromSnapshot, ← hbare]
    rfl
  | some state =>
    rw [hstate] at hreplayed
    have hreplay : replay D data.records = .ok state := replay_eq_ok.mpr hreplayed
    obtain ⟨first, rest, hrecords⟩ := List.exists_cons_of_ne_nil (replay_ne_nil hreplay)
    have hsim := Outcome.foldl_simulates (R := fun b c => c = b.setState (some state))
      (g := indexRecord) ?_ rfl hindexed
    · obtain ⟨_, hfold, rfl⟩ := hsim
      rw [hrecords] at hreplay hfold ⊢
      simp only [verifiedSnapshot, hreplay, Outcome.bind_eq_ok]
      refine ⟨some ⟨first :: rest, state⟩, ?_, _, hfold, rfl⟩
      simp [Outcome.mapErr]
    · rintro record _ b _ b' rfl hb
      exact ⟨_, indexRecord_setState _ hb, rfl⟩

theorem PlanCoherent.verifyRecords (h : PlanCoherent D data index) {audited : VerifiedRunIndex}
    (hplanned : audited.plannedInvocations = index.plannedInvocations)
    (hstate : audited.state = index.state) :
    verifyPlanInputRecords D audited data.planInputs =
      .ok { audited with planInputStepIds := index.planInputStepIds } := by
  simp only [verifyPlanInputRecords, Outcome.bind_eq_ok, Outcome.exists_unit, Outcome.forEach_eq_ok,
    Outcome.okOr_eq_ok, Outcome.mapErr_eq_ok, Outcome.failIf_eq_ok, Outcome.pure_eq_ok, hplanned,
    hstate, h.size, keySet_eq h.keys, ne_eq, not_true_eq_false, not_false_eq_true, and_true]
  rintro ⟨id, anchor⟩ hmem
  obtain ⟨input, state, hinput, hsome, hverify⟩ :=
    h.verified id anchor (Std.ExtTreeMap.mem_toList_iff_getElem?_eq_some.mp hmem)
  exact ⟨input, hinput, state, hsome, hverify⟩

theorem MaterialCoherent.verifyRecords (h : MaterialCoherent D data index)
    {audited : VerifiedRunIndex} (hintents : audited.intents = index.intents)
    (hstate : audited.state = index.state) :
    verifyMaterialRecords D audited data.materials =
      .ok { audited with materialEffectIds := index.materialEffectIds } := by
  simp only [verifyMaterialRecords, Outcome.bind_eq_ok, Outcome.exists_unit, Outcome.forEach_eq_ok,
    Outcome.okOr_eq_ok, Outcome.mapErr_eq_ok, Outcome.failIf_eq_ok, Outcome.pure_eq_ok, hintents,
    hstate, h.size, keySet_eq h.keys, ne_eq, not_true_eq_false, not_false_eq_true, and_true]
  rintro ⟨effectId, anchor⟩ hmem
  obtain ⟨material, state, hmaterial, hsome, hverify⟩ :=
    h.verified effectId anchor (Std.ExtTreeMap.mem_toList_iff_getElem?_eq_some.mp hmem)
  exact ⟨material, hmaterial, state, hsome, hverify⟩

theorem OutputCoherent.verifyRecords (h : OutputCoherent D data index) {audited : VerifiedRunIndex}
    (hevents : audited.toolOutputEvents = index.toolOutputEvents)
    (hintents : audited.intents = index.intents)
    (hempty : audited = audited.setOutputs index.bare) :
    verifyToolOutputRecords D audited data.outputs = .ok (audited.setOutputs index) := by
  have hsorted : audited.sortedToolOutputEvents = index.sortedToolOutputEvents := by
    rw [sortedToolOutputEvents, sortedToolOutputEvents, hevents]
  simp only [verifyToolOutputRecords, Outcome.bind_eq_ok, Outcome.exists_unit, Outcome.failIf_eq_ok,
    hevents, h.size, ne_eq, not_true_eq_false, not_false_eq_true, true_and, hsorted]
  have hfold := foldl_verifyToolOutputRecord (c := audited) (fun _ _ => rfl)
    (fun a _ => by rw [hintents]; rfl) h.verified
  rwa [← hempty] at hfold

theorem ReceiptCoherent.verifyRecords (h : ReceiptCoherent D P data index)
    {audited : VerifiedRunIndex} (hevents : audited.receiptEvents = index.receiptEvents)
    (hintents : audited.intents = index.intents)
    (hdigests : audited.toolOutputDigests = index.toolOutputDigests)
    (hempty : audited = audited.setReceipts index.withOutputs) :
    verifyReceiptRecords D P audited data.receipts =
      .ok { audited.setReceipts index with receiptHeadDigest := index.receiptHeadDigest } := by
  simp only [verifyReceiptRecords, Outcome.bind_eq_ok, Outcome.exists_unit, Outcome.failIf_eq_ok,
    hevents, h.length, ne_eq, not_true_eq_false, not_false_eq_true, true_and, Prod.exists,
    Outcome.pure_eq_ok]
  have hfold := foldl_verifyReceiptRecord (c := audited) (fun e _ => by rw [hintents]; rfl)
    (fun e _ => by rw [hdigests]; rfl) h.verified
  rw [← hempty] at hfold
  exact ⟨_, _, hfold, rfl⟩

/-- **Coherent data pass every audit**, and the audit rebuilds the index. -/
theorem Coherent.audit (h : Coherent D P data index) :
    data.audit D P = .ok (data.snapshot, index) := by
  simp only [RunData.audit, h.journal.auditSnapshot, Outcome.bind_eq_ok, Outcome.exists_unit,
    Outcome.pure_eq_ok, Except.ok.injEq, exists_eq_left']
  refine ⟨_, h.plan.verifyRecords rfl rfl, _, h.material.verifyRecords rfl rfl, _,
    h.output.verifyRecords rfl rfl rfl, _, h.receipt.verifyRecords rfl rfl rfl rfl, ?_, rfl⟩
  exact h.completion

end Xgeny
