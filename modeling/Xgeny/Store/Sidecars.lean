import Xgeny.Store.Journal

set_option autoImplicit false

/-!
# A commit keeps the sidecars coherent

Four kinds of commits bring a sidecar along. For each, the audit pass over the stored records
accepts the new one because the candidate check did, and finds the old ones as they were: what it
reads of them is not touched by a later commit.

* `PlanCoherent.keep`, `MaterialCoherent.keep`, `OutputCoherent.keep`, `ReceiptCoherent.keep`: a
  commit without the sidecar;
* `CommitStep.plan`, `CommitStep.material`, `CommitStep.output`, `CommitStep.receipts`,
  `CommitStep.completion`: every commit;
* **`CommitStep.coherent`**: a commit keeps data and index coherent.
-/

namespace Xgeny

open VerifiedRunIndex

variable {D : Digests} {P : Protocol} {data data' : RunData} {index index' : VerifiedRunIndex}
  {commit : Commit}

/-! ## Planned inputs -/

theorem PlanCoherent.keep (h : PlanCoherent D data index)
    (hinputs : data'.planInputs = data.planInputs)
    (hinvocations : index'.plannedInvocations = index.plannedInvocations)
    (hids : index'.planInputStepIds = index.planInputStepIds) {state' : RunState}
    (hstate' : index'.state = some state')
    (hrun : ∀ state, index.state = some state → state'.runId = state.runId) :
    PlanCoherent D data' index' := by
  constructor
  · intro id anchor hanchor
    rw [hinvocations] at hanchor
    obtain ⟨input, state, hinput, hstate, hverify⟩ := h.verified id anchor hanchor
    refine ⟨input, state', by rw [hinputs, hinput], hstate', ?_⟩
    rw [hrun state hstate]
    exact hverify
  · rw [hinputs, hinvocations, h.size]
  · rw [hinputs, hids]
    exact h.keys

theorem inputsByStep_eq_ok {inputs : List PlannedInvocationMaterialRecord}
    {byStep : BTreeMap String PlannedInvocationMaterialRecord}
    (h : inputsByStep inputs = .ok byStep) :
    (inputs.map PlannedInvocationMaterialRecord.stepId).Nodup ∧
      BTreeMap.insertAll PlannedInvocationMaterialRecord.stepId id ∅ inputs = byStep :=
  (BTreeMap.foldl_insertNew_eq_ok.mp h).2

theorem CommitStep.plan (hstep : CommitStep D P data index commit data' index')
    (hp : Prepared D index commit.record.event commit) (h : Coherent D P data index) :
    PlanCoherent D data' index' := by
  have hrun : ∀ state, index.state = some state → commit.state.runId = state.runId :=
    fun state hstate => (h.journal.grows hp hstate).runId
  cases hstep with
  | planAccepted hbody hlength hbyStep hverified hnew =>
    rename_i decision steps inputs byStep
    obtain ⟨state, _, hstate, hfollows, _⟩ := hp.transition (by simp [hbody])
    obtain ⟨hentries, hpositions⟩ := h.journal.plan_fresh hp hbody
    obtain ⟨hnodup, rfl⟩ := inputsByStep_eq_ok hbyStep
    have hstored : ∀ input ∈ inputs, input.stepId ∉ data.planInputs :=
      fun input hin hold => hnew input hin ((h.plan.keys _).mp hold)
    constructor
    · intro id anchor hanchor
      rcases BTreeMap.get_insertAll_eq_some hentries hanchor with ⟨⟨step, i⟩, he, rfl, rfl⟩ |
        ⟨_, hold⟩
      · -- a step of the new plan: its input is in the bundle
        have hmem : step ∈ steps := List.mem_of_getElem? (List.mk_mem_zipIdx_iff_getElem?.mp he)
        obtain ⟨input, hinput, hverify⟩ := hverified step hmem
        rcases BTreeMap.get_insertAll_eq_some hnodup hinput with ⟨found, hin, hid, hfound⟩ |
          ⟨_, hnone⟩
        · subst hfound
          refine ⟨found, commit.state, ?_, rfl, ?_⟩
          · rw [← hid]
            exact BTreeMap.get_insertAll_of_mem hnodup hin
          · rw [hrun state hstate, ← hfollows.runId]
            exact hverify
        · simp at hnone
      · obtain ⟨input, state', hinput, hstate', hverify⟩ := h.plan.verified id anchor hold
        refine ⟨input, _, ?_, rfl, ?_⟩
        · rw [insertPlanInputs, BTreeMap.get_insertAll_of_ne, hinput]
          rintro other hother rfl
          exact hstored other hother (BTreeMap.mem_iff_exists.mpr ⟨input, hinput⟩)
        · rw [hrun state' hstate']
          exact hverify
    · rw [insertPlanInputs, insertInvocations, BTreeMap.size_insertAll hnodup hstored,
        BTreeMap.size_insertAll hentries, h.plan.size, hlength, List.length_zipIdx]
      exact fun e he hin => hpositions e he (h.journal.invocations _ hin)
    · intro id
      rw [insertPlanInputs, insertStepIds, BTreeMap.mem_insertAll, BTreeSet.mem_insertAll,
        h.plan.keys]
  | plain | stepPlanned | intentCommitted | executionStarted | toolOutput | completionOutput
  | receipt => exact h.plan.keep rfl rfl rfl rfl hrun

/-! ## Invocation materials -/

theorem MaterialCoherent.keep (h : MaterialCoherent D data index)
    (hmaterials : data'.materials = data.materials) (hintents : index'.intents = index.intents)
    (hids : index'.materialEffectIds = index.materialEffectIds) {state' : RunState}
    (hstate' : index'.state = some state')
    (hrun : ∀ state, index.state = some state → state'.runId = state.runId) :
    MaterialCoherent D data' index' := by
  constructor
  · intro effectId anchor hanchor
    rw [hintents] at hanchor
    obtain ⟨material, state, hmaterial, hstate, hverify⟩ := h.verified effectId anchor hanchor
    refine ⟨material, state', by rw [hmaterials, hmaterial], hstate', ?_⟩
    rw [hrun state hstate]
    exact hverify
  · rw [hmaterials, hintents, h.size]
  · rw [hmaterials, hids]
    exact h.keys

theorem CommitStep.material (hstep : CommitStep D P data index commit data' index')
    (hp : Prepared D index commit.record.event commit) (h : Coherent D P data index) :
    MaterialCoherent D data' index' := by
  have hrun : ∀ state, index.state = some state → commit.state.runId = state.runId :=
    fun state hstate => (h.journal.grows hp hstate).runId
  cases hstep with
  | intentCommitted hbody hverified hnew =>
    rename_i stepId intent material
    obtain ⟨state, _, hstate, hfollows, _⟩ := hp.transition (by simp [hbody])
    have heffect : material.effectId = intent.effectId :=
      InvocationMaterialRecord.verifyFor_effectId hverified
    have hstored : material.effectId ∉ data.materials :=
      fun hold => hnew ((h.material.keys _).mp hold)
    constructor
    · intro effectId anchor hanchor
      rw [BTreeMap.get_insert] at hanchor
      split at hanchor
      · rename_i hid
        subst hid
        obtain rfl := Option.some.inj hanchor
        refine ⟨material, _, ?_, rfl, ?_⟩
        · rw [← heffect, Std.ExtTreeMap.getElem?_insert_self]
        · rw [hrun state hstate, ← hfollows.runId]
          exact hverified
      · rename_i hid
        obtain ⟨old, state', hold, hstate', hverify⟩ := h.material.verified effectId anchor hanchor
        refine ⟨old, _, ?_, rfl, ?_⟩
        · rw [BTreeMap.get_insert_ne _ _ (heffect ▸ hid), hold]
        · rw [hrun state' hstate']
          exact hverify
    · rw [BTreeMap.size_insert_new _ hstored,
        BTreeMap.size_insert_new _ (h.journal.intent_fresh hp hbody), h.material.size]
    · intro id
      rw [BTreeMap.mem_insert_iff, BTreeSet.mem_insert_iff, h.material.keys]
  | plain | stepPlanned | planAccepted | executionStarted | toolOutput | completionOutput
  | receipt => exact h.material.keep rfl rfl rfl rfl hrun

/-! ## Tool outputs -/

theorem mem_sortedToolOutputEvents {anchor : ToolOutputEventAnchor} :
    anchor ∈ index.sortedToolOutputEvents ↔
      ∃ id : String, index.toolOutputEvents[id]? = some anchor := by
  rw [sortedToolOutputEvents, List.mem_insertionSort, BTreeMap.mem_vals_iff]

theorem OutputCoherent.mem_events (h : OutputCoherent D data index)
    {anchor : ToolOutputEventAnchor} (ha : anchor ∈ index.sortedToolOutputEvents) :
    anchor.effectId ∈ index.toolOutputEvents := by
  obtain ⟨id, hid⟩ := mem_sortedToolOutputEvents.mp ha
  obtain ⟨heffect, _⟩ := h.anchored id anchor hid
  exact BTreeMap.mem_iff_exists.mpr ⟨anchor, heffect ▸ hid⟩

theorem Prepared.sequence_lt (hp : Prepared D index commit.record.event commit)
    {last : EventRecord} (hlast : index.lastRecord = some last) :
    last.sequence < commit.record.sequence := by
  have hnext := hp.next
  rw [hlast] at hnext
  rw [UInt64.lt_iff_toNat_lt, (EventRecord.next_some hnext).1]
  omega

theorem OutputCoherent.keep (h : OutputCoherent D data index)
    (hp : Prepared D index commit.record.event commit) (houtputs : data'.outputs = data.outputs)
    (hevents : index'.toolOutputEvents = index.toolOutputEvents)
    (hfields : index'.setOutputs index = index') (hlast : index'.lastRecord = some commit.record)
    (hintents : ∀ (id : String) (a : EffectIntentAnchor), index.intents[id]? = some a →
      index'.intents[id]? = some a) : OutputCoherent D data' index' := by
  obtain ⟨heffectIds, _, _, hdigests, hsizes⟩ : index'.toolOutputEffectIds = index.toolOutputEffectIds ∧
      index'.toolOutputIds = index.toolOutputIds ∧
      index'.toolOutputRecordDigests = index.toolOutputRecordDigests ∧
      index'.toolOutputDigests = index.toolOutputDigests ∧
      index'.toolOutputSizes = index.toolOutputSizes := by
    rw [← hfields]
    exact ⟨rfl, rfl, rfl, rfl, rfl⟩
  have hsorted : index'.sortedToolOutputEvents = index.sortedToolOutputEvents := by
    rw [sortedToolOutputEvents, sortedToolOutputEvents, hevents]
  constructor
  · rw [hsorted, houtputs, ← hfields]
    have hfold := foldl_verifyToolOutputRecord (c := index'.bare) (fun _ _ => rfl) (fun a ha => ?_)
      h.verified
    · rw [← hfields] at hfold
      exact hfold
    · obtain ⟨id, hid⟩ := mem_sortedToolOutputEvents.mp ha
      obtain ⟨heffect, hmem, _⟩ := h.anchored id a hid
      obtain ⟨anchor, hanchor⟩ := BTreeMap.mem_iff_exists.mp hmem
      rw [heffect]
      exact (hintents id anchor hanchor).trans hanchor.symm
  · rw [hevents, houtputs, h.size]
  · intro id anchor hid
    rw [hevents] at hid
    obtain ⟨heffect, hmem, last, hold, hle⟩ := h.anchored id anchor hid
    obtain ⟨intent, hintent⟩ := BTreeMap.mem_iff_exists.mp hmem
    refine ⟨heffect, BTreeMap.mem_iff_exists.mpr ⟨intent, hintents id intent hintent⟩, _, hlast, ?_⟩
    exact UInt64.le_of_lt (UInt64.lt_of_le_of_lt hle (hp.sequence_lt hold))
  · rw [hevents]
    exact h.ordered
  · rw [hevents, heffectIds]
    exact h.events
  · rw [houtputs, heffectIds]
    exact h.stored
  · rw [hdigests, heffectIds]
    exact h.digests
  · rw [hsizes, heffectIds]
    exact h.sizes

theorem toolOutputAnchorFor_eq_ok {record : EventRecord} {anchor : ToolOutputEventAnchor}
    (h : index.toolOutputAnchorFor record = .ok anchor) :
    anchor.eventSequence = record.sequence ∧ ∃ intent,
      index.intents[anchor.effectId]? = some intent ∧
        intent.intent.toolOutputProfile = some toolOutputProfileV1 := by
  unfold toolOutputAnchorFor at h
  split at h
  · simp only [Outcome.bind_eq_ok, Outcome.exists_unit, Outcome.okOr_eq_ok, Outcome.failIf_eq_ok,
      Outcome.pure_eq_ok, ne_eq, Decidable.not_not] at h
    obtain ⟨intent, hintent, _, hprofile, _, _, _, rfl⟩ := h
    exact ⟨rfl, intent, hintent, hprofile⟩
  · simp at h

theorem toolOutputCandidate_names (hj : JournalCoherent D data index) {record : EventRecord}
    {stepId effectId evidence digest : String} {output : ToolOutputRecord}
    {anchor : ToolOutputEventAnchor}
    (hbody : record.event.body = .effectSucceeded stepId effectId evidence (some digest))
    (h : verifyToolOutputCandidate D index record output = .ok anchor) :
    output.effectId = effectId ∧ output.stepId = stepId ∧ anchor.effectId = effectId ∧
      ∃ intent, index.intents[effectId]? = some intent ∧ intent.stepId = stepId := by
  obtain ⟨hanchor, _, _, _, ⟨intent, hintent, hverify⟩, _⟩ := verifyToolOutputCandidate_eq_ok h
  simp only [toolOutputAnchorFor, hbody, Outcome.bind_eq_ok, Outcome.exists_unit,
    Outcome.okOr_eq_ok, Outcome.failIf_eq_ok, Outcome.pure_eq_ok, not_or, ne_eq,
    Decidable.not_not] at hanchor
  obtain ⟨found, hfound, ⟨hstep, _⟩, _, _, _, _, rfl⟩ := hanchor
  obtain ⟨hstepId, heffect⟩ := ToolOutputRecord.verifyFor_effectId hverify
  exact ⟨heffect.trans (hj.intents _ _ hintent).1, hstepId, rfl, found, hfound, hstep⟩

theorem OutputCoherent.sorted_insert (h : OutputCoherent D data index)
    (hp : Prepared D index commit.record.event commit) {anchor : ToolOutputEventAnchor}
    (hnew : anchor.effectId ∉ index.toolOutputEvents)
    (hsequence : anchor.eventSequence = commit.record.sequence)
    (hevents : index'.toolOutputEvents = index.toolOutputEvents.insert anchor.effectId anchor) :
    index'.sortedToolOutputEvents = index.sortedToolOutputEvents ++ [anchor] := by
  -- both lists are sorted, and they have the same elements
  have hbefore : ∀ a ∈ index.sortedToolOutputEvents, a.eventSequence < anchor.eventSequence := by
    intro a ha
    obtain ⟨id, hid⟩ := mem_sortedToolOutputEvents.mp ha
    obtain ⟨_, _, last, hlast, hle⟩ := h.anchored id a hid
    rw [hsequence]
    exact UInt64.lt_of_le_of_lt hle (hp.sequence_lt hlast)
  have hsort : ∀ events : List ToolOutputEventAnchor, (events.insertionSort
      fun left right => left.eventSequence ≤ right.eventSequence).Pairwise
      fun left right => left.eventSequence ≤ right.eventSequence := by
    have htotal : Std.Total fun left right : ToolOutputEventAnchor =>
        left.eventSequence ≤ right.eventSequence := ⟨fun a b => UInt64.le_total _ _⟩
    have htrans : IsTrans ToolOutputEventAnchor fun left right =>
        left.eventSequence ≤ right.eventSequence := ⟨fun a b c => UInt64.le_trans⟩
    exact fun events => List.pairwise_insertionSort _ events
  refine List.Perm.eq_of_pairwise ?_ (hsort _) ?_ ?_
  · intro a b ha hb hab hba
    have heq := UInt64.le_antisymm hab hba
    obtain ⟨id, hid⟩ := mem_sortedToolOutputEvents.mp ha
    rw [hevents, BTreeMap.get_insert] at hid
    rcases List.mem_append.mp hb with hb | hb
    · obtain ⟨id', hid'⟩ := mem_sortedToolOutputEvents.mp hb
      split at hid
      · obtain rfl := Option.some.inj hid
        exact absurd (hbefore b hb) (by rw [heq]; exact UInt64.lt_irrefl _)
      · exact h.ordered _ _ _ _ hid hid' heq
    · obtain rfl := List.mem_singleton.mp hb
      split at hid
      · exact (Option.some.inj hid).symm
      · have ha' := hbefore a (mem_sortedToolOutputEvents.mpr ⟨id, hid⟩)
        exact absurd ha' (by rw [heq]; exact UInt64.lt_irrefl _)
  · refine List.pairwise_append.mpr ⟨hsort _, List.pairwise_singleton _ _, fun a ha b hb => ?_⟩
    rw [List.mem_singleton.mp hb]
    exact UInt64.le_of_lt (hbefore a ha)
  · rw [sortedToolOutputEvents, sortedToolOutputEvents, hevents]
    refine (List.perm_insertionSort _ _).trans ((BTreeMap.vals_insert_perm _ hnew).trans ?_)
    exact ((List.perm_append_singleton _ _).trans
      ((List.perm_insertionSort _ _).cons _)).symm

theorem CommitStep.output (hstep : CommitStep D P data index commit data' index')
    (hp : Prepared D index commit.record.event commit) (h : Coherent D P data index) :
    OutputCoherent D data' index' := by
  have ho := h.output
  cases hstep with
  | toolOutput hbody hcandidate =>
    rename_i stepId effectId evidence output anchor
    obtain ⟨hanchor, hnew, hnewId, hnewDigest, ⟨intent, hintent, hverify⟩, hdigest⟩ :=
      verifyToolOutputCandidate_eq_ok hcandidate
    obtain ⟨hsequence, _⟩ := toolOutputAnchorFor_eq_ok hanchor
    -- the record is stored under the effect of its event
    have heffect : output.effectId = anchor.effectId := by
      rw [(ToolOutputRecord.verifyFor_effectId hverify).2]
      exact (h.journal.intents _ _ hintent).1
    have hevent : anchor.effectId ∉ index.toolOutputEvents := fun hin => hnew ((ho.events _).mp hin)
    have hstored : output.effectId ∉ data.outputs :=
      fun hin => hnew (heffect ▸ (ho.stored _).mp hin)
    have hread : ∀ a ∈ index.sortedToolOutputEvents, (data.outputs.insert output.effectId
        ⟨commit.record.sequence, output⟩)[a.effectId]? = data.outputs[a.effectId]? := by
      intro a ha
      refine BTreeMap.get_insert_ne _ _ fun heq => hevent ?_
      rw [← heffect, heq]
      exact ho.mem_events ha
    have hearlier : ∀ (id : String) (a : ToolOutputEventAnchor),
        index.toolOutputEvents[id]? = some a → a.eventSequence < anchor.eventSequence := by
      intro id a ha
      obtain ⟨_, _, last, hlast, hle⟩ := ho.anchored id a ha
      rw [hsequence]
      exact UInt64.lt_of_le_of_lt hle (hp.sequence_lt hlast)
    constructor
    · rw [ho.sorted_insert hp hevent hsequence rfl, Outcome.foldl_append]
      have hfold := foldl_verifyToolOutputRecord (b := index.bare)
        (c := VerifiedRunIndex.bare { index.push commit with
          toolOutputEvents := index.toolOutputEvents.insert anchor.effectId anchor })
        hread (fun _ _ => rfl) ho.verified
      · simp only [Outcome.bind_eq_ok]
        refine ⟨_, hfold, ?_⟩
        simp only [Outcome.foldl, verifyToolOutputRecord, verifyStoredToolOutput, indexToolOutput,
          Outcome.bind_eq_ok, Outcome.exists_unit, Outcome.okOr_eq_ok, Outcome.failIf_eq_ok,
          Outcome.mapErr_eq_ok, BTreeSet.insertNew_eq_ok, BTreeMap.insertNew_eq_ok,
          Outcome.pure_eq_ok]
        refine ⟨_, ⟨⟨commit.record.sequence, output⟩, ?_, ⟨?_, intent, hintent, hverify⟩, _,
          ⟨hnew, rfl⟩, _, ⟨hnewId, rfl⟩, _, ⟨hnewDigest, rfl⟩, _,
          ⟨fun hin => hnew ((ho.digests _).mp hin), rfl⟩, _,
          ⟨fun hin => hnew ((ho.sizes _).mp hin), rfl⟩, rfl⟩, ?_⟩
        · rw [← heffect, Std.ExtTreeMap.getElem?_insert_self]
        · simp only [ne_eq, not_or, Decidable.not_not]
          exact ⟨hsequence.symm, heffect, hdigest⟩
        · simp only [withOutputs, bare, setOutputs, applyOutput, heffect]
          rfl
    · show (index.toolOutputEvents.insert anchor.effectId anchor).size = _
      rw [BTreeMap.size_insert_new _ hevent, BTreeMap.size_insert_new _ hstored, ho.size]
    · intro id other hid
      replace hid : (index.toolOutputEvents.insert anchor.effectId anchor)[id]? = some other := hid
      rw [BTreeMap.get_insert] at hid
      split at hid
      · rename_i heq
        obtain rfl := Option.some.inj hid
        refine ⟨heq, heq ▸ BTreeMap.mem_iff_exists.mpr ⟨intent, hintent⟩, _, rfl, ?_⟩
        rw [hsequence]
        exact UInt64.le_refl _
      · obtain ⟨hother, hmem, _⟩ := ho.anchored id other hid
        refine ⟨hother, hmem, _, rfl, ?_⟩
        exact hsequence ▸ UInt64.le_of_lt (hearlier id other hid)
    · intro a b x y ha hb heq
      replace ha : (index.toolOutputEvents.insert anchor.effectId anchor)[a]? = some x := ha
      replace hb : (index.toolOutputEvents.insert anchor.effectId anchor)[b]? = some y := hb
      rw [BTreeMap.get_insert] at ha hb
      split at ha <;> split at hb
      · exact Option.some.inj (ha.symm.trans hb)
      · obtain rfl := Option.some.inj ha
        exact absurd (hearlier b y hb) (by rw [heq]; exact UInt64.lt_irrefl _)
      · obtain rfl := Option.some.inj hb
        exact absurd (hearlier a x ha) (by rw [heq]; exact UInt64.lt_irrefl _)
      · exact ho.ordered a b x y ha hb heq
    · intro id
      show id ∈ index.toolOutputEvents.insert anchor.effectId anchor ↔
        id ∈ index.toolOutputEffectIds.insert output.effectId
      rw [BTreeMap.mem_insert_iff, BTreeSet.mem_insert_iff, ho.events, heffect]
    · intro id
      show id ∈ data.outputs.insert output.effectId _ ↔
        id ∈ index.toolOutputEffectIds.insert output.effectId
      rw [BTreeMap.mem_insert_iff, BTreeSet.mem_insert_iff, ho.stored]
    · intro id
      show id ∈ index.toolOutputDigests.insert output.effectId _ ↔
        id ∈ index.toolOutputEffectIds.insert output.effectId
      rw [BTreeMap.mem_insert_iff, BTreeSet.mem_insert_iff, ho.digests]
    · intro id
      show id ∈ index.toolOutputSizes.insert output.effectId _ ↔
        id ∈ index.toolOutputEffectIds.insert output.effectId
      rw [BTreeMap.mem_insert_iff, BTreeSet.mem_insert_iff, ho.sizes]
  | intentCommitted hbody hverified hnew =>
    rename_i stepId intent material
    refine ho.keep hp rfl rfl rfl rfl fun id a ha => ?_
    refine (BTreeMap.get_insert_ne _ _ fun heq => ?_).trans ha
    exact h.journal.intent_fresh hp hbody (heq ▸ BTreeMap.mem_iff_exists.mpr ⟨a, ha⟩)
  | plain | stepPlanned | planAccepted | executionStarted | completionOutput | receipt =>
    exact ho.keep hp rfl rfl rfl rfl fun _ _ ha => ha

/-! ## Receipts -/

theorem ReceiptCoherent.keep (h : ReceiptCoherent D P data index)
    (hreceipts : data'.receipts = data.receipts)
    (hevents : index'.receiptEvents = index.receiptEvents)
    (hpositions : index'.receiptEventPositions = index.receiptEventPositions)
    (hfields : index'.setReceipts index = index')
    (hhead : index'.receiptHeadDigest = index.receiptHeadDigest)
    (hintents : ∀ (id : String) (a : EffectIntentAnchor), index.intents[id]? = some a →
      index'.intents[id]? = some a)
    (houtputs : ∀ id, id ∈ index.toolOutputEffectIds → id ∈ index'.toolOutputEffectIds)
    (hdigests : ∀ a ∈ index.receiptEvents,
      index'.toolOutputDigests[a.effectId]? = index.toolOutputDigests[a.effectId]?) :
    ReceiptCoherent D P data' index' := by
  have heffectIds : index'.receiptEffectIds = index.receiptEffectIds := by
    rw [← hfields]
    rfl
  constructor
  · have hfold := foldl_verifyReceiptRecord (c := index'.withOutputs) (fun e he => ?_)
      (fun e he => ?_) h.verified
    · rw [hevents, hreceipts, hhead]
      rw [← hfields]
      rw [← hfields] at hfold
      exact hfold
    · obtain ⟨intent, hintent, _⟩ := h.anchored e.1 (List.of_mem_zip he).1
      exact (hintents _ _ hintent).trans hintent.symm
    · exact hdigests e.1 (List.of_mem_zip he).1
  · rw [hevents, hreceipts, h.length]
  · intro anchor hanchor
    rw [hevents] at hanchor
    obtain ⟨intent, hintent, hprofile⟩ := h.anchored anchor hanchor
    exact ⟨intent, hintents _ _ hintent, fun hv1 => houtputs _ (hprofile hv1)⟩
  · rw [hpositions, heffectIds]
    exact h.events

theorem receiptAnchorFor_eq_ok {record : EventRecord} {anchor : ReceiptEventAnchor}
    (h : index.receiptAnchorFor record = .ok anchor) :
    anchor.eventSequence = record.sequence ∧ anchor.effectId = record.event.body.receiptEffect := by
  unfold receiptAnchorFor at h
  split at h
  · rename_i hbody
    simp only [Outcome.bind_eq_ok, Outcome.exists_unit, Outcome.okOr_eq_ok, Outcome.failIf_eq_ok,
      Outcome.pure_eq_ok] at h
    obtain ⟨_, _, _, _, _, _, rfl⟩ := h
    exact ⟨rfl, by rw [hbody]; rfl⟩
  · simp at h

theorem verifyReceiptToolOutputBinding_eq_ok {effectId : String} {receipt : ExecutionReceiptBody}
    {intent : EffectIntentAnchor} (hintent : index.intents[effectId]? = some intent)
    (h : verifyReceiptToolOutputBinding index effectId receipt = .ok ())
    (hprofile : intent.intent.toolOutputProfile = some toolOutputProfileV1) :
    effectId ∈ index.toolOutputDigests := by
  unfold verifyReceiptToolOutputBinding at h
  simp only [hintent, Outcome.bind_eq_ok, Outcome.okOr_eq_ok, Option.some.injEq, exists_eq_left',
    hprofile] at h
  cases hdigest : index.toolOutputDigests[effectId]? with
  | none => simp [hdigest] at h
  | some digest => exact BTreeMap.mem_iff_exists.mpr ⟨digest, hdigest⟩

theorem CommitStep.receipts (hstep : CommitStep D P data index commit data' index')
    (hp : Prepared D index commit.record.event commit) (h : Coherent D P data index) :
    ReceiptCoherent D P data' index' := by
  have hr := h.receipt
  cases hstep with
  | receipt hbody hvalid hcandidate =>
    rename_i stepId effectId receiptId receiptDigest disposition receipt anchor
    obtain ⟨hanchor, hnewId, hnewDigest, hnewEffect, hfollows,
      ⟨intent, provenance, hintent, hprovenance, hbinding⟩, houtput, htimes⟩ :=
      verifyReceiptCandidate_eq_ok hcandidate
    obtain ⟨hsequence, heffect⟩ := receiptAnchorFor_eq_ok hanchor
    rw [hbody] at heffect
    replace heffect : anchor.effectId = effectId := heffect
    constructor
    · show Outcome.foldl (verifyReceiptRecord D P) _ ((index.receiptEvents ++ [anchor]).zip
        (data.receipts ++ [_])) = _
      rw [List.zip_append hr.length, Outcome.foldl_append]
      have hfold := foldl_verifyReceiptRecord (b := index.withOutputs)
        (c := VerifiedRunIndex.withOutputs { index.push commit with
          receiptEventPositions := index.receiptEventPositions.insert anchor.effectId
            index.receiptEvents.length
          receiptEvents := index.receiptEvents ++ [anchor] })
        (fun _ _ => rfl) (fun _ _ => rfl) hr.verified
      simp only [Outcome.bind_eq_ok]
      refine ⟨_, hfold, ?_⟩
      simp only [List.zip_cons_cons, List.zip_nil_right, Outcome.foldl, verifyReceiptRecord,
        Outcome.bind_eq_ok, Outcome.exists_unit, Outcome.failIf_eq_ok, Outcome.mapErr_eq_ok,
        Outcome.expect_eq_ok, Outcome.okOr_eq_ok, BTreeSet.insertNew_eq_ok, Outcome.pure_eq_ok]
      refine ⟨_, ⟨hvalid, ?_, intent, hintent, provenance, hprovenance, hbinding, houtput, htimes, _,
        ⟨hnewId, rfl⟩, _, ⟨hnewDigest, rfl⟩, _, ⟨hnewEffect, rfl⟩, rfl⟩, ?_⟩
      · simp only [ne_eq, not_or, Decidable.not_not]
        exact ⟨hsequence.symm, heffect.symm, hfollows⟩
      · simp only [applyReceipt, hbody, heffect]
        rfl
    · show (index.receiptEvents ++ [anchor]).length = (data.receipts ++ [_]).length
      rw [List.length_append, List.length_append, hr.length]
      rfl
    · intro other hother
      rcases List.mem_append.mp hother with hother | hother
      · exact hr.anchored other hother
      · rw [List.mem_singleton.mp hother]
        refine ⟨intent, hintent, fun hprofile => (h.output.digests _).mp ?_⟩
        exact verifyReceiptToolOutputBinding_eq_ok hintent houtput hprofile
    · intro id
      show id ∈ index.receiptEventPositions.insert anchor.effectId _ ↔ _
      simp only [applyReceipt, hbody]
      rw [BTreeMap.mem_insert_iff, hr.events, heffect]
      exact BTreeSet.mem_insert_iff.symm
  | toolOutput hbody hcandidate =>
    rename_i stepId effectId evidence output anchor
    obtain ⟨hanchor, hnew, _, _, ⟨intent, hintent, hverify⟩, _⟩ :=
      verifyToolOutputCandidate_eq_ok hcandidate
    obtain ⟨_, other, hother, hprofile⟩ := toolOutputAnchorFor_eq_ok hanchor
    rw [hintent] at hother
    obtain rfl := Option.some.inj hother
    have heffect : output.effectId = anchor.effectId := by
      rw [(ToolOutputRecord.verifyFor_effectId hverify).2]
      exact (h.journal.intents _ _ hintent).1
    refine hr.keep rfl rfl rfl rfl rfl (fun _ _ ha => ha)
      (fun id hid => BTreeSet.mem_insert_iff.mpr (Or.inr hid)) fun a ha => ?_
    -- a receipt under the same effect would already have its output
    refine BTreeMap.get_insert_ne _ _ fun heq => hnew ?_
    obtain ⟨found, hfound, hrequired⟩ := hr.anchored a ha
    rw [← heq, heffect, hintent] at hfound
    obtain rfl := Option.some.inj hfound
    rw [← heffect, heq]
    exact hrequired hprofile
  | intentCommitted hbody hverified hnew =>
    refine hr.keep rfl rfl rfl rfl rfl (fun id a ha => ?_) (fun _ hid => hid) fun _ _ => rfl
    refine (BTreeMap.get_insert_ne _ _ fun heq => ?_).trans ha
    exact h.journal.intent_fresh hp hbody (heq ▸ BTreeMap.mem_iff_exists.mpr ⟨a, ha⟩)
  | plain | stepPlanned | planAccepted | executionStarted | completionOutput =>
    exact hr.keep rfl rfl rfl rfl rfl (fun _ _ ha => ha) (fun _ hid => hid) fun _ _ => rfl

/-! ## The completion output -/

theorem completionOutputAnchorFor_eq_ok {record : EventRecord}
    {anchor : CompletionOutputEventAnchor} (h : completionOutputAnchorFor record = .ok anchor) :
    anchor.eventSequence = record.sequence := by
  unfold completionOutputAnchorFor at h
  split at h
  · simp only [Outcome.bind_eq_ok, Outcome.okOr_eq_ok, Outcome.pure_eq_ok] at h
    obtain ⟨_, _, rfl⟩ := h
    rfl
  · simp at h

theorem CommitStep.completion (hstep : CommitStep D P data index commit data' index')
    (h : Coherent D P data index) :
    verifyCompletionOutputRecord D index' data'.completionOutput = .ok () := by
  cases hstep with
  | completionOutput hbody hcandidate =>
    obtain ⟨_, hanchor, ⟨decision, hdecision, hverify⟩, hdigest⟩ :=
      verifyCompletionOutputCandidate_eq_ok hcandidate
    simp only [verifyCompletionOutputRecord, verifyStoredCompletionOutput, Outcome.bind_eq_ok,
      Outcome.exists_unit, Outcome.failIf_eq_ok, Outcome.mapErr_eq_ok, ne_eq, not_or,
      Decidable.not_not]
    refine ⟨⟨(completionOutputAnchorFor_eq_ok hanchor).symm, ?_, hdigest⟩, decision, hdecision,
      hverify⟩
    exact CompletionOutputRecord.verifyFor_candidateId hverify
  | plain | stepPlanned | planAccepted | intentCommitted | executionStarted | toolOutput
  | receipt => exact h.completion

/-- **A commit keeps data and index coherent.** -/
theorem CommitStep.coherent (hstep : CommitStep D P data index commit data' index')
    (hp : Prepared D index commit.record.event commit) (h : Coherent D P data index) :
    Coherent D P data' index' :=
  ⟨hstep.journal hp h, hstep.plan hp h, hstep.material hp h, hstep.output hp h, hstep.receipts hp h,
    hstep.completion h⟩

end Xgeny
