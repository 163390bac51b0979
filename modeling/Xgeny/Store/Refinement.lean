import Xgeny.Store.Sidecars

set_option autoImplicit false

/-!
# The kept index is the audited one

Each of the six appends of the memory store is an accepted append in the sense of `Accepted`, so
that it keeps data and index coherent; a failed one changes nothing. Loading therefore never finds
fault with data that the store itself accepted.

* `MemoryRunStore.call_eq_ok`: what a successful call has checked and changed;
* `coherent_runCalls`: data and index are coherent after any calls;
* **`memory_index_is_audit`**: the law, for every sequence of calls on the empty store.
-/

namespace Xgeny

variable {D : Digests} {P : Protocol}

/-! ## Calls -/

/-- A call that has checked its sidecars, and the data and the index after it. -/
structure Committed (D : Digests) (P : Protocol) (before : MemoryRunStore)
    (sidecars : CommitSidecars) (anchors : CommitAnchors) (commit : Commit)
    (store : MemoryRunStore) : Prop where
  accepted : Accepted D P before.index commit.record.event sidecars anchors commit
  data : store.toRunData = before.toRunData.commit commit sidecars
  index : before.index.applyCommitted commit sidecars anchors = .ok store.index

variable {self store : MemoryRunStore} {expected : ExpectedHead} {event : RunEvent}
  {commit : Commit}

theorem append_eq_ok (h : self.append D P expected event = .ok (commit, store)) :
    ∃ anchors, Committed D P self {} anchors commit store := by
  simp only [MemoryRunStore.append, Outcome.bind_eq_ok, Outcome.exists_unit, Outcome.pure_eq_ok,
    Prod.mk.injEq] at h
  obtain ⟨hbundle, _, hprepare, index, hindex, rfl, rfl⟩ := h
  obtain ⟨_, hp⟩ := prepareCommit_eq_ok hprepare
  obtain rfl := hp.carries
  exact ⟨{}, ⟨hbundle, hp, by simp, by simp, by simp, by simp, by simp⟩, rfl, hindex⟩

theorem appendWithPlanInputs_eq_ok {inputs : List PlannedInvocationMaterialRecord}
    (h : self.appendWithPlanInputs D P expected event inputs = .ok (commit, store)) :
    ∃ anchors, Committed D P self { planInputs := some inputs } anchors commit store := by
  simp only [MemoryRunStore.appendWithPlanInputs, Outcome.bind_eq_ok, Outcome.exists_unit,
    Outcome.forEach_eq_ok, Outcome.failIf_eq_ok, not_or, Outcome.pure_eq_ok, Prod.mk.injEq] at h
  obtain ⟨hbundle, _, hprepare, hnew, index, hindex, rfl, rfl⟩ := h
  obtain ⟨_, hp⟩ := prepareCommit_eq_ok hprepare
  obtain rfl := hp.carries
  refine ⟨{}, ⟨hbundle, hp, ?_, by simp, by simp, by simp, by simp⟩,
    rfl, hindex⟩
  intro given hgiven input hinput
  obtain rfl := Option.some.inj hgiven
  exact (hnew input hinput).1

theorem appendWithInvocationMaterial_eq_ok {material : InvocationMaterialRecord}
    (h : self.appendWithInvocationMaterial D P expected event material = .ok (commit, store)) :
    ∃ anchors, Committed D P self { material := some material } anchors commit store := by
  simp only [MemoryRunStore.appendWithInvocationMaterial, Outcome.bind_eq_ok, Outcome.exists_unit,
    Outcome.failIf_eq_ok] at h
  obtain ⟨hbundle, _, prepared, hprepare, hnew, h⟩ := h
  obtain ⟨_, hp⟩ := prepareCommit_eq_ok hprepare
  obtain rfl := hp.carries
  -- the bundle names the effect under which the material is stored
  have hmaterial : verifyMaterialBundle D prepared.record.event (some material) = .ok () := by
    simp only [verifyCommitSidecars, Outcome.bind_eq_ok, Outcome.exists_unit] at hbundle
    exact hbundle.2.1
  obtain ⟨stepId, intent, _, hbody, hgiven, hverify⟩ :=
    (verifyMaterialBundle_eq_ok hmaterial).resolve_left (by simp)
  obtain rfl := Option.some.inj hgiven
  have heffect := InvocationMaterialRecord.verifyFor_effectId hverify
  simp only [hbody, Outcome.bind_eq_ok, Outcome.pure_eq_ok, Outcome.expect_eq_ok, exists_eq_left',
    ← heffect, Std.ExtTreeMap.getElem?_insert_self, Option.some.injEq, Prod.mk.injEq] at h
  obtain ⟨index, hindex, rfl, rfl⟩ := h
  refine ⟨{},
    ⟨hbundle, hp, by simp, ?_, by simp, by simp, by simp⟩, rfl, hindex⟩
  intro given hgiven
  rwa [← Option.some.inj hgiven]

theorem appendWithExecutionReceipt_eq_ok {receipt : ExecutionReceiptBody}
    (h : self.appendWithExecutionReceipt D P expected event receipt = .ok (commit, store)) :
    ∃ anchors, Committed D P self { receipt := some receipt } anchors commit store := by
  simp only [MemoryRunStore.appendWithExecutionReceipt, Outcome.bind_eq_ok,
    Outcome.exists_unit] at h
  obtain ⟨hbundle, prepared, hprepare, anchor, hcandidate, h⟩ := h
  obtain ⟨_, hp⟩ := prepareCommit_eq_ok hprepare
  obtain rfl := hp.carries
  have hreceipt : verifyReceiptBundle D P prepared.record.event (some receipt) = .ok () := by
    simp only [verifyCommitSidecars, Outcome.bind_eq_ok, Outcome.exists_unit] at hbundle
    exact hbundle.2.2.1
  obtain ⟨stepId, effectId, disposition, receiptId, receiptDigest, _, hbody, _⟩ :=
    (verifyReceiptBundle_eq_ok hreceipt).resolve_left (by simp)
  simp only [hbody, Outcome.bind_eq_ok, Outcome.pure_eq_ok, exists_eq_left', Prod.mk.injEq] at h
  obtain ⟨index, hindex, rfl, rfl⟩ := h
  refine ⟨{ receipt := some anchor },
    ⟨hbundle, hp, by simp, by simp, by simp, by simp, ?_⟩, ?_, hindex⟩
  · intro given hgiven
    obtain rfl := Option.some.inj hgiven
    exact ⟨anchor, rfl, hcandidate⟩
  · simp only [RunData.commit, hbody]
    rfl

theorem appendWithToolOutput_eq_ok {output : ToolOutputRecord}
    (hcoherent : Coherent D P self.toRunData self.index)
    (h : self.appendWithToolOutput D P expected event output = .ok (commit, store)) :
    ∃ anchors, Committed D P self { output := some output } anchors commit store := by
  simp only [MemoryRunStore.appendWithToolOutput, Outcome.bind_eq_ok, Outcome.exists_unit,
    Outcome.failIf_eq_ok] at h
  obtain ⟨hbundle, prepared, hprepare, anchor, hcandidate, _, h⟩ := h
  obtain ⟨_, hp⟩ := prepareCommit_eq_ok hprepare
  obtain rfl := hp.carries
  have houtput : verifyToolOutputBundle prepared.record.event (some output) = .ok () := by
    simp only [verifyCommitSidecars, Outcome.bind_eq_ok, Outcome.exists_unit] at hbundle
    exact hbundle.2.2.2.1
  obtain ⟨stepId, effectId, evidence, _, hbody, _⟩ :=
    (verifyToolOutputBundle_eq_ok houtput).resolve_left (by simp)
  -- the record is stored under the effect of its event
  have heffect := (toolOutputCandidate_names hcoherent.journal hbody hcandidate).1
  simp only [hbody, Outcome.bind_eq_ok, Outcome.pure_eq_ok, Outcome.expect_eq_ok, exists_eq_left',
    ← heffect, Std.ExtTreeMap.getElem?_insert_self, Option.some.injEq, Prod.mk.injEq] at h
  obtain ⟨index, hindex, rfl, rfl⟩ := h
  refine ⟨{ output := some anchor },
    ⟨hbundle, hp, by simp, by simp, ?_, by simp, by simp⟩, rfl, hindex⟩
  intro given hgiven
  obtain rfl := Option.some.inj hgiven
  exact ⟨anchor, rfl, hcandidate⟩

theorem appendWithCompletionOutput_eq_ok {output : CompletionOutputRecord}
    (h : self.appendWithCompletionOutput D P expected event output = .ok (commit, store)) :
    ∃ anchors, Committed D P self { completionOutput := some output } anchors commit store := by
  simp only [MemoryRunStore.appendWithCompletionOutput, Outcome.bind_eq_ok, Outcome.exists_unit,
    Outcome.pure_eq_ok, Prod.mk.injEq] at h
  obtain ⟨hbundle, _, hprepare, anchor, hcandidate, _, index, hindex, rfl, rfl⟩ := h
  obtain ⟨_, hp⟩ := prepareCommit_eq_ok hprepare
  obtain rfl := hp.carries
  refine ⟨{ completionOutput := some anchor },
    ⟨hbundle, hp, by simp, by simp, by simp, ?_, by simp⟩, rfl, hindex⟩
  intro given hgiven
  obtain rfl := Option.some.inj hgiven
  exact ⟨anchor, rfl, hcandidate⟩

theorem MemoryRunStore.call_prepared {call : AppendCall} (h : self.call D P call = .ok (commit, store)) :
    prepareCommit D self.index call.expected call.event = .ok commit := by
  cases call with
  | append =>
    simp only [MemoryRunStore.call, MemoryRunStore.append, Outcome.bind_eq_ok,
      Outcome.exists_unit, Outcome.pure_eq_ok, Prod.mk.injEq] at h
    obtain ⟨-, _, hprepare, _, -, rfl, -⟩ := h
    exact hprepare
  | withPlanInputs =>
    simp only [MemoryRunStore.call, MemoryRunStore.appendWithPlanInputs, Outcome.bind_eq_ok,
      Outcome.exists_unit, Outcome.pure_eq_ok, Prod.mk.injEq] at h
    obtain ⟨-, _, hprepare, -, _, -, rfl, -⟩ := h
    exact hprepare
  | withInvocationMaterial =>
    simp only [MemoryRunStore.call, MemoryRunStore.appendWithInvocationMaterial, Outcome.bind_eq_ok,
      Outcome.exists_unit] at h
    obtain ⟨-, -, prepared, hprepare, -, h⟩ := h
    split at h
    · simp only [Outcome.bind_eq_ok, Outcome.pure_eq_ok, Prod.mk.injEq] at h
      obtain ⟨_, -, _, -, _, -, rfl, -⟩ := h
      exact hprepare
    · simp at h
  | withExecutionReceipt =>
    simp only [MemoryRunStore.call, MemoryRunStore.appendWithExecutionReceipt, Outcome.bind_eq_ok,
      Outcome.exists_unit] at h
    obtain ⟨-, prepared, hprepare, _, -, h⟩ := h
    split at h
    · simp only [Outcome.bind_eq_ok, Outcome.pure_eq_ok, Prod.mk.injEq] at h
      obtain ⟨_, -, _, -, rfl, -⟩ := h
      exact hprepare
    · simp at h
  | withToolOutput =>
    simp only [MemoryRunStore.call, MemoryRunStore.appendWithToolOutput, Outcome.bind_eq_ok,
      Outcome.exists_unit] at h
    obtain ⟨-, prepared, hprepare, _, -, -, h⟩ := h
    split at h
    · simp only [Outcome.bind_eq_ok, Outcome.pure_eq_ok, Prod.mk.injEq] at h
      obtain ⟨_, -, _, -, _, -, rfl, -⟩ := h
      exact hprepare
    · simp at h
  | withCompletionOutput =>
    simp only [MemoryRunStore.call, MemoryRunStore.appendWithCompletionOutput, Outcome.bind_eq_ok,
      Outcome.exists_unit, Outcome.pure_eq_ok, Prod.mk.injEq] at h
    obtain ⟨-, _, hprepare, _, -, -, _, -, rfl, -⟩ := h
    exact hprepare

/-- **What a successful call has checked and changed.** -/
theorem MemoryRunStore.call_eq_ok {call : AppendCall}
    (hcoherent : Coherent D P self.toRunData self.index)
    (h : self.call D P call = .ok (commit, store)) :
    ∃ anchors, Committed D P self call.sidecars anchors commit store := by
  cases call with
  | append => exact append_eq_ok h
  | withPlanInputs => exact appendWithPlanInputs_eq_ok h
  | withInvocationMaterial => exact appendWithInvocationMaterial_eq_ok h
  | withExecutionReceipt => exact appendWithExecutionReceipt_eq_ok h
  | withToolOutput => exact appendWithToolOutput_eq_ok hcoherent h
  | withCompletionOutput => exact appendWithCompletionOutput_eq_ok h

/-! ## Sequences of calls -/

theorem Coherent.empty : Coherent D P .empty .default := by
  refine ⟨⟨rfl, rfl, rfl, rfl, ?_, ?_, ?_⟩, ⟨?_, rfl, ?_⟩, ⟨?_, rfl, ?_⟩,
    ⟨rfl, rfl, ?_, ?_, ?_, ?_, ?_, ?_⟩, ⟨rfl, rfl, ?_, ?_⟩, rfl⟩ <;>
    simp [VerifiedRunIndex.default, RunData.empty]

theorem Committed.coherent {sidecars : CommitSidecars} {anchors : CommitAnchors}
    (h : Committed D P self sidecars anchors commit store)
    (hcoherent : Coherent D P self.toRunData self.index) :
    Coherent D P store.toRunData store.index := by
  obtain ⟨index', hindex', hstep⟩ := h.accepted.step self.toRunData
  obtain rfl : store.index = index' := Except.ok.inj (h.index.symm.trans hindex')
  rw [h.data]
  exact hstep.coherent h.accepted.prepared hcoherent

/-- The data of a store is exactly what was committed. -/
structure Holds (store : MemoryRunStore) (commits : List Commit) : Prop where
  records : store.records = commits.map Commit.record
  projection : store.projection = commits.getLast?.map Commit.state

/-- **Run lemma.** After any calls the store is coherent and holds the returned commits. -/
theorem coherent_runCalls (calls : List AppendCall) :
    Coherent D P (runCalls D P calls).1.toRunData (runCalls D P calls).1.index ∧
      Holds (runCalls D P calls).1 (runCalls D P calls).2 := by
  induction calls using List.reverseRecOn with
  | nil => exact ⟨Coherent.empty, rfl, rfl⟩
  | append_singleton calls call ih =>
    obtain ⟨hcoherent, hholds⟩ := ih
    rw [runCalls, List.foldl_append, ← runCalls, List.foldl_cons, List.foldl_nil,
      MemoryRunStore.afterCall]
    split
    · rename_i commit store hcall
      obtain ⟨anchors, hcommitted⟩ := MemoryRunStore.call_eq_ok hcoherent hcall
      refine ⟨hcommitted.coherent hcoherent, ?_, ?_⟩
      · rw [hcommitted.data, List.map_append, ← hholds.records]
        rfl
      · rw [hcommitted.data, List.getLast?_concat]
        rfl
    · exact ⟨hcoherent, hholds⟩

/-- **The kept index is the audited one.** After any sequence of calls to the append operations,
successful or not, on the empty memory store: the store holds exactly the committed records and the
projection after the last of them; the audit of the committed data succeeds and rebuilds the index
field by field; loading returns the committed records with the projection; and the index update of
a further append that has passed its checks cannot panic. -/
theorem memory_index_is_audit (calls : List AppendCall) :
    (runCalls D P calls).1.records = (runCalls D P calls).2.map Commit.record ∧
      (runCalls D P calls).1.projection = (runCalls D P calls).2.getLast?.map Commit.state ∧
      (runCalls D P calls).1.toRunData.audit D P =
        .ok ((runCalls D P calls).1.snapshot, (runCalls D P calls).1.index) ∧
      (runCalls D P calls).1.load D P =
        .ok ((runCalls D P calls).2.getLast?.map fun last =>
          { records := (runCalls D P calls).2.map Commit.record, state := last.state }) ∧
      ∀ event sidecars anchors commit,
        Accepted D P (runCalls D P calls).1.index event sidecars anchors commit →
        ∃ index', (runCalls D P calls).1.index.applyCommitted commit sidecars anchors =
          .ok index' := by
  obtain ⟨hcoherent, hholds⟩ := coherent_runCalls (D := D) (P := P) calls
  refine ⟨hholds.records, hholds.projection, hcoherent.audit, ?_, ?_⟩
  · simp only [MemoryRunStore.load, hcoherent.audit, Outcome.bind_eq_ok, Outcome.exists_unit,
      Outcome.failIf_eq_ok, Outcome.pure_eq_ok, Except.ok.injEq, exists_eq_left', ne_eq,
      not_true_eq_false, not_false_eq_true, true_and]
    rw [RunData.snapshot, hholds.projection, hholds.records, Option.map_map]
    rfl
  · intro event sidecars anchors commit haccepted
    obtain ⟨index', hindex', _⟩ := haccepted.step (runCalls D P calls).1.toRunData
    exact ⟨index', hindex'⟩

end Xgeny
