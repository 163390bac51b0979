import Xgeny.Store.Chronology
import Xgeny.Store.Snapshots

set_option autoImplicit false

/-!
# What the index says at one point

A point of the index is checked against one stored record. On coherent data every such check
succeeds, and the fields that the index keeps of the last records are those of the last records.

* `OutputCoherent.point`: a stored output agrees with its event, at any effect;
* `ReceiptCoherent.head`: the head of the receipt chain is the last receipt;
* `Coherent.load`: the whole store is loaded.
-/

namespace Xgeny

open VerifiedRunIndex

variable {D : Digests} {P : Protocol} {data : RunData} {index : VerifiedRunIndex}

/-! ## Outputs and receipts -/

theorem verifyStoredToolOutput_congr {a b : VerifiedRunIndex} {anchor : ToolOutputEventAnchor}
    {stored : StoredToolOutput}
    (h : a.intents[anchor.effectId]? = b.intents[anchor.effectId]?) :
    verifyStoredToolOutput D a anchor stored = verifyStoredToolOutput D b anchor stored := by
  unfold verifyStoredToolOutput
  rw [h]

theorem OutputCoherent.checked (h : OutputCoherent D data index) :
    ∀ anchor ∈ index.sortedToolOutputEvents, ∃ stored, data.outputs[anchor.effectId]? = some stored ∧
      verifyStoredToolOutput D index anchor stored = .ok () := by
  have hfold := Outcome.foldl_induction (I := fun seen (c : VerifiedRunIndex) =>
    c.intents = index.intents ∧ ∀ anchor ∈ seen, ∃ stored,
      data.outputs[anchor.effectId]? = some stored ∧
      verifyStoredToolOutput D index anchor stored = .ok ())
    (b := index.bare) (f := verifyToolOutputRecord D data.outputs) ⟨rfl, by simp⟩ ?_ h.verified
  · exact hfold.2
  rintro seen c anchor c' _ ⟨hintents, hseen⟩ hok
  simp only [verifyToolOutputRecord, Outcome.bind_eq_ok, Outcome.exists_unit,
    Outcome.okOr_eq_ok] at hok
  obtain ⟨stored, hstored, hverified, hindexed⟩ := hok
  refine ⟨?_, fun a ha => ?_⟩
  · simp only [indexToolOutput, Outcome.bind_eq_ok, Outcome.pure_eq_ok] at hindexed
    obtain ⟨_, _, _, _, _, _, _, _, _, _, rfl⟩ := hindexed
    exact hintents
  · rcases List.mem_append.mp ha with ha | ha
    · exact hseen a ha
    · rw [List.mem_singleton.mp ha]
      refine ⟨stored, hstored, ?_⟩
      rw [← hverified]
      exact verifyStoredToolOutput_congr (by rw [hintents])

/-- **The output of any effect agrees with its event.** -/
theorem OutputCoherent.point (h : OutputCoherent D data index) (effectId : String) :
    verifyToolOutputPoint D index effectId data.outputs[effectId]? = .ok () := by
  unfold verifyToolOutputPoint
  cases hanchor : index.toolOutputEvents[effectId]? with
  | none =>
    have hnone : data.outputs[effectId]? = none := by
      rw [BTreeMap.get_eq_none_iff, h.stored, ← h.events]
      exact BTreeMap.get_eq_none_iff.mp hanchor
    rw [hnone]
    rfl
  | some anchor =>
    have hmem := mem_sortedToolOutputEvents.mpr ⟨effectId, hanchor⟩
    obtain ⟨stored, hstored, hverified⟩ := h.checked anchor hmem
    rw [(h.anchored effectId anchor hanchor).1] at hstored
    rw [hstored]
    exact hverified

theorem ReceiptCoherent.head (h : ReceiptCoherent D P data index) :
    index.receiptHeadDigest =
      data.receipts.getLast?.map fun stored => stored.receipt.receiptDigest := by
  have hfold := Outcome.foldl_induction
    (I := fun seen (c : VerifiedRunIndex × Option String) =>
      c.2 = seen.getLast?.map fun entry => entry.2.receipt.receiptDigest) rfl ?_ h.verified
  · have hreceipts : (index.receiptEvents.zip data.receipts).map Prod.snd = data.receipts :=
      List.map_snd_zip (Nat.le_of_eq h.length.symm)
    calc index.receiptHeadDigest
      _ = (index.receiptEvents.zip data.receipts).getLast?.map
          fun entry => entry.2.receipt.receiptDigest := hfold
      _ = ((index.receiptEvents.zip data.receipts).map Prod.snd).getLast?.map
          fun stored => stored.receipt.receiptDigest := by
        rw [List.getLast?_map, Option.map_map]
        rfl
      _ = data.receipts.getLast?.map fun stored => stored.receipt.receiptDigest := by
        rw [hreceipts]
  · rintro seen ⟨c, previous⟩ ⟨anchor, stored⟩ ⟨c', digest⟩ _ _ hok
    simp only [verifyReceiptRecord, Outcome.bind_eq_ok, Outcome.exists_unit, Outcome.pure_eq_ok,
      Prod.mk.injEq] at hok
    obtain ⟨_, _, _, _, _, _, _, _, _, _, _, _, _, _, _, _, hdigest⟩ := hok
    simp [← hdigest]

/-! ## Stores -/

theorem Coherent.load {store : MemoryRunStore} (h : Coherent D P store.toRunData store.index) :
    store.load D P = .ok store.snapshot := by
  simp only [MemoryRunStore.load, h.audit, Outcome.bind_eq_ok, Outcome.exists_unit,
    Outcome.failIf_eq_ok, Outcome.pure_eq_ok, Except.ok.injEq, exists_eq_left', ne_eq,
    not_true_eq_false, not_false_eq_true, true_and]

end Xgeny
