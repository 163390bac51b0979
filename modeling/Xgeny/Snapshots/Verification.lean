import Xgeny.Snapshots.Points
import Xgeny.Verification.Agreement

set_option autoImplicit false

/-!
# The verification snapshot

The memory store answers from its index what the default implementation of the trait reads from the
journal: the last start of the effect, the last receipt and the output of the step.

* `effectStartedAt_eq`: the start that the index names is the last one of the journal;
* `Chronicled.no_output`: a step that is bound to no output has none;
* **`verification_snapshot_agrees`**: the two answers are the same.
-/

namespace Xgeny

open VerifiedRunIndex

variable {D : Digests} {P : Protocol} {data : RunData} {index : VerifiedRunIndex}

/-! ## The start of an effect -/

theorem EventRecord.startedAt_eq {record : EventRecord} {stepId effectId : String}
    (h : ∀ other time, record.startOf effectId = some (other, time) → other = stepId) :
    record.startedAt stepId effectId = (record.startOf effectId).map Prod.snd := by
  unfold EventRecord.startedAt EventRecord.startOf at *
  cases hbody : record.event.body with
  | effectExecutionStarted candidateStep candidateEffect =>
    rw [hbody] at h
    by_cases heffect : candidateEffect = effectId
    · obtain rfl := h candidateStep record.event.recordedAt (by simp [heffect])
      simp [heffect]
    · simp [heffect]
  | _ => rfl

/-- **The start that the index names is the last one of the journal.** -/
theorem effectStartedAt_eq (ha : Anchored D data index) (hc : Chronicled data index)
    {state : RunState} (hstate : index.state = some state) (stepId : String) :
    index.effectStartedAt state stepId = (state.effectOf stepId).bind fun effectId =>
      data.records.reverse.findSome? (EventRecord.startedAt stepId effectId) := by
  unfold VerifiedRunIndex.effectStartedAt RunState.effectOf
  cases hstep : state.steps[stepId]? with
  | none => rfl
  | some step =>
    cases hintent : step.intent with
    | none => simp [hintent]
    | some intent =>
      obtain ⟨anchor, hanchor, hid, _⟩ := ha.committed state stepId intent hstate
        (RunState.intentOf_eq_some.mpr ⟨step, hstep, hintent⟩)
      -- the effect was started for this step only
      have howner : ∀ record ∈ data.records, ∀ other time,
          record.startOf intent.effectId = some (other, time) → other = stepId := by
        intro record hrecord other time hstart
        obtain ⟨found, hfound, hother⟩ := hc.started record hrecord _ _ _ hstart
        obtain rfl := Option.some.inj (hanchor.symm.trans hfound)
        rw [← hother, hid]
      have hsame : data.records.reverse.findSome? (EventRecord.startedAt stepId intent.effectId) =
          (data.records.reverse.findSome? (EventRecord.startOf intent.effectId)).map Prod.snd := by
        rw [List.map_findSome?, ← List.head?_filterMap, ← List.head?_filterMap]
        congr 1
        refine List.filterMap_congr fun record hrecord => ?_
        exact EventRecord.startedAt_eq (howner record (List.mem_reverse.mp hrecord))
      have hstarts := hc.starts intent.effectId
      simp only [hintent, Option.bind_eq_bind, Option.bind_some, Option.map_some]
      rw [hsame, ← hstarts]
      cases hstarted : index.effectStarts[intent.effectId]? with
      | none => rfl
      | some started =>
        rw [hstarted, Option.map_some, eq_comm, List.findSome?_eq_some_iff] at hstarts
        obtain ⟨before, record, after, hsplit, hstart, _⟩ := hstarts
        have hrecord : record ∈ data.records := by
          rw [← List.mem_reverse, hsplit]
          simp
        simp [howner record hrecord _ _ hstart]

/-! ## The two loads -/

theorem verificationSnapshot_none {store : MemoryRunStore}
    (h : Coherent D P store.toRunData store.index) (hstate : store.index.state = none)
    (stepId : String) : store.loadVerificationSnapshot D stepId = .ok none ∧
      (store.runStore D P).loadVerificationSnapshot stepId = .ok none := by
  have hsnapshot : store.snapshot = none := by
    rw [RunData.snapshot, h.journal.projection, hstate]
    rfl
  constructor
  · simp only [MemoryRunStore.loadVerificationSnapshot, verificationSnapshot, hstate]
    rfl
  · simp only [RunStore.loadVerificationSnapshot, MemoryRunStore.runStore,
      MemoryRunStore.loadWithExecutionReceipts, h.load, hsnapshot]
    rfl

theorem loadVerificationSnapshot_some {store : MemoryRunStore}
    (h : Coherent D P store.toRunData store.index) {state : RunState}
    (hstate : store.index.state = some state) (stepId : String) :
    store.loadVerificationSnapshot D stepId = .ok (some
      { state := state
        effectStartedAt := store.index.effectStartedAt state stepId
        previousReceiptDigest := store.index.receiptHeadDigest
        toolOutput := ((state.effectOf stepId).bind fun effectId =>
          store.outputs[effectId]?).map StoredToolOutput.record }) := by
  simp only [MemoryRunStore.loadVerificationSnapshot, verificationSnapshot, hstate, Option.map_some,
    RunState.effectOf]
  split
  · rename_i hnone
    rw [hnone]
    rfl
  · rename_i effectId hsome
    rw [hsome]
    simp only [Outcome.bind_eq_ok, Outcome.exists_unit, h.output.point, true_and]
    rfl

theorem runStore_loadVerificationSnapshot {store : MemoryRunStore}
    (h : Coherent D P store.toRunData store.index) {state : RunState}
    (hstate : store.index.state = some state) (stepId : String) :
    (store.runStore D P).loadVerificationSnapshot stepId = .ok (some
      { state := state
        effectStartedAt := (state.effectOf stepId).bind fun effectId =>
          store.records.reverse.findSome? (EventRecord.startedAt stepId effectId)
        previousReceiptDigest := store.index.receiptHeadDigest
        toolOutput :=
          if (state.steps[stepId]?.any fun step => step.outputRecordDigest.isSome) = true then
            ((state.effectOf stepId).bind fun effectId =>
              store.outputs[effectId]?).map StoredToolOutput.record
          else none }) := by
  have hsnapshot : store.snapshot = some ⟨store.records, state⟩ := by
    rw [RunData.snapshot, h.journal.projection, hstate]
    rfl
  have hreceipts : (store.receipts.map StoredExecutionReceipt.receipt).getLast?.map
      ExecutionReceiptBody.receiptDigest = store.index.receiptHeadDigest := by
    rw [h.receipt.head, List.getLast?_map, Option.map_map]
    rfl
  simp only [RunStore.loadVerificationSnapshot, MemoryRunStore.runStore,
    MemoryRunStore.loadWithExecutionReceipts, h.load, hsnapshot, Outcome.bind_eq_ok,
    Outcome.pure_eq_ok, Except.ok.injEq, exists_eq_left', hreceipts, MemoryRunStore.loadToolOutput]
  cases hrequired : state.steps[stepId]?.any fun step => step.outputRecordDigest.isSome with
  | false => rfl
  | true =>
    cases heffect : state.effectOf stepId with
    | none => rfl
    | some effectId =>
      simp only [h.output.point, Outcome.bind_eq_ok, Outcome.exists_unit, true_and,
        Outcome.pure_eq_ok]
      exact ⟨_, rfl, rfl⟩

theorem Chronicled.no_output (hc : Chronicled data index) {state : RunState}
    (hstate : index.state = some state) {stepId : String}
    (h : ¬ (state.steps[stepId]?.any fun step => step.outputRecordDigest.isSome) = true) :
    ((state.effectOf stepId).bind fun effectId => data.outputs[effectId]?) = none := by
  unfold RunState.effectOf
  cases hstep : state.steps[stepId]? with
  | none => rfl
  | some step =>
    have hprojected := (hc.projected state stepId step hstate hstep).output
    cases hintent : step.intent with
    | none => simp [hintent]
    | some intent => simpa [hstep, hprojected, hintent] using h

/-- **The verification snapshot.** On every store that appends have filled, the memory store answers
with the snapshot that the default implementation of the trait assembles from the journal, and
neither fails. -/
theorem verification_snapshot_agrees {store : MemoryRunStore} (h : ReachedStore D P store)
    (stepId : String) : ∃ snapshot, store.loadVerificationSnapshot D stepId = .ok snapshot ∧
      (store.runStore D P).loadVerificationSnapshot stepId = .ok snapshot := by
  have hcoherent := h.coherent
  obtain ⟨ha, hc⟩ := h.chronicled
  cases hstate : store.index.state with
  | none => exact ⟨none, verificationSnapshot_none hcoherent hstate stepId⟩
  | some state =>
    refine ⟨_, loadVerificationSnapshot_some hcoherent hstate stepId, ?_⟩
    rw [runStore_loadVerificationSnapshot hcoherent hstate stepId,
      effectStartedAt_eq ha hc hstate stepId]
    split
    · rfl
    · rename_i hunbound
      rw [hc.no_output hstate hunbound]
      rfl

theorem checkedStore_reached (calls : ℕ) :
    ReachedStore (tableDigests checkedTable) checkedProtocol (checkedStore calls) :=
  ReachedStore.runCalls _

/-- The first step of the sample run was started when the index says, and has no receipt yet. -/
theorem verification_snapshot_sample : ∃ snapshot,
    (checkedStore 9).loadVerificationSnapshot (tableDigests checkedTable) "step-x" =
        .ok (some snapshot) ∧
      ((checkedStore 9).runStore (tableDigests checkedTable)
        checkedProtocol).loadVerificationSnapshot "step-x" = .ok (some snapshot) ∧
      snapshot.effectStartedAt = some "2026-01-01T00:00:00Z" ∧
      snapshot.previousReceiptDigest = none := by
  have hloaded : ((checkedStore 9).loadVerificationSnapshot (tableDigests checkedTable)
      "step-x").value?.any (fun loaded => loaded.any fun snapshot =>
        snapshot.effectStartedAt = some "2026-01-01T00:00:00Z" &&
          snapshot.previousReceiptDigest = none) = true := by
    decide +kernel
  obtain ⟨loaded, hfound, hany⟩ := Outcome.exists_ok_of_any hloaded
  obtain ⟨snapshot, rfl, hfields⟩ := (Option.any_eq_true _ _).mp hany
  obtain ⟨other, hoverride, hdefault⟩ :=
    verification_snapshot_agrees (checkedStore_reached 9) "step-x"
  obtain rfl := Except.ok.inj (hfound.symm.trans hoverride)
  simp only [Bool.and_eq_true, decide_eq_true_eq] at hfields
  exact ⟨snapshot, hfound, hdefault, hfields⟩

end Xgeny
