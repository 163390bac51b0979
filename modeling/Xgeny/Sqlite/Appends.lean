import Xgeny.Sqlite.Commits

set_option autoImplicit false

/-!
# One append for both stores

The six appends of the memory store make the same checks in the same order, with a few more that
never fail on a store that appends have filled. Read as one append they are the append of the SQLite
store, up to what the database does.

* `MemoryRunStore.verifyCandidate`, `MemoryRunStore.appendInternal`: the six appends as one;
* **`MemoryRunStore.call_eq`**: they are;
* `Mirrors.verifyCandidate`: the checks of the SQLite store are the same;
* `Accepted.of_candidate`, `Accepted.namesStep`: what the checks establish.
-/

namespace Xgeny

section

variable (D : Digests) (P : Protocol)

/-- The checks of an append after those of its bundle. -/
def MemoryRunStore.verifyCandidate (self : MemoryRunStore) (expected : ExpectedHead)
    (event : RunEvent) (sidecars : CommitSidecars) : Outcome StoreError (Commit × CommitAnchors) := do
  Outcome.whenSome sidecars.material fun material =>
    verifyPlannedMaterialRetention D self.index event material (self.plannedInput event)
  let commit ← prepareCommit D self.index expected event
  Outcome.whenSome sidecars.material fun material =>
    Outcome.failIf (material.effectId ∈ self.index.materialEffectIds)
      (.corrupt "duplicate invocation material effect ID")
  Outcome.whenSome sidecars.planInputs fun inputs =>
    Outcome.failIf (∃ input ∈ inputs, input.stepId ∈ self.index.planInputStepIds)
      (.corrupt "duplicate planned invocation input Step ID")
  let receipt ← Outcome.mapSome sidecars.receipt (verifyReceiptCandidate P self.index commit.record)
  let output ← Outcome.mapSome sidecars.output (verifyToolOutputCandidate D self.index commit.record)
  let completionOutput ← Outcome.mapSome sidecars.completionOutput
    (verifyCompletionOutputCandidate D self.index commit.record)
  pure (commit, { output := output, completionOutput := completionOutput, receipt := receipt })

/-- The six appends as one. -/
def MemoryRunStore.appendInternal (self : MemoryRunStore) (expected : ExpectedHead)
    (event : RunEvent) (sidecars : CommitSidecars) : Outcome StoreError (Commit × MemoryRunStore) := do
  verifyCommitSidecars D P event sidecars
  let (commit, anchors) ← self.verifyCandidate D P expected event sidecars
  let index ← self.index.applyCommitted commit sidecars anchors
  pure (commit, { toRunData := self.toRunData.commit commit sidecars, index := index })

end

variable {C : StoreCodecs} {D : Digests} {P : Protocol} {self : MemoryRunStore}
  {expected : ExpectedHead} {event : RunEvent} {sidecars : CommitSidecars}

/-! ## The six appends -/

theorem append_eq : self.append D P expected event = self.appendInternal D P expected event {} := by
  simp only [MemoryRunStore.append, MemoryRunStore.appendInternal, MemoryRunStore.verifyCandidate,
    Outcome.whenSome, Outcome.mapSome_none, bind_assoc, pure_bind]
  rfl

theorem appendWithPlanInputs_eq (hcoherent : Coherent D P self.toRunData self.index)
    (inputs : List PlannedInvocationMaterialRecord) :
    self.appendWithPlanInputs D P expected event inputs =
      self.appendInternal D P expected event { planInputs := some inputs } := by
  have hkeys : ∀ input : PlannedInvocationMaterialRecord,
      (input.stepId ∈ self.index.planInputStepIds ∨ input.stepId ∈ self.planInputs) ↔
        input.stepId ∈ self.index.planInputStepIds := fun input => by
    rw [hcoherent.plan.keys, or_self]
  simp only [MemoryRunStore.appendWithPlanInputs, MemoryRunStore.appendInternal,
    MemoryRunStore.verifyCandidate, Outcome.whenSome, Outcome.mapSome_none,
    bind_assoc, pure_bind,
    Outcome.forEach_failIf, hkeys]
  rfl

theorem appendWithInvocationMaterial_eq (material : InvocationMaterialRecord) :
    self.appendWithInvocationMaterial D P expected event material =
      self.appendInternal D P expected event { material := some material } := by
  simp only [MemoryRunStore.appendWithInvocationMaterial, MemoryRunStore.appendInternal,
    MemoryRunStore.verifyCandidate, Outcome.whenSome, Outcome.mapSome_none,
    bind_assoc, pure_bind]
  refine Outcome.bind_congr fun _ hbundle => Outcome.bind_congr fun _ _ =>
    Outcome.bind_congr fun commit hprepare => Outcome.bind_congr fun _ _ => ?_
  -- the bundle names the effect under which the material is stored
  have hmaterial : verifyMaterialBundle D event (some material) = .ok () := by
    simp only [verifyCommitSidecars, Outcome.bind_eq_ok, Outcome.exists_unit] at hbundle
    exact hbundle.2.1
  obtain ⟨stepId, intent, _, hbody, hgiven, hverify⟩ :=
    (verifyMaterialBundle_eq_ok hmaterial).resolve_left (by simp)
  obtain rfl := Option.some.inj hgiven
  have heffect := InvocationMaterialRecord.verifyFor_effectId hverify
  simp only [(prepareCommit_eq_ok hprepare).2.carries, hbody, ← heffect,
    Std.ExtTreeMap.getElem?_insert_self]
  rfl

theorem appendWithExecutionReceipt_eq (receipt : ExecutionReceiptBody) :
    self.appendWithExecutionReceipt D P expected event receipt =
      self.appendInternal D P expected event { receipt := some receipt } := by
  simp only [MemoryRunStore.appendWithExecutionReceipt, MemoryRunStore.appendInternal,
    MemoryRunStore.verifyCandidate, Outcome.whenSome, Outcome.mapSome_none, Outcome.mapSome_some,
    bind_assoc, pure_bind, bind_map_left]
  refine Outcome.bind_congr fun _ hbundle => Outcome.bind_congr fun commit hprepare =>
    Outcome.bind_congr fun anchor _ => ?_
  have hreceipt : verifyReceiptBundle D P event (some receipt) = .ok () := by
    simp only [verifyCommitSidecars, Outcome.bind_eq_ok, Outcome.exists_unit] at hbundle
    exact hbundle.2.2.1
  obtain ⟨stepId, effectId, disposition, receiptId, receiptDigest, _, hbody, _⟩ :=
    (verifyReceiptBundle_eq_ok hreceipt).resolve_left (by simp)
  simp only [(prepareCommit_eq_ok hprepare).2.carries, hbody, RunData.commit,
    RunEventBody.receiptEffect]
  rfl

theorem appendWithToolOutput_eq (hcoherent : Coherent D P self.toRunData self.index)
    (output : ToolOutputRecord) :
    self.appendWithToolOutput D P expected event output =
      self.appendInternal D P expected event { output := some output } := by
  simp only [MemoryRunStore.appendWithToolOutput, MemoryRunStore.appendInternal,
    MemoryRunStore.verifyCandidate, Outcome.whenSome, Outcome.mapSome_none, Outcome.mapSome_some,
    bind_assoc, pure_bind, bind_map_left]
  refine Outcome.bind_congr fun _ hbundle => Outcome.bind_congr fun commit hprepare =>
    Outcome.bind_congr fun anchor hcandidate => ?_
  have houtput : verifyToolOutputBundle event (some output) = .ok () := by
    simp only [verifyCommitSidecars, Outcome.bind_eq_ok, Outcome.exists_unit] at hbundle
    exact hbundle.2.2.2.1
  obtain ⟨stepId, effectId, evidence, given, hbody, hgiven⟩ :=
    (verifyToolOutputBundle_eq_ok houtput).resolve_left (by simp)
  obtain rfl := Option.some.inj hgiven
  -- an output that passes its checks is new
  have hcarried := (prepareCommit_eq_ok hprepare).2.carries
  obtain ⟨heffect, _, hanchor, _⟩ :=
    toolOutputCandidate_names hcoherent.journal (hcarried ▸ hbody) hcandidate
  obtain ⟨_, hfresh, _⟩ := verifyToolOutputCandidate_eq_ok hcandidate
  have hnew : output.effectId ∉ self.outputs := by
    rw [hcoherent.output.stored, heffect, ← hanchor]
    exact hfresh
  simp only [hcarried, hbody, ← heffect, Std.ExtTreeMap.getElem?_insert_self,
    Outcome.failIf, if_neg hnew]
  rfl

theorem appendWithCompletionOutput_eq (hcoherent : Coherent D P self.toRunData self.index)
    (output : CompletionOutputRecord) :
    self.appendWithCompletionOutput D P expected event output =
      self.appendInternal D P expected event { completionOutput := some output } := by
  simp only [MemoryRunStore.appendWithCompletionOutput, MemoryRunStore.appendInternal,
    MemoryRunStore.verifyCandidate, Outcome.whenSome, Outcome.mapSome_none, Outcome.mapSome_some,
    bind_assoc, pure_bind, bind_map_left]
  refine Outcome.bind_congr fun _ _ => Outcome.bind_congr fun commit _ =>
    Outcome.bind_congr fun anchor hcandidate => ?_
  -- the index knows of an output that is stored
  obtain ⟨hfirst, _⟩ := verifyCompletionOutputCandidate_eq_ok hcandidate
  have hempty : self.completionOutput = none := by
    have hcompletion := hcoherent.completion
    unfold verifyCompletionOutputRecord at hcompletion
    rw [hfirst] at hcompletion
    cases hstored : self.completionOutput with
    | none => rfl
    | some stored => simp [hstored] at hcompletion
  simp only [hempty, Outcome.failIf]
  rfl

/-- **The six appends are one** on a coherent store. -/
theorem MemoryRunStore.call_eq (hcoherent : Coherent D P self.toRunData self.index)
    (call : AppendCall) :
    self.call D P call = self.appendInternal D P call.expected call.event call.sidecars := by
  cases call with
  | append => exact append_eq
  | withPlanInputs expected event inputs => exact appendWithPlanInputs_eq hcoherent inputs
  | withInvocationMaterial expected event material => exact appendWithInvocationMaterial_eq material
  | withExecutionReceipt expected event receipt => exact appendWithExecutionReceipt_eq receipt
  | withToolOutput expected event output => exact appendWithToolOutput_eq hcoherent output
  | withCompletionOutput expected event output => exact appendWithCompletionOutput_eq hcoherent output

/-! ## The checks -/

/-- **Both stores make the same checks.** -/
theorem Mirrors.verifyCandidate {db : Database} (h : Mirrors C self.toRunData self.index db) :
    Xgeny.verifyCandidate C D P db self.index expected event sidecars =
      self.verifyCandidate D P expected event sidecars := by
  have hinput : loadPlannedInput C db event = .ok (self.plannedInput event) := by
    unfold loadPlannedInput RunData.plannedInput
    cases event.body with
    | effectIntentCommitted stepId intent => exact h.loadPlannedInvocation stepId
    | _ => rfl
  simp only [Xgeny.verifyCandidate, MemoryRunStore.verifyCandidate, hinput]
  rfl

variable {commit : Commit} {anchors : CommitAnchors}

theorem Accepted.of_candidate (hbundle : verifyCommitSidecars D P event sidecars = .ok ())
    (h : self.verifyCandidate D P expected event sidecars = .ok (commit, anchors)) :
    Accepted D P self.index commit.record.event sidecars anchors commit := by
  simp only [MemoryRunStore.verifyCandidate, Outcome.bind_eq_ok, Outcome.exists_unit,
    Outcome.whenSome_eq_ok, Outcome.failIf_eq_ok, Outcome.pure_eq_ok, Prod.mk.injEq] at h
  obtain ⟨-, _, hprepare, hmaterial, hinputs, receipt, hreceipt, output, houtput, completion,
    hcompletion, rfl, rfl⟩ := h
  obtain ⟨-, hp⟩ := prepareCommit_eq_ok hprepare
  obtain rfl := hp.carries
  refine ⟨hbundle, hp, ?_, hmaterial, ?_, ?_, ?_⟩
  · intro inputs hgiven input hinput hin
    exact hinputs inputs hgiven ⟨input, hinput, hin⟩
  · exact fun _ hgiven => Outcome.mapSome_eq_ok houtput hgiven
  · exact fun _ hgiven => Outcome.mapSome_eq_ok hcompletion hgiven
  · exact fun _ hgiven => Outcome.mapSome_eq_ok hreceipt hgiven

theorem Accepted.namesStep (hcoherent : Coherent D P self.toRunData self.index)
    (h : Accepted D P self.index commit.record.event sidecars anchors commit) :
    NamesStep commit sidecars where
  output := by
    intro output houtput
    have hbundle := h.bundles.2.2.2.1
    rw [houtput] at hbundle
    obtain ⟨stepId, effectId, evidence, given, hbody, hgiven⟩ :=
      (verifyToolOutputBundle_eq_ok hbundle).resolve_left (by simp)
    obtain rfl := Option.some.inj hgiven
    obtain ⟨anchor, _, hcandidate⟩ := h.output output houtput
    obtain ⟨_, hstep, _⟩ := toolOutputCandidate_names hcoherent.journal hbody hcandidate
    exact ⟨effectId, evidence, _, by rw [hstep]; exact hbody⟩
  receipt := by
    intro receipt hreceipt
    have hbundle := h.bundles.2.2.1
    rw [hreceipt] at hbundle
    unfold verifyReceiptBundle at hbundle
    split at hbundle
    · rename_i stepId effectId disposition receiptId receiptDigest given hbody hgiven
      obtain rfl := Option.some.inj hgiven
      simp only [Outcome.bind_eq_ok, Outcome.exists_unit, Outcome.failIf_eq_ok, not_or, ne_eq,
        Decidable.not_not] at hbundle
      exact ⟨effectId, disposition, receiptId, receiptDigest, by rw [hbundle.2.2.1]; exact hbody⟩
    all_goals simp_all

end Xgeny
