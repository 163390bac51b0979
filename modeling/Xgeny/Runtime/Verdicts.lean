import Xgeny.Runtime.World

set_option autoImplicit false

/-!
# The verdicts of an append

An append compares heads and asks the reducer in `prepare_commit` and nowhere else. An answer that
no fault can cause is therefore the verdict of `prepare_commit` on the store at that moment.

* `Verdict`: an error that only `prepare_commit` gives;
* `avoids_verdict_*`: the checks of the bundles and of the candidates give none;
* **`call_verdict`**: a verdict of an append is that of `prepare_commit`;
* `head_of_conflict`, `refused_of_transition`: what follows for the two kinds that matter.
-/

namespace Xgeny

open Outcome

/-- An error that only `prepare_commit` gives. -/
def Verdict (error : StoreError) : Prop := error.mayBeFault = false

variable {D : Digests} {P : Protocol}

/-! ## Checks without a verdict -/

section Checks

variable {event : RunEvent} {index : VerifiedRunIndex} {record : EventRecord}

theorem avoids_verdict_planInputs {inputs : Option (List PlannedInvocationMaterialRecord)} :
    Avoids Verdict (verifyPlanInputBundle D event inputs) := by
  unfold verifyPlanInputBundle
  split
  · rename_i decision steps inputs hbody
    have hinputs : Avoids Verdict (inputsByStep inputs) :=
      avoids_foldl (fun byStep input => by
        simp [BTreeMap.insertNew, Verdict, StoreError.mayBeFault]) _ _
    have hsteps : ∀ byStep : BTreeMap String PlannedInvocationMaterialRecord,
        Avoids Verdict (Outcome.forEach steps fun step => do
          let input ← Outcome.okOr byStep[step.stepId]? (.plannedInvocationInputMissing step.stepId)
          (input.verifyFor D event.runId step.stepId step.invocation).mapErr .planningContract) :=
      fun byStep => avoids_forEach fun step => by
        simp [avoids_mapErr, Verdict, StoreError.mayBeFault]
    simp [hinputs, hsteps, Verdict, StoreError.mayBeFault]
  all_goals simp [Verdict, StoreError.mayBeFault]

theorem avoids_verdict_intentProfiles {intent : EffectIntent} :
    Avoids Verdict (verifyIntentProfiles intent) := by
  simp [verifyIntentProfiles, Verdict, StoreError.mayBeFault]

theorem avoids_verdict_material {material : Option InvocationMaterialRecord} :
    Avoids Verdict (verifyMaterialBundle D event material) := by
  unfold verifyMaterialBundle
  split <;>
    simp [avoids_verdict_intentProfiles, avoids_mapErr, Verdict, StoreError.mayBeFault]

theorem avoids_verdict_receipt {receipt : Option ExecutionReceiptBody} :
    Avoids Verdict (verifyReceiptBundle D P event receipt) := by
  unfold verifyReceiptBundle
  split <;> simp [avoids_mapErr, Verdict, StoreError.mayBeFault]

theorem avoids_verdict_output {output : Option ToolOutputRecord} :
    Avoids Verdict (verifyToolOutputBundle event output) := by
  unfold verifyToolOutputBundle
  split <;> simp [Verdict, StoreError.mayBeFault]

theorem avoids_verdict_completionOutput {output : Option CompletionOutputRecord} :
    Avoids Verdict (verifyCompletionOutputBundle event output) := by
  unfold verifyCompletionOutputBundle
  split <;> simp [Verdict, StoreError.mayBeFault]

theorem avoids_verdict_sidecars {sidecars : CommitSidecars} :
    Avoids Verdict (verifyCommitSidecars D P event sidecars) := by
  simp only [verifyCommitSidecars, avoids_bind, avoids_verdict_planInputs,
    avoids_verdict_material, avoids_verdict_receipt, avoids_verdict_output,
    avoids_verdict_completionOutput, implies_true, and_self]

theorem avoids_verdict_retention {material : InvocationMaterialRecord}
    {input : Option PlannedInvocationMaterialRecord} :
    Avoids Verdict (verifyPlannedMaterialRetention D index event material input) := by
  unfold verifyPlannedMaterialRetention
  split
  · split <;> simp [avoids_mapErr, Verdict, StoreError.mayBeFault]
  · exact avoids_pure

theorem avoids_verdict_toolOutputCandidate {output : ToolOutputRecord} :
    Avoids Verdict (verifyToolOutputCandidate D index record output) := by
  have hanchor : Avoids Verdict (index.toolOutputAnchorFor record) := by
    unfold VerifiedRunIndex.toolOutputAnchorFor
    split <;> simp [Verdict, StoreError.mayBeFault]
  simp [verifyToolOutputCandidate, hanchor, avoids_mapErr, Verdict, StoreError.mayBeFault]

theorem avoids_verdict_completionOutputCandidate {output : CompletionOutputRecord} :
    Avoids Verdict (verifyCompletionOutputCandidate D index record output) := by
  have hanchor : Avoids Verdict (completionOutputAnchorFor record) := by
    unfold completionOutputAnchorFor
    split <;> simp [Verdict, StoreError.mayBeFault]
  simp [verifyCompletionOutputCandidate, completionAnchorDecision, hanchor, avoids_mapErr, Verdict,
    StoreError.mayBeFault]

theorem avoids_verdict_receiptIntentBinding {receipt : ExecutionReceiptBody} {intent : EffectIntent}
    {provenance : ReceiptProvenance} {disposition : VerificationDisposition} :
    Avoids Verdict (verifyReceiptIntentBinding receipt intent provenance disposition) := by
  have hartifacts : Avoids Verdict (verifyCoreReceiptArtifacts receipt intent provenance) := by
    unfold verifyCoreReceiptArtifacts
    split
    · simp [Verdict, StoreError.mayBeFault]
    · split
      · have hloop : Avoids Verdict
            (Outcome.foldl (verifyCoreReceiptArtifact receipt) (∅, 0) receipt.artifacts) :=
          avoids_foldl (fun seen artifact => by
            simp [verifyCoreReceiptArtifact, Verdict, StoreError.mayBeFault]) _ _
        simp [hloop, Verdict, StoreError.mayBeFault]
      · simp [Verdict, StoreError.mayBeFault]
  simp only [verifyReceiptIntentBinding, avoids_bind, hartifacts, true_and]
  -- the rules of the receipt are checked one by one
  simp [Verdict, StoreError.mayBeFault, avoids_forEach]

theorem avoids_verdict_receiptCandidate {receipt : ExecutionReceiptBody} :
    Avoids Verdict (verifyReceiptCandidate P index record receipt) := by
  have hanchor : Avoids Verdict (index.receiptAnchorFor record) := by
    unfold VerifiedRunIndex.receiptAnchorFor
    split <;> simp [Verdict, StoreError.mayBeFault]
  have houtput : ∀ effectId, Avoids Verdict (verifyReceiptToolOutputBinding index effectId receipt) := by
    intro effectId
    simp only [verifyReceiptToolOutputBinding, avoids_bind, avoids_okOr]
    refine ⟨fun _ => by simp [Verdict, StoreError.mayBeFault], fun anchor _ => ?_⟩
    split <;> (try split) <;> simp [Verdict, StoreError.mayBeFault]
  have htimestamps : ∀ anchor, Avoids Verdict (verifyReceiptTimestamps P anchor receipt) := by
    simp [verifyReceiptTimestamps, Verdict, StoreError.mayBeFault]
  simp [verifyReceiptCandidate, hanchor, houtput, htimestamps, avoids_verdict_receiptIntentBinding,
    Verdict, StoreError.mayBeFault]

theorem avoids_verdict_applyCommitted {commit : Commit} {sidecars : CommitSidecars}
    {anchors : CommitAnchors} : Avoids Verdict (index.applyCommitted commit sidecars anchors) := by
  have hevent : ∀ index : VerifiedRunIndex,
      Avoids Verdict (index.applyCommittedEvent commit.record anchors) := by
    intro index
    unfold VerifiedRunIndex.applyCommittedEvent
    split <;> simp
  simp [VerifiedRunIndex.applyCommitted, hevent]

end Checks

/-! ## Verdicts -/

variable {store : MemoryRunStore} {call : AppendCall} {error : StoreError}

theorem middle_error {ε α β γ : Type} {bad : ε → Prop} {e : ε} {x : Outcome ε α}
    {y : Outcome ε β} {f : β → Outcome ε γ} (h : (x >>= fun _ => y >>= f) = .error (.err e))
    (hbad : bad e) (hx : Avoids bad x) (hf : ∀ b, Avoids bad (f b)) : y = .error (.err e) := by
  rcases bind_eq_error.mp h with hfirst | ⟨_, _, hrest⟩
  · exact absurd hbad (hx e hfirst)
  · rcases bind_eq_error.mp hrest with hmiddle | ⟨b, _, hlast⟩
    · exact hmiddle
    · exact absurd hbad (hf b e hlast)

/-- **A verdict of an append is that of `prepare_commit`.** -/
theorem call_verdict (h : store.call D P call = .error (.err error)) (hverdict : Verdict error) :
    prepareCommit D store.index call.expected call.event = .error (.err error) := by
  cases call with
  | append =>
    refine middle_error h hverdict avoids_verdict_sidecars fun commit => ?_
    simp [avoids_verdict_applyCommitted]
  | withPlanInputs expected event inputs =>
    refine middle_error h hverdict avoids_verdict_sidecars fun commit => ?_
    have hfresh : Avoids Verdict (Outcome.forEach inputs fun input =>
        Outcome.failIf (input.stepId ∈ store.index.planInputStepIds ∨
          input.stepId ∈ store.planInputs)
          (.corrupt "duplicate planned invocation input Step ID")) :=
      avoids_forEach fun input => by simp [Verdict, StoreError.mayBeFault]
    simp only [avoids_bind, hfresh, avoids_verdict_applyCommitted, avoids_pure, implies_true,
      and_self]
  | withInvocationMaterial =>
    rcases bind_eq_error.mp h with hfirst | ⟨_, _, hrest⟩
    · exact absurd hverdict (avoids_verdict_sidecars _ hfirst)
    · refine middle_error hrest hverdict avoids_verdict_retention fun commit => ?_
      simp only [avoids_bind, avoids_failIf]
      refine ⟨fun _ => by simp [Verdict, StoreError.mayBeFault], fun _ _ => ?_⟩
      split <;> simp [avoids_verdict_applyCommitted]
  | withExecutionReceipt =>
    refine middle_error h hverdict avoids_verdict_sidecars fun commit => ?_
    simp only [avoids_bind, avoids_verdict_receiptCandidate, true_and]
    intro anchor _
    split <;> simp [avoids_verdict_applyCommitted]
  | withToolOutput =>
    refine middle_error h hverdict avoids_verdict_sidecars fun commit => ?_
    simp only [avoids_bind, avoids_verdict_toolOutputCandidate, avoids_failIf, true_and]
    intro anchor _
    refine ⟨fun _ => by simp [Verdict, StoreError.mayBeFault], fun _ _ => ?_⟩
    split <;> simp [avoids_verdict_applyCommitted]
  | withCompletionOutput =>
    refine middle_error h hverdict avoids_verdict_sidecars fun commit => ?_
    simp [avoids_verdict_completionOutputCandidate, avoids_verdict_applyCommitted, Verdict,
      StoreError.mayBeFault]

theorem prepareCommit_eq_error {index : VerifiedRunIndex} {expected : ExpectedHead} {event : RunEvent}
    (h : prepareCommit D index expected event = .error (.err error)) :
    (expected ≠ index.head ∧ error = .headConflict expected index.head) ∨
      expected = index.head ∧
        (error = .duplicateEventId event.eventId ∨ (∃ cause, error = .record cause) ∨
          ∃ record cause, EventRecord.next D index.lastRecord event = .ok record ∧
            applyRecord D index.state record = .error (.err cause) ∧ error = .transition cause) := by
  simp only [prepareCommit, bind_eq_error, failIf_eq_error, mapErr_eq_err, failIf_eq_ok,
    mapErr_eq_ok, exists_unit, Fault.err.injEq, ne_eq, Decidable.not_not] at h
  rcases h with ⟨hhead, rfl⟩ | ⟨hhead, hrest⟩
  · exact Or.inl ⟨hhead, rfl⟩
  · refine Or.inr ⟨hhead, ?_⟩
    rcases hrest with ⟨_, rfl⟩ | ⟨_, ⟨cause, _, rfl⟩ | ⟨record, hnext, hstate⟩⟩
    · exact Or.inl rfl
    · exact Or.inr (Or.inl ⟨cause, rfl⟩)
    · rcases hstate with ⟨cause, happly, rfl⟩ | ⟨_, _, hpure⟩
      · exact Or.inr (Or.inr ⟨record, cause, hnext, happly, rfl⟩)
      · cases hpure

theorem head_of_conflict {expected actual : ExpectedHead}
    (h : store.call D P call = .error (.err (.headConflict expected actual))) :
    call.expected ≠ store.index.head := by
  rcases prepareCommit_eq_error (call_verdict h rfl) with ⟨hhead, _⟩ | ⟨_, hother⟩
  · exact hhead
  · simp at hother

/-- **The reducer refuses an append only on the head that the append expects.** -/
theorem refused_of_transition {cause : TransitionError}
    (h : store.call D P call = .error (.err (.transition cause))) :
    call.expected = store.index.head ∧
      ∃ record, EventRecord.next D store.index.lastRecord call.event = .ok record ∧
        applyRecord D store.index.state record = .error (.err cause) := by
  rcases prepareCommit_eq_error (call_verdict h rfl) with ⟨_, hother⟩ | ⟨hhead, hcases⟩
  · simp at hother
  · rcases hcases with hother | ⟨_, hother⟩ | ⟨record, cause', hnext, happly, hsame⟩
    · simp at hother
    · simp at hother
    · obtain rfl := StoreError.transition.inj hsame
      exact ⟨hhead, record, hnext, happly⟩

end Xgeny
