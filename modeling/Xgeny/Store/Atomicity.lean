import Xgeny.Lib.Mutation
import Xgeny.Store.Refinement

set_option autoImplicit false

/-!
# Appends are atomic

The appends of the memory store as methods that change the store one field at a time, in the order of
the source. An append checks everything before its first write, so an error leaves the store as it
was, and a success adds one record and the sidecars that the event requires.

* `MemoryRunStore.perform`: a call of an append method, with its writes;
* `perform_eq_ok_iff`: the methods compute what the appends of the model say;
* `ReachedStore`: the stores that calls lead to;
* `Appended`: one more record and the required sidecars, nothing else;
* **`append_atomicity`**: all or nothing.
-/

namespace Xgeny

open Mutation

section

variable (D : Digests) (P : Protocol)

/-! ## The methods -/

/-- `&mut self` methods of the memory store. -/
abbrev StoreMethod := Mutation MemoryRunStore StoreError

namespace MemoryRunStore

/-- The record and the projection of a commit, which every append writes first. -/
def pushRecord (commit : Commit) : StoreMethod Unit := do
  writes fun self => { self with records := self.records ++ [commit.record] }
  writes fun self => { self with projection := some commit.state }

/-- `self.index.apply_committed(..)`. -/
def applyCommitted (commit : Commit) (sidecars : CommitSidecars) (anchors : CommitAnchors) :
    StoreMethod Unit := do
  let index ← reads fun self => self.index.applyCommitted commit sidecars anchors
  writes fun self => { self with index := index }

def performAppend (expected : ExpectedHead) (event : RunEvent) : StoreMethod Commit := do
  reads fun _ => verifyCommitSidecars D P event {}
  let commit ← reads fun self => prepareCommit D self.index expected event
  pushRecord commit
  applyCommitted commit {} {}
  pure commit

def performWithPlanInputs (expected : ExpectedHead) (event : RunEvent)
    (inputs : List PlannedInvocationMaterialRecord) : StoreMethod Commit := do
  reads fun _ => verifyCommitSidecars D P event { planInputs := some inputs }
  let commit ← reads fun self => prepareCommit D self.index expected event
  reads fun self => Outcome.forEach inputs fun input =>
    Outcome.failIf (input.stepId ∈ self.index.planInputStepIds ∨ input.stepId ∈ self.planInputs)
      (.corrupt "duplicate planned invocation input Step ID")
  pushRecord commit
  writes fun self => { self with planInputs := insertPlanInputs self.planInputs inputs }
  applyCommitted commit { planInputs := some inputs } {}
  pure commit

/-- The effect whose material is looked up again after it was stored. -/
def materialEffect (event : RunEvent) : Outcome StoreError String :=
  match event.body with
  | .effectIntentCommitted _ intent => pure intent.effectId
  | _ => Outcome.abort "material bundle requires an effect intent"

def performWithInvocationMaterial (expected : ExpectedHead) (event : RunEvent)
    (material : InvocationMaterialRecord) : StoreMethod Commit := do
  reads fun _ => verifyCommitSidecars D P event { material := some material }
  reads fun self =>
    verifyPlannedMaterialRetention D self.index event material (self.plannedInput event)
  let commit ← reads fun self => prepareCommit D self.index expected event
  reads fun self => Outcome.failIf (material.effectId ∈ self.index.materialEffectIds)
    (.corrupt "duplicate invocation material effect ID")
  pushRecord commit
  writes fun self => { self with materials := self.materials.insert material.effectId material }
  let effectId ← reads fun _ => materialEffect commit.record.event
  let material ← reads fun self =>
    Outcome.expect self.materials[effectId]? "committed material must be indexed"
  applyCommitted commit { material := some material } {}
  pure commit

/-- The effect of the receipt that is about to be stored. -/
def receiptEffect (event : RunEvent) : Outcome StoreError String :=
  match event.body with
  | .verificationRecorded _ effectId _ _ _ => pure effectId
  | _ => Outcome.abort "receipt bundle validation requires a finalization event"

def performWithExecutionReceipt (expected : ExpectedHead) (event : RunEvent)
    (receipt : ExecutionReceiptBody) : StoreMethod Commit := do
  reads fun _ => verifyCommitSidecars D P event { receipt := some receipt }
  let commit ← reads fun self => prepareCommit D self.index expected event
  let anchor ← reads fun self => verifyReceiptCandidate P self.index commit.record receipt
  let effectId ← reads fun _ => receiptEffect commit.record.event
  let stored : StoredExecutionReceipt :=
    { eventSequence := commit.record.sequence, effectId := effectId, receipt := receipt }
  pushRecord commit
  writes fun self => { self with receipts := self.receipts ++ [stored] }
  let last ← reads fun self =>
    Outcome.expect self.receipts.getLast? "committed receipt must be retained"
  applyCommitted commit { receipt := some last.receipt } { receipt := some anchor }
  pure commit

/-- The effect whose output is looked up again after it was stored. -/
def outputEffect (event : RunEvent) : Outcome StoreError String :=
  match event.body with
  | .effectSucceeded _ effectId _ _ => pure effectId
  | _ => Outcome.abort "tool-output bundle requires a success event"

def performWithToolOutput (expected : ExpectedHead) (event : RunEvent) (output : ToolOutputRecord) :
    StoreMethod Commit := do
  reads fun _ => verifyCommitSidecars D P event { output := some output }
  let commit ← reads fun self => prepareCommit D self.index expected event
  let anchor ← reads fun self => verifyToolOutputCandidate D self.index commit.record output
  reads fun self => Outcome.failIf (output.effectId ∈ self.outputs)
    (.corrupt "duplicate tool output effect ID")
  pushRecord commit
  writes fun self => { self with
    outputs := self.outputs.insert output.effectId
      { eventSequence := commit.record.sequence, record := output } }
  let effectId ← reads fun _ => outputEffect commit.record.event
  let stored ← reads fun self =>
    Outcome.expect self.outputs[effectId]? "committed tool output must be retained"
  applyCommitted commit { output := some stored.record } { output := some anchor }
  pure commit

def performWithCompletionOutput (expected : ExpectedHead) (event : RunEvent)
    (output : CompletionOutputRecord) : StoreMethod Commit := do
  reads fun _ => verifyCommitSidecars D P event { completionOutput := some output }
  let commit ← reads fun self => prepareCommit D self.index expected event
  let anchor ← reads fun self => verifyCompletionOutputCandidate D self.index commit.record output
  reads fun self => Outcome.failIf (self.completionOutput.isSome = true)
    (.corrupt "duplicate completion output")
  pushRecord commit
  writes fun self => { self with
    completionOutput := some { eventSequence := commit.record.sequence, record := output } }
  let stored ← reads fun self =>
    Outcome.expect self.completionOutput "committed completion output must be retained"
  applyCommitted commit { completionOutput := some stored.record }
    { completionOutput := some anchor }
  pure commit

/-- A call of an append method. -/
def perform : AppendCall → StoreMethod Commit
  | .append expected event => performAppend D P expected event
  | .withPlanInputs expected event inputs => performWithPlanInputs D P expected event inputs
  | .withInvocationMaterial expected event material =>
    performWithInvocationMaterial D P expected event material
  | .withExecutionReceipt expected event receipt =>
    performWithExecutionReceipt D P expected event receipt
  | .withToolOutput expected event output => performWithToolOutput D P expected event output
  | .withCompletionOutput expected event output =>
    performWithCompletionOutput D P expected event output

end MemoryRunStore

end

variable {D : Digests} {P : Protocol}

/-! ## The methods compute the appends -/

theorem perform_eq_ok_iff {store store' : MemoryRunStore} {call : AppendCall} {commit : Commit} :
    MemoryRunStore.perform D P call store = (.ok commit, store') ↔
      store.call D P call = .ok (commit, store') := by
  cases call with
  | append =>
    simp only [MemoryRunStore.perform, MemoryRunStore.performAppend, MemoryRunStore.pushRecord,
      MemoryRunStore.applyCommitted, MemoryRunStore.call, MemoryRunStore.append,
      Mutation.bind_eq_ok, reads_eq_ok, writes_eq_ok, Mutation.pure_eq_ok, Outcome.bind_eq_ok,
      Outcome.pure_eq_ok, Outcome.exists_unit, Prod.mk.injEq, exists_and_left, exists_eq_left',
      and_assoc, exists_eq_right_right]
    constructor
    · rintro ⟨hbundle, hprepare, index, hindex, rfl⟩
      exact ⟨hbundle, _, hprepare, index, hindex, rfl, rfl⟩
    · rintro ⟨hbundle, prepared, hprepare, index, hindex, rfl, rfl⟩
      exact ⟨hbundle, hprepare, index, hindex, rfl⟩
  | withPlanInputs =>
    simp only [MemoryRunStore.perform, MemoryRunStore.performWithPlanInputs,
      MemoryRunStore.pushRecord, MemoryRunStore.applyCommitted, MemoryRunStore.call,
      MemoryRunStore.appendWithPlanInputs, Mutation.bind_eq_ok, reads_eq_ok, writes_eq_ok,
      Mutation.pure_eq_ok, Outcome.bind_eq_ok, Outcome.pure_eq_ok, Outcome.exists_unit,
      Prod.mk.injEq, exists_and_left, exists_eq_left', and_assoc, exists_eq_right_right]
    constructor
    · rintro ⟨hbundle, prepared, hprepare, hnew, ⟨index, hindex, rfl⟩, rfl⟩
      exact ⟨hbundle, prepared, hprepare, hnew, index, hindex, rfl, rfl⟩
    · rintro ⟨hbundle, prepared, hprepare, hnew, index, hindex, rfl, rfl⟩
      exact ⟨hbundle, prepared, hprepare, hnew, ⟨index, hindex, rfl⟩, rfl⟩
  | withInvocationMaterial =>
    simp only [MemoryRunStore.perform, MemoryRunStore.performWithInvocationMaterial,
      MemoryRunStore.pushRecord, MemoryRunStore.applyCommitted, MemoryRunStore.call,
      MemoryRunStore.appendWithInvocationMaterial, Mutation.bind_eq_ok, reads_eq_ok, writes_eq_ok,
      Mutation.pure_eq_ok, Outcome.bind_eq_ok, Outcome.exists_unit, exists_and_left,
      exists_eq_left', and_assoc]
    refine and_congr_right' (and_congr_right' (exists_congr fun prepared => ?_))
    refine and_congr_right' (and_congr_right' ?_)
    cases hbody : prepared.record.event.body with
    | effectIntentCommitted stepId intent =>
      simp only [MemoryRunStore.materialEffect, hbody, Outcome.bind_eq_ok, Outcome.pure_eq_ok, exists_eq_left', Prod.mk.injEq]
      constructor
      · rintro ⟨stored, hstored, _, ⟨index, hindex, rfl⟩, rfl, rfl⟩
        exact ⟨stored, hstored, index, hindex, rfl, rfl⟩
      · rintro ⟨stored, hstored, index, hindex, rfl, rfl⟩
        exact ⟨stored, hstored, _, ⟨index, hindex, rfl⟩, rfl, rfl⟩
    | _ => simp [MemoryRunStore.materialEffect, hbody]
  | withExecutionReceipt =>
    simp only [MemoryRunStore.perform, MemoryRunStore.performWithExecutionReceipt,
      MemoryRunStore.pushRecord, MemoryRunStore.applyCommitted, MemoryRunStore.call,
      MemoryRunStore.appendWithExecutionReceipt, Mutation.bind_eq_ok, reads_eq_ok, writes_eq_ok,
      Mutation.pure_eq_ok, Outcome.bind_eq_ok, Outcome.exists_unit, exists_and_left,
      exists_eq_left', and_assoc, List.getLast?_concat, Outcome.expect_eq_ok, Option.some.injEq]
    refine and_congr_right' (exists_congr fun prepared => ?_)
    refine and_congr_right' (exists_congr fun anchor => and_congr_right' ?_)
    cases hbody : prepared.record.event.body with
    | verificationRecorded stepId effectId disposition receiptId digest =>
      simp only [MemoryRunStore.receiptEffect, hbody, Outcome.bind_eq_ok, Outcome.pure_eq_ok, exists_eq_left', Prod.mk.injEq]
      constructor
      · rintro ⟨_, ⟨index, hindex, rfl⟩, rfl, rfl⟩
        exact ⟨index, hindex, rfl, rfl⟩
      · rintro ⟨index, hindex, rfl, rfl⟩
        exact ⟨_, ⟨index, hindex, rfl⟩, rfl, rfl⟩
    | _ => simp [MemoryRunStore.receiptEffect, hbody]
  | withToolOutput =>
    simp only [MemoryRunStore.perform, MemoryRunStore.performWithToolOutput,
      MemoryRunStore.pushRecord, MemoryRunStore.applyCommitted, MemoryRunStore.call,
      MemoryRunStore.appendWithToolOutput, Mutation.bind_eq_ok, reads_eq_ok, writes_eq_ok,
      Mutation.pure_eq_ok, Outcome.bind_eq_ok, Outcome.exists_unit, exists_and_left,
      exists_eq_left', and_assoc]
    refine and_congr_right' (exists_congr fun prepared => ?_)
    refine and_congr_right' (exists_congr fun anchor => and_congr_right' (and_congr_right' ?_))
    cases hbody : prepared.record.event.body with
    | effectSucceeded stepId effectId evidence digest =>
      simp only [MemoryRunStore.outputEffect, hbody, Outcome.bind_eq_ok, Outcome.pure_eq_ok, exists_eq_left', Prod.mk.injEq]
      constructor
      · rintro ⟨stored, hstored, _, ⟨index, hindex, rfl⟩, rfl, rfl⟩
        exact ⟨stored, hstored, index, hindex, rfl, rfl⟩
      · rintro ⟨stored, hstored, index, hindex, rfl, rfl⟩
        exact ⟨stored, hstored, _, ⟨index, hindex, rfl⟩, rfl, rfl⟩
    | _ => simp [MemoryRunStore.outputEffect, hbody]
  | withCompletionOutput =>
    simp only [MemoryRunStore.perform, MemoryRunStore.performWithCompletionOutput,
      MemoryRunStore.pushRecord, MemoryRunStore.applyCommitted, MemoryRunStore.call,
      MemoryRunStore.appendWithCompletionOutput, Mutation.bind_eq_ok, reads_eq_ok, writes_eq_ok,
      Mutation.pure_eq_ok, Outcome.bind_eq_ok, Outcome.pure_eq_ok, Outcome.exists_unit,
      Outcome.expect_eq_ok, Option.some.injEq, Prod.mk.injEq, exists_and_left, exists_eq_left',
      and_assoc, exists_eq_right_right]
    refine and_congr_right' (exists_congr fun prepared => ?_)
    refine and_congr_right' (exists_congr fun anchor => and_congr_right' (and_congr_right' ?_))
    constructor
    · rintro ⟨⟨index, hindex, rfl⟩, rfl⟩
      exact ⟨index, hindex, rfl, rfl⟩
    · rintro ⟨index, hindex, rfl, rfl⟩
      exact ⟨⟨index, hindex, rfl⟩, rfl⟩

/-! ## Errors -/

theorem applyCommittedEvent_no_error (index : VerifiedRunIndex) (record : EventRecord)
    (anchors : CommitAnchors) (e : StoreError) :
    index.applyCommittedEvent record anchors ≠ .error (.err e) := by
  have hexpect : ∀ {α : Type} (o : Option α) (message : String),
      (Outcome.expect o message : Outcome StoreError α) ≠ .error (.err e) := by
    intro α o message h
    cases o <;> cases h
  unfold VerifiedRunIndex.applyCommittedEvent
  split
  case h_5 | h_6 | h_7 =>
    intro h
    rcases Outcome.bind_eq_error.mp h with hanchor | ⟨_, _, hrest⟩
    · exact hexpect _ _ hanchor
    · cases hrest
  all_goals
    intro h
    cases h

theorem applyCommitted_infallible (commit : Commit) (sidecars : CommitSidecars)
    (anchors : CommitAnchors) : Infallible (MemoryRunStore.applyCommitted commit sidecars anchors) := by
  refine Infallible.bind (Infallible.reads fun self e h => ?_) fun _ => Infallible.writes
  rcases Outcome.bind_eq_error.mp h with hevent | ⟨_, _, hrest⟩
  · exact applyCommittedEvent_no_error _ _ _ _ hevent
  · cases hrest

theorem pushRecord_infallible (commit : Commit) : Infallible (MemoryRunStore.pushRecord commit) :=
  Infallible.bind Infallible.writes fun _ => Infallible.writes

theorem lookup_infallible {α : Type} (f : MemoryRunStore → Option α) (message : String) :
    Infallible (reads fun self => (Outcome.expect (f self) message : Outcome StoreError α)) := by
  refine Infallible.reads fun self e h => ?_
  cases hfound : f self <;> simp [hfound, Outcome.expect, Outcome.abort] at h

/-- **An append that returns an error has not written.** -/
theorem perform_atomic (call : AppendCall) : Atomic (MemoryRunStore.perform D P call) := by
  have hlast : ∀ (commit : Commit) (sidecars : CommitSidecars) (anchors : CommitAnchors),
      Infallible (do
        MemoryRunStore.applyCommitted commit sidecars anchors
        pure commit) := fun commit sidecars anchors =>
    (applyCommitted_infallible commit sidecars anchors).bind fun _ => Infallible.pure
  cases call with
  | append expected event =>
    refine Atomic.of_reads fun _ => Atomic.of_reads fun commit => Infallible.atomic ?_
    exact (pushRecord_infallible commit).bind fun _ => hlast _ _ _
  | withPlanInputs expected event inputs =>
    refine Atomic.of_reads fun _ => Atomic.of_reads fun commit => Atomic.of_reads fun _ =>
      Infallible.atomic ?_
    exact (pushRecord_infallible commit).bind fun _ => Infallible.writes.bind fun _ => hlast _ _ _
  | withInvocationMaterial expected event material =>
    refine Atomic.of_reads fun _ => Atomic.of_reads fun _ => Atomic.of_reads fun commit =>
      Atomic.of_reads fun _ => Infallible.atomic ?_
    refine (pushRecord_infallible commit).bind fun _ => Infallible.writes.bind fun _ => ?_
    have heffect : ∀ e, MemoryRunStore.materialEffect commit.record.event ≠ .error (.err e) := by
      unfold MemoryRunStore.materialEffect
      split <;> simp [pure, Except.pure, Outcome.abort]
    exact (Infallible.reads fun _ => heffect).bind fun _ =>
      (lookup_infallible _ _).bind fun _ => hlast _ _ _
  | withExecutionReceipt expected event receipt =>
    refine Atomic.of_reads fun _ => Atomic.of_reads fun commit => Atomic.of_reads fun anchor =>
      Atomic.of_reads fun _ => Infallible.atomic ?_
    exact (pushRecord_infallible commit).bind fun _ => Infallible.writes.bind fun _ =>
      (lookup_infallible _ _).bind fun _ => hlast _ _ _
  | withToolOutput expected event output =>
    refine Atomic.of_reads fun _ => Atomic.of_reads fun commit => Atomic.of_reads fun anchor =>
      Atomic.of_reads fun _ => Infallible.atomic ?_
    refine (pushRecord_infallible commit).bind fun _ => Infallible.writes.bind fun _ => ?_
    have heffect : ∀ e, MemoryRunStore.outputEffect commit.record.event ≠ .error (.err e) := by
      unfold MemoryRunStore.outputEffect
      split <;> simp [pure, Except.pure, Outcome.abort]
    exact (Infallible.reads fun _ => heffect).bind fun _ =>
      (lookup_infallible _ _).bind fun _ => hlast _ _ _
  | withCompletionOutput expected event output =>
    refine Atomic.of_reads fun _ => Atomic.of_reads fun commit => Atomic.of_reads fun anchor =>
      Atomic.of_reads fun _ => Infallible.atomic ?_
    exact (pushRecord_infallible commit).bind fun _ => Infallible.writes.bind fun _ =>
      (lookup_infallible _ _).bind fun _ => hlast _ _ _

/-! ## Stores that calls lead to -/

/-- The stores reached from the empty one by calls that returned. -/
inductive ReachedStore (D : Digests) (P : Protocol) : MemoryRunStore → Prop where
  | new : ReachedStore D P .new
  | call {store store' : MemoryRunStore} {call : AppendCall} {result : Outcome StoreError Commit}
      (hreached : ReachedStore D P store)
      (hrun : MemoryRunStore.perform D P call store = (result, store'))
      (hreturned : ∀ message, result ≠ .error (.panic message)) : ReachedStore D P store'

theorem ReachedStore.coherent {store : MemoryRunStore} (h : ReachedStore D P store) :
    Coherent D P store.toRunData store.index := by
  induction h with
  | new => exact Coherent.empty
  | @call store store' call result _ hrun hreturned ih =>
    rcases result with (e | message) | commit
    · rw [perform_atomic call store e store' hrun]
      exact ih
    · exact absurd rfl (hreturned message)
    · obtain ⟨anchors, hcommitted⟩ := MemoryRunStore.call_eq_ok ih (perform_eq_ok_iff.mp hrun)
      exact hcommitted.coherent ih

theorem ReachedStore.runCalls (calls : List AppendCall) :
    ReachedStore D P (runCalls D P calls).1 := by
  induction calls using List.reverseRecOn with
  | nil => exact .new
  | append_singleton calls call ih =>
    rw [Xgeny.runCalls, List.foldl_append, ← Xgeny.runCalls, List.foldl_cons, List.foldl_nil,
      MemoryRunStore.afterCall]
    split
    · rename_i commit store hcall
      exact ih.call (perform_eq_ok_iff.mpr hcall) (by simp)
    · exact ih

/-! ## What a successful append adds -/

/-- The sidecars that an event requires, by the keys under which they are stored. -/
structure RequiredSidecars where
  planInputs : List String := []
  material : Option String := none
  output : Option String := none
  receipt : Option String := none
  completionOutput : Bool := false

/-- One planned input for each accepted step, one material for an intent, one output for a success
that names one, one receipt for a verification and one output for a completion. -/
def RunEventBody.requires : RunEventBody → RequiredSidecars
  | .planAccepted _ steps => { planInputs := steps.map AcceptedPlanStep.stepId }
  | .effectIntentCommitted _ intent => { material := some intent.effectId }
  | .effectSucceeded _ effectId _ (some _) => { output := some effectId }
  | .verificationRecorded _ effectId _ _ _ => { receipt := some effectId }
  | .completionCandidateRecorded .. => { completionOutput := true }
  | _ => {}

/-- One more record, and the sidecars that its event requires. -/
structure Appended (store : MemoryRunStore) (call : AppendCall) (commit : Commit)
    (store' : MemoryRunStore) : Prop where
  event : commit.record.event = call.event
  records : store'.records = store.records ++ [commit.record]
  projection : store'.projection = some commit.state
  planInputs : BTreeMap.Adds store.planInputs store'.planInputs
    ((call.sidecars.planInputs.getD []).map fun input => (input.stepId, input))
  planned : ((call.sidecars.planInputs.getD []).map PlannedInvocationMaterialRecord.stepId).Perm
    call.event.body.requires.planInputs
  materials : BTreeMap.Adds store.materials store'.materials
    (call.sidecars.material.toList.map fun material => (material.effectId, material))
  material : call.sidecars.material.map InvocationMaterialRecord.effectId =
    call.event.body.requires.material
  outputs : BTreeMap.Adds store.outputs store'.outputs
    (call.sidecars.output.toList.map fun output =>
      (output.effectId, ⟨commit.record.sequence, output⟩))
  output : call.sidecars.output.map ToolOutputRecord.effectId = call.event.body.requires.output
  receipts : store'.receipts = store.receipts ++ call.sidecars.receipt.toList.map fun receipt =>
    ⟨commit.record.sequence, call.event.body.receiptEffect, receipt⟩
  receipt : call.sidecars.receipt.map (fun _ => call.event.body.receiptEffect) =
    call.event.body.requires.receipt
  completionOutputs : store'.completionOutput.toList = store.completionOutput.toList ++
    call.sidecars.completionOutput.toList.map fun output => ⟨commit.record.sequence, output⟩
  completionOutput : call.sidecars.completionOutput.isSome =
    call.event.body.requires.completionOutput

section

variable {store store' : MemoryRunStore} {sidecars : CommitSidecars} {anchors : CommitAnchors}
  {commit : Commit}

theorem Accepted.bundles {index : VerifiedRunIndex} {event : RunEvent}
    (h : Accepted D P index event sidecars anchors commit) :
    verifyPlanInputBundle D event sidecars.planInputs = .ok () ∧
      verifyMaterialBundle D event sidecars.material = .ok () ∧
      verifyReceiptBundle D P event sidecars.receipt = .ok () ∧
      verifyToolOutputBundle event sidecars.output = .ok () ∧
      verifyCompletionOutputBundle event sidecars.completionOutput = .ok () := by
  have hbundle := h.bundle
  simpa only [verifyCommitSidecars, Outcome.bind_eq_ok, Outcome.exists_unit] using hbundle

theorem Committed.adds_planInputs (h : Committed D P store sidecars anchors commit store')
    (hcoherent : Coherent D P store.toRunData store.index) :
    BTreeMap.Adds store.planInputs store'.planInputs
        ((sidecars.planInputs.getD []).map fun input => (input.stepId, input)) ∧
      ((sidecars.planInputs.getD []).map PlannedInvocationMaterialRecord.stepId).Perm
        commit.record.event.body.requires.planInputs := by
  have hdata : store'.planInputs =
      insertPlanInputs store.planInputs (sidecars.planInputs.getD []) := by
    rw [h.data]
    rfl
  rw [hdata, insertPlanInputs]
  rcases verifyPlanInputBundle_eq_ok h.accepted.bundles.1 with ⟨hnone, hbody⟩ |
    ⟨decision, steps, given, byStep, hbody, hgiven, hlength, hbyStep, hverified⟩
  · rw [hnone]
    refine ⟨BTreeMap.Adds.insertAll List.nodup_nil (by simp), ?_⟩
    unfold RunEventBody.requires
    split
    · exact absurd ‹_› (hbody _ _)
    all_goals exact List.Perm.refl _
  · obtain ⟨hnodup, rfl⟩ := inputsByStep_eq_ok hbyStep
    have hnew : ∀ input ∈ given, input.stepId ∉ store.planInputs := fun input hin hold =>
      h.accepted.planInputs given hgiven input hin ((hcoherent.plan.keys _).mp hold)
    have hsteps : (steps.map AcceptedPlanStep.stepId).Nodup := by
      rw [← map_stepId_zipIdx]
      exact (hcoherent.journal.plan_fresh h.accepted.prepared hbody).1
    simp only [hgiven, Option.getD_some, hbody, RunEventBody.requires]
    refine ⟨BTreeMap.Adds.insertAll hnodup hnew, ?_⟩
    -- every step has an input, and there are as many inputs as steps
    have hsub : steps.map AcceptedPlanStep.stepId ⊆
        given.map PlannedInvocationMaterialRecord.stepId := by
      intro id hid
      obtain ⟨step, hstep, rfl⟩ := List.mem_map.mp hid
      obtain ⟨input, hinput, _⟩ := hverified step hstep
      rcases BTreeMap.get_insertAll_eq_some hnodup hinput with ⟨found, hin, hkey, _⟩ | ⟨_, hnone⟩
      · exact List.mem_map.mpr ⟨found, hin, hkey⟩
      · simp at hnone
    refine ((List.subperm_of_subset hsteps hsub).perm_of_length_le ?_).symm
    simp [hlength]

theorem Committed.adds_material (h : Committed D P store sidecars anchors commit store')
    (hcoherent : Coherent D P store.toRunData store.index) :
    BTreeMap.Adds store.materials store'.materials
        (sidecars.material.toList.map fun material => (material.effectId, material)) ∧
      sidecars.material.map InvocationMaterialRecord.effectId =
        commit.record.event.body.requires.material := by
  have hdata : store'.materials = BTreeMap.insertAll InvocationMaterialRecord.effectId id
      store.materials sidecars.material.toList := by
    rw [h.data, RunData.commit]
    cases sidecars.material <;> rfl
  rw [hdata]
  rcases verifyMaterialBundle_eq_ok h.accepted.bundles.2.1 with ⟨hnone, hbody⟩ |
    ⟨stepId, intent, given, hbody, hgiven, hverified⟩
  · rw [hnone]
    refine ⟨BTreeMap.Adds.insertAll List.nodup_nil (by simp), ?_⟩
    unfold RunEventBody.requires
    split
    case h_2 => exact absurd ‹_› (hbody _ _)
    all_goals rfl
  · have hnew : given.effectId ∉ store.materials := fun hold =>
      h.accepted.material given hgiven ((hcoherent.material.keys _).mp hold)
    simp only [hgiven, hbody, RunEventBody.requires, Option.map_some,
      InvocationMaterialRecord.verifyFor_effectId hverified, and_true]
    exact BTreeMap.Adds.insertAll (List.nodup_singleton _) (by simpa using hnew)

theorem Committed.adds_output (h : Committed D P store sidecars anchors commit store')
    (hcoherent : Coherent D P store.toRunData store.index) :
    BTreeMap.Adds store.outputs store'.outputs (sidecars.output.toList.map fun output =>
        (output.effectId, ⟨commit.record.sequence, output⟩)) ∧
      sidecars.output.map ToolOutputRecord.effectId =
        commit.record.event.body.requires.output := by
  have hdata : store'.outputs = BTreeMap.insertAll ToolOutputRecord.effectId
      (fun output => ⟨commit.record.sequence, output⟩) store.outputs sidecars.output.toList := by
    rw [h.data, RunData.commit]
    cases sidecars.output <;> rfl
  rw [hdata]
  rcases verifyToolOutputBundle_eq_ok h.accepted.bundles.2.2.2.1 with ⟨hnone, hbody⟩ |
    ⟨stepId, effectId, evidence, given, hbody, hgiven⟩
  · rw [hnone]
    refine ⟨BTreeMap.Adds.insertAll List.nodup_nil (by simp), ?_⟩
    unfold RunEventBody.requires
    split
    case h_3 => exact absurd ‹_› (hbody _ _ _ _)
    all_goals rfl
  · obtain ⟨anchor, _, hcandidate⟩ := h.accepted.output given hgiven
    obtain ⟨_, hfresh, _⟩ := verifyToolOutputCandidate_eq_ok hcandidate
    obtain ⟨heffect, _, hanchor, _⟩ := toolOutputCandidate_names hcoherent.journal hbody hcandidate
    have hnew : given.effectId ∉ store.outputs := by
      rw [heffect, ← hanchor]
      exact fun hold => hfresh ((hcoherent.output.stored _).mp hold)
    simp only [hgiven, hbody, RunEventBody.requires, Option.map_some, heffect, and_true]
    exact BTreeMap.Adds.insertAll (List.nodup_singleton _) (by simpa using hnew)

theorem Committed.adds_receipt (h : Committed D P store sidecars anchors commit store') :
    (store'.receipts = store.receipts ++ sidecars.receipt.toList.map fun receipt =>
        ⟨commit.record.sequence, commit.record.event.body.receiptEffect, receipt⟩) ∧
      sidecars.receipt.map (fun _ => commit.record.event.body.receiptEffect) =
        commit.record.event.body.requires.receipt := by
  constructor
  · rw [h.data, RunData.commit]
    cases sidecars.receipt <;> simp
  · rcases verifyReceiptBundle_eq_ok h.accepted.bundles.2.2.1 with ⟨hnone, hbody⟩ |
      ⟨stepId, effectId, disposition, receiptId, receiptDigest, given, hbody, hgiven, _⟩
    · rw [hnone]
      unfold RunEventBody.requires
      split
      case h_4 => exact absurd ‹_› (hbody _ _ _ _ _)
      all_goals rfl
    · simp [hgiven, hbody, RunEventBody.requires, RunEventBody.receiptEffect]

theorem Committed.adds_completion (h : Committed D P store sidecars anchors commit store')
    (hcoherent : Coherent D P store.toRunData store.index) :
    (store'.completionOutput.toList = store.completionOutput.toList ++
        sidecars.completionOutput.toList.map fun output => ⟨commit.record.sequence, output⟩) ∧
      sidecars.completionOutput.isSome =
        commit.record.event.body.requires.completionOutput := by
  have hdata : store'.completionOutput = (store.toRunData.commit commit sidecars).completionOutput := by
    rw [h.data]
  rw [hdata, RunData.commit]
  rcases verifyCompletionOutputBundle_eq_ok h.accepted.bundles.2.2.2.2 with ⟨hnone, hbody⟩ |
    ⟨decision, candidateId, summary, given, hbody, hgiven⟩
  · rw [hnone]
    refine ⟨by simp, ?_⟩
    unfold RunEventBody.requires
    split
    case h_5 => exact absurd ‹_› (hbody _ _ _ _)
    all_goals rfl
  · obtain ⟨anchor, _, hcandidate⟩ := h.accepted.completionOutput given hgiven
    obtain ⟨hfirst, _⟩ := verifyCompletionOutputCandidate_eq_ok hcandidate
    have hempty : store.completionOutput = none := by
      have hcompletion := hcoherent.completion
      unfold verifyCompletionOutputRecord at hcompletion
      rw [hfirst] at hcompletion
      cases hstored : store.completionOutput with
      | none => rfl
      | some stored => simp [hstored] at hcompletion
    simp [hgiven, hbody, hempty, RunEventBody.requires]

/-- **What an append adds.** -/
theorem Committed.appended {call : AppendCall}
    (h : Committed D P store call.sidecars anchors commit store')
    (hcoherent : Coherent D P store.toRunData store.index)
    (hevent : commit.record.event = call.event) : Appended store call commit store' where
  event := hevent
  records := by
    rw [h.data]
    rfl
  projection := by
    rw [h.data]
    rfl
  planInputs := (h.adds_planInputs hcoherent).1
  planned := hevent ▸ (h.adds_planInputs hcoherent).2
  materials := (h.adds_material hcoherent).1
  material := hevent ▸ (h.adds_material hcoherent).2
  outputs := (h.adds_output hcoherent).1
  output := hevent ▸ (h.adds_output hcoherent).2
  receipts := hevent ▸ h.adds_receipt.1
  receipt := hevent ▸ h.adds_receipt.2
  completionOutputs := (h.adds_completion hcoherent).1
  completionOutput := hevent ▸ (h.adds_completion hcoherent).2

end

/-- **Append atomicity.** An append that returns an error leaves every field of the store as it was,
whatever the store holds. On a store that appends have filled, an append that returns a commit has
added its record and exactly the sidecars that the event requires. -/
theorem append_atomicity (call : AppendCall) :
    (∀ store e store', MemoryRunStore.perform D P call store = (.error (.err e), store') →
      store' = store) ∧
    ∀ store commit store', ReachedStore D P store →
      MemoryRunStore.perform D P call store = (.ok commit, store') →
      Appended store call commit store' := by
  refine ⟨perform_atomic call, fun store commit store' hreached hrun => ?_⟩
  have hcall := perform_eq_ok_iff.mp hrun
  obtain ⟨anchors, hcommitted⟩ := MemoryRunStore.call_eq_ok hreached.coherent hcall
  obtain ⟨_, hp⟩ := prepareCommit_eq_ok (MemoryRunStore.call_prepared hcall)
  exact hcommitted.appended hreached.coherent hp.carries

/-! ## A sample run

Two steps are planned, and the first one commits to its effect. The hashes are those of the canonical
documents, so the sample encoder answers as the real one does on every document of the run. -/

/-- The call that creates the sample run. -/
def createSample : AppendCall :=
  .append .empty (sampleEvent 1 (.runCreated "write two files"))

/-- A protocol under which nothing is a time. -/
def timelessProtocol : Protocol where
  schema _ := .ok ()
  rfc3339 _ := none

def checkedInvocation : InvocationBinding where
  capabilityId := "fs.write"
  contractVersion := "1.0.0"
  definitionDigest := "sha256:82e23979adb9ccbd82ceba6746aab614e2b8024d4a9260d97ee253d5a6f1111d"
  instanceId := "instance-1"
  instanceBindingDigest := "sha256:f7ca8d969f326e521e16e83ee8a173157ceb0ef4eaa6f970220a77dae4d02e70"

def checkedProvenance : ReceiptProvenance where
  profileVersion := coreReceiptProfileV1
  toolOutputProfile := none
  invocationId := "invocation-1"
  planId := "plan-1"
  policyDecisionId := "decision-1"
  policyDecisionDigest := sampleDigest '4'
  executorId := "instance-1"
  executorPlacement := .localHost
  executorPlatform := "linux-x86_64"
  inputSummary := coreReceiptInputSummaryV1
  verificationPlan := [⟨.postcondition, true⟩]

def checkedBinding (stepId : String) (sequence : UInt64) (head action : String) :
    AuthorizationBinding :=
  { sampleBinding stepId sequence head action with
    capabilityId := checkedInvocation.capabilityId
    definitionDigest := checkedInvocation.definitionDigest
    instanceId := checkedInvocation.instanceId
    instanceBindingDigest := checkedInvocation.instanceBindingDigest
    materialRetentionDigest :=
      "sha256:8768e94a8281ea2a199a0b9ff59b3403f904ddceeab162f16909f9685afcbde5"
    receiptProvenanceDigest :=
      some "sha256:e724952d69122b1c37cd9a630fbb092d784ce111f802694e0bd3e95410435b3d" }

/-- An idempotent intent that asks for a receipt. -/
def checkedIntent (effectId idHash digestHash : String) (binding : AuthorizationBinding) :
    EffectIntent :=
  { sampleIntent effectId idHash digestHash binding with
    invocation := checkedInvocation
    effectClass := .idempotent
    receiptProvenance := some checkedProvenance }

def bindingX : AuthorizationBinding :=
  checkedBinding "step-x" 3
    "sha256:efaccf94c1d975aa12622ae9054d5e3ec0353c155a0099cec5d7f8a1a6394290"
    (sampleDigest 'a')

def intentX : EffectIntent :=
  checkedIntent "effect-x" "83638658ce28d7e6fc3d734945551f071d7d20e0c2c1aa39f983a3841a19fd4d"
    "4726bcedf483cd134eb0ebdbb1a88e654238030e4e3117ac9e3b3c1a86d99440" bindingX

/-- The material of an intent, with its hashes. -/
def checkedMaterial (stepId idHash recordHash : String) (intent : EffectIntent) :
    InvocationMaterialRecord where
  formatVersion := 1
  materialId := "material-" ++ idHash
  runId := "run-1"
  stepId := stepId
  effectId := intent.effectId
  actionDigest := intent.actionDigest
  invocation := intent.invocation
  materialDigest := sampleDigest '3'
  retention := .ephemeral
  recordDigest := "sha256:" ++ recordHash

def materialX : InvocationMaterialRecord :=
  checkedMaterial "step-x" "149f5f012edf5c016b4da39332aa8031fdf8074c91b41651e014d12fe450d724"
    "be31aa63a0c15854eb54fcc61cf5dee9b7c9b0244d506c4ac571d405c97fe53d" intentX

/-- Two steps are planned, and the first one commits to its effect. -/
def intentLines : List SampleLine :=
  [⟨.runCreated "write two files", 212,
      "1a2ff360e22efc4f653a7fef280060d32e13b82543efb6174078446500f29a1b"⟩,
    ⟨.stepPlanned "step-x" "write the first file" [], 310,
      "1134f5fc573784d4ef287bf8e0efb8467b69ac7d26defff1ea995ad3a239ca93"⟩,
    ⟨.stepPlanned "step-y" "write the second file" [], 311,
      "efaccf94c1d975aa12622ae9054d5e3ec0353c155a0099cec5d7f8a1a6394290"⟩,
    ⟨.effectIntentCommitted "step-x" intentX, 2373,
      "2ac528d5eb90bccd0129c7f74e9856be7bc5058d6cc0b6d5a47462c1bb134532"⟩]

/-- The documents of the first effect. -/
def intentDocuments : List (DigestInput × ℕ × String) :=
  [(.receiptProvenance checkedProvenance, 432,
      "e724952d69122b1c37cd9a630fbb092d784ce111f802694e0bd3e95410435b3d"),
    (.invocationMaterialRetention .ephemeral, 83,
      "8768e94a8281ea2a199a0b9ff59b3403f904ddceeab162f16909f9685afcbde5"),
    (.onceAuthorizationId "run-1" (sampleDigest 'a'), 152,
      "83638658ce28d7e6fc3d734945551f071d7d20e0c2c1aa39f983a3841a19fd4d"),
    (.authorization bindingX 1, 999,
      "4726bcedf483cd134eb0ebdbb1a88e654238030e4e3117ac9e3b3c1a86d99440"),
    (.invocationMaterialId "run-1" "effect-x" (sampleDigest '3'), 173,
      "149f5f012edf5c016b4da39332aa8031fdf8074c91b41651e014d12fe450d724"),
    (.invocationMaterialRecord 1 materialX.materialId "run-1" "step-x" "effect-x" (sampleDigest 'a')
      checkedInvocation (sampleDigest '3') .ephemeral, 708,
      "be31aa63a0c15854eb54fcc61cf5dee9b7c9b0244d506c4ac571d405c97fe53d")]

def intentTable : List (DigestInput × ℕ × String) :=
  sampleDocuments 0 none intentLines ++ intentDocuments

/-- The calls that plan the two steps. -/
def planningCalls : List AppendCall :=
  let records := (sampleRecords 0 none intentLines).take 3
  List.zipWith (fun expected record => .append expected record.event)
    (.empty :: records.map EventRecord.head) records

def plannedStore : MemoryRunStore :=
  (runCalls (tableDigests intentTable) timelessProtocol planningCalls).1

/-- The event of the first intent. -/
def intentEvent : RunEvent := sampleEvent 4 (.effectIntentCommitted "step-x" intentX)

/-- The intent of the first step is appended with its material; without it the intent is refused, and
the store stays as it was. -/
theorem append_atomicity_sample : ∃ commit store,
    MemoryRunStore.perform (tableDigests intentTable) timelessProtocol
        (.withInvocationMaterial plannedStore.index.head intentEvent materialX) plannedStore =
        (.ok commit, store) ∧
      Appended plannedStore
        (.withInvocationMaterial plannedStore.index.head intentEvent materialX) commit store ∧
      store.materials.keys = ["effect-x"] ∧
      MemoryRunStore.perform (tableDigests intentTable) timelessProtocol
          (.append plannedStore.index.head intentEvent) plannedStore =
        (Outcome.fail .invocationMaterialRequired, plannedStore) := by
  have haccepted : (MemoryRunStore.perform (tableDigests intentTable) timelessProtocol
        (.withInvocationMaterial plannedStore.index.head intentEvent materialX)
        plannedStore).1.value?.isSome = true ∧
      (MemoryRunStore.perform (tableDigests intentTable) timelessProtocol
        (.withInvocationMaterial plannedStore.index.head intentEvent materialX)
        plannedStore).2.materials.keys = ["effect-x"] := by
    decide +kernel
  have hbare : (MemoryRunStore.perform (tableDigests intentTable) timelessProtocol
      (.append plannedStore.index.head intentEvent) plannedStore).1 =
        Outcome.fail .invocationMaterialRequired := by
    decide +kernel
  rcases hrun : MemoryRunStore.perform (tableDigests intentTable) timelessProtocol
    (.withInvocationMaterial plannedStore.index.head intentEvent materialX) plannedStore with
    ⟨result, store⟩
  rw [hrun] at haccepted
  obtain ⟨commit, rfl⟩ := Outcome.exists_ok_of_isSome haccepted.1
  rcases hrefused : MemoryRunStore.perform (tableDigests intentTable) timelessProtocol
    (.append plannedStore.index.head intentEvent) plannedStore with ⟨outcome, store'⟩
  rw [hrefused] at hbare
  obtain rfl : outcome = Outcome.fail .invocationMaterialRequired := hbare
  obtain rfl := (append_atomicity _).1 plannedStore _ store' hrefused
  exact ⟨commit, store, rfl, (append_atomicity _).2 _ _ _ (.runCalls planningCalls) hrun,
    haccepted.2, rfl⟩

end Xgeny
