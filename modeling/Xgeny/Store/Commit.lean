import Xgeny.Store.Memory

set_option autoImplicit false

/-!
# What one commit can do

The effect of an accepted append on the committed data and on the index, said once for every kind
of store: the bundle decides which sidecar an event carries, and the candidate checks decide what
is known about it.

* `Accepted`: the checks that an append has passed;
* `RunData.commit`: the data after it;
* `CommitStep`: the eight ways in which data and index change together;
* **`Accepted.step`**: every accepted append takes one of them, and its index update cannot panic.
-/

namespace Xgeny

/-! ## Accepted appends -/

section

variable (D : Digests) (P : Protocol)

/-- The commit that `prepare_commit` returns. -/
structure Prepared (index : VerifiedRunIndex) (event : RunEvent) (commit : Commit) : Prop where
  fresh : event.eventId ∉ index.eventIds
  carries : commit.record.event = event
  next : EventRecord.next D index.lastRecord event = .ok commit.record
  state : applyRecord D index.state commit.record = .ok commit.state

/-- The checks that an append with some sidecars has passed. -/
structure Accepted (index : VerifiedRunIndex) (event : RunEvent) (sidecars : CommitSidecars)
    (anchors : CommitAnchors) (commit : Commit) : Prop where
  bundle : verifyCommitSidecars D P event sidecars = .ok ()
  prepared : Prepared D index event commit
  planInputs : ∀ inputs, sidecars.planInputs = some inputs → ∀ input ∈ inputs,
    input.stepId ∉ index.planInputStepIds
  material : ∀ material, sidecars.material = some material →
    material.effectId ∉ index.materialEffectIds
  output : ∀ output, sidecars.output = some output → ∃ anchor, anchors.output = some anchor ∧
    verifyToolOutputCandidate D index commit.record output = .ok anchor
  completionOutput : ∀ output, sidecars.completionOutput = some output →
    ∃ anchor, anchors.completionOutput = some anchor ∧
      verifyCompletionOutputCandidate D index commit.record output = .ok anchor
  receipt : ∀ receipt, sidecars.receipt = some receipt → ∃ anchor, anchors.receipt = some anchor ∧
    verifyReceiptCandidate P index commit.record receipt = .ok anchor

end

variable {D : Digests} {P : Protocol}

theorem prepareCommit_eq_ok {index : VerifiedRunIndex} {expected : ExpectedHead} {event : RunEvent}
    {commit : Commit} (h : prepareCommit D index expected event = .ok commit) :
    expected = index.head ∧ Prepared D index event commit := by
  simp only [prepareCommit, Outcome.bind_eq_ok, Outcome.exists_unit, Outcome.failIf_eq_ok,
    Outcome.mapErr_eq_ok, Outcome.pure_eq_ok, ne_eq, Decidable.not_not] at h
  obtain ⟨hhead, hfresh, record, hrecord, state, hstate, rfl⟩ := h
  exact ⟨hhead, hfresh, EventRecord.next_event hrecord, hrecord, hstate⟩

/-! ## The data after a commit -/

/-- The effect that a finalization event is about. -/
def RunEventBody.receiptEffect : RunEventBody → String
  | .verificationRecorded _ effectId _ _ _ => effectId
  | _ => ""

/-- The data after a commit with its sidecars. -/
def RunData.commit (data : RunData) (commit : Commit) (sidecars : CommitSidecars) : RunData where
  records := data.records ++ [commit.record]
  projection := some commit.state
  planInputs := insertPlanInputs data.planInputs (sidecars.planInputs.getD [])
  materials :=
    match sidecars.material with
    | some material => data.materials.insert material.effectId material
    | none => data.materials
  receipts :=
    match sidecars.receipt with
    | some receipt => data.receipts ++
      [⟨commit.record.sequence, commit.record.event.body.receiptEffect, receipt⟩]
    | none => data.receipts
  outputs :=
    match sidecars.output with
    | some output => data.outputs.insert output.effectId ⟨commit.record.sequence, output⟩
    | none => data.outputs
  completionOutput :=
    match sidecars.completionOutput with
    | some output => some ⟨commit.record.sequence, output⟩
    | none => data.completionOutput

/-- What every commit changes in the index. -/
def VerifiedRunIndex.push (index : VerifiedRunIndex) (commit : Commit) : VerifiedRunIndex :=
  { index with
    eventIds := index.eventIds.insert commit.record.event.eventId
    state := some commit.state
    lastRecord := some commit.record }

/-- The positions of the steps of a plan. -/
def insertPositions (sequence : UInt64) (positions : BTreeMap String StepJournalPosition)
    (entries : List (AcceptedPlanStep × ℕ)) : BTreeMap String StepJournalPosition :=
  BTreeMap.insertAll (fun entry => entry.1.stepId) (fun entry => ⟨sequence, entry.2⟩) positions
    entries

/-- The planned invocations of the steps of a plan. -/
def insertInvocations (sequence : UInt64) (invocations : BTreeMap String PlannedInvocationAnchor)
    (entries : List (AcceptedPlanStep × ℕ)) : BTreeMap String PlannedInvocationAnchor :=
  BTreeMap.insertAll (fun entry => entry.1.stepId) (fun entry => ⟨sequence, entry.1.invocation⟩)
    invocations entries

/-- The steps that have an input of a plan. -/
def insertStepIds (ids : BTreeSet String) (inputs : List PlannedInvocationMaterialRecord) :
    BTreeSet String :=
  BTreeSet.insertAll PlannedInvocationMaterialRecord.stepId ids inputs

theorem foldl_applyPlannedStep {sequence : UInt64} (entries : List (AcceptedPlanStep × ℕ))
    (index : VerifiedRunIndex) :
    entries.foldl (VerifiedRunIndex.applyPlannedStep sequence) index =
      { index with
        stepPositions := insertPositions sequence index.stepPositions entries
        plannedInvocations := insertInvocations sequence index.plannedInvocations entries } := by
  induction entries generalizing index with
  | nil => rfl
  | cons entry entries ih =>
    rw [List.foldl_cons, ih]
    rfl

/-- The events that change nothing else in the index. -/
def RunEventBody.plain : RunEventBody → Bool
  | .stepPlanned .. => false
  | .planAccepted .. => false
  | .effectIntentCommitted .. => false
  | .effectExecutionStarted .. => false
  | .effectSucceeded _ _ _ (some _) => false
  | .completionCandidateRecorded _ _ _ (some _) => false
  | .verificationRecorded .. => false
  | _ => true

/-- The eight ways in which a commit changes the data and the index. -/
inductive CommitStep (D : Digests) (P : Protocol) (data : RunData) (index : VerifiedRunIndex)
    (commit : Commit) : RunData → VerifiedRunIndex → Prop where
  | plain (hbody : commit.record.event.body.plain = true) :
      CommitStep D P data index commit (data.push commit) (index.push commit)
  | stepPlanned {stepId objective : String} {dependsOn : List String}
      (hbody : commit.record.event.body = .stepPlanned stepId objective dependsOn) :
      CommitStep D P data index commit (data.push commit)
        { index.push commit with
          stepPositions := index.stepPositions.insert stepId
            { eventSequence := commit.record.sequence, eventStepIndex := 0 } }
  | planAccepted {decision : ExpectedPlanningTurn} {steps : List AcceptedPlanStep}
      {inputs : List PlannedInvocationMaterialRecord}
      {byStep : BTreeMap String PlannedInvocationMaterialRecord}
      (hbody : commit.record.event.body = .planAccepted decision steps)
      (hlength : inputs.length = steps.length) (hbyStep : inputsByStep inputs = .ok byStep)
      (hverified : ∀ step ∈ steps, ∃ input, byStep[step.stepId]? = some input ∧
        input.verifyFor D commit.record.event.runId step.stepId step.invocation = .ok ())
      (hnew : ∀ input ∈ inputs, input.stepId ∉ index.planInputStepIds) :
      CommitStep D P data index commit
        { data.push commit with planInputs := insertPlanInputs data.planInputs inputs }
        { index.push commit with
          stepPositions := insertPositions commit.record.sequence index.stepPositions steps.zipIdx
          plannedInvocations :=
            insertInvocations commit.record.sequence index.plannedInvocations steps.zipIdx
          planInputStepIds := insertStepIds index.planInputStepIds inputs }
  | intentCommitted {stepId : String} {intent : EffectIntent} {material : InvocationMaterialRecord}
      (hbody : commit.record.event.body = .effectIntentCommitted stepId intent)
      (hverified : material.verifyFor D commit.record.event.runId stepId intent = .ok ())
      (hnew : material.effectId ∉ index.materialEffectIds) :
      CommitStep D P data index commit
        { data.push commit with materials := data.materials.insert material.effectId material }
        { index.push commit with
          intents := index.intents.insert intent.effectId
            { eventSequence := commit.record.sequence, stepId := stepId, intent := intent }
          materialEffectIds := index.materialEffectIds.insert material.effectId }
  | executionStarted {stepId effectId : String}
      (hbody : commit.record.event.body = .effectExecutionStarted stepId effectId) :
      CommitStep D P data index commit (data.push commit)
        { index.push commit with
          effectStarts := index.effectStarts.insert effectId
            (index.effectStartFor commit.record stepId effectId) }
  | toolOutput {stepId effectId evidence : String} {output : ToolOutputRecord}
      {anchor : ToolOutputEventAnchor}
      (hbody : commit.record.event.body =
        .effectSucceeded stepId effectId evidence (some output.recordDigest))
      (hcandidate : verifyToolOutputCandidate D index commit.record output = .ok anchor) :
      CommitStep D P data index commit
        { data.push commit with
          outputs := data.outputs.insert output.effectId ⟨commit.record.sequence, output⟩ }
        (VerifiedRunIndex.applyOutput
          { index.push commit with
            toolOutputEvents := index.toolOutputEvents.insert anchor.effectId anchor } output)
  | completionOutput {decision : ExpectedPlanningTurn} {candidateId summary : String}
      {output : CompletionOutputRecord} {anchor : CompletionOutputEventAnchor}
      (hbody : commit.record.event.body =
        .completionCandidateRecorded decision candidateId summary (some output.recordDigest))
      (hcandidate : verifyCompletionOutputCandidate D index commit.record output = .ok anchor) :
      CommitStep D P data index commit
        { data.push commit with completionOutput := some ⟨commit.record.sequence, output⟩ }
        { index.push commit with completionOutputEvent := some anchor }
  | receipt {stepId effectId receiptId receiptDigest : String}
      {disposition : VerificationDisposition} {receipt : ExecutionReceiptBody}
      {anchor : ReceiptEventAnchor}
      (hbody : commit.record.event.body =
        .verificationRecorded stepId effectId disposition receiptId receiptDigest)
      (hvalid : validateExecutionReceipt D P receipt = .ok ())
      (hcandidate : verifyReceiptCandidate P index commit.record receipt = .ok anchor) :
      CommitStep D P data index commit
        { data.push commit with
          receipts := data.receipts ++ [⟨commit.record.sequence, effectId, receipt⟩] }
        (VerifiedRunIndex.applyReceipt
          { index.push commit with
            receiptEventPositions := index.receiptEventPositions.insert anchor.effectId
              index.receiptEvents.length
            receiptEvents := index.receiptEvents ++ [anchor] }
          commit.record.event.body receipt)

/-! ## What a bundle decides -/

theorem verifyPlanInputBundle_eq_ok {event : RunEvent}
    {inputs : Option (List PlannedInvocationMaterialRecord)}
    (h : verifyPlanInputBundle D event inputs = .ok ()) :
    (inputs.getD [] = [] ∧ ∀ decision steps, event.body ≠ .planAccepted decision steps) ∨
      ∃ decision steps given byStep, event.body = .planAccepted decision steps ∧
        inputs = some given ∧ given.length = steps.length ∧ inputsByStep given = .ok byStep ∧
        ∀ step ∈ steps, ∃ input, byStep[step.stepId]? = some input ∧
          input.verifyFor D event.runId step.stepId step.invocation = .ok () := by
  unfold verifyPlanInputBundle at h
  split at h
  · rename_i decision steps given hbody
    simp only [Outcome.bind_eq_ok, Outcome.exists_unit, Outcome.failIf_eq_ok, Outcome.forEach_eq_ok,
      Outcome.okOr_eq_ok, Outcome.mapErr_eq_ok, ne_eq, Decidable.not_not] at h
    obtain ⟨hlength, byStep, hbyStep, hsteps⟩ := h
    exact Or.inr ⟨decision, steps, given, byStep, hbody, rfl, hlength, hbyStep, hsteps⟩
  · simp at h
  · rename_i given hbody
    simp only [Outcome.failIf_eq_ok, ne_eq, Decidable.not_not] at h
    exact Or.inl ⟨by simp [h], hbody⟩
  · rename_i hbody
    exact Or.inl ⟨rfl, hbody⟩

theorem verifyMaterialBundle_eq_ok {event : RunEvent} {material : Option InvocationMaterialRecord}
    (h : verifyMaterialBundle D event material = .ok ()) :
    (material = none ∧ ∀ stepId intent, event.body ≠ .effectIntentCommitted stepId intent) ∨
      ∃ stepId intent given, event.body = .effectIntentCommitted stepId intent ∧
        material = some given ∧ given.verifyFor D event.runId stepId intent = .ok () := by
  unfold verifyMaterialBundle at h
  split at h
  · rename_i stepId intent given hbody
    simp only [Outcome.bind_eq_ok, Outcome.exists_unit, Outcome.mapErr_eq_ok] at h
    exact Or.inr ⟨stepId, intent, given, hbody, rfl, h.2⟩
  · simp at h
  · simp at h
  · rename_i hbody
    exact Or.inl ⟨rfl, hbody⟩

theorem verifyReceiptBundle_eq_ok {event : RunEvent} {receipt : Option ExecutionReceiptBody}
    (h : verifyReceiptBundle D P event receipt = .ok ()) :
    (receipt = none ∧ ∀ stepId effectId disposition receiptId receiptDigest, event.body ≠
        .verificationRecorded stepId effectId disposition receiptId receiptDigest) ∨
      ∃ stepId effectId disposition receiptId receiptDigest given,
        event.body = .verificationRecorded stepId effectId disposition receiptId receiptDigest ∧
        receipt = some given ∧ validateExecutionReceipt D P given = .ok () := by
  unfold verifyReceiptBundle at h
  split at h
  · rename_i stepId effectId disposition receiptId receiptDigest given hbody
    simp only [Outcome.bind_eq_ok, Outcome.exists_unit, Outcome.mapErr_eq_ok] at h
    exact Or.inr ⟨stepId, effectId, disposition, receiptId, receiptDigest, given, hbody, rfl, h.1⟩
  · simp at h
  · simp at h
  · simp at h
  · simp at h
  · rename_i hbody _ _
    exact Or.inl ⟨rfl, hbody⟩

theorem verifyToolOutputBundle_eq_ok {event : RunEvent} {output : Option ToolOutputRecord}
    (h : verifyToolOutputBundle event output = .ok ()) :
    (output = none ∧ ∀ stepId effectId evidence digest,
        event.body ≠ .effectSucceeded stepId effectId evidence (some digest)) ∨
      ∃ stepId effectId evidence given,
        event.body = .effectSucceeded stepId effectId evidence (some given.recordDigest) ∧
        output = some given := by
  unfold verifyToolOutputBundle at h
  split at h
  · rename_i stepId effectId evidence expected given hbody
    simp only [Outcome.failIf_eq_ok, ne_eq, Decidable.not_not] at h
    exact Or.inr ⟨stepId, effectId, evidence, given, h ▸ hbody, rfl⟩
  · simp at h
  · simp at h
  · rename_i hbody
    exact Or.inl ⟨rfl, hbody⟩

theorem verifyCompletionOutputBundle_eq_ok {event : RunEvent}
    {output : Option CompletionOutputRecord}
    (h : verifyCompletionOutputBundle event output = .ok ()) :
    (output = none ∧ ∀ decision candidateId summary digest,
        event.body ≠ .completionCandidateRecorded decision candidateId summary digest) ∨
      ∃ decision candidateId summary given, event.body =
          .completionCandidateRecorded decision candidateId summary (some given.recordDigest) ∧
        output = some given := by
  unfold verifyCompletionOutputBundle at h
  split at h
  · rename_i decision candidateId summary expected given hbody
    simp only [Outcome.failIf_eq_ok, ne_eq, Decidable.not_not] at h
    exact Or.inr ⟨decision, candidateId, summary, given, h ▸ hbody, rfl⟩
  · simp at h
  · simp at h
  · rename_i hbody
    exact Or.inl ⟨rfl, hbody⟩

/-! ## Every accepted append is a step -/

theorem RunEventBody.not_plain {body : RunEventBody} (h : ¬ body.plain = true) :
    (∃ stepId objective dependsOn, body = .stepPlanned stepId objective dependsOn) ∨
      (∃ decision steps, body = .planAccepted decision steps) ∨
      (∃ stepId intent, body = .effectIntentCommitted stepId intent) ∨
      (∃ stepId effectId, body = .effectExecutionStarted stepId effectId) ∨
      (∃ stepId effectId evidence digest,
        body = .effectSucceeded stepId effectId evidence (some digest)) ∨
      (∃ decision candidateId summary digest,
        body = .completionCandidateRecorded decision candidateId summary digest) ∨
      ∃ stepId effectId disposition receiptId receiptDigest,
        body = .verificationRecorded stepId effectId disposition receiptId receiptDigest := by
  unfold RunEventBody.plain at h
  split at h <;> simp at *

theorem applyCommittedEvent_plain {index : VerifiedRunIndex} {record : EventRecord}
    {anchors : CommitAnchors} (h : record.event.body.plain = true) :
    index.applyCommittedEvent record anchors = .ok index := by
  unfold RunEventBody.plain at h
  unfold VerifiedRunIndex.applyCommittedEvent
  split at h <;> simp_all

theorem updateWith_planInputs {inputs : Option (List PlannedInvocationMaterialRecord)}
    (h : inputs.getD [] = []) (index : VerifiedRunIndex) :
    index.updateWith inputs VerifiedRunIndex.applyPlanInputs = index := by
  cases inputs with
  | none => rfl
  | some given =>
    obtain rfl : given = [] := h
    rfl

/-- **Every accepted append is a step**, and its index update cannot panic. -/
theorem Accepted.step {index : VerifiedRunIndex} {event : RunEvent} {sidecars : CommitSidecars}
    {anchors : CommitAnchors} {commit : Commit}
    (h : Accepted D P index event sidecars anchors commit) (data : RunData) :
    ∃ index', index.applyCommitted commit sidecars anchors = .ok index' ∧
      CommitStep D P data index commit (data.commit commit sidecars) index' := by
  obtain ⟨planInputs, material, output, completionOutput, receipt⟩ := sidecars
  obtain rfl := h.prepared.carries
  have hbundle := h.bundle
  simp only [verifyCommitSidecars, Outcome.bind_eq_ok, Outcome.exists_unit] at hbundle
  obtain ⟨hplan, hmaterial, hreceipt, houtput, hcompletion⟩ := hbundle
  replace hplan := verifyPlanInputBundle_eq_ok hplan
  replace hmaterial := verifyMaterialBundle_eq_ok hmaterial
  replace hreceipt := verifyReceiptBundle_eq_ok hreceipt
  replace houtput := verifyToolOutputBundle_eq_ok houtput
  replace hcompletion := verifyCompletionOutputBundle_eq_ok hcompletion
  by_cases hplain : commit.record.event.body.plain = true
  · -- none of the sidecars belongs to a plain event
    have hbody : ∀ {body}, commit.record.event.body = body → ¬ body.plain = false := by
      rintro body rfl
      simp [hplain]
    obtain ⟨hinputs, -⟩ := hplan.resolve_right (by
      rintro ⟨_, _, _, _, hb, _⟩
      exact hbody hb rfl)
    obtain ⟨rfl, -⟩ := hmaterial.resolve_right (by
      rintro ⟨_, _, _, hb, _⟩
      exact hbody hb rfl)
    obtain ⟨rfl, -⟩ := hreceipt.resolve_right (by
      rintro ⟨_, _, _, _, _, _, hb, _⟩
      exact hbody hb rfl)
    obtain ⟨rfl, -⟩ := houtput.resolve_right (by
      rintro ⟨_, _, _, _, hb, _⟩
      exact hbody hb rfl)
    obtain ⟨rfl, -⟩ := hcompletion.resolve_right (by
      rintro ⟨_, _, _, _, hb, _⟩
      exact hbody hb rfl)
    refine ⟨index.push commit, ?_, ?_⟩
    · simp only [VerifiedRunIndex.applyCommitted, applyCommittedEvent_plain hplain,
        updateWith_planInputs hinputs]
      rfl
    · simp only [RunData.commit, hinputs]
      exact .plain hplain
  · rcases RunEventBody.not_plain hplain with ⟨stepId, objective, dependsOn, hbody⟩ |
      ⟨decision, steps, hbody⟩ | ⟨stepId, intent, hbody⟩ | ⟨stepId, effectId, hbody⟩ |
      ⟨stepId, effectId, evidence, digest, hbody⟩ |
      ⟨decision, candidateId, summary, digest, hbody⟩ |
      ⟨stepId, effectId, disposition, receiptId, receiptDigest, hbody⟩
    · obtain ⟨hinputs, -⟩ := hplan.resolve_right (by simp [hbody])
      obtain ⟨rfl, -⟩ := hmaterial.resolve_right (by simp [hbody])
      obtain ⟨rfl, -⟩ := hreceipt.resolve_right (by simp [hbody])
      obtain ⟨rfl, -⟩ := houtput.resolve_right (by simp [hbody])
      obtain ⟨rfl, -⟩ := hcompletion.resolve_right (by simp [hbody])
      refine ⟨_, ?_, by simp only [RunData.commit, hinputs]; exact .stepPlanned hbody⟩
      simp only [VerifiedRunIndex.applyCommitted, VerifiedRunIndex.applyCommittedEvent, hbody,
        updateWith_planInputs hinputs]
      rfl
    · obtain ⟨_, _, inputs, byStep, hb, rfl, hlength, hbyStep, hverified⟩ :=
        hplan.resolve_left fun hno => hno.2 _ _ hbody
      rw [hbody] at hb
      obtain ⟨rfl, rfl⟩ := RunEventBody.planAccepted.inj hb
      obtain ⟨rfl, -⟩ := hmaterial.resolve_right (by simp [hbody])
      obtain ⟨rfl, -⟩ := hreceipt.resolve_right (by simp [hbody])
      obtain ⟨rfl, -⟩ := houtput.resolve_right (by simp [hbody])
      obtain ⟨rfl, -⟩ := hcompletion.resolve_right (by simp [hbody])
      refine ⟨_, ?_, .planAccepted hbody hlength hbyStep hverified (h.planInputs inputs rfl)⟩
      simp only [VerifiedRunIndex.applyCommitted, VerifiedRunIndex.applyCommittedEvent, hbody,
        foldl_applyPlannedStep]
      rfl
    · obtain ⟨hinputs, -⟩ := hplan.resolve_right (by simp [hbody])
      obtain ⟨_, _, material, hb, rfl, hverified⟩ :=
        hmaterial.resolve_left fun hno => hno.2 _ _ hbody
      rw [hbody] at hb
      obtain ⟨rfl, rfl⟩ := RunEventBody.effectIntentCommitted.inj hb
      obtain ⟨rfl, -⟩ := hreceipt.resolve_right (by simp [hbody])
      obtain ⟨rfl, -⟩ := houtput.resolve_right (by simp [hbody])
      obtain ⟨rfl, -⟩ := hcompletion.resolve_right (by simp [hbody])
      refine ⟨_, ?_, by
        simp only [RunData.commit, hinputs]
        exact .intentCommitted hbody hverified (h.material material rfl)⟩
      simp only [VerifiedRunIndex.applyCommitted, VerifiedRunIndex.applyCommittedEvent, hbody,
        updateWith_planInputs hinputs]
      rfl
    · obtain ⟨hinputs, -⟩ := hplan.resolve_right (by simp [hbody])
      obtain ⟨rfl, -⟩ := hmaterial.resolve_right (by simp [hbody])
      obtain ⟨rfl, -⟩ := hreceipt.resolve_right (by simp [hbody])
      obtain ⟨rfl, -⟩ := houtput.resolve_right (by simp [hbody])
      obtain ⟨rfl, -⟩ := hcompletion.resolve_right (by simp [hbody])
      refine ⟨_, ?_, by simp only [RunData.commit, hinputs]; exact .executionStarted hbody⟩
      simp only [VerifiedRunIndex.applyCommitted, VerifiedRunIndex.applyCommittedEvent, hbody,
        updateWith_planInputs hinputs]
      rfl
    · obtain ⟨hinputs, -⟩ := hplan.resolve_right (by simp [hbody])
      obtain ⟨rfl, -⟩ := hmaterial.resolve_right (by simp [hbody])
      obtain ⟨rfl, -⟩ := hreceipt.resolve_right (by simp [hbody])
      obtain ⟨_, _, _, output, hb, rfl⟩ := houtput.resolve_left fun hno => hno.2 _ _ _ _ hbody
      obtain ⟨rfl, -⟩ := hcompletion.resolve_right (by simp [hbody])
      obtain ⟨anchor, hanchor, hcandidate⟩ := h.output output rfl
      refine ⟨_, ?_, by simp only [RunData.commit, hinputs]; exact .toolOutput hb hcandidate⟩
      simp only [VerifiedRunIndex.applyCommitted, VerifiedRunIndex.applyCommittedEvent, hb, hanchor,
        updateWith_planInputs hinputs]
      rfl
    · obtain ⟨hinputs, -⟩ := hplan.resolve_right (by simp [hbody])
      obtain ⟨rfl, -⟩ := hmaterial.resolve_right (by simp [hbody])
      obtain ⟨rfl, -⟩ := hreceipt.resolve_right (by simp [hbody])
      obtain ⟨rfl, -⟩ := houtput.resolve_right (by simp [hbody])
      obtain ⟨_, _, _, output, hb, rfl⟩ := hcompletion.resolve_left fun hno => hno.2 _ _ _ _ hbody
      obtain ⟨anchor, hanchor, hcandidate⟩ := h.completionOutput output rfl
      refine ⟨_, ?_, by simp only [RunData.commit, hinputs]; exact .completionOutput hb hcandidate⟩
      simp only [VerifiedRunIndex.applyCommitted, VerifiedRunIndex.applyCommittedEvent, hb, hanchor,
        updateWith_planInputs hinputs]
      rfl
    · obtain ⟨hinputs, -⟩ := hplan.resolve_right (by simp [hbody])
      obtain ⟨rfl, -⟩ := hmaterial.resolve_right (by simp [hbody])
      obtain ⟨_, _, _, _, _, receipt, hb, rfl, hvalid⟩ :=
        hreceipt.resolve_left fun hno => hno.2 _ _ _ _ _ hbody
      obtain ⟨rfl, -⟩ := houtput.resolve_right (by simp [hbody])
      obtain ⟨rfl, -⟩ := hcompletion.resolve_right (by simp [hbody])
      obtain ⟨anchor, hanchor, hcandidate⟩ := h.receipt receipt rfl
      refine ⟨_, ?_, by
        simp only [RunData.commit, hinputs, hbody, RunEventBody.receiptEffect]
        exact .receipt hbody hvalid hcandidate⟩
      simp only [VerifiedRunIndex.applyCommitted, VerifiedRunIndex.applyCommittedEvent, hbody,
        hanchor, updateWith_planInputs hinputs]
      rfl

end Xgeny
