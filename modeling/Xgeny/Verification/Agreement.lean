import Xgeny.Admission.Admitted
import Xgeny.Store.Anchors
import Xgeny.Store.Atomicity
import Xgeny.Verification.Runner

set_option autoImplicit false

/-!
# The runner and the store agree on receipts

The runner assembles a receipt field by field, and the store checks it field by field against the
journal and against the receipt before it. A receipt that was built is accepted, unless another
effect of the run already has a receipt of the same name.

* `Verifies`: what a verified step has passed;
* `receipt_artifacts`, `receipt_rules`, `receipt_binding`: the checks of the store, one by one;
* **`receipt_agreement`**: the law, for every reachable store;
* `receipt_name_taken`: two effects with receipts of the same name.
-/

namespace Xgeny

open EventLog

variable {D : Digests} {P : Protocol}

/-! ## What was verified -/

/-- What a verified step has passed. -/
structure Verifies (D : Digests) (step : StepState) (toolOutput : Option ToolOutputRecord)
    (verified : VerifiedStep) : Prop where
  intent : step.intent = some verified.intent
  provenance : verified.intent.receiptProvenance = some verified.provenance
  profile : receiptProfileMatches verified.provenance.profileVersion verified.intent.effectClass =
    true
  outputProfile : toolOutputProfileMatches verified.provenance verified.intent.effectClass = true
  inputSummary : verified.provenance.inputSummary = coreReceiptInputSummaryV1
  reportProfile : verifyReportProfile verified.intent verified.provenance verified.report = .ok ()
  output : verifyReportOutput verified.provenance toolOutput verified.report = .ok ()
  report : verifyReport verified.provenance verified.report =
    .ok (verified.outcome, verified.verification)

theorem verifyStep_eq_ok {step : StepState} {toolOutput : Option ToolOutputRecord}
    {capabilities : CapabilityRegistry} {verifiers : EffectVerifierRegistry}
    {verified : VerifiedStep}
    (h : verifyStep D step toolOutput capabilities verifiers = .ok verified) :
    Verifies D step toolOutput verified := by
  simp only [verifyStep, verifyProvenance, Outcome.bind_eq_ok, Outcome.exists_unit,
    Outcome.okOr_eq_ok, Outcome.failIf_eq_ok, Outcome.pure_eq_ok, Bool.not_eq_false, ne_eq,
    Decidable.not_not] at h
  obtain ⟨intent, hintent, _, ⟨provenance, hprovenance, hprofile, houtputProfile, hinput, _, -, _,
    -, -, rfl⟩, _, -, -, _, -, _, -, report, -, hreportProfile, houtput, ⟨outcome, verification⟩,
    hreport, rfl⟩ := h
  exact ⟨hintent, hprovenance, hprofile, houtputProfile, hinput, hreportProfile, houtput, hreport⟩

/-! ## Rules -/

theorem zip_map_zip {α β γ : Type} (f : α × β → γ) (xs : List α) (ys : List β) :
    ((xs.zip ys).map f).zip ys = (xs.zip ys).map fun pair => (f pair, pair.2) := by
  induction xs generalizing ys with
  | nil => rfl
  | cons x xs ih =>
    cases ys with
    | nil => rfl
    | cons y ys => simp [ih]

theorem verifyReport_eq_ok {provenance : ReceiptProvenance} {report : VerificationReport}
    {outcome : CoreVerificationOutcome} {evidence : List VerificationEvidence}
    (h : verifyReport provenance report = .ok (outcome, evidence)) :
    report.rules.length = provenance.verificationPlan.length ∧
      evidence = (report.rules.zip provenance.verificationPlan).map
        (fun pair => pair.1.evidence pair.2) ∧
      (∀ pair ∈ report.rules.zip provenance.verificationPlan,
        ¬ (pair.1.result = .passed ∧ pair.1.evidenceDigest = none)) ∧
      outcome = evaluateCoreVerificationV1 evidence := by
  simp only [verifyReport, Outcome.bind_eq_ok, Outcome.exists_unit, Outcome.failIf_eq_ok, ne_eq,
    Decidable.not_not, Outcome.pure_eq_ok, Prod.mk.injEq] at h
  obtain ⟨hlength, found, hfold, rfl, rfl⟩ := h
  have hloop := Outcome.foldl_induction
    (I := fun seen evidence => evidence = seen.map (fun pair => pair.1.evidence pair.2) ∧
      ∀ pair ∈ seen, ¬ (pair.1.result = .passed ∧ pair.1.evidenceDigest = none))
    ?_ ?_ hfold
  · exact ⟨hlength, hloop.1, hloop.2, rfl⟩
  · exact ⟨rfl, List.forall_mem_nil _⟩
  · rintro seen evidence pair evidence' _ ⟨rfl, hseen⟩ hrule
    simp only [verifyReportRule, Outcome.bind_eq_ok, Outcome.exists_unit, Outcome.failIf_eq_ok,
      not_or, Outcome.pure_eq_ok] at hrule
    obtain ⟨⟨-, hpassed⟩, rfl⟩ := hrule
    refine ⟨by rw [List.map_append, List.map_singleton], fun other hother => ?_⟩
    rcases List.mem_append.mp hother with hother | hother
    · exact hseen other hother
    · rwa [List.mem_singleton.mp hother]

section

variable {state : RunState} {stepId startedAt endedAt digest : String}
  {previous toolDigest : Option String} {step : StepState} {toolOutput : Option ToolOutputRecord}
  {verified : VerifiedStep} {receipt : ExecutionReceiptBody}

theorem receipt_rules (h : Verifies D step toolOutput verified) :
    verified.verification.length = verified.provenance.verificationPlan.length ∧
      ∀ pair ∈ verified.verification.zip verified.provenance.verificationPlan,
        pair.1.strategy = protocolVerificationStrategy pair.2.strategy ∧
        pair.1.required = pair.2.required ∧
        pair.1.summary = coreVerificationSummaryV1 pair.1.result ∧ pair.1.artifact = none ∧
        ¬ (pair.1.result = .passed ∧ pair.1.evidenceDigest = none) := by
  obtain ⟨hlength, hevidence, hpassed, -⟩ := verifyReport_eq_ok h.report
  constructor
  · rw [hevidence, List.length_map, List.length_zip, hlength, Nat.min_self]
  · intro pair hpair
    rw [hevidence, zip_map_zip] at hpair
    obtain ⟨rule, hrule, rfl⟩ := List.mem_map.mp hpair
    refine ⟨rfl, rfl, rfl, rfl, fun hbad => hpassed rule hrule ⟨hbad.1, ?_⟩⟩
    exact Option.map_eq_none_iff.mp hbad.2

/-! ## Artifacts -/

theorem verifyCoreReceiptArtifact_ref {seen seen' : BTreeSet String × UInt64}
    {artifact : VerifiedArtifactDescriptor} (h : checkReportArtifact seen artifact = .ok seen') :
    verifyCoreReceiptArtifact receipt seen
      (artifact.artifactRef receipt.runId receipt.stepId receipt.receiptId) = .ok seen' := by
  simp only [checkReportArtifact, Outcome.bind_eq_ok, Outcome.exists_unit, Outcome.failIf_eq_ok,
    Outcome.okOr_eq_ok, Outcome.pure_eq_ok] at h
  obtain ⟨hnew, total, htotal, hbound, rfl⟩ := h
  simp only [verifyCoreReceiptArtifact, Outcome.bind_eq_ok, Outcome.exists_unit,
    Outcome.failIf_eq_ok, Outcome.okOr_eq_ok, Outcome.pure_eq_ok]
  refine ⟨total, htotal, ?_, rfl⟩
  simp only [VerifiedArtifactDescriptor.artifactRef, artifact.isValid]
  simpa [hnew, maxVerifiedArtifactTotalBytes] using hbound

/-- **The artifacts of a report become artifacts that the store accepts.** -/
theorem receipt_artifacts {seen seen' : BTreeSet String × UInt64}
    {artifacts : List VerifiedArtifactDescriptor}
    (h : Outcome.foldl checkReportArtifact seen artifacts = .ok seen') :
    Outcome.foldl (verifyCoreReceiptArtifact receipt) seen (artifacts.map fun artifact =>
      artifact.artifactRef receipt.runId receipt.stepId receipt.receiptId) = .ok seen' := by
  induction artifacts generalizing seen with
  | nil =>
    obtain rfl := Except.ok.inj h
    rfl
  | cons artifact artifacts ih =>
    simp only [List.map_cons, Outcome.foldl, Outcome.bind_eq_ok] at h ⊢
    obtain ⟨next, hartifact, hrest⟩ := h
    exact ⟨next, verifyCoreReceiptArtifact_ref hartifact, ih hrest⟩

/-- A receipt that the runner has built. -/
structure Built (state : RunState) (stepId startedAt endedAt : String) (previous : Option String)
    (verified : VerifiedStep) (receipt : ExecutionReceiptBody) : Prop where
  draft : receipt = { receiptDraft state stepId startedAt endedAt previous verified with
    receiptDigest := receipt.receiptDigest }

theorem Built.artifacts_eq
    (hbuilt : Built state stepId startedAt endedAt previous verified receipt) :
    receipt.artifacts = verified.report.artifacts.map fun artifact =>
      artifact.artifactRef receipt.runId receipt.stepId receipt.receiptId := by
  rw [hbuilt.draft]
  rfl

theorem Built.verifyArtifacts
    (hbuilt : Built state stepId startedAt endedAt previous verified receipt)
    (h : Verifies D step toolOutput verified) :
    verifyCoreReceiptArtifacts receipt verified.intent verified.provenance = .ok () := by
  have hartifacts := hbuilt.artifacts_eq
  have hprofile := h.profile
  have hreport := h.reportProfile
  simp only [verifyReportProfile, Outcome.failIf_eq_ok, Decidable.not_not] at hreport
  rw [verifyCoreReceiptArtifacts]
  by_cases hv1 : verified.provenance.profileVersion = coreReceiptProfileV1
  · rw [if_pos hv1] at hreport ⊢
    have hversions : coreReceiptProfileV1 ≠ coreReceiptProfileV2 := by decide
    have hclass : verified.intent.effectClass ≠ .readOnly := by
      intro hreadOnly
      simp [receiptProfileMatches, hv1, hversions, hreadOnly] at hprofile
    rw [List.isEmpty_iff] at hreport
    simp [hclass, hartifacts, hreport]
  · rw [if_neg hv1] at hreport ⊢
    obtain ⟨hv2, hclass, hsome⟩ := hreport
    obtain ⟨seen, hbounded⟩ := verified.report.bounded
    simp only [checkReportArtifacts, Outcome.bind_eq_ok, Outcome.exists_unit,
      Outcome.failIf_eq_ok] at hbounded
    obtain ⟨hcount, hfold⟩ := hbounded
    rw [if_pos hv2]
    simp only [Outcome.bind_eq_ok, Outcome.exists_unit, Outcome.failIf_eq_ok, Outcome.pure_eq_ok]
    refine ⟨?_, seen, by rw [hartifacts]; exact receipt_artifacts hfold, trivial⟩
    rw [hartifacts, List.map_eq_nil_iff, List.length_map]
    rintro (hbad | hbad | hbad)
    · exact hbad hclass
    · exact absurd hsome (by simp [hbad])
    · exact hcount hbad

/-! ## The intent -/

/-- **The receipt repeats its intent**, and its evidence justifies its status. -/
theorem Built.verifyIntentBinding
    (hbuilt : Built state stepId startedAt endedAt previous verified receipt)
    (h : Verifies D step toolOutput verified) :
    verifyReceiptIntentBinding receipt verified.intent verified.provenance verified.disposition =
      .ok () := by
  obtain ⟨hlength, hrules⟩ := receipt_rules h
  have hverification : receipt.verification = verified.verification := by
    rw [hbuilt.draft]
    rfl
  have houtcome := (verifyReport_eq_ok h.report).2.2.2
  simp only [verifyReceiptIntentBinding, Outcome.bind_eq_ok, Outcome.exists_unit,
    Outcome.failIf_eq_ok, Outcome.forEach_eq_ok, hverification]
  refine ⟨hbuilt.verifyArtifacts h, ?_, not_not.mpr hlength, ?_, ?_⟩
  · rw [hbuilt.draft]
    simp [receiptDraft, hasCoreRedactions, InvocationBinding.capability, h.inputSummary]
  · rintro ⟨evidence, rule⟩ hpair
    obtain ⟨hstrategy, hrequired, hsummary, hartifact, hpassed⟩ := hrules _ hpair
    rintro (hbad | hbad | hbad | hbad | hbad)
    · exact hbad hstrategy
    · exact hbad hrequired
    · exact hbad hsummary
    · exact hbad hartifact
    · exact hpassed hbad
  · rw [hbuilt.draft]
    simp [receiptDraft, VerifiedStep.disposition, ← houtcome]

end

/-! ## The decision to append -/

/-- What the runner has found in the store before it appends a receipt. -/
structure Finalizes (D : Digests) (P : Protocol) (store : MemoryRunStore) (stepId : String)
    (state : RunState) (step : StepState) (verified : VerifiedStep) (metadata : EventMetadata)
    (startedAt : String) (receipt : ExecutionReceiptBody) : Prop where
  current : store.index.state = some state
  found : state.steps[stepId]? = some step
  status : step.status = .validating
  verifies : Verifies D step (store.outputs[verified.intent.effectId]?.map StoredToolOutput.record)
    verified
  started : store.index.effectStartedAt state stepId = some startedAt
  built : Built state stepId startedAt metadata.recordedAt store.index.receiptHeadDigest verified
    receipt
  valid : validateExecutionReceipt D P receipt = .ok ()

section

variable {store : MemoryRunStore} {stepId : String} {snapshot : RunVerificationSnapshot}
  {state : RunState} {event : RunEvent} {receipt : ExecutionReceiptBody}
  {disposition : VerificationDisposition} {lease : RunLease} {capabilities : CapabilityRegistry}
  {verifiers : EffectVerifierRegistry}
  {events : RunState → Except EventFactoryError EventMetadata}

theorem loadVerificationSnapshot_eq_ok
    (h : store.loadVerificationSnapshot D stepId = .ok (some snapshot)) :
    store.index.state = some snapshot.state ∧
      snapshot.effectStartedAt = store.index.effectStartedAt snapshot.state stepId ∧
      snapshot.previousReceiptDigest = store.index.receiptHeadDigest ∧
      ∀ step intent, snapshot.state.steps[stepId]? = some step → step.intent = some intent →
        snapshot.toolOutput = store.outputs[intent.effectId]?.map StoredToolOutput.record := by
  unfold MemoryRunStore.loadVerificationSnapshot at h
  split at h
  · simp at h
  · rename_i found hfound
    obtain ⟨state, hstate, rfl⟩ := Option.map_eq_some_iff.mp hfound
    split at h
    · rename_i hnone
      obtain rfl := Option.some.inj (Except.ok.inj h)
      refine ⟨hstate, rfl, rfl, fun step intent hstep hintent => ?_⟩
      simp [hstep, hintent] at hnone
    · rename_i effectId heffect
      simp only [Outcome.bind_eq_ok, Outcome.exists_unit, Outcome.pure_eq_ok] at h
      obtain ⟨-, h⟩ := h
      obtain rfl := Option.some.inj h
      refine ⟨hstate, rfl, rfl, fun step intent hstep hintent => ?_⟩
      obtain rfl : intent.effectId = effectId := by simpa [hstep, hintent] using heffect
      rfl

theorem buildExecutionReceipt_eq_ok {startedAt endedAt : String} {previous : Option String}
    {verified : VerifiedStep}
    (h : buildExecutionReceipt D P state stepId startedAt endedAt previous verified =
      .ok receipt) :
    Built state stepId startedAt endedAt previous verified receipt ∧
      validateExecutionReceipt D P receipt = .ok () := by
  simp only [buildExecutionReceipt, Outcome.bind_eq_ok, Outcome.exists_unit, Outcome.mapErr_eq_ok,
    Outcome.pure_eq_ok] at h
  obtain ⟨digest, -, hvalid, rfl⟩ := h
  exact ⟨⟨rfl⟩, hvalid⟩

theorem decide_eq_finalize
    (h : VerificationRunner.decide D P store events lease capabilities verifiers stepId =
      .ok (.finalize state event receipt disposition)) :
    ∃ step verified metadata startedAt,
      Finalizes D P store stepId state step verified metadata startedAt receipt ∧
      event = VerificationRunner.finalization state stepId metadata verified receipt ∧
      disposition = verified.disposition := by
  simp only [VerificationRunner.decide, Outcome.bind_eq_ok, Outcome.exists_unit,
    Outcome.okOr_eq_ok, Outcome.mapErr_eq_ok] at h
  obtain ⟨_, hloaded, snapshot, rfl, -, step, hstep, h⟩ := h
  obtain ⟨hstate, hstarted, hprevious, houtput⟩ := loadVerificationSnapshot_eq_ok hloaded
  split at h
  · simp at h
  · simp at h
  · simp at h
  · rename_i hstatus
    simp only [VerificationRunner.finalize, Outcome.bind_eq_ok] at h
    obtain ⟨verified, hverified, h⟩ := h
    split at h
    case h_2 => simp at h
    rename_i metadata _
    simp only [pure_bind, Outcome.bind_eq_ok, Outcome.exists_unit, Outcome.okOr_eq_ok,
      Outcome.pure_eq_ok] at h
    obtain ⟨-, startedAt, hsome, built, hbuilt, hdecision⟩ := h
    obtain ⟨rfl, rfl, rfl, rfl⟩ := VerificationRunner.Decision.finalize.inj hdecision
    have hverifies := verifyStep_eq_ok hverified
    obtain ⟨hbuilt, hvalid⟩ := buildExecutionReceipt_eq_ok hbuilt
    rw [hprevious] at hbuilt
    rw [hstarted] at hsome
    rw [houtput step verified.intent hstep hverifies.intent] at hverifies
    exact ⟨step, verified, metadata, startedAt,
      ⟨hstate, hstep, hstatus, hverifies, hsome, hbuilt, hvalid⟩, rfl, rfl⟩
  · simp at h

end

/-! ## The append -/

/-- No other receipt has the digest of this one. -/
def ReceiptDigestInjective (D : Digests) (receipt : ExecutionReceiptBody) : Prop :=
  ∀ other : ExecutionReceiptBody, other.receiptDigest = receipt.receiptDigest →
    verifyReceiptDigest D "runtime ExecutionReceipt" other = .ok () →
    verifyReceiptDigest D "runtime ExecutionReceipt" receipt = .ok () → other = receipt

/-- A receipt does not end before the effect it is about has started. -/
def ExecutionReceiptBody.Timely (P : Protocol) (receipt : ExecutionReceiptBody) : Prop :=
  ∃ started ended, P.rfc3339 receipt.startedAt = some started ∧
    P.rfc3339 receipt.endedAt = some ended ∧ started ≤ ended

section

variable {store : MemoryRunStore} {stepId startedAt : String} {state : RunState} {step : StepState}
  {verified : VerifiedStep} {metadata : EventMetadata} {receipt : ExecutionReceiptBody}
  {record : EventRecord}

theorem Finalizes.commits
    (h : Finalizes D P store stepId state step verified metadata startedAt receipt) :
    step.Commits verified.intent.effectId := by
  simp [StepState.Commits, h.verifies.intent]

theorem Anchored.intent_of_commits (ha : Anchored D store.toRunData store.index) {id effectId : String}
    (hstate : store.index.state = some state) (hstep : state.steps[id]? = some step)
    (hcommits : step.Commits effectId) :
    ∃ anchor, store.index.intents[effectId]? = some anchor ∧ anchor.stepId = id ∧
      step.intent = some anchor.intent := by
  obtain ⟨intent, hintent, rfl⟩ := Option.map_eq_some_iff.mp hcommits
  obtain ⟨anchor, hanchor, hid, rfl⟩ := ha.committed state id intent hstate
    (by simp [RunState.intentOf, hstep, hintent])
  exact ⟨anchor, hanchor, hid, hintent⟩

theorem Finalizes.unsettled
    (h : Finalizes D P store stepId state step verified metadata startedAt receipt)
    (ha : Anchored D store.toRunData store.index) :
    verified.intent.effectId ∉ store.index.receiptEffectIds := by
  intro hsettled
  obtain ⟨found, id, other, hfound, hother, hcommits, hterminal⟩ := ha.settled _ hsettled
  obtain rfl := Option.some.inj (h.current.symm.trans hfound)
  obtain ⟨anchor, hanchor, hid, -⟩ := ha.intent_of_commits h.current h.found h.commits
  obtain ⟨anchor', hanchor', hid', -⟩ := ha.intent_of_commits h.current hother hcommits
  obtain rfl := Option.some.inj (hanchor.symm.trans hanchor')
  obtain rfl := Option.some.inj (h.found.symm.trans (hid.symm.trans hid' ▸ hother))
  simp [StepStatus.Terminal, h.status] at hterminal

theorem Finalizes.effectStart
    (h : Finalizes D P store stepId state step verified metadata startedAt receipt) :
    ∃ start, store.index.effectStarts[verified.intent.effectId]? = some start ∧
      start.stepId = stepId ∧ start.recordedAt = startedAt := by
  have hstarted := h.started
  simp only [VerifiedRunIndex.effectStartedAt, Option.bind_eq_bind, Option.bind_eq_some_iff]
    at hstarted
  obtain ⟨found, hfound, intent, hintent, start, hstart, hstarted⟩ := hstarted
  obtain rfl := Option.some.inj (h.found.symm.trans hfound)
  obtain rfl := Option.some.inj (h.verifies.intent.symm.trans hintent)
  split at hstarted
  · rename_i hid
    exact ⟨start, hstart, hid, Option.some.inj hstarted⟩
  · simp at hstarted

/-- The anchor of the event that finishes the step. -/
def receiptAnchor (record : EventRecord) (stepId startedAt : String) (verified : VerifiedStep)
    (receipt : ExecutionReceiptBody) : ReceiptEventAnchor where
  eventSequence := record.sequence
  runId := record.event.runId
  stepId := stepId
  effectId := verified.intent.effectId
  disposition := verified.disposition
  receiptId := receipt.receiptId
  receiptDigest := receipt.receiptDigest
  startedAt := startedAt
  endedAt := record.event.recordedAt

theorem Finalizes.receiptAnchorFor
    (h : Finalizes D P store stepId state step verified metadata startedAt receipt)
    (ha : Anchored D store.toRunData store.index)
    (hevent : record.event = VerificationRunner.finalization state stepId metadata verified receipt)
    (hlater : ∀ sequence, store.index.Used sequence → sequence < record.sequence) :
    store.index.receiptAnchorFor record =
      .ok (receiptAnchor record stepId startedAt verified receipt) := by
  obtain ⟨anchor, hanchor, hid, -⟩ := ha.intent_of_commits h.current h.found h.commits
  obtain ⟨start, hstart, hstartId, rfl⟩ := h.effectStart
  have hintentLater := hlater _ (ha.intents _ anchor hanchor)
  have hstartLater := hlater _ (ha.starts _ start hstart)
  have hbody : record.event.body = .verificationRecorded stepId verified.intent.effectId
      verified.disposition receipt.receiptId receipt.receiptDigest := by rw [hevent]; rfl
  unfold VerifiedRunIndex.receiptAnchorFor
  simp only [hbody, Outcome.bind_eq_ok, Outcome.exists_unit, Outcome.okOr_eq_ok,
    Outcome.failIf_eq_ok, Outcome.pure_eq_ok]
  refine ⟨anchor, hanchor, ?_, start, hstart, ?_, rfl⟩
  · rintro (hbad | hbad)
    · exact hbad hid
    · exact UInt64.not_lt.mpr hbad hintentLater
  · rintro (hbad | hbad)
    · exact hbad hstartId
    · exact UInt64.not_lt.mpr hbad hstartLater

/-- **The output digest of the receipt is that of the durable output.** -/
theorem Finalizes.verifyToolOutputBinding
    (h : Finalizes D P store stepId state step verified metadata startedAt receipt)
    (ha : Anchored D store.toRunData store.index) :
    verifyReceiptToolOutputBinding store.index verified.intent.effectId receipt = .ok () := by
  obtain ⟨anchor, hanchor, -, hintent⟩ := ha.intent_of_commits h.current h.found h.commits
  have hsame : verified.intent = anchor.intent :=
    Option.some.inj (h.verifies.intent.symm.trans hintent)
  have hdigest : receipt.outputDigest = verified.report.outputDigest.val := by
    rw [h.built.draft]
    rfl
  have hprofile : anchor.intent.toolOutputProfile = verified.provenance.toolOutputProfile := by
    rw [← hsame, EffectIntent.toolOutputProfile, h.verifies.provenance]
    rfl
  have houtput := h.verifies.output
  simp only [verifyReceiptToolOutputBinding, Outcome.bind_eq_ok, Outcome.okOr_eq_ok]
  refine ⟨anchor, hanchor, ?_⟩
  rw [hprofile, ha.outputs, hdigest]
  cases hversion : verified.provenance.toolOutputProfile with
  | none =>
    cases hstored : store.outputs[verified.intent.effectId]? with
    | none => rfl
    | some stored => simp [verifyReportOutput, hversion, hstored] at houtput
  | some version =>
    cases hstored : store.outputs[verified.intent.effectId]? with
    | none => simp [verifyReportOutput, hversion, hstored] at houtput
    | some stored =>
      simp only [verifyReportOutput, hversion, hstored, Option.map_some, Outcome.failIf_eq_ok,
        Decidable.not_not] at houtput
      simp [houtput.1, houtput.2]

theorem Finalizes.verifyTimestamps_iff
    (h : Finalizes D P store stepId state step verified metadata startedAt receipt)
    (hrecorded : record.event.recordedAt = metadata.recordedAt) :
    verifyReceiptTimestamps P (receiptAnchor record stepId startedAt verified receipt) receipt =
      .ok () ↔ receipt.Timely P := by
  have htimes : receipt.startedAt = startedAt ∧ receipt.effect.startedAt = some startedAt ∧
      receipt.endedAt = metadata.recordedAt := by
    rw [h.built.draft]
    exact ⟨rfl, rfl, rfl⟩
  obtain ⟨hstart, heffect, hend⟩ := htimes
  simp [verifyReceiptTimestamps, ExecutionReceiptBody.Timely, receiptAnchor, Outcome.bind_eq_ok,
    Outcome.failIf_eq_ok, Outcome.okOr_eq_ok, hstart, heffect, hend, hrecorded]

/-- **The candidate checks come down to the name and the times.** -/
theorem Finalizes.verifyReceiptCandidate_iff
    (h : Finalizes D P store stepId state step verified metadata startedAt receipt)
    (ha : Anchored D store.toRunData store.index) (hinj : ReceiptDigestInjective D receipt)
    (hevent : record.event = VerificationRunner.finalization state stepId metadata verified receipt)
    (hlater : ∀ sequence, store.index.Used sequence → sequence < record.sequence) :
    (∃ anchor, verifyReceiptCandidate P store.index record receipt = .ok anchor) ↔
      receipt.receiptId ∉ store.index.receiptIds ∧ receipt.Timely P := by
  obtain ⟨anchor, hanchor, -, hintent⟩ := ha.intent_of_commits h.current h.found h.commits
  have hsame : verified.intent = anchor.intent :=
    Option.some.inj (h.verifies.intent.symm.trans hintent)
  have hrecorded : record.event.recordedAt = metadata.recordedAt := by rw [hevent]; rfl
  have hfollows : receiptFollows (receiptAnchor record stepId startedAt verified receipt)
      store.index.receiptHeadDigest receipt = true := by
    have hparts : receipt.runId = record.event.runId ∧ receipt.stepId = stepId ∧
        receipt.previousReceiptDigest = store.index.receiptHeadDigest := by
      rw [h.built.draft, hevent]
      exact ⟨rfl, rfl, rfl⟩
    simp [receiptFollows, receiptAnchor, hparts]
  have hdigest : receipt.receiptId ∉ store.index.receiptIds →
      receipt.receiptDigest ∉ store.index.receiptDigests := by
    intro hname hused
    obtain ⟨other, hother, hsameDigest, hvalid⟩ := ha.digests _ hused
    obtain rfl := hinj other hsameDigest hvalid (validateExecutionReceipt_digest h.valid)
    exact hname hother
  simp only [verifyReceiptCandidate, h.receiptAnchorFor ha hevent hlater, Outcome.bind_eq_ok,
    Outcome.exists_unit, Outcome.failIf_eq_ok, Outcome.okOr_eq_ok, Outcome.expect_eq_ok,
    Outcome.pure_eq_ok]
  constructor
  · rintro ⟨_, found, hfound, hunused, -, _, -, _, -, -, -, htimes, -⟩
    obtain rfl := Except.ok.inj hfound
    exact ⟨fun hname => hunused (Or.inl hname), (h.verifyTimestamps_iff hrecorded).mp htimes⟩
  · rintro ⟨hname, htimes⟩
    refine ⟨_, _, rfl, ?_, not_not.mpr hfollows, anchor, hanchor, verified.provenance, ?_, ?_, ?_,
      (h.verifyTimestamps_iff hrecorded).mpr htimes, rfl⟩
    · rintro (hbad | hbad | hbad)
      · exact hname hbad
      · exact hdigest hname hbad
      · exact h.unsettled ha hbad
    · rw [← hsame]
      exact h.verifies.provenance
    · rw [← hsame]
      exact h.built.verifyIntentBinding h.verifies
    · exact h.verifyToolOutputBinding ha

theorem Finalizes.event_of
    (_ : Finalizes D P store stepId state step verified metadata startedAt receipt) :
    (VerificationRunner.finalization state stepId metadata verified receipt).Of state :=
  ⟨rfl, rfl, rfl⟩

theorem Finalizes.verifySidecars
    (h : Finalizes D P store stepId state step verified metadata startedAt receipt) :
    verifyCommitSidecars D P (VerificationRunner.finalization state stepId metadata verified receipt)
      { receipt := some receipt } = .ok () := by
  have hparts : receipt.runId = state.runId ∧ receipt.stepId = stepId := by
    rw [h.built.draft]
    exact ⟨rfl, rfl⟩
  simp [verifyCommitSidecars, VerificationRunner.finalization, RunState.event, verifyPlanInputBundle,
    verifyMaterialBundle, verifyReceiptBundle, verifyToolOutputBundle, verifyCompletionOutputBundle,
    Outcome.bind_eq_ok, Outcome.failIf_eq_ok, h.valid, hparts]

theorem Finalizes.recordVerification
    (h : Finalizes D P store stepId state step verified metadata startedAt receipt) :
    ∃ next, applyBody D state (.verificationRecorded stepId verified.intent.effectId
      verified.disposition receipt.receiptId receipt.receiptDigest) = .ok next := by
  simp only [applyBody, applyEffectLifecycle, Xgeny.recordVerification, Outcome.bind_eq_ok,
    Outcome.exists_unit, matchingStepMut_eq_ok, requireStatus_eq_ok, Outcome.pure_eq_ok]
  exact ⟨_, step, ⟨h.found, h.commits⟩, h.status, rfl⟩

theorem Finalizes.prepareCommit_iff
    (h : Finalizes D P store stepId state step verified metadata startedAt receipt)
    (hsound : store.Sound D P) :
    (∃ commit, prepareCommit D store.index (.fromState state)
        (VerificationRunner.finalization state stepId metadata verified receipt) = .ok commit) ↔
      metadata.eventId ∉ store.index.eventIds ∧ ∃ record, EventRecord.next D store.index.lastRecord
        (VerificationRunner.finalization state stepId metadata verified receipt) = .ok record := by
  have hstate : store.projection = some state := hsound.journal.projection.trans h.current
  simp only [prepareCommit, hsound.head hstate, h.current, Outcome.bind_eq_ok, Outcome.exists_unit,
    Outcome.failIf_eq_ok, Outcome.mapErr_eq_ok, Outcome.pure_eq_ok, ne_eq, Decidable.not_not]
  constructor
  · rintro ⟨_, -, hfresh, record, hrecord, -⟩
    exact ⟨hfresh, record, hrecord⟩
  · rintro ⟨hfresh, record, hrecord⟩
    have hcarries := EventRecord.next_event hrecord
    have hnext : NextRecord D store.records state (.verificationRecorded stepId
        verified.intent.effectId verified.disposition receipt.receiptId receipt.receiptDigest)
        record := by
      refine ⟨?_, ?_, ?_⟩
      · rw [← hsound.journal.last, hcarries, hrecord]
      · rw [hcarries]
        exact h.event_of
      · rw [hcarries]
        rfl
    obtain ⟨state', happly⟩ :=
      (hnext.accepted_iff (hsound.replay hstate) (by simp)).mpr h.recordVerification
    exact ⟨_, trivial, hfresh, record, hrecord, state', happly, rfl⟩

theorem VerifiedRunIndex.Used.lt {index : VerifiedRunIndex} {commit : Commit}
    {sequence : UInt64} (hused : index.Used sequence)
    (hp : Prepared D index commit.record.event commit) :
    sequence < commit.record.sequence := by
  obtain ⟨last, hlast, hle⟩ := hused
  have hlt := hp.sequence_lt hlast
  exact UInt64.lt_of_le_of_lt hle hlt

/-- **The append comes down to the event, the name and the times.** -/
theorem Finalizes.append_iff
    (h : Finalizes D P store stepId state step verified metadata startedAt receipt)
    (hsound : store.Sound D P) (ha : Anchored D store.toRunData store.index)
    (hinj : ReceiptDigestInjective D receipt) :
    (∃ commit store', store.appendWithExecutionReceipt D P (.fromState state)
        (VerificationRunner.finalization state stepId metadata verified receipt) receipt =
          .ok (commit, store')) ↔
      (metadata.eventId ∉ store.index.eventIds ∧ ∃ record,
        EventRecord.next D store.index.lastRecord
          (VerificationRunner.finalization state stepId metadata verified receipt) = .ok record) ∧
      receipt.receiptId ∉ store.index.receiptIds ∧ receipt.Timely P := by
  rw [← h.prepareCommit_iff hsound]
  have hcandidate : ∀ commit, prepareCommit D store.index (.fromState state)
      (VerificationRunner.finalization state stepId metadata verified receipt) = .ok commit →
      ((∃ anchor, verifyReceiptCandidate P store.index commit.record receipt = .ok anchor) ↔
        receipt.receiptId ∉ store.index.receiptIds ∧ receipt.Timely P) := by
    intro commit hprepare
    obtain ⟨-, hp⟩ := prepareCommit_eq_ok hprepare
    exact h.verifyReceiptCandidate_iff ha hinj hp.carries fun sequence hused =>
      hused.lt (hp.carries.symm ▸ hp)
  simp only [MemoryRunStore.appendWithExecutionReceipt, Outcome.bind_eq_ok, Outcome.exists_unit,
    h.verifySidecars, true_and]
  constructor
  · rintro ⟨_, _, commit, hprepare, anchor, hok, -⟩
    exact ⟨⟨commit, hprepare⟩, (hcandidate commit hprepare).mp ⟨anchor, hok⟩⟩
  · rintro ⟨⟨commit, hprepare⟩, hrest⟩
    obtain ⟨anchor, hok⟩ := (hcandidate commit hprepare).mpr hrest
    obtain ⟨-, hp⟩ := prepareCommit_eq_ok hprepare
    have haccepted : Accepted D P store.index commit.record.event { receipt := some receipt }
        { receipt := some anchor } commit := by
      refine ⟨hp.carries ▸ h.verifySidecars, hp.carries.symm ▸ hp, by simp, by simp, by simp,
        by simp, ?_⟩
      rintro _ ⟨⟩
      exact ⟨anchor, rfl, hok⟩
    obtain ⟨index, hindex, -⟩ := haccepted.step store.toRunData
    have hbody : commit.record.event.body = .verificationRecorded stepId verified.intent.effectId
        verified.disposition receipt.receiptId receipt.receiptDigest := by rw [hp.carries]; rfl
    refine ⟨commit, { store with
      toRunData := { store.push commit with
        receipts := store.receipts ++
          [⟨commit.record.sequence, verified.intent.effectId, receipt⟩] }
      index := index }, commit, hprepare, anchor, hok, ?_⟩
    simp only [hbody, pure_bind, Outcome.bind_eq_ok]
    exact ⟨index, hindex, rfl⟩

end

/-! ## The law -/

theorem coreReceiptIdV1_marked {a b : String}
    (h : coreReceiptIdV1 ("effect-" ++ a) = coreReceiptIdV1 ("effect-" ++ b)) : a = b := by
  have hmark : ∀ s : String, withoutEffectMark ("effect-" ++ s) = s := fun s => by
    have hdrop : ("effect-" ++ s).toList.dropPrefix? "effect-".toList = some s.toList :=
      List.dropPrefix?_eq_some_iff.mpr ⟨"effect-".toList, by simp, beq_self_eq_true _⟩
    rw [withoutEffectMark, hdrop]
    simp
  rw [coreReceiptIdV1, coreReceiptIdV1, hmark, hmark] at h
  exact String.toList_injective (by simpa using congrArg String.toList h)

theorem Prepared.recorded_step {index : VerifiedRunIndex} {commit : Commit} {event : RunEvent}
    {stepId effectId receiptId receiptDigest : String} {disposition : VerificationDisposition}
    (hp : Prepared D index event commit)
    (hbody : commit.record.event.body =
      .verificationRecorded stepId effectId disposition receiptId receiptDigest) :
    ∃ step, commit.state.steps[stepId]? = some step ∧ step.status = disposition.nextStatus ∧
      step.executionReceiptDigest = some receiptDigest := by
  obtain ⟨_, next, _, _, ht, hnext⟩ := (hp.carries.symm ▸ hp).transition (by simp [hbody])
  rw [hbody] at ht
  cases ht with
  | moved hstep hmove _ =>
    cases hmove with
    | verificationRecorded _ _ =>
      exact ⟨_, by rw [hnext]; exact Std.ExtTreeMap.getElem?_insert_self, rfl, rfl⟩

theorem Finalizes.marked {store : MemoryRunStore} {stepId startedAt : String} {state : RunState}
    {step : StepState} {verified : VerifiedStep} {metadata : EventMetadata}
    {receipt : ExecutionReceiptBody}
    (h : Finalizes D P store stepId state step verified metadata startedAt receipt)
    (ha : Anchored D store.toRunData store.index)
    (hmarked : ∀ effectId : String, effectId ∈ store.index.intents →
      ∃ rest, effectId = "effect-" ++ rest) :
    ∀ stored ∈ store.receipts, stored.receipt.receiptId ≠ receipt.receiptId := by
  intro stored hstored heq
  obtain ⟨hname, hsettled⟩ := ha.named stored hstored
  have hid : receipt.receiptId = coreReceiptIdV1 verified.intent.effectId := by
    rw [h.built.draft]
    rfl
  obtain ⟨_, _, _, hcurrent, hother, hcommits, _⟩ := ha.settled _ hsettled
  obtain ⟨anchor, hanchor, -⟩ := ha.intent_of_commits h.current h.found h.commits
  obtain ⟨anchor', hanchor', -⟩ := ha.intent_of_commits hcurrent hother hcommits
  obtain ⟨a, hverified⟩ := hmarked _ (BTreeMap.mem_iff_exists.mpr ⟨anchor, hanchor⟩)
  obtain ⟨b, hstoredMark⟩ := hmarked _ (BTreeMap.mem_iff_exists.mpr ⟨anchor', hanchor'⟩)
  rw [hname, hid, hverified, hstoredMark] at heq
  refine h.unsettled ha ?_
  rw [hverified, ← coreReceiptIdV1_marked heq, ← hstoredMark]
  exact hsettled

section

variable {state : RunState} {event : RunEvent} {receipt : ExecutionReceiptBody}
  {disposition : VerificationDisposition} {lease : RunLease} {capabilities : CapabilityRegistry}
  {verifiers : EffectVerifierRegistry} {stepId : String}
  {events : RunState → Except EventFactoryError EventMetadata}

/-- **The runner and the store agree on receipts**: in every reachable store, a receipt that the
runner has built is accepted if and only if its event is new and has room in the journal, its times
are ordered, and no receipt of the run has its name. Its step then ends as the rules were observed.
No two effects that the runtime has named have receipts of the same name. -/
theorem receipt_agreement {store : MemoryRunStore} (calls : List AppendCall)
    (hstore : (runCalls D P calls).1 = store)
    (h : VerificationRunner.decide D P store events lease capabilities verifiers stepId =
      .ok (.finalize state event receipt disposition)) :
    (ReceiptDigestInjective D receipt →
      ((∃ commit store', store.appendWithExecutionReceipt D P (.fromState state) event receipt =
          .ok (commit, store')) ↔
        (∀ r ∈ store.records, r.event.eventId ≠ event.eventId) ∧
        (∃ record, EventRecord.next D store.index.lastRecord event = .ok record) ∧
        receipt.Timely P ∧
        ∀ stored ∈ store.receipts, stored.receipt.receiptId ≠ receipt.receiptId)) ∧
    (∀ commit store', store.appendWithExecutionReceipt D P (.fromState state) event receipt =
        .ok (commit, store') →
      ∃ step, commit.state.steps[stepId]? = some step ∧ step.status = disposition.nextStatus ∧
        step.executionReceiptDigest = some receipt.receiptDigest) ∧
    ((∀ effectId : String, effectId ∈ store.index.intents →
        ∃ rest, effectId = "effect-" ++ rest) →
      ∀ stored ∈ store.receipts, stored.receipt.receiptId ≠ receipt.receiptId) := by
  obtain ⟨step, verified, metadata, startedAt, hfinal, rfl, rfl⟩ := decide_eq_finalize h
  have hsound : store.Sound D P := hstore ▸ (coherent_runCalls calls).1
  have ha : Anchored D store.toRunData store.index := hstore ▸ anchored_runCalls calls
  refine ⟨?_, ?_, ?_⟩
  · intro hinj
    rw [hfinal.append_iff hsound ha hinj, ha.events, ha.stored]
    constructor
    · rintro ⟨⟨hfresh, hnext⟩, hname, htimely⟩
      exact ⟨fun r hr heq => hfresh ⟨r, hr, heq⟩, hnext, htimely,
        fun stored hstored heq => hname ⟨stored, hstored, heq⟩⟩
    · rintro ⟨hfresh, hnext, htimely, hname⟩
      exact ⟨⟨fun ⟨r, hr, heq⟩ => hfresh r hr heq, hnext⟩,
        fun ⟨stored, hstored, heq⟩ => hname stored hstored heq, htimely⟩
  · intro commit store' happend
    have hcall : store.call D P (.withExecutionReceipt (.fromState state) _ receipt) =
      .ok (commit, store') := happend
    obtain ⟨-, hp⟩ := prepareCommit_eq_ok (MemoryRunStore.call_prepared hcall)
    have hbody : commit.record.event.body = .verificationRecorded stepId verified.intent.effectId
        verified.disposition receipt.receiptId receipt.receiptDigest := by rw [hp.carries]; rfl
    exact hp.recorded_step hbody
  · exact hfinal.marked ha

end

/-! ## A sample run

Two steps of one run execute their effects and are verified. The hashes are those of the canonical
documents, so the sample encoder answers as the real one does on every document of the run. -/

def bindingY : AuthorizationBinding :=
  checkedBinding "step-y" 6
    "sha256:5b0feb19b1686f7b1201109583a80f12b93c6bb4dc39345a2fc25bf8cfdefac8"
    (sampleDigest 'b')

def intentY : EffectIntent :=
  checkedIntent "x" "99e4544d8a2d5101b1afbded1987e4d07e53ef12681e701984fd5adf6cd46049"
    "1375bf9b7e2a38a08af413a5e08948be868ac52ed6d65adbda970bf550799976" bindingY

def materialY : InvocationMaterialRecord :=
  checkedMaterial "step-y" "549d68427cec7e9589ce2ab47f9e37892cbae2db790d812abfff4767e298a34e"
    "b665e6d439eb51efc77de5e53e9d58a98e1cb80822cf30f5e1069a0bc6ac58e9" intentY

/-- The receipt of one of the two steps. -/
def checkedReceipt (stepId hash : String) (previous : Option String) : ExecutionReceiptBody where
  apiVersion := apiVersionV1alpha1
  extensions := ∅
  requiredExtensions := []
  receiptId := "receipt-x"
  runId := "run-1"
  stepId := stepId
  invocationId := "invocation-1"
  planId := "plan-1"
  capability := gateDefinition.reference
  instanceId := "instance-1"
  inputDigest := sampleDigest '3'
  inputSummary := coreReceiptInputSummaryV1
  policy := ⟨"decision-1", sampleDigest '4', none, none⟩
  executor := ⟨"instance-1", .localHost, "linux-x86_64"⟩
  effect := ⟨.idempotent, true, some "2026-01-01T00:00:00Z", none⟩
  status := .succeeded
  startedAt := "2026-01-01T00:00:00Z"
  endedAt := "2026-01-01T00:00:00Z"
  outputDigest := sampleDigest '8'
  artifacts := []
  verification := [⟨.postcondition, true, .passed, coreVerificationSummaryV1 .passed,
    some (sampleDigest '9'), none⟩]
  redactionsApplied := coreReceiptRedactionsV1
  previousReceiptDigest := previous
  receiptDigest := "sha256:" ++ hash

def receiptX : ExecutionReceiptBody :=
  checkedReceipt "step-x" "939fcc5eb444b37d1fd59d45998838269522785f9540be17433bf14693408c58" none

def receiptY : ExecutionReceiptBody :=
  checkedReceipt "step-y" "4f03f96923288eb8ca741aa1270c3f5be2d9359a824670b537c65db115780612"
    (some receiptX.receiptDigest)

/-- Two steps execute effects that have receipts of the same name; both are verified. -/
def checkedLines : List SampleLine :=
  intentLines ++
  [⟨.effectExecutionStarted "step-x" "effect-x", 309,
      "1891a65b91de44569251d03cb83bc7b44e5e68ffce9bae3d736e38b32c046854"⟩,
    ⟨.effectSucceeded "step-x" "effect-x" (sampleDigest '7') none, 391,
      "5b0feb19b1686f7b1201109583a80f12b93c6bb4dc39345a2fc25bf8cfdefac8"⟩,
    ⟨.effectIntentCommitted "step-y" intentY, 2366,
      "422a44e110fb9b31d60751a89dada3355fc2d266f559c9ed68ea8bdcd1948930"⟩,
    ⟨.effectExecutionStarted "step-y" "x", 302,
      "c2d4f0cec30c69a0228ed98f45728eeeab7d53f266310c49d858a570f08184e5"⟩,
    ⟨.effectSucceeded "step-y" "x" (sampleDigest '7') none, 384,
      "ae0d3b94ea29685da7e7abc7d8c8042863acc2b384a44b72bb15530dad1a9b07"⟩,
    ⟨.verificationRecorded "step-x" "effect-x" .passed "receipt-x" receiptX.receiptDigest, 445,
      "8407426bf6824f925c964afabab8aded523dc65107da583bc978b5856aafc333"⟩,
    ⟨.verificationRecorded "step-y" "x" .passed "receipt-x" receiptY.receiptDigest, 438,
      "0a965860062c05d44a162866a49115ea349c90a3efbf5c1ffa5bd963ad31cccd"⟩]

/-- The other documents of the sample run. -/
def checkedDocuments : List (DigestInput × ℕ × String) :=
  intentDocuments ++
  [(.definitionContract "fs.write" "1.0.0" gateDefinition.spec [], 502,
      "82e23979adb9ccbd82ceba6746aab614e2b8024d4a9260d97ee253d5a6f1111d"),
    (.executableBinding "instance-1" gateDefinition.reference .builtin .localHost ⟨.any, .any⟩
      .verified .localHost ⟨true, false, false, false⟩ ⟨"fs", none, none⟩ none [], 403,
      "f7ca8d969f326e521e16e83ee8a173157ceb0ef4eaa6f970220a77dae4d02e70"),
    (.onceAuthorizationId "run-1" (sampleDigest 'b'), 152,
      "99e4544d8a2d5101b1afbded1987e4d07e53ef12681e701984fd5adf6cd46049"),
    (.authorization bindingY 1, 999,
      "1375bf9b7e2a38a08af413a5e08948be868ac52ed6d65adbda970bf550799976"),
    (.invocationMaterialId "run-1" "x" (sampleDigest '3'), 166,
      "549d68427cec7e9589ce2ab47f9e37892cbae2db790d812abfff4767e298a34e"),
    (.invocationMaterialRecord 1 materialY.materialId "run-1" "step-y" "x" (sampleDigest 'b')
      checkedInvocation (sampleDigest '3') .ephemeral, 701,
      "b665e6d439eb51efc77de5e53e9d58a98e1cb80822cf30f5e1069a0bc6ac58e9"),
    (.executionReceipt { receiptX with receiptDigest := "" }, 1243,
      "939fcc5eb444b37d1fd59d45998838269522785f9540be17433bf14693408c58"),
    (.executionReceipt { receiptY with receiptDigest := "" }, 1312,
      "4f03f96923288eb8ca741aa1270c3f5be2d9359a824670b537c65db115780612")]

def checkedTable : List (DigestInput × ℕ × String) :=
  sampleDocuments 0 none checkedLines ++ checkedDocuments

/-- The schema holds of the sample receipts, and there is one time. -/
def checkedProtocol : Protocol where
  schema _ := .ok ()
  rfc3339 time := if time = "2026-01-01T00:00:00Z" then some 1767225600 else none

/-- The call that appends one record of the sample run after a given head. -/
def checkedCall (expected : ExpectedHead) (record : EventRecord) : AppendCall :=
  match record.event.body with
  | .effectIntentCommitted stepId _ =>
    .withInvocationMaterial expected record.event
      (if stepId = "step-x" then materialX else materialY)
  | .verificationRecorded .. => .withExecutionReceipt expected record.event receiptX
  | _ => .append expected record.event

/-- The calls that append the records of the sample run. -/
def checkedCalls : List AppendCall :=
  let records := sampleRecords 0 none checkedLines
  List.zipWith checkedCall (.empty :: records.map EventRecord.head) records

/-- The store after the first calls of the sample run. -/
def checkedStore (calls : ℕ) : MemoryRunStore :=
  (runCalls (tableDigests checkedTable) checkedProtocol (checkedCalls.take calls)).1

theorem checkedStore_calls (calls : ℕ) :
    (runCalls (tableDigests checkedTable) checkedProtocol (checkedCalls.take calls)).1 =
      checkedStore calls :=
  rfl

/-- A verifier that has observed the postcondition. -/
def checkedVerifiers : EffectVerifierRegistry where
  verifier _ := some fun _ => .ok (.new ⟨sampleDigest '8', by decide +kernel⟩
    [⟨.postcondition, .passed, some ⟨sampleDigest '9', by decide +kernel⟩⟩])

def checkedEvents (state : RunState) : Except EventFactoryError EventMetadata :=
  .ok ⟨"event-" ++ toString (state.journalSequence + 1), "2026-01-01T00:00:00Z"⟩

/-- What the runner decides about a step after the first calls of the sample run. -/
def checkedDecide (calls : ℕ) (stepId : String) :
    Outcome VerificationRunnerError VerificationRunner.Decision :=
  VerificationRunner.decide (tableDigests checkedTable) checkedProtocol (checkedStore calls)
    checkedEvents ⟨"run-1"⟩ (gateRegistry .available) checkedVerifiers stepId

/-- The decision to append this receipt with this event, after a verification that passed. -/
def appendsReceipt (event : RunEvent) (receipt : ExecutionReceiptBody) :
    VerificationRunner.Decision → Bool
  | .noAction _ => false
  | .finalize _ event' receipt' disposition =>
    decide (event' = event ∧ receipt' = receipt ∧ disposition = .passed)

theorem appendsReceipt_eq_true {event : RunEvent} {receipt : ExecutionReceiptBody}
    {decision : VerificationRunner.Decision} (h : appendsReceipt event receipt decision = true) :
    ∃ state, decision = .finalize state event receipt .passed := by
  cases decision with
  | noAction => simp [appendsReceipt] at h
  | finalize state event' receipt' disposition =>
    obtain ⟨rfl, rfl, rfl⟩ := of_decide_eq_true h
    exact ⟨state, rfl⟩

theorem checkedTable_injective (b : ExecutionReceiptBody) :
    ReceiptDigestInjective (tableDigests checkedTable) b := by
  intro a heq ha hb
  simp only [verifyReceiptDigest, Outcome.bind_eq_ok, Outcome.failIf_eq_ok, ne_eq, Decidable.not_not,
    Digests.digest_eq_ok, sha256Digest] at ha hb
  obtain ⟨_, ⟨c, hc, rfl⟩, hca⟩ := ha
  obtain ⟨_, ⟨d, hd, rfl⟩, hdb⟩ := hb
  have hhash : c.sha256.val = d.sha256.val :=
    (String.append_right_inj _).mp (hca.trans (heq.trans hdb.symm))
  have hsame := tableDigests_injective (by decide) hc hd hhash
  obtain ⟨⟩ := a
  obtain ⟨⟩ := b
  simp_all

/-- The event that records the verification of the first step. -/
def verifiedX : RunEvent :=
  sampleEvent 10 (.verificationRecorded "step-x" "effect-x" .passed "receipt-x"
    receiptX.receiptDigest)

/-- The event that would record the verification of the second step. -/
def verifiedY : RunEvent :=
  sampleEvent 11 (.verificationRecorded "step-y" "x" .passed "receipt-x" receiptY.receiptDigest)

theorem verifiedX_new : (checkedDecide 9 "step-x").value?.any (fun decision =>
    appendsReceipt verifiedX receiptX decision &&
      decide (∀ r ∈ (checkedStore 9).records, r.event.eventId ≠ verifiedX.eventId) &&
      (EventRecord.next (tableDigests checkedTable) (checkedStore 9).index.lastRecord
        verifiedX).value?.isSome &&
      decide (∀ stored ∈ (checkedStore 9).receipts,
        stored.receipt.receiptId ≠ receiptX.receiptId)) = true := by
  decide +kernel

/-- The receipt of the first step is accepted. -/
theorem receipt_agreement_sample : ∃ state commit store,
    checkedDecide 9 "step-x" = .ok (.finalize state verifiedX receiptX .passed) ∧
      (checkedStore 9).appendWithExecutionReceipt (tableDigests checkedTable) checkedProtocol
        (.fromState state) verifiedX receiptX = .ok (commit, store) := by
  obtain ⟨decision, hdecision, hnew⟩ := Outcome.exists_ok_of_any verifiedX_new
  simp only [Bool.and_eq_true, decide_eq_true_eq] at hnew
  obtain ⟨⟨⟨happends, hevent⟩, hnext⟩, hname⟩ := hnew
  obtain ⟨state, rfl⟩ := appendsReceipt_eq_true happends
  have hlaw := receipt_agreement _ (checkedStore_calls 9) hdecision
  obtain ⟨commit, store, happend⟩ := (hlaw.1 (checkedTable_injective _)).mpr ⟨hevent, Outcome.exists_ok_of_isSome hnext,
    ⟨1767225600, 1767225600, by decide, by decide, by decide⟩, hname⟩
  exact ⟨state, commit, store, hdecision, happend⟩

/-- The error that the store refuses the receipt of a decision with. -/
def refusal? (store : MemoryRunStore) : VerificationRunner.Decision → Option StoreError
  | .noAction _ => none
  | .finalize state event receipt _ =>
    match store.appendWithExecutionReceipt (tableDigests checkedTable) checkedProtocol
      (.fromState state) event receipt with
    | .error (.err error) => some error
    | _ => none

/-- **A name can be taken**: the receipt that the runner has built for the second step has the name
of the first one, and the store refuses it. -/
theorem receipt_name_taken : ∃ state,
    checkedDecide 10 "step-y" = .ok (.finalize state verifiedY receiptY .passed) ∧
      (∀ r ∈ (checkedStore 10).records, r.event.eventId ≠ verifiedY.eventId) ∧
      receiptY.Timely checkedProtocol ∧
      (checkedStore 10).appendWithExecutionReceipt (tableDigests checkedTable) checkedProtocol
        (.fromState state) verifiedY receiptY =
          Outcome.fail (.corrupt "duplicate execution receipt identity") := by
  have hrun : (checkedDecide 10 "step-y").value?.any (fun decision =>
      appendsReceipt verifiedY receiptY decision &&
        decide (∀ r ∈ (checkedStore 10).records, r.event.eventId ≠ verifiedY.eventId) &&
        decide (refusal? (checkedStore 10) decision =
          some (.corrupt "duplicate execution receipt identity"))) = true := by
    decide +kernel
  obtain ⟨decision, hdecision, hchecks⟩ := Outcome.exists_ok_of_any hrun
  simp only [Bool.and_eq_true, decide_eq_true_eq] at hchecks
  obtain ⟨⟨happends, hevent⟩, hrefusal⟩ := hchecks
  obtain ⟨state, rfl⟩ := appendsReceipt_eq_true happends
  refine ⟨state, hdecision, hevent,
    ⟨1767225600, 1767225600, by decide, by decide, by decide⟩, ?_⟩
  rw [refusal?] at hrefusal
  split at hrefusal
  · rename_i happend
    rw [happend, Option.some.inj hrefusal]
    rfl
  · simp at hrefusal

end Xgeny
