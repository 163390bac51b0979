import Xgeny.Runs.AtMostOnce
import Xgeny.Sidecars.Limits

set_option autoImplicit false

/-!
# Sidecars are bound to their place

A sidecar record names the run, the step and the effect or call that it belongs to, and carries the
digests of its content. What its constructor returns passes its own check; at one place the check
accepts one record only; and no record passes at two places.

* `Distinguishes`: two documents at hand have one digest only if they are the same;
* `CompletionOutputBinding`, `ToolOutputBinding`, `PlannedInvocationBound`,
  `InvocationMaterialBinding`: the law of each record;
* **`sidecar_binding`**: the four laws.
-/

namespace Xgeny

/-! ## Digests without collisions -/

namespace CanonicalEncoder

/-- Two documents at hand have one hash only if they are the same. -/
def Distinguishes (E : CanonicalEncoder) (a b : DigestInput) : Prop :=
  ∀ x y, E.toVec a = .ok x → E.toVec b = .ok y → E.sha256 x = E.sha256 y → a = b

/-- The hash tells the canonical texts of two outputs apart, when they differ. -/
def Separates (E : CanonicalEncoder) (a b : Json) : Prop :=
  E.sha256 (a.canonical E) = E.sha256 (b.canonical E) → a.canonical E = b.canonical E

variable {E : CanonicalEncoder} {ε : Type}

theorem sha256Digest_injective {a b : Sha256Hex} (h : sha256Digest a = sha256Digest b) : a = b :=
  Subtype.ext ((String.append_right_inj _).mp h)

theorem Distinguishes.digest_inj {a b : DigestInput} (h : E.Distinguishes a b) {f g : String → ε}
    {t : String} (ha : E.digests.digest a f = .ok t) (hb : E.digests.digest b g = .ok t) : a = b := by
  obtain ⟨_, hcanonical, rfl⟩ := Digests.digest_eq_ok.mp ha
  obtain ⟨_, hcanonical', hsame⟩ := Digests.digest_eq_ok.mp hb
  obtain ⟨x, hx, rfl⟩ := canonicalize_eq_ok.mp hcanonical
  obtain ⟨y, hy, rfl⟩ := canonicalize_eq_ok.mp hcanonical'
  exact h x y hx hy (sha256Digest_injective hsame.symm)

theorem digest_unique {a : DigestInput} {f g : String → ε} {t u : String}
    (ht : E.digests.digest a f = .ok t) (hu : E.digests.digest a g = .ok u) : t = u := by
  obtain ⟨c, hc, rfl⟩ := Digests.digest_eq_ok.mp ht
  obtain ⟨d, hd, rfl⟩ := Digests.digest_eq_ok.mp hu
  rw [Except.ok.inj (hc.symm.trans hd)]

theorem identifier_unique {pre : String} {a : DigestInput} {f g : String → ε} {t u : String}
    (ht : E.digests.identifier pre a f = .ok t) (hu : E.digests.identifier pre a g = .ok u) :
    t = u := by
  obtain ⟨c, hc, rfl⟩ := Digests.identifier_eq_ok.mp ht
  obtain ⟨d, hd, rfl⟩ := Digests.identifier_eq_ok.mp hu
  rw [Except.ok.inj (hc.symm.trans hd)]

end CanonicalEncoder

variable {E : CanonicalEncoder}

/-! ## Completion outputs -/

/-- The law of a completion output. -/
structure CompletionOutputBinding (E : CanonicalEncoder) : Prop where
  bound : ∀ runId turnIndex modelCallId contextDigest summary record,
    CompletionOutputRecord.bind E.digests runId turnIndex modelCallId contextDigest summary =
      .ok record → ∃ decision, record.decision = .ok decision ∧ decision.turnIndex = turnIndex ∧
      decision.modelCallId = some modelCallId ∧ decision.contextDigest = contextDigest ∧
      record.summary = summary ∧
      record.verifyFor E.digests runId decision record.candidateId record.summaryDigest = .ok ()
  built : ∀ runId decision candidateId summaryDigest summary record,
    CompletionOutputRecord.new E.digests runId decision candidateId summaryDigest summary =
      .ok record →
    record.verifyFor E.digests runId decision candidateId summaryDigest = .ok ()
  determined : ∀ runId decision candidateId summaryDigest (r q : CompletionOutputRecord),
    E.Distinguishes (.completionSummary r.summary) (.completionSummary q.summary) →
    r.verifyFor E.digests runId decision candidateId summaryDigest = .ok () →
    q.verifyFor E.digests runId decision candidateId summaryDigest = .ok () → r = q
  immovable : ∀ (r : CompletionOutputRecord) runId runId' decision decision' candidateId
    candidateId' summaryDigest summaryDigest',
    r.verifyFor E.digests runId decision candidateId summaryDigest = .ok () →
    r.verifyFor E.digests runId' decision' candidateId' summaryDigest' = .ok () →
    runId = runId' ∧ decision = decision' ∧ candidateId = candidateId' ∧
      summaryDigest = summaryDigest'

/-- What the check of a completion output compares. -/
structure CompletionOutputAccepted (E : CanonicalEncoder) (r : CompletionOutputRecord)
    (runId : String) (decision : ExpectedPlanningTurn) (candidateId summaryDigest : String) :
    Prop where
  formatVersion : r.formatVersion = completionOutputFormatVersion
  runId : r.runId = runId
  candidateId : r.candidateId = candidateId
  turnIndex : r.turnIndex = decision.turnIndex
  modelCallId : some r.modelCallId = decision.modelCallId
  contextDigest : r.contextDigest = decision.contextDigest
  proposalDigest : r.proposalDigest = decision.proposalDigest
  summaryDigest : r.summaryDigest = summaryDigest
  validated : decision.validate = .ok ()
  size : r.summarySizeBytes = (byteLen r.summary).toUInt64
  summary : completionSummaryDigest E.digests r.summary = .ok r.summaryDigest
  record : completionOutputRecordDigest E.digests r = .ok r.recordDigest

theorem CompletionOutputRecord.accepted {r : CompletionOutputRecord} {runId : String}
    {decision : ExpectedPlanningTurn} {candidateId summaryDigest : String}
    (h : r.verifyFor E.digests runId decision candidateId summaryDigest = .ok ()) :
    CompletionOutputAccepted E r runId decision candidateId summaryDigest := by
  simp only [CompletionOutputRecord.verifyFor, requireMatches, Outcome.bind_eq_ok,
    Outcome.exists_unit, Outcome.failIf_eq_ok, Outcome.forEach_eq_ok, Outcome.mapErr_eq_ok,
    Outcome.okOr_eq_ok, List.forall_mem_cons, beq_iff_eq, ne_eq, Decidable.not_not] at h
  obtain ⟨hversion, hvalid, call, hcall, -, -, -, ⟨hrun, hcandidate, hturn, hmodel, hcontext,
    hproposal, hdigest, -⟩, -, hsize, _, hsummary, rfl, _, -, -, _, -, -, _, hrecord, rfl⟩ := h
  exact ⟨hversion, hrun, hcandidate, hturn, by rw [hcall, hmodel], hcontext, hproposal, hdigest,
    hvalid, hsize, hsummary, hrecord⟩

theorem CompletionOutputRecord.new_verified {r : CompletionOutputRecord} {runId : String}
    {decision : ExpectedPlanningTurn} {candidateId summaryDigest summary : String}
    (h : CompletionOutputRecord.new E.digests runId decision candidateId summaryDigest summary =
      .ok r) :
    r.verifyFor E.digests runId decision candidateId summaryDigest = .ok () ∧
      r.summary = summary ∧ r.candidateId = candidateId ∧ r.summaryDigest = summaryDigest := by
  simp only [CompletionOutputRecord.new, Outcome.bind_eq_ok, Outcome.exists_unit,
    Outcome.pure_eq_ok] at h
  obtain ⟨_, -, _, -, hverified, rfl⟩ := h
  exact ⟨hverified, rfl, rfl, rfl⟩

theorem CompletionOutputAccepted.decision {r : CompletionOutputRecord} {runId : String}
    {decision : ExpectedPlanningTurn} {candidateId summaryDigest : String}
    (h : CompletionOutputAccepted E r runId decision candidateId summaryDigest) :
    decision = ⟨r.turnIndex, some r.modelCallId, r.contextDigest, r.proposalDigest⟩ := by
  rw [h.turnIndex, h.modelCallId, h.contextDigest, h.proposalDigest]

theorem completionOutputBinding : CompletionOutputBinding E where
  bound := by
    intro runId turnIndex modelCallId contextDigest summary record h
    simp only [CompletionOutputRecord.bind, ExpectedPlanningTurn.forModelCall, Outcome.bind_eq_ok,
      Outcome.exists_unit, Outcome.mapErr_eq_ok, Outcome.pure_eq_ok] at h
    obtain ⟨-, -, -, proposalDigest, -, _, ⟨hvalid, rfl⟩, candidateId, -, summaryDigest, -, hnew⟩ := h
    obtain ⟨hverified, hsummary, rfl, rfl⟩ := CompletionOutputRecord.new_verified hnew
    have haccepted := CompletionOutputRecord.accepted hverified
    refine ⟨_, ?_, rfl, rfl, rfl, hsummary, hverified⟩
    rw [CompletionOutputRecord.decision, Outcome.mapErr_eq_ok, ExpectedPlanningTurn.forModelCall,
      Outcome.bind_eq_ok]
    rw [haccepted.decision] at hvalid
    exact ⟨(), hvalid, by rw [haccepted.decision]; rfl⟩
  built := fun _ _ _ _ _ _ h => (CompletionOutputRecord.new_verified h).1
  determined := by
    intro runId decision candidateId summaryDigest r q hE hr hq
    have hr := CompletionOutputRecord.accepted hr
    have hq := CompletionOutputRecord.accepted hq
    have hcall : r.modelCallId = q.modelCallId :=
      Option.some.inj (hr.modelCallId.trans hq.modelCallId.symm)
    have hdigests : r.summaryDigest = q.summaryDigest := hr.summaryDigest.trans hq.summaryDigest.symm
    have hrsummary := hr.summary
    rw [hdigests] at hrsummary
    have hsummary : r.summary = q.summary :=
      DigestInput.completionSummary.inj (hE.digest_inj hrsummary hq.summary)
    have hrecord := hr.record
    have hqrecord := hq.record
    have hsize := hr.size
    rw [hsummary, ← hq.size] at hsize
    obtain ⟨_, _, _, _, _, _, _, _, _, _, rdigest⟩ := r
    obtain ⟨_, _, _, _, _, _, _, _, _, _, qdigest⟩ := q
    obtain rfl := hr.formatVersion.trans hq.formatVersion.symm
    obtain rfl := hr.candidateId.trans hq.candidateId.symm
    obtain rfl := hr.runId.trans hq.runId.symm
    obtain rfl := hr.turnIndex.trans hq.turnIndex.symm
    obtain rfl := hcall
    obtain rfl := hr.contextDigest.trans hq.contextDigest.symm
    obtain rfl := hr.proposalDigest.trans hq.proposalDigest.symm
    obtain rfl := hsize
    obtain rfl := hdigests
    obtain rfl := hsummary
    obtain rfl := CanonicalEncoder.digest_unique hrecord hqrecord
    rfl
  immovable := by
    intro r runId runId' decision decision' candidateId candidateId' summaryDigest summaryDigest'
      h h'
    have h := CompletionOutputRecord.accepted h
    have h' := CompletionOutputRecord.accepted h'
    exact ⟨h.runId.symm.trans h'.runId, h.decision.trans h'.decision.symm,
      h.candidateId.symm.trans h'.candidateId, h.summaryDigest.symm.trans h'.summaryDigest⟩

/-! ## Tool outputs -/

/-- Equal records, but for the output, whose canonical bytes are the same. -/
def ToolOutputRecord.SameContent (E : CanonicalEncoder) (r q : ToolOutputRecord) : Prop :=
  { r with output := q.output } = q ∧ r.output.canonical E = q.output.canonical E

/-- The document of the record digest. -/
def ToolOutputRecord.document (r : ToolOutputRecord) : DigestInput :=
  .toolOutputRecord r.formatVersion r.outputId r.runId r.stepId r.effectId r.actionDigest
    r.invocation r.planId r.executionAttempt r.evidenceDigest r.canonicalSizeBytes r.outputDigest

/-- The law of a tool output. -/
structure ToolOutputBinding (E : CanonicalEncoder) : Prop where
  built : ∀ runId stepId intent executionAttempt evidenceDigest output record,
    ToolOutputRecord.new E.digests runId stepId intent executionAttempt evidenceDigest output =
      .ok record → record.output = output ∧
    record.verifyFor E.digests runId stepId intent executionAttempt evidenceDigest = .ok ()
  determined : ∀ runId stepId intent executionAttempt evidenceDigest (r q : ToolOutputRecord),
    E.Distinguishes r.document q.document → E.Separates r.output q.output →
    r.verifyFor E.digests runId stepId intent executionAttempt evidenceDigest = .ok () →
    q.verifyFor E.digests runId stepId intent executionAttempt evidenceDigest = .ok () →
    r.recordDigest = q.recordDigest ∨ r.output.canonical E = q.output.canonical E →
    r.SameContent E q
  immovable : ∀ (r : ToolOutputRecord) runId runId' stepId stepId' intent intent' executionAttempt
    executionAttempt' evidenceDigest evidenceDigest',
    r.verifyFor E.digests runId stepId intent executionAttempt evidenceDigest = .ok () →
    r.verifyFor E.digests runId' stepId' intent' executionAttempt' evidenceDigest' = .ok () →
    runId = runId' ∧ stepId = stepId' ∧ intent.effectId = intent'.effectId ∧
      intent.actionDigest = intent'.actionDigest ∧ intent.invocation = intent'.invocation ∧
      intent.receiptProvenance.map ReceiptProvenance.planId =
        intent'.receiptProvenance.map ReceiptProvenance.planId ∧
      executionAttempt = executionAttempt' ∧ evidenceDigest = evidenceDigest'

/-- What the check of a tool output compares. -/
structure ToolOutputAccepted (E : CanonicalEncoder) (r : ToolOutputRecord) (runId stepId : String)
    (intent : EffectIntent) (executionAttempt : UInt32) (evidenceDigest : String) : Prop where
  formatVersion : r.formatVersion = toolOutputFormatVersion
  runId : r.runId = runId
  stepId : r.stepId = stepId
  effectId : r.effectId = intent.effectId
  actionDigest : r.actionDigest = intent.actionDigest
  invocation : r.invocation = intent.invocation
  planId : some r.planId = intent.receiptProvenance.map ReceiptProvenance.planId
  executionAttempt : r.executionAttempt = executionAttempt
  evidenceDigest : r.evidenceDigest = evidenceDigest
  size : r.canonicalSizeBytes = (byteLen (r.output.canonical E)).toUInt64
  output : r.outputDigest = sha256Digest (E.sha256 (r.output.canonical E))
  name : toolOutputId E.digests r = .ok r.outputId
  record : toolOutputRecordDigest E.digests r = .ok r.recordDigest

theorem requiredToolOutputProvenance_eq_ok {intent : EffectIntent} {provenance : ReceiptProvenance}
    (h : requiredToolOutputProvenance intent = .ok provenance) :
    intent.receiptProvenance = some provenance := by
  simp only [requiredToolOutputProvenance, Outcome.bind_eq_ok, Outcome.exists_unit,
    Outcome.okOr_eq_ok, Outcome.pure_eq_ok] at h
  obtain ⟨-, _, hsome, -, -, rfl⟩ := h
  exact hsome

theorem ToolOutputRecord.accepted {r : ToolOutputRecord} {runId stepId : String}
    {intent : EffectIntent} {executionAttempt : UInt32} {evidenceDigest : String}
    (h : r.verifyFor E.digests runId stepId intent executionAttempt evidenceDigest = .ok ()) :
    ToolOutputAccepted E r runId stepId intent executionAttempt evidenceDigest := by
  simp only [ToolOutputRecord.verifyFor, requireMatches, Outcome.bind_eq_ok, Outcome.exists_unit,
    Outcome.failIf_eq_ok, Outcome.forEach_eq_ok, List.forall_mem_cons, beq_iff_eq,
    decide_eq_true_eq, ne_eq, Decidable.not_not] at h
  obtain ⟨hversion, provenance, hprovenance, -, ⟨hrun, hstep, heffect, haction, hinvocation, hplan,
    hattempt, hevidence, -⟩, -, validated, hvalidated, hsize, hdigest, _, hname, rfl, _, hrecord,
    rfl⟩ := h
  obtain ⟨-, rfl⟩ := validateToolOutput_eq_ok.mp hvalidated
  refine ⟨hversion, hrun, hstep, heffect, haction, hinvocation, ?_, hattempt, hevidence, hsize,
    hdigest, hname, hrecord⟩
  rw [requiredToolOutputProvenance_eq_ok hprovenance, hplan]
  rfl

theorem ToolOutputRecord.new_verified {r : ToolOutputRecord} {runId stepId : String}
    {intent : EffectIntent} {executionAttempt : UInt32} {evidenceDigest : String} {output : Json}
    (h : ToolOutputRecord.new E.digests runId stepId intent executionAttempt evidenceDigest output =
      .ok r) : r.output = output ∧
    r.verifyFor E.digests runId stepId intent executionAttempt evidenceDigest = .ok () := by
  simp only [ToolOutputRecord.new, Outcome.bind_eq_ok, Outcome.exists_unit, Outcome.failIf_eq_ok,
    Outcome.pure_eq_ok] at h
  obtain ⟨_, -, -, -, _, -, _, -, _, -, hverified, rfl⟩ := h
  exact ⟨rfl, hverified⟩

theorem toolOutputBinding : ToolOutputBinding E where
  built := fun _ _ _ _ _ _ _ h => ToolOutputRecord.new_verified h
  determined := by
    intro runId stepId intent executionAttempt evidenceDigest r q hE hseparates hr hq hsame
    have hr := ToolOutputRecord.accepted hr
    have hq := ToolOutputRecord.accepted hq
    -- either digest leads to the canonical bytes of the outputs
    have hcanonical : r.output.canonical E = q.output.canonical E := by
      rcases hsame with hrecord | hcanonical
      · have hdocument := hr.record
        rw [hrecord] at hdocument
        have hdigest := (DigestInput.toolOutputRecord.inj
          (hE.digest_inj hdocument hq.record)).2.2.2.2.2.2.2.2.2.2.2
        rw [hr.output, hq.output] at hdigest
        exact hseparates (CanonicalEncoder.sha256Digest_injective hdigest)
      · exact hcanonical
    have hsize : r.canonicalSizeBytes = q.canonicalSizeBytes := by
      rw [hr.size, hq.size, hcanonical]
    have hdigest : r.outputDigest = q.outputDigest := by
      rw [hr.output, hq.output, hcanonical]
    have hplan : r.planId = q.planId := Option.some.inj (hr.planId.trans hq.planId.symm)
    refine ⟨?_, hcanonical⟩
    have hrname := hr.name
    have hqname := hq.name
    have hrrecord := hr.record
    have hqrecord := hq.record
    obtain ⟨_, rname, _, _, _, _, _, _, _, _, _, _, _, rdigest⟩ := r
    obtain ⟨_, qname, _, _, _, _, _, _, _, _, _, _, _, qdigest⟩ := q
    obtain rfl := hr.formatVersion.trans hq.formatVersion.symm
    obtain rfl := hr.runId.trans hq.runId.symm
    obtain rfl := hr.stepId.trans hq.stepId.symm
    obtain rfl := hr.effectId.trans hq.effectId.symm
    obtain rfl := hr.actionDigest.trans hq.actionDigest.symm
    obtain rfl := hr.invocation.trans hq.invocation.symm
    obtain rfl := hplan
    obtain rfl := hr.executionAttempt.trans hq.executionAttempt.symm
    obtain rfl := hr.evidenceDigest.trans hq.evidenceDigest.symm
    obtain rfl := hsize
    obtain rfl := hdigest
    obtain rfl := CanonicalEncoder.identifier_unique hrname hqname
    obtain rfl := CanonicalEncoder.digest_unique hrrecord hqrecord
    rfl
  immovable := by
    intro r runId runId' stepId stepId' intent intent' executionAttempt executionAttempt'
      evidenceDigest evidenceDigest' h h'
    have h := ToolOutputRecord.accepted h
    have h' := ToolOutputRecord.accepted h'
    exact ⟨h.runId.symm.trans h'.runId, h.stepId.symm.trans h'.stepId,
      h.effectId.symm.trans h'.effectId, h.actionDigest.symm.trans h'.actionDigest,
      h.invocation.symm.trans h'.invocation, h.planId.symm.trans h'.planId,
      h.executionAttempt.symm.trans h'.executionAttempt,
      h.evidenceDigest.symm.trans h'.evidenceDigest⟩

/-! ## Planned invocations -/

/-- The document of the record digest. -/
def PlannedInvocationMaterialRecord.document (r : PlannedInvocationMaterialRecord) : DigestInput :=
  .plannedInvocationMaterialRecord r.formatVersion r.runId r.stepId r.planId r.proposalDigest
    r.specDigest r.reference

/-- The law of the recipe of a planned invocation. -/
structure PlannedInvocationBound (E : CanonicalEncoder) : Prop where
  bound : ∀ runId stepId proposalDigest spec reference binding record,
    PlannedInvocationMaterialRecord.bind E.digests runId stepId proposalDigest spec reference =
      .ok (binding, record) → record.reference = reference ∧
    binding.asSpec = spec ∧ binding.proposalDigest = proposalDigest ∧
      record.verifyFor E.digests runId stepId binding = .ok ()
  determined : ∀ runId stepId binding (r q : PlannedInvocationMaterialRecord),
    E.Distinguishes r.document q.document →
    r.verifyFor E.digests runId stepId binding = .ok () →
    q.verifyFor E.digests runId stepId binding = .ok () → r = q
  immovable : ∀ (r : PlannedInvocationMaterialRecord) runId runId' stepId stepId' binding binding',
    E.Distinguishes (.plannedInvocationSpec binding.asSpec) (.plannedInvocationSpec binding'.asSpec) →
    r.verifyFor E.digests runId stepId binding = .ok () →
    r.verifyFor E.digests runId' stepId' binding' = .ok () →
    runId = runId' ∧ stepId = stepId' ∧ binding = binding'

/-- What the check of a recipe compares. -/
structure PlannedInvocationAccepted (E : CanonicalEncoder) (r : PlannedInvocationMaterialRecord)
    (runId stepId : String) (binding : PlannedInvocationBinding) : Prop where
  formatVersion : r.formatVersion = plannedInvocationFormatVersion
  bindingVersion : binding.formatVersion = plannedInvocationFormatVersion
  runId : r.runId = runId
  stepId : r.stepId = stepId
  planId : r.planId = binding.planId
  proposalDigest : r.proposalDigest = binding.proposalDigest
  specDigest : r.specDigest = binding.specDigest
  spec : plannedInvocationSpecDigest E.digests binding.asSpec = .ok r.specDigest
  record : plannedInvocationMaterialRecordDigest E.digests r = .ok r.recordDigest
  recordDigest : r.recordDigest = binding.planInputRecordDigest

theorem PlannedInvocationMaterialRecord.accepted {r : PlannedInvocationMaterialRecord}
    {runId stepId : String} {binding : PlannedInvocationBinding}
    (h : r.verifyFor E.digests runId stepId binding = .ok ()) :
    PlannedInvocationAccepted E r runId stepId binding := by
  simp only [PlannedInvocationMaterialRecord.verifyFor, PlannedInvocationBinding.validate,
    Outcome.bind_eq_ok, Outcome.exists_unit, Outcome.failIf_eq_ok, ne_eq, not_or,
    Decidable.not_not] at h
  obtain ⟨hversion, ⟨hbinding, -, -, -, -, -, _, hspec, hspecDigest⟩, -, hrun, hstep, hplan,
    hproposal, hdigest, _, -, -, _, hrecord, rfl, hinput⟩ := h
  refine ⟨hversion, hbinding, hrun, hstep, hplan, hproposal, hdigest, ?_, hrecord, hinput⟩
  rw [hspec, hspecDigest, hdigest]

theorem plannedInvocationBound : PlannedInvocationBound E where
  bound := by
    intro runId stepId proposalDigest spec reference binding record h
    simp only [PlannedInvocationMaterialRecord.bind, Outcome.bind_eq_ok, Outcome.exists_unit,
      Outcome.pure_eq_ok, Prod.mk.injEq] at h
    obtain ⟨-, -, -, -, -, _, -, _, -, _, -, hverified, rfl, rfl⟩ := h
    exact ⟨rfl, rfl, rfl, hverified⟩
  determined := by
    intro runId stepId binding r q hE hr hq
    have hr := PlannedInvocationMaterialRecord.accepted hr
    have hq := PlannedInvocationMaterialRecord.accepted hq
    have hdigest := hr.recordDigest.trans hq.recordDigest.symm
    have hrecord := hr.record
    rw [hdigest] at hrecord
    obtain ⟨hversion, hrun, hstep, hplan, hproposal, hspec, hreference⟩ :=
      DigestInput.plannedInvocationMaterialRecord.inj (hE.digest_inj hrecord hq.record)
    obtain ⟨_, _, _, _, _, _, _, _⟩ := r
    obtain ⟨_, _, _, _, _, _, _, _⟩ := q
    obtain rfl := hversion
    obtain rfl := hrun
    obtain rfl := hstep
    obtain rfl := hplan
    obtain rfl := hproposal
    obtain rfl := hspec
    obtain rfl := hreference
    obtain rfl := hdigest
    rfl
  immovable := by
    intro r runId runId' stepId stepId' binding binding' hE h h'
    have h := PlannedInvocationMaterialRecord.accepted h
    have h' := PlannedInvocationMaterialRecord.accepted h'
    have hspec : binding.asSpec = binding'.asSpec :=
      DigestInput.plannedInvocationSpec.inj (hE.digest_inj h.spec h'.spec)
    refine ⟨h.runId.symm.trans h'.runId, h.stepId.symm.trans h'.stepId, ?_⟩
    have hversion := h.bindingVersion.trans h'.bindingVersion.symm
    have hplan := h.planId.symm.trans h'.planId
    have hproposal := h.proposalDigest.symm.trans h'.proposalDigest
    have hdigest := h.specDigest.symm.trans h'.specDigest
    have hinput := h.recordDigest.symm.trans h'.recordDigest
    cases binding
    cases binding'
    simp_all [PlannedInvocationBinding.asSpec]

/-! ## Invocation materials -/

/-- The law of the material of an intent. -/
structure InvocationMaterialBinding (E : CanonicalEncoder) : Prop where
  built : ∀ runId stepId intent materialDigest retention record,
    InvocationMaterialRecord.new E.digests runId stepId intent materialDigest retention =
      .ok record → record.materialDigest = materialDigest ∧ record.retention = retention ∧
    record.verifyFor E.digests runId stepId intent = .ok ()
  determined : ∀ runId stepId intent (r q : InvocationMaterialRecord),
    E.Distinguishes (.invocationMaterialRetention r.retention)
      (.invocationMaterialRetention q.retention) →
    r.verifyFor E.digests runId stepId intent = .ok () →
    q.verifyFor E.digests runId stepId intent = .ok () → r = q
  immovable : ∀ (r : InvocationMaterialRecord) runId runId' stepId stepId' intent intent',
    r.verifyFor E.digests runId stepId intent = .ok () →
    r.verifyFor E.digests runId' stepId' intent' = .ok () →
    runId = runId' ∧ stepId = stepId' ∧ intent.effectId = intent'.effectId ∧
      intent.actionDigest = intent'.actionDigest ∧ intent.invocation = intent'.invocation ∧
      intent.authorization.binding.materialDigest =
        intent'.authorization.binding.materialDigest ∧
      intent.authorization.binding.materialRetentionDigest =
        intent'.authorization.binding.materialRetentionDigest

/-- What the check of a material compares. -/
structure InvocationMaterialAccepted (E : CanonicalEncoder) (r : InvocationMaterialRecord)
    (runId stepId : String) (intent : EffectIntent) : Prop where
  formatVersion : r.formatVersion = invocationMaterialFormatVersion
  runId : r.runId = runId
  stepId : r.stepId = stepId
  effectId : r.effectId = intent.effectId
  actionDigest : r.actionDigest = intent.actionDigest
  invocation : r.invocation = intent.invocation
  materialDigest : intent.authorization.binding.materialDigest = r.materialDigest
  retention : invocationMaterialRetentionDigest E.digests r.retention =
    .ok intent.authorization.binding.materialRetentionDigest
  name : invocationMaterialId E.digests r.runId r.effectId r.materialDigest = .ok r.materialId
  record : invocationMaterialRecordDigest E.digests r = .ok r.recordDigest

theorem InvocationMaterialRecord.accepted {r : InvocationMaterialRecord} {runId stepId : String}
    {intent : EffectIntent} (h : r.verifyFor E.digests runId stepId intent = .ok ()) :
    InvocationMaterialAccepted E r runId stepId intent := by
  simp only [InvocationMaterialRecord.verifyFor, Outcome.bind_eq_ok, Outcome.exists_unit,
    Outcome.failIf_eq_ok, ne_eq, Decidable.not_not] at h
  obtain ⟨hversion, -, hrun, hstep, heffect, haction, hinvocation, hmaterial, _, hretention, hsame,
    _, hname, rfl, _, hrecord, rfl⟩ := h
  exact ⟨hversion, hrun, hstep, heffect, haction, hinvocation, hmaterial, by rw [hsame, hretention],
    hname, hrecord⟩

theorem invocationMaterialBinding : InvocationMaterialBinding E where
  built := by
    intro runId stepId intent materialDigest retention record h
    simp only [InvocationMaterialRecord.new, Outcome.bind_eq_ok, Outcome.exists_unit,
      Outcome.pure_eq_ok] at h
    obtain ⟨-, _, -, _, -, hverified, rfl⟩ := h
    exact ⟨rfl, rfl, hverified⟩
  determined := by
    intro runId stepId intent r q hE hr hq
    have hr := InvocationMaterialRecord.accepted hr
    have hq := InvocationMaterialRecord.accepted hq
    have hretention : r.retention = q.retention := DigestInput.invocationMaterialRetention.inj
      (hE.digest_inj hr.retention hq.retention)
    have hrname := hr.name
    have hqname := hq.name
    have hrrecord := hr.record
    have hqrecord := hq.record
    obtain ⟨_, rname, _, _, _, _, _, _, _, rdigest⟩ := r
    obtain ⟨_, qname, _, _, _, _, _, _, _, qdigest⟩ := q
    obtain rfl := hr.formatVersion.trans hq.formatVersion.symm
    obtain rfl := hr.runId.trans hq.runId.symm
    obtain rfl := hr.stepId.trans hq.stepId.symm
    obtain rfl := hr.effectId.trans hq.effectId.symm
    obtain rfl := hr.actionDigest.trans hq.actionDigest.symm
    obtain rfl := hr.invocation.trans hq.invocation.symm
    obtain rfl := hr.materialDigest.symm.trans hq.materialDigest
    obtain rfl := hretention
    obtain rfl := CanonicalEncoder.identifier_unique hrname hqname
    obtain rfl := CanonicalEncoder.digest_unique hrrecord hqrecord
    rfl
  immovable := by
    intro r runId runId' stepId stepId' intent intent' h h'
    have h := InvocationMaterialRecord.accepted h
    have h' := InvocationMaterialRecord.accepted h'
    exact ⟨h.runId.symm.trans h'.runId, h.stepId.symm.trans h'.stepId,
      h.effectId.symm.trans h'.effectId, h.actionDigest.symm.trans h'.actionDigest,
      h.invocation.symm.trans h'.invocation, h.materialDigest.trans h'.materialDigest.symm,
      CanonicalEncoder.digest_unique h.retention h'.retention⟩

/-! ## The four laws -/

/-- **The sidecars are bound to their place.** Whatever a constructor returns passes the check with
the arguments that it was built from. At one place the check accepts one record only, when the hash
tells the documents of the two records apart: for a completion output, a recipe and a material this
is the whole record; a tool output is one up to the canonical bytes of the output, once its record
digest or these bytes are given. And a record passes at one place only. -/
theorem sidecar_binding (E : CanonicalEncoder) : CompletionOutputBinding E ∧ ToolOutputBinding E ∧
    PlannedInvocationBound E ∧ InvocationMaterialBinding E :=
  ⟨completionOutputBinding, toolOutputBinding, plannedInvocationBound, invocationMaterialBinding⟩

/-! ## Records that are built -/

/-- A completion is bound when its texts are accepted and its documents have digests; its own check
then passes. -/
theorem CompletionOutputRecord.bind_eq_ok {D : Digests} {runId modelCallId contextDigest summary
    proposalDigest candidateId summaryDigest recordDigest : String} {turnIndex : UInt32}
    (hsummary : validateCompletionSummaryCandidate summary = .ok ())
    (hrun : requirePlanningIdentifier "run_id" runId = .ok ())
    (hcontext : requirePlanningDigest "context_digest" contextDigest = .ok ())
    (hproposal : completionProposalDigest D contextDigest summary = .ok proposalDigest)
    (hdecision : ExpectedPlanningTurn.validate
      ⟨turnIndex, some modelCallId, contextDigest, proposalDigest⟩ = .ok ())
    (hcandidate : completionCandidateId D runId contextDigest proposalDigest = .ok candidateId)
    (hname : requirePlanningIdentifier "candidate_id" candidateId = .ok ())
    (hdigest : completionSummaryDigest D summary = .ok summaryDigest)
    (hshape : requirePlanningDigest "summary_digest" summaryDigest = .ok ())
    (hrecord : D.digest (.completionOutputRecord completionOutputFormatVersion candidateId runId
      turnIndex modelCallId contextDigest proposalDigest (byteLen summary).toUInt64 summaryDigest)
      (fun _ => CompletionOutputError.canonicalization) = .ok recordDigest) :
    CompletionOutputRecord.bind D runId turnIndex modelCallId contextDigest summary =
      .ok ⟨completionOutputFormatVersion, candidateId, runId, turnIndex, modelCallId, contextDigest,
        proposalDigest, (byteLen summary).toUInt64, summaryDigest, summary, recordDigest⟩ := by
  simp only [CompletionOutputRecord.bind, ExpectedPlanningTurn.forModelCall,
    CompletionOutputRecord.new, Outcome.bind_eq_ok, Outcome.exists_unit, Outcome.mapErr_eq_ok,
    Outcome.pure_eq_ok, Outcome.okOr_eq_ok]
  refine ⟨hsummary, hrun, hcontext, proposalDigest, hproposal, _, ⟨hdecision, rfl⟩, candidateId,
    hcandidate, summaryDigest, hdigest, modelCallId, rfl, recordDigest, hrecord, ?_, rfl⟩
  simp only [CompletionOutputRecord.verifyFor, requireMatches, Outcome.bind_eq_ok,
    Outcome.exists_unit, Outcome.failIf_eq_ok, Outcome.forEach_eq_ok, Outcome.mapErr_eq_ok,
    Outcome.okOr_eq_ok, List.forall_mem_cons, Decidable.not_not, ne_eq]
  refine ⟨trivial, hdecision, modelCallId, rfl, hrun, hname, hshape, ?_, hsummary, trivial,
    summaryDigest, hdigest, rfl, proposalDigest, hproposal, rfl, candidateId, hcandidate, rfl, recordDigest, hrecord,
    rfl⟩
  simp

/-- A record is built when its identity and its output are accepted and its documents have digests;
its own check then passes. -/
theorem ToolOutputRecord.new_eq_ok {D : Digests} {runId stepId : String} {intent : EffectIntent}
    {executionAttempt : UInt32} {evidenceDigest : String} {output : Json}
    {provenance : ReceiptProvenance} {validated : ValidatedToolOutput} {outputId recordDigest : String}
    (hprovenance : requiredToolOutputProvenance intent = .ok provenance)
    (hidentity : validateToolOutputIdentity runId stepId intent executionAttempt = .ok ())
    (hevidence : isSha256Digest evidenceDigest = true)
    (hvalidated : validateToolOutput D output = .ok validated)
    (hname : D.identifier "output-" (.toolOutputId runId stepId intent.effectId executionAttempt
      validated.outputDigest) (fun _ => ToolOutputError.canonicalization) = .ok outputId)
    (hrecord : D.digest (.toolOutputRecord toolOutputFormatVersion outputId runId stepId
      intent.effectId intent.actionDigest intent.invocation provenance.planId executionAttempt
      evidenceDigest validated.canonicalSizeBytes validated.outputDigest)
      (fun _ => ToolOutputError.canonicalization) = .ok recordDigest) :
    ToolOutputRecord.new D runId stepId intent executionAttempt evidenceDigest output =
      .ok ⟨toolOutputFormatVersion, outputId, runId, stepId, intent.effectId, intent.actionDigest,
        intent.invocation, provenance.planId, executionAttempt, evidenceDigest,
        validated.canonicalSizeBytes, validated.outputDigest, output, recordDigest⟩ := by
  simp only [ToolOutputRecord.new, Outcome.bind_eq_ok, Outcome.exists_unit, Outcome.failIf_eq_ok,
    Outcome.pure_eq_ok, Decidable.not_not]
  refine ⟨provenance, hprovenance, hidentity, hevidence, validated, hvalidated, outputId, hname,
    recordDigest, hrecord, ?_, rfl⟩
  simp only [ToolOutputRecord.verifyFor, requireMatches, Outcome.bind_eq_ok, Outcome.exists_unit,
    Outcome.failIf_eq_ok, Outcome.forEach_eq_ok, List.forall_mem_cons, Decidable.not_not,
    beq_self_eq_true, decide_true, List.not_mem_nil]
  refine ⟨trivial, provenance, hprovenance, hidentity, ?_, hevidence, validated, hvalidated, rfl, rfl,
    outputId, hname, rfl, recordDigest, hrecord, rfl⟩
  simp

/-- A recipe is bound when its texts are accepted and its documents have digests; its own check then
passes. -/
theorem PlannedInvocationMaterialRecord.bind_eq_ok {D : Digests} {runId stepId proposalDigest
    specDigest planId recordDigest : String} {spec : PlannedInvocationSpec}
    {reference : ReconstructableMaterialReference}
    (hrun : requirePlanningIdentifier "run_id" runId = .ok ())
    (hstep : requirePlanningIdentifier "step_id" stepId = .ok ())
    (hproposal : requirePlanningDigest "proposal_digest" proposalDigest = .ok ())
    (hspec : spec.validate = .ok ()) (hreference : reference.validate = .ok ())
    (hdigest : plannedInvocationSpecDigest D spec = .ok specDigest)
    (hshape : requirePlanningDigest "spec_digest" specDigest = .ok ())
    (hplan : plannedInvocationId D runId stepId proposalDigest specDigest = .ok planId)
    (hname : requirePlanningIdentifier "plan_id" planId = .ok ())
    (hrecord : D.digest (.plannedInvocationMaterialRecord plannedInvocationFormatVersion runId stepId
      planId proposalDigest specDigest reference) PlanningContractError.canonicalization =
        .ok recordDigest)
    (hinput : requirePlanningDigest "plan_input_record_digest" recordDigest = .ok ()) :
    ∃ bound, PlannedInvocationMaterialRecord.bind D runId stepId proposalDigest spec reference =
      .ok bound := by
  simp only [PlannedInvocationMaterialRecord.bind, Outcome.bind_eq_ok, Outcome.exists_unit,
    Outcome.mapErr_eq_ok, Outcome.pure_eq_ok]
  refine ⟨_, hrun, hstep, hproposal, hspec, hreference, specDigest, hdigest, planId, hplan,
    recordDigest, hrecord, ?_, rfl⟩
  simp only [PlannedInvocationMaterialRecord.verifyFor, PlannedInvocationBinding.validate,
    Outcome.bind_eq_ok, Outcome.exists_unit, Outcome.failIf_eq_ok, Outcome.mapErr_eq_ok, ne_eq,
    not_or, Decidable.not_not]
  exact ⟨trivial, ⟨trivial, hname, hproposal, hshape, hinput, hspec, specDigest, hdigest, rfl⟩,
    hreference, trivial, trivial, trivial, trivial, trivial, planId, hplan, rfl, recordDigest,
    hrecord, rfl, trivial⟩

/-- A material is built when its texts are accepted, the intent retains it alike and its documents
have digests; its own check then passes. -/
theorem InvocationMaterialRecord.exists_new {D : Digests} {runId stepId materialDigest materialId
    recordDigest : String} {intent : EffectIntent} {retention : InvocationMaterialRetention}
    (hshape : ∀ record : InvocationMaterialRecord, record.runId = runId → record.stepId = stepId →
      record.effectId = intent.effectId → record.actionDigest = intent.actionDigest →
      record.materialDigest = materialDigest → record.retention = retention →
      record.validateShape = .ok ())
    (hmaterial : intent.authorization.binding.materialDigest = materialDigest)
    (hretention : invocationMaterialRetentionDigest D retention =
      .ok intent.authorization.binding.materialRetentionDigest)
    (hname : invocationMaterialId D runId intent.effectId materialDigest = .ok materialId)
    (hrecord : D.digest (.invocationMaterialRecord invocationMaterialFormatVersion materialId runId
      stepId intent.effectId intent.actionDigest intent.invocation materialDigest retention)
        InvocationMaterialError.canonicalization = .ok recordDigest) :
    ∃ record, InvocationMaterialRecord.new D runId stepId intent materialDigest retention =
      .ok record := by
  simp only [InvocationMaterialRecord.new, Outcome.bind_eq_ok, Outcome.exists_unit,
    Outcome.pure_eq_ok]
  refine ⟨_, hshape _ rfl rfl rfl rfl rfl rfl, materialId, hname, recordDigest, hrecord, ?_, rfl⟩
  simp only [InvocationMaterialRecord.verifyFor, Outcome.bind_eq_ok, Outcome.exists_unit,
    Outcome.failIf_eq_ok, ne_eq, Decidable.not_not]
  exact ⟨trivial, hshape _ rfl rfl rfl rfl rfl rfl, trivial, trivial, trivial, trivial, trivial,
    hmaterial, _, hretention, rfl, materialId, hname, rfl, recordDigest, hrecord, rfl⟩

/-! ## The sidecars of a sample run -/

def sampleHash (hash : String) (h : isHex64 (bytes hash) = true := by decide +kernel) : Sha256Hex :=
  ⟨hash, h⟩

def sampleModelCallId : String := "model-call-" ++ String.ofList (List.replicate 64 '4')

def sampleProposalHash : Sha256Hex :=
  sampleHash "3f9306e90b8c4105d726faff55863725f097855b1ebffcbe241c17ae80671dc6"

def sampleCandidateHash : Sha256Hex :=
  sampleHash "d82d924f2a499e6e950fedd060c0448646e78af54b58cf03e96b972f504b2df6"

def sampleSummaryHash : Sha256Hex :=
  sampleHash "dac36ec3e06226e2e6b01d80770b6d42bb12b9044db9ee43a059b8780a9f45a4"

def sampleCompletionHash : Sha256Hex :=
  sampleHash "c15493dac0d450d7d706a02612b21fcc2470786ff70fce81b56c7c7059b223e8"

def sampleOutputHash : Sha256Hex :=
  sampleHash "cbbbdcd27692344de5dbab3abcaba413fb0f45307267de7081401576df1cb176"

def sampleOutputIdHash : Sha256Hex :=
  sampleHash "bca90d0c844e19cba5cc2e5e4acd4cf478c54f41a7b6f8cd31a7c6d5f3f15e2e"

def sampleSpecHash : Sha256Hex :=
  sampleHash "92b91d77fa8c7f46d9d54fca1b7b866123522dd099788cef3cab2a58a653a3a4"

def samplePlanHash : Sha256Hex :=
  sampleHash "1bd362b586ecbb9ef9654c655b29e033fdd2ce481e6a0f815d36f0bb77bdb475"

def sampleRetentionHash : Sha256Hex :=
  sampleHash "9987b130aa626178c0f575e18a11aeac7fb3c42ce9fb5f946a26eba9a84e0fbb"

def sampleMaterialHash : Sha256Hex :=
  sampleHash "db6301f419be7990177f9b00c6fb42ffbbf5c306a28a7e166fbeb1036b4a2338"

/-- The spelling of a number that is not a double. -/
def spellWhole : JsonNumber → String
  | .posInt n => toString n.toNat
  | .negInt n => toString n
  | .float _ => ""

/-- The text of a document of strings and whole numbers, with its members as they stand. -/
def sampleText (members : List (String × Json)) : String := (Json.object members).write spellWhole

/-- The four documents of one completion, with their texts. -/
def completionDocuments : List Spelled :=
  [{ input := .completionProposal (sampleDigest '3') "Done."
     text := sampleText [("contextDigest", .string (sampleDigest '3')),
       ("domain", .string "xgeny.completion-proposal/v1"), ("summary", .string "Done.")]
     sha256 := sampleProposalHash },
   { input := .completionCandidateId "run-1" (sampleDigest '3') (sha256Digest sampleProposalHash)
     text := sampleText [("contextDigest", .string (sampleDigest '3')),
       ("domain", .string "xgeny.completion-candidate-id/v1"),
       ("proposalDigest", .string (sha256Digest sampleProposalHash)), ("runId", .string "run-1")]
     sha256 := sampleCandidateHash },
   { input := .completionSummary "Done."
     text := sampleText [("domain", .string "xgeny.completion-summary/v1"),
       ("summary", .string "Done.")]
     sha256 := sampleSummaryHash },
   { input := .completionOutputRecord 1 ("completion-" ++ sampleCandidateHash.val) "run-1" 1
       sampleModelCallId (sampleDigest '3') (sha256Digest sampleProposalHash) 5
       (sha256Digest sampleSummaryHash)
     text := sampleText [("candidateId", .string ("completion-" ++ sampleCandidateHash.val)),
       ("contextDigest", .string (sampleDigest '3')),
       ("domain", .string "xgeny.completion-output.record/v1"),
       ("formatVersion", .number (.posInt 1)), ("modelCallId", .string sampleModelCallId),
       ("proposalDigest", .string (sha256Digest sampleProposalHash)), ("runId", .string "run-1"),
       ("summaryDigest", .string (sha256Digest sampleSummaryHash)),
       ("summarySizeBytes", .number (.posInt 5)), ("turnIndex", .number (.posInt 1))]
     sha256 := sampleCompletionHash }]

/-- The value that the tool returned. -/
def sampleOutput : Json := .object [("text", .string "hello")]

/-- An invocation binding, as it is serialized. -/
def sampleInvocationJson : Json :=
  .object
    [("capabilityId", .string "file.write"), ("contractVersion", .string "1.0.0"),
      ("definitionDigest", .string (sampleDigest '1')),
      ("instanceBindingDigest", .string (sampleDigest '2')), ("instanceId", .string "local-fs")]

/-- The documents of one tool output. -/
def outputDocuments : List Spelled :=
  [{ input := .toolOutput sampleOutput
     text := sampleText [("text", .string "hello")]
     sha256 := sampleOutputHash },
   { input := .toolOutputId "run-1" "step-a" "effect-a" 1 (sha256Digest sampleOutputHash)
     text := sampleText [("domain", .string "xgeny.tool-output.id/v1"),
       ("effectId", .string "effect-a"), ("executionAttempt", .number (.posInt 1)),
       ("outputDigest", .string (sha256Digest sampleOutputHash)), ("runId", .string "run-1"),
       ("stepId", .string "step-a")]
     sha256 := sampleOutputIdHash },
   { input := .toolOutputRecord 1 ("output-" ++ sampleOutputIdHash.val) "run-1" "step-a" "effect-a"
       (sampleDigest 'a') sampleInvocationBinding "plan-1" 1 (sampleDigest '7') 16
       (sha256Digest sampleOutputHash)
     text := sampleText [("actionDigest", .string (sampleDigest 'a')),
       ("canonicalSizeBytes", .number (.posInt 16)),
       ("domain", .string "xgeny.tool-output.record/v1"), ("effectId", .string "effect-a"),
       ("evidenceDigest", .string (sampleDigest '7')), ("executionAttempt", .number (.posInt 1)),
       ("formatVersion", .number (.posInt 1)), ("invocation", sampleInvocationJson),
       ("outputDigest", .string (sha256Digest sampleOutputHash)),
       ("outputId", .string ("output-" ++ sampleOutputIdHash.val)), ("planId", .string "plan-1"),
       ("runId", .string "run-1"), ("stepId", .string "step-a")]
     sha256 := sampleHash "f70f53c47a5c196b7decba603e2d79e26d05a7bbebd1a620dafb804c49c120a5" }]

def boundSpec : PlannedInvocationSpec where
  capabilityId := "file.write"
  contractVersion := "1.0.0"
  definitionDigest := sampleDigest '1'
  actionDigest := sampleDigest 'a'
  planInputDigest := sampleDigest '3'
  executionProfile := .localSyncOnceOccurrenceV1
  targetOs := "linux"
  targetArch := "x86_64"

def sampleReference : ReconstructableMaterialReference := ⟨"recipes", "recipe-a", "1"⟩

/-- The reference, as it is serialized. -/
def sampleReferenceJson : Json :=
  .object [("providerId", .string "recipes"), ("referenceId", .string "recipe-a"),
    ("revision", .string "1")]

/-- The retention by the reference, as it is serialized. -/
def sampleRetentionJson : Json :=
  .object [("mode", .string "reconstructable_reference"), ("reference", sampleReferenceJson)]

/-- The documents of one planned invocation and of the material of its intent. -/
def materialDocuments : List Spelled :=
  [{ input := .plannedInvocationSpec boundSpec
     text := sampleText [("actionDigest", .string (sampleDigest 'a')),
       ("capabilityId", .string "file.write"), ("contractVersion", .string "1.0.0"),
       ("definitionDigest", .string (sampleDigest '1')),
       ("domain", .string "xgeny.planned-invocation.spec/v1"),
       ("executionProfile", .string "local_sync_once_occurrence_v1"),
       ("planInputDigest", .string (sampleDigest '3')), ("targetArch", .string "x86_64"),
       ("targetOs", .string "linux")]
     sha256 := sampleSpecHash },
   { input := .plannedInvocationId "run-1" "step-a" (sampleDigest '5') (sha256Digest sampleSpecHash)
     text := sampleText [("domain", .string "xgeny.planned-invocation.id/v1"),
       ("proposalDigest", .string (sampleDigest '5')), ("runId", .string "run-1"),
       ("specDigest", .string (sha256Digest sampleSpecHash)), ("stepId", .string "step-a")]
     sha256 := samplePlanHash },
   { input := .plannedInvocationMaterialRecord 1 "run-1" "step-a" ("plan-" ++ samplePlanHash.val)
       (sampleDigest '5') (sha256Digest sampleSpecHash) sampleReference
     text := sampleText [("domain", .string "xgeny.planned-invocation.material-record/v1"),
       ("formatVersion", .number (.posInt 1)), ("planId", .string ("plan-" ++ samplePlanHash.val)),
       ("proposalDigest", .string (sampleDigest '5')), ("reference", sampleReferenceJson),
       ("runId", .string "run-1"), ("specDigest", .string (sha256Digest sampleSpecHash)),
       ("stepId", .string "step-a")]
     sha256 := sampleHash "da48d509995b90f91a2c151fb4e32446872622593d173ddfde2b0c5e07ce6184" },
   { input := .invocationMaterialRetention (.reconstructableReference sampleReference)
     text := sampleText [("domain", .string "xgeny.invocation-material.retention/v1"),
       ("material", sampleRetentionJson)]
     sha256 := sampleRetentionHash },
   { input := .invocationMaterialId "run-1" "effect-a" (sampleDigest '3')
     text := sampleText [("domain", .string "xgeny.invocation-material.id/v1"),
       ("effectId", .string "effect-a"), ("materialDigest", .string (sampleDigest '3')),
       ("runId", .string "run-1")]
     sha256 := sampleMaterialHash },
   { input := .invocationMaterialRecord 1 ("material-" ++ sampleMaterialHash.val) "run-1" "step-a"
       "effect-a" (sampleDigest 'a') sampleInvocationBinding (sampleDigest '3')
       (.reconstructableReference sampleReference)
     text := sampleText [("actionDigest", .string (sampleDigest 'a')),
       ("domain", .string "xgeny.invocation-material.record/v1"), ("effectId", .string "effect-a"),
       ("formatVersion", .number (.posInt 1)), ("invocation", sampleInvocationJson),
       ("materialDigest", .string (sampleDigest '3')),
       ("materialId", .string ("material-" ++ sampleMaterialHash.val)),
       ("retention", sampleRetentionJson), ("runId", .string "run-1"), ("stepId", .string "step-a")]
     sha256 := sampleHash "d2679f921ac00535d1fe14e790c044e9c803c86b55d5f84e6f73cb8b48ce7389" }]

def sidecarDocuments : List Spelled := completionDocuments ++ outputDocuments ++ materialDocuments

/-- An encoder that knows the documents of the four sidecars. -/
def sidecarEncoder : CanonicalEncoder :=
  .ofTable (fun _ => "")
    (sampleHash "9999999999999999999999999999999999999999999999999999999999999999") sidecarDocuments

/-- A read-only intent that retains its arguments by the reference. -/
def boundIntent : EffectIntent :=
  { intentA with
    effectClass := .readOnly
    authorization :=
      { intentA.authorization with
        binding := { bindingA with materialRetentionDigest := sha256Digest sampleRetentionHash } }
    receiptProvenance := some
      { profileVersion := "xgeny.core-receipt/v2"
        toolOutputProfile := some toolOutputProfileV1
        invocationId := "invocation-1"
        planId := "plan-1"
        policyDecisionId := "decision-1"
        policyDecisionDigest := sampleDigest '3'
        executorId := "local"
        executorPlacement := .localHost
        executorPlatform := "linux"
        inputSummary := "read"
        verificationPlan := [] } }

namespace CanonicalEncoder

variable {spellDouble : UInt64 → String} {default : Sha256Hex} {table : List Spelled}

theorem ofTable_sha256_inj (htexts : (table.map Spelled.text).Nodup)
    (hhashes : (table.map Spelled.sha256).Nodup) (hdefault : default ∉ table.map Spelled.sha256)
    {entry : Spelled} (hentry : entry ∈ table) {text : String}
    (h : (ofTable spellDouble default table).sha256 entry.text =
      (ofTable spellDouble default table).sha256 text) : text = entry.text := by
  rw [ofTable_sha256 htexts hentry] at h
  by_cases hknown : ∃ other ∈ table, other.text = text
  · obtain ⟨other, hother, rfl⟩ := hknown
    rw [ofTable_sha256 htexts hother] at h
    rw [List.inj_on_of_nodup_map hhashes hother hentry h.symm]
  · rw [ofTable_sha256_default fun other hother hsame => hknown ⟨other, hother, hsame⟩] at h
    exact absurd (h ▸ List.mem_map_of_mem hentry) hdefault

theorem ofTable_distinguishes (htexts : (table.map Spelled.text).Nodup)
    (hhashes : (table.map Spelled.sha256).Nodup) (hdefault : default ∉ table.map Spelled.sha256)
    {a b : DigestInput} (ha : ∀ output, a ≠ .toolOutput output)
    (hb : ∀ output, b ≠ .toolOutput output) : (ofTable spellDouble default table).Distinguishes a b := by
  have hdocument : ∀ {c x}, (∀ output, c ≠ .toolOutput output) →
      (ofTable spellDouble default table).toVec c = .ok x →
      ∃ entry ∈ table, entry.input = c ∧ entry.text = x := by
    intro c x hc hx
    cases c with
    | toolOutput output => exact absurd rfl (hc output)
    | _ => exact ofTable_document hx
  intro x y hx hy hsame
  obtain ⟨entry, hentry, rfl, rfl⟩ := hdocument ha hx
  obtain ⟨other, hother, rfl, rfl⟩ := hdocument hb hy
  have htext := ofTable_sha256_inj htexts hhashes hdefault hentry hsame
  rw [List.inj_on_of_nodup_map htexts hother hentry htext]

end CanonicalEncoder

theorem sidecarDocuments_inputs : (sidecarDocuments.map Spelled.input).Nodup := by decide +kernel

theorem sidecarDocuments_texts : (sidecarDocuments.map Spelled.text).Nodup := by decide +kernel

theorem sidecarDocuments_hashes : (sidecarDocuments.map Spelled.sha256).Nodup ∧
    sampleHash "9999999999999999999999999999999999999999999999999999999999999999" ∉
      sidecarDocuments.map Spelled.sha256 := by decide +kernel

theorem sidecarEncoder_knows {entry : Spelled} (hentry : entry ∈ sidecarDocuments)
    (hstructured : ∀ output, entry.input ≠ .toolOutput output) :
    sidecarEncoder.digests.canonicalize entry.input = .ok ⟨byteLen entry.text, entry.sha256⟩ :=
  CanonicalEncoder.ofTable_canonicalize sidecarDocuments_inputs sidecarDocuments_texts hentry
    hstructured

theorem sidecarEncoder_digest {ε : Type} {f : String → ε} (i : ℕ) {entry : Spelled}
    (hentry : sidecarDocuments[i]? = some entry)
    (hstructured : ∀ output, entry.input ≠ .toolOutput output) :
    sidecarEncoder.digests.digest entry.input f = .ok (sha256Digest entry.sha256) :=
  Digests.digest_eq_ok.mpr ⟨_, sidecarEncoder_knows (List.mem_of_getElem? hentry) hstructured, rfl⟩

theorem sidecarEncoder_identifier {ε : Type} {f : String → ε} (pre : String) (i : ℕ)
    {entry : Spelled} (hentry : sidecarDocuments[i]? = some entry)
    (hstructured : ∀ output, entry.input ≠ .toolOutput output) :
    sidecarEncoder.digests.identifier pre entry.input f = .ok (pre ++ entry.sha256.val) :=
  Digests.identifier_eq_ok.mpr
    ⟨_, sidecarEncoder_knows (List.mem_of_getElem? hentry) hstructured, rfl⟩

theorem sampleCompletion_bound : ∃ record, CompletionOutputRecord.bind sidecarEncoder.digests
    "run-1" 1 sampleModelCallId (sampleDigest '3') "Done." = .ok record :=
  ⟨_, CompletionOutputRecord.bind_eq_ok (by decide +kernel) (by decide +kernel) (by decide +kernel)
    (sidecarEncoder_digest 0 rfl (by simp)) (by decide +kernel)
    (sidecarEncoder_identifier "completion-" 1 rfl (by simp)) (by decide +kernel)
    (sidecarEncoder_digest 2 rfl (by simp)) (by decide +kernel)
    (sidecarEncoder_digest 3 rfl (by simp))⟩

theorem sampleOutput_built : ∃ record, ToolOutputRecord.new sidecarEncoder.digests "run-1" "step-a"
    boundIntent 1 (sampleDigest '7') sampleOutput = .ok record := by
  have hvalidated : validateToolOutput sidecarEncoder.digests sampleOutput =
      .ok ⟨16, sha256Digest sampleOutputHash⟩ := by
    have hhash : sidecarEncoder.sha256 (sampleOutput.canonical sidecarEncoder) = sampleOutputHash :=
      CanonicalEncoder.ofTable_sha256 sidecarDocuments_texts
        (List.mem_of_getElem? (rfl : sidecarDocuments[4]? = some _))
    refine validateToolOutput_eq_ok.mpr ⟨by decide, ?_⟩
    rw [hhash]
    rfl
  exact ⟨_, ToolOutputRecord.new_eq_ok rfl (by decide) (by decide) hvalidated
    (sidecarEncoder_identifier "output-" 5 rfl (by simp)) (sidecarEncoder_digest 6 rfl (by simp))⟩

theorem samplePlanned_bound : ∃ bound, PlannedInvocationMaterialRecord.bind sidecarEncoder.digests
    "run-1" "step-a" (sampleDigest '5') boundSpec sampleReference = .ok bound :=
  PlannedInvocationMaterialRecord.bind_eq_ok (by decide) (by decide) (by decide) (by decide)
    (by decide) (sidecarEncoder_digest 7 rfl (by simp)) (by decide)
    (sidecarEncoder_identifier "plan-" 8 rfl (by simp)) (by decide)
    (sidecarEncoder_digest 9 rfl (by simp)) (by decide)

theorem sampleMaterial_built : ∃ record, InvocationMaterialRecord.new sidecarEncoder.digests "run-1"
    "step-a" boundIntent (sampleDigest '3') (.reconstructableReference sampleReference) =
      .ok record := by
  refine InvocationMaterialRecord.exists_new ?_ rfl (sidecarEncoder_digest 10 rfl (by simp))
    (sidecarEncoder_identifier "material-" 11 rfl (by simp)) (sidecarEncoder_digest 12 rfl (by simp))
  intro record hrun hstep heffect haction hmaterial hretention
  simp only [InvocationMaterialRecord.validateShape, hrun, hstep, heffect, haction, hmaterial,
    hretention]
  decide

/-- The four sidecars of the sample pass their checks, and no other record passes in their place. -/
theorem sidecar_binding_sample :
    (∃ record decision, CompletionOutputRecord.bind sidecarEncoder.digests "run-1" 1
        sampleModelCallId (sampleDigest '3') "Done." = .ok record ∧
      record.verifyFor sidecarEncoder.digests "run-1" decision record.candidateId
        record.summaryDigest = .ok () ∧
      ∀ other : CompletionOutputRecord, other.verifyFor sidecarEncoder.digests "run-1" decision
        record.candidateId record.summaryDigest = .ok () → other = record) ∧
    (∃ record, ToolOutputRecord.new sidecarEncoder.digests "run-1" "step-a" boundIntent 1
        (sampleDigest '7') sampleOutput = .ok record ∧
      record.verifyFor sidecarEncoder.digests "run-1" "step-a" boundIntent 1 (sampleDigest '7') =
        .ok () ∧
      ∀ other : ToolOutputRecord, other.verifyFor sidecarEncoder.digests "run-1" "step-a"
        boundIntent 1 (sampleDigest '7') = .ok () → record.recordDigest = other.recordDigest →
          record.SameContent sidecarEncoder other) ∧
    (∃ binding record, PlannedInvocationMaterialRecord.bind sidecarEncoder.digests "run-1" "step-a"
        (sampleDigest '5') boundSpec sampleReference = .ok (binding, record) ∧
      record.verifyFor sidecarEncoder.digests "run-1" "step-a" binding = .ok () ∧
      (∀ other : PlannedInvocationMaterialRecord, other.verifyFor sidecarEncoder.digests "run-1"
        "step-a" binding = .ok () → other = record) ∧
      ∀ runId stepId binding', record.verifyFor sidecarEncoder.digests runId stepId binding' =
        .ok () → runId = "run-1" ∧ stepId = "step-a" ∧ binding' = binding) ∧
    ∃ record, InvocationMaterialRecord.new sidecarEncoder.digests "run-1" "step-a" boundIntent
        (sampleDigest '3') (.reconstructableReference sampleReference) = .ok record ∧
      record.verifyFor sidecarEncoder.digests "run-1" "step-a" boundIntent = .ok () ∧
      ∀ other : InvocationMaterialRecord, other.verifyFor sidecarEncoder.digests "run-1" "step-a"
        boundIntent = .ok () → other = record := by
  obtain ⟨hcompletion, houtput, hplanned, hmaterial⟩ := sidecar_binding sidecarEncoder
  have hapart : ∀ {a b : DigestInput}, (∀ output, a ≠ .toolOutput output) →
      (∀ output, b ≠ .toolOutput output) → sidecarEncoder.Distinguishes a b :=
    CanonicalEncoder.ofTable_distinguishes sidecarDocuments_texts sidecarDocuments_hashes.1
      sidecarDocuments_hashes.2
  obtain ⟨completion, hcompletionBound⟩ := sampleCompletion_bound
  obtain ⟨output, houtputBuilt⟩ := sampleOutput_built
  obtain ⟨⟨binding, recipe⟩, hrecipeBound⟩ := samplePlanned_bound
  obtain ⟨material, hmaterialBuilt⟩ := sampleMaterial_built
  obtain ⟨decision, -, -, -, -, -, hcompletionVerified⟩ :=
    hcompletion.bound _ _ _ _ _ _ hcompletionBound
  obtain ⟨hvalue, houtputVerified⟩ := houtput.built _ _ _ _ _ _ _ houtputBuilt
  obtain ⟨-, -, -, hrecipeVerified⟩ := hplanned.bound _ _ _ _ _ _ _ hrecipeBound
  obtain ⟨-, -, hmaterialVerified⟩ := hmaterial.built _ _ _ _ _ _ hmaterialBuilt
  refine ⟨⟨completion, decision, hcompletionBound, hcompletionVerified, fun other hother => ?_⟩,
    ⟨output, houtputBuilt, houtputVerified, fun other hother hsame => ?_⟩,
    ⟨binding, recipe, hrecipeBound, hrecipeVerified, fun other hother => ?_,
      fun runId stepId binding' hother => ?_⟩,
    ⟨material, hmaterialBuilt, hmaterialVerified, fun other hother => ?_⟩⟩
  · exact hcompletion.determined _ _ _ _ _ _ (hapart (by simp) (by simp)) hother hcompletionVerified
  · have hseparates : sidecarEncoder.Separates output.output other.output := by
      intro hhash
      rw [hvalue] at hhash ⊢
      exact (CanonicalEncoder.ofTable_sha256_inj sidecarDocuments_texts sidecarDocuments_hashes.1
        sidecarDocuments_hashes.2
        (List.mem_of_getElem? (rfl : sidecarDocuments[4]? = some _)) hhash).symm
    exact houtput.determined _ _ _ _ _ _ _ (hapart (by simp [ToolOutputRecord.document])
      (by simp [ToolOutputRecord.document])) hseparates houtputVerified hother (.inl hsame)
  · exact hplanned.determined _ _ _ _ _ (hapart (by simp [PlannedInvocationMaterialRecord.document])
      (by simp [PlannedInvocationMaterialRecord.document])) hother hrecipeVerified
  · exact hplanned.immovable _ _ _ _ _ _ _ (hapart (by simp) (by simp)) hother hrecipeVerified
  · exact hmaterial.determined _ _ _ _ _ (hapart (by simp) (by simp)) hother hmaterialVerified

end Xgeny
