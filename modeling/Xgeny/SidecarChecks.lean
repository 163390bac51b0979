import Xgeny.Planning

set_option autoImplicit false

/-!
# Self-verification of sidecar records

Each sidecar record recomputes its own identity and compares itself with the event it is committed
with. The recipe of a planned invocation is checked in `Xgeny.Planning`; here are the material of
an effect intent, the output of a tool and the output of a completion.

* `validateToolOutput`: the walk over a JSON value that bounds its depth, its nodes and its text;
* `verifyFor` of the three records;
* **`verifyFor_effectId`**: a verified material or output carries the effect id of its intent.
-/

namespace Xgeny

/-- Every listed pair of a field and a comparison holds, or the first that fails is reported. -/
def requireMatches {ε : Type} (onMismatch : String → ε) (fields : List (String × Bool)) :
    Outcome ε Unit :=
  Outcome.forEach fields fun (field, same) => Outcome.failIf (¬ same = true) (onMismatch field)

/-! ## Invocation material -/

/-- `INVOCATION_MATERIAL_FORMAT_VERSION`. -/
def invocationMaterialFormatVersion : UInt32 := 1

section

variable (D : Digests)

/-- `invocation_material_digest`, of the arguments of an invocation. -/
def invocationMaterialDigest (material : Json) : Outcome InvocationMaterialError String :=
  D.digest (.invocationMaterialPayload material) .canonicalization

def invocationMaterialRetentionDigest (retention : InvocationMaterialRetention) :
    Outcome InvocationMaterialError String :=
  D.digest (.invocationMaterialRetention retention) .canonicalization

def invocationMaterialId (runId effectId materialDigest : String) :
    Outcome InvocationMaterialError String :=
  D.identifier "material-" (.invocationMaterialId runId effectId materialDigest) .canonicalization

def invocationMaterialRecordDigest (record : InvocationMaterialRecord) :
    Outcome InvocationMaterialError String :=
  D.digest (.invocationMaterialRecord record.formatVersion record.materialId record.runId
    record.stepId record.effectId record.actionDigest record.invocation record.materialDigest
    record.retention) .canonicalization

def InvocationMaterialRecord.validateShape (self : InvocationMaterialRecord) :
    Outcome InvocationMaterialError Unit := do
  Outcome.forEach
    [("run_id", self.runId), ("step_id", self.stepId), ("effect_id", self.effectId),
      ("action_digest", self.actionDigest), ("material_digest", self.materialDigest)]
    fun (field, value) => Outcome.failIf (value = "") (.emptyField field)
  match self.retention with
  | .ephemeral => pure ()
  | .reconstructableReference reference => reference.validate

def InvocationMaterialRecord.verifyFor (self : InvocationMaterialRecord) (runId stepId : String)
    (intent : EffectIntent) : Outcome InvocationMaterialError Unit := do
  Outcome.failIf (self.formatVersion ≠ invocationMaterialFormatVersion)
    (.unsupportedFormatVersion self.formatVersion)
  self.validateShape
  Outcome.failIf (self.runId ≠ runId) (.bindingMismatch "run_id")
  Outcome.failIf (self.stepId ≠ stepId) (.bindingMismatch "step_id")
  Outcome.failIf (self.effectId ≠ intent.effectId) (.bindingMismatch "effect_id")
  Outcome.failIf (self.actionDigest ≠ intent.actionDigest) (.bindingMismatch "action_digest")
  Outcome.failIf (self.invocation ≠ intent.invocation) (.bindingMismatch "invocation")
  Outcome.failIf (intent.authorization.binding.materialDigest ≠ self.materialDigest)
    (.bindingMismatch "material_digest")
  let retentionDigest ← invocationMaterialRetentionDigest D self.retention
  Outcome.failIf (intent.authorization.binding.materialRetentionDigest ≠ retentionDigest)
    (.bindingMismatch "material_retention_digest")
  let expectedId ← invocationMaterialId D self.runId self.effectId self.materialDigest
  Outcome.failIf (self.materialId ≠ expectedId) .materialIdMismatch
  let expectedDigest ← invocationMaterialRecordDigest D self
  Outcome.failIf (self.recordDigest ≠ expectedDigest) .recordDigestMismatch

/-- `InvocationMaterialRecord::new`. -/
def InvocationMaterialRecord.new (runId stepId : String) (intent : EffectIntent)
    (materialDigest : String) (retention : InvocationMaterialRetention) :
    Outcome InvocationMaterialError InvocationMaterialRecord := do
  let record : InvocationMaterialRecord :=
    { formatVersion := invocationMaterialFormatVersion
      materialId := ""
      runId := runId
      stepId := stepId
      effectId := intent.effectId
      actionDigest := intent.actionDigest
      invocation := intent.invocation
      materialDigest := materialDigest
      retention := retention
      recordDigest := "" }
  record.validateShape
  let materialId ← invocationMaterialId D runId intent.effectId materialDigest
  let record := { record with materialId := materialId }
  let recordDigest ← invocationMaterialRecordDigest D record
  let record := { record with recordDigest := recordDigest }
  record.verifyFor D runId stepId intent
  pure record

variable {D} in
/-- **A verified material carries the effect id of its intent.** -/
theorem InvocationMaterialRecord.verifyFor_effectId {self : InvocationMaterialRecord}
    {runId stepId : String} {intent : EffectIntent} {u : Unit}
    (h : self.verifyFor D runId stepId intent = .ok u) : self.effectId = intent.effectId := by
  simp only [InvocationMaterialRecord.verifyFor, Outcome.bind_eq_ok, Outcome.exists_unit,
    Outcome.failIf_eq_ok, ne_eq, Decidable.not_not] at h
  exact h.2.2.2.2.1

end

/-! ## Tool outputs -/

/-- `TOOL_OUTPUT_FORMAT_VERSION`. -/
def toolOutputFormatVersion : UInt32 := 1

/-- `MAX_TOOL_OUTPUT_CANONICAL_BYTES`. -/
def maxToolOutputCanonicalBytes : ℕ := 1048576

/-- `MAX_TOOL_OUTPUT_DEPTH`. -/
def maxToolOutputDepth : ℕ := 64

/-- `MAX_TOOL_OUTPUT_NODES`. -/
def maxToolOutputNodes : ℕ := 32768

/-- `MAX_TOOL_OUTPUT_TEXT_BYTES`. -/
def maxToolOutputTextBytes : ℕ := maxToolOutputCanonicalBytes

inductive ToolOutputError where
  | unsupportedFormatVersion (version : UInt32)
  | unsupportedProfile
  | unsupportedEffectClass
  | invalidIdentity (field : String)
  | invalidExecutionAttempt
  | invalidEvidenceDigest
  | depthExceeded
  | nodeCountExceeded
  | textBytesExceeded
  | canonicalSizeExceeded
  | canonicalization
  | bindingMismatch (field : String)
  | canonicalSizeMismatch
  | outputDigestMismatch
  | outputIdMismatch
  | recordDigestMismatch
  deriving DecidableEq

def ensureToolOutputPendingBound (visited pending children : ℕ) : Outcome ToolOutputError Unit :=
  Outcome.failIf (¬ visited + pending + children ≤ maxToolOutputNodes) .nodeCountExceeded

def boundedToolOutputTextAdd (current added : ℕ) : Outcome ToolOutputError ℕ := do
  Outcome.failIf (¬ current + added ≤ maxToolOutputTextBytes) .textBytesExceeded
  pure (current + added)

/-- The walk of `validate_tool_output` over a stack of values with their depths, its head on top.
The first argument is what is left of the node budget, so that the walk ends with it. -/
def walkToolOutput : ℕ → ℕ → List (Json × ℕ) → Outcome ToolOutputError Unit
  | _, _, [] => .ok ()
  | 0, _, (_, depth) :: _ => do
    Outcome.failIf (depth > maxToolOutputDepth) .depthExceeded
    Outcome.fail .nodeCountExceeded
  | remaining + 1, textBytes, (value, depth) :: pending => do
    Outcome.failIf (depth > maxToolOutputDepth) .depthExceeded
    let nodes := maxToolOutputNodes - remaining
    match value with
    | .string text => do
      let textBytes ← boundedToolOutputTextAdd textBytes (byteLen text)
      walkToolOutput remaining textBytes pending
    | .array values => do
      ensureToolOutputPendingBound nodes pending.length values.length
      walkToolOutput remaining textBytes (values.map (fun value => (value, depth + 1)) ++ pending)
    | .object members => do
      ensureToolOutputPendingBound nodes pending.length members.length
      -- the members are pushed last to first, their keys are counted in that order
      let textBytes ← Outcome.foldl (fun total member => boundedToolOutputTextAdd total (byteLen member.1))
        textBytes members.reverse
      walkToolOutput remaining textBytes
        (members.map (fun member => (member.2, depth + 1)) ++ pending)
    | _ => walkToolOutput remaining textBytes pending

structure ValidatedToolOutput where
  canonicalSizeBytes : UInt64
  outputDigest : String

/-- An identity field: not empty, at most 512 bytes, no control characters. -/
def isToolOutputIdentity (value : String) : Bool :=
  value != "" && decide (byteLen value ≤ 512) && !value.toList.any isControl

def requiredToolOutputProvenance (intent : EffectIntent) :
    Outcome ToolOutputError ReceiptProvenance := do
  Outcome.failIf (¬ (intent.effectClass = .readOnly ∨ intent.effectClass = .idempotent ∨
    intent.effectClass = .nonIdempotent)) .unsupportedEffectClass
  let provenance ← Outcome.okOr intent.receiptProvenance .unsupportedProfile
  Outcome.failIf (provenance.profileVersion ≠ "xgeny.core-receipt/v2" ∨
    provenance.toolOutputProfile ≠ some toolOutputProfileV1) .unsupportedProfile
  Outcome.failIf (¬ isToolOutputIdentity provenance.planId = true) (.invalidIdentity "plan_id")
  pure provenance

def validateToolOutputIdentity (runId stepId : String) (intent : EffectIntent)
    (executionAttempt : UInt32) : Outcome ToolOutputError Unit := do
  Outcome.forEach
    [("run_id", runId), ("step_id", stepId), ("effect_id", intent.effectId),
      ("action_digest", intent.actionDigest), ("capability_id", intent.invocation.capabilityId),
      ("contract_version", intent.invocation.contractVersion),
      ("definition_digest", intent.invocation.definitionDigest),
      ("instance_id", intent.invocation.instanceId),
      ("instance_binding_digest", intent.invocation.instanceBindingDigest)]
    fun (field, value) => Outcome.failIf (¬ isToolOutputIdentity value = true) (.invalidIdentity field)
  Outcome.failIf (executionAttempt = 0) .invalidExecutionAttempt

section

variable (D : Digests)

def validateToolOutput (output : Json) : Outcome ToolOutputError ValidatedToolOutput := do
  walkToolOutput maxToolOutputNodes 0 [(output, 0)]
  let canonical ← D.toVec (.toolOutput output) fun _ => ToolOutputError.canonicalization
  Outcome.failIf (canonical.size > maxToolOutputCanonicalBytes) .canonicalSizeExceeded
  pure { canonicalSizeBytes := canonical.size.toUInt64, outputDigest := sha256Digest canonical.sha256 }

def toolOutputId (record : ToolOutputRecord) : Outcome ToolOutputError String :=
  D.identifier "output-" (.toolOutputId record.runId record.stepId record.effectId
    record.executionAttempt record.outputDigest) fun _ => .canonicalization

def toolOutputRecordDigest (record : ToolOutputRecord) : Outcome ToolOutputError String :=
  D.digest (.toolOutputRecord record.formatVersion record.outputId record.runId record.stepId
    record.effectId record.actionDigest record.invocation record.planId record.executionAttempt
    record.evidenceDigest record.canonicalSizeBytes record.outputDigest) fun _ => .canonicalization

def ToolOutputRecord.verifyFor (self : ToolOutputRecord) (runId stepId : String)
    (intent : EffectIntent) (executionAttempt : UInt32) (evidenceDigest : String) :
    Outcome ToolOutputError Unit := do
  Outcome.failIf (self.formatVersion ≠ toolOutputFormatVersion)
    (.unsupportedFormatVersion self.formatVersion)
  let provenance ← requiredToolOutputProvenance intent
  validateToolOutputIdentity runId stepId intent executionAttempt
  requireMatches .bindingMismatch
    [("run_id", self.runId == runId), ("step_id", self.stepId == stepId),
      ("effect_id", self.effectId == intent.effectId),
      ("action_digest", self.actionDigest == intent.actionDigest),
      ("invocation", decide (self.invocation = intent.invocation)),
      ("plan_id", self.planId == provenance.planId),
      ("execution_attempt", self.executionAttempt == executionAttempt),
      ("evidence_digest", self.evidenceDigest == evidenceDigest)]
  Outcome.failIf (¬ isSha256Digest self.evidenceDigest = true) .invalidEvidenceDigest
  let validated ← validateToolOutput D self.output
  Outcome.failIf (self.canonicalSizeBytes ≠ validated.canonicalSizeBytes) .canonicalSizeMismatch
  Outcome.failIf (self.outputDigest ≠ validated.outputDigest) .outputDigestMismatch
  let outputId ← toolOutputId D self
  Outcome.failIf (self.outputId ≠ outputId) .outputIdMismatch
  let recordDigest ← toolOutputRecordDigest D self
  Outcome.failIf (self.recordDigest ≠ recordDigest) .recordDigestMismatch

/-- `ToolOutputRecord::new`. -/
def ToolOutputRecord.new (runId stepId : String) (intent : EffectIntent) (executionAttempt : UInt32)
    (evidenceDigest : String) (output : Json) : Outcome ToolOutputError ToolOutputRecord := do
  let provenance ← requiredToolOutputProvenance intent
  validateToolOutputIdentity runId stepId intent executionAttempt
  Outcome.failIf (¬ isSha256Digest evidenceDigest = true) .invalidEvidenceDigest
  let validated ← validateToolOutput D output
  let record : ToolOutputRecord :=
    { formatVersion := toolOutputFormatVersion
      outputId := ""
      runId := runId
      stepId := stepId
      effectId := intent.effectId
      actionDigest := intent.actionDigest
      invocation := intent.invocation
      planId := provenance.planId
      executionAttempt := executionAttempt
      evidenceDigest := evidenceDigest
      canonicalSizeBytes := validated.canonicalSizeBytes
      outputDigest := validated.outputDigest
      output := output
      recordDigest := "" }
  let outputId ← toolOutputId D record
  let record := { record with outputId := outputId }
  let recordDigest ← toolOutputRecordDigest D record
  let record := { record with recordDigest := recordDigest }
  record.verifyFor D runId stepId intent executionAttempt evidenceDigest
  pure record

variable {D} in
/-- **A verified output carries the step id and the effect id of its intent.** -/
theorem ToolOutputRecord.verifyFor_effectId {self : ToolOutputRecord} {runId stepId : String}
    {intent : EffectIntent} {executionAttempt : UInt32} {evidenceDigest : String} {u : Unit}
    (h : self.verifyFor D runId stepId intent executionAttempt evidenceDigest = .ok u) :
    self.stepId = stepId ∧ self.effectId = intent.effectId := by
  simp only [ToolOutputRecord.verifyFor, requireMatches, Outcome.bind_eq_ok, Outcome.exists_unit,
    Outcome.failIf_eq_ok, Outcome.forEach_eq_ok, List.forall_mem_cons, beq_iff_eq, ne_eq,
    Decidable.not_not] at h
  obtain ⟨-, _, -, -, ⟨-, hstep, heffect, -⟩, -⟩ := h
  exact ⟨hstep, heffect⟩

end

/-! ## Completion outputs -/

/-- `COMPLETION_OUTPUT_FORMAT_VERSION`. -/
def completionOutputFormatVersion : UInt32 := 1

/-- `MAX_COMPLETION_SUMMARY_BYTES`. -/
def maxCompletionSummaryBytes : ℕ := 5000

inductive CompletionOutputError where
  | unsupportedFormatVersion (version : UInt32)
  | missingModelCallBinding
  | invalidSummary
  | summaryTooLarge
  | bindingMismatch (field : String)
  | summarySizeMismatch
  | summaryDigestMismatch
  | proposalDigestMismatch
  | candidateIdMismatch
  | recordDigestMismatch
  | canonicalization
  | planningContract (error : PlanningContractError)
  deriving DecidableEq

/-- `validate_completion_summary_candidate`: line feeds and tabs are the only control characters. -/
def validateCompletionSummaryCandidate (summary : String) : Outcome CompletionOutputError Unit := do
  Outcome.failIf (summary = "" ∨
    summary.toList.any (fun c => isControl c && !(c == '\n' || c == '\t')) = true) .invalidSummary
  Outcome.failIf (byteLen summary > maxCompletionSummaryBytes) .summaryTooLarge

/-- `ExpectedPlanningTurn::for_model_call`. -/
def ExpectedPlanningTurn.forModelCall (turnIndex : UInt32)
    (callId contextDigest proposalDigest : String) :
    Outcome PlanningContractError ExpectedPlanningTurn := do
  let turn : ExpectedPlanningTurn :=
    { turnIndex := turnIndex
      modelCallId := some callId
      contextDigest := contextDigest
      proposalDigest := proposalDigest }
  turn.validate
  pure turn

/-- `CompletionOutputRecord::decision`. -/
def CompletionOutputRecord.decision (self : CompletionOutputRecord) :
    Outcome CompletionOutputError ExpectedPlanningTurn :=
  (ExpectedPlanningTurn.forModelCall self.turnIndex self.modelCallId self.contextDigest
    self.proposalDigest).mapErr .planningContract

section

variable (D : Digests)

def completionSummaryDigest (summary : String) : Outcome CompletionOutputError String :=
  D.digest (.completionSummary summary) fun _ => .canonicalization

def completionProposalDigest (contextDigest summary : String) :
    Outcome CompletionOutputError String :=
  D.digest (.completionProposal contextDigest summary) fun _ => .canonicalization

def completionCandidateId (runId contextDigest proposalDigest : String) :
    Outcome CompletionOutputError String :=
  D.identifier "completion-" (.completionCandidateId runId contextDigest proposalDigest)
    fun _ => .canonicalization

def completionOutputRecordDigest (record : CompletionOutputRecord) :
    Outcome CompletionOutputError String :=
  D.digest (.completionOutputRecord record.formatVersion record.candidateId record.runId
    record.turnIndex record.modelCallId record.contextDigest record.proposalDigest
    record.summarySizeBytes record.summaryDigest) fun _ => .canonicalization

def CompletionOutputRecord.verifyFor (self : CompletionOutputRecord) (runId : String)
    (decision : ExpectedPlanningTurn) (candidateId summaryDigest : String) :
    Outcome CompletionOutputError Unit := do
  Outcome.failIf (self.formatVersion ≠ completionOutputFormatVersion)
    (.unsupportedFormatVersion self.formatVersion)
  decision.validate.mapErr .planningContract
  let modelCallId ← Outcome.okOr decision.modelCallId .missingModelCallBinding
  (requirePlanningIdentifier "run_id" runId).mapErr .planningContract
  (requirePlanningIdentifier "candidate_id" candidateId).mapErr .planningContract
  (requirePlanningDigest "summary_digest" summaryDigest).mapErr .planningContract
  requireMatches .bindingMismatch
    [("run_id", self.runId == runId), ("candidate_id", self.candidateId == candidateId),
      ("turn_index", self.turnIndex == decision.turnIndex),
      ("model_call_id", self.modelCallId == modelCallId),
      ("context_digest", self.contextDigest == decision.contextDigest),
      ("proposal_digest", self.proposalDigest == decision.proposalDigest),
      ("summary_digest", self.summaryDigest == summaryDigest)]
  validateCompletionSummaryCandidate self.summary
  Outcome.failIf (self.summarySizeBytes ≠ (byteLen self.summary).toUInt64) .summarySizeMismatch
  let expectedSummaryDigest ← completionSummaryDigest D self.summary
  Outcome.failIf (self.summaryDigest ≠ expectedSummaryDigest) .summaryDigestMismatch
  let expectedProposalDigest ← completionProposalDigest D self.contextDigest self.summary
  Outcome.failIf (self.proposalDigest ≠ expectedProposalDigest) .proposalDigestMismatch
  let expectedCandidateId ← completionCandidateId D self.runId self.contextDigest self.proposalDigest
  Outcome.failIf (self.candidateId ≠ expectedCandidateId) .candidateIdMismatch
  let expectedRecordDigest ← completionOutputRecordDigest D self
  Outcome.failIf (self.recordDigest ≠ expectedRecordDigest) .recordDigestMismatch

/-- `CompletionOutputRecord::new`. -/
def CompletionOutputRecord.new (runId : String) (decision : ExpectedPlanningTurn)
    (candidateId summaryDigest summary : String) :
    Outcome CompletionOutputError CompletionOutputRecord := do
  let modelCallId ← Outcome.okOr decision.modelCallId .missingModelCallBinding
  let record : CompletionOutputRecord :=
    { formatVersion := completionOutputFormatVersion
      candidateId := candidateId
      runId := runId
      turnIndex := decision.turnIndex
      modelCallId := modelCallId
      contextDigest := decision.contextDigest
      proposalDigest := decision.proposalDigest
      summarySizeBytes := (byteLen summary).toUInt64
      summaryDigest := summaryDigest
      summary := summary
      recordDigest := "" }
  let recordDigest ← completionOutputRecordDigest D record
  let record := { record with recordDigest := recordDigest }
  record.verifyFor D runId decision candidateId summaryDigest
  pure record

/-- `CompletionOutputRecord::bind`. -/
def CompletionOutputRecord.bind (runId : String) (turnIndex : UInt32)
    (modelCallId contextDigest summary : String) :
    Outcome CompletionOutputError CompletionOutputRecord := do
  validateCompletionSummaryCandidate summary
  (requirePlanningIdentifier "run_id" runId).mapErr .planningContract
  (requirePlanningDigest "context_digest" contextDigest).mapErr .planningContract
  let proposalDigest ← completionProposalDigest D contextDigest summary
  let decision ← (ExpectedPlanningTurn.forModelCall turnIndex modelCallId contextDigest
    proposalDigest).mapErr .planningContract
  let candidateId ← completionCandidateId D runId contextDigest proposalDigest
  let summaryDigest ← completionSummaryDigest D summary
  CompletionOutputRecord.new D runId decision candidateId summaryDigest summary

variable {D} in
/-- **A verified completion output carries the candidate id of its event.** -/
theorem CompletionOutputRecord.verifyFor_candidateId {self : CompletionOutputRecord}
    {runId candidateId summaryDigest : String} {decision : ExpectedPlanningTurn} {u : Unit}
    (h : self.verifyFor D runId decision candidateId summaryDigest = .ok u) :
    self.candidateId = candidateId := by
  simp only [CompletionOutputRecord.verifyFor, requireMatches, Outcome.bind_eq_ok,
    Outcome.exists_unit, Outcome.failIf_eq_ok, Outcome.forEach_eq_ok, List.forall_mem_cons,
    beq_iff_eq, ne_eq, Decidable.not_not] at h
  obtain ⟨-, -, _, -, -, -, -, ⟨-, hcandidate, -⟩, -⟩ := h
  exact hcandidate

end

end Xgeny
