import Xgeny.Lib.Word
import Xgeny.AgentLoop.Documents
import Xgeny.Policy.Documents
import Xgeny.Lib.Outcome

set_option autoImplicit false

/-!
# Digests

Every digest of a run is the SHA-256 of a canonical JSON document. The canonical encoder and the
hash function are not part of the program, so they are the parameter `Digests` here: the encoder
may refuse a document, and of an accepted one the program reads the number of bytes and the hash.

* `DigestInput`: one constructor for each document that is hashed. Distinct documents carry
  distinct domain strings, or distinct fields where they have no domain;
* `digest`, `identifier`: the text of a digest, and a name built from its hexadecimal part;
* the digest functions of the journal, one definition each.
-/

namespace Xgeny

/-- The documents that are canonicalized and hashed. -/
inductive DigestInput where
  /-- `DigestInput`: the content of a journal record. -/
  | record (sequence : UInt64) (previousDigest : Option String) (event : RunEvent)
  /-- A bare `ReceiptProvenance`. -/
  | receiptProvenance (provenance : ReceiptProvenance)
  /-- `OnceAuthorizationIdInput`, domain `xgeny.authorization-budget.once/v1`. -/
  | onceAuthorizationId (runId actionDigest : String)
  /-- `AuthorizationDigestInput`, domain `xgeny.authorization.once/v2`. -/
  | authorization (binding : AuthorizationBinding) (maxUses : UInt32)
  /-- `ModelCallIdDigestInput`, domain `xgeny.model-call.id/v1`. -/
  | modelCallId (formatVersion : UInt32) (runId : String) (authorityEpoch : UInt64)
      (plannerId : String) (callIndex turnIndex : UInt32) (baseSequence : UInt64)
      (baseHeadDigest contextDigest requestDigest : String)
  /-- `PlannedInvocationSpecDigestInput`, domain `xgeny.planned-invocation.spec/v1`. -/
  | plannedInvocationSpec (spec : PlannedInvocationSpec)
  /-- `PlannedInvocationIdInput`, domain `xgeny.planned-invocation.id/v1`. -/
  | plannedInvocationId (runId stepId proposalDigest specDigest : String)
  /-- `PlannedInvocationMaterialRecordDigestInput`, domain
  `xgeny.planned-invocation.material-record/v1`. -/
  | plannedInvocationMaterialRecord (formatVersion : UInt32)
      (runId stepId planId proposalDigest specDigest : String)
      (reference : ReconstructableMaterialReference)
  /-- `InvocationMaterialDigestInput`, domain `xgeny.invocation-material.retention/v1`. -/
  | invocationMaterialRetention (material : InvocationMaterialRetention)
  /-- `InvocationMaterialIdInput`, domain `xgeny.invocation-material.id/v1`. -/
  | invocationMaterialId (runId effectId materialDigest : String)
  /-- `InvocationMaterialRecordDigestInput`, domain `xgeny.invocation-material.record/v1`. -/
  | invocationMaterialRecord (formatVersion : UInt32)
      (materialId runId stepId effectId actionDigest : String) (invocation : InvocationBinding)
      (materialDigest : String) (retention : InvocationMaterialRetention)
  /-- A bare JSON value: a tool output, or the arguments of an invocation. -/
  | toolOutput (output : Json)
  /-- `ToolOutputIdInput`, domain `xgeny.tool-output.id/v1`. -/
  | toolOutputId (runId stepId effectId : String) (executionAttempt : UInt32) (outputDigest : String)
  /-- `ToolOutputRecordDigestInput`, domain `xgeny.tool-output.record/v1`. -/
  | toolOutputRecord (formatVersion : UInt32)
      (outputId runId stepId effectId actionDigest : String) (invocation : InvocationBinding)
      (planId : String) (executionAttempt : UInt32) (evidenceDigest : String)
      (canonicalSizeBytes : UInt64) (outputDigest : String)
  /-- `CompletionSummaryDigestInput`, domain `xgeny.completion-summary/v1`. -/
  | completionSummary (summary : String)
  /-- `CompletionProposalDigestInput`, domain `xgeny.completion-proposal/v1`. -/
  | completionProposal (contextDigest summary : String)
  /-- `CompletionCandidateIdDigestInput`, domain `xgeny.completion-candidate-id/v1`. -/
  | completionCandidateId (runId contextDigest proposalDigest : String)
  /-- `CompletionOutputRecordDigestInput`, domain `xgeny.completion-output.record/v1`. -/
  | completionOutputRecord (formatVersion : UInt32) (candidateId runId : String)
      (turnIndex : UInt32) (modelCallId contextDigest proposalDigest : String)
      (summarySizeBytes : UInt64) (summaryDigest : String)
  /-- A receipt document without its `receiptDigest`; the field is blank here. -/
  | executionReceipt (receipt : ExecutionReceiptBody)
  /-- `InvocationMaterialDigestInput`, domain `xgeny.invocation-material.payload/v1`. -/
  | invocationMaterialPayload (material : Json)
  /-- `RequestIdentityDigestInput`, domain `xgeny.permission-request/v1`. -/
  | requestIdentity (runId stepId : String) (capability : CapabilityRef) (arguments : Json)
  /-- `DefinitionContractDigestInput`, domain `xgeny.capability-contract/v1`. -/
  | definitionContract (capabilityId contractVersion : String) (spec : CapabilitySpec)
      (requiredExtensions : List String)
  /-- `SemanticActionDigestInput`, domain `xgeny.semantic-action/v1`. -/
  | semanticAction (capability : CapabilityRef) (definitionDigest : String)
      (effectClass : ProtocolEffectClass) (arguments : Json) (resources : List ConcreteResource)
  /-- `PlannedActionOccurrenceDigestInput`, domain `xgeny.planned-action-occurrence/v1`. -/
  | plannedActionOccurrence (runId stepId semanticActionDigest : String)
  /-- `ExecutableBindingDigestInput`, domain `xgeny.executable-binding/v2`. -/
  | executableBinding (instanceId : String) (definition : CapabilityRef)
      (source : CapabilitySource) (placement : Placement) (platform : Platform)
      (trust : TrustLevel) (dataBoundary : DataBoundary) (features : InstanceFeatures)
      (binding : InstanceBinding) (authRef : Option String) (requiredExtensions : List String)
  /-- `EffectIdentityDigestInput`, domain `xgeny.effect.once/v1`. -/
  | effectIdentity (runId actionDigest : String)
  /-- `PolicyEvidenceDigestInput`, domain `xgeny.policy-evidence/v1`. -/
  | policyEvidence (apiVersion requestId runId stepId : String) (capability : CapabilityRef)
      (effectClass : ProtocolEffectClass) (scopes : List String)
      (resources : List ConcreteResource) (criticalActions : List CriticalAction)
      (lifetime : GrantLifetime) (sources : List PolicySource)
  /-- A bare policy decision document. -/
  | policyDecision (decision : PolicyDecisionBody)
  /-- A bare capability definition document. -/
  | capabilityDefinition (definition : CapabilityDefinitionBody)
  /-- A bare `PlanningConstraint`. -/
  | planningConstraint (constraint : PlanningConstraint)
  /-- A bare `PlanningToolOutput`. -/
  | planningToolOutput (output : PlanningToolOutput)
  /-- A bare `PlanningCapabilitySummary`. -/
  | planningCapabilitySummary (summary : PlanningCapabilitySummary)
  /-- A bare `PlanningStepSummary`. -/
  | planningStepSummary (summary : PlanningStepSummary)
  /-- `CatalogDigestInput`, domain `xgeny.capability-catalog/v1`. -/
  | capabilityCatalog (entries : List CatalogDigestEntry)
  /-- A bare `PlanningContextPayload`. -/
  | planningContextPayload (payload : PlanningContextPayload)
  /-- `ContextDigestInput`, domain `xgeny.planning-context.digest/v3`. -/
  | planningContext (payload : PlanningContextPayload)
  /-- `PlannerRequestDigestInput`, domain `xgeny.model-call-request/v1`. -/
  | plannerRequest (plannerId requestProfileDigest contextDigest : String)
  /-- `RawPlanProposalSizeInput`, domain `xgeny.plan-proposal.raw-size/v1`. -/
  | rawPlanProposal (runId contextDigest : String) (steps : List ProposedPlanStep)
  /-- `AcceptedPlanDigestInput`, domain `xgeny.plan-proposal.accepted/v3-action-occurrence`. -/
  | acceptedPlan (runId contextDigest : String) (steps : List AcceptedPlanDigestStep)
  /-- `StepIdDigestInput`, domain `xgeny.plan-step-id/v1`. -/
  | planStepId (runId proposalDigest proposalKey : String)
  /-- `PreflightStepIdDigestInput`, domain `xgeny.plan-step-preflight-id/v1`. -/
  | preflightStepId (runId contextDigest proposalKey : String)
  deriving DecidableEq

/-- What is read of a canonical document: its length in bytes and its SHA-256. -/
structure Canonical where
  size : ℕ
  sha256 : Sha256Hex
  deriving DecidableEq

/-- `serde_jcs::to_vec` followed by `Sha256::digest`; the error is the text of the encoder. -/
structure Digests where
  canonicalize : DigestInput → Except String Canonical

namespace Digests

variable (D : Digests) {ε : Type}

/-- Canonicalize a document, with the caller's error. -/
def toVec (input : DigestInput) (onError : String → ε) : Outcome ε Canonical :=
  match D.canonicalize input with
  | .ok canonical => .ok canonical
  | .error text => Outcome.fail (onError text)

/-- The digest of a document. -/
def digest (input : DigestInput) (onError : String → ε) : Outcome ε String := do
  let canonical ← D.toVec input onError
  pure (sha256Digest canonical.sha256)

/-- A name made of a fixed prefix and the hexadecimal part of a digest, which is what the digest
is after its `sha256:`. -/
def identifier (pre : String) (input : DigestInput) (onError : String → ε) : Outcome ε String := do
  let canonical ← D.toVec input onError
  pure (pre ++ canonical.sha256.val)

variable {D}

theorem toVec_eq_ok {input : DigestInput} {onError : String → ε} {c : Canonical} :
    D.toVec input onError = .ok c ↔ D.canonicalize input = .ok c := by
  unfold toVec
  cases D.canonicalize input <;> simp

theorem digest_eq_ok {input : DigestInput} {onError : String → ε} {t : String} :
    D.digest input onError = .ok t ↔
      ∃ c, D.canonicalize input = .ok c ∧ sha256Digest c.sha256 = t := by
  simp only [digest, Outcome.bind_eq_ok, toVec_eq_ok, Outcome.pure_eq_ok]

theorem identifier_eq_ok {pre : String} {input : DigestInput} {onError : String → ε} {t : String} :
    D.identifier pre input onError = .ok t ↔
      ∃ c, D.canonicalize input = .ok c ∧ pre ++ c.sha256.val = t := by
  simp only [identifier, Outcome.bind_eq_ok, toVec_eq_ok, Outcome.pure_eq_ok]

theorem isSha256Digest_of_digest {input : DigestInput} {onError : String → ε} {t : String}
    (h : D.digest input onError = .ok t) : isSha256Digest t = true := by
  obtain ⟨c, _, rfl⟩ := digest_eq_ok.mp h
  exact isSha256Digest_sha256Digest c.sha256

end Digests

/-! ## Journal and authorization digests -/

inductive RecordError where
  | canonicalization (error : String)
  | digestMismatch (sequence : UInt64) (expected actual : String)
  | sequenceOverflow
  deriving DecidableEq

inductive AuthorizationDigestError where
  | canonicalization (error : String)
  deriving DecidableEq

section

variable (D : Digests)

def recordDigest (sequence : UInt64) (previousDigest : Option String) (event : RunEvent) :
    Outcome RecordError String :=
  D.digest (.record sequence previousDigest event) .canonicalization

/-- `EventRecord::next`. -/
def EventRecord.next (previous : Option EventRecord) (event : RunEvent) :
    Outcome RecordError EventRecord := do
  let sequence ← match previous with
    | none => pure 1
    | some record => Outcome.okOr (record.sequence.checkedAdd 1) .sequenceOverflow
  let previousDigest := previous.map EventRecord.digest
  let digest ← recordDigest D sequence previousDigest event
  pure { sequence := sequence, previousDigest := previousDigest, event := event, digest := digest }

/-- `EventRecord::verify_digest`. -/
def EventRecord.verifyDigest (self : EventRecord) : Outcome RecordError Unit := do
  let actual ← recordDigest D self.sequence self.previousDigest self.event
  Outcome.failIf (actual ≠ self.digest) (.digestMismatch self.sequence self.digest actual)

def receiptProvenanceDigest (provenance : ReceiptProvenance) :
    Outcome AuthorizationDigestError String :=
  D.digest (.receiptProvenance provenance) .canonicalization

/-- The stable budget identity of one semantic action within a run. -/
def onceAuthorizationId (runId actionDigest : String) : Outcome AuthorizationDigestError String :=
  D.identifier "authorization-" (.onceAuthorizationId runId actionDigest) .canonicalization

def authorizationDigest (binding : AuthorizationBinding) (maxUses : UInt32) :
    Outcome AuthorizationDigestError String :=
  D.digest (.authorization binding maxUses) .canonicalization

variable {D}

theorem EventRecord.next_some {previous record : EventRecord} {event : RunEvent}
    (h : EventRecord.next D (some previous) event = .ok record) :
    record.sequence.toNat = previous.sequence.toNat + 1 ∧
      record.previousDigest = some previous.digest ∧ record.event = event ∧
      recordDigest D record.sequence record.previousDigest record.event = .ok record.digest := by
  simp only [EventRecord.next, Outcome.bind_eq_ok, Outcome.okOr_eq_ok, UInt64.checkedAdd_eq_some,
    Option.map_some, Outcome.pure_eq_ok] at h
  obtain ⟨sequence, hsequence, digest, hdigest, rfl⟩ := h
  exact ⟨hsequence, rfl, rfl, hdigest⟩

theorem EventRecord.next_event {previous : Option EventRecord} {event : RunEvent}
    {record : EventRecord} (h : EventRecord.next D previous event = .ok record) :
    record.event = event := by
  cases previous with
  | none | some =>
    simp only [EventRecord.next, Outcome.bind_eq_ok, Outcome.pure_eq_ok] at h
    obtain ⟨_, _, _, _, rfl⟩ := h
    rfl

theorem EventRecord.verifyDigest_eq_ok {r : EventRecord} {u : Unit} :
    r.verifyDigest D = .ok u ↔ recordDigest D r.sequence r.previousDigest r.event = .ok r.digest := by
  simp only [EventRecord.verifyDigest, Outcome.bind_eq_ok, Outcome.failIf_eq_ok, ne_eq,
    Decidable.not_not, exists_eq_right]

end

end Xgeny
