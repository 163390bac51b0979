import Xgeny.Store.Index

set_option autoImplicit false

/-!
# Receipt checks

What a receipt must satisfy to be committed: the protocol document is valid, it repeats the durable
provenance of its intent, its verification evidence justifies the disposition of its event, and its
times are those of the journal. The JSON schema validator and the timestamp parser are not part of
the program; they are the parameter `Protocol`.

* `validateExecutionReceipt`: schema, required extensions and the derived digest;
* `verifyReceiptIntentBinding`, `verifyCoreReceiptArtifacts`: the receipt against its intent;
* `verifyReceiptToolOutputBinding`, `verifyReceiptTimestamps`: the receipt against the index.
-/

namespace Xgeny

/-- The parts of receipt validation that the program delegates. -/
structure Protocol where
  /-- The bundled schema, applied to the serialized document of a receipt. -/
  schema : ExecutionReceiptBody → Except ProtocolError Unit
  /-- `OffsetDateTime::parse` with `Rfc3339`, as an instant. -/
  rfc3339 : String → Option ℤ

/-- `ensure_required_extensions_supported` with no supported extension. -/
def ensureRequiredExtensionsSupported (required : List String) : Outcome ProtocolError Unit :=
  match required with
  | [] => pure ()
  | extension :: _ => Outcome.fail (.unsupportedRequiredExtension extension)

section

variable (D : Digests) (P : Protocol)

/-- `verify_derived_digest` at `receiptDigest`. -/
def verifyReceiptDigest (name : String) (receipt : ExecutionReceiptBody) :
    Outcome ProtocolError Unit := do
  let actual ← D.digest (.executionReceipt { receipt with receiptDigest := "" }) .canonicalization
  Outcome.failIf (actual ≠ receipt.receiptDigest)
    (.fixture ("`" ++ name ++ "` has `receiptDigest` `" ++ receipt.receiptDigest ++
      "`, recomputed value is `" ++ actual ++ "`"))

def validateExecutionReceipt (receipt : ExecutionReceiptBody) : Outcome ProtocolError Unit := do
  match P.schema receipt with
  | .ok () => pure ()
  | .error error => Outcome.fail error
  ensureRequiredExtensionsSupported receipt.requiredExtensions
  verifyReceiptDigest D "runtime ExecutionReceipt" receipt

end

/-! ## The receipt and its intent -/

def protocolEffectClass : EffectClass → ProtocolEffectClass
  | .readOnly => .readOnly
  | .reversible => .compensatable
  | .idempotent => .idempotent
  | .nonIdempotent => .nonIdempotent

def protocolPlacement : ReceiptPlacement → Placement
  | .localHost => .localHost
  | .device => .device
  | .remote => .remote

def protocolVerificationStrategy : ReceiptVerificationStrategy → VerificationStrategy
  | .outputSchema => .outputSchema
  | .postcondition => .postcondition
  | .artifactDigest => .artifactDigest
  | .receipt => .receipt
  | .human => .human

/-- One iteration over the artifacts, with the identifiers and the size seen so far. -/
def verifyCoreReceiptArtifact (receipt : ExecutionReceiptBody) (seen : BTreeSet String × UInt64)
    (artifact : ArtifactRef) : Outcome StoreError (BTreeSet String × UInt64) := do
  let expectedProvenance := artifact.provenance.any fun provenance =>
    provenance.runId == receipt.runId && provenance.stepId == receipt.stepId &&
      decide (provenance.receiptId = some receipt.receiptId)
  let totalSize ← Outcome.okOr (seen.2.checkedAdd artifact.size)
    (.corrupt "core Receipt artifact size overflows")
  Outcome.failIf
    (¬ coreArtifactDescriptorV2IsValid artifact.artifactId artifact.name artifact.mediaType
        artifact.size artifact.digest = true ∨
      totalSize > coreReceiptMaxArtifactTotalBytesV2 ∨ artifact.artifactId ∈ seen.1 ∨
      ¬ expectedProvenance = true ∨ ¬ artifact.extensions.isEmpty = true ∨
      artifact.requiredExtensions ≠ [])
    (.corrupt "core Receipt artifact binding differs")
  pure (seen.1.insert artifact.artifactId, totalSize)

def verifyCoreReceiptArtifacts (receipt : ExecutionReceiptBody) (intent : EffectIntent)
    (provenance : ReceiptProvenance) : Outcome StoreError Unit :=
  if provenance.profileVersion = coreReceiptProfileV1 then
    Outcome.failIf (intent.effectClass = .readOnly ∨ receipt.artifacts ≠ [])
      (.corrupt "core Receipt v1 artifact semantics differ")
  else if provenance.profileVersion = coreReceiptProfileV2 then do
    Outcome.failIf
      (¬ (intent.effectClass = .readOnly ∨ intent.effectClass = .idempotent ∨
          intent.effectClass = .nonIdempotent) ∨
        receipt.artifacts = [] ∨ receipt.artifacts.length > coreReceiptMaxArtifactsV2)
      (.corrupt "core Receipt v2 artifact semantics differ")
    let _ ← Outcome.foldl (verifyCoreReceiptArtifact receipt) (∅, 0) receipt.artifacts
    pure ()
  else Outcome.fail .unsupportedReceiptProfile

def hasCoreRedactions (receipt : ExecutionReceiptBody) : Bool :=
  receipt.redactionsApplied == coreReceiptRedactionsV1

/-- The disposition that a verification outcome justifies. -/
def CoreVerificationOutcome.disposition : CoreVerificationOutcome → VerificationDisposition
  | .passed => .passed
  | .failed => .failed
  | .inconclusive => .inconclusive

def verifyReceiptIntentBinding (receipt : ExecutionReceiptBody) (intent : EffectIntent)
    (provenance : ReceiptProvenance) (disposition : VerificationDisposition) :
    Outcome StoreError Unit := do
  verifyCoreReceiptArtifacts receipt intent provenance
  Outcome.failIf
    (receipt.receiptId ≠ coreReceiptIdV1 intent.effectId ∨
      ¬ receipt.extensions.isEmpty = true ∨ receipt.requiredExtensions ≠ [] ∨
      ¬ hasCoreRedactions receipt = true ∨
      provenance.inputSummary ≠ coreReceiptInputSummaryV1 ∨
      receipt.invocationId ≠ provenance.invocationId ∨ receipt.planId ≠ provenance.planId ∨
      receipt.capability.capabilityId ≠ intent.invocation.capabilityId ∨
      receipt.capability.contractVersion ≠ intent.invocation.contractVersion ∨
      receipt.instanceId ≠ intent.invocation.instanceId ∨
      receipt.inputDigest ≠ intent.authorization.binding.materialDigest ∨
      receipt.inputSummary ≠ provenance.inputSummary ∨
      receipt.policy.decisionId ≠ provenance.policyDecisionId ∨
      receipt.policy.decisionDigest ≠ provenance.policyDecisionDigest ∨
      receipt.policy.leaseId ≠ none ∨ receipt.policy.leaseDigest ≠ none ∨
      receipt.executor.id ≠ provenance.executorId ∨
      receipt.executor.placement ≠ protocolPlacement provenance.executorPlacement ∨
      receipt.executor.platform ≠ provenance.executorPlatform ∨
      receipt.effect.class_ ≠ protocolEffectClass intent.effectClass ∨
      receipt.effect.idempotencyKey ≠ intent.idempotencyKey ∨ ¬ receipt.effect.started = true)
    (.corrupt "execution receipt differs from its durable intent provenance")
  Outcome.failIf (receipt.verification.length ≠ provenance.verificationPlan.length)
    (.corrupt "execution receipt verification disposition differs")
  Outcome.forEach (receipt.verification.zip provenance.verificationPlan) fun (evidence, rule) =>
    Outcome.failIf
      (evidence.strategy ≠ protocolVerificationStrategy rule.strategy ∨
        evidence.required ≠ rule.required ∨
        evidence.summary ≠ coreVerificationSummaryV1 evidence.result ∨ evidence.artifact ≠ none ∨
        (evidence.result = .passed ∧ evidence.evidenceDigest = none))
      (.corrupt "execution receipt verification plan differs")
  let outcome := evaluateCoreVerificationV1 receipt.verification
  Outcome.failIf
    (disposition ≠ outcome.disposition ∨ receipt.status ≠ coreReceiptStatusV1 outcome)
    (.corrupt "execution receipt result does not justify its disposition")

/-! ## The receipt and the index -/

/-- The output digest of a receipt is that of the durable output, when the profile asks for one. -/
def verifyReceiptToolOutputBinding (index : VerifiedRunIndex) (effectId : String)
    (receipt : ExecutionReceiptBody) : Outcome StoreError Unit := do
  let anchor ← Outcome.okOr index.intents[effectId]? (.corrupt "Receipt has no effect intent")
  let profile := anchor.intent.toolOutputProfile
  match profile, index.toolOutputDigests[effectId]? with
  | some version, some outputDigest =>
    if version = toolOutputProfileV1 then
      Outcome.failIf (receipt.outputDigest ≠ outputDigest)
        (.corrupt "Receipt output digest differs from the durable tool output")
    else Outcome.fail (.corrupt "tool-output profile and durable output differ")
  | some version, none =>
    if version = toolOutputProfileV1 then
      Outcome.fail (.corrupt "Receipt output digest differs from the durable tool output")
    else Outcome.fail (.corrupt "tool-output profile and durable output differ")
  | none, none => pure ()
  | none, some _ => Outcome.fail (.corrupt "tool-output profile and durable output differ")

def verifyReceiptTimestamps (P : Protocol) (anchor : ReceiptEventAnchor)
    (receipt : ExecutionReceiptBody) : Outcome StoreError Unit := do
  Outcome.failIf
    (receipt.startedAt ≠ anchor.startedAt ∨ receipt.effect.startedAt ≠ some anchor.startedAt ∨
      receipt.endedAt ≠ anchor.endedAt)
    (.corrupt "execution receipt timestamps differ from the journal")
  let started ← Outcome.okOr (P.rfc3339 anchor.startedAt)
    (.corrupt "execution receipt start timestamp is invalid")
  let ended ← Outcome.okOr (P.rfc3339 receipt.endedAt)
    (.corrupt "execution receipt end timestamp is invalid")
  Outcome.failIf (ended < started) (.corrupt "execution receipt ends before its effect starts")

end Xgeny
