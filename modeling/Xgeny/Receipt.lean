import Xgeny.Sidecar

set_option autoImplicit false

/-!
# Execution receipts

The protocol document that records one verified effect, with the fixed texts and bounds of the
two core receipt profiles. Receipts arrive from callers and from storage, so every field is free.

* `ExecutionReceiptBody`: the receipt;
* `coreReceiptIdV1`, `evaluateCoreVerificationV1`, `coreReceiptStatusV1`: what the core profile
  derives from an effect id and from the verification evidence;
* `coreArtifactDescriptorV2IsValid`: the shape of an artifact descriptor.
-/

namespace Xgeny

/-- `xgeny_domain::EffectClass`. -/
inductive ProtocolEffectClass where
  | readOnly
  | idempotent
  | compensatable
  | nonIdempotent
  | unknown
  deriving DecidableEq

inductive VerificationStrategy where
  | outputSchema
  | postcondition
  | artifactDigest
  | receipt
  | human
  deriving DecidableEq

inductive VerificationResult where
  | passed
  | failed
  | inconclusive
  deriving DecidableEq

inductive Placement where
  | localHost
  | device
  | remote
  deriving DecidableEq

inductive ReceiptStatus where
  | succeeded
  | failed
  | cancelled
  | blocked
  | unknown
  deriving DecidableEq

structure CapabilityRef where
  capabilityId : String
  contractVersion : String
  deriving DecidableEq

structure ArtifactProvenance where
  runId : String
  stepId : String
  receiptId : Option String
  deriving DecidableEq

abbrev Extensions := BTreeMap String Json

structure ArtifactRef where
  artifactId : String
  name : Option String
  mediaType : String
  size : UInt64
  digest : String
  provenance : Option ArtifactProvenance
  extensions : Extensions
  requiredExtensions : List String
  deriving DecidableEq

structure VerificationEvidence where
  strategy : VerificationStrategy
  required : Bool
  result : VerificationResult
  summary : String
  evidenceDigest : Option String
  artifact : Option ArtifactRef
  deriving DecidableEq

structure ReceiptPolicy where
  decisionId : String
  decisionDigest : String
  leaseId : Option String
  leaseDigest : Option String
  deriving DecidableEq

structure Executor where
  id : String
  placement : Placement
  platform : String
  deriving DecidableEq

structure ReceiptEffect where
  class_ : ProtocolEffectClass
  started : Bool
  startedAt : Option String
  idempotencyKey : Option String
  deriving DecidableEq

structure ExecutionReceiptBody where
  apiVersion : String
  extensions : Extensions
  requiredExtensions : List String
  receiptId : String
  runId : String
  stepId : String
  invocationId : String
  planId : String
  capability : CapabilityRef
  instanceId : String
  inputDigest : String
  inputSummary : String
  policy : ReceiptPolicy
  executor : Executor
  effect : ReceiptEffect
  status : ReceiptStatus
  startedAt : String
  endedAt : String
  outputDigest : String
  artifacts : List ArtifactRef
  verification : List VerificationEvidence
  redactionsApplied : List String
  previousReceiptDigest : Option String
  receiptDigest : String
  deriving DecidableEq

/-! ## The core receipt profiles -/

/-- `CORE_RECEIPT_PROFILE_V1`. -/
def coreReceiptProfileV1 : String := "xgeny.core-receipt/v1"

/-- `CORE_RECEIPT_PROFILE_V2`. -/
def coreReceiptProfileV2 : String := "xgeny.core-receipt/v2"

/-- `CORE_RECEIPT_MAX_ARTIFACTS_V2`. -/
def coreReceiptMaxArtifactsV2 : ℕ := 8

/-- `CORE_RECEIPT_MAX_ARTIFACT_SIZE_BYTES_V2`. -/
def coreReceiptMaxArtifactSizeBytesV2 : UInt64 := 1024 * 1024

/-- `CORE_RECEIPT_MAX_ARTIFACT_TOTAL_BYTES_V2`. -/
def coreReceiptMaxArtifactTotalBytesV2 : UInt64 := 4 * 1024 * 1024

/-- `CORE_RECEIPT_INPUT_SUMMARY_V1`. -/
def coreReceiptInputSummaryV1 : String := "Invocation input retained by digest only."

/-- `CORE_RECEIPT_REDACTIONS_V1`. -/
def coreReceiptRedactionsV1 : List String :=
  ["raw invocation arguments omitted", "raw tool output omitted"]

/-- The bytes of an artifact identifier; punctuation may not come first. -/
def isArtifactIdentifier (encoded : List UInt8) : Bool :=
  encoded.zipIdx.all fun (byte, index) =>
    isAsciiAlphanumeric byte ||
      (decide (index > 0) && (byte == 0x2e || byte == 0x5f || byte == 0x3a || byte == 0x2d))

def coreArtifactDescriptorV2IsValid (artifactId : String) (name : Option String)
    (mediaType : String) (size : UInt64) (digest : String) : Bool :=
  let identifierValid := artifactId != "" && decide (byteLen artifactId ≤ 200) &&
    isArtifactIdentifier (bytes artifactId)
  let nameValid := name.all fun name =>
    name != "" && decide (byteLen name ≤ 512) && !name.toList.any isControl
  let mediaTypeValid := decide (3 ≤ byteLen mediaType) && decide (byteLen mediaType ≤ 200) &&
    !mediaType.toList.any isControl
  identifierValid && nameValid && mediaTypeValid &&
    decide (size ≤ coreReceiptMaxArtifactSizeBytesV2) && isSha256Digest digest

/-- The part of an effect id after `effect-`, or the whole id. -/
def withoutEffectMark (effectId : String) : String :=
  ((effectId.toList.dropPrefix? "effect-".toList).map String.ofList).getD effectId

def coreReceiptIdV1 (effectId : String) : String := "receipt-" ++ withoutEffectMark effectId

def coreVerificationSummaryV1 : VerificationResult → String
  | .passed => "Core-selected verification rule passed."
  | .failed => "Core-selected verification rule failed."
  | .inconclusive => "Core-selected verification rule was inconclusive."

inductive ProtocolError where
  | json (asset source : String)
  | schema (message : String)
  | fixture (message : String)
  | canonicalization (error : String)
  | unsupportedRequiredExtension (extension : String)
  deriving DecidableEq

inductive CoreVerificationOutcome where
  | passed
  | failed
  | inconclusive
  deriving DecidableEq

def evaluateCoreVerificationV1 (evidence : List VerificationEvidence) : CoreVerificationOutcome :=
  let requiredFailed := evidence.any fun item => item.required && item.result == .failed
  let requiredInconclusive := evidence.any fun item => item.required && item.result == .inconclusive
  let anyPassed := evidence.any fun item => item.result == .passed
  if requiredFailed then .failed
  else if requiredInconclusive || !anyPassed then .inconclusive
  else .passed

def coreReceiptStatusV1 : CoreVerificationOutcome → ReceiptStatus
  | .passed => .succeeded
  | .failed => .failed
  | .inconclusive => .unknown

end Xgeny
