import Xgeny.Runtime.Operations

set_option autoImplicit false

/-!
# Verifier reports

What a trusted verifier may hand back: one observation for each rule, a digest of the output, and
descriptors of artifacts. Descriptors and reports check their own shape when they are built.

* `VerifiedArtifactDescriptor`, `VerificationReport`: with the shape that they were built with;
* **`VerifiedArtifactDescriptor.isValid`**: the shape is the one that receipts require.
-/

namespace Xgeny

/-- `VerifierOutputDigest`: a canonical SHA-256 digest. -/
abbrev VerifierOutputDigest := {value : String // isSha256Digest value = true}

structure RuleVerificationObservation where
  strategy : VerificationStrategy
  result : VerificationResult
  evidenceDigest : Option AdapterEvidenceDigest
  deriving DecidableEq

/-! ## Artifacts -/

inductive VerifiedArtifactDescriptorError where
  | invalidArtifactId
  | invalidName
  | invalidMediaType
  | artifactSizeExceeded
  | invalidDigest
  deriving DecidableEq

/-- `MAX_VERIFIED_ARTIFACTS`. -/
def maxVerifiedArtifacts : ℕ := coreReceiptMaxArtifactsV2

/-- `MAX_VERIFIED_ARTIFACT_SIZE_BYTES`. -/
def maxVerifiedArtifactSizeBytes : UInt64 := coreReceiptMaxArtifactSizeBytesV2

/-- `MAX_VERIFIED_ARTIFACT_TOTAL_BYTES`. -/
def maxVerifiedArtifactTotalBytes : UInt64 := coreReceiptMaxArtifactTotalBytesV2

def validArtifactIdentifier (value : String) : Bool :=
  value != "" && decide (byteLen value ≤ 200) && isArtifactIdentifier (bytes value)

/-- The checks of `VerifiedArtifactDescriptor::new`. -/
def checkArtifactDescriptor (artifactId : String) (name : Option String) (mediaType : String)
    (size : UInt64) (digest : String) : Outcome VerifiedArtifactDescriptorError Unit := do
  Outcome.failIf (validArtifactIdentifier artifactId = false) .invalidArtifactId
  Outcome.failIf (name.any (fun name => name == "" || decide (byteLen name > 512) ||
    name.toList.any isControl) = true) .invalidName
  Outcome.failIf (¬ (3 ≤ byteLen mediaType ∧ byteLen mediaType ≤ 200) ∨
    mediaType.toList.any isControl = true) .invalidMediaType
  Outcome.failIf (size > maxVerifiedArtifactSizeBytes) .artifactSizeExceeded
  Outcome.failIf (isSha256Digest digest = false) .invalidDigest

structure VerifiedArtifactDescriptor where
  artifactId : String
  name : Option String
  mediaType : String
  size : UInt64
  digest : String
  checked : checkArtifactDescriptor artifactId name mediaType size digest = .ok ()

/-- `VerifiedArtifactDescriptor::new`. -/
def VerifiedArtifactDescriptor.new (artifactId : String) (name : Option String) (mediaType : String)
    (size : UInt64) (digest : String) :
    Outcome VerifiedArtifactDescriptorError VerifiedArtifactDescriptor :=
  match h : checkArtifactDescriptor artifactId name mediaType size digest with
  | .ok () => .ok ⟨artifactId, name, mediaType, size, digest, h⟩
  | .error fault => .error fault

/-- **A descriptor has the shape that receipts require.** -/
theorem VerifiedArtifactDescriptor.isValid (self : VerifiedArtifactDescriptor) :
    coreArtifactDescriptorV2IsValid self.artifactId self.name self.mediaType self.size self.digest =
      true := by
  have hchecked := self.checked
  simp only [checkArtifactDescriptor, Outcome.bind_eq_ok, Outcome.exists_unit, Outcome.failIf_eq_ok,
    not_or, Decidable.not_not, Bool.not_eq_true, Bool.not_eq_false] at hchecked
  obtain ⟨hidentifier, hname, ⟨hmedia, hcontrol⟩, hsize, hdigest⟩ := hchecked
  have hvalidName : self.name.all (fun name =>
      name != "" && decide (byteLen name ≤ 512) && !name.toList.any isControl) = true := by
    cases hself : self.name with
    | none => rfl
    | some name => simpa [hself, and_assoc] using hname
  rw [validArtifactIdentifier] at hidentifier
  simp only [coreArtifactDescriptorV2IsValid, hidentifier, hvalidName, hdigest, hcontrol,
    decide_eq_true hmedia.1, decide_eq_true hmedia.2,
    decide_eq_true (UInt64.not_lt.mp hsize : self.size ≤ coreReceiptMaxArtifactSizeBytesV2),
    Bool.not_false, Bool.and_self]

/-! ## Reports -/

inductive VerificationReportError where
  | artifactCountExceeded
  | duplicateArtifactId
  | artifactTotalSizeExceeded
  deriving DecidableEq

/-- One iteration of `with_artifacts`, with the identifiers and the size seen so far. -/
def checkReportArtifact (seen : BTreeSet String × UInt64) (artifact : VerifiedArtifactDescriptor) :
    Outcome VerificationReportError (BTreeSet String × UInt64) := do
  Outcome.failIf (artifact.artifactId ∈ seen.1) .duplicateArtifactId
  let total ← Outcome.okOr (seen.2.checkedAdd artifact.size) .artifactTotalSizeExceeded
  Outcome.failIf (total > maxVerifiedArtifactTotalBytes) .artifactTotalSizeExceeded
  pure (seen.1.insert artifact.artifactId, total)

/-- The checks of `VerificationReport::with_artifacts`. -/
def checkReportArtifacts (artifacts : List VerifiedArtifactDescriptor) :
    Outcome VerificationReportError (BTreeSet String × UInt64) := do
  Outcome.failIf (artifacts.length > maxVerifiedArtifacts) .artifactCountExceeded
  Outcome.foldl checkReportArtifact (∅, 0) artifacts

structure VerificationReport where
  outputDigest : VerifierOutputDigest
  rules : List RuleVerificationObservation
  artifacts : List VerifiedArtifactDescriptor
  bounded : ∃ seen, checkReportArtifacts artifacts = .ok seen

namespace VerificationReport

/-- `VerificationReport::new`. -/
def new (outputDigest : VerifierOutputDigest) (rules : List RuleVerificationObservation) :
    VerificationReport where
  outputDigest := outputDigest
  rules := rules
  artifacts := []
  bounded := ⟨_, rfl⟩

def withArtifacts (self : VerificationReport) (artifacts : List VerifiedArtifactDescriptor) :
    Outcome VerificationReportError VerificationReport :=
  match h : checkReportArtifacts artifacts with
  | .ok seen => .ok ⟨self.outputDigest, self.rules, artifacts, seen, h⟩
  | .error fault => .error fault

end VerificationReport

end Xgeny
