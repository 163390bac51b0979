import Xgeny.Digest

set_option autoImplicit false

/-!
# Planning contracts

The checks on budgets, model-call reservations, accepted decisions and planned invocations, with
the errors they return, and the recipe record that is committed beside an accepted plan.

* `requirePlanningIdentifier`, `requireModelCallIdentifier`, `requireModelCallId`,
  `requirePlanningDigest`: the shapes of names and digests;
* `validate` of budgets, decisions, specs and bindings, and `ModelCallReservation.validateFor`;
* **`validateFor_call_id`**: an accepted reservation carries the call id derived from its fields.
-/

namespace Xgeny

/-! ## Errors -/

inductive InvocationMaterialError where
  | unsupportedFormatVersion (version : UInt32)
  | emptyField (field : String)
  | invalidReferenceComponent (field : String)
  | bindingMismatch (field : String)
  | materialIdMismatch
  | recordDigestMismatch
  | canonicalization (error : String)
  deriving DecidableEq

def InvocationMaterialError.display : InvocationMaterialError → String
  | .unsupportedFormatVersion version =>
    "unsupported invocation material format version " ++ toString version
  | .emptyField field => "invocation material field `" ++ field ++ "` must not be empty"
  | .invalidReferenceComponent field =>
    "invocation material reference component `" ++ field ++ "` is invalid"
  | .bindingMismatch field => "invocation material binding differs at `" ++ field ++ "`"
  | .materialIdMismatch => "invocation material identifier does not match its binding"
  | .recordDigestMismatch => "invocation material record digest does not match its content"
  | .canonicalization error => "invocation material canonicalization failed: " ++ error

inductive PlanningContractError where
  | zeroBudget (field : String)
  | turnIndexZero
  | modelCallIndexZero
  | invalidIdentifier (field : String)
  | unsupportedTarget (field : String)
  | invalidDigest (field : String)
  | unsupportedFormatVersion (version : UInt32)
  | unsupportedModelCallFormatVersion (version : UInt32)
  | modelCallIdMismatch
  | specDigestMismatch
  | bindingMismatch (field : String)
  | planIdMismatch
  | recordDigestMismatch
  | canonicalization (error : String)
  | invocationMaterial (error : InvocationMaterialError)
  deriving DecidableEq

def PlanningContractError.display : PlanningContractError → String
  | .zeroBudget field => "planning budget `" ++ field ++ "` must be greater than zero"
  | .turnIndexZero => "planning turn index must be greater than zero"
  | .modelCallIndexZero => "model-call index must be greater than zero"
  | .invalidIdentifier field => "planning identifier `" ++ field ++ "` is invalid"
  | .unsupportedTarget field => "planned invocation target `" ++ field ++ "` is unsupported"
  | .invalidDigest field => "planning digest `" ++ field ++ "` must be a lowercase SHA-256 digest"
  | .unsupportedFormatVersion version =>
    "planned invocation format version " ++ toString version ++ " is unsupported"
  | .unsupportedModelCallFormatVersion version =>
    "model-call format version " ++ toString version ++ " is unsupported"
  | .modelCallIdMismatch => "model-call ID differs from its durable bindings"
  | .specDigestMismatch => "planned invocation spec digest differs from its fields"
  | .bindingMismatch field => "planned invocation material binding differs at `" ++ field ++ "`"
  | .planIdMismatch => "planned invocation plan ID differs from its binding"
  | .recordDigestMismatch => "planned invocation material record digest differs from its binding"
  | .canonicalization error => "planning canonicalization failed: " ++ error
  | .invocationMaterial error => error.display

/-! ## Shapes -/

/-- The bytes of a bounded identifier: letters, digits, `.`, `_` and `-`. -/
def isIdentifierByte (b : UInt8) : Bool :=
  isAsciiAlphanumeric b || b == 0x2e || b == 0x5f || b == 0x2d

def requirePlanningIdentifier (field value : String) : Outcome PlanningContractError Unit :=
  Outcome.failIf (value = "" ∨ byteLen value > 256 ∨ value.toList.any isControl = true)
    (.invalidIdentifier field)

def requireModelCallIdentifier (field value : String) : Outcome PlanningContractError Unit :=
  Outcome.failIf (value = "" ∨ byteLen value > 256 ∨ ¬ (bytes value).all isIdentifierByte = true)
    (.invalidIdentifier field)

def requireModelCallId (field value : String) : Outcome PlanningContractError Unit := do
  requireModelCallIdentifier field value
  let encoded ← Outcome.okOr (stripPrefix "model-call-" value) (.invalidIdentifier field)
  Outcome.failIf (¬ isHex64 encoded = true) (.invalidIdentifier field)

def requirePlanningDigest (field value : String) : Outcome PlanningContractError Unit :=
  Outcome.failIf (¬ isSha256Digest value = true) (.invalidDigest field)

/-- `validate_reference_component`. -/
def validateReferenceComponent (field value : String) : Outcome InvocationMaterialError Unit := do
  Outcome.failIf (value = "") (.invalidReferenceComponent field)
  Outcome.failIf (value = "." ∨ value = ".." ∨ byteLen value > 128 ∨
    ¬ (bytes value).all isIdentifierByte = true) (.invalidReferenceComponent field)

def ReconstructableMaterialReference.validate (self : ReconstructableMaterialReference) :
    Outcome InvocationMaterialError Unit := do
  validateReferenceComponent "provider_id" self.providerId
  validateReferenceComponent "reference_id" self.referenceId
  validateReferenceComponent "revision" self.revision

/-! ## Budgets, reservations and decisions -/

/-- `PLANNED_INVOCATION_FORMAT_VERSION`. -/
def plannedInvocationFormatVersion : UInt32 := 1

/-- `MODEL_CALL_FORMAT_VERSION`. -/
def modelCallFormatVersion : UInt32 := 1

/-- `MAX_ACCEPTED_PLAN_STEPS`. -/
def maxAcceptedPlanSteps : ℕ := 32

/-- `MAX_ACCEPTED_PLAN_EDGES`. -/
def maxAcceptedPlanEdges : ℕ := 128

/-- `MAX_ACCEPTED_OBJECTIVE_BYTES`. -/
def maxAcceptedObjectiveBytes : ℕ := 5000

def ModelCallBudget.validate (self : ModelCallBudget) : Outcome PlanningContractError Unit :=
  Outcome.failIf (self.maxModelCalls = 0) (.zeroBudget "max_model_calls")

def AgentLoopBudget.validate (self : AgentLoopBudget) : Outcome PlanningContractError Unit :=
  Outcome.forEach
    [("max_model_turns", self.maxModelTurns.toUInt64),
      ("max_planned_steps", self.maxPlannedSteps.toUInt64),
      ("max_tool_calls", self.maxToolCalls.toUInt64),
      ("max_context_bytes", self.maxContextBytes)]
    fun (field, value) => Outcome.failIf (value = 0) (.zeroBudget field)

section

variable (D : Digests)

/-- `model_call_id`. -/
def modelCallId (runId : String) (authorityEpoch : UInt64) (plannerId : String)
    (callIndex turnIndex : UInt32) (baseSequence : UInt64)
    (baseHeadDigest contextDigest requestDigest : String) : Outcome PlanningContractError String :=
  D.identifier "model-call-"
    (.modelCallId modelCallFormatVersion runId authorityEpoch plannerId callIndex turnIndex
      baseSequence baseHeadDigest contextDigest requestDigest)
    .canonicalization

def ModelCallReservation.validateFor (self : ModelCallReservation) (runId : String)
    (authorityEpoch : UInt64) : Outcome PlanningContractError Unit := do
  Outcome.failIf (self.formatVersion ≠ modelCallFormatVersion)
    (.unsupportedModelCallFormatVersion self.formatVersion)
  requirePlanningIdentifier "run_id" runId
  requireModelCallId "call_id" self.callId
  requireModelCallIdentifier "planner_id" self.plannerId
  Outcome.failIf (self.callIndex = 0) .modelCallIndexZero
  Outcome.failIf (self.turnIndex = 0) .turnIndexZero
  requirePlanningDigest "base_head_digest" self.baseHeadDigest
  requirePlanningDigest "context_digest" self.contextDigest
  requirePlanningDigest "request_digest" self.requestDigest
  let expected ← modelCallId D runId authorityEpoch self.plannerId self.callIndex self.turnIndex
    self.baseSequence self.baseHeadDigest self.contextDigest self.requestDigest
  Outcome.failIf (self.callId ≠ expected) .modelCallIdMismatch

variable {D} in
/-- **An accepted reservation carries the call id derived from its fields.** -/
theorem ModelCallReservation.validateFor_call_id {self : ModelCallReservation} {runId : String}
    {authorityEpoch : UInt64} {u : Unit} (h : self.validateFor D runId authorityEpoch = .ok u) :
    modelCallId D runId authorityEpoch self.plannerId self.callIndex self.turnIndex
      self.baseSequence self.baseHeadDigest self.contextDigest self.requestDigest
        = .ok self.callId := by
  simp only [ModelCallReservation.validateFor, Outcome.bind_eq_ok, Outcome.exists_unit,
    Outcome.failIf_eq_ok, ne_eq, Decidable.not_not] at h
  obtain ⟨-, -, -, -, -, -, -, -, -, expected, hid, rfl⟩ := h
  exact hid

/-- `ModelCallReservation::new`. -/
def ModelCallReservation.new (runId : String) (authorityEpoch : UInt64) (plannerId : String)
    (callIndex turnIndex : UInt32) (baseSequence : UInt64)
    (baseHeadDigest contextDigest requestDigest : String) :
    Outcome PlanningContractError ModelCallReservation := do
  requirePlanningIdentifier "run_id" runId
  requireModelCallIdentifier "planner_id" plannerId
  Outcome.failIf (callIndex = 0) .modelCallIndexZero
  Outcome.failIf (turnIndex = 0) .turnIndexZero
  requirePlanningDigest "base_head_digest" baseHeadDigest
  requirePlanningDigest "context_digest" contextDigest
  requirePlanningDigest "request_digest" requestDigest
  let callId ← modelCallId D runId authorityEpoch plannerId callIndex turnIndex baseSequence
    baseHeadDigest contextDigest requestDigest
  pure
    { formatVersion := modelCallFormatVersion
      callId := callId
      plannerId := plannerId
      callIndex := callIndex
      turnIndex := turnIndex
      baseSequence := baseSequence
      baseHeadDigest := baseHeadDigest
      contextDigest := contextDigest
      requestDigest := requestDigest }

end

def ExpectedPlanningTurn.validate (self : ExpectedPlanningTurn) :
    Outcome PlanningContractError Unit := do
  Outcome.failIf (self.turnIndex = 0) .turnIndexZero
  Outcome.whenSome self.modelCallId (requireModelCallId "model_call_id")
  requirePlanningDigest "context_digest" self.contextDigest
  requirePlanningDigest "proposal_digest" self.proposalDigest

/-! ## Planned invocations -/

def PlannedInvocationSpec.validate (self : PlannedInvocationSpec) :
    Outcome PlanningContractError Unit := do
  requirePlanningIdentifier "capability_id" self.capabilityId
  requirePlanningIdentifier "contract_version" self.contractVersion
  requirePlanningIdentifier "target_os" self.targetOs
  requirePlanningIdentifier "target_arch" self.targetArch
  Outcome.failIf (¬ (self.targetOs = "linux" ∨ self.targetOs = "macos" ∨ self.targetOs = "windows"))
    (.unsupportedTarget "target_os")
  Outcome.failIf (¬ (self.targetArch = "x86_64" ∨ self.targetArch = "aarch64"))
    (.unsupportedTarget "target_arch")
  requirePlanningDigest "definition_digest" self.definitionDigest
  requirePlanningDigest "action_digest" self.actionDigest
  requirePlanningDigest "plan_input_digest" self.planInputDigest

/-- `PlannedInvocationSpec::new`: the fields, once they pass `validate`. -/
def PlannedInvocationSpec.new (self : PlannedInvocationSpec) :
    Outcome PlanningContractError PlannedInvocationSpec := do
  self.validate
  pure self

def PlannedInvocationBinding.asSpec (self : PlannedInvocationBinding) : PlannedInvocationSpec where
  capabilityId := self.capabilityId
  contractVersion := self.contractVersion
  definitionDigest := self.definitionDigest
  actionDigest := self.actionDigest
  planInputDigest := self.planInputDigest
  executionProfile := self.executionProfile
  targetOs := self.targetOs
  targetArch := self.targetArch

section

variable (D : Digests)

def plannedInvocationSpecDigest (spec : PlannedInvocationSpec) :
    Outcome PlanningContractError String :=
  D.digest (.plannedInvocationSpec spec) .canonicalization

def plannedInvocationId (runId stepId proposalDigest specDigest : String) :
    Outcome PlanningContractError String :=
  D.identifier "plan-" (.plannedInvocationId runId stepId proposalDigest specDigest) .canonicalization

def plannedInvocationMaterialRecordDigest (record : PlannedInvocationMaterialRecord) :
    Outcome PlanningContractError String :=
  D.digest (.plannedInvocationMaterialRecord record.formatVersion record.runId record.stepId
    record.planId record.proposalDigest record.specDigest record.reference) .canonicalization

def PlannedInvocationBinding.validate (self : PlannedInvocationBinding) :
    Outcome PlanningContractError Unit := do
  Outcome.failIf (self.formatVersion ≠ plannedInvocationFormatVersion)
    (.unsupportedFormatVersion self.formatVersion)
  requirePlanningIdentifier "plan_id" self.planId
  requirePlanningDigest "proposal_digest" self.proposalDigest
  requirePlanningDigest "spec_digest" self.specDigest
  requirePlanningDigest "plan_input_record_digest" self.planInputRecordDigest
  self.asSpec.validate
  let expected ← plannedInvocationSpecDigest D self.asSpec
  Outcome.failIf (expected ≠ self.specDigest) .specDigestMismatch

/-- `PlannedInvocationMaterialRecord::verify_for`. -/
def PlannedInvocationMaterialRecord.verifyFor (self : PlannedInvocationMaterialRecord)
    (runId stepId : String) (binding : PlannedInvocationBinding) :
    Outcome PlanningContractError Unit := do
  Outcome.failIf (self.formatVersion ≠ plannedInvocationFormatVersion)
    (.unsupportedFormatVersion self.formatVersion)
  binding.validate D
  self.reference.validate.mapErr .invocationMaterial
  Outcome.failIf (self.runId ≠ runId) (.bindingMismatch "run_id")
  Outcome.failIf (self.stepId ≠ stepId) (.bindingMismatch "step_id")
  Outcome.failIf (self.planId ≠ binding.planId) (.bindingMismatch "plan_id")
  Outcome.failIf (self.proposalDigest ≠ binding.proposalDigest) (.bindingMismatch "proposal_digest")
  Outcome.failIf (self.specDigest ≠ binding.specDigest) (.bindingMismatch "spec_digest")
  let expectedPlanId ← plannedInvocationId D runId stepId self.proposalDigest self.specDigest
  Outcome.failIf (expectedPlanId ≠ self.planId) .planIdMismatch
  let expectedRecordDigest ← plannedInvocationMaterialRecordDigest D self
  Outcome.failIf (expectedRecordDigest ≠ self.recordDigest ∨
    self.recordDigest ≠ binding.planInputRecordDigest) .recordDigestMismatch

/-- `PlannedInvocationMaterialRecord::bind`: the recipe with the binding that names it. -/
def PlannedInvocationMaterialRecord.bind (runId stepId proposalDigest : String)
    (spec : PlannedInvocationSpec) (reference : ReconstructableMaterialReference) :
    Outcome PlanningContractError
      (PlannedInvocationBinding × PlannedInvocationMaterialRecord) := do
  requirePlanningIdentifier "run_id" runId
  requirePlanningIdentifier "step_id" stepId
  requirePlanningDigest "proposal_digest" proposalDigest
  spec.validate
  reference.validate.mapErr .invocationMaterial
  let specDigest ← plannedInvocationSpecDigest D spec
  let planId ← plannedInvocationId D runId stepId proposalDigest specDigest
  let record : PlannedInvocationMaterialRecord :=
    { formatVersion := plannedInvocationFormatVersion
      runId := runId
      stepId := stepId
      planId := planId
      proposalDigest := proposalDigest
      specDigest := specDigest
      reference := reference
      recordDigest := "" }
  let recordDigest ← plannedInvocationMaterialRecordDigest D record
  let record := { record with recordDigest := recordDigest }
  let binding : PlannedInvocationBinding :=
    { formatVersion := plannedInvocationFormatVersion
      planId := planId
      proposalDigest := proposalDigest
      capabilityId := spec.capabilityId
      contractVersion := spec.contractVersion
      definitionDigest := spec.definitionDigest
      actionDigest := spec.actionDigest
      planInputDigest := spec.planInputDigest
      executionProfile := spec.executionProfile
      targetOs := spec.targetOs
      targetArch := spec.targetArch
      specDigest := specDigest
      planInputRecordDigest := recordDigest }
  record.verifyFor D runId stepId binding
  pure (binding, record)

variable {D} in
theorem PlannedInvocationMaterialRecord.verifyFor_fields {self : PlannedInvocationMaterialRecord}
    {runId stepId : String} {binding : PlannedInvocationBinding} {u : Unit}
    (h : self.verifyFor D runId stepId binding = .ok u) :
    self.runId = runId ∧ self.stepId = stepId ∧ self.planId = binding.planId ∧
      self.recordDigest = binding.planInputRecordDigest := by
  simp only [PlannedInvocationMaterialRecord.verifyFor, Outcome.bind_eq_ok,
    Outcome.exists_unit, Outcome.failIf_eq_ok, ne_eq, not_or, Decidable.not_not] at h
  obtain ⟨-, -, -, hrun, hstep, hplan, -, -, _, -, -, _, -, -, hrecord⟩ := h
  exact ⟨hrun, hstep, hplan, hrecord⟩

end

end Xgeny
