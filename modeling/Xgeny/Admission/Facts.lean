import Xgeny.Routing
import Xgeny.SidecarChecks
import Xgeny.Store.Index

set_option autoImplicit false

/-!
# The facts of an invocation

Planning, admission and recovery all derive the same facts from the arguments of an invocation: the
normalized arguments, the permission request and three digests. The JSON schemas are compiled and
applied by a library, which is the parameter `Schemas` here.

* `AdmissionError`: what admission refuses, with the errors of the parts it calls;
* `validateArguments`: the size and the schema of the arguments;
* `prepareInvocationFacts`: the facts;
* `InvocationDiagnostic`: the fixed texts that may be shown of a refusal.
-/

namespace Xgeny

/-! ## Schemas -/

/-- What is read of an error of the schema library. -/
inductive ValidationErrorKind where
  | falseSchema
  | required (property : Json)
  | type
  | additionalProperties
  | minLength
  | pattern
  | oneOfNotValid
  | oneOfMultipleValid
  | other
  deriving DecidableEq

structure ValidationError where
  kind : ValidationErrorKind
  instancePath : String
  schemaPath : String
  deriving DecidableEq

/-- A compiled schema, given by the errors it finds, in order. -/
structure Validator where
  iterErrors : Json → List ValidationError

/-- A value without errors is valid. -/
def Validator.isValid (self : Validator) (value : Json) : Bool := (self.iterErrors value).isEmpty

/-- The schema library, as the program sets it up, and the bundled schema of a policy decision. -/
structure Schemas where
  /-- `jsonschema::options()` with draft 2020-12, offline and with formats, then `build`. -/
  build : Json → Option Validator
  /-- The bundled `policy-decision.schema.json`, applied to the serialized document. -/
  policyDecision : PolicyDecisionBody → Bool

/-- The platform that the program was built for: `std::env::consts`. -/
structure Host where
  os : String
  arch : String
  deriving DecidableEq

/-- `local_executor_platform`. -/
def Host.localExecutorPlatform (self : Host) : String := self.os ++ "-" ++ self.arch

/-- `LOCAL_EXECUTOR_ID`. -/
def localExecutorId : String := "xgeny-local"

/-! ## Errors -/

structure EventFactoryError where
  message : String
  deriving DecidableEq

/-- `AdmissionError`; the errors of a JSON or protocol operation are texts. -/
inductive AdmissionError where
  | store (error : StoreError)
  | eventFactory (error : EventFactoryError)
  | eventMetadata
  | resolution (error : InvocationResolutionError)
  | broker (error : BrokerError)
  | route (error : RouteInputError)
  | authorizationDigest (error : AuthorizationDigestError)
  | invocationMaterial (error : InvocationMaterialError)
  | planningContract (error : PlanningContractError)
  | protocol (error : String)
  | runNotInitialized
  | leaseRunMismatch (leaseRunId stateRunId : String)
  | stepNotFound (stepId : String)
  | stepNotPlanned (stepId : String) (actual : StepStatus)
  | stepDependencyUnknown (stepId dependencyId : String)
  | stepDependencyNotReleased (stepId dependencyId : String) (reason : DependencyBlockReason)
  | plannedInputMissing (stepId : String)
  | plannedInvocationMismatch (stepId field : String)
  | runHeadChanged
  | definitionNotFound (capabilityId contractVersion : String)
  | definitionChanged
  | unsupportedExecutionStyle
  | unplannedReadOnlyUnsupported
  | idempotencyKeyFeatureRequired
  | definitionDoesNotSupportIdempotencyKey
  | unsupportedEffectClass (effectClass : ProtocolEffectClass)
  | definitionInputSchemaInvalid
  | argumentsDoNotConform
  | argumentsTooLarge (actual maximum : ℕ)
  | canonicalization (error : String)
  | managedPolicyUnsupported
  | selectedInstanceMissing (instanceId : String)
  | unsupportedExecutorPlacement (placement : Placement)
  | selectedRouteWithoutPolicyAllow
  | nonOnceAuthorization
  | criticalAuthorizationUnsupported
  | policyAllowanceDetached
  | policyDecisionInvalid
  deriving DecidableEq

/-! ## Digests -/

/-- `content_id`: a prefix and the digest without its `sha256:`. -/
def contentId (pre digest : String) : String :=
  pre ++ "-" ++ (((digest.toList.dropPrefix? "sha256:".toList).map String.ofList).getD digest)

section

variable (D : Digests)

/-- `digest_serializable` of the admission code. -/
def digestSerializable (input : DigestInput) : Outcome AdmissionError String :=
  D.digest input .canonicalization

def definitionContractDigest (definition : CapabilityDefinitionBody) :
    Outcome AdmissionError String :=
  digestSerializable D (.definitionContract definition.metadata.id
    definition.metadata.contractVersion definition.spec definition.requiredExtensions)

def semanticActionDigest (capability : CapabilityRef) (definitionDigest : String)
    (effectClass : ProtocolEffectClass) (arguments : Json) (request : ResolvedPermissionRequest) :
    Outcome AdmissionError String :=
  digestSerializable D
    (.semanticAction capability definitionDigest effectClass arguments request.resources)

def executableBindingDigest (instance_ : CapabilityInstanceBody) : Outcome AdmissionError String :=
  digestSerializable D (.executableBinding instance_.instanceId instance_.definition
    instance_.source instance_.placement instance_.platform instance_.trust instance_.dataBoundary
    instance_.features instance_.binding instance_.auth.authRef instance_.requiredExtensions)

def plannedActionOccurrenceDigest (runId stepId semanticActionDigest : String) :
    Outcome AdmissionError String :=
  digestSerializable D (.plannedActionOccurrence runId stepId semanticActionDigest)

/-- The action digest of a step: a planned occurrence binds the run and the step, every other
invocation keeps its semantic identity. -/
def plannedActionDigest (state : RunState) (stepId semanticActionDigest : String) :
    Outcome AdmissionError String := do
  let step ← Outcome.okOr state.steps[stepId]? (.stepNotFound stepId)
  match step.plannedInvocation.map PlannedInvocationBinding.executionProfile with
  | some .localSyncOnceOccurrenceV1 | some .localSyncReadOnlyOccurrenceV1 =>
    plannedActionOccurrenceDigest D state.runId stepId semanticActionDigest
  | some .localSyncOnceV1 | some .localSyncReadOnlyV1 | none => pure semanticActionDigest

end

/-! ## Arguments -/

/-- `MAX_ARGUMENTS_SIZE_BYTES`. -/
def maxArgumentsSizeBytes : ℕ := 1024 * 1024

/-- `map_effect_class`. -/
def mapEffectClass : ProtocolEffectClass → Outcome AdmissionError EffectClass
  | .readOnly => pure .readOnly
  | .idempotent => pure .idempotent
  | .nonIdempotent => pure .nonIdempotent
  | .compensatable => Outcome.fail (.unsupportedEffectClass .compensatable)
  | .unknown => Outcome.fail (.unsupportedEffectClass .unknown)

section

variable (D : Digests) (J : Schemas)

def validateArgumentSize (arguments : Json) : Outcome AdmissionError Unit := do
  let canonical ← D.toVec (.toolOutput arguments) AdmissionError.canonicalization
  Outcome.failIf (canonical.size > maxArgumentsSizeBytes)
    (.argumentsTooLarge canonical.size maxArgumentsSizeBytes)

def validateArguments (definition : CapabilityDefinitionBody) (arguments : Json) :
    Outcome AdmissionError Unit := do
  validateArgumentSize D arguments
  let validator ← Outcome.okOr (J.build definition.spec.inputSchema) .definitionInputSchemaInvalid
  Outcome.failIf (validator.isValid arguments = false) .argumentsDoNotConform

/-! ## Facts -/

structure PreparedInvocationFacts where
  normalizedArguments : Json
  permissionRequest : ResolvedPermissionRequest
  definitionDigest : String
  semanticActionDigest : String
  materialDigest : String
  deriving DecidableEq

/-- Normalize and bind the facts of an invocation, without policy, routing or storage. -/
def prepareInvocationFacts (runId stepId : String) (capability : CapabilityRef) (arguments : Json)
    (registry : CapabilityRegistry) (resolver : ResourceResolver) :
    Outcome AdmissionError PreparedInvocationFacts := do
  let definition ← Outcome.okOr (registry.definition capability)
    (.definitionNotFound capability.capabilityId capability.contractVersion)
  let _ ← mapEffectClass definition.spec.effect.class_
  Outcome.failIf (definition.spec.effect.class_ ≠ .readOnly ∧
    definition.spec.execution.idempotencyKeySupported = false)
    .definitionDoesNotSupportIdempotencyKey
  validateArguments D J definition arguments
  let requestIdentity ← digestSerializable D (.requestIdentity runId stepId capability arguments)
  let requestId := contentId "permission" requestIdentity
  let derivedRequest ← (resolveInvocation resolver requestId runId stepId definition arguments
    .once).mapErr .resolution
  validateArguments D J definition derivedRequest.normalizedArguments
  let definitionDigest ← definitionContractDigest D definition
  let semanticActionDigest ← semanticActionDigest D capability definitionDigest
    definition.spec.effect.class_ derivedRequest.normalizedArguments
    derivedRequest.permissionRequest
  let materialDigest ← (invocationMaterialDigest D derivedRequest.normalizedArguments).mapErr
    .invocationMaterial
  pure
    { normalizedArguments := derivedRequest.normalizedArguments
      permissionRequest := derivedRequest.permissionRequest
      definitionDigest := definitionDigest
      semanticActionDigest := semanticActionDigest
      materialDigest := materialDigest }

end

/-! ## Diagnostics -/

structure InvocationDiagnostic where
  category : String
  field : String
  deriving DecidableEq

/-- The field names that may be shown. -/
def knownField (name : String) : String :=
  if name = "path" ∨ name = "content" ∨ name = "expectedDigest" then name else "other"

/-- The category and the field of the first schema error; nothing of the value is shown. -/
def schemaDiagnostic (J : Schemas) (schema arguments : Json) : Option InvocationDiagnostic := do
  let validator ← J.build schema
  let error ← (validator.iterErrors arguments).head?
  let field :=
    match error.instancePath with
    | "/path" => "path"
    | "/content" => "content"
    | "/expectedDigest" => "expectedDigest"
    | _ => "other"
  some <| match error.kind with
    | .falseSchema =>
      if "/additionalProperties".toList.isSuffixOf error.schemaPath.toList then
        ⟨"schema_additional_property", "other"⟩
      else ⟨"schema_other", field⟩
    | .required property =>
      ⟨"schema_required",
        if error.instancePath = "" then knownField (property.asStr.getD "") else "other"⟩
    | .type => ⟨"schema_type", field⟩
    | .additionalProperties => ⟨"schema_additional_property", "other"⟩
    | .minLength => ⟨"schema_min_length", field⟩
    | .pattern => ⟨"schema_pattern", field⟩
    | .oneOfNotValid | .oneOfMultipleValid => ⟨"schema_one_of", field⟩
    | .other => ⟨"schema_other", field⟩

def InvocationDiagnostic.fromAdmission (J : Schemas) (error : AdmissionError)
    (schema arguments : Json) : Option InvocationDiagnostic :=
  match error with
  | .argumentsDoNotConform => schemaDiagnostic J schema arguments
  | .resolution _ => some ⟨"resource_resolution", "other"⟩
  | _ => none

end Xgeny
