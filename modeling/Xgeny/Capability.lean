import Xgeny.Receipt
import Xgeny.Lib.KeyedMap

set_option autoImplicit false

/-!
# Capabilities

The immutable contracts that a model may propose to use and the executable instances bound to them,
with the registry that keeps both. Documents enter the registry after they have passed the protocol
schema; the registry checks what a schema cannot express.

* `CapabilityDefinitionBody`, `CapabilityInstanceBody`: the two documents;
* `CapabilityRegistry`: definitions by capability and contract version, instances by their id;
* **`CapabilityRegistry.WellFormed`**: what holds of every registry that was filled through
  `registerSchemaValidatedDefinition` and `registerSchemaValidatedInstance`.
-/

namespace Xgeny

/-! ## Definitions -/

/-- `API_VERSION_V1ALPHA1`. -/
def apiVersionV1alpha1 : String := "xgeny.io/v1alpha1"

/-- Actions that always need an approval. -/
inductive CriticalAction where
  | irreversibleDelete
  | credentialExport
  | paymentOrPurchase
  | externalPublishOrMessage
  | productionDeploy
  | privilegeEscalation
  | persistentStartup
  deriving DecidableEq

/-- How long a grant lasts. -/
inductive GrantLifetime where
  | once
  | run
  | session
  | project
  | persistent
  deriving DecidableEq

/-- How a capability answers. -/
inductive ExecutionStyle where
  | sync
  | task
  deriving DecidableEq

/-- The identity of a definition. -/
structure CapabilityMetadata where
  id : String
  contractVersion : String
  displayName : String
  labels : BTreeMap String String
  deriving DecidableEq

/-- Where a resource stands in the arguments, and its scope. -/
structure ResourceSelector where
  scope : String
  argumentPointer : String
  deriving DecidableEq

/-- What an invocation touches. -/
structure CapabilityEffect where
  class_ : ProtocolEffectClass
  resourceSelectors : List ResourceSelector
  criticalActions : List CriticalAction
  deriving DecidableEq

/-- How an invocation runs. -/
structure CapabilityExecution where
  styles : List ExecutionStyle
  cancellable : Bool
  idempotencyKeySupported : Bool
  durableToolOutput : Bool
  defaultTimeoutMs : UInt64
  maxTimeoutMs : UInt64
  deriving DecidableEq

/-- One rule by which an outcome is verified. -/
structure VerificationRule where
  strategy : VerificationStrategy
  required : Bool
  description : Option String
  deriving DecidableEq

/-- Texts for the search of capabilities. -/
structure CapabilityDiscovery where
  keywords : List String
  examples : List String
  detailsRef : Option String
  deriving DecidableEq

/-- The contract of a capability. -/
structure CapabilitySpec where
  summary : String
  inputSchema : Json
  outputSchema : Json
  effect : CapabilityEffect
  requiredCapabilities : List CapabilityRef
  execution : CapabilityExecution
  verification : List VerificationRule
  discovery : Option CapabilityDiscovery
  deriving DecidableEq

/-- The document of a definition. -/
structure CapabilityDefinitionBody where
  apiVersion : String
  extensions : Extensions
  requiredExtensions : List String
  metadata : CapabilityMetadata
  spec : CapabilitySpec
  deriving DecidableEq

/-- The name under which a definition is registered. -/
def CapabilityDefinitionBody.reference (self : CapabilityDefinitionBody) : CapabilityRef where
  capabilityId := self.metadata.id
  contractVersion := self.metadata.contractVersion

/-! ## Instances -/

/-- Where an instance comes from. -/
inductive CapabilitySource where
  | builtin
  | localCli
  | mcp
  | connector
  | xgen
  deriving DecidableEq

inductive OperatingSystem where
  | linux
  | macos
  | windows
  | any
  deriving DecidableEq

inductive Architecture where
  | x86_64
  | aarch64
  | any
  deriving DecidableEq

/-- A platform that an instance runs on. -/
structure Platform where
  os : OperatingSystem
  arch : Architecture
  deriving DecidableEq

/-- How far an instance is trusted. -/
inductive TrustLevel where
  | untrusted
  | configured
  | verified
  | managed
  deriving DecidableEq

/-- Where the data of an invocation may go. -/
inductive DataBoundary where
  | localHost
  | device
  | organization
  | external
  deriving DecidableEq

/-- The health of an instance. -/
inductive HealthStatus where
  | available
  | degraded
  | unavailable
  | unknown
  deriving DecidableEq

/-- The health of an instance with the time of the check. -/
structure Health where
  status : HealthStatus
  observedAt : String
  reason : Option String
  deriving DecidableEq

/-- The state of the credentials of an instance. -/
inductive AuthState where
  | notRequired
  | available
  | required
  | expired
  deriving DecidableEq

/-- The credentials of an instance. -/
structure Auth where
  state : AuthState
  authRef : Option String
  deriving DecidableEq

/-- What an instance supports of its contract. -/
structure InstanceFeatures where
  sync : Bool
  task : Bool
  cancellable : Bool
  idempotencyQuery : Bool
  deriving DecidableEq

/-- The two `f64` hints are rational numbers here; a document holds neither an infinity nor a
`NaN`. -/
structure InstanceHints where
  latencyMs : Option UInt64
  monetaryCost : Option ℚ
  reliability : Option ℚ
  deriving DecidableEq

/-- The adapter that an instance is bound to. -/
structure InstanceBinding where
  bindingRef : String
  operationRef : Option String
  protocolVersion : Option String
  deriving DecidableEq

/-- The document of an instance. -/
structure CapabilityInstanceBody where
  apiVersion : String
  extensions : Extensions
  requiredExtensions : List String
  instanceId : String
  definition : CapabilityRef
  source : CapabilitySource
  placement : Placement
  platform : Platform
  trust : TrustLevel
  dataBoundary : DataBoundary
  health : Health
  auth : Auth
  features : InstanceFeatures
  hints : Option InstanceHints
  binding : InstanceBinding
  deriving DecidableEq

/-! ## The registry -/

/-- `DefinitionKey`: capabilities are ordered by id, then by contract version. -/
abbrev DefinitionKey := String ×ₗ String

/-- The key of a definition in the registry. -/
def CapabilityRef.key (self : CapabilityRef) : DefinitionKey :=
  toLex (self.capabilityId, self.contractVersion)

theorem CapabilityRef.key_injective : Function.Injective CapabilityRef.key := by
  rintro ⟨a, b⟩ ⟨c, d⟩ h
  simpa [CapabilityRef.key] using h

/-- Definitions by key and instances by id, both iterated in key order. -/
structure CapabilityRegistry where
  definitions : BTreeMap DefinitionKey CapabilityDefinitionBody
  instances : BTreeMap String CapabilityInstanceBody

/-- Why a document is not registered. -/
inductive RegistryError where
  | unsupportedDefinitionApiVersion (capabilityId actual : String)
  | unsupportedInstanceApiVersion (instanceId actual : String)
  | invalidTimeoutRange (capabilityId : String) (defaultTimeoutMs maxTimeoutMs : UInt64)
  | unsupportedDurableToolOutputEffect (capabilityId : String)
  | duplicateDefinition (capabilityId contractVersion : String)
  | duplicateInstance (instanceId : String)
  | definitionNotFound (instanceId capabilityId contractVersion : String)
  | unsupportedExecutionStyle (instanceId capabilityId contractVersion : String)
      (style : ExecutionStyle)
  | unsupportedCancellation (instanceId capabilityId contractVersion : String)
  deriving DecidableEq

/-- The checks on a definition that its schema cannot express. -/
def validateDefinition (definition : CapabilityDefinitionBody) : Outcome RegistryError Unit := do
  Outcome.failIf (definition.apiVersion ≠ apiVersionV1alpha1)
    (.unsupportedDefinitionApiVersion definition.metadata.id definition.apiVersion)
  let execution := definition.spec.execution
  Outcome.failIf (execution.defaultTimeoutMs = 0 ∨ execution.maxTimeoutMs = 0 ∨
    execution.defaultTimeoutMs > execution.maxTimeoutMs)
    (.invalidTimeoutRange definition.metadata.id execution.defaultTimeoutMs execution.maxTimeoutMs)
  Outcome.failIf (execution.durableToolOutput = true ∧
    ¬ (definition.spec.effect.class_ = .readOnly ∨ definition.spec.effect.class_ = .idempotent ∨
      definition.spec.effect.class_ = .nonIdempotent))
    (.unsupportedDurableToolOutputEffect definition.metadata.id)

/-- An instance claims no feature that its definition lacks. -/
def validateInstanceFeatures (instance_ : CapabilityInstanceBody)
    (definition : CapabilityDefinitionBody) : Outcome RegistryError Unit := do
  let unsupportedStyle : ExecutionStyle → RegistryError := .unsupportedExecutionStyle
    instance_.instanceId instance_.definition.capabilityId instance_.definition.contractVersion
  Outcome.failIf (instance_.features.sync = true ∧ .sync ∉ definition.spec.execution.styles)
    (unsupportedStyle .sync)
  Outcome.failIf (instance_.features.task = true ∧ .task ∉ definition.spec.execution.styles)
    (unsupportedStyle .task)
  Outcome.failIf (instance_.features.cancellable = true ∧
    definition.spec.execution.cancellable = false)
    (.unsupportedCancellation instance_.instanceId definition.metadata.id
      definition.metadata.contractVersion)

namespace CapabilityRegistry

/-- `CapabilityRegistry::new`. -/
def new : CapabilityRegistry where
  definitions := ∅
  instances := ∅

/-- Register a definition under its reference, once. -/
def registerSchemaValidatedDefinition (self : CapabilityRegistry)
    (definition : CapabilityDefinitionBody) : Outcome RegistryError CapabilityRegistry := do
  validateDefinition definition
  let definitions ← self.definitions.insertNew definition.reference.key definition
    (.duplicateDefinition definition.metadata.id definition.metadata.contractVersion)
  pure { self with definitions := definitions }

/-- Register an instance of a registered definition, once. -/
def registerSchemaValidatedInstance (self : CapabilityRegistry)
    (instance_ : CapabilityInstanceBody) : Outcome RegistryError CapabilityRegistry := do
  Outcome.failIf (instance_.apiVersion ≠ apiVersionV1alpha1)
    (.unsupportedInstanceApiVersion instance_.instanceId instance_.apiVersion)
  Outcome.failIf (instance_.instanceId ∈ self.instances) (.duplicateInstance instance_.instanceId)
  let definition ← Outcome.okOr self.definitions[instance_.definition.key]?
    (.definitionNotFound instance_.instanceId instance_.definition.capabilityId
      instance_.definition.contractVersion)
  validateInstanceFeatures instance_ definition
  pure { self with instances := self.instances.insert instance_.instanceId instance_ }

/-- The definition registered under an exact reference. -/
def definition (self : CapabilityRegistry) (reference : CapabilityRef) :
    Option CapabilityDefinitionBody :=
  self.definitions[reference.key]?

/-- The instance registered under an id; `instance` in the source. -/
def instance? (self : CapabilityRegistry) (instanceId : String) : Option CapabilityInstanceBody :=
  self.instances[instanceId]?

/-- The instances of one exact definition, in the order of their ids. -/
def instancesFor (self : CapabilityRegistry) (reference : CapabilityRef) :
    List CapabilityInstanceBody :=
  (BTreeMap.vals self.instances).filter fun instance_ =>
    decide (instance_.definition.key = reference.key)

/-! ## Registered documents -/

/-- What holds of every registry: documents stand under their own names, and a definition passed its
checks. -/
structure WellFormed (registry : CapabilityRegistry) : Prop where
  reference : ∀ reference definition, registry.definition reference = some definition →
    definition.reference = reference
  validated : ∀ reference definition, registry.definition reference = some definition →
    validateDefinition definition = .ok ()
  instanceId : ∀ instanceId instance_, registry.instance? instanceId = some instance_ →
    instance_.instanceId = instanceId
  bound : ∀ instanceId instance_, registry.instance? instanceId = some instance_ →
    ∃ definition, registry.definition instance_.definition = some definition

theorem WellFormed.new : WellFormed new := by
  constructor <;> simp [CapabilityRegistry.new, definition, instance?]

/-- **Registering a definition keeps the registry well formed.** -/
theorem WellFormed.registerDefinition {self next : CapabilityRegistry}
    {definition : CapabilityDefinitionBody} (hself : self.WellFormed)
    (h : self.registerSchemaValidatedDefinition definition = .ok next) : next.WellFormed := by
  simp only [registerSchemaValidatedDefinition, Outcome.bind_eq_ok, Outcome.exists_unit,
    BTreeMap.insertNew_eq_ok, Outcome.pure_eq_ok] at h
  obtain ⟨hvalid, definitions, ⟨hnew, rfl⟩, rfl⟩ := h
  -- a lookup finds the new definition or an old one
  have hlookup : ∀ reference found,
      (self.definitions.insert definition.reference.key definition)[CapabilityRef.key reference]? =
        some found →
      (reference = definition.reference ∧ found = definition) ∨
        self.definition reference = some found := by
    intro reference found hfound
    rw [BTreeMap.get_insert] at hfound
    split at hfound
    · rename_i hkey
      exact Or.inl ⟨(CapabilityRef.key_injective hkey).symm, (Option.some.inj hfound).symm⟩
    · exact Or.inr hfound
  refine ⟨fun reference found hfound => ?_, fun reference found hfound => ?_, hself.instanceId,
    fun instanceId instance_ hinstance => ?_⟩
  · obtain ⟨rfl, rfl⟩ | hold := hlookup reference found hfound
    · rfl
    · exact hself.reference reference found hold
  · obtain ⟨rfl, rfl⟩ | hold := hlookup reference found hfound
    · exact hvalid
    · exact hself.validated reference found hold
  · obtain ⟨found, hfound⟩ := hself.bound instanceId instance_ hinstance
    show ∃ found, (self.definitions.insert definition.reference.key definition)[CapabilityRef.key
      instance_.definition]? = some found
    rw [BTreeMap.get_insert]
    split
    · exact ⟨definition, rfl⟩
    · exact ⟨found, hfound⟩

/-- **Registering an instance keeps the registry well formed.** -/
theorem WellFormed.registerInstance {self next : CapabilityRegistry}
    {instance_ : CapabilityInstanceBody} (hself : self.WellFormed)
    (h : self.registerSchemaValidatedInstance instance_ = .ok next) : next.WellFormed := by
  simp only [registerSchemaValidatedInstance, Outcome.bind_eq_ok, Outcome.exists_unit,
    Outcome.failIf_eq_ok, Outcome.okOr_eq_ok, Outcome.pure_eq_ok] at h
  obtain ⟨-, -, definition, hdefinition, -, rfl⟩ := h
  refine ⟨hself.reference, hself.validated, fun instanceId found hfound => ?_,
    fun instanceId found hfound => ?_⟩
  all_goals
    rw [instance?, BTreeMap.get_insert] at hfound
    split at hfound
    · rename_i hid
      obtain rfl := Option.some.inj hfound
      first
        | exact hid
        | exact ⟨definition, hdefinition⟩
    · first
        | exact hself.instanceId instanceId found hfound
        | exact hself.bound instanceId found hfound

end CapabilityRegistry

end Xgeny
