import Xgeny.Policy.Resolution

set_option autoImplicit false

/-!
# The permission broker

Every policy layer answers a resolved request on its own: it allows some exact authority, asks or
denies. The broker composes the answers, with deny over ask over allow.

* `PolicyInputs`: the mandatory layers, bound to one request;
* `evaluate`, `evaluateBound`: the composition;
* **`evaluate_allow`**: an allow is for exactly what the request names.
-/

namespace Xgeny

/-- What one layer allows for the current request; lifetimes are a set, without an order. -/
structure PolicyAllowance where
  scopes : BTreeSet String
  resources : BTreeSet (String ×ₗ String)
  criticalActions : List CriticalAction
  lifetimes : List GrantLifetime

inductive ContributionVerdict where
  | allow (allowance : PolicyAllowance)
  | ask (reasonCode : String)
  | deny (reasonCode : String)

structure PolicyContribution where
  source : PolicySource
  verdict : ContributionVerdict

inductive PolicyLayers where
  | localHost (host userProfile : PolicyContribution)
  | managed (host userProfile managedLease : PolicyContribution)

/-- The layers with the request that they were evaluated for. -/
structure PolicyInputs where
  request : ResolvedPermissionRequest
  layers : PolicyLayers

def PolicyInputs.isManaged (self : PolicyInputs) : Bool :=
  match self.layers with
  | .localHost .. => false
  | .managed .. => true

/-- The layers in the order in which they are evaluated, each with the kind it has to have. -/
def PolicyInputs.ordered (self : PolicyInputs) : List (PolicySourceKind × PolicyContribution) :=
  match self.layers with
  | .localHost host userProfile => [(.host, host), (.userProfile, userProfile)]
  | .managed host userProfile managedLease =>
    [(.host, host), (.userProfile, userProfile), (.managedLease, managedLease)]

/-- A reason; one of the broker itself has no source. -/
structure PolicyReason where
  source : Option PolicySourceKind
  code : String
  deriving DecidableEq

structure ProvisionalAuthorization where
  lifetime : GrantLifetime
  scopes : List String
  resources : List ConcreteResource
  criticalActions : List CriticalAction
  deriving DecidableEq

inductive BrokerOutcome where
  | allow (provisionalAuthorization : ProvisionalAuthorization) (sources : List PolicySource)
  | ask (sources : List PolicySource) (reasons : List PolicyReason)
  | deny (sources : List PolicySource) (reasons : List PolicyReason)
  deriving DecidableEq

/-- An outcome together with the request it is about. -/
structure BoundPolicyEvaluation where
  request : ResolvedPermissionRequest
  outcome : BrokerOutcome
  deriving DecidableEq

inductive BrokerError where
  | policyRequestMismatch
  | sourceKindMismatch (expected actual : PolicySourceKind)
  | invalidPolicySource (kind : PolicySourceKind)
  | invalidReasonCode (kind : PolicySourceKind)
  deriving DecidableEq

/-! ## Contributions -/

/-- `u8::is_ascii_lowercase`. -/
def isAsciiLowercase (b : UInt8) : Bool := 0x61 ≤ b && b ≤ 0x7a

def validReasonCode (reason : String) : Bool :=
  match bytes reason with
  | [] => false
  | first :: rest =>
    isAsciiLowercase first && byteLen reason ≤ 100 &&
      rest.all fun byte => isAsciiLowercase byte || isAsciiDigit byte ||
        byte == 0x2e || byte == 0x5f || byte == 0x2d

def ContributionVerdict.reason : ContributionVerdict → Option String
  | .allow _ => none
  | .ask reasonCode => some reasonCode
  | .deny reasonCode => some reasonCode

def validateContribution (expected : PolicySourceKind) (contribution : PolicyContribution) :
    Outcome BrokerError Unit := do
  let actual := contribution.source.kind
  Outcome.failIf (actual ≠ expected) (.sourceKindMismatch expected actual)
  Outcome.failIf (contribution.source.id = "" ∨ contribution.source.id.length > 300 ∨
    contribution.source.id.toList.any isControl = true ∨
    isSha256Digest contribution.source.digest = false) (.invalidPolicySource actual)
  Outcome.failIf (contribution.verdict.reason.any (fun reason => !validReasonCode reason) = true)
    (.invalidReasonCode actual)

/-- The parts of a request that an allowance does not cover. -/
def coverageDenials (request : ResolvedPermissionRequest) (source : PolicySourceKind)
    (allowance : PolicyAllowance) : List PolicyReason :=
  (if request.requestedScopes.any (fun scope => decide (scope ∉ allowance.scopes)) then
    [⟨some source, "scope_not_allowed"⟩] else []) ++
  (if request.resources.any (fun resource => decide (resource.key ∉ allowance.resources)) then
    [⟨some source, "resource_not_allowed"⟩] else []) ++
  (if request.criticalActions.any (fun action => decide (action ∉ allowance.criticalActions)) then
    [⟨some source, "critical_action_not_allowed"⟩] else []) ++
  (if request.requestedLifetime ∉ allowance.lifetimes then
    [⟨some source, "lifetime_not_allowed"⟩] else [])

/-- The reasons of one layer to deny. -/
def denyReasons (request : ResolvedPermissionRequest)
    (layer : PolicySourceKind × PolicyContribution) : List PolicyReason :=
  match layer.2.verdict with
  | .deny code => [⟨some layer.1, code⟩]
  | .ask _ => []
  | .allow allowance => coverageDenials request layer.1 allowance

/-- The reasons of one layer to ask. -/
def askReasons (layer : PolicySourceKind × PolicyContribution) : List PolicyReason :=
  match layer.2.verdict with
  | .ask code => [⟨some layer.1, code⟩]
  | _ => []

/-- The broker's own reason to ask. -/
def criticalReasons (request : ResolvedPermissionRequest) : List PolicyReason :=
  if request.criticalActions ≠ [] then [⟨none, "critical_approval_required"⟩] else []

/-! ## Composition -/

def evaluate (request : ResolvedPermissionRequest) (inputs : PolicyInputs) :
    Outcome BrokerError BrokerOutcome := do
  Outcome.failIf (inputs.request ≠ request) .policyRequestMismatch
  let layers := inputs.ordered
  Outcome.forEach layers fun layer => validateContribution layer.1 layer.2
  let sources := layers.map fun layer => layer.2.source
  let denials := layers.flatMap (denyReasons request)
  let questions := layers.flatMap askReasons ++ criticalReasons request
  if denials ≠ [] then pure (.deny sources denials)
  else if questions ≠ [] then pure (.ask sources questions)
  else
    pure (.allow
      { lifetime := request.requestedLifetime
        scopes := request.requestedScopes
        resources := request.resources
        criticalActions := request.criticalActions } sources)

def evaluateBound (request : ResolvedPermissionRequest) (inputs : PolicyInputs) :
    Outcome BrokerError BoundPolicyEvaluation := do
  let outcome ← evaluate request inputs
  pure { request := request, outcome := outcome }

/-- **An allow is for exactly what the request names**: every layer has allowed all of it, and
nothing in it is critical. -/
theorem evaluate_allow {request : ResolvedPermissionRequest} {inputs : PolicyInputs}
    {authorization : ProvisionalAuthorization} {sources : List PolicySource}
    (h : evaluate request inputs = .ok (.allow authorization sources)) :
    inputs.request = request ∧ request.criticalActions = [] ∧
      authorization = ⟨request.requestedLifetime, request.requestedScopes, request.resources, []⟩ ∧
      ∀ layer ∈ inputs.ordered, ∃ allowance, layer.2.verdict = .allow allowance ∧
        (∀ scope ∈ request.requestedScopes, scope ∈ allowance.scopes) ∧
        (∀ resource ∈ request.resources, resource.key ∈ allowance.resources) ∧
        request.requestedLifetime ∈ allowance.lifetimes := by
  simp only [evaluate, Outcome.bind_eq_ok, Outcome.exists_unit, Outcome.failIf_eq_ok, ne_eq,
    Decidable.not_not] at h
  obtain ⟨hrequest, -, h⟩ := h
  split at h
  · simp at h
  rename_i hdeny
  split at h
  · simp at h
  rename_i hask
  simp only [Decidable.not_not, List.append_eq_nil_iff, List.flatMap_eq_nil_iff] at hdeny hask
  obtain ⟨hask, hcritical⟩ := hask
  have hnone : request.criticalActions = [] := by
    by_contra hsome
    simp [criticalReasons, hsome] at hcritical
  simp only [Outcome.pure_eq_ok, BrokerOutcome.allow.injEq] at h
  refine ⟨hrequest, hnone, by rw [← h.1, hnone], fun layer hlayer => ?_⟩
  have hdenied := hdeny layer hlayer
  have hasked := hask layer hlayer
  unfold denyReasons at hdenied
  unfold askReasons at hasked
  cases hverdict : layer.2.verdict with
  | deny code => simp [hverdict] at hdenied
  | ask code => simp [hverdict] at hasked
  | allow allowance =>
    simp only [hverdict, coverageDenials, List.append_eq_nil_iff] at hdenied
    obtain ⟨⟨⟨hscopes, hresources⟩, -⟩, hlifetime⟩ := hdenied
    refine ⟨allowance, rfl, ?_, ?_, ?_⟩
    · simpa using hscopes
    · simpa using hresources
    · simpa using hlifetime

end Xgeny
