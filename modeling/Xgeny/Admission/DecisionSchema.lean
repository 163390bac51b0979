import Xgeny.Admission.Invocation
import Xgeny.Policy.Coverage

set_option autoImplicit false

/-!
# The schema of policy decisions

The policy decision of an effect is checked against the bundled `policy-decision.schema.json`, which
uses the definitions of `common.schema.json`. Only the formats of dates and URIs are left to the schema
library.

* `CommonSchema`: the definitions of `common.schema.json`;
* `validatePolicyDecision`: the schema of the document and the check of its extensions;
* `Grantable`: what admission derives of a request;
* **`policyDecisionCommitment_refuses_iff`**: an allowed request is refused by the schema exactly for
  the length of a resource.
-/

namespace Xgeny

/-! ## Definitions of the common schema -/

/-- The formats that the schema library checks. -/
structure Formats where
  dateTime : String → Bool
  uri : String → Bool

/-- The bound of `resolvedResource.resource`. -/
def FitsWire (resource : String) : Prop := 1 ≤ resource.length ∧ resource.length ≤ 4096

instance (resource : String) : Decidable (FitsWire resource) :=
  inferInstanceAs (Decidable (1 ≤ resource.length ∧ resource.length ≤ 4096))

namespace CommonSchema

/-- A later character of an identifier. -/
def identifierRest (c : Char) : Bool :=
  c.isAlphanum || c == '.' || c == '_' || c == ':' || c == '-'

/-- `identifier`: at most 200 characters of the pattern `^[A-Za-z0-9][A-Za-z0-9._:-]*$`. -/
def identifier (value : String) : Bool :=
  decide (value.length ≤ 200) &&
    match value.toList with
    | [] => false
    | first :: rest => first.isAlphanum && rest.all identifierRest

/-- `digest`: the pattern `^sha256:[a-f0-9]{64}$`. -/
def digest (value : String) : Bool := isSha256Digest value

/-- One part of a scope. -/
def scopePart : List Char → Bool
  | [] => false
  | first :: rest => first.isLower && rest.all fun c => c.isLower || c.isDigit || c == '_'

/-- The pattern `^[a-z][a-z0-9_]*(?:\.[a-z][a-z0-9_]*)+$` of a scope. -/
def scope (value : String) : Bool :=
  let parts := value.toList.splitOn '.'
  decide (2 ≤ parts.length) && parts.all scopePart

/-- `resolvedResource`. -/
def resolvedResource (value : ResolvedResource) : Bool :=
  scope value.scope && decide (FitsWire value.resource) && value.normalized

/-- `extensions`: the names are URIs. -/
def extensions (F : Formats) (value : Extensions) : Bool :=
  value.toList.all fun extension_ => F.uri extension_.1

/-- `requiredExtensions`. -/
def requiredExtensions (F : Formats) (value : List String) : Bool :=
  value.all F.uri && decide value.Nodup

end CommonSchema

/-! ## The document -/

/-- An item of `policySources`. -/
def policySourceSchema (source : PolicySource) : Bool :=
  decide (1 ≤ source.id.length ∧ source.id.length ≤ 300) && CommonSchema.digest source.digest

/-- The property `grant`. -/
def grantSchema (F : Formats) (grant : Grant) : Bool :=
  grant.expiresAt.all F.dateTime &&
    (decide (grant.scopes ≠ []) && decide grant.scopes.Nodup &&
      grant.scopes.all fun scope => decide (3 ≤ scope.length)) &&
    (decide (grant.resources ≠ []) && decide grant.resources.Nodup &&
      grant.resources.all CommonSchema.resolvedResource) &&
    decide grant.criticalActions.Nodup

/-- The alternatives under `allOf`; a list that is empty is not written. -/
def decisionSchema (decision : PolicyDecisionBody) : Bool :=
  match decision.decision with
  | .allow => decision.grant.isSome && decision.interactionId.isNone && decision.denyReasons.isEmpty
  | .ask => decision.interactionId.isSome && decision.grant.isNone && decision.denyReasons.isEmpty
  | .deny => !decision.denyReasons.isEmpty && decision.grant.isNone && decision.interactionId.isNone

/-- `policy-decision.schema.json`. -/
def policyDecisionSchema (F : Formats) (decision : PolicyDecisionBody) : Bool :=
  decide (decision.apiVersion = apiVersionV1alpha1) &&
    CommonSchema.extensions F decision.extensions &&
    CommonSchema.requiredExtensions F decision.requiredExtensions &&
    CommonSchema.identifier decision.decisionId && CommonSchema.identifier decision.requestId &&
    (decide (decision.policySources ≠ []) && decision.policySources.all policySourceSchema) &&
    decision.grant.all (grantSchema F) &&
    decision.interactionId.all CommonSchema.identifier &&
    decision.denyReasons.all (fun reason => decide (1 ≤ reason.length ∧ reason.length ≤ 1000)) &&
    F.dateTime decision.decidedAt && decisionSchema decision

/-- `validate_policy_decision`: the schema, and no extension that a reader has to support. -/
def validatePolicyDecision (F : Formats) (decision : PolicyDecisionBody) : Bool :=
  policyDecisionSchema F decision && decision.requiredExtensions.isEmpty

/-- The schemas of the program: the library for the schemas of definitions, and the bundled one. -/
def Schemas.bundled (build : Json → Option Validator) (F : Formats) : Schemas where
  build := build
  policyDecision := validatePolicyDecision F

/-! ## Identifiers and scopes -/

theorem Sha256Hex.isAlphanum (h : Sha256Hex) {c : Char} (hc : c ∈ h.val.toList) :
    c.isAlphanum = true := by
  have hdigit := h.digit hc
  delta Char.isAlphanum Char.isAlpha Char.isUpper Char.isLower Char.isDigit
  simp only [Bool.or_eq_true, Bool.and_eq_true, decide_eq_true_eq, ge_iff_le,
    UInt32.le_iff_toNat_le]
  have hchar : c.toNat = c.val.toNat := rfl
  have hzero : '0'.val.toNat = 48 := rfl
  have hnine : '9'.val.toNat = 57 := rfl
  have hsmall : 'a'.val.toNat = 97 := rfl
  have hlast : 'z'.val.toNat = 122 := rfl
  omega

theorem contentId_sha256Digest (pre : String) (h : Sha256Hex) :
    contentId pre (sha256Digest h) = pre ++ "-" ++ h.val := by
  have hdrop : (sha256Digest h).toList.dropPrefix? "sha256:".toList = some h.val.toList := by
    rw [sha256Digest, String.toList_append]
    exact List.dropPrefix?_eq_some_iff.mpr ⟨_, rfl, beq_self_eq_true _⟩
  rw [contentId, hdrop, Option.map_some, Option.getD_some, String.ofList_toList]

theorem CommonSchema.identifier_contentId {pre : String} {first : Char} {rest : List Char}
    (hpre : pre.toList = first :: rest) (hlength : pre.length ≤ 100)
    (hfirst : first.isAlphanum = true) (hrest : rest.all identifierRest = true) (h : Sha256Hex) :
    identifier (contentId pre (sha256Digest h)) = true := by
  have hhex : h.val.length ≤ 64 := h.byteLen_val ▸ length_le_byteLen h.val
  have hdash : "-".length = 1 := by decide
  have hlist : (pre ++ "-" ++ h.val).toList = first :: (rest ++ '-' :: h.val.toList) := by
    simp [String.toList_append, hpre]
  have hbound : (pre ++ "-" ++ h.val).length ≤ 200 := by
    rw [String.length_append, String.length_append]
    omega
  have hdigits : h.val.toList.all identifierRest = true :=
    List.all_eq_true.mpr fun c hc => by simp [identifierRest, h.isAlphanum hc]
  rw [identifier, contentId_sha256Digest, hlist]
  simp only [hbound, hfirst, List.all_append, List.all_cons, hrest, hdigits, decide_true]
  rfl

theorem CommonSchema.length_of_scope {value : String} (h : scope value = true) :
    3 ≤ value.length := by
  simp only [scope, Bool.and_eq_true, decide_eq_true_eq, List.all_eq_true] at h
  obtain ⟨htwo, hparts⟩ := h
  have hjoin : ['.'].intercalate (value.toList.splitOn '.') = value.toList :=
    List.intercalate_splitOn '.'
  rcases hsplit : value.toList.splitOn '.' with _ | ⟨a, _ | ⟨b, rest⟩⟩
  · simp [hsplit] at htwo
  · simp [hsplit] at htwo
  rw [hsplit] at hjoin hparts
  have hne : ∀ part ∈ a :: b :: rest, 1 ≤ part.length := by
    intro part hpart
    rcases part with _ | ⟨c, cs⟩
    · exact absurd (hparts _ hpart) (by simp [scopePart])
    · simp
  have ha := hne a (by simp)
  have hb := hne b (by simp)
  rw [← String.length_toList, ← hjoin]
  cases rest <;> simp [List.intercalate, List.intersperse] <;> omega

/-! ## Requests of admission -/

/-- What admission derives of a request, apart from the length of its resources. -/
structure Grantable (request : ResolvedPermissionRequest) : Prop where
  apiVersion : request.apiVersion = apiVersionV1alpha1
  requestId : CommonSchema.identifier request.requestId = true
  scopes : request.requestedScopes ≠ []
  scopes_nodup : request.requestedScopes.Nodup
  scope_length : ∀ scope ∈ request.requestedScopes, 3 ≤ scope.length
  resources : request.resources ≠ []
  resources_nodup : request.resources.Nodup
  resource_scope : ∀ resource ∈ request.resources, CommonSchema.scope resource.scope = true

/-- The definition schema gives the pattern of the scopes. -/
def CapabilityRegistry.ScopesValidated (registry : CapabilityRegistry) : Prop :=
  ∀ capability definition, registry.definition capability = some definition →
    ∀ selector ∈ definition.spec.effect.resourceSelectors, CommonSchema.scope selector.scope = true

section

variable {D : Digests} {J : Schemas} {F : Formats} {build : Json → Option Validator}
  {registry : CapabilityRegistry} {resolver : ResourceResolver}
  {request : ResolvedPermissionRequest} {inputs : PolicyInputs}
  {authorization : ProvisionalAuthorization} {sources : List PolicySource}
  {evidenceDigest decidedAt : String}

theorem grantable_of_resolveInvocation {requestId runId stepId : String}
    {definition : CapabilityDefinitionBody} {arguments : Json} {lifetime : GrantLifetime}
    {resolved : ResolvedInvocationRequest}
    (hid : CommonSchema.identifier requestId = true)
    (hscopes : ∀ selector ∈ definition.spec.effect.resourceSelectors,
      CommonSchema.scope selector.scope = true)
    (h : resolveInvocation resolver requestId runId stepId definition arguments lifetime =
      .ok resolved) : Grantable resolved.permissionRequest := by
  simp only [resolveInvocation, validateDerivedRequestShape, Outcome.bind_eq_ok,
    Outcome.exists_unit, Outcome.failIf_eq_ok, Outcome.pure_eq_ok] at h
  obtain ⟨⟨-, -, -, hselectors⟩, derived, hderived, actions, -, rfl⟩ := h
  obtain ⟨acc, hacc, -, hrequested, hresources⟩ := deriveInvocationResources_eq_ok.mp hderived
  have hgathered := gathered_of_foldl hacc
  have hscope : ∀ scope ∈ acc.requestedScopes, CommonSchema.scope scope = true := by
    intro scope hmem
    obtain ⟨selector, hselector, rfl⟩ := (hgathered.scopes scope).mp hmem
    exact hscopes selector ((List.mem_insertionSort _).mp hselector)
  obtain ⟨selector, hselector⟩ := List.exists_mem_of_ne_nil _ hselectors
  have hselector := (List.mem_insertionSort selectorBefore).mpr hselector
  obtain ⟨canonical, hcanonical, -⟩ := hgathered.resolved selector hselector
  refine ⟨rfl, hid, ?_, ?_, ?_, ?_, ?_, ?_⟩
  · rw [hrequested]
    exact List.ne_nil_of_mem (Std.ExtTreeSet.mem_toList.mpr
      ((hgathered.scopes _).mpr ⟨selector, hselector, rfl⟩))
  · exact hrequested ▸ BTreeSet.nodup_toList _
  · intro scope hmem
    rw [hrequested] at hmem
    exact CommonSchema.length_of_scope (hscope scope (Std.ExtTreeSet.mem_toList.mp hmem))
  · have hmem : (⟨selector.scope, canonical⟩ : ConcreteResource).key ∈ acc.resources :=
      (hgathered.resources _).mpr ⟨selector, hselector, rfl, hcanonical⟩
    exact hresources ▸ List.ne_nil_of_mem (mem_resources.mpr hmem)
  · rw [hresources]
    refine (BTreeSet.nodup_toList _).map fun a b heq => ?_
    simp only [ConcreteResource.mk.injEq] at heq
    exact ofLex.injective (Prod.ext heq.1 heq.2)
  · intro resource hmem
    rw [hresources] at hmem
    obtain ⟨found, hfound, hsame, -⟩ := (hgathered.resources _).mp (mem_resources.mp hmem)
    exact hsame ▸ hscopes found ((List.mem_insertionSort _).mp hfound)

/-- **What admission derives can be granted**, as far as the length of its resources allows. -/
theorem grantable_of_facts {runId stepId : String} {capability : CapabilityRef} {arguments : Json}
    {facts : PreparedInvocationFacts} (hregistry : registry.ScopesValidated)
    (h : prepareInvocationFacts D J runId stepId capability arguments registry resolver = .ok facts) :
    Grantable facts.permissionRequest := by
  simp only [prepareInvocationFacts, Outcome.bind_eq_ok, Outcome.exists_unit, Outcome.mapErr_eq_ok,
    Outcome.okOr_eq_ok, Outcome.pure_eq_ok, digestSerializable, Digests.digest_eq_ok] at h
  obtain ⟨definition, hdefinition, _, -, -, -, _, ⟨canonical, -, rfl⟩, resolved, hresolved, -, _, -,
    _, -, _, -, rfl⟩ := h
  refine grantable_of_resolveInvocation ?_ (hregistry capability definition hdefinition) hresolved
  exact CommonSchema.identifier_contentId rfl (by decide) (by decide) (by decide) canonical.sha256

/-! ## Decisions -/

theorem evaluate_sources (h : evaluate request inputs = .ok (.allow authorization sources)) :
    sources ≠ [] ∧ ∀ source ∈ sources, policySourceSchema source = true := by
  simp only [evaluate, Outcome.bind_eq_ok, Outcome.exists_unit, Outcome.forEach_eq_ok] at h
  obtain ⟨-, hvalid, h⟩ := h
  obtain rfl : sources = inputs.ordered.map fun layer => layer.2.source := by
    split at h
    · simp at h
    split at h
    · simp at h
    simp only [Outcome.pure_eq_ok, BrokerOutcome.allow.injEq] at h
    exact h.2.symm
  constructor
  · unfold PolicyInputs.ordered
    cases inputs.layers <;> simp
  · intro source hsource
    obtain ⟨layer, hlayer, rfl⟩ := List.mem_map.mp hsource
    have hlayer := hvalid layer hlayer
    simp only [validateContribution, Outcome.bind_eq_ok, Outcome.exists_unit,
      Outcome.failIf_eq_ok, not_or, Bool.not_eq_false] at hlayer
    obtain ⟨-, ⟨hne, hlong, -, hdigest⟩, -⟩ := hlayer
    have hpos : 1 ≤ layer.2.source.id.length := by
      rw [Nat.one_le_iff_ne_zero]
      exact fun hzero => hne (String.length_eq_zero_iff.mp hzero)
    simp only [policySourceSchema, CommonSchema.digest, hdigest, Bool.and_true, decide_eq_true_eq]
    exact ⟨hpos, not_lt.mp hlong⟩

theorem grantSchema_allowed {decisionId : String} (hrequest : Grantable request)
    (hallow : evaluate request inputs = .ok (.allow authorization sources)) :
    (allowedDecision request authorization sources decisionId decidedAt).grant.all
        (grantSchema F) = true ↔
      ∀ resource ∈ request.resources, FitsWire resource.canonicalResource := by
  obtain ⟨-, -, rfl, -⟩ := evaluate_allow hallow
  have hnodup : (request.resources.map fun resource =>
      ({ scope := resource.scope
         resource := resource.canonicalResource
         normalized := true
         metadata := ∅ } : ResolvedResource)).Nodup := by
    refine hrequest.resources_nodup.map fun a b heq => ?_
    simp only [ResolvedResource.mk.injEq, and_true] at heq
    exact ConcreteResource.key_injective (congrArg toLex (Prod.ext heq.1 heq.2))
  have hscopes : (request.requestedScopes.all fun scope => decide (3 ≤ scope.length)) = true :=
    List.all_eq_true.mpr fun scope hmem => decide_eq_true (hrequest.scope_length scope hmem)
  have hresources : (request.resources.all fun resource => CommonSchema.resolvedResource
      ⟨resource.scope, resource.canonicalResource, true, ∅⟩) = true ↔
        ∀ resource ∈ request.resources, FitsWire resource.canonicalResource := by
    rw [List.all_eq_true]
    refine forall₂_congr fun resource hmem => ?_
    simp [CommonSchema.resolvedResource, hrequest.resource_scope resource hmem]
  rw [← hresources]
  simp [allowedDecision, grantSchema, hrequest.scopes, hrequest.scopes_nodup, hscopes,
    hrequest.resources, hnodup, List.all_map, Function.comp_def]

/-- **The schema accepts the decision of an allowed request** exactly when its resources fit. -/
theorem validatePolicyDecision_allowed (hrequest : Grantable request)
    (hallow : evaluate request inputs = .ok (.allow authorization sources))
    (hevidence : policyEvidenceDigest D request authorization sources = .ok evidenceDigest)
    (hdecided : F.dateTime decidedAt = true) :
    validatePolicyDecision F (allowedDecision request authorization sources
        (contentId "decision" evidenceDigest) decidedAt) = true ↔
      ∀ resource ∈ request.resources, FitsWire resource.canonicalResource := by
  obtain ⟨hsources, hsource⟩ := evaluate_sources hallow
  simp only [policyEvidenceDigest, Outcome.bind_eq_ok, Outcome.exists_unit, digestSerializable,
    Digests.digest_eq_ok] at hevidence
  obtain ⟨-, canonical, -, rfl⟩ := hevidence
  have hid : CommonSchema.identifier (contentId "decision" (sha256Digest canonical.sha256)) = true :=
    CommonSchema.identifier_contentId rfl (by decide) (by decide) (by decide) canonical.sha256
  have hextensions : CommonSchema.extensions F ∅ = true := by
    rw [CommonSchema.extensions, Std.ExtTreeMap.toList_eq_nil_iff.mpr rfl, List.all_nil]
  have hall : sources.all policySourceSchema = true := List.all_eq_true.mpr hsource
  have hgrant : (allowedDecision request authorization sources (contentId "decision"
      (sha256Digest canonical.sha256)) decidedAt).grant.all (grantSchema F) = true ↔ _ :=
    grantSchema_allowed hrequest hallow
  rw [← hgrant, validatePolicyDecision, policyDecisionSchema]
  simp [allowedDecision, decisionSchema, hrequest.apiVersion, hrequest.requestId, hid, hdecided,
    hextensions, hsources, hall, CommonSchema.requiredExtensions]

/-- A request that admission has prepared and that every layer allows, with the digest of their
evidence. -/
structure AllowedRequest (D : Digests) (J : Schemas) (registry : CapabilityRegistry)
    (resolver : ResourceResolver) (request : ResolvedPermissionRequest)
    (authorization : ProvisionalAuthorization) (sources : List PolicySource)
    (evidenceDigest : String) : Prop where
  prepared : ∃ runId stepId capability arguments facts,
    prepareInvocationFacts D J runId stepId capability arguments registry resolver = .ok facts ∧
      facts.permissionRequest = request
  allowed : ∃ inputs, evaluate request inputs = .ok (.allow authorization sources)
  evidence : policyEvidenceDigest D request authorization sources = .ok evidenceDigest

theorem AllowedRequest.grantable (hregistry : registry.ScopesValidated)
    (h : AllowedRequest D J registry resolver request authorization sources evidenceDigest) :
    Grantable request := by
  obtain ⟨_, _, _, _, facts, hfacts, rfl⟩ := h.prepared
  exact grantable_of_facts hregistry hfacts

/-- **An allowed request is refused by the schema** exactly when a resource of it does not fit. -/
theorem policyDecisionCommitment_refuses_iff (hregistry : registry.ScopesValidated)
    (hrequest : AllowedRequest D (.bundled build F) registry resolver request authorization sources
      evidenceDigest) (hdecided : F.dateTime decidedAt = true) :
    policyDecisionCommitment D (.bundled build F) request authorization sources evidenceDigest
        decidedAt = Outcome.fail .policyDecisionInvalid ↔
      ∃ resource ∈ request.resources, ¬ FitsWire resource.canonicalResource := by
  obtain ⟨inputs, hallow⟩ := hrequest.allowed
  have hiff := validatePolicyDecision_allowed (hrequest.grantable hregistry) hallow
    hrequest.evidence hdecided
  constructor
  · intro hrefused
    by_contra! hfits
    have haccepted : (Schemas.bundled build F).policyDecision (allowedDecision request authorization
      sources (contentId "decision" evidenceDigest) decidedAt) = true := hiff.mpr hfits
    -- what is left is the digest of the document, which has an error of its own
    simp only [policyDecisionCommitment, Outcome.fail, Outcome.bind_eq_error, Outcome.failIf_eq_error,
      haccepted, Digests.digest, Digests.toVec] at hrefused
    cases hcanonical : D.canonicalize (.policyDecision (allowedDecision request authorization
        sources (contentId "decision" evidenceDigest) decidedAt)) <;>
      simp [hcanonical, pure, Except.pure] at hrefused
  · rintro ⟨resource, hmem, hlong⟩
    have hrefused : (Schemas.bundled build F).policyDecision (allowedDecision request authorization
        sources (contentId "decision" evidenceDigest) decidedAt) = false :=
      Bool.eq_false_iff.mpr fun haccepted => hlong (hiff.mp haccepted resource hmem)
    simp [policyDecisionCommitment, hrefused, Outcome.failIf, Outcome.fail, bind, Except.bind]

end

end Xgeny
