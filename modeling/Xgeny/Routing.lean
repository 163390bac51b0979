import Mathlib.Algebra.Order.Ring.Unbundled.Rat
import Mathlib.Data.List.Sort
import Xgeny.Policy.Broker

set_option autoImplicit false

/-!
# Routing

A route request names a capability, a platform and the features it needs. Instances that cannot
serve it are filtered out, the rest are ranked, and a bound policy evaluation decides whether the
first of them may be used.

* `evaluateCandidate`: the hard filters, with every reason found;
* `rankCandidates`: the order of the survivors, with a pin in front;
* `route`: the outcome;
* **`route_selected`**: a selected instance is registered for the capability, passed every filter,
  and was allowed by the policy.
-/

namespace Xgeny

structure RequiredRouteFeatures where
  executionStyle : ExecutionStyle
  cancellation : Bool
  idempotencyKey : Bool
  idempotencyQuery : Bool
  deriving DecidableEq

structure RouteRequest where
  capability : CapabilityRef
  targetPlatform : Platform
  requiredFeatures : RequiredRouteFeatures
  allowedTrustLevels : List TrustLevel
  allowedDataBoundaries : List DataBoundary
  trustPreference : List TrustLevel
  dataBoundaryPreference : List DataBoundary
  preferredInstanceIds : List String
  pinnedInstanceId : Option String
  deriving DecidableEq

inductive CandidateEligibility where
  | placementEligible
  | rejected
  deriving DecidableEq

inductive RouteReason where
  | platformOsMismatch
  | platformArchitectureMismatch
  | healthDegraded
  | healthUnavailable
  | healthUnknown
  | authRequired
  | authExpired
  | trustNotAllowed
  | dataBoundaryNotAllowed
  | definitionExtensionUnsupported (extension : String)
  | instanceExtensionUnsupported (extension : String)
  | executionStyleUnsupported (style : ExecutionStyle)
  | cancellationUnsupported
  | idempotencyKeyUnsupported
  | idempotencyQueryUnsupported
  | invalidCostHint
  | invalidReliabilityHint
  deriving DecidableEq

/-- A degraded instance may still be used. -/
def RouteReason.rejectsCandidate : RouteReason → Bool
  | .healthDegraded => false
  | _ => true

structure RouteCandidateEvaluation where
  instanceId : String
  eligibility : CandidateEligibility
  reasons : List RouteReason
  deriving DecidableEq

inductive RouteSelectionReason where
  | pinned
  | onlyPlacementEligibleCandidate
  | lexicographicRanking
  deriving DecidableEq

inductive RouteInteractionReason where
  | policyApprovalRequired
  | criticalApprovalRequired
  deriving DecidableEq

inductive RouteBlockReason where
  | noCandidates
  | noPlacementEligibleCandidates
  | policyMissing
  | policyDenied
  | pinnedInstanceNotFound
  | pinnedInstanceCapabilityMismatch
  | pinnedInstanceIneligible
  deriving DecidableEq

inductive RouteOutcome where
  | selected (selectedInstanceId : String) (rankedInstanceIds : List String)
      (candidates : List RouteCandidateEvaluation) (reason : RouteSelectionReason)
  | interactionRequired (rankedInstanceIds : List String)
      (candidates : List RouteCandidateEvaluation) (reasons : List RouteInteractionReason)
      (policyReasons : List PolicyReason)
  | blocked (rankedInstanceIds : List String) (candidates : List RouteCandidateEvaluation)
      (reasons : List RouteBlockReason) (policyReasons : List PolicyReason)
  deriving DecidableEq

inductive RouteInputError where
  | targetPlatformMustBeConcrete
  | allowedTrustLevelsEmpty
  | allowedDataBoundariesEmpty
  | duplicateAllowedTrustLevel (trust : TrustLevel)
  | duplicateAllowedDataBoundary (boundary : DataBoundary)
  | trustPreferenceNotAllowed (trust : TrustLevel)
  | duplicateTrustPreference (trust : TrustLevel)
  | dataBoundaryPreferenceNotAllowed (boundary : DataBoundary)
  | duplicateDataBoundaryPreference (boundary : DataBoundary)
  | emptyPreferredInstanceId
  | duplicatePreferredInstanceId (instanceId : String)
  | emptyPinnedInstanceId
  | definitionNotFound (capabilityId contractVersion : String)
  | policyCapabilityMismatch
  | policyEffectClassMismatch (expected actual : ProtocolEffectClass)
  | policyCriticalActionsMismatch
  | policyScopesMismatch
  deriving DecidableEq

/-! ## The request -/

/-- The first value that stands earlier in the list already. -/
def firstDuplicate {α : Type} [DecidableEq α] (values : List α) : Option α :=
  values.zipIdx.findSome? fun (value, index) =>
    if value ∈ values.take index then some value else none

/-- Fail with the value that was found. -/
def refuse {ε α : Type} (found : Option α) (error : α → ε) : Outcome ε Unit :=
  Outcome.whenSome found fun value => Outcome.fail (error value)

def validateRequest (request : RouteRequest) : Outcome RouteInputError Unit := do
  Outcome.failIf (request.targetPlatform.os = .any ∨ request.targetPlatform.arch = .any)
    .targetPlatformMustBeConcrete
  Outcome.failIf (request.allowedTrustLevels = []) .allowedTrustLevelsEmpty
  Outcome.failIf (request.allowedDataBoundaries = []) .allowedDataBoundariesEmpty
  refuse (firstDuplicate request.allowedTrustLevels) .duplicateAllowedTrustLevel
  refuse (firstDuplicate request.allowedDataBoundaries) .duplicateAllowedDataBoundary
  refuse (request.trustPreference.find? fun trust => decide (trust ∉ request.allowedTrustLevels))
    .trustPreferenceNotAllowed
  refuse (firstDuplicate request.trustPreference) .duplicateTrustPreference
  refuse (request.dataBoundaryPreference.find? fun boundary =>
    decide (boundary ∉ request.allowedDataBoundaries)) .dataBoundaryPreferenceNotAllowed
  refuse (firstDuplicate request.dataBoundaryPreference) .duplicateDataBoundaryPreference
  Outcome.failIf ("" ∈ request.preferredInstanceIds) .emptyPreferredInstanceId
  refuse (firstDuplicate request.preferredInstanceIds) .duplicatePreferredInstanceId
  Outcome.failIf (request.pinnedInstanceId = some "") .emptyPinnedInstanceId

/-- The members of a list, sorted and each once, as `sort` and `dedup` leave them. -/
def sortedMembers (values : List String) : List String :=
  (Std.ExtTreeSet.ofList values compare).toList

def sameMembers {α : Type} [DecidableEq α] (left right : List α) : Bool :=
  left.length == right.length && left.all fun item => decide (item ∈ right)

def validatePolicyBinding (definition : CapabilityDefinitionBody) (request : RouteRequest)
    (policy : Option BoundPolicyEvaluation) : Outcome RouteInputError Unit :=
  Outcome.whenSome policy fun policy => do
    let boundRequest := policy.request
    Outcome.failIf (boundRequest.capability ≠ request.capability) .policyCapabilityMismatch
    Outcome.failIf (boundRequest.effectClass ≠ definition.spec.effect.class_)
      (.policyEffectClassMismatch definition.spec.effect.class_ boundRequest.effectClass)
    Outcome.failIf
      (sameMembers boundRequest.criticalActions definition.spec.effect.criticalActions = false)
      .policyCriticalActionsMismatch
    Outcome.failIf
      (sortedMembers (definition.spec.effect.resourceSelectors.map ResourceSelector.scope) ≠
        sortedMembers boundRequest.requestedScopes) .policyScopesMismatch

/-! ## Candidates -/

/-- A reason that holds under a condition. -/
def reasonIf (p : Prop) [Decidable p] (reason : RouteReason) : List RouteReason :=
  if p then [reason] else []

def healthReasons : HealthStatus → List RouteReason
  | .available => []
  | .degraded => [.healthDegraded]
  | .unavailable => [.healthUnavailable]
  | .unknown => [.healthUnknown]

def authReasons : AuthState → List RouteReason
  | .notRequired => []
  | .available => []
  | .required => [.authRequired]
  | .expired => [.authExpired]

/-- The instance can run in a style. -/
def InstanceFeatures.supports (self : InstanceFeatures) : ExecutionStyle → Bool
  | .sync => self.sync
  | .task => self.task

def candidateReasons (instance_ : CapabilityInstanceBody) (definition : CapabilityDefinitionBody)
    (request : RouteRequest) : List RouteReason :=
  reasonIf (instance_.platform.os ≠ .any ∧ instance_.platform.os ≠ request.targetPlatform.os)
    .platformOsMismatch ++
  reasonIf
    (instance_.platform.arch ≠ .any ∧ instance_.platform.arch ≠ request.targetPlatform.arch)
    .platformArchitectureMismatch ++
  healthReasons instance_.health.status ++
  authReasons instance_.auth.state ++
  reasonIf (instance_.trust ∉ request.allowedTrustLevels) .trustNotAllowed ++
  reasonIf (instance_.dataBoundary ∉ request.allowedDataBoundaries) .dataBoundaryNotAllowed ++
  (sortedMembers definition.requiredExtensions).map .definitionExtensionUnsupported ++
  (sortedMembers instance_.requiredExtensions).map .instanceExtensionUnsupported ++
  reasonIf (instance_.features.supports request.requiredFeatures.executionStyle = false)
    (.executionStyleUnsupported request.requiredFeatures.executionStyle) ++
  reasonIf (request.requiredFeatures.cancellation = true ∧ instance_.features.cancellable = false)
    .cancellationUnsupported ++
  reasonIf (request.requiredFeatures.idempotencyKey = true ∧
    definition.spec.execution.idempotencyKeySupported = false) .idempotencyKeyUnsupported ++
  reasonIf (request.requiredFeatures.idempotencyQuery = true ∧
    instance_.features.idempotencyQuery = false) .idempotencyQueryUnsupported ++
  reasonIf ((instance_.hints.bind InstanceHints.monetaryCost).any (fun cost => decide (cost < 0)))
    .invalidCostHint ++
  reasonIf ((instance_.hints.bind InstanceHints.reliability).any
    (fun reliability => decide (reliability < 0 ∨ 1 < reliability))) .invalidReliabilityHint

def evaluateCandidate (instance_ : CapabilityInstanceBody) (definition : CapabilityDefinitionBody)
    (request : RouteRequest) : RouteCandidateEvaluation :=
  let reasons := candidateReasons instance_ definition request
  { instanceId := instance_.instanceId
    eligibility :=
      if reasons.any RouteReason.rejectsCandidate then .rejected else .placementEligible
    reasons := reasons }

/-! ## Ranking -/

def healthRank : HealthStatus → ℕ
  | .available => 0
  | .degraded => 1
  | .unavailable => 2
  | .unknown => 2

/-- `usize::MAX`, the rank of what is not preferred. -/
def usizeMax : ℕ := 2 ^ 64 - 1

def preferenceRank {α : Type} [DecidableEq α] (preference : List α) (value : α) : ℕ :=
  (preference.findIdx? fun candidate => decide (candidate = value)).getD usizeMax

/-- Values before no value, smaller ones first. -/
def compareOptionalAsc {α : Type} [Ord α] : Option α → Option α → Ordering
  | some left, some right => compare left right
  | some _, none => .lt
  | none, some _ => .gt
  | none, none => .eq

/-- Values before no value, larger ones first. -/
def compareOptionalDesc {α : Type} [Ord α] : Option α → Option α → Ordering
  | some left, some right => compare right left
  | some _, none => .lt
  | none, some _ => .gt
  | none, none => .eq

def compareCandidates (request : RouteRequest) (left right : CapabilityInstanceBody) : Ordering :=
  (compare (healthRank left.health.status) (healthRank right.health.status)).then <|
  (compareOptionalDesc (left.hints.bind InstanceHints.reliability)
    (right.hints.bind InstanceHints.reliability)).then <|
  (compare (preferenceRank request.trustPreference left.trust)
    (preferenceRank request.trustPreference right.trust)).then <|
  (compare (preferenceRank request.dataBoundaryPreference left.dataBoundary)
    (preferenceRank request.dataBoundaryPreference right.dataBoundary)).then <|
  (compareOptionalAsc (left.hints.bind InstanceHints.latencyMs)
    (right.hints.bind InstanceHints.latencyMs)).then <|
  (compareOptionalAsc (left.hints.bind InstanceHints.monetaryCost)
    (right.hints.bind InstanceHints.monetaryCost)).then <|
  (compare (preferenceRank request.preferredInstanceIds left.instanceId)
    (preferenceRank request.preferredInstanceIds right.instanceId)).then <|
  compare left.instanceId right.instanceId

/-- The survivors in order; a pinned one stands in front, and without it there are none. -/
def rankCandidates (instances : List CapabilityInstanceBody)
    (candidates : List RouteCandidateEvaluation) (request : RouteRequest) : List String :=
  let ranked := ((instances.zip candidates).filter fun pair =>
    decide (pair.2.eligibility = .placementEligible)).map Prod.fst
  let ranked := ranked.insertionSort fun left right => compareCandidates request left right ≠ .gt
  match request.pinnedInstanceId with
  | none => ranked.map CapabilityInstanceBody.instanceId
  | some pin =>
    match ranked.findIdx? fun instance_ => decide (instance_.instanceId = pin) with
    | none => []
    | some index =>
      (ranked[index]?.toList ++ ranked.eraseIdx index).map CapabilityInstanceBody.instanceId

/-! ## The outcome -/

def pinBlockReason (registry : CapabilityRegistry) (request : RouteRequest)
    (candidates : List RouteCandidateEvaluation) : Option RouteBlockReason :=
  request.pinnedInstanceId.bind fun pin =>
    match registry.instance? pin with
    | none => some .pinnedInstanceNotFound
    | some instance_ =>
      if instance_.definition ≠ request.capability then some .pinnedInstanceCapabilityMismatch
      else if (candidates.find? fun candidate => decide (candidate.instanceId = pin)).all
          fun candidate => decide (candidate.eligibility ≠ .placementEligible) then
        some .pinnedInstanceIneligible
      else none

def selectionReason (request : RouteRequest) (candidateCount : ℕ) : RouteSelectionReason :=
  if request.pinnedInstanceId.isSome then .pinned
  else if candidateCount = 1 then .onlyPlacementEligibleCandidate
  else .lexicographicRanking

def interactionReasons (definition : CapabilityDefinitionBody) : List RouteInteractionReason :=
  (if definition.spec.effect.criticalActions ≠ [] then [.criticalApprovalRequired] else []) ++
    [.policyApprovalRequired]

def applyPolicy (definition : CapabilityDefinitionBody) (request : RouteRequest)
    (policy : Option BoundPolicyEvaluation) (candidates : List RouteCandidateEvaluation)
    (rankedInstanceIds : List String) : RouteOutcome :=
  match policy.map BoundPolicyEvaluation.outcome with
  | none => .blocked rankedInstanceIds candidates [.policyMissing] []
  | some (.deny _ reasons) => .blocked rankedInstanceIds candidates [.policyDenied] reasons
  | some (.ask _ reasons) =>
    .interactionRequired rankedInstanceIds candidates (interactionReasons definition) reasons
  | some (.allow ..) =>
    if definition.spec.effect.criticalActions ≠ [] then
      .interactionRequired rankedInstanceIds candidates [.criticalApprovalRequired] []
    else
      match rankedInstanceIds with
      | [] => .blocked [] candidates [.noPlacementEligibleCandidates] []
      | selectedInstanceId :: _ =>
        .selected selectedInstanceId rankedInstanceIds candidates
          (selectionReason request rankedInstanceIds.length)

def route (registry : CapabilityRegistry) (request : RouteRequest)
    (policy : Option BoundPolicyEvaluation) : Outcome RouteInputError RouteOutcome := do
  validateRequest request
  let definition ← Outcome.okOr (registry.definition request.capability)
    (.definitionNotFound request.capability.capabilityId request.capability.contractVersion)
  validatePolicyBinding definition request policy
  let instances := registry.instancesFor request.capability
  let candidates := instances.map fun instance_ => evaluateCandidate instance_ definition request
  match pinBlockReason registry request candidates with
  | some reason => pure (.blocked [] candidates [reason] [])
  | none =>
    if request.pinnedInstanceId = none ∧ candidates = [] then
      pure (.blocked [] candidates [.noCandidates] [])
    else
      let rankedInstanceIds := rankCandidates instances candidates request
      if rankedInstanceIds = [] then
        pure (.blocked [] candidates
          [if request.pinnedInstanceId.isSome then .pinnedInstanceIneligible
            else .noPlacementEligibleCandidates] [])
      else pure (applyPolicy definition request policy candidates rankedInstanceIds)

/-! ## Selected instances -/

theorem mem_rankCandidates {instances : List CapabilityInstanceBody}
    {candidates : List RouteCandidateEvaluation} {request : RouteRequest} {id : String}
    (h : id ∈ rankCandidates instances candidates request) :
    ∃ instance_ candidate, (instance_, candidate) ∈ instances.zip candidates ∧
      candidate.eligibility = .placementEligible ∧ instance_.instanceId = id := by
  unfold rankCandidates at h
  set survivors := ((instances.zip candidates).filter fun pair =>
    decide (pair.2.eligibility = .placementEligible)).map Prod.fst with hsurvivors
  set ranked := survivors.insertionSort
    (fun left right => compareCandidates request left right ≠ .gt) with hranked
  -- whatever the pin does, the listed instances come from the ranking
  have hfrom : ∃ instance_ ∈ ranked, instance_.instanceId = id := by
    dsimp only at h
    split at h
    · exact List.mem_map.mp h
    · split at h
      · simp at h
      · rename_i index _
        rw [List.mem_map] at h
        obtain ⟨instance_, hmem, hid⟩ := h
        refine ⟨instance_, ?_, hid⟩
        rcases List.mem_append.mp hmem with hfirst | hrest
        · exact List.mem_of_getElem? (Option.mem_toList.mp hfirst)
        · exact List.mem_of_mem_eraseIdx hrest
  obtain ⟨instance_, hmem, hid⟩ := hfrom
  rw [hranked, List.mem_insertionSort, hsurvivors, List.mem_map] at hmem
  obtain ⟨⟨instance_, candidate⟩, hpair, rfl⟩ := hmem
  rw [List.mem_filter] at hpair
  exact ⟨instance_, candidate, hpair.1, of_decide_eq_true hpair.2, hid⟩

theorem applyPolicy_selected {definition : CapabilityDefinitionBody} {request : RouteRequest}
    {policy : Option BoundPolicyEvaluation} {candidates given : List RouteCandidateEvaluation}
    {ranked listed : List String} {id : String} {reason : RouteSelectionReason}
    (h : applyPolicy definition request policy candidates ranked = .selected id listed given reason) :
    id ∈ ranked ∧ definition.spec.effect.criticalActions = [] ∧
      ∃ evaluation authorization sources, policy = some evaluation ∧
        evaluation.outcome = .allow authorization sources := by
  unfold applyPolicy at h
  split at h
  · simp at h
  · simp at h
  · simp at h
  · rename_i authorization sources houtcome
    obtain ⟨evaluation, hpolicy, hallow⟩ := Option.map_eq_some_iff.mp houtcome
    split at h
    · simp at h
    · rename_i hcritical
      cases ranked with
      | nil => simp at h
      | cons first rest =>
        simp only [RouteOutcome.selected.injEq] at h
        refine ⟨?_, Decidable.not_not.mp hcritical, evaluation, authorization, sources, hpolicy,
          hallow⟩
        rw [← h.1]
        exact List.mem_cons_self

/-- **A selected instance** is registered for the requested capability, no filter rejects it, the
policy allowed the request, and nothing about it is critical. -/
theorem route_selected {registry : CapabilityRegistry} {request : RouteRequest}
    {policy : Option BoundPolicyEvaluation} {id : String} {ranked : List String}
    {candidates : List RouteCandidateEvaluation} {reason : RouteSelectionReason}
    (h : route registry request policy = .ok (.selected id ranked candidates reason)) :
    ∃ definition instance_, registry.definition request.capability = some definition ∧
      instance_ ∈ registry.instancesFor request.capability ∧ instance_.instanceId = id ∧
      (∀ r ∈ candidateReasons instance_ definition request, r.rejectsCandidate = false) ∧
      definition.spec.effect.criticalActions = [] ∧
      ∃ evaluation authorization sources, policy = some evaluation ∧
        evaluation.outcome = .allow authorization sources := by
  simp only [route, Outcome.bind_eq_ok, Outcome.exists_unit, Outcome.okOr_eq_ok] at h
  obtain ⟨-, definition, hdefinition, -, h⟩ := h
  split at h
  · simp at h
  split at h
  · simp at h
  split at h
  · simp at h
  simp only [Outcome.pure_eq_ok] at h
  obtain ⟨hid, hcritical, hallow⟩ := applyPolicy_selected h
  obtain ⟨instance_, candidate, hzip, heligible, hinstance⟩ := mem_rankCandidates hid
  -- a pair of the zip is an instance with its own evaluation
  have hpair : (instance_, candidate) ∈ (registry.instancesFor request.capability).map
      fun instance_ => (instance_, evaluateCandidate instance_ definition request) := by
    rwa [List.map_prod_left_eq_zip]
  obtain ⟨found, hfound, heq⟩ := List.mem_map.mp hpair
  simp only [Prod.mk.injEq] at heq
  obtain ⟨rfl, rfl⟩ := heq
  refine ⟨definition, found, hdefinition, hfound, hinstance, ?_, hcritical, hallow⟩
  simp only [evaluateCandidate] at heligible
  split at heligible
  · simp at heligible
  · rename_i hnone
    simpa using hnone

end Xgeny
