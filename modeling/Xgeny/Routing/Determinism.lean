import Xgeny.Routing.Ranking

set_option autoImplicit false

/-!
# Deterministic routing

A registry is built by registrations, in some order. What a request is routed to depends on the set
of registered documents only, and an allowed request is routed to the first of the eligible
instances.

* `registerAll`: a sequence of registrations;
* `Registered`: what a registry holds after some of them;
* `registerAll_perm`: another accepted order builds the same registry;
* **`deterministic_routing`**: the law of the router.
-/

namespace Xgeny

theorem BTreeMap.get_insert_new_iff {κ β : Type} [Ord κ] [Std.TransOrd κ] [Std.LawfulEqOrd κ]
    {m : BTreeMap κ β} {k a : κ} {v w : β} (h : k ∉ m) :
    (m.insert k v)[a]? = some w ↔ m[a]? = some w ∨ (v = w ∧ k = a) := by
  classical
  rw [BTreeMap.get_insert]
  by_cases hka : k = a
  · rw [if_pos hka, ← hka, BTreeMap.get_eq_none_iff.mpr h]
    simp
  · rw [if_neg hka]
    simp [hka]

/-! ## Registrations -/

/-- A document that is registered. -/
inductive Registration where
  | definition (definition : CapabilityDefinitionBody)
  | instance_ (instance_ : CapabilityInstanceBody)
  deriving DecidableEq

namespace CapabilityRegistry

def register (self : CapabilityRegistry) :
    Registration → Outcome RegistryError CapabilityRegistry
  | .definition definition => self.registerSchemaValidatedDefinition definition
  | .instance_ instance_ => self.registerSchemaValidatedInstance instance_

/-- Register documents one after the other, and stop at the first that is refused. -/
def registerAll (registrations : List Registration) : Outcome RegistryError CapabilityRegistry :=
  Outcome.foldl register new registrations

/-- What a registry holds after the registrations `seen`. -/
structure Registered (seen : List Registration) (registry : CapabilityRegistry) : Prop where
  wellFormed : registry.WellFormed
  definitions : ∀ key definition, registry.definitions[key]? = some definition ↔
    .definition definition ∈ seen ∧ definition.reference.key = key
  instances : ∀ id instance_, registry.instances[id]? = some instance_ ↔
    .instance_ instance_ ∈ seen ∧ instance_.instanceId = id

theorem registered_new : Registered [] new where
  wellFormed := .new
  definitions := by simp [new]
  instances := by simp [new]

theorem Registered.definition {seen : List Registration} {self next : CapabilityRegistry}
    {definition : CapabilityDefinitionBody} (h : Registered seen self)
    (hok : self.registerSchemaValidatedDefinition definition = .ok next) :
    Registered (seen ++ [.definition definition]) next := by
  refine ⟨h.wellFormed.registerDefinition hok, ?_, ?_⟩
  all_goals
    simp only [registerSchemaValidatedDefinition, Outcome.bind_eq_ok, Outcome.exists_unit,
      BTreeMap.insertNew_eq_ok, Outcome.pure_eq_ok] at hok
    obtain ⟨-, definitions, ⟨hnew, rfl⟩, rfl⟩ := hok
  · intro key found
    rw [BTreeMap.get_insert_new_iff hnew, h.definitions, List.mem_append, List.mem_singleton]
    constructor
    · rintro (⟨hmem, hkey⟩ | ⟨rfl, hkey⟩)
      · exact ⟨Or.inl hmem, hkey⟩
      · exact ⟨Or.inr rfl, hkey⟩
    · rintro ⟨hmem | hmem, hkey⟩
      · exact Or.inl ⟨hmem, hkey⟩
      · obtain rfl := Registration.definition.inj hmem
        exact Or.inr ⟨rfl, hkey⟩
  · intro id found
    rw [h.instances]
    simp

theorem Registered.instance_ {seen : List Registration} {self next : CapabilityRegistry}
    {instance_ : CapabilityInstanceBody} (h : Registered seen self)
    (hok : self.registerSchemaValidatedInstance instance_ = .ok next) :
    Registered (seen ++ [.instance_ instance_]) next := by
  refine ⟨h.wellFormed.registerInstance hok, ?_, ?_⟩
  all_goals
    simp only [registerSchemaValidatedInstance, Outcome.bind_eq_ok, Outcome.exists_unit,
      Outcome.failIf_eq_ok, Outcome.okOr_eq_ok, Outcome.pure_eq_ok] at hok
    obtain ⟨-, hnew, definition, -, -, rfl⟩ := hok
  · intro key found
    rw [h.definitions]
    simp
  · intro id found
    rw [BTreeMap.get_insert_new_iff hnew, h.instances, List.mem_append, List.mem_singleton]
    constructor
    · rintro (⟨hmem, hid⟩ | ⟨rfl, hid⟩)
      · exact ⟨Or.inl hmem, hid⟩
      · exact ⟨Or.inr rfl, hid⟩
    · rintro ⟨hmem | hmem, hid⟩
      · exact Or.inl ⟨hmem, hid⟩
      · obtain rfl := Registration.instance_.inj hmem
        exact Or.inr ⟨rfl, hid⟩

/-- **What a registry holds** is exactly what was registered. -/
theorem registered_of_registerAll {registrations : List Registration}
    {registry : CapabilityRegistry} (h : registerAll registrations = .ok registry) : Registered registrations registry := by
  refine Outcome.foldl_induction registered_new ?_ h
  intro seen self registration next _ hself hok
  cases registration with
  | definition definition => exact hself.definition hok
  | instance_ instance_ => exact hself.instance_ hok

/-- **The order of registrations does not matter**, when both orders are accepted. -/
theorem registerAll_perm {registrations registrations' : List Registration}
    {registry registry' : CapabilityRegistry} (hperm : registrations.Perm registrations')
    (h : registerAll registrations = .ok registry)
    (h' : registerAll registrations' = .ok registry') : registry = registry' := by
  have hregistered := registered_of_registerAll h
  have hregistered' := registered_of_registerAll h'
  obtain ⟨definitions, instances⟩ := registry
  obtain ⟨definitions', instances'⟩ := registry'
  congr 1
  · refine Std.ExtTreeMap.ext_getElem? fun key => Option.ext fun definition => ?_
    exact (hregistered.definitions key definition).trans
      ((and_congr_left fun _ => hperm.mem_iff).trans (hregistered'.definitions key definition).symm)
  · refine Std.ExtTreeMap.ext_getElem? fun id => Option.ext fun instance_ => ?_
    exact (hregistered.instances id instance_).trans
      ((and_congr_left fun _ => hperm.mem_iff).trans (hregistered'.instances id instance_).symm)

/-! ## Instances of a capability -/

section

variable {registry : CapabilityRegistry}

theorem WellFormed.mem_instancesFor (h : registry.WellFormed) {reference : CapabilityRef}
    {instance_ : CapabilityInstanceBody} : instance_ ∈ registry.instancesFor reference ↔
      registry.instance? instance_.instanceId = some instance_ ∧
        instance_.definition = reference := by
  rw [instancesFor, List.mem_filter, BTreeMap.mem_vals_iff, decide_eq_true_eq]
  constructor
  · rintro ⟨⟨id, hid⟩, hreference⟩
    have hname := h.instanceId id instance_ hid
    subst hname
    exact ⟨hid, CapabilityRef.key_injective hreference⟩
  · rintro ⟨hid, rfl⟩
    exact ⟨⟨_, hid⟩, rfl⟩

theorem WellFormed.nodup_instancesFor (h : registry.WellFormed) (reference : CapabilityRef) :
    ((registry.instancesFor reference).map CapabilityInstanceBody.instanceId).Nodup := by
  refine List.Nodup.sublist (List.filter_sublist.map _) ?_
  -- the ids of the values are the keys
  have hids : (BTreeMap.vals registry.instances).map CapabilityInstanceBody.instanceId =
      registry.instances.keys := by
    rw [BTreeMap.vals, List.map_map, ← Std.ExtTreeMap.map_fst_toList_eq_keys]
    refine List.map_congr_left fun entry hentry => ?_
    exact h.instanceId entry.1 entry.2 (Std.ExtTreeMap.mem_toList_iff_getElem?_eq_some.mp hentry)
  rw [hids]
  exact Std.ExtTreeMap.nodup_keys

end

end CapabilityRegistry

/-! ## The law -/

/-- The instance is registered for exactly the requested version, and no filter rejects it. -/
structure Eligible (registry : CapabilityRegistry) (definition : CapabilityDefinitionBody)
    (request : RouteRequest) (instance_ : CapabilityInstanceBody) : Prop where
  registered : registry.instance? instance_.instanceId = some instance_
  version : instance_.definition = request.capability
  reasons : ∀ reason ∈ (evaluateCandidate instance_ definition request).reasons,
    reason.rejectsCandidate = false

/-- The pin, when there is one, names an eligible instance. -/
def PinEligible (registry : CapabilityRegistry) (definition : CapabilityDefinitionBody)
    (request : RouteRequest) : Prop :=
  ∀ pin, request.pinnedInstanceId = some pin →
    ∃ instance_, Eligible registry definition request instance_ ∧ instance_.instanceId = pin

def RouteOutcome.rankedInstanceIds : RouteOutcome → List String
  | .selected _ rankedInstanceIds _ _ => rankedInstanceIds
  | .interactionRequired rankedInstanceIds _ _ _ => rankedInstanceIds
  | .blocked rankedInstanceIds _ _ _ => rankedInstanceIds

/-- The reasons that a pin is refused for. -/
def RouteBlockReason.isAboutPin : RouteBlockReason → Bool
  | .pinnedInstanceNotFound => true
  | .pinnedInstanceCapabilityMismatch => true
  | .pinnedInstanceIneligible => true
  | _ => false

/-- A strict total order on instances of distinct ids. -/
structure StrictlyOrders (cmp : CapabilityInstanceBody → CapabilityInstanceBody → Ordering) :
    Prop where
  irrefl : ∀ a, cmp a a ≠ .lt
  trans : ∀ a b c, cmp a b = .lt → cmp b c = .lt → cmp a c = .lt
  total : ∀ a b, a.instanceId ≠ b.instanceId → cmp a b = .lt ∨ cmp b a = .lt

/-- What a request with a bound evaluation is routed to. -/
structure RoutingLaw (registry : CapabilityRegistry) (definition : CapabilityDefinitionBody)
    (request : RouteRequest) (evaluation : BoundPolicyEvaluation) (outcome : RouteOutcome) :
    Prop where
  selected : ∀ id ranked candidates reason, outcome = .selected id ranked candidates reason →
    (∃ authorization sources, evaluation.outcome = .allow authorization sources) ∧
      definition.spec.effect.criticalActions = [] ∧
      ∃ instance_, Eligible registry definition request instance_ ∧ instance_.instanceId = id ∧
        (request.pinnedInstanceId = none → ∀ other, Eligible registry definition request other →
          other ≠ instance_ → compareCandidates request instance_ other = .lt) ∧
        ∀ pin, request.pinnedInstanceId = some pin → id = pin
  selects : request.pinnedInstanceId = none →
    (∃ instance_, Eligible registry definition request instance_) →
    (∃ authorization sources, evaluation.outcome = .allow authorization sources) →
    definition.spec.effect.criticalActions = [] →
    ∃ id ranked candidates reason, outcome = .selected id ranked candidates reason
  ranking : PinEligible registry definition request →
    ∃ ranked : List CapabilityInstanceBody,
      outcome.rankedInstanceIds = ranked.map CapabilityInstanceBody.instanceId ∧
      (∀ instance_, instance_ ∈ ranked ↔ Eligible registry definition request instance_) ∧
      (ranked.map CapabilityInstanceBody.instanceId).Nodup ∧
      (∀ pin, request.pinnedInstanceId = some pin →
        ranked.head?.map CapabilityInstanceBody.instanceId = some pin) ∧
      (if request.pinnedInstanceId = none then ranked else ranked.tail).Pairwise
        fun left right => compareCandidates request left right = .lt
  refused : ¬ PinEligible registry definition request →
    ∃ candidates reason, outcome = .blocked [] candidates [reason] [] ∧ reason.isAboutPin = true

section

variable {registry : CapabilityRegistry} {definition : CapabilityDefinitionBody}
  {request : RouteRequest}

theorem compareCandidates_strict : StrictlyOrders (compareCandidates request) where
  irrefl a := by
    have hself : compareCandidates request a a = .eq := Std.ReflCmp.compare_self
    rw [hself]
    decide
  trans _ _ _ := Std.TransCmp.lt_trans
  total a b hids := by
    have hswap : compareCandidates request b a = (compareCandidates request a b).swap :=
      Std.OrientedCmp.eq_swap
    have hne : compareCandidates request a b ≠ .eq := compareCandidates_ne_eq hids
    rw [hswap]
    cases hcmp : compareCandidates request a b <;> simp_all

theorem mem_eligible (hregistry : registry.WellFormed) {instance_ : CapabilityInstanceBody} :
    instance_ ∈ (registry.instancesFor request.capability).filter (isEligible definition request) ↔
      Eligible registry definition request instance_ := by
  rw [List.mem_filter, hregistry.mem_instancesFor, isEligible_iff]
  exact ⟨fun ⟨⟨hid, hversion⟩, hreasons⟩ => ⟨hid, hversion, hreasons⟩,
    fun h => ⟨⟨h.registered, h.version⟩, h.reasons⟩⟩

theorem Eligible.unique {a b : CapabilityInstanceBody} (ha : Eligible registry definition request a)
    (hb : registry.instance? a.instanceId = some b) : a = b :=
  Option.some.inj (ha.registered.symm.trans hb)

theorem pinBlockReason_eq_none (hregistry : registry.WellFormed) :
    pinBlockReason registry request ((registry.instancesFor request.capability).map fun instance_ =>
      evaluateCandidate instance_ definition request) = none ↔
      PinEligible registry definition request := by
  unfold pinBlockReason PinEligible
  cases hpin : request.pinnedInstanceId with
  | none => simp
  | some pin =>
    simp only [Option.bind_some, Option.some.injEq, forall_eq']
    cases hinstance : registry.instance? pin with
    | none =>
      simp only [reduceCtorEq, false_iff]
      rintro ⟨found, hfound, rfl⟩
      rw [hfound.registered] at hinstance
      simp at hinstance
    | some pinned =>
      have hid : pinned.instanceId = pin := hregistry.instanceId pin pinned hinstance
      -- only the pinned instance has this id
      have honly : ∀ {found}, Eligible registry definition request found →
          found.instanceId = pin → found = pinned := by
        rintro found hfound rfl
        exact hfound.unique hinstance
      by_cases hversion : pinned.definition = request.capability
      · have hmem : pinned ∈ registry.instancesFor request.capability :=
          hregistry.mem_instancesFor.mpr ⟨by rwa [hid], hversion⟩
        have hsome : (((registry.instancesFor request.capability).map fun instance_ =>
            evaluateCandidate instance_ definition request).find? fun candidate =>
              decide (candidate.instanceId = pin)).isSome := by
          rw [List.find?_isSome]
          exact ⟨_, List.mem_map_of_mem hmem, decide_eq_true hid⟩
        obtain ⟨candidate, hcandidate⟩ := Option.isSome_iff_exists.mp hsome
        have hfound : candidate = evaluateCandidate pinned definition request := by
          obtain ⟨found, hin, rfl⟩ := List.mem_map.mp (List.mem_of_find?_eq_some hcandidate)
          have hmatch := List.find?_some hcandidate
          have hname : found.instanceId = pin := of_decide_eq_true hmatch
          have hregistered := (hregistry.mem_instancesFor.mp hin).1
          rw [hname, hinstance] at hregistered
          rw [Option.some.inj hregistered]
        simp only [hversion, ne_eq, not_true_eq_false, if_false, hcandidate, hfound,
          Option.all_some, decide_eq_true_eq, ite_eq_right_iff, reduceCtorEq, imp_false, Decidable.not_not]
        constructor
        · intro hok
          exact ⟨pinned, (mem_eligible hregistry).mp (List.mem_filter.mpr
            ⟨hmem, decide_eq_true hok⟩), hid⟩
        · rintro ⟨found, hfound, hname⟩
          rw [honly hfound hname] at hfound
          exact of_decide_eq_true (List.mem_filter.mp ((mem_eligible hregistry).mpr hfound)).2
      · simp only [hversion, ne_eq, not_false_eq_true, if_true, reduceCtorEq, false_iff]
        rintro ⟨found, hfound, hname⟩
        rw [honly hfound hname] at hfound
        exact hversion hfound.version

theorem pinBlockReason_isAboutPin {candidates : List RouteCandidateEvaluation}
    {reason : RouteBlockReason} (h : pinBlockReason registry request candidates = some reason) :
    reason.isAboutPin = true := by
  obtain ⟨pin, -, h⟩ := Option.bind_eq_some_iff.mp h
  split at h
  · obtain rfl := Option.some.inj h
    rfl
  · split at h
    · obtain rfl := Option.some.inj h
      rfl
    · split at h
      · obtain rfl := Option.some.inj h
        rfl
      · simp at h

theorem applyPolicy_allow {policy : Option BoundPolicyEvaluation}
    {evaluation : BoundPolicyEvaluation} {candidates : List RouteCandidateEvaluation} {id : String}
    {rest : List String} (hpolicy : policy = some evaluation)
    (hallow : ∃ authorization sources, evaluation.outcome = .allow authorization sources)
    (hcritical : definition.spec.effect.criticalActions = []) :
    applyPolicy definition request policy candidates (id :: rest) = .selected id (id :: rest)
      candidates (selectionReason request (id :: rest).length) := by
  obtain ⟨authorization, sources, hallow⟩ := hallow
  rw [applyPolicy, hpolicy, Option.map_some, hallow]
  simp [hcritical]

theorem rankedInstanceIds_applyPolicy {policy : Option BoundPolicyEvaluation}
    {candidates : List RouteCandidateEvaluation} {ranked : List String} (hne : ranked ≠ []) :
    (applyPolicy definition request policy candidates ranked).rankedInstanceIds = ranked := by
  unfold applyPolicy
  split
  · rfl
  · rfl
  · rfl
  · split
    · rfl
    · cases ranked with
      | nil => exact absurd rfl hne
      | cons id rest => rfl

section

variable {policy : Option BoundPolicyEvaluation} (hregistry : registry.WellFormed)
  (hrequest : validateRequest request = .ok ())
  (hdefinition : registry.definition request.capability = some definition)
  (hpolicy : validatePolicyBinding definition request policy = .ok ())

include hregistry hrequest hdefinition hpolicy

theorem route_refused (hpin : ¬ PinEligible registry definition request) :
    ∃ candidates reason, route registry request policy = .ok (.blocked [] candidates [reason] []) ∧
      reason.isAboutPin = true := by
  rw [← pinBlockReason_eq_none hregistry] at hpin
  obtain ⟨reason, hreason⟩ := Option.ne_none_iff_exists'.mp hpin
  refine ⟨(registry.instancesFor request.capability).map fun instance_ =>
    evaluateCandidate instance_ definition request, reason, ?_, pinBlockReason_isAboutPin hreason⟩
  simp only [route, Outcome.bind_eq_ok, Outcome.exists_unit, Outcome.okOr_eq_ok, hrequest,
    hdefinition, Option.some.injEq, exists_eq_left', hpolicy, true_and, hreason]
  rfl

/-- With an eligible pin or none, the ranking decides: without an eligible instance the request is
blocked, and otherwise the policy has the last word. -/
theorem route_ranked (hpin : PinEligible registry definition request) :
    ∃ ranked candidates outcome, Ranked request
        ((registry.instancesFor request.capability).filter (isEligible definition request)) ranked ∧
      route registry request policy = .ok outcome ∧
      ((ranked = [] ∧ ∃ reason, outcome = .blocked [] candidates [reason] []) ∨
        (ranked ≠ [] ∧ outcome = applyPolicy definition request policy candidates
          (ranked.map CapabilityInstanceBody.instanceId))) := by
  have hpinned : ∀ pin, request.pinnedInstanceId = some pin →
      ∃ instance_ ∈ registry.instancesFor request.capability,
        isEligible definition request instance_ = true ∧ instance_.instanceId = pin := by
    intro pin heq
    obtain ⟨instance_, heligible, hid⟩ := hpin pin heq
    obtain ⟨hmem, hok⟩ := List.mem_filter.mp ((mem_eligible hregistry).mpr heligible)
    exact ⟨instance_, hmem, hok, hid⟩
  obtain ⟨ranked, hranked, hids⟩ :=
    rankCandidates_spec (hregistry.nodup_instancesFor request.capability) hpinned
  have hnone := (pinBlockReason_eq_none hregistry).mpr hpin
  set candidates := (registry.instancesFor request.capability).map fun instance_ =>
    evaluateCandidate instance_ definition request with hcandidates
  have hroute : ∀ outcome, route registry request policy = .ok outcome ↔
      (if request.pinnedInstanceId = none ∧ candidates = [] then
        pure (.blocked [] candidates [.noCandidates] [])
      else if ranked.map CapabilityInstanceBody.instanceId = [] then
        pure (.blocked [] candidates [if request.pinnedInstanceId.isSome then
          .pinnedInstanceIneligible else .noPlacementEligibleCandidates] [])
      else pure (applyPolicy definition request policy candidates
        (ranked.map CapabilityInstanceBody.instanceId)) : Outcome RouteInputError RouteOutcome) =
        .ok outcome := by
    intro outcome
    simp only [route, Outcome.bind_eq_ok, Outcome.exists_unit, Outcome.okOr_eq_ok, hrequest,
      hdefinition, Option.some.injEq, exists_eq_left', hpolicy, true_and, ← hcandidates, hnone,
      hids]
  have hempty : candidates = [] → ranked = [] := by
    intro hnil
    have hinstances := List.map_eq_nil_iff.mp hnil
    have hperm := hranked.once
    rw [hinstances] at hperm
    exact List.perm_nil.mp hperm
  by_cases hcase : request.pinnedInstanceId = none ∧ candidates = []
  · refine ⟨ranked, candidates, _, hranked, (hroute _).mpr (if_pos hcase), Or.inl ⟨?_, _, rfl⟩⟩
    exact hempty hcase.2
  · by_cases hnil : ranked = []
    · have hids : ranked.map CapabilityInstanceBody.instanceId = [] := List.map_eq_nil_iff.mpr hnil
      exact ⟨ranked, candidates, .blocked [] candidates [if request.pinnedInstanceId.isSome then
        .pinnedInstanceIneligible else .noPlacementEligibleCandidates] [], hranked,
        (hroute _).mpr (by rw [if_neg hcase, if_pos hids]; rfl), Or.inl ⟨hnil, _, rfl⟩⟩
    · refine ⟨ranked, candidates, _, hranked, (hroute _).mpr ?_, Or.inr ⟨hnil, rfl⟩⟩
      rw [if_neg hcase, if_neg (mt List.map_eq_nil_iff.mp hnil)]
      rfl

end

theorem Ranked.first {eligible rest : List CapabilityInstanceBody} {first : CapabilityInstanceBody}
    (h : Ranked request eligible (first :: rest)) :
    (request.pinnedInstanceId = none → ∀ other ∈ first :: rest, other ≠ first →
      compareCandidates request first other = .lt) ∧
      ∀ pin, request.pinnedInstanceId = some pin → first.instanceId = pin := by
  constructor
  · intro hnone other hother hne
    have hascending := h.ascending
    rw [if_pos hnone] at hascending
    exact List.rel_of_pairwise_cons hascending ((List.mem_cons.mp hother).resolve_left hne)
  · intro pin hpin
    exact Option.some.inj (h.pinned pin hpin)

section

variable {evaluation : BoundPolicyEvaluation} {candidates : List RouteCandidateEvaluation}
  {ranked : List CapabilityInstanceBody} {first : CapabilityInstanceBody}
  {rest : List CapabilityInstanceBody}

theorem applyPolicy_first {outcome : RouteOutcome}
    (houtcome : outcome = applyPolicy definition request (some evaluation) candidates
      ((first :: rest).map CapabilityInstanceBody.instanceId)) {id : String} {listed : List String}
    {given : List RouteCandidateEvaluation} {reason : RouteSelectionReason}
    (h : outcome = .selected id listed given reason) :
    (∃ authorization sources, evaluation.outcome = .allow authorization sources) ∧
      definition.spec.effect.criticalActions = [] ∧ first.instanceId = id := by
  rw [houtcome] at h
  obtain ⟨-, hcritical, found, authorization, sources, hfound, hallow⟩ := applyPolicy_selected h
  obtain rfl := Option.some.inj hfound
  rw [List.map_cons, applyPolicy_allow rfl ⟨authorization, sources, hallow⟩ hcritical,
    RouteOutcome.selected.injEq] at h
  exact ⟨⟨authorization, sources, hallow⟩, hcritical, h.1⟩

end

/-- **The law of the router** holds of what it returns. -/
theorem routingLaw {evaluation : BoundPolicyEvaluation} (hregistry : registry.WellFormed)
    (hrequest : validateRequest request = .ok ())
    (hdefinition : registry.definition request.capability = some definition)
    (hpolicy : validatePolicyBinding definition request (some evaluation) = .ok ()) :
    ∃ outcome, route registry request (some evaluation) = .ok outcome ∧
      RoutingLaw registry definition request evaluation outcome := by
  by_cases hpin : PinEligible registry definition request
  · obtain ⟨ranked, candidates, outcome, hranked, hroute, hcases⟩ :=
      route_ranked hregistry hrequest hdefinition hpolicy hpin
    have hmem : ∀ instance_, instance_ ∈ ranked ↔ Eligible registry definition request instance_ :=
      fun instance_ => hranked.once.mem_iff.trans (mem_eligible hregistry)
    refine ⟨outcome, hroute, ?_, ?_, ?_, fun hnot => absurd hpin hnot⟩
    · intro id listed given reason heq
      rcases hcases with ⟨-, blocked, houtcome⟩ | ⟨hne, houtcome⟩
      · rw [houtcome] at heq
        simp at heq
      · obtain ⟨first, rest, rfl⟩ := List.exists_cons_of_ne_nil hne
        obtain ⟨hallow, hcritical, hid⟩ := applyPolicy_first houtcome heq
        obtain ⟨hleast, hpinned⟩ := hranked.first
        refine ⟨hallow, hcritical, first, (hmem first).mp List.mem_cons_self, hid, ?_, ?_⟩
        · intro hnone other hother
          exact hleast hnone other ((hmem other).mpr hother)
        · intro pin hsome
          exact hid.symm.trans (hpinned pin hsome)
    · intro _ ⟨instance_, heligible⟩ hallow hcritical
      have hin := (hmem instance_).mpr heligible
      rcases hcases with ⟨hnil, -⟩ | ⟨hne, houtcome⟩
      · rw [hnil] at hin
        simp at hin
      · obtain ⟨first, rest, rfl⟩ := List.exists_cons_of_ne_nil hne
        rw [List.map_cons, applyPolicy_allow rfl hallow hcritical] at houtcome
        exact ⟨_, _, _, _, houtcome⟩
    · intro _
      refine ⟨ranked, ?_, hmem, ?_, hranked.pinned, hranked.ascending⟩
      · rcases hcases with ⟨hnil, blocked, houtcome⟩ | ⟨hne, houtcome⟩
        · rw [houtcome, hnil]
          rfl
        · rw [houtcome]
          exact rankedInstanceIds_applyPolicy (mt List.map_eq_nil_iff.mp hne)
      · exact ((hranked.once.map _).nodup_iff).mpr ((hregistry.nodup_instancesFor _).sublist
          (List.filter_sublist.map _))
  · obtain ⟨candidates, reason, hroute, habout⟩ :=
      route_refused hregistry hrequest hdefinition hpolicy hpin
    refine ⟨_, hroute, ?_, ?_, fun heligible => absurd heligible hpin,
      fun _ => ⟨candidates, reason, rfl, habout⟩⟩
    · intro id ranked candidates' reason' heq
      simp at heq
    · intro hnone
      exact absurd (fun pin heq => by rw [hnone] at heq; simp at heq) hpin

end

/-- **Deterministic routing.** A valid request with a bound evaluation is routed by the law above,
the comparison of candidates orders them strictly, and another accepted order of the registrations
changes nothing. -/
theorem deterministic_routing {registrations : List Registration} {registry : CapabilityRegistry}
    (hregistry : CapabilityRegistry.registerAll registrations = .ok registry)
    {request : RouteRequest} (hrequest : validateRequest request = .ok ())
    {definition : CapabilityDefinitionBody}
    (hdefinition : registry.definition request.capability = some definition)
    {evaluation : BoundPolicyEvaluation}
    (hpolicy : validatePolicyBinding definition request (some evaluation) = .ok ()) :
    (∃ outcome, route registry request (some evaluation) = .ok outcome ∧
      RoutingLaw registry definition request evaluation outcome) ∧
      StrictlyOrders (compareCandidates request) ∧
      ∀ (registrations' : List Registration) (registry' : CapabilityRegistry),
        registrations.Perm registrations' →
        CapabilityRegistry.registerAll registrations' = .ok registry' →
        route registry' request (some evaluation) = route registry request (some evaluation) := by
  have hregistered := CapabilityRegistry.registered_of_registerAll hregistry
  refine ⟨routingLaw hregistered.wellFormed hrequest hdefinition hpolicy, compareCandidates_strict,
    fun registrations' registry' hperm hregistry' => ?_⟩
  rw [CapabilityRegistry.registerAll_perm hperm hregistry hregistry']

/-! ## Two instances -/

def listDefinition : CapabilityDefinitionBody where
  apiVersion := apiVersionV1alpha1
  extensions := ∅
  requiredExtensions := []
  metadata := ⟨"filesystem.list", "1.0.0", "List", ∅⟩
  spec :=
    { summary := "list"
      inputSchema := .bool true
      outputSchema := .bool true
      effect := ⟨.readOnly, [⟨"filesystem:list", "/path"⟩], []⟩
      requiredCapabilities := []
      execution := ⟨[.sync], false, true, false, 1000, 1000⟩
      verification := []
      discovery := none }

def listInstance (instanceId : String) (latencyMs : Option UInt64) : CapabilityInstanceBody where
  apiVersion := apiVersionV1alpha1
  extensions := ∅
  requiredExtensions := []
  instanceId := instanceId
  definition := listDefinition.reference
  source := .builtin
  placement := .localHost
  platform := ⟨.any, .any⟩
  trust := .verified
  dataBoundary := .localHost
  health := ⟨.available, "2026-01-01T00:00:00Z", none⟩
  auth := ⟨.notRequired, none⟩
  features := ⟨true, false, false, false⟩
  hints := some ⟨latencyMs, none, none⟩
  binding := ⟨"fs", none, none⟩

def listRequest (pinnedInstanceId : Option String) : RouteRequest where
  capability := listDefinition.reference
  targetPlatform := ⟨.linux, .x86_64⟩
  requiredFeatures := ⟨.sync, false, true, false⟩
  allowedTrustLevels := [.verified]
  allowedDataBoundaries := [.localHost]
  trustPreference := []
  dataBoundaryPreference := []
  preferredInstanceIds := []
  pinnedInstanceId := pinnedInstanceId

def listEvaluation : BoundPolicyEvaluation where
  request :=
    { apiVersion := apiVersionV1alpha1
      requestId := "request"
      runId := "run"
      stepId := "step"
      capability := listDefinition.reference
      effectClass := .readOnly
      requestedScopes := ["filesystem:list"]
      resources := [⟨"filesystem:list", "workspace:a"⟩]
      criticalActions := []
      requestedLifetime := .once }
  outcome := .allow ⟨.once, ["filesystem:list"], [⟨"filesystem:list", "workspace:a"⟩], []⟩ []

/-- Two instances of one definition; the second one answers faster. -/
def listRegistrations : List Registration :=
  [.definition listDefinition, .instance_ (listInstance "a" (some 20)),
    .instance_ (listInstance "b" (some 10))]

theorem listRegistry : ∃ registry, CapabilityRegistry.registerAll listRegistrations = .ok registry ∧
    (decide (registry.definition listDefinition.reference = some listDefinition) &&
      decide (registry.instance? "a" = some (listInstance "a" (some 20))) &&
      decide (registry.instance? "c" = none)) = true := by
  refine Outcome.exists_ok_of_any ?_
  decide

theorem deterministic_routing_sample :
    ∃ registry, CapabilityRegistry.registerAll listRegistrations = .ok registry ∧
      ∃ outcome, route registry (listRequest none) (some listEvaluation) = .ok outcome ∧
        RoutingLaw registry listDefinition (listRequest none) listEvaluation outcome := by
  obtain ⟨registry, hregistry, hfound⟩ := listRegistry
  simp only [Bool.and_eq_true, decide_eq_true_eq] at hfound
  exact ⟨registry, hregistry,
    (deterministic_routing hregistry (by decide) hfound.1.1 (by decide)).1⟩

/-- **A pin that is refused empties the ranking**, although there are eligible instances. -/
theorem refused_pin_empties_ranking :
    ∃ registry, CapabilityRegistry.registerAll listRegistrations = .ok registry ∧
      validateRequest (listRequest (some "c")) = .ok () ∧
      registry.definition listDefinition.reference = some listDefinition ∧
      validatePolicyBinding listDefinition (listRequest (some "c")) (some listEvaluation) = .ok () ∧
      Eligible registry listDefinition (listRequest (some "c")) (listInstance "a" (some 20)) ∧
      ∃ outcome, route registry (listRequest (some "c")) (some listEvaluation) = .ok outcome ∧
        "a" ∉ outcome.rankedInstanceIds := by
  obtain ⟨registry, hregistry, hfound⟩ := listRegistry
  simp only [Bool.and_eq_true, decide_eq_true_eq] at hfound
  obtain ⟨⟨hdefinition, hinstance⟩, habsent⟩ := hfound
  have hwellFormed := (CapabilityRegistry.registered_of_registerAll hregistry).wellFormed
  have hrequest : validateRequest (listRequest (some "c")) = .ok () := by decide
  have hpolicy : validatePolicyBinding listDefinition (listRequest (some "c"))
      (some listEvaluation) = .ok () := by decide
  have heligible : Eligible registry listDefinition (listRequest (some "c"))
      (listInstance "a" (some 20)) := ⟨hinstance, rfl, by decide⟩
  have hpin : ¬ PinEligible registry listDefinition (listRequest (some "c")) := by
    intro hpin
    obtain ⟨pinned, hpinned, hid⟩ := hpin "c" rfl
    have hregistered := hpinned.registered
    rw [hid, habsent] at hregistered
    simp at hregistered
  obtain ⟨candidates, reason, hroute, -⟩ :=
    route_refused hwellFormed hrequest hdefinition hpolicy hpin
  exact ⟨registry, hregistry, hrequest, hdefinition, hpolicy, heligible, _, hroute, by
    simp [RouteOutcome.rankedInstanceIds]⟩

end Xgeny
