import Xgeny.Routing

set_option autoImplicit false

/-!
# The order of candidates

Candidates are compared by eight criteria, one after the other; the last one is the id of the
instance, so that two instances only tie when they have one id.

* `compareCandidates_trans`: the comparison is oriented and transitive;
* `compareCandidates_ne_eq`: it tells instances of different ids apart;
* `eligibleInstances`: the instances that no filter rejects;
* **`rankCandidates_spec`**: the ranking lists each of them once, in ascending order behind a pin.
-/

namespace Xgeny

/-! ## Optional values -/

section

variable {α : Type} [Ord α]

instance compareOptionalAsc_trans [Std.TransOrd α] :
    Std.TransCmp (compareOptionalAsc : Option α → Option α → Ordering) where
  eq_swap {a b} := by
    cases a <;> cases b <;> simp [compareOptionalAsc]
    exact Std.OrientedCmp.eq_swap
  isLE_trans {a b c} := by
    cases a <;> cases b <;> cases c <;> simp [compareOptionalAsc]
    exact Std.TransCmp.isLE_trans

instance compareOptionalDesc_trans [Std.TransOrd α] :
    Std.TransCmp (compareOptionalDesc : Option α → Option α → Ordering) where
  eq_swap {a b} := by
    cases a <;> cases b <;> simp [compareOptionalDesc]
    exact Std.OrientedCmp.eq_swap
  isLE_trans {a b c} := by
    cases a <;> cases b <;> cases c <;> simp [compareOptionalDesc]
    exact fun hab hbc => Std.TransCmp.isLE_trans hbc hab

end

/-! ## Candidates -/

section

variable {request : RouteRequest}

theorem compareCandidates_eq : compareCandidates request =
    compareLex (fun a b => compare (healthRank a.health.status) (healthRank b.health.status))
      (compareLex (fun a b => compareOptionalDesc (a.hints.bind InstanceHints.reliability)
          (b.hints.bind InstanceHints.reliability))
      (compareLex (fun a b => compare (preferenceRank request.trustPreference a.trust)
          (preferenceRank request.trustPreference b.trust))
      (compareLex (fun a b => compare (preferenceRank request.dataBoundaryPreference a.dataBoundary)
          (preferenceRank request.dataBoundaryPreference b.dataBoundary))
      (compareLex (fun a b => compareOptionalAsc (a.hints.bind InstanceHints.latencyMs)
          (b.hints.bind InstanceHints.latencyMs))
      (compareLex (fun a b => compareOptionalAsc (a.hints.bind InstanceHints.monetaryCost)
          (b.hints.bind InstanceHints.monetaryCost))
      (compareLex (fun a b => compare (preferenceRank request.preferredInstanceIds a.instanceId)
          (preferenceRank request.preferredInstanceIds b.instanceId))
        fun a b => compare a.instanceId b.instanceId)))))) := rfl

theorem transCmp_on {α β : Type} (cmp : β → β → Ordering) [hcmp : Std.TransCmp cmp] (f : α → β) :
    Std.TransCmp fun a b => cmp (f a) (f b) where
  eq_swap := hcmp.eq_swap
  isLE_trans := hcmp.isLE_trans

instance compareCandidates_trans : Std.TransCmp (compareCandidates request) := by
  rw [compareCandidates_eq]
  have hhealth := transCmp_on compare fun i : CapabilityInstanceBody => healthRank i.health.status
  have hreliability := transCmp_on compareOptionalDesc
    fun i : CapabilityInstanceBody => i.hints.bind InstanceHints.reliability
  have htrust := transCmp_on compare
    fun i : CapabilityInstanceBody => preferenceRank request.trustPreference i.trust
  have hboundary := transCmp_on compare
    fun i : CapabilityInstanceBody => preferenceRank request.dataBoundaryPreference i.dataBoundary
  have hlatency := transCmp_on compareOptionalAsc
    fun i : CapabilityInstanceBody => i.hints.bind InstanceHints.latencyMs
  have hcost := transCmp_on compareOptionalAsc
    fun i : CapabilityInstanceBody => i.hints.bind InstanceHints.monetaryCost
  have hpreferred := transCmp_on compare
    fun i : CapabilityInstanceBody => preferenceRank request.preferredInstanceIds i.instanceId
  have hid := transCmp_on compare fun i : CapabilityInstanceBody => i.instanceId
  infer_instance

theorem compareCandidates_ne_eq {a b : CapabilityInstanceBody} (h : a.instanceId ≠ b.instanceId) :
    compareCandidates request a b ≠ .eq := by
  intro heq
  simp only [compareCandidates, Ordering.then_eq_eq] at heq
  exact h (Std.LawfulEqOrd.eq_of_compare heq.2.2.2.2.2.2.2)

instance compareCandidates_total :
    Std.Total fun left right => compareCandidates request left right ≠ .gt where
  total a b := by
    have hswap : compareCandidates request b a = (compareCandidates request a b).swap :=
      Std.OrientedCmp.eq_swap
    rw [hswap]
    cases compareCandidates request a b <;> simp

instance compareCandidates_ne_gt_trans : IsTrans CapabilityInstanceBody
    fun left right => compareCandidates request left right ≠ .gt where
  trans a b c := by
    simp only [← Ordering.isLE_iff_ne_gt]
    exact Std.TransCmp.isLE_trans

theorem sorted_lt (request : RouteRequest) {instances : List CapabilityInstanceBody}
    (h : (instances.map CapabilityInstanceBody.instanceId).Nodup) :
    (instances.insertionSort fun left right => compareCandidates request left right ≠ .gt).Pairwise
      fun left right => compareCandidates request left right = .lt := by
  have hsorted := List.pairwise_insertionSort
    (fun left right => compareCandidates request left right ≠ .gt) instances
  have hperm := List.perm_insertionSort
    (fun left right => compareCandidates request left right ≠ .gt) instances
  have hids := List.pairwise_map.mp ((hperm.map CapabilityInstanceBody.instanceId).nodup_iff.mpr h)
  refine (hsorted.and hids).imp ?_
  rintro a b ⟨hle, hne⟩
  have heq : compareCandidates request a b ≠ .eq := compareCandidates_ne_eq hne
  cases hcmp : compareCandidates request a b with
  | lt => rfl
  | eq => exact absurd hcmp heq
  | gt => exact absurd hcmp hle

end

/-! ## The ranking -/

/-- The candidate passed every filter. -/
def isEligible (definition : CapabilityDefinitionBody) (request : RouteRequest)
    (instance_ : CapabilityInstanceBody) : Bool :=
  decide ((evaluateCandidate instance_ definition request).eligibility = .placementEligible)

theorem isEligible_iff {definition : CapabilityDefinitionBody} {request : RouteRequest}
    {instance_ : CapabilityInstanceBody} : isEligible definition request instance_ = true ↔
      ∀ reason ∈ (evaluateCandidate instance_ definition request).reasons,
        reason.rejectsCandidate = false := by
  simp only [isEligible, evaluateCandidate]
  split
  · rename_i hany
    simpa using hany
  · rename_i hany
    simpa using hany

/-- Every instance once, in ascending order behind the pinned one. -/
structure Ranked (request : RouteRequest) (eligible ranked : List CapabilityInstanceBody) :
    Prop where
  once : ranked.Perm eligible
  pinned : ∀ pin, request.pinnedInstanceId = some pin →
    ranked.head?.map CapabilityInstanceBody.instanceId = some pin
  ascending : (if request.pinnedInstanceId = none then ranked else ranked.tail).Pairwise
    fun left right => compareCandidates request left right = .lt

section

variable {definition : CapabilityDefinitionBody} {request : RouteRequest}
  {instances : List CapabilityInstanceBody}

theorem filter_zip_map {α β : Type} (f : α → β) (q : β → Bool) (xs : List α) :
    ((xs.zip (xs.map f)).filter fun pair => q pair.2).map Prod.fst =
      xs.filter fun x => q (f x) := by
  induction xs with
  | nil => rfl
  | cons x xs ih =>
    rw [List.map_cons, List.zip_cons_cons, List.filter_cons, List.filter_cons]
    cases q (f x)
    · exact ih
    · exact congrArg (x :: ·) ih

/-- **The ranking** of the eligible instances, when the pin is one of them. -/
theorem rankCandidates_spec (hids : (instances.map CapabilityInstanceBody.instanceId).Nodup)
    (hpin : ∀ pin, request.pinnedInstanceId = some pin →
      ∃ instance_ ∈ instances, isEligible definition request instance_ = true ∧
        instance_.instanceId = pin) :
    ∃ ranked, Ranked request (instances.filter (isEligible definition request)) ranked ∧
      rankCandidates instances
        (instances.map fun instance_ => evaluateCandidate instance_ definition request) request =
        ranked.map CapabilityInstanceBody.instanceId := by
  set eligible := instances.filter (isEligible definition request) with heligible
  set sorted := eligible.insertionSort
    (fun left right => compareCandidates request left right ≠ .gt) with hsorted
  have hsurvivors : ((instances.zip (instances.map fun instance_ =>
      evaluateCandidate instance_ definition request)).filter fun pair =>
        decide (pair.2.eligibility = .placementEligible)).map Prod.fst = eligible :=
    filter_zip_map (fun instance_ => evaluateCandidate instance_ definition request)
      (fun candidate : RouteCandidateEvaluation =>
        decide (candidate.eligibility = .placementEligible)) instances
  have hperm : sorted.Perm eligible := List.perm_insertionSort _ _
  have hids' : (eligible.map CapabilityInstanceBody.instanceId).Nodup :=
    hids.sublist (List.filter_sublist.map CapabilityInstanceBody.instanceId)
  have hascending := sorted_lt request hids'
  rw [rankCandidates, hsurvivors]
  cases hrequest : request.pinnedInstanceId with
  | none =>
    exact ⟨sorted, ⟨hperm, by simp [hrequest], by rwa [if_pos hrequest]⟩, rfl⟩
  | some pin =>
    obtain ⟨pinned, hmem, hok, hid⟩ := hpin pin hrequest
    have hsome : (sorted.findIdx? fun instance_ => decide (instance_.instanceId = pin)).isSome := by
      rw [List.findIdx?_isSome, List.any_eq_true]
      exact ⟨pinned, hperm.mem_iff.mpr (List.mem_filter.mpr ⟨hmem, hok⟩), by simpa using hid⟩
    obtain ⟨index, hindex⟩ := Option.isSome_iff_exists.mp hsome
    obtain ⟨hlt, hfound, -⟩ := List.findIdx?_eq_some_iff_getElem.mp hindex
    refine ⟨sorted[index] :: sorted.eraseIdx index, ⟨?_, ?_, ?_⟩, ?_⟩
    · exact (List.getElem_cons_eraseIdx_perm hlt).trans hperm
    · intro pin' hpin'
      rw [hrequest, Option.some.injEq] at hpin'
      simpa [← hpin'] using hfound
    · rw [if_neg (by simp [hrequest]), List.tail_cons]
      exact hascending.sublist (List.eraseIdx_sublist _ _)
    · simp only [← hsorted, hindex, List.getElem?_eq_getElem hlt, Option.toList_some,
        List.singleton_append]

end

end Xgeny
