import Xgeny.AgentLoop.ContextText

set_option autoImplicit false

/-!
# When a planning context is built

The builder reads the constraints, the outputs, the catalog and the steps, and adds up the bytes that
it reads. Within the limits on what is read only the budget can refuse a context, and it does when the
context without items is too large already.

* `documentSize`, `foldl_addSource`: the bytes that are read;
* `catalogSummaries`, `plannedSteps`, `mandatoryPayload`: what a context may hold, and what it must;
* `WithinInputLimits`: the limits on what is read;
* `PackedContext`: what a context is;
* `Digests.withContexts`: an encoder that writes the documents of a context;
* **`buildContextOrdered_within`**: the context, or the budget error.
-/

namespace Xgeny

section

variable {D : Digests} {spell : JsonNumber → String}

/-! ## Documents -/

/-- The canonical size of a document that the encoder accepts. -/
def documentSize (D : Digests) (input : DigestInput) : ℕ :=
  match D.canonicalize input with
  | .ok canonical => canonical.size
  | .error _ => 0

theorem Serializes.canonicalSize {input : DigestInput} (h : Serializes D input) :
    canonicalSize D input = .ok (documentSize D input) := by
  obtain ⟨canonical, hcanonical⟩ := h
  unfold Xgeny.canonicalSize documentSize
  rw [Digests.toVec_eq_ok.mpr hcanonical, hcanonical]
  rfl

theorem Serializes.digest {ε : Type} {input : DigestInput} (h : Serializes D input)
    (onError : String → ε) : ∃ digest, D.digest input onError = .ok digest := by
  obtain ⟨canonical, hcanonical⟩ := h
  exact ⟨_, Digests.digest_eq_ok.mpr ⟨canonical, hcanonical, rfl⟩⟩

theorem Writes.serializes {input : DigestInput} {value : Json} (h : Writes D spell input value) :
    Serializes D input := by
  obtain ⟨canonical, hcanonical, -⟩ := h
  exact ⟨canonical, hcanonical⟩

theorem Writes.documentSize {input : DigestInput} {value : Json} (h : Writes D spell input value) :
    documentSize D input = byteLen (value.write spell) := by
  obtain ⟨canonical, hcanonical, hsize⟩ := h
  unfold Xgeny.documentSize
  rw [hcanonical]
  exact hsize

theorem boundedTotal_ok {maximum total added : ℕ} (h : total + added ≤ maximum) :
    boundedTotal maximum total added = .ok (total + added) := by
  unfold boundedTotal
  rw [Outcome.failIf, if_neg (not_not_intro h)]
  rfl

theorem foldl_addSource {α : Type} {input : α → DigestInput} {items : List α}
    (hinput : ∀ item ∈ items, Serializes D (input item)) {total : ℕ}
    (hfits : total + (items.map fun item => documentSize D (input item)).sum ≤
      maxPlanningSourceBytes) :
    Outcome.foldl (fun total item => addSource D total (input item)) total items =
      .ok (total + (items.map fun item => documentSize D (input item)).sum) := by
  induction items generalizing total with
  | nil => rfl
  | cons item items ih =>
    rw [List.map_cons, List.sum_cons, ← Nat.add_assoc] at hfits ⊢
    have hitem : addSource D total (input item) = .ok (total + documentSize D (input item)) := by
      unfold addSource
      rw [(hinput item List.mem_cons_self).canonicalSize]
      exact boundedTotal_ok (by omega)
    rw [Outcome.foldl, hitem]
    exact ih (fun later hlater => hinput later (List.mem_cons_of_mem _ hlater)) hfits

/-! ## What a context may hold -/

/-- The summary of a definition, with the digest of its contract. -/
def definitionSummary (D : Digests) (definition : CapabilityDefinitionBody) :
    PlanningCapabilitySummary :=
  match definitionContractDigest D definition with
  | .ok definitionDigest => capabilitySummary definition definitionDigest
  | .error _ => capabilitySummary definition ""

/-- The catalog, in the order of the ids and the contract versions. -/
def catalogSummaries (D : Digests) (registry : CapabilityRegistry) : List PlanningCapabilitySummary :=
  ((BTreeMap.vals registry.definitions).map (definitionSummary D)).insertionSort
    fun a b => capabilityBefore a.capability b.capability

/-- The steps in an order of their ids. -/
def plannedSteps (state : RunState) (order : List String) : List StepState :=
  order.filterMap fun stepId => state.steps[stepId]?

def catalogDigest (D : Digests) (registry : CapabilityRegistry) : String :=
  match D.digest (.capabilityCatalog ((catalogSummaries D registry).map fun summary =>
      ⟨summary.capability.capabilityId, summary.capability.contractVersion,
        summary.definitionDigest⟩)) (fun _ => ContextBuildError.canonicalization) with
  | .ok digest => digest
  | .error _ => ""

/-- What every context holds: the payload without steps and capabilities. -/
def mandatoryPayload (D : Digests) (state : RunState) (toolOutputs : List PlanningToolOutput)
    (frontier : WorkFrontier) (registry : CapabilityRegistry)
    (planningConstraints : List PlanningConstraint) : PlanningContextPayload where
  profileVersion := planningContextProfileV3
  capabilities := []
  omittedCapabilities := registry.definitions.size
  catalogDigest := catalogDigest D registry
  goal := state.goal
  planningConstraints := planningConstraints
  steps := []
  omittedSteps := state.steps.size
  toolOutputs := toolOutputs
  totalSteps := frontier.totalSteps
  verifiedCompletedSteps := frontier.verifiedCompletedStepIds.length
  runId := state.runId
  authority := state.authority
  authorityEpoch := state.authorityEpoch
  journalSequence := state.journalSequence
  journalHeadDigest := state.journalHeadDigest

/-- The limits on what is read for a context. -/
structure WithinInputLimits (D : Digests) (state : RunState) (toolOutputs : List PlanningToolOutput)
    (registry : CapabilityRegistry) (planningConstraints : List PlanningConstraint) : Prop where
  preflight : planningContextPreflight state registry = true
  definitions : ∀ definition ∈ BTreeMap.vals registry.definitions,
    validatePlanningDefinitionShape definition = .ok () ∧
      documentSize D (.capabilityDefinition definition) ≤ maxPlanningDefinitionBytes
  steps : ∀ step ∈ BTreeMap.vals state.steps, validatePlanningStepShape step = .ok () ∧
    documentSize D (.planningStepSummary (stepSummary step)) ≤ maxPlanningStepBytes
  total : (planningConstraints.map fun item => documentSize D (.planningConstraint item)).sum +
    (toolOutputs.map fun item => documentSize D (.planningToolOutput item)).sum +
    ((BTreeMap.vals registry.definitions).map fun item =>
      documentSize D (.capabilityDefinition item)).sum +
    ((BTreeMap.vals state.steps).map fun item =>
      documentSize D (.planningStepSummary (stepSummary item))).sum ≤ maxPlanningSourceBytes

/-! ## The catalog and the steps -/

/-- A capability with the size of its summary. -/
def measuredCapability (D : Digests) (summary : PlanningCapabilitySummary) :
    PlanningCapabilitySummary × ℕ := (summary, documentSize D (.planningCapabilitySummary summary))

def measuredStep (D : Digests) (step : StepState) : PlanningStepSummary × ℕ :=
  (stepSummary step, documentSize D (.planningStepSummary (stepSummary step)))

theorem foldl_summarizeDefinition (hD : WritesPlanning D spell)
    {definitions : List CapabilityDefinitionBody}
    (hlimits : ∀ definition ∈ definitions, validatePlanningDefinitionShape definition = .ok () ∧
      documentSize D (.capabilityDefinition definition) ≤ maxPlanningDefinitionBytes)
    {total : ℕ} {read : List (PlanningCapabilitySummary × ℕ)}
    (hfits : total + (definitions.map fun item =>
      documentSize D (.capabilityDefinition item)).sum ≤ maxPlanningSourceBytes) :
    Outcome.foldl (summarizeDefinition D) (total, read) definitions =
      .ok (total + (definitions.map fun item => documentSize D (.capabilityDefinition item)).sum,
        read ++ (definitions.map (definitionSummary D)).map (measuredCapability D)) := by
  induction definitions generalizing total read with
  | nil => simp [Outcome.foldl]
  | cons definition definitions ih =>
    rw [List.map_cons, List.sum_cons, ← Nat.add_assoc] at hfits ⊢
    obtain ⟨hshape, hsize⟩ := hlimits definition List.mem_cons_self
    obtain ⟨digest, hdigest⟩ := (hD.contract definition.metadata.id
      definition.metadata.contractVersion definition.spec definition.requiredExtensions).digest
      AdmissionError.canonicalization
    have hcontract : definitionContractDigest D definition = .ok digest := hdigest
    have hsummary : definitionSummary D definition = capabilitySummary definition digest := by
      rw [definitionSummary, hcontract]
    have hone : summarizeDefinition D (total, read) definition =
        .ok (total + documentSize D (.capabilityDefinition definition),
          read ++ [measuredCapability D (definitionSummary D definition)]) := by
      unfold summarizeDefinition
      rw [hshape, (hD.definition definition).canonicalSize, hcontract, hsummary]
      simp only [bind, Except.bind, Outcome.mapErr, Outcome.failIf,
        if_neg (Nat.not_lt.mpr hsize), gt_iff_lt]
      rw [boundedTotal_ok (by omega)]
      dsimp only
      rw [(hD.capability _).serializes.canonicalSize]
      rfl
    rw [Outcome.foldl, hone]
    show Outcome.foldl _ _ definitions = _
    rw [ih (fun later hlater => hlimits later (List.mem_cons_of_mem _ hlater)) hfits]
    simp

theorem foldl_summarizeStep (hD : WritesPlanning D spell) {state : RunState} {order : List String}
    (hsteps : ∀ stepId ∈ order, ∃ step : StepState, state.steps[stepId]? = some step ∧
      validatePlanningStepShape step = .ok () ∧
      documentSize D (.planningStepSummary (stepSummary step)) ≤ maxPlanningStepBytes)
    {total : ℕ} {read : List (PlanningStepSummary × ℕ)}
    (hfits : total + ((plannedSteps state order).map fun item =>
      documentSize D (.planningStepSummary (stepSummary item))).sum ≤ maxPlanningSourceBytes) :
    Outcome.foldl (summarizeStep D state) (total, read) order =
      .ok (total + ((plannedSteps state order).map fun item =>
          documentSize D (.planningStepSummary (stepSummary item))).sum,
        read ++ (plannedSteps state order).map (measuredStep D)) := by
  induction order generalizing total read with
  | nil => simp [Outcome.foldl, plannedSteps]
  | cons stepId order ih =>
    obtain ⟨step, hstep, hshape, hsize⟩ := hsteps stepId List.mem_cons_self
    have hplanned : plannedSteps state (stepId :: order) = step :: plannedSteps state order := by
      rw [plannedSteps, List.filterMap_cons, hstep]
      rfl
    rw [hplanned, List.map_cons, List.sum_cons, ← Nat.add_assoc] at hfits ⊢
    have hone : summarizeStep D state (total, read) stepId =
        .ok (total + documentSize D (.planningStepSummary (stepSummary step)),
          read ++ [measuredStep D step]) := by
      unfold summarizeStep
      rw [hstep]
      simp only [bind, Except.bind, Outcome.okOr]
      rw [hshape]
      dsimp only
      rw [(hD.step _).serializes.canonicalSize]
      dsimp only
      rw [Outcome.failIf, if_neg (Nat.not_lt.mpr hsize)]
      dsimp only
      rw [boundedTotal_ok (by omega)]
      rfl
    rw [Outcome.foldl, hone]
    show Outcome.foldl _ _ order = _
    rw [ih (fun later hlater => hsteps later (List.mem_cons_of_mem _ hlater)) hfits]
    simp

/-! ## The context -/

/-- What a context is: the mandatory payload with some of the steps and some of the capabilities, in
their orders and with the counts of the others, within the limit and with its exact size. -/
structure PackedContext (spell : JsonNumber → String) (mandatory : PlanningContextPayload)
    (steps : List PlanningStepSummary) (catalog : List PlanningCapabilitySummary) (maximumSize : ℕ)
    (context : PlanningContext) : Prop where
  payload : context.payload = mandatory.withItems steps.length catalog.length context.payload.steps
    context.payload.capabilities
  steps : context.payload.steps.Sublist steps
  capabilities : context.payload.capabilities.Sublist catalog
  size : context.canonicalSizeBytes.toNat = byteLen (context.payload.toJson.write spell)
  bounded : context.canonicalSizeBytes.toNat ≤ maximumSize

variable {state : RunState} {registry : CapabilityRegistry} {order : List String}

theorem plannedSteps_perm (horder : order.Perm state.steps.keys) :
    (plannedSteps state order).Perm (BTreeMap.vals state.steps) := by
  have hkeys : plannedSteps state state.steps.keys = BTreeMap.vals state.steps := by
    rw [plannedSteps, ← Std.ExtTreeMap.map_fst_toList_eq_keys, BTreeMap.vals, List.filterMap_map,
      ← List.filterMap_eq_map]
    refine List.filterMap_congr fun entry hentry => ?_
    exact Std.ExtTreeMap.mem_toList_iff_getElem?_eq_some.mp hentry
  rw [← hkeys]
  exact horder.filterMap _

theorem plannedSteps_length (horder : order.Perm state.steps.keys) :
    (plannedSteps state order).length = state.steps.size := by
  rw [(plannedSteps_perm horder).length_eq, BTreeMap.vals, List.length_map,
    Std.ExtTreeMap.length_toList]

theorem catalogSummaries_length (D : Digests) (registry : CapabilityRegistry) :
    (catalogSummaries D registry).length = registry.definitions.size := by
  rw [catalogSummaries, List.length_insertionSort, List.length_map, BTreeMap.vals, List.length_map,
    Std.ExtTreeMap.length_toList]

theorem planningStepSet_ok (horder : order.Perm state.steps.keys) :
    (Std.ExtTreeSet.ofList order compare : BTreeSet String).size = state.steps.size ∧
      (Std.ExtTreeSet.ofList order compare : BTreeSet String).toList.any
        (fun stepId => decide (stepId ∉ state.steps)) = false := by
  have hnodup : order.Nodup := (horder.nodup_iff).mpr Std.ExtTreeMap.nodup_keys
  constructor
  · rw [Std.ExtTreeSet.size_ofList, horder.length_eq, Std.ExtTreeMap.length_keys]
    refine hnodup.imp fun hne heq => hne ?_
    exact Std.LawfulEqOrd.eq_of_compare heq
  · rw [List.any_eq_false]
    intro stepId hmem
    have hin : stepId ∈ order := by
      rw [← BTreeSet.mem_ofList_iff, ← Std.ExtTreeSet.mem_toList]
      exact hmem
    have hkey := Std.ExtTreeMap.mem_keys.mp (horder.mem_iff.mp hin)
    simpa using hkey

theorem planned_limits {toolOutputs : List PlanningToolOutput}
    {planningConstraints : List PlanningConstraint}
    (hlimits : WithinInputLimits D state toolOutputs registry planningConstraints)
    (horder : order.Perm state.steps.keys) :
    ∀ stepId ∈ order, ∃ step : StepState, state.steps[stepId]? = some step ∧
      validatePlanningStepShape step = .ok () ∧
      documentSize D (.planningStepSummary (stepSummary step)) ≤ maxPlanningStepBytes := by
  intro stepId hstepId
  have hkey := Std.ExtTreeMap.mem_keys.mp (horder.mem_iff.mp hstepId)
  obtain ⟨step, hstep⟩ := Option.isSome_iff_exists.mp
    (Std.ExtTreeMap.mem_iff_isSome_getElem?.mp hkey)
  exact ⟨step, hstep, hlimits.steps step (BTreeMap.mem_vals_iff.mpr ⟨stepId, hstep⟩)⟩

theorem catalogDigest_eq (hD : WritesPlanning D spell) (registry : CapabilityRegistry) :
    D.digest (.capabilityCatalog ((catalogSummaries D registry).map fun summary =>
      ⟨summary.capability.capabilityId, summary.capability.contractVersion,
        summary.definitionDigest⟩)) (fun _ => ContextBuildError.canonicalization) =
      .ok (catalogDigest D registry) := by
  unfold catalogDigest
  split
  · assumption
  · rename_i error herror
    obtain ⟨digest, hdigest⟩ := (hD.catalog ((catalogSummaries D registry).map fun summary =>
      ⟨summary.capability.capabilityId, summary.capability.contractVersion,
        summary.definitionDigest⟩)).digest fun _ => ContextBuildError.canonicalization
    rw [hdigest] at herror
    cases herror

theorem sorted_measured (D : Digests) (registry : CapabilityRegistry) :
    (((BTreeMap.vals registry.definitions).map (definitionSummary D)).map
        (measuredCapability D)).insertionSort
      (fun a b => capabilityBefore a.1.capability b.1.capability) =
      (catalogSummaries D registry).map (measuredCapability D) := by
  exact (List.map_insertionSort
    (fun a b : PlanningCapabilitySummary => capabilityBefore a.capability b.capability)
    (fun a b : PlanningCapabilitySummary × ℕ => capabilityBefore a.1.capability b.1.capability)
    (measuredCapability D) _ fun _ _ _ _ => Iff.rfl).symm

/-- The end of the builder: the items are packed into the mandatory payload, and the result is measured
and hashed. -/
def packMandatory (D : Digests) (maximumSize : ℕ) (stepSummaries : List (PlanningStepSummary × ℕ))
    (summaries : List (PlanningCapabilitySummary × ℕ)) (mandatory : PlanningContextPayload) :
    Outcome ContextBuildError PlanningContext := do
  let conservativeSize ← canonicalSize D (.planningContextPayload mandatory)
  Outcome.failIf (conservativeSize > maximumSize) .budgetExceeded
  let (payload, _) := packContext maximumSize stepSummaries summaries (mandatory, conservativeSize)
  let exactSize ← canonicalSize D (.planningContextPayload payload)
  Outcome.failIf (exactSize > maximumSize) .budgetExceeded
  let contextDigest ← D.digest (.planningContext payload)
    fun _ => ContextBuildError.canonicalization
  pure
    { payload := payload
      contextDigest := contextDigest
      canonicalSizeBytes := exactSize.toUInt64 }

theorem buildContextOrdered_eq (hD : WritesPlanning D spell)
    {completedToolOutputs : BTreeMap String ToolOutputRecord} {completedToolOutputOrder : List String}
    {toolOutputs : List PlanningToolOutput} {frontier : WorkFrontier}
    {planningConstraints : List PlanningConstraint} {budget : AgentLoopBudget}
    (hlimits : WithinInputLimits D state toolOutputs registry planningConstraints)
    (horder : order.Perm state.steps.keys)
    (houtputs : buildPlanningToolOutputs D state completedToolOutputs completedToolOutputOrder =
      .ok toolOutputs) :
    buildContextOrdered D state completedToolOutputs order completedToolOutputOrder frontier registry
        planningConstraints budget =
      packMandatory D (maximumContextSize budget) ((plannedSteps state order).map (measuredStep D))
        ((catalogSummaries D registry).map (measuredCapability D))
        (mandatoryPayload D state toolOutputs frontier registry planningConstraints) := by
  obtain ⟨hsetSize, hsetSteps⟩ := planningStepSet_ok horder
  have hstepSum := ((plannedSteps_perm horder).map fun item =>
    documentSize D (.planningStepSummary (stepSummary item))).sum_nat
  have htotal := hlimits.total
  -- the four readings, in the order in which they add up
  have hconstraints := @foldl_addSource D _ DigestInput.planningConstraint planningConstraints
    (fun item _ => hD.constraint item) 0 (by omega)
  have houtputBytes := @foldl_addSource D _ DigestInput.planningToolOutput toolOutputs
    (fun item _ => hD.output item)
    (0 + (planningConstraints.map fun item => documentSize D (.planningConstraint item)).sum)
    (by omega)
  have hdefinitions := @foldl_summarizeDefinition D spell hD (BTreeMap.vals registry.definitions)
    hlimits.definitions
    (0 + (planningConstraints.map fun item => documentSize D (.planningConstraint item)).sum +
      (toolOutputs.map fun item => documentSize D (.planningToolOutput item)).sum) [] (by omega)
  have hsteps := @foldl_summarizeStep D spell hD state order (planned_limits hlimits horder)
    (0 + (planningConstraints.map fun item => documentSize D (.planningConstraint item)).sum +
      (toolOutputs.map fun item => documentSize D (.planningToolOutput item)).sum +
      ((BTreeMap.vals registry.definitions).map fun item =>
        documentSize D (.capabilityDefinition item)).sum) [] (by omega)
  have hcatalog := catalogDigest_eq hD registry
  have hentries : ∀ summaries : List PlanningCapabilitySummary,
      (summaries.map (measuredCapability D)).map (fun entry =>
        (⟨entry.1.capability.capabilityId, entry.1.capability.contractVersion,
          entry.1.definitionDigest⟩ : CatalogDigestEntry)) =
        summaries.map fun summary => ⟨summary.capability.capabilityId,
          summary.capability.contractVersion, summary.definitionDigest⟩ :=
    fun summaries => List.map_map
  unfold buildContextOrdered packMandatory mandatoryPayload
  rw [hlimits.preflight, hconstraints]
  simp only [Outcome.failIf, horder.length_eq, Std.ExtTreeMap.length_keys, hsetSize, hsetSteps,
    bind, Except.bind, Bool.true_eq_false, if_false, ne_eq, not_true_eq_false, or_self,
    Bool.false_eq_true, houtputs, houtputBytes, hdefinitions, List.nil_append, sorted_measured,
    hentries, hcatalog, hsteps, List.length_map, plannedSteps_length horder,
    catalogSummaries_length]

theorem packMandatory_packs (hD : WritesPlanning D spell) {maximumSize : ℕ}
    {steps : List StepState} {summaries : List PlanningCapabilitySummary}
    {mandatory : PlanningContextPayload} (hmaximum : maximumSize < 2 ^ 64)
    (hstepTotal : steps.length < 2 ^ 64) (hcapabilityTotal : summaries.length < 2 ^ 64)
    (hempty : mandatory = mandatory.withItems steps.length summaries.length [] []) :
    (maximumSize < byteLen (mandatory.toJson.write spell) →
      packMandatory D maximumSize (steps.map (measuredStep D)) (summaries.map (measuredCapability D))
        mandatory = Outcome.fail .budgetExceeded) ∧
    (byteLen (mandatory.toJson.write spell) ≤ maximumSize →
      ∃ context, packMandatory D maximumSize (steps.map (measuredStep D))
          (summaries.map (measuredCapability D)) mandatory = .ok context ∧
        PackedContext spell mandatory (steps.map stepSummary) summaries maximumSize context) := by
  have hpayload : ∀ payload, canonicalSize D (.planningContextPayload payload) =
      .ok (byteLen (payload.toJson.write spell)) := fun payload => by
    rw [(hD.payload payload).serializes.canonicalSize, (hD.payload payload).documentSize]
  unfold packMandatory
  simp only [hpayload, bind, Except.bind]
  constructor
  · intro hlarge
    rw [Outcome.failIf, if_pos hlarge]
    rfl
  · intro hfits
    have hmeasuredSteps : Measured spell PlanningStepSummary.toJson (steps.map (measuredStep D)) := by
      intro entry hentry
      obtain ⟨step, -, rfl⟩ := List.mem_map.mp hentry
      exact (hD.step (stepSummary step)).documentSize
    have hmeasuredCapabilities : Measured spell PlanningCapabilitySummary.toJson
        (summaries.map (measuredCapability D)) := by
      intro entry hentry
      obtain ⟨summary, -, rfl⟩ := List.mem_map.mp hentry
      exact (hD.capability summary).documentSize
    have hpacks := @packContext_packs D spell maximumSize (steps.map (measuredStep D))
      (summaries.map (measuredCapability D)) mandatory hD hmeasuredSteps hmeasuredCapabilities
      (by rw [List.length_map]; exact hstepTotal) (by rw [List.length_map]; exact hcapabilityTotal)
      (by rw [List.length_map, List.length_map, ← hempty]; exact hfits)
    rw [List.length_map, List.length_map, ← hempty] at hpacks
    generalize packContext maximumSize (steps.map (measuredStep D))
      (summaries.map (measuredCapability D))
      (mandatory, byteLen (mandatory.toJson.write spell)) = packed at hpacks
    have hexact : byteLen (packed.1.toJson.write spell) ≤ maximumSize :=
      Nat.le_trans hpacks.size hpacks.bounded
    obtain ⟨digest, hdigest⟩ := (hD.context packed.1).digest
      fun _ => ContextBuildError.canonicalization
    have hword : (byteLen (packed.1.toJson.write spell)).toUInt64.toNat =
        byteLen (packed.1.toJson.write spell) :=
      UInt64.toNat_ofNat_of_lt' (Nat.lt_of_le_of_lt hexact hmaximum)
    rw [Outcome.failIf, if_neg (Nat.not_lt.mpr hfits)]
    dsimp only
    rw [Outcome.failIf, if_neg (Nat.not_lt.mpr hexact), hdigest]
    refine ⟨_, rfl, ?_⟩
    have hsteps := hpacks.steps
    rw [List.take_of_length_le (List.length_map _).le, List.map_map] at hsteps
    have hcapabilities := hpacks.capabilities
    rw [List.take_of_length_le (List.length_map _).le, List.map_map] at hcapabilities
    have hkept := hpacks.payload
    rw [List.length_map, List.length_map] at hkept
    refine ⟨?_, hsteps, ?_, hword, hword.le.trans hexact⟩
    · rw [List.length_map]
      exact hkept
    · rw [show Prod.fst ∘ measuredCapability D = id from rfl, List.map_id] at hcapabilities
      exact hcapabilities

/-- **Within the input limits** only the budget refuses a context, and only when the mandatory payload
is too large for it. -/
theorem buildContextOrdered_within (hD : WritesPlanning D spell)
    {completedToolOutputs : BTreeMap String ToolOutputRecord} {completedToolOutputOrder : List String}
    {toolOutputs : List PlanningToolOutput} {frontier : WorkFrontier}
    {planningConstraints : List PlanningConstraint} {budget : AgentLoopBudget}
    (hlimits : WithinInputLimits D state toolOutputs registry planningConstraints)
    (horder : order.Perm state.steps.keys)
    (houtputs : buildPlanningToolOutputs D state completedToolOutputs completedToolOutputOrder =
      .ok toolOutputs) :
    let mandatory := mandatoryPayload D state toolOutputs frontier registry planningConstraints
    let build := buildContextOrdered D state completedToolOutputs order completedToolOutputOrder
      frontier registry planningConstraints budget
    (maximumContextSize budget < byteLen (mandatory.toJson.write spell) →
      build = Outcome.fail .budgetExceeded) ∧
    (byteLen (mandatory.toJson.write spell) ≤ maximumContextSize budget →
      ∃ context, build = .ok context ∧
        PackedContext spell mandatory ((plannedSteps state order).map stepSummary)
          (catalogSummaries D registry) (maximumContextSize budget) context) := by
  dsimp only
  have hpreflight := hlimits.preflight
  simp only [planningContextPreflight, Bool.and_eq_true, decide_eq_true_eq] at hpreflight
  obtain ⟨⟨-, hdefinitions⟩, hstates⟩ := hpreflight
  have hsteps := plannedSteps_length horder
  have hcatalog := catalogSummaries_length D registry
  have hmaximum : maximumContextSize budget < 2 ^ 64 :=
    Nat.lt_of_le_of_lt (Nat.min_le_right _ _) (by decide)
  rw [buildContextOrdered_eq hD hlimits horder houtputs]
  refine packMandatory_packs hD hmaximum ?_ ?_ ?_
  · rw [hsteps]
    exact Nat.lt_of_le_of_lt hstates (by decide)
  · rw [hcatalog]
    exact Nat.lt_of_le_of_lt hdefinitions (by decide)
  · rw [hsteps, hcatalog]
    rfl

end

/-! ## An encoder of contexts -/

/-- The documents of a planning context. -/
def planningDocument : DigestInput → Option Json
  | .planningStepSummary summary => some summary.toJson
  | .planningCapabilitySummary summary => some summary.toJson
  | .planningContextPayload payload => some payload.toJson
  | .planningConstraint constraint => some constraint.toJson
  | .planningToolOutput output => some output.toJson
  | _ => none

/-- An encoder that writes the documents of a planning context, and of the others those that another
encoder knows. -/
def Digests.withContexts (D : Digests) (spell : JsonNumber → String) : Digests where
  canonicalize input :=
    match planningDocument input with
    | some value => .ok ⟨byteLen (value.write spell), sampleProposalHash⟩
    | none =>
      match D.canonicalize input with
      | .ok canonical => .ok canonical
      | .error _ => .ok ⟨2, sampleProposalHash⟩

theorem Digests.withContexts_serializes (D : Digests) (spell : JsonNumber → String)
    (input : DigestInput) : Serializes (D.withContexts spell) input := by
  unfold Serializes Digests.withContexts
  dsimp only
  split
  · exact ⟨_, rfl⟩
  · split
    · exact ⟨_, rfl⟩
    · exact ⟨_, rfl⟩

theorem Digests.withContexts_writes (D : Digests) {spell : JsonNumber → String}
    (hspell : ∀ n : UInt64, spell (.posInt n) = toString n.toNat) :
    WritesPlanning (D.withContexts spell) spell where
  unsigned := hspell
  step _ := ⟨_, rfl, rfl⟩
  capability _ := ⟨_, rfl, rfl⟩
  payload _ := ⟨_, rfl, rfl⟩
  constraint _ := D.withContexts_serializes spell _
  output _ := D.withContexts_serializes spell _
  definition _ := D.withContexts_serializes spell _
  contract _ _ _ _ := D.withContexts_serializes spell _
  catalog _ := D.withContexts_serializes spell _
  context _ := D.withContexts_serializes spell _

end Xgeny
