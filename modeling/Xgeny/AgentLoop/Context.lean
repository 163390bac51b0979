import Xgeny.Admission.Facts
import Xgeny.Frontier.Model

set_option autoImplicit false

/-!
# The planning context

The bounded document that one planner call is shown: the goal and the constraints, the verified tool
outputs, and as many steps and capabilities as fit, packed in turns.

* `buildPlanningToolOutputs`: the outputs of completed steps, each verified against its step;
* `validatePlanningDefinitionShape`, `validatePlanningStepShape`: bounds that are checked before
  anything is copied or hashed;
* `buildContextOrdered`: the context;
* **`buildContextOrdered_payload`**: the context names the exact head of the state it was built from.
-/

namespace Xgeny

/-- `PLANNING_CONTEXT_PROFILE_V3`. -/
def planningContextProfileV3 : String := "xgeny.planning-context/v3"

/-- `MAX_CAPABILITY_SUMMARY_BYTES`. -/
def maxCapabilitySummaryBytes : ℕ := 512

/-- `MAX_PLANNING_CONTEXT_BYTES`. -/
def maxPlanningContextBytes : UInt64 := 512 * 1024

/-- `MAX_PLANNING_CATALOG_DEFINITIONS`. -/
def maxPlanningCatalogDefinitions : ℕ := 1024

/-- `MAX_PLANNING_SOURCE_STEPS`. -/
def maxPlanningSourceSteps : ℕ := 4096

/-- `MAX_PLANNING_DEFINITION_BYTES`. -/
def maxPlanningDefinitionBytes : ℕ := 256 * 1024

/-- `MAX_PLANNING_STEP_BYTES`. -/
def maxPlanningStepBytes : ℕ := 64 * 1024

/-- `MAX_PLANNING_SOURCE_BYTES`. -/
def maxPlanningSourceBytes : ℕ := 8 * 1024 * 1024

/-- `MAX_PLANNING_VALUE_DEPTH`. -/
def maxPlanningValueDepth : ℕ := 64

/-- `MAX_PLANNING_VALUE_NODES`. -/
def maxPlanningValueNodes : ℕ := 32768

/-- `MAX_PLANNING_VALUE_TEXT_BYTES`. -/
def maxPlanningValueTextBytes : ℕ := 256 * 1024

/-- `MAX_PLANNING_DEFINITION_COLLECTION_ITEMS`. -/
def maxPlanningDefinitionCollectionItems : ℕ := 4096

/-- `MAX_PLANNING_HEADER_TEXT_BYTES`. -/
def maxPlanningHeaderTextBytes : ℕ := 256 * 1024

inductive ContextBuildError where
  | budgetExceeded
  | inputLimitExceeded
  | canonicalization
  | catalog
  | outputBinding
  deriving DecidableEq

/-- The context of one planner call; `Serialize` emits its payload only. -/
structure PlanningContext where
  payload : PlanningContextPayload
  contextDigest : String
  canonicalSizeBytes : UInt64
  deriving DecidableEq

/-! ## Bounds -/

/-- `planning_context_preflight`. -/
def planningContextPreflight (state : RunState) (registry : CapabilityRegistry) : Bool :=
  decide (byteLen state.runId + byteLen state.authority + byteLen state.journalHeadDigest +
      byteLen state.goal ≤ maxPlanningHeaderTextBytes) &&
    decide (registry.definitions.size ≤ maxPlanningCatalogDefinitions) &&
    decide (state.steps.size ≤ maxPlanningSourceSteps)

/-- A running total that must stay within a bound. -/
def boundedTotal (maximum total added : ℕ) : Outcome ContextBuildError ℕ := do
  Outcome.failIf (¬ total + added ≤ maximum) .inputLimitExceeded
  pure (total + added)

structure PlanningValueStats where
  nodes : ℕ := 0
  textBytes : ℕ := 0

/-- `add_planning_text`. -/
def addPlanningText (stats : PlanningValueStats) (added : ℕ) :
    Outcome ContextBuildError PlanningValueStats := do
  let textBytes ← boundedTotal maxPlanningValueTextBytes stats.textBytes added
  pure { stats with textBytes := textBytes }

/-- The loop of `validate_planning_value` over a stack of values with their depths, its head on top.
The first argument is what is left of the node budget, so that the loop ends with it. -/
def walkPlanningValue : ℕ → PlanningValueStats → List (Json × ℕ) →
    Outcome ContextBuildError PlanningValueStats
  | _, stats, [] => pure stats
  | 0, _, _ :: _ => Outcome.fail .inputLimitExceeded
  | remaining + 1, stats, (value, depth) :: pending => do
    Outcome.failIf (depth > maxPlanningValueDepth) .inputLimitExceeded
    let stats := { stats with nodes := stats.nodes + 1 }
    match value with
    | .string text => do
      let stats ← addPlanningText stats (byteLen text)
      walkPlanningValue remaining stats pending
    | .array values =>
      walkPlanningValue remaining stats
        (values.reverse.map (fun value => (value, depth + 1)) ++ pending)
    | .object members => do
      let stats ← Outcome.foldl (fun stats member => addPlanningText stats (byteLen member.1)) stats
        members
      walkPlanningValue remaining stats
        (members.reverse.map (fun member => (member.2, depth + 1)) ++ pending)
    | _ => walkPlanningValue remaining stats pending

def validatePlanningValue (stats : PlanningValueStats) (root : Json) :
    Outcome ContextBuildError PlanningValueStats :=
  walkPlanningValue (maxPlanningValueNodes - stats.nodes) stats [(root, 1)]

/-- The number of items in the collections of a definition. -/
def definitionCollectionItems (definition : CapabilityDefinitionBody) : ℕ :=
  definition.extensions.size + definition.requiredExtensions.length +
    definition.metadata.labels.size + definition.spec.requiredCapabilities.length +
    definition.spec.effect.resourceSelectors.length +
    definition.spec.effect.criticalActions.length + definition.spec.execution.styles.length +
    definition.spec.verification.length +
    definition.spec.discovery.elim 0 fun discovery =>
      discovery.keywords.length + discovery.examples.length

/-- The texts of a definition, in the order in which they are counted. -/
def definitionTexts (definition : CapabilityDefinitionBody) : List String :=
  [definition.apiVersion] ++ definition.requiredExtensions ++ definition.extensions.keys ++
    [definition.metadata.id, definition.metadata.contractVersion,
      definition.metadata.displayName] ++
    definition.metadata.labels.toList.flatMap (fun (key, value) => [key, value]) ++
    [definition.spec.summary] ++
    definition.spec.requiredCapabilities.flatMap
      (fun required => [required.capabilityId, required.contractVersion]) ++
    definition.spec.effect.resourceSelectors.flatMap
      (fun selector => [selector.scope, selector.argumentPointer]) ++
    definition.spec.verification.filterMap VerificationRule.description ++
    definition.spec.discovery.elim [] (fun discovery =>
      discovery.keywords ++ discovery.examples ++ discovery.detailsRef.toList)

def validatePlanningDefinitionShape (definition : CapabilityDefinitionBody) :
    Outcome ContextBuildError Unit := do
  Outcome.failIf (definitionCollectionItems definition > maxPlanningDefinitionCollectionItems)
    .inputLimitExceeded
  let stats ← Outcome.foldl (fun stats text => addPlanningText stats (byteLen text)) {}
    (definitionTexts definition)
  let _ ← Outcome.foldl validatePlanningValue stats
    ([definition.spec.inputSchema, definition.spec.outputSchema] ++
      BTreeMap.vals definition.extensions)
  pure ()

def validatePlanningStepShape (step : StepState) : Outcome ContextBuildError Unit := do
  Outcome.failIf (step.dependsOn.length > maxPlanningDefinitionCollectionItems) .inputLimitExceeded
  let textBytes ← Outcome.foldl
    (fun total dependency => boundedTotal maxPlanningStepBytes total (byteLen dependency))
    (byteLen step.stepId + byteLen step.objective) step.dependsOn
  let textBytes := textBytes + step.plannedInvocation.elim 0 fun invocation =>
    byteLen invocation.capabilityId + byteLen invocation.contractVersion
  Outcome.failIf (textBytes > maxPlanningStepBytes) .inputLimitExceeded

/-- The longest beginning that fits into a number of bytes. -/
def fittingChars : ℕ → List Char → List Char
  | _, [] => []
  | free, c :: rest => if c.utf8Size > free then [] else c :: fittingChars (free - c.utf8Size) rest

/-- `bounded_summary`: the longest beginning without control characters that fits. -/
def boundedSummary (value : String) : String :=
  String.ofList (fittingChars maxCapabilitySummaryBytes
    (value.toList.filter fun c => !isControl c))

/-! ## Parts -/

section

variable (D : Digests)

/-- `canonical_size`, with the error of the context builder. -/
def canonicalSize (input : DigestInput) : Outcome ContextBuildError ℕ := do
  let canonical ← D.toVec input fun _ => ContextBuildError.canonicalization
  pure canonical.size

/-- Add the canonical size of a document to the bytes read so far. -/
def addSource (total : ℕ) (input : DigestInput) : Outcome ContextBuildError ℕ := do
  let size ← canonicalSize D input
  boundedTotal maxPlanningSourceBytes total size

/-- One output of `build_planning_tool_outputs`, with the steps seen so far. -/
def planningToolOutput (state : RunState)
    (completedToolOutputs : BTreeMap String ToolOutputRecord)
    (acc : BTreeSet String × List PlanningToolOutput) (stepId : String) :
    Outcome ContextBuildError (BTreeSet String × List PlanningToolOutput) := do
  Outcome.failIf (stepId ∈ acc.1) .outputBinding
  let step ← Outcome.okOr state.steps[stepId]? .outputBinding
  Outcome.failIf (step.status ≠ .completed ∨ step.outputRecordDigest = none) .outputBinding
  Outcome.failIf (receiptReleasesDependency step = false) .outputBinding
  let intent ← Outcome.okOr step.intent .outputBinding
  let evidenceDigest ← Outcome.okOr step.effectEvidenceDigest .outputBinding
  let receiptDigest ← Outcome.okOr step.executionReceiptDigest .outputBinding
  let output ← Outcome.okOr completedToolOutputs[stepId]? .outputBinding
  (output.verifyFor D state.runId stepId intent step.attempts evidenceDigest).mapErr
    fun _ => ContextBuildError.outputBinding
  Outcome.failIf (step.outputRecordDigest ≠ some output.recordDigest) .outputBinding
  let summary : PlanningToolOutput :=
    { stepId := stepId
      capability := ⟨output.invocation.capabilityId, output.invocation.contractVersion⟩
      outputId := output.outputId
      outputDigest := output.outputDigest
      receiptDigest := receiptDigest
      canonicalSizeBytes := output.canonicalSizeBytes
      output := output.output }
  pure (acc.1.insert stepId, acc.2 ++ [summary])

def buildPlanningToolOutputs (state : RunState)
    (completedToolOutputs : BTreeMap String ToolOutputRecord)
    (completedToolOutputOrder : List String) :
    Outcome ContextBuildError (List PlanningToolOutput) := do
  let expectedCount := ((BTreeMap.vals state.steps).filter fun step =>
    step.status == .completed && step.outputRecordDigest.isSome).length
  Outcome.failIf (expectedCount ≠ completedToolOutputs.size ∨
    completedToolOutputOrder.length ≠ completedToolOutputs.size) .outputBinding
  let (seen, outputs) ← Outcome.foldl (planningToolOutput D state completedToolOutputs) (∅, [])
    completedToolOutputOrder
  Outcome.failIf (seen.size ≠ expectedCount) .outputBinding
  pure outputs

/-- Capabilities in the order of their ids, then of their contract versions. -/
def capabilityBefore (a b : CapabilityRef) : Prop :=
  a.capabilityId < b.capabilityId ∨
    (a.capabilityId = b.capabilityId ∧ a.contractVersion ≤ b.contractVersion)

instance : DecidableRel capabilityBefore := fun a b =>
  inferInstanceAs (Decidable (a.capabilityId < b.capabilityId ∨
    (a.capabilityId = b.capabilityId ∧ a.contractVersion ≤ b.contractVersion)))

/-- The summary of a definition. -/
def capabilitySummary (definition : CapabilityDefinitionBody) (definitionDigest : String) :
    PlanningCapabilitySummary where
  capability := definition.reference
  definitionDigest := definitionDigest
  summary := boundedSummary definition.spec.summary
  inputSchema := definition.spec.inputSchema
  outputSchema := definition.spec.outputSchema
  effectClass := definition.spec.effect.class_
  resourceSelectors := definition.spec.effect.resourceSelectors.map fun selector =>
    ⟨selector.scope, selector.argumentPointer⟩
  criticalActions := definition.spec.effect.criticalActions
  executionStyles := definition.spec.execution.styles
  idempotencyKeySupported := definition.spec.execution.idempotencyKeySupported
  defaultTimeoutMs := definition.spec.execution.defaultTimeoutMs
  maxTimeoutMs := definition.spec.execution.maxTimeoutMs

/-- One definition of the catalog: the bytes read so far, and the summaries with their sizes. -/
def summarizeDefinition (acc : ℕ × List (PlanningCapabilitySummary × ℕ))
    (definition : CapabilityDefinitionBody) :
    Outcome ContextBuildError (ℕ × List (PlanningCapabilitySummary × ℕ)) := do
  validatePlanningDefinitionShape definition
  let definitionSize ← canonicalSize D (.capabilityDefinition definition)
  Outcome.failIf (definitionSize > maxPlanningDefinitionBytes) .inputLimitExceeded
  let sourceBytes ← boundedTotal maxPlanningSourceBytes acc.1 definitionSize
  let definitionDigest ← (definitionContractDigest D definition).mapErr
    fun _ => ContextBuildError.catalog
  let summary := capabilitySummary definition definitionDigest
  let summarySize ← canonicalSize D (.planningCapabilitySummary summary)
  pure (sourceBytes, acc.2 ++ [(summary, summarySize)])

/-- The summary of a step. -/
def stepSummary (step : StepState) : PlanningStepSummary where
  stepId := step.stepId
  objective := step.objective
  dependsOn := step.dependsOn
  status := step.status
  attempts := step.attempts
  capability := step.plannedInvocation.map fun invocation =>
    ⟨invocation.capabilityId, invocation.contractVersion⟩
  dependencyReleased := receiptReleasesDependency step

/-- One step of the graph: the bytes read so far, and the summaries with their sizes. -/
def summarizeStep (state : RunState) (acc : ℕ × List (PlanningStepSummary × ℕ)) (stepId : String) :
    Outcome ContextBuildError (ℕ × List (PlanningStepSummary × ℕ)) := do
  let step ← Outcome.okOr state.steps[stepId]? .outputBinding
  validatePlanningStepShape step
  let summary := stepSummary step
  let summarySize ← canonicalSize D (.planningStepSummary summary)
  Outcome.failIf (summarySize > maxPlanningStepBytes) .inputLimitExceeded
  let sourceBytes ← boundedTotal maxPlanningSourceBytes acc.1 summarySize
  pure (sourceBytes, acc.2 ++ [(summary, summarySize)])

end

/-! ## Packing -/

/-- `1` for every item after the first, which needs a comma. -/
def separatorSize {α : Type} (items : List α) : ℕ := if items = [] then 0 else 1

/-- Put a step into the payload when it still fits. -/
def packStep (maximumSize totalSteps : ℕ) (acc : PlanningContextPayload × ℕ)
    (item : Option (PlanningStepSummary × ℕ)) : PlanningContextPayload × ℕ :=
  match item with
  | none => acc
  | some (step, itemSize) =>
    let delta := itemSize + separatorSize acc.1.steps
    if acc.2 + delta ≤ maximumSize then
      let steps := acc.1.steps ++ [step]
      ({ acc.1 with steps := steps, omittedSteps := totalSteps - steps.length }, acc.2 + delta)
    else acc

/-- Put a capability into the payload when it still fits. -/
def packCapability (maximumSize totalCapabilities : ℕ) (acc : PlanningContextPayload × ℕ)
    (item : Option (PlanningCapabilitySummary × ℕ)) : PlanningContextPayload × ℕ :=
  match item with
  | none => acc
  | some (summary, itemSize) =>
    let delta := itemSize + separatorSize acc.1.capabilities
    if acc.2 + delta ≤ maximumSize then
      let capabilities := acc.1.capabilities ++ [summary]
      ({ acc.1 with
          capabilities := capabilities
          omittedCapabilities := totalCapabilities - capabilities.length }, acc.2 + delta)
    else acc

/-- Round-robin packing: a step and a capability in turn, each whole or not at all. -/
def packContext (maximumSize : ℕ) (stepSummaries : List (PlanningStepSummary × ℕ))
    (summaries : List (PlanningCapabilitySummary × ℕ)) (start : PlanningContextPayload × ℕ) :
    PlanningContextPayload × ℕ :=
  (List.range (max stepSummaries.length summaries.length)).foldl
    (fun acc index =>
      packCapability maximumSize summaries.length
        (packStep maximumSize stepSummaries.length acc stepSummaries[index]?) summaries[index]?)
    start

/-! ## The context -/

/-- The largest context that a budget admits. -/
def maximumContextSize (budget : AgentLoopBudget) : ℕ :=
  min budget.maxContextBytes.toNat maxPlanningContextBytes.toNat

section

variable (D : Digests)

def buildContextOrdered (state : RunState)
    (completedToolOutputs : BTreeMap String ToolOutputRecord)
    (planningStepOrder completedToolOutputOrder : List String) (frontier : WorkFrontier)
    (registry : CapabilityRegistry) (planningConstraints : List PlanningConstraint)
    (budget : AgentLoopBudget) : Outcome ContextBuildError PlanningContext := do
  Outcome.failIf (planningContextPreflight state registry = false) .inputLimitExceeded
  Outcome.failIf (planningStepOrder.length ≠ state.steps.size) .outputBinding
  let planningStepSet : BTreeSet String := Std.ExtTreeSet.ofList planningStepOrder compare
  Outcome.failIf (planningStepSet.size ≠ state.steps.size ∨
    planningStepSet.toList.any (fun stepId => decide (stepId ∉ state.steps)) = true) .outputBinding
  let sourceBytes ← Outcome.foldl (fun total constraint =>
    addSource D total (.planningConstraint constraint)) 0 planningConstraints
  let toolOutputs ← buildPlanningToolOutputs D state completedToolOutputs completedToolOutputOrder
  let sourceBytes ← Outcome.foldl (fun total output =>
    addSource D total (.planningToolOutput output)) sourceBytes toolOutputs
  let (sourceBytes, summaries) ← Outcome.foldl (summarizeDefinition D) (sourceBytes, [])
    (BTreeMap.vals registry.definitions)
  let summaries := summaries.insertionSort fun a b => capabilityBefore a.1.capability b.1.capability
  let catalogDigest ← D.digest (.capabilityCatalog (summaries.map fun entry =>
    ⟨entry.1.capability.capabilityId, entry.1.capability.contractVersion,
      entry.1.definitionDigest⟩)) fun _ => ContextBuildError.canonicalization
  let (_, stepSummaries) ← Outcome.foldl (summarizeStep D state) (sourceBytes, [])
    planningStepOrder
  let payload : PlanningContextPayload :=
    { profileVersion := planningContextProfileV3
      capabilities := []
      omittedCapabilities := summaries.length
      catalogDigest := catalogDigest
      goal := state.goal
      planningConstraints := planningConstraints
      steps := []
      omittedSteps := stepSummaries.length
      toolOutputs := toolOutputs
      totalSteps := frontier.totalSteps
      verifiedCompletedSteps := frontier.verifiedCompletedStepIds.length
      runId := state.runId
      authority := state.authority
      authorityEpoch := state.authorityEpoch
      journalSequence := state.journalSequence
      journalHeadDigest := state.journalHeadDigest }
  let maximumSize := maximumContextSize budget
  let conservativeSize ← canonicalSize D (.planningContextPayload payload)
  Outcome.failIf (conservativeSize > maximumSize) .budgetExceeded
  let (payload, _) := packContext maximumSize stepSummaries summaries (payload, conservativeSize)
  let exactSize ← canonicalSize D (.planningContextPayload payload)
  Outcome.failIf (exactSize > maximumSize) .budgetExceeded
  let contextDigest ← D.digest (.planningContext payload)
    fun _ => ContextBuildError.canonicalization
  pure
    { payload := payload
      contextDigest := contextDigest
      canonicalSizeBytes := exactSize.toUInt64 }

end

/-! ## The head in the context -/

/-- The payload belongs to the head of a state. -/
structure PlanningContextPayload.AtHead (payload : PlanningContextPayload) (state : RunState) :
    Prop where
  runId : payload.runId = state.runId
  journalSequence : payload.journalSequence = state.journalSequence
  journalHeadDigest : payload.journalHeadDigest = state.journalHeadDigest

theorem packStep_atHead {state : RunState} {maximumSize totalSteps : ℕ}
    {acc : PlanningContextPayload × ℕ} {item : Option (PlanningStepSummary × ℕ)}
    (h : acc.1.AtHead state) : (packStep maximumSize totalSteps acc item).1.AtHead state := by
  unfold packStep
  split
  · exact h
  · dsimp only
    split
    · exact ⟨h.runId, h.journalSequence, h.journalHeadDigest⟩
    · exact h

theorem packCapability_atHead {state : RunState} {maximumSize totalCapabilities : ℕ}
    {acc : PlanningContextPayload × ℕ} {item : Option (PlanningCapabilitySummary × ℕ)}
    (h : acc.1.AtHead state) :
    (packCapability maximumSize totalCapabilities acc item).1.AtHead state := by
  unfold packCapability
  split
  · exact h
  · dsimp only
    split
    · exact ⟨h.runId, h.journalSequence, h.journalHeadDigest⟩
    · exact h

theorem packContext_atHead {state : RunState} {maximumSize : ℕ}
    {stepSummaries : List (PlanningStepSummary × ℕ)}
    {summaries : List (PlanningCapabilitySummary × ℕ)} {start : PlanningContextPayload × ℕ}
    (h : start.1.AtHead state) :
    (packContext maximumSize stepSummaries summaries start).1.AtHead state := by
  unfold packContext
  generalize List.range _ = indices
  induction indices generalizing start with
  | nil => exact h
  | cons index rest ih =>
    rw [List.foldl_cons]
    exact ih (packCapability_atHead (packStep_atHead h))

/-- **The context names the exact head of its state**, and its digest is that of its payload. -/
theorem buildContextOrdered_payload {D : Digests} {state : RunState}
    {completedToolOutputs : BTreeMap String ToolOutputRecord}
    {planningStepOrder completedToolOutputOrder : List String} {frontier : WorkFrontier}
    {registry : CapabilityRegistry} {planningConstraints : List PlanningConstraint}
    {budget : AgentLoopBudget} {context : PlanningContext}
    (h : buildContextOrdered D state completedToolOutputs planningStepOrder completedToolOutputOrder
      frontier registry planningConstraints budget = .ok context) :
    context.payload.AtHead state ∧
      ∃ canonical, D.canonicalize (.planningContext context.payload) = .ok canonical ∧
        sha256Digest canonical.sha256 = context.contextDigest := by
  simp only [buildContextOrdered, Outcome.bind_eq_ok, Outcome.exists_unit,
    Outcome.pure_eq_ok] at h
  obtain ⟨-, -, -, _, -, _, -, _, -, ⟨_, _⟩, -, _, -, ⟨_, _⟩, -, _, -, -, _, -, -, digest, hdigest,
    rfl⟩ := h
  exact ⟨packContext_atHead ⟨rfl, rfl, rfl⟩, Digests.digest_eq_ok.mp hdigest⟩

end Xgeny
