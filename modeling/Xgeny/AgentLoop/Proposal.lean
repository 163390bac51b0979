import Xgeny.AgentLoop.Context
import Xgeny.Reducer.Plan

set_option autoImplicit false

/-!
# Validating a proposal

A proposal is checked before anything is materialized: its bounds, the structure of its steps, and
the facts of every invocation, once under a preflight step id and once more under the final one.

* `validateProposalStructure`: keys, objectives, dependencies, and the search for a cycle;
* `preparePlan`: the normalized steps with their derived ids and action digests.
-/

namespace Xgeny

/-- `MAX_PROPOSAL_BYTES`. -/
def maxProposalBytes : ℕ := 256 * 1024

/-- `MAX_PROPOSAL_KEY_BYTES`. -/
def maxProposalKeyBytes : ℕ := 128

/-! ## Errors -/

/-- The result of validating an untrusted proposal. -/
inductive ProposalRejection where
  | emptyPlan
  | tooManySteps
  | tooManyEdges
  | proposalTooLarge
  | invalidStepKey
  | duplicateStepKey
  | invalidObjective
  | invalidDependency
  | duplicateDependency
  | unknownDependency
  | blockedExistingDependency
  | selfDependency
  | dependencyCycle
  | capabilityUnavailable
  | capabilityUnsupported
  | invocationInvalid
  | invocationDiagnosed (diagnostic : InvocationDiagnostic)
  | duplicateSemanticAction
  | plannedStepBudgetExceeded
  | toolCallBudgetExhausted
  | completionWithoutReceiptCompletedPlan
  | invalidCompletionSummary
  deriving DecidableEq

inductive AgentLoopError where
  | store (error : StoreError)
  | completionOutput (error : CompletionOutputError)
  | eventFactory (error : EventFactoryError)
  | eventMetadata
  | frontier (error : FrontierError)
  | planningContract (error : PlanningContractError)
  | runNotInitialized
  | leaseRunMismatch
  | budgetMismatch
  | modelCallBudgetMismatch
  | agentLoopNotConfigured
  | modelCallLifecycleNotConfigured
  | modelCallNotActive
  | modelCallIdMismatch
  | modelCallNoLongerActive
  | budgetCounterOverflow
  | invalidPlannerRequestProfileDigest
  | canonicalization
  | capabilityCatalog
  | planningSnapshotMismatch
  | completionCandidateNotProjected
  | completionOutputMissing
  | completionOutputMismatch
  deriving DecidableEq

/-! ## Structure -/

/-- `valid_proposal_identifier`. -/
def validProposalIdentifier (value : String) : Bool :=
  value != "" && decide (byteLen value ≤ maxProposalKeyBytes) && (bytes value).all isIdentifierByte

/-- `valid_bounded_text`. -/
def validBoundedText (value : String) (maximum : ℕ) : Bool :=
  value != "" && decide (byteLen value ≤ maximum) && !value.toList.any isControl

/-- `valid_existing_step_id`. -/
def validExistingStepId (value : String) : Bool := validBoundedText value 256

/-- The first pass over the steps: keys and objectives. -/
def checkProposedStep (keys : BTreeSet String) (step : ProposedPlanStep) :
    Outcome ProposalRejection (BTreeSet String) := do
  Outcome.failIf (validProposalIdentifier step.key = false) .invalidStepKey
  let keys ← BTreeSet.insertNew keys step.key .duplicateStepKey
  Outcome.failIf (validBoundedText step.objective maxAcceptedObjectiveBytes = false)
    .invalidObjective
  pure keys

/-- The accounting of edges: their number, and for every key how many proposed steps it depends on
and which depend on it. -/
structure ProposalGraph where
  edgeCount : ℕ
  indegree : BTreeMap String ℕ
  children : BTreeMap String (List String)

/-- No edge between the given keys. -/
def ProposalGraph.new (keys : BTreeSet String) : ProposalGraph where
  edgeCount := 0
  indegree := BTreeMap.insertAll id (fun _ => 0) ∅ keys.toList
  children := BTreeMap.insertAll id (fun _ => []) ∅ keys.toList

/-- The checks on a dependency that names an existing step. -/
def checkExistingDependency (state : RunState) (frontier : WorkFrontier) (context : PlanningContext)
    (stepId : String) : Outcome ProposalRejection Unit := do
  Outcome.failIf (validExistingStepId stepId = false) .invalidDependency
  Outcome.failIf (¬ context.payload.steps.any (fun summary => summary.stepId == stepId) = true)
    .unknownDependency
  let existing ← Outcome.okOr state.steps[stepId]? .unknownDependency
  Outcome.failIf ((dependencyReleaseBlockReason existing).any (fun reason => reason != .notCompleted)
    = true) .blockedExistingDependency
  Outcome.failIf (frontier.blocked.any (fun blocked => blocked.stepId == stepId) = true)
    .blockedExistingDependency

/-- The checks on a dependency that names a step of the proposal; the edge is entered. -/
def checkProposedDependency (keys : BTreeSet String) (graph : ProposalGraph) (stepKey key : String) :
    Outcome ProposalRejection ProposalGraph := do
  Outcome.failIf (validProposalIdentifier key = false) .invalidDependency
  Outcome.failIf (key = stepKey) .selfDependency
  Outcome.failIf (key ∉ keys) .unknownDependency
  let degree ← Outcome.expect graph.indegree[stepKey]? "proposal keys were indexed"
  let dependents ← Outcome.expect graph.children[key]? "proposal dependency keys were indexed"
  pure { graph with
    indegree := graph.indegree.insert stepKey (degree + 1)
    children := graph.children.insert key (dependents ++ [stepKey]) }

/-- One dependency of a step, with the dependencies of the step seen so far. -/
def checkDependency (state : RunState) (frontier : WorkFrontier) (context : PlanningContext)
    (keys : BTreeSet String) (stepKey : String) (acc : List PlanDependency × ProposalGraph)
    (dependency : PlanDependency) : Outcome ProposalRejection (List PlanDependency × ProposalGraph) := do
  let graph := { acc.2 with edgeCount := acc.2.edgeCount + 1 }
  Outcome.failIf (graph.edgeCount > maxAcceptedPlanEdges) .tooManyEdges
  Outcome.failIf (dependency ∈ acc.1) .duplicateDependency
  let graph ← match dependency with
    | .existingStep stepId => do
      checkExistingDependency state frontier context stepId
      pure graph
    | .proposedStep key => checkProposedDependency keys graph stepKey key
  pure (acc.1 ++ [dependency], graph)

/-- The second pass over the steps: the dependencies of one of them. -/
def checkDependencies (state : RunState) (frontier : WorkFrontier) (context : PlanningContext)
    (keys : BTreeSet String) (graph : ProposalGraph) (step : ProposedPlanStep) :
    Outcome ProposalRejection ProposalGraph := do
  let (_, graph) ← Outcome.foldl (checkDependency state frontier context keys step.key) ([], graph)
    step.dependsOn
  pure graph

/-- One child of a visited key: one dependency fewer, and ready when none is left. -/
def releaseProposal (acc : BTreeMap String ℕ × BTreeSet String) (child : String) :
    Outcome ProposalRejection (BTreeMap String ℕ × BTreeSet String) := do
  let degree ← Outcome.expect acc.1[child]? "proposal child was indexed"
  match degree with
  | 0 => Outcome.abort "a recorded dependency cannot underflow"
  | degree + 1 =>
    pure (acc.1.insert child degree, if degree = 0 then acc.2.insert child else acc.2)

/-- Visit the ready keys, the smallest first, until none is ready, and count them. The first argument
bounds the number of visits. -/
def visitProposals (children : BTreeMap String (List String)) :
    ℕ → BTreeMap String ℕ → BTreeSet String → ℕ → Outcome ProposalRejection ℕ
  | fuel, indegree, ready, visited =>
    match BTreeSet.first? ready with
    | none => pure visited
    | some key =>
      match fuel with
      | 0 => Outcome.abort "more ready keys than keys"
      | fuel + 1 => do
        let dependents ← Outcome.expect children[key]? "no entry found for key"
        let (indegree, ready) ←
          Outcome.foldl releaseProposal (indegree, ready.erase key) dependents
        visitProposals children fuel indegree ready (visited + 1)

def validateProposalStructure (state : RunState) (frontier : WorkFrontier)
    (context : PlanningContext) (steps : List ProposedPlanStep) :
    Outcome ProposalRejection Unit := do
  let keys ← Outcome.foldl checkProposedStep ∅ steps
  let graph ← Outcome.foldl (checkDependencies state frontier context keys) (.new keys) steps
  let ready := .ofList ((graph.indegree.toList.filter fun entry => entry.2 == 0).map Prod.fst) compare
  let visited ← visitProposals graph.children steps.length graph.indegree ready 0
  Outcome.failIf (visited ≠ steps.length) .dependencyCycle

/-! ## Invocations -/

/-- `map_invocation_rejection`. -/
def mapInvocationRejection (J : Schemas) (error : AdmissionError) (schema arguments : Json) :
    ProposalRejection :=
  match InvocationDiagnostic.fromAdmission J error schema arguments with
  | some diagnostic => .invocationDiagnosed diagnostic
  | none =>
    match error with
    | .definitionNotFound _ _ => .capabilityUnavailable
    | .unsupportedEffectClass _ | .definitionDoesNotSupportIdempotencyKey
    | .unsupportedExecutionStyle => .capabilityUnsupported
    | _ => .invocationInvalid

/-- The derived order of `PlanDependency`: existing steps first. -/
def PlanDependency.le : PlanDependency → PlanDependency → Prop
  | .existingStep a, .existingStep b => a ≤ b
  | .existingStep _, .proposedStep _ => True
  | .proposedStep _, .existingStep _ => False
  | .proposedStep a, .proposedStep b => a ≤ b

instance : DecidableRel PlanDependency.le
  | .existingStep a, .existingStep b => inferInstanceAs (Decidable (a ≤ b))
  | .existingStep _, .proposedStep _ => isTrue trivial
  | .proposedStep _, .existingStep _ => isFalse id
  | .proposedStep a, .proposedStep b => inferInstanceAs (Decidable (a ≤ b))

structure ValidatedPlanStep where
  key : String
  objective : String
  dependsOn : List PlanDependency
  capability : CapabilityRef
  normalizedArguments : Json
  definitionDigest : String
  semanticActionDigest : String
  materialDigest : String
  effectClass : ProtocolEffectClass
  deriving DecidableEq

structure PreparedPlanStep where
  stepId : String
  objective : String
  dependsOn : List String
  capability : CapabilityRef
  normalizedArguments : Json
  definitionDigest : String
  actionDigest : String
  materialDigest : String
  effectClass : ProtocolEffectClass
  deriving DecidableEq

structure PreparedPlan where
  proposalDigest : String
  steps : List PreparedPlanStep
  deriving DecidableEq

section

variable (D : Digests)

/-- `digest_serializable` of the agent loop. -/
def agentLoopDigest (input : DigestInput) : Outcome AgentLoopError String :=
  D.digest input fun _ => .canonicalization

def preflightStepId (runId contextDigest proposalKey : String) : Outcome AgentLoopError String := do
  let digest ← agentLoopDigest D (.preflightStepId runId contextDigest proposalKey)
  pure (contentId "preflight" digest)

/-- The id of a step of an accepted proposal. -/
def planStepId (runId proposalDigest proposalKey : String) : Outcome AgentLoopError String := do
  let digest ← agentLoopDigest D (.planStepId runId proposalDigest proposalKey)
  pure (contentId "step" digest)

def deriveStepIds (runId proposalDigest : String) (steps : List ValidatedPlanStep) :
    Outcome AgentLoopError (BTreeMap String String) :=
  Outcome.foldl (fun ids step => do
    let stepId ← planStepId D runId proposalDigest step.key
    pure (ids.insert step.key stepId)) ∅ steps

/-- What the digest of a validated proposal covers of a step. -/
def ValidatedPlanStep.digestStep (self : ValidatedPlanStep) : AcceptedPlanDigestStep where
  proposalKey := self.key
  objective := self.objective
  dependsOn := self.dependsOn
  capability := self.capability
  definitionDigest := self.definitionDigest
  semanticActionDigest := self.semanticActionDigest
  materialDigest := self.materialDigest

variable (J : Schemas) (state : RunState) (context : PlanningContext)
  (registry : CapabilityRegistry) (resolver : ResourceResolver)

/-- The first derivation of the facts of a step, under its preflight id. -/
def validatePlanStep (acc : BTreeSet String × List ValidatedPlanStep) (step : ProposedPlanStep) :
    Outcome ProposalRejection (BTreeSet String × List ValidatedPlanStep) := do
  Outcome.failIf
    (¬ context.payload.capabilities.any (fun summary => summary.capability == step.capability) = true)
    .capabilityUnavailable
  let definition ← Outcome.okOr (registry.definition step.capability) .capabilityUnavailable
  Outcome.failIf (ExecutionStyle.sync ∉ definition.spec.execution.styles ∨
    definition.spec.effect.criticalActions ≠ []) .capabilityUnsupported
  let preflightStepId ← (preflightStepId D state.runId context.contextDigest step.key).mapErr
    fun _ => ProposalRejection.invocationInvalid
  let facts ← (prepareInvocationFacts D J state.runId preflightStepId step.capability step.arguments
    registry resolver).mapErr
      fun error => mapInvocationRejection J error definition.spec.inputSchema step.arguments
  let semanticActionDigests ← BTreeSet.insertNew acc.1 facts.semanticActionDigest
    .duplicateSemanticAction
  let validated : ValidatedPlanStep :=
    { key := step.key
      objective := step.objective
      dependsOn := step.dependsOn
      capability := step.capability
      normalizedArguments := facts.normalizedArguments
      definitionDigest := facts.definitionDigest
      semanticActionDigest := facts.semanticActionDigest
      materialDigest := facts.materialDigest
      effectClass := definition.spec.effect.class_ }
  pure (semanticActionDigests, acc.2 ++ [validated])

/-- The id of the step that a dependency names. -/
def resolveDependency (stepIds : BTreeMap String String) :
    PlanDependency → Outcome ProposalRejection String
  | .existingStep stepId => pure stepId
  | .proposedStep key => Outcome.expect stepIds[key]? "no entry found for key"

/-- The second derivation of the facts, from the normalized arguments and under the final id. -/
def finalInvocationFacts (stepId : String) (step : ValidatedPlanStep) :
    Outcome ProposalRejection PreparedInvocationFacts :=
  match prepareInvocationFacts D J state.runId stepId step.capability step.normalizedArguments
    registry resolver with
  | .ok facts => pure facts
  | .error (.panic message) => Outcome.abort message
  | .error (.err error) => do
    let definition ← Outcome.expect (registry.definition step.capability) "validated definition"
    Outcome.fail
      (mapInvocationRejection J error definition.spec.inputSchema step.normalizedArguments)

/-- The final form of one step. -/
def preparePlanStep (stepIds : BTreeMap String String) (step : ValidatedPlanStep) :
    Outcome ProposalRejection PreparedPlanStep := do
  let stepId ← Outcome.expect stepIds[step.key]? "no entry found for key"
  let finalFacts ← finalInvocationFacts D J state registry resolver stepId step
  Outcome.failIf (finalFacts.normalizedArguments ≠ step.normalizedArguments ∨
    finalFacts.definitionDigest ≠ step.definitionDigest ∨
    finalFacts.semanticActionDigest ≠ step.semanticActionDigest ∨
    finalFacts.materialDigest ≠ step.materialDigest) .invocationInvalid
  let actionDigest ← (plannedActionOccurrenceDigest D state.runId stepId
    finalFacts.semanticActionDigest).mapErr fun _ => ProposalRejection.invocationInvalid
  let dependsOn ← Outcome.foldl (fun ids dependency => do
    let stepId ← resolveDependency stepIds dependency
    pure (ids ++ [stepId])) [] step.dependsOn
  pure
    { stepId := stepId
      objective := step.objective
      dependsOn := dependsOn.insertionSort (· ≤ ·)
      capability := step.capability
      normalizedArguments := finalFacts.normalizedArguments
      definitionDigest := finalFacts.definitionDigest
      actionDigest := actionDigest
      materialDigest := finalFacts.materialDigest
      effectClass := step.effectClass }

/-- The steps of a proposal in the order of their keys, each with sorted dependencies. -/
def normalizeProposal (steps : List ProposedPlanStep) : List ProposedPlanStep :=
  (steps.insertionSort fun a b => a.key ≤ b.key).map fun step =>
    { step with dependsOn := step.dependsOn.insertionSort PlanDependency.le }

/-- The bounds of a proposal that are checked before its structure. -/
def checkProposalBounds (budget : AgentLoopBudget) (steps : List ProposedPlanStep) :
    Outcome ProposalRejection Unit := do
  Outcome.failIf (steps = []) .emptyPlan
  Outcome.failIf (steps.length > maxAcceptedPlanSteps) .tooManySteps
  Outcome.failIf (exceedsBudget (state.steps.size + steps.length) budget.maxPlannedSteps = true)
    .plannedStepBudgetExceeded
  let canonical ← D.toVec (.rawPlanProposal state.runId context.contextDigest steps)
    fun _ => ProposalRejection.invocationInvalid
  Outcome.failIf (canonical.size > maxProposalBytes) .proposalTooLarge

def preparePlan (frontier : WorkFrontier) (budget : AgentLoopBudget)
    (steps : List ProposedPlanStep) : Outcome ProposalRejection PreparedPlan := do
  checkProposalBounds D state context budget steps
  validateProposalStructure state frontier context steps
  let (_, validated) ← Outcome.foldl (validatePlanStep D J state context registry resolver) (∅, [])
    (normalizeProposal steps)
  let proposalDigest ← (agentLoopDigest D (.acceptedPlan state.runId context.contextDigest
    (validated.map ValidatedPlanStep.digestStep))).mapErr
      fun _ => ProposalRejection.invocationInvalid
  let stepIds ← (deriveStepIds D state.runId proposalDigest validated).mapErr
    fun _ => ProposalRejection.invocationInvalid
  let prepared ← Outcome.foldl (fun prepared step => do
    let preparedStep ← preparePlanStep D J state registry resolver stepIds step
    pure (prepared ++ [preparedStep])) [] validated
  pure { proposalDigest := proposalDigest, steps := prepared }

end

end Xgeny
