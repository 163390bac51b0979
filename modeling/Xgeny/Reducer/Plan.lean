import Xgeny.Frontier.Model
import Xgeny.Reducer.ModelCalls

set_option autoImplicit false

/-!
# Plans and completion

The handlers through which steps enter the graph, one by one (`planStep`) or as an accepted plan
(`acceptPlan`), and the one that records the completion of the plan.

An accepted plan is checked against the owners of all semantic actions of the run, its
dependencies against the existing steps and against the plan itself, and the whole candidate graph
once more with `deriveFrontier`.
-/

namespace Xgeny

/-! ## Headers and action owners -/

/-- `validate_accepted_objective`. -/
def validateAcceptedObjective (objective : String) : Outcome TransitionError Unit :=
  Outcome.failIf (objective = "" ∨ byteLen objective > maxAcceptedObjectiveBytes ∨
    objective.toList.any isControl = true) .invalidAcceptedObjective

/-- The actions a step owns: that of its planned invocation and that of its intent. -/
def StepState.ownedActions (step : StepState) : List String :=
  (step.plannedInvocation.map PlannedInvocationBinding.actionDigest).toList ++
    (step.intent.map EffectIntent.actionDigest).toList

/-- Enter a step as the owner of an action, unless another step is. -/
def claimAction (stepId : String) (owners : BTreeMap String String) (actionDigest : String) :
    Outcome TransitionError (BTreeMap String String) := do
  Outcome.whenSome owners[actionDigest]? fun existingStepId =>
    Outcome.failIf (existingStepId ≠ stepId) (.duplicatePlannedAction stepId existingStepId)
  pure (owners.insert actionDigest stepId)

def existingActionOwners (state : RunState) : Outcome TransitionError (BTreeMap String String) :=
  Outcome.foldl (fun owners step => Outcome.foldl (claimAction step.stepId) owners step.ownedActions)
    ∅ (BTreeMap.vals state.steps)

/-- The checks on one step of a proposed plan. -/
def validateAcceptedPlanHeader (D : Digests) (state : RunState) (decision : ExpectedPlanningTurn)
    (acc : BTreeSet String × BTreeMap String String) (step : AcceptedPlanStep) :
    Outcome TransitionError (BTreeSet String × BTreeMap String String) := do
  (requirePlanningIdentifier "step_id" step.stepId).mapErr .planningContract
  validateAcceptedObjective step.objective
  (step.invocation.validate D).mapErr .planningContract
  let owners ← claimAction step.stepId acc.2 step.invocation.actionDigest
  Outcome.failIf (step.invocation.proposalDigest ≠ decision.proposalDigest)
    (.planProposalDigestMismatch step.stepId)
  Outcome.failIf (step.stepId ∈ state.steps ∨ step.stepId ∈ acc.1) (.duplicateStep step.stepId)
  pure (acc.1.insert step.stepId, owners)

def validateAcceptedPlanHeaders (D : Digests) (state : RunState) (decision : ExpectedPlanningTurn)
    (steps : List AcceptedPlanStep) : Outcome TransitionError (BTreeSet String) := do
  let actionOwners ← existingActionOwners state
  let acc ← Outcome.foldl (validateAcceptedPlanHeader D state decision) (∅, actionOwners) steps
  pure acc.1

/-! ## The candidate graph -/

def mapPlanFrontierError : FrontierError → TransitionError
  | .selfDependency stepId => .selfDependency stepId
  | .duplicateDependency stepId dependencyId => .duplicateDependency stepId dependencyId
  | .unknownDependency stepId dependencyId => .unknownDependency stepId dependencyId
  | .dependencyCycle => .dependencyCycle
  | .activeDependencyNotReleased stepId dependencyId reason =>
    .dependencyNotReleased stepId dependencyId reason

/-- Why an existing step can never release a new dependent; a step that is only unfinished can. -/
def planBlockReason (blockedExisting : BTreeSet String) (dependencyId : String)
    (existing : StepState) : Option DependencyBlockReason :=
  (if dependencyId ∈ blockedExisting then some .dependencyBlocked
    else dependencyReleaseBlockReason existing).filter fun reason => reason != .notCompleted

/-- The checks on one dependency of a proposed step. -/
def checkPlanDependency (state : RunState) (proposedIds blockedExisting : BTreeSet String)
    (stepId : String) (acc : BTreeSet String × ℕ) (dependencyId : String) :
    Outcome TransitionError (BTreeSet String × ℕ) := do
  Outcome.failIf (acc.2 + 1 > maxAcceptedPlanEdges) .acceptedPlanEdgeBudgetExceeded
  Outcome.failIf (dependencyId = stepId) (.selfDependency stepId)
  Outcome.failIf (dependencyId ∈ acc.1) (.duplicateDependency stepId dependencyId)
  Outcome.failIf (dependencyId ∉ state.steps ∧ dependencyId ∉ proposedIds)
    (.unknownDependency stepId dependencyId)
  Outcome.whenSome state.steps[dependencyId]? fun existing =>
    Outcome.whenSome (planBlockReason blockedExisting dependencyId existing) fun reason =>
      Outcome.fail (.planDependencyBlocked stepId dependencyId reason)
  pure (acc.1.insert dependencyId, acc.2 + 1)

/-- Check one proposed step and add it to the candidate. -/
def addPlanStep (state : RunState) (proposedIds blockedExisting : BTreeSet String)
    (acc : RunState × ℕ) (step : AcceptedPlanStep) : Outcome TransitionError (RunState × ℕ) := do
  let checked ← Outcome.foldl
    (checkPlanDependency state proposedIds blockedExisting step.stepId) (∅, acc.2) step.dependsOn
  let fresh := StepState.fresh step.stepId step.objective step.dependsOn (some step.invocation)
  pure ({ acc.1 with steps := acc.1.steps.insert step.stepId fresh }, checked.2)

def buildAcceptedPlanCandidate (state : RunState) (steps : List AcceptedPlanStep)
    (proposedIds : BTreeSet String) : Outcome TransitionError RunState := do
  let frontier ← (deriveFrontier state).mapErr mapPlanFrontierError
  let blockedExisting := .ofList (frontier.blocked.map BlockedStep.stepId) compare
  let built ← Outcome.foldl (addPlanStep state proposedIds blockedExisting) (state, 0) steps
  pure built.1

/-- A total that does not fit in 32 bits or exceeds its limit. -/
def exceedsBudget (total : ℕ) (limit : UInt32) : Bool :=
  match UInt32.tryFrom total with
  | none => true
  | some total => total > limit

def acceptPlan (D : Digests) (state : RunState) (decision : ExpectedPlanningTurn)
    (steps : List AcceptedPlanStep) : Outcome TransitionError RunState := do
  decision.validate.mapErr .planningContract
  validateModelCallSuccess state decision
  let loopState ← Outcome.okOr state.agentLoop .agentLoopNotConfigured
  Outcome.failIf (loopState.completionCandidate.isSome = true) .completionCandidateAlreadyRecorded
  let expectedTurn ← Outcome.okOr (loopState.acceptedModelTurns.checkedAdd 1)
    .modelTurnBudgetExceeded
  Outcome.failIf (decision.turnIndex ≠ expectedTurn)
    (.unexpectedPlanningTurn expectedTurn decision.turnIndex)
  Outcome.failIf (expectedTurn > loopState.budget.maxModelTurns) .modelTurnBudgetExceeded
  Outcome.failIf (steps = [] ∨ steps.length > maxAcceptedPlanSteps)
    (.acceptedPlanStepCountInvalid steps.length)
  Outcome.failIf
    (exceedsBudget (state.steps.size + steps.length) loopState.budget.maxPlannedSteps = true)
    .plannedStepBudgetExceeded
  let proposedIds ← validateAcceptedPlanHeaders D state decision steps
  let candidate ← buildAcceptedPlanCandidate state steps proposedIds
  let _ ← (deriveFrontier candidate).mapErr mapPlanFrontierError
  let candidateLoop ← Outcome.expect candidate.agentLoop "candidate retains configured loop"
  let candidateLoop ← settleSuccessfulModelCall
    { candidateLoop with acceptedModelTurns := expectedTurn }
  pure { candidate with agentLoop := some candidateLoop }

/-! ## Single steps and completion -/

/-- A configured loop still admits one more step. -/
def checkStepBudget (state : RunState) : Outcome TransitionError Unit :=
  Outcome.whenSome state.agentLoop fun loopState => do
    Outcome.failIf (loopState.completionCandidate.isSome = true)
      .completionCandidateAlreadyRecorded
    Outcome.failIf (exceedsBudget (state.steps.size + 1) loopState.budget.maxPlannedSteps = true)
      .plannedStepBudgetExceeded

/-- The checks on one dependency of a single planned step. -/
def checkStepDependency (state : RunState) (stepId : String) (unique : BTreeSet String)
    (dependencyId : String) : Outcome TransitionError (BTreeSet String) := do
  Outcome.failIf (dependencyId = stepId) (.selfDependency stepId)
  Outcome.failIf (dependencyId ∈ unique) (.duplicateDependency stepId dependencyId)
  Outcome.failIf (dependencyId ∉ state.steps) (.unknownDependency stepId dependencyId)
  pure (unique.insert dependencyId)

def planStep (state : RunState) (stepId objective : String) (dependsOn : List String)
    (plannedInvocation : Option PlannedInvocationBinding) : Outcome TransitionError RunState := do
  checkStepBudget state
  Outcome.failIf (stepId ∈ state.steps) (.duplicateStep stepId)
  let _ ← Outcome.foldl (checkStepDependency state stepId) ∅ dependsOn
  pure { state with
    steps := state.steps.insert stepId
      (StepState.fresh stepId objective dependsOn plannedInvocation) }

def recordCompletionCandidate (state : RunState) (decision : ExpectedPlanningTurn)
    (candidateId summaryDigest : String) (completionOutputRecordDigest : Option String) :
    Outcome TransitionError RunState := do
  decision.validate.mapErr .planningContract
  validateModelCallSuccess state decision
  (requirePlanningIdentifier "candidate_id" candidateId).mapErr .planningContract
  (requirePlanningDigest "summary_digest" summaryDigest).mapErr .planningContract
  Outcome.whenSome completionOutputRecordDigest fun recordDigest =>
    (requirePlanningDigest "completion_output_record_digest" recordDigest).mapErr .planningContract
  let frontier ← (deriveFrontier state).mapErr mapPlanFrontierError
  Outcome.failIf (¬ frontier.allStepsReceiptCompleted = true)
    .completionCandidateRequiresReceiptCompletedPlan
  let loopState ← Outcome.okOr state.agentLoop .agentLoopNotConfigured
  Outcome.failIf (loopState.completionCandidate.isSome = true) .completionCandidateAlreadyRecorded
  let expectedTurn ← Outcome.okOr (loopState.acceptedModelTurns.checkedAdd 1)
    .modelTurnBudgetExceeded
  Outcome.failIf (decision.turnIndex ≠ expectedTurn)
    (.unexpectedPlanningTurn expectedTurn decision.turnIndex)
  Outcome.failIf (expectedTurn > loopState.budget.maxModelTurns) .modelTurnBudgetExceeded
  let loopState ← settleSuccessfulModelCall { loopState with
    acceptedModelTurns := expectedTurn
    completionCandidate := some {
      candidateId := candidateId
      contextDigest := decision.contextDigest
      proposalDigest := decision.proposalDigest
      summaryDigest := summaryDigest
      completionOutputRecordDigest := completionOutputRecordDigest } }
  pure { state with agentLoop := some loopState }

end Xgeny
