import Mathlib.Data.List.Sort
import Xgeny.State

set_option autoImplicit false

/-!
# The work frontier

`deriveFrontier` computes the coordination view of a run state: it checks the dependency graph,
visits the steps in topological order (the smallest ready step id first) and classifies each one
by its status and by the outcomes of its dependencies.

The visiting loop of the source runs until no step is ready. Here it is given one unit of fuel
for each step and one more; that it never runs out is part of the specification of the loop.
-/

namespace Xgeny

inductive ContinuationAction where
  | driveEffect
  | verify
  | admitStep
  deriving DecidableEq

structure FrontierAction where
  stepId : String
  action : ContinuationAction
  deriving DecidableEq

structure DependencyBlocker where
  stepId : String
  reason : DependencyBlockReason
  deriving DecidableEq

structure WaitingStep where
  stepId : String
  pendingDependencies : List String
  deriving DecidableEq

structure BlockedStep where
  stepId : String
  blockers : List DependencyBlocker
  deriving DecidableEq

/-- The coordination view derived from one run state. -/
structure WorkFrontier where
  runId : String
  revision : UInt64
  journalSequence : UInt64
  journalHeadDigest : String
  totalSteps : ℕ
  actionable : List FrontierAction
  waiting : List WaitingStep
  blocked : List BlockedStep
  verifiedCompletedStepIds : List String
  unverifiedCompletedStepIds : List String
  failedStepIds : List String
  manualRequiredStepIds : List String
  deriving DecidableEq

def WorkFrontier.nextAction (self : WorkFrontier) : Option FrontierAction := self.actionable.head?

/-- Every planned step has a receipt-bound completion. -/
def WorkFrontier.allStepsReceiptCompleted (self : WorkFrontier) : Bool :=
  0 < self.totalSteps && self.verifiedCompletedStepIds.length == self.totalSteps

inductive FrontierError where
  | selfDependency (stepId : String)
  | duplicateDependency (stepId dependencyId : String)
  | unknownDependency (stepId dependencyId : String)
  | dependencyCycle
  | activeDependencyNotReleased (stepId dependencyId : String) (reason : DependencyBlockReason)
  deriving DecidableEq

inductive DependencyOutcome where
  | satisfied
  | pending
  | blocked
  deriving DecidableEq

/-! ## Orders -/

/-- The position of a reason in the derived order of `DependencyBlockReason`. -/
def DependencyBlockReason.rank : DependencyBlockReason → ℕ
  | .notCompleted => 0
  | .failed => 1
  | .manualRequired => 2
  | .receiptMissing => 3
  | .dependencyBlocked => 4

/-- The derived order of `DependencyBlocker`: the step id first, then the reason. -/
def DependencyBlocker.le (a b : DependencyBlocker) : Prop :=
  a.stepId < b.stepId ∨ a.stepId = b.stepId ∧ a.reason.rank ≤ b.reason.rank

instance : DecidableRel DependencyBlocker.le := fun a b => inferInstanceAs
  (Decidable (a.stepId < b.stepId ∨ a.stepId = b.stepId ∧ a.reason.rank ≤ b.reason.rank))

def DependencyBlocker.lt (a b : DependencyBlocker) : Prop :=
  a.stepId < b.stepId ∨ a.stepId = b.stepId ∧ a.reason.rank < b.reason.rank

instance : DecidableRel DependencyBlocker.lt := fun a b => inferInstanceAs
  (Decidable (a.stepId < b.stepId ∨ a.stepId = b.stepId ∧ a.reason.rank < b.reason.rank))

/-- The order of `(rank, step_id)` in which actions are offered. -/
def rankedBefore (a b : ℕ × String × ContinuationAction) : Prop :=
  a.1 < b.1 ∨ a.1 = b.1 ∧ a.2.1 ≤ b.2.1

instance : DecidableRel rankedBefore := fun a b =>
  inferInstanceAs (Decidable (a.1 < b.1 ∨ a.1 = b.1 ∧ a.2.1 ≤ b.2.1))

/-- `Vec::dedup`: drop an element equal to the one kept before it. -/
def dedup {α : Type} [DecidableEq α] : List α → List α
  | [] => []
  | [a] => [a]
  | a :: b :: rest => if a = b then dedup (b :: rest) else a :: dedup (b :: rest)

/-! ## Assembly -/

structure FrontierAssembly where
  outcomes : BTreeMap String DependencyOutcome := ∅
  rankedActions : List (ℕ × String × ContinuationAction) := []
  waiting : List WaitingStep := []
  blocked : List BlockedStep := []
  verifiedCompletedStepIds : List String := []
  unverifiedCompletedStepIds : List String := []
  failedStepIds : List String := []
  manualRequiredStepIds : List String := []
  processed : ℕ := 0

namespace FrontierAssembly

/-- One iteration of `partition_dependencies`, before the lists are sorted. -/
def partitionStep (self : FrontierAssembly) (state : RunState)
    (acc : List String × List DependencyBlocker) (dependencyId : String) :
    Outcome FrontierError (List String × List DependencyBlocker) := do
  let outcome ← Outcome.expect self.outcomes[dependencyId]?
    "topological traversal processes dependencies first"
  match outcome with
  | .satisfied => pure acc
  | .pending => pure (acc.1 ++ [dependencyId], acc.2)
  | .blocked => do
    let dependency ← Outcome.expect state.steps[dependencyId]? "no entry found for key"
    pure (acc.1, acc.2 ++ [⟨dependencyId, blockerReason dependency⟩])

def partitionDependencies (self : FrontierAssembly) (state : RunState) (step : StepState) :
    Outcome FrontierError (List String × List DependencyBlocker) := do
  let acc ← Outcome.foldl (self.partitionStep state) ([], []) step.dependsOn
  pure (acc.1.insertionSort (· ≤ ·), dedup (acc.2.insertionSort DependencyBlocker.le))

/-- `record_status`: file the step under its status, and say what it means for its dependents. -/
def recordStatus (self : FrontierAssembly) (stepId : String) (step : StepState)
    (pendingDependencies : List String) (blockers : List DependencyBlocker) :
    FrontierAssembly × DependencyOutcome :=
  match step.status with
  | .planned =>
    if blockers ≠ [] then
      ({ self with blocked := self.blocked ++ [⟨stepId, blockers⟩] }, .blocked)
    else if pendingDependencies ≠ [] then
      ({ self with waiting := self.waiting ++ [⟨stepId, pendingDependencies⟩] }, .pending)
    else
      ({ self with rankedActions := self.rankedActions ++ [(5, stepId, .admitStep)] }, .pending)
  | .intentCommitted =>
    ({ self with rankedActions := self.rankedActions ++ [(4, stepId, .driveEffect)] }, .pending)
  | .executing =>
    ({ self with rankedActions := self.rankedActions ++ [(0, stepId, .driveEffect)] }, .pending)
  | .effectUnknown =>
    ({ self with rankedActions := self.rankedActions ++ [(1, stepId, .driveEffect)] }, .pending)
  | .reconciling =>
    ({ self with rankedActions := self.rankedActions ++ [(2, stepId, .driveEffect)] }, .pending)
  | .validating =>
    ({ self with rankedActions := self.rankedActions ++ [(3, stepId, .verify)] }, .pending)
  | .completed =>
    if receiptReleasesDependency step then
      ({ self with verifiedCompletedStepIds := self.verifiedCompletedStepIds ++ [stepId] },
        .satisfied)
    else
      ({ self with unverifiedCompletedStepIds := self.unverifiedCompletedStepIds ++ [stepId] },
        .blocked)
  | .failed => ({ self with failedStepIds := self.failedStepIds ++ [stepId] }, .blocked)
  | .manualRequired =>
    ({ self with manualRequiredStepIds := self.manualRequiredStepIds ++ [stepId] }, .blocked)

/-- The dependency named when an active step has an unreleased one. -/
def unreleasedDependency (pendingDependencies : List String) (blockers : List DependencyBlocker) :
    Outcome FrontierError (String × DependencyBlockReason) :=
  match blockers with
  | blocker :: _ => pure (blocker.stepId, blocker.reason)
  | [] => do
    let dependencyId ← Outcome.expect pendingDependencies.head?
      "unreleased dependency must be classified"
    pure (dependencyId, .notCompleted)

/-- The check of `record_step`: only a planned step may wait for a dependency. -/
def requireReleased (stepId : String) (step : StepState) (pendingDependencies : List String)
    (blockers : List DependencyBlocker) : Outcome FrontierError Unit :=
  if step.status ≠ .planned ∧ ¬ (blockers = [] ∧ pendingDependencies = []) then do
    let (dependencyId, reason) ← unreleasedDependency pendingDependencies blockers
    Outcome.fail (.activeDependencyNotReleased stepId dependencyId reason)
  else pure ()

def recordStep (self : FrontierAssembly) (state : RunState) (stepId : String) :
    Outcome FrontierError FrontierAssembly := do
  let step ← Outcome.expect state.steps[stepId]? "no entry found for key"
  let (pendingDependencies, blockers) ← self.partitionDependencies state step
  requireReleased stepId step pendingDependencies blockers
  let filed := self.recordStatus stepId step pendingDependencies blockers
  pure { filed.1 with
    outcomes := filed.1.outcomes.insert stepId filed.2
    processed := self.processed + 1 }

def finish (self : FrontierAssembly) (state : RunState) : WorkFrontier where
  runId := state.runId
  revision := state.revision
  journalSequence := state.journalSequence
  journalHeadDigest := state.journalHeadDigest
  totalSteps := state.steps.size
  actionable := (self.rankedActions.insertionSort rankedBefore).map fun a => ⟨a.2.1, a.2.2⟩
  waiting := self.waiting.insertionSort (fun a b => a.stepId ≤ b.stepId)
  blocked := self.blocked.insertionSort (fun a b => a.stepId ≤ b.stepId)
  verifiedCompletedStepIds := self.verifiedCompletedStepIds.insertionSort (· ≤ ·)
  unverifiedCompletedStepIds := self.unverifiedCompletedStepIds.insertionSort (· ≤ ·)
  failedStepIds := self.failedStepIds.insertionSort (· ≤ ·)
  manualRequiredStepIds := self.manualRequiredStepIds.insertionSort (· ≤ ·)

end FrontierAssembly

/-! ## The dependency graph -/

structure ValidatedFrontierGraph where
  remainingDependencies : BTreeMap String ℕ
  dependents : BTreeMap String (List String)
  zeroIndegree : BTreeSet String

/-- Check one dependency of `stepId` and index `stepId` under it. -/
def validateDependency (stepId : String)
    (acc : BTreeSet String × BTreeMap String (List String)) (dependencyId : String) :
    Outcome FrontierError (BTreeSet String × BTreeMap String (List String)) := do
  Outcome.failIf (dependencyId = stepId) (.selfDependency stepId)
  Outcome.failIf (dependencyId ∈ acc.1) (.duplicateDependency stepId dependencyId)
  let children ← Outcome.okOr acc.2[dependencyId]? (.unknownDependency stepId dependencyId)
  pure (acc.1.insert dependencyId, acc.2.insert dependencyId (children ++ [stepId]))

/-- Check all dependencies of one step. -/
def validateStep (acc : BTreeMap String ℕ × BTreeMap String (List String))
    (entry : String × StepState) :
    Outcome FrontierError (BTreeMap String ℕ × BTreeMap String (List String)) := do
  let (_, dependents) ← Outcome.foldl (validateDependency entry.1) (∅, acc.2) entry.2.dependsOn
  pure (acc.1.insert entry.1 entry.2.dependsOn.length, dependents)

def validateFrontierGraph (state : RunState) : Outcome FrontierError ValidatedFrontierGraph := do
  let (remaining, dependents) ←
    Outcome.foldl validateStep (∅, state.steps.map fun _ _ => []) state.steps.toList
  pure {
    remainingDependencies := remaining
    dependents := dependents.map fun _ children => children.insertionSort (· ≤ ·)
    zeroIndegree :=
      .ofList ((remaining.toList.filter fun entry => entry.2 == 0).map Prod.fst) compare }

/-! ## The visiting loop -/

/-- One child of a visited step: one dependency fewer, and ready when none is left. -/
def releaseChild (acc : BTreeMap String ℕ × BTreeSet String) (child : String) :
    Outcome FrontierError (BTreeMap String ℕ × BTreeSet String) := do
  let count ← Outcome.expect acc.1[child]? "dependent was indexed during validation"
  match count with
  | 0 => Outcome.abort "dependency count cannot underflow"
  | remaining + 1 =>
    pure (acc.1.insert child remaining, if remaining = 0 then acc.2.insert child else acc.2)

/-- Visit ready steps, the smallest id first, until none is ready. -/
def visitReady (state : RunState) (dependents : BTreeMap String (List String)) :
    ℕ → BTreeMap String ℕ → BTreeSet String → FrontierAssembly →
      Outcome FrontierError FrontierAssembly
  | fuel, remaining, ready, assembly =>
    match BTreeSet.first? ready with
    | none => .ok assembly
    | some stepId =>
      match fuel with
      | 0 => Outcome.abort "more ready steps than steps"
      | fuel + 1 => do
        let assembly ← assembly.recordStep state stepId
        let children ← Outcome.expect dependents[stepId]? "no entry found for key"
        let (remaining, ready) ← Outcome.foldl releaseChild (remaining, ready.erase stepId) children
        visitReady state dependents fuel remaining ready assembly

def deriveFrontier (state : RunState) : Outcome FrontierError WorkFrontier := do
  let graph ← validateFrontierGraph state
  let assembly ← visitReady state graph.dependents (state.steps.size + 1)
    graph.remainingDependencies graph.zeroIndegree {}
  Outcome.failIf (assembly.processed ≠ state.steps.size) .dependencyCycle
  pure (assembly.finish state)

end Xgeny
