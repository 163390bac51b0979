import Xgeny.Store.Snapshots

set_option autoImplicit false

/-!
# Reading single records

The reads of a store that return one record, each checked at its point of the index, and the read of
the completion output, which is tied to the head that the caller expects.

* `verifyMaterialPoint`, `verifyPlanInputPoint`: one stored record against the index;
* `buildCompletionOutput`: the output of the projected candidate;
* `MemoryRunStore.loadInvocationMaterial`, …: the reads of the memory store.
-/

namespace Xgeny

section

variable (D : Digests)

/-- The material of one effect agrees with its intent. -/
def verifyMaterialPoint (index : VerifiedRunIndex) (effectId : String)
    (material : Option InvocationMaterialRecord) : Outcome StoreError Unit :=
  match index.intents[effectId]?, material with
  | none, none => pure ()
  | none, some _ => Outcome.fail (.corrupt "invocation material has no committed effect intent")
  | some _, none =>
    Outcome.fail (.corrupt "committed effect intent has no invocation material descriptor")
  | some anchor, some material => do
    let state ← Outcome.okOr index.state (.corrupt "invocation material exists without a Run")
    (material.verifyFor D state.runId anchor.stepId anchor.intent).mapErr fun error =>
      .corrupt ("invocation material for effect `" ++ effectId ++ "` is invalid: " ++ error.display)

/-- The input of one step agrees with its binding. -/
def verifyPlanInputPoint (index : VerifiedRunIndex) (stepId : String)
    (input : Option PlannedInvocationMaterialRecord) : Outcome StoreError Unit :=
  match index.plannedInvocations[stepId]?, input with
  | none, none => pure ()
  | none, some _ => Outcome.fail (.corrupt "planned invocation input has no accepted Step")
  | some _, none => Outcome.fail (.corrupt "accepted Step has no planned invocation input")
  | some anchor, some input => do
    let state ← Outcome.okOr index.state (.corrupt "planned input exists without a Run")
    (input.verifyFor D state.runId stepId anchor.binding).mapErr fun error =>
      .corrupt ("planned invocation input for Step `" ++ stepId ++ "` is invalid: " ++ error.display)

def buildCompletionOutput (index : VerifiedRunIndex) (expected : ExpectedHead) (candidateId : String)
    (stored : Option StoredCompletionOutput) : Outcome StoreError (Option CompletionOutputRecord) := do
  Outcome.failIf (expected ≠ index.head) (.headConflict expected index.head)
  match (index.state.bind RunState.agentLoop).bind AgentLoopState.completionCandidate with
  | none => do
    Outcome.failIf (stored.isSome = true)
      (.corrupt "completion output exists without a projected candidate")
    pure none
  | some candidate =>
    if candidate.candidateId ≠ candidateId then pure none
    else do
      verifyCompletionOutputRecord D index stored
      match candidate.completionOutputRecordDigest, stored with
      | none, none => pure none
      | some expectedDigest, some stored =>
        if expectedDigest = stored.record.recordDigest then pure (some stored.record)
        else Outcome.fail (.corrupt "completion output differs from its projected candidate")
      | _, _ => Outcome.fail (.corrupt "completion output differs from its projected candidate")

namespace MemoryRunStore

variable (self : MemoryRunStore)

def loadInvocationMaterial (effectId : String) :
    Outcome StoreError (Option InvocationMaterialRecord) := do
  verifyMaterialPoint D self.index effectId self.materials[effectId]?
  pure self.materials[effectId]?

def loadPlannedInvocation (stepId : String) :
    Outcome StoreError (Option PlannedInvocationMaterialRecord) := do
  verifyPlanInputPoint D self.index stepId self.planInputs[stepId]?
  pure self.planInputs[stepId]?

def loadExecutionReceipts : Outcome StoreError (List ExecutionReceiptBody) :=
  pure (self.receipts.map StoredExecutionReceipt.receipt)

def loadCompletionOutput (expected : ExpectedHead) (candidateId : String) :
    Outcome StoreError (Option CompletionOutputRecord) :=
  buildCompletionOutput D self.index expected candidateId self.completionOutput

end MemoryRunStore

end

end Xgeny
