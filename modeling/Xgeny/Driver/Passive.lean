import Xgeny.AgentLoop.Discipline
import Xgeny.Driver.Calls
import Xgeny.Runtime.Executor

set_option autoImplicit false

/-!
# What leaves the intents alone

Most of what runs under the driver neither commits an intent nor executes one: the ticks of the agent
loop, the loads, and every move of the effect runtime besides an execution.

* `RunEventBody.isIntent`, `RuntimeOp.Passive`: events that commit an intent, and operations that
  neither commit nor execute one;
* **`tick_passive`**: a tick is passive, whatever the planner proposes;
* `finishReconciliation_passive`, `afterExecution_passive`: so is the effect runtime, but for the
  execution itself.
-/

namespace Xgeny

open Prog (Only only_bind only_lift only_mapErr only_pure)

/-- The event commits an intent. -/
def RunEventBody.isIntent : RunEventBody → Bool
  | .effectIntentCommitted _ _ => true
  | _ => false

/-- The operation neither commits an intent nor executes one. -/
def RuntimeOp.Passive : RuntimeOp → Prop
  | .append call => call.event.body.isIntent = false
  | .execute _ => False
  | _ => True

theorem RunEventBody.isIntent_iff {body : RunEventBody} :
    body.isIntent = true ↔ ∃ stepId intent, body = .effectIntentCommitted stepId intent := by
  cases body <;> simp [isIntent]

theorem RuntimeOp.Reads.passive {op : RuntimeOp} (h : op.Reads) : op.Passive := by
  cases op with
  | append | execute => exact h.elim
  | _ => trivial

section Tick

variable {D : Digests} {P : Protocol} {J : Schemas} {host : Host} {loop : AgentLoop}
  {inputs : TickInputs} {state reserved : RunState} {body : RunEventBody} {callId : String}
  {frontier : WorkFrontier} {context : PlanningContext} {modelCalls : ModelCallLifecycleState}
  {loopState : AgentLoopState} {toolCalls : UInt32}

/-! ## Ticks -/

theorem appendLoopEvent_passive {Q : Commit → Prop} (hbody : body.isIntent = false)
    (hQ : ∀ commit, Q commit) : Only RuntimeOp.Passive (appendLoopEvent P state body) Q :=
  appendLoopEvent_only trivial (fun _ => hbody) hQ

theorem resolveModelCallConflict_passive {intent : ModelCallConflictIntent} :
    Only RuntimeOp.Passive (resolveModelCallConflict P callId intent) fun _ => True := by
  simp only [resolveModelCallConflict, only_bind]
  refine loadInitialized_only trivial fun current => only_lift.mpr fun active _ => ?_
  split
  · trivial
  · split
    · simp only [only_bind]
      exact appendLoopEvent_passive rfl fun _ => trivial
    · simp only [only_bind]
      exact appendLoopEvent_passive rfl fun _ => trivial

theorem settleOrResolve_passive {intent : ModelCallConflictIntent}
    {settled : Routine AgentLoopError Commit} {finish : Commit → Outcome AgentLoopError AgentLoopTick}
    (h : Only RuntimeOp.Passive settled fun _ => True) :
    Only RuntimeOp.Passive (settleOrResolve P callId intent settled finish) fun _ => True := by
  simp only [settleOrResolve, only_bind]
  refine Only.attempt (h.mono fun commit _ => ?_) fun error => ?_
  · exact only_lift.mpr fun _ _ => trivial
  · split
    · exact only_lift.mpr fun _ _ => trivial
    · exact resolveModelCallConflict_passive
    · trivial

theorem recordProposalRejection_passive {reason : ProposalRejection} :
    Only RuntimeOp.Passive (recordProposalRejection P state callId reason) fun _ => True :=
  settleOrResolve_passive (appendLoopEvent_passive rfl fun _ => trivial)

theorem recordPlannerFailure_passive {failure : PlannerPortFailure} :
    Only RuntimeOp.Passive (recordPlannerFailure P state callId failure) fun _ => True := by
  refine settleOrResolve_passive ?_
  cases failure <;> exact appendLoopEvent_passive rfl fun _ => trivial

theorem settleDecision_passive {intent : ModelCallConflictIntent} {call : RunEvent → AppendCall}
    {finish : Commit → Outcome AgentLoopError AgentLoopTick} (hbody : body.isIntent = false)
    (hcall : ∀ event, (call event).event = event) :
    Only RuntimeOp.Passive (createLoopEvent P reserved body >>= fun event =>
      settleOrResolve P callId intent ((Routine.append (call event)).mapErr .store) finish)
      fun _ => True := by
  rw [only_bind]
  refine createLoopEvent_only trivial fun metadata => settleOrResolve_passive ?_
  rw [only_mapErr]
  refine append_only ?_ fun _ => trivial
  show (call (reserved.event metadata body)).event.body.isIntent = false
  rw [hcall]
  exact hbody

theorem handleProposal_passive {proposal : PlanProposal} :
    Only RuntimeOp.Passive (handleProposal D P J host loop inputs state reserved frontier context
      callId proposal toolCalls) fun _ => True := by
  cases proposal with
  | completionCandidate summary =>
    simp only [handleProposal, recordCompletionCandidateTick]
    split
    · exact recordProposalRejection_passive
    · split
      · exact recordProposalRejection_passive
      · rw [only_bind, only_lift]
        intro turnIndex _
        rw [only_bind, only_lift]
        intro output _
        rw [only_bind, only_lift]
        intro decision _
        exact settleDecision_passive rfl fun _ => rfl
  | plan steps =>
    simp only [handleProposal, handlePlan]
    split
    · exact recordProposalRejection_passive
    · split
      · trivial
      · exact recordProposalRejection_passive
      · rw [only_bind]
        refine Only.attempt ((materializePlan_only fun _ => trivial).mono fun bundle _ => ?_)
          fun failure => ?_
        · obtain ⟨accepted, records⟩ := bundle
          simp only []
          rw [only_bind, only_lift]
          intro turnIndex _
          rw [only_bind, only_lift]
          intro decision _
          exact settleDecision_passive rfl fun _ => rfl
        · exact settleOrResolve_passive (appendLoopEvent_passive rfl fun _ => trivial)

theorem callPlanner_passive : Only RuntimeOp.Passive
    (callPlanner D P J host loop inputs state frontier modelCalls toolCalls context)
      fun _ => True := by
  simp only [callPlanner, only_bind, only_lift]
  intro reservation _
  refine appendLoopEvent_passive rfl fun commit => Only.attempt ⟨trivial, fun answer => ?_⟩
    fun failure => recordPlannerFailure_passive
  cases answer with
  | error failure => trivial
  | ok proposal => exact handleProposal_passive

theorem planTurn_passive : Only RuntimeOp.Passive
    (planTurn D P J host loop inputs state loopState modelCalls frontier toolCalls)
      fun _ => True := by
  simp only [planTurn, only_bind]
  refine Only.attempt ⟨trivial, fun answer => ?_⟩ fun error => ?_
  · cases answer with
    | error error => trivial
    | ok loaded =>
      cases loaded with
      | none => trivial
      | some snapshot =>
        show Only RuntimeOp.Passive (_ >>= _) _
        rw [only_bind, only_lift]
        intro _ _
        split
        · exact only_lift.mpr fun _ _ => trivial
        · trivial
        · exact callPlanner_passive
  · split <;> trivial

theorem reportCompletionCandidate_passive {candidate : CompletionCandidateState} :
    Only RuntimeOp.Passive (reportCompletionCandidate D state candidate) fun _ => True := by
  unfold reportCompletionCandidate
  split
  · trivial
  · simp only [only_bind, only_mapErr, only_lift]
    refine ⟨trivial, fun answer => ?_⟩
    cases answer with
    | error error => trivial
    | ok loaded => exact fun _ _ _ _ _ _ _ _ => trivial

theorem reportOpenCall_passive {active : ModelCallState} :
    Only RuntimeOp.Passive (reportOpenCall P state active) fun _ => True := by
  unfold reportOpenCall
  split
  · exact settleOrResolve_passive (appendLoopEvent_passive rfl fun _ => trivial)
  · trivial

theorem tickIdle_passive : Only RuntimeOp.Passive
    (tickIdle D P J host loop inputs state loopState modelCalls frontier toolCalls)
      fun _ => True := by
  unfold tickIdle
  split
  · exact reportOpenCall_passive
  · split
    · exact reportCompletionCandidate_passive
    · split
      · trivial
      · exact planTurn_passive

/-- **A tick neither commits an intent nor executes one.** -/
theorem tick_passive : Only RuntimeOp.Passive (loop.tick D P J host inputs) fun _ => True := by
  simp only [AgentLoop.tick, only_bind]
  refine loadInitialized_only trivial fun state => only_lift.mpr fun _ _ => ?_
  split
  · simp only [configureLoop, only_bind]
    exact appendLoopEvent_passive rfl fun _ => trivial
  · rw [only_bind]
    refine only_lift.mpr fun _ _ => ?_
    split
    · simp only [configureModelCallLifecycleTick, only_bind]
      exact appendLoopEvent_passive rfl fun _ => trivial
    · simp only [tickConfigured, only_bind, only_lift]
      intro _ _ frontier _ toolCalls _
      split
      · split <;> trivial
      · exact tickIdle_passive

end Tick

/-! ## The effect runtime -/

section Effects

variable {D : Digests} {P : Protocol} {state : RunState} {step : StepState} {body : RunEventBody}
  {action : DriveAction} {sink : DirectSink}

open DurableEffectRuntime

theorem loadInvocationMaterial_passive {effectId : String}
    {Q : Option InvocationMaterialRecord → Prop} (hQ : ∀ found, Q found) :
    Only RuntimeOp.Passive (Routine.loadInvocationMaterial effectId) Q :=
  (loadInvocationMaterial_reads hQ).weaken fun _ h => h.reads.passive

theorem loadCurrent_passive {Q : Option RunState → Prop} (hQ : ∀ current, Q current) :
    Only RuntimeOp.Passive Routine.loadCurrent Q := by
  refine ⟨trivial, fun answer => ?_⟩
  cases answer with
  | error error => trivial
  | ok current => exact hQ current

theorem appendEvent_passive {Q : Commit → Prop} (hbody : body.isIntent = false)
    (hQ : ∀ commit, Q commit) : Only RuntimeOp.Passive (appendEvent P state body) Q := by
  simp only [appendEvent, createEvent, Routine.createMetadata, only_bind, only_mapErr, only_lift,
    only_pure]
  refine ⟨trivial, fun answer => ?_⟩
  cases answer with
  | error error => trivial
  | ok metadata => exact fun _ _ => append_only hbody hQ

theorem commitReport_passive (hbody : body.isIntent = false) :
    Only RuntimeOp.Passive (commitReport P state body action) fun _ => True := by
  rw [commitReport, only_bind]
  exact appendEvent_passive hbody fun _ => trivial

theorem commitToolOutputReport_passive {output : ToolOutputRecord} (hbody : body.isIntent = false) :
    Only RuntimeOp.Passive (commitToolOutputReport P state body action output) fun _ => True := by
  simp only [commitToolOutputReport, createEvent, Routine.createMetadata, only_bind, only_mapErr,
    only_lift, only_pure]
  refine ⟨trivial, fun answer => ?_⟩
  cases answer with
  | error error => trivial
  | ok metadata => exact fun _ _ => append_only hbody fun _ => trivial

theorem classifyExecutionObservation_cases {started : RunState} {intent : EffectIntent}
    {outputRequired : Bool} {observation : ExecutionObservation} {pending : PendingExecutionCommit}
    (h : classifyExecutionObservation D started step intent outputRequired observation =
      .ok pending) :
    (∃ evidence output, pending = .succeeded step intent evidence output) ∨
      (∃ evidence, pending = .failed step intent evidence) ∨
      ∃ reason, pending = .unknown step intent reason := by
  cases observation with
  | succeeded evidence =>
    obtain ⟨_, -, h⟩ := Outcome.bind_eq_ok.mp h
    split at h
    · exact Or.inr (Or.inr ⟨_, (Except.ok.inj h).symm⟩)
    · exact Or.inl ⟨_, _, (Except.ok.inj h).symm⟩
  | succeededWithOutput evidence output =>
    obtain ⟨_, -, h⟩ := Outcome.bind_eq_ok.mp h
    obtain ⟨current, -, h⟩ := Outcome.bind_eq_ok.mp h
    split at h
    · split at h
      · exact Or.inl ⟨_, _, (Except.ok.inj h).symm⟩
      · exact Or.inr (Or.inr ⟨_, (Except.ok.inj h).symm⟩)
    · exact Or.inr (Or.inr ⟨_, (Except.ok.inj h).symm⟩)
  | failed evidence =>
    obtain ⟨_, -, h⟩ := Outcome.bind_eq_ok.mp h
    exact Or.inr (Or.inl ⟨_, (Except.ok.inj h).symm⟩)
  | unknown reason =>
    obtain ⟨_, -, h⟩ := Outcome.bind_eq_ok.mp h
    exact Or.inr (Or.inr ⟨_, (Except.ok.inj h).symm⟩)

theorem afterExecution_passive {started : RunState} {intent : EffectIntent} {outputRequired : Bool}
    {observation : ExecutionObservation} {pending : PendingExecutionCommit}
    (h : classifyExecutionObservation D started step intent outputRequired observation =
      .ok pending) :
    Only RuntimeOp.Passive (match pending.output with
      | some output => commitToolOutputReport P started pending.body pending.action output
      | none => commitReport P started pending.body pending.action) fun _ => True := by
  have hbody : pending.body.isIntent = false := by
    rcases classifyExecutionObservation_cases h with ⟨evidence, output, rfl⟩ | ⟨evidence, rfl⟩ |
      ⟨reason, rfl⟩ <;> rfl
  split
  · exact commitToolOutputReport_passive hbody
  · exact commitReport_passive hbody

theorem markRecoveredExecutionUnknown_passive :
    Only RuntimeOp.Passive (markRecoveredExecutionUnknown P state step) fun _ => True := by
  rw [markRecoveredExecutionUnknown, only_bind, only_lift]
  exact fun _ _ => commitReport_passive rfl

theorem reconciliationReport_isIntent {intent : EffectIntent}
    {observation : ReconciliationObservation}
    (h : reconciliationReport step intent observation = .ok (body, action)) :
    body.isIntent = false := by
  cases observation with
  | applied evidence | notApplied evidence | failed evidence | inconclusive evidence =>
    obtain ⟨_, -, h⟩ := Outcome.bind_eq_ok.mp h
    obtain ⟨rfl, -⟩ := Prod.mk.inj (Except.ok.inj h)
    rfl

theorem finishReconciliation_passive :
    Only RuntimeOp.Passive (finishReconciliation P sink state step) fun _ => True := by
  simp only [finishReconciliation, only_bind, only_lift]
  intro intent _
  split
  · simp only [DirectSink.reconcile, Routine.reconcile, only_bind, only_lift, only_pure]
    intro target _ key _
    refine ⟨trivial, fun answer report hreport => ?_⟩
    exact commitReport_passive (reconciliationReport_isIntent hreport)
  · exact commitReport_passive rfl

theorem beginReconciliation_passive :
    Only RuntimeOp.Passive (beginReconciliation P sink state step) fun _ => True := by
  simp only [beginReconciliation, only_bind, only_lift]
  intro intent _
  split
  · rw [only_bind]
    refine appendEvent_passive rfl fun commit => ?_
    rw [only_bind, only_lift]
    exact fun _ _ => finishReconciliation_passive
  · exact commitReport_passive rfl

end Effects

end Xgeny
