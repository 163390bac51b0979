import Xgeny.AgentLoop.Tick
import Xgeny.Runtime.World

set_option autoImplicit false

/-!
# The discipline of planner calls

What a tick does around its planner call, whatever the store and the ports answer.

* `RuntimeOp.Quiet`, `RuntimeOp.Settles`: operations that neither plan nor decide, and operations that
  decide on one head only;
* `ReadyToPlan`, `ReservedCall`: when the planner may be called;
* `tick_rule`: how a tick gets to its planner call;
* `LoopAllows`: what the own moves so far allow; **`tick_follows`**: a tick does only that;
* `abandonModelCall_quiet`: abandoning a call neither plans nor decides.
-/

namespace Xgeny

/-! ## Kinds of operations -/

namespace RuntimeOp

/-- The operation calls the planner. -/
def isPlan : RuntimeOp → Bool
  | .plan _ => true
  | _ => false

/-- The operation neither calls the planner nor accepts a decision. -/
def Quiet : RuntimeOp → Prop
  | .plan _ => False
  | .append call => call.event.body.decision? = none
  | _ => True

/-- The operation does not call the planner, and accepts a decision only on the head of a state. -/
def Settles (reserved : RunState) : RuntimeOp → Prop
  | .plan _ => False
  | .append call => call.event.body.decision? ≠ none → call.expected = .fromState reserved
  | _ => True

theorem Quiet.settles {op : RuntimeOp} (h : op.Quiet) (reserved : RunState) : op.Settles reserved := by
  cases op with
  | plan => exact h
  | append => exact fun hdecision => absurd h hdecision
  | _ => trivial

theorem Settles.isPlan {op : RuntimeOp} {reserved : RunState} (h : op.Settles reserved) :
    op.isPlan = false := by
  cases op with
  | plan => exact h.elim
  | _ => rfl

end RuntimeOp

open EventLog
open Prog (Only Sat only_bind only_lift only_mapErr only_pure sat_attempt sat_bind sat_lift sat_mapErr sat_pure)

/-! ## Quiet routines -/

section Quiet

variable {D : Digests} {P : Protocol} {good : RuntimeOp → Prop} {state : RunState}
  {body : RunEventBody} {callId : String} {Q : AgentLoopTick → Prop}

theorem loadInitialized_only {Q : RunState → Prop} (hgood : good .loadCurrent) (hQ : ∀ s, Q s) :
    Only good loadInitialized Q := by
  simp only [loadInitialized, only_bind, only_mapErr, only_lift]
  refine ⟨hgood, fun answer => ?_⟩
  cases answer with
  | error error => trivial
  | ok current => exact fun s _ => hQ s

theorem createLoopEvent_only {Q : RunEvent → Prop} (hgood : good (.createMetadata state))
    (hQ : ∀ metadata, Q (state.event metadata body)) : Only good (createLoopEvent P state body) Q := by
  simp only [createLoopEvent, createEvent, only_bind, only_mapErr, only_lift, only_pure]
  refine ⟨hgood, fun answer => ?_⟩
  cases answer with
  | error error => trivial
  | ok metadata => exact fun _ _ => hQ metadata

theorem append_only {Q : Commit → Prop} {call : AppendCall} (hgood : good (.append call))
    (hQ : ∀ commit, Q commit) : Only good (Routine.append call) Q := by
  refine ⟨hgood, fun answer => ?_⟩
  cases answer with
  | error error => trivial
  | ok commit => exact hQ commit

theorem appendLoopEvent_only {Q : Commit → Prop} (hgood : good (.createMetadata state))
    (happend : ∀ metadata, good (.append (.append (.fromState state) (state.event metadata body))))
    (hQ : ∀ commit, Q commit) : Only good (appendLoopEvent P state body) Q := by
  simp only [appendLoopEvent, only_bind, only_mapErr]
  exact createLoopEvent_only hgood fun metadata => append_only (happend metadata) hQ

theorem appendLoopEvent_quiet {Q : Commit → Prop} (hbody : body.decision? = none)
    (hQ : ∀ commit, Q commit) : Only RuntimeOp.Quiet (appendLoopEvent P state body) Q :=
  appendLoopEvent_only trivial (fun _ => hbody) hQ

theorem resolveModelCallConflict_quiet {intent : ModelCallConflictIntent} :
    Only RuntimeOp.Quiet (resolveModelCallConflict P callId intent) fun _ => True := by
  simp only [resolveModelCallConflict, only_bind]
  refine loadInitialized_only trivial fun current => only_lift.mpr fun active _ => ?_
  split
  · trivial
  · split
    · simp only [only_bind]
      exact appendLoopEvent_quiet rfl fun _ => trivial
    · simp only [only_bind]
      exact appendLoopEvent_quiet rfl fun _ => trivial

theorem settleOrResolve_only {intent : ModelCallConflictIntent}
    {settled : Routine AgentLoopError Commit} {finish : Commit → Outcome AgentLoopError AgentLoopTick}
    (hquiet : ∀ op, RuntimeOp.Quiet op → good op) (h : Only good settled fun _ => True) :
    Only good (settleOrResolve P callId intent settled finish) fun _ => True := by
  simp only [settleOrResolve, only_bind]
  refine Only.attempt (h.mono fun commit _ => ?_) fun error => ?_
  · exact only_lift.mpr fun _ _ => trivial
  · split
    · exact only_lift.mpr fun _ _ => trivial
    · exact resolveModelCallConflict_quiet.weaken hquiet
    · trivial

theorem recordProposalRejection_quiet {reason : ProposalRejection} :
    Only RuntimeOp.Quiet (recordProposalRejection P state callId reason) fun _ => True :=
  settleOrResolve_only (fun _ h => h) (appendLoopEvent_quiet rfl fun _ => trivial)

theorem recordPlannerFailure_quiet {failure : PlannerPortFailure} :
    Only RuntimeOp.Quiet (recordPlannerFailure P state callId failure) fun _ => True := by
  unfold recordPlannerFailure
  refine settleOrResolve_only (fun _ h => h) ?_
  cases failure <;> exact appendLoopEvent_quiet rfl fun _ => trivial

theorem materializePlan_only {host : Host} {proposalDigest : String} {steps : List PreparedPlanStep}
    (hgood : ∀ request, good (.materialize request)) :
    Only good (materializePlan D host state proposalDigest steps) fun _ => True := by
  induction steps with
  | nil => trivial
  | cons step rest ih =>
    simp only [materializePlan, only_bind, only_lift]
    intro spec _
    refine ⟨hgood _, fun answer => ?_⟩
    cases answer with
    | error failure => trivial
    | ok reference => exact fun bound _ => ih.mono fun _ _ => trivial

theorem materializePlan_quiet {host : Host} {proposalDigest : String}
    {steps : List PreparedPlanStep} :
    Only RuntimeOp.Quiet (materializePlan D host state proposalDigest steps) fun _ => True := by
  exact materializePlan_only fun _ => trivial

/-! ## After the planner call -/

variable {reserved : RunState} {frontier : WorkFrontier} {context : PlanningContext}

theorem recordCompletionCandidateTick_settles {summary : String} :
    Only (RuntimeOp.Settles reserved)
      (recordCompletionCandidateTick D P state reserved frontier context callId summary)
      fun _ => True := by
  have hquiet : ∀ op, RuntimeOp.Quiet op → RuntimeOp.Settles reserved op := fun _ h => h.settles _
  unfold recordCompletionCandidateTick
  split
  · exact recordProposalRejection_quiet.weaken hquiet
  · split
    · exact recordProposalRejection_quiet.weaken hquiet
    · simp only [only_bind, only_lift]
      intro turnIndex _ output _ decision _
      refine createLoopEvent_only trivial fun metadata => ?_
      refine settleOrResolve_only hquiet ?_
      rw [only_mapErr]
      exact append_only (fun _ => rfl) fun _ => trivial

variable {J : Schemas} {host : Host} {self : AgentLoop} {inputs : TickInputs}

theorem handlePlan_settles {steps : List ProposedPlanStep} {toolCalls : UInt32} :
    Only (RuntimeOp.Settles reserved)
      (handlePlan D P J host self inputs state reserved frontier context callId steps toolCalls)
      fun _ => True := by
  have hquiet : ∀ op, RuntimeOp.Quiet op → RuntimeOp.Settles reserved op := fun _ h => h.settles _
  unfold handlePlan
  split
  · exact recordProposalRejection_quiet.weaken hquiet
  · split
    · trivial
    · exact recordProposalRejection_quiet.weaken hquiet
    · rw [only_bind]
      refine Only.attempt ((materializePlan_quiet.weaken hquiet).mono fun bundle _ => ?_)
        fun failure => ?_
      · obtain ⟨accepted, records⟩ := bundle
        simp only [only_bind, only_lift]
        intro turnIndex _ decision _
        refine createLoopEvent_only trivial fun metadata => ?_
        refine settleOrResolve_only hquiet ?_
        rw [only_mapErr]
        exact append_only (fun _ => rfl) fun _ => trivial
      · exact settleOrResolve_only hquiet
          ((appendLoopEvent_quiet rfl fun _ => trivial).weaken hquiet)

theorem handleProposal_settles {proposal : PlanProposal} {toolCalls : UInt32} :
    Only (RuntimeOp.Settles reserved)
      (handleProposal D P J host self inputs state reserved frontier context callId proposal
        toolCalls) fun _ => True := by
  cases proposal with
  | completionCandidate summary => exact recordCompletionCandidateTick_settles
  | plan steps => exact handlePlan_settles

end Quiet

/-! ## What a tick may do -/

/-- Nothing is left to do but to plan. -/
structure ReadyToPlan (state : RunState) (frontier : WorkFrontier) : Prop where
  derived : deriveFrontier state = .ok frontier
  idle : frontier.nextAction = none
  closed : state.openCall = none
  undecided : ∀ loop, state.agentLoop = some loop → loop.completionCandidate = none

/-- The moves end with the reservation of a call on the head that was loaded first, in a state that is
ready to plan, and the planner was not called yet. -/
structure ReservedCall (moves : List RuntimeMove) (state : RunState)
    (reservation : ModelCallReservation) (commit : Commit) : Prop where
  loaded : moves.head? = some ⟨.loadCurrent, Except.ok (some state)⟩
  reserved : ∃ metadata, moves.getLast? = some ⟨.append (.append (.fromState state)
    (state.event metadata (.modelCallReserved reservation))), Except.ok commit⟩
  ready : ∃ frontier, ReadyToPlan state frontier
  first : ∀ move ∈ moves, move.1.isPlan = false

/-- What the own moves so far allow: a planner call after its reservation, and decisions on the head of
the reservation, after the planner call. -/
def LoopAllows (moves : List RuntimeMove) : RuntimeOp → Prop
  | .plan request => ∃ state reservation commit, ReservedCall moves state reservation commit ∧
      request.callId = reservation.callId
  | .append call => call.event.body.decision? ≠ none →
      ∃ before request answer after state reservation commit,
        moves = before ++ ⟨.plan request, answer⟩ :: after ∧
        ReservedCall before state reservation commit ∧ call.expected = .fromState commit.state
  | _ => True

section Follows

variable {D : Digests} {P : Protocol} {J : Schemas} {host : Host} {self : AgentLoop}
  {inputs : TickInputs} {state : RunState} {moves : List RuntimeMove}

theorem RuntimeOp.Quiet.allowed {op : RuntimeOp} (h : op.Quiet) : LoopAllows moves op := by
  cases op with
  | plan => exact h.elim
  | append => exact fun hdecision => absurd h hdecision
  | _ => trivial

theorem sat_of_quiet {ε α : Type} {p : Routine ε α} {Q : α → Prop}
    (h : Only RuntimeOp.Quiet p Q) : Sat LoopAllows Move.push p moves fun _ _ => True :=
  h.sat fun _ _ hquiet => hquiet.allowed

theorem sat_of_settles {ε α : Type} {p : Routine ε α} {Q : α → Prop} {before after : List RuntimeMove}
    {request : PlannerCallRequest} {answer : Except PlannerPortFailure PlanProposal}
    {reservation : ModelCallReservation} {commit : Commit}
    (h : Only (RuntimeOp.Settles commit.state) p Q)
    (hmoves : moves = before ++ ⟨.plan request, answer⟩ :: after)
    (hreserved : ReservedCall before state reservation commit) :
    Sat LoopAllows Move.push p moves fun _ _ => True := by
  induction p generalizing moves after with
  | ret | stop => trivial
  | call op k ih =>
    refine ⟨?_, fun given => ?_⟩
    · have hop := h.1
      cases op with
      | plan => exact hop.elim
      | append => exact fun hdecision => ⟨before, request, answer, after, state, reservation, commit,
          hmoves, hreserved, hop hdecision⟩
      | _ => trivial
    · have hpush : Move.push moves op given =
          before ++ ⟨.plan request, answer⟩ :: (after ++ [⟨op, given⟩]) := by
        rw [hmoves, Move.push, List.append_assoc, List.cons_append]
      exact ih given (h.2 given) hpush

theorem callPlanner_follows {frontier : WorkFrontier} {modelCalls : ModelCallLifecycleState}
    {toolCalls : UInt32} {context : PlanningContext}
    (hloaded : moves.head? = some ⟨.loadCurrent, Except.ok (some state)⟩)
    (hready : ReadyToPlan state frontier) (hfirst : ∀ move ∈ moves, move.1.isPlan = false) :
    Sat LoopAllows Move.push
      (callPlanner D P J host self inputs state frontier modelCalls toolCalls context) moves
      fun _ _ => True := by
  simp only [callPlanner, appendLoopEvent, createLoopEvent, createEvent, sat_bind, sat_lift,
    sat_mapErr]
  split
  · rename_i reservation _
    refine ⟨trivial, fun given => ?_⟩
    cases given with
    | error error => trivial
    | ok metadata =>
      simp only [Routine.answered, Sat, Outcome.mapErr]
      split
      · simp only [sat_pure, sat_attempt]
        refine ⟨fun hdecision => absurd rfl hdecision, fun given => ?_⟩
        cases given with
        | error error => trivial
        | ok commit =>
          simp only [Routine.answered, Sat]
          have hreserved : ReservedCall (Move.push (Move.push moves (.createMetadata state)
              (Except.ok metadata)) (.append (.append (.fromState state)
                (state.event metadata (.modelCallReserved reservation)))) (Except.ok commit))
              state reservation commit := by
            exact ⟨Move.head?_push (Move.head?_push hloaded), ⟨metadata, List.getLast?_concat⟩,
              ⟨frontier, hready⟩, Move.forall_push (Move.forall_push hfirst rfl) rfl⟩
          refine ⟨⟨state, reservation, commit, hreserved, rfl⟩, fun answer => ?_⟩
          cases answer with
          | error failure =>
            exact sat_of_quiet recordPlannerFailure_quiet
          | ok proposal =>
            exact sat_of_settles handleProposal_settles rfl hreserved
      · trivial
  · trivial

theorem reportCompletionCandidate_quiet {candidate : CompletionCandidateState} :
    Only RuntimeOp.Quiet (reportCompletionCandidate D state candidate) fun _ => True := by
  unfold reportCompletionCandidate
  split
  · trivial
  · simp only [only_bind, only_mapErr, only_lift]
    refine ⟨trivial, fun answer => ?_⟩
    cases answer with
    | error error => trivial
    | ok loaded => exact fun _ _ _ _ _ _ _ _ => trivial

theorem reportOpenCall_quiet {active : ModelCallState} :
    Only RuntimeOp.Quiet (reportOpenCall P state active) fun _ => True := by
  unfold reportOpenCall
  split
  · exact settleOrResolve_only (fun _ h => h) (appendLoopEvent_quiet rfl fun _ => trivial)
  · trivial

theorem configureLoop_quiet : Only RuntimeOp.Quiet (configureLoop P self state) fun _ => True := by
  simp only [configureLoop, only_bind]
  exact appendLoopEvent_quiet rfl fun _ => trivial

theorem configureModelCallLifecycleTick_quiet :
    Only RuntimeOp.Quiet (configureModelCallLifecycleTick P self state) fun _ => True := by
  simp only [configureModelCallLifecycleTick, only_bind]
  exact appendLoopEvent_quiet rfl fun _ => trivial

/-! ### From the start of a tick to its planner call -/

/-- What holds of a loaded state when a tick goes on to its planner call. -/
structure PlansOn (inputs : TickInputs) (state : RunState) (loopState : AgentLoopState)
    (modelCalls : ModelCallLifecycleState) (frontier : WorkFrontier) : Prop where
  loop : state.agentLoop = some loopState
  calls : loopState.modelCalls = some modelCalls
  derived : deriveFrontier state = .ok frontier
  idle : frontier.nextAction = none
  closed : modelCalls.activeCall = none
  undecided : loopState.completionCandidate = none
  going : planningQuiescence state loopState modelCalls frontier inputs.capabilities = none

theorem PlansOn.ready {loopState : AgentLoopState} {modelCalls : ModelCallLifecycleState}
    {frontier : WorkFrontier} (h : PlansOn inputs state loopState modelCalls frontier) :
    ReadyToPlan state frontier := by
  refine ⟨h.derived, h.idle, ?_, fun loop hloop => ?_⟩
  · rw [RunState.openCall_eq h.loop, h.calls]
    exact h.closed
  · rw [h.loop] at hloop
    rw [← Option.some.inj hloop]
    exact h.undecided

/-- The state that a load answers. -/
def loadedState : Except StoreError (Option RunState) → Outcome AgentLoopError RunState
  | .ok current => Outcome.okOr current .runNotInitialized
  | .error error => Outcome.fail (.store error)

theorem loadInitialized_bind {f : RunState → Routine AgentLoopError AgentLoopTick} :
    loadInitialized >>= f =
      .call .loadCurrent fun answer => Prog.lift (loadedState answer) >>= f := by
  show Prog.call RuntimeOp.loadCurrent _ = _
  congr 1
  funext answer
  cases answer <;> rfl

theorem loadedState_eq_ok {answer : Except StoreError (Option RunState)} :
    loadedState answer = .ok state ↔ answer = .ok (some state) := by
  cases answer <;> simp [loadedState]

/-- A property of programs, with the own moves before them, that quiet programs have and that can be
shown one quiet call at a time. -/
structure QuietClosed (Φ : List RuntimeMove → Routine AgentLoopError AgentLoopTick → Prop) :
    Prop where
  quiet : ∀ moves p, Only RuntimeOp.Quiet p (fun _ => True) → Φ moves p
  call : ∀ moves op k, RuntimeOp.Quiet op → (∀ answer, Φ (Move.push moves op answer) (k answer)) →
    Φ moves (.call op k)

section Rule

variable {Φ : List RuntimeMove → Routine AgentLoopError AgentLoopTick → Prop}
  {loopState : AgentLoopState} {modelCalls : ModelCallLifecycleState} {frontier : WorkFrontier}
  {toolCalls : UInt32}

theorem QuietClosed.lift (h : QuietClosed Φ) {β : Type} {x : Outcome AgentLoopError β}
    {f : β → Routine AgentLoopError AgentLoopTick} (hf : ∀ b, x = .ok b → Φ moves (f b)) :
    Φ moves (Prog.lift x >>= f) := by
  cases x with
  | ok b => exact hf b rfl
  | error fault => exact h.quiet _ _ trivial

/-- What a tick needs for its planner call, as a hypothesis about `callPlanner`. -/
def PlannerRule (D : Digests) (P : Protocol) (J : Schemas) (host : Host) (self : AgentLoop)
    (inputs : TickInputs)
    (Φ : List RuntimeMove → Routine AgentLoopError AgentLoopTick → Prop) : Prop :=
  ∀ {moves state loopState modelCalls frontier toolCalls context},
    moves.head? = some ⟨.loadCurrent, Except.ok (some state)⟩ →
    (∀ move ∈ moves, move.1.isPlan = false) →
    PlansOn inputs state loopState modelCalls frontier →
    Φ moves (callPlanner D P J host self inputs state frontier modelCalls toolCalls context)

theorem planTurn_rule (h : QuietClosed Φ) (hplan : PlannerRule D P J host self inputs Φ)
    (hloaded : moves.head? = some ⟨.loadCurrent, Except.ok (some state)⟩)
    (hfirst : ∀ move ∈ moves, move.1.isPlan = false)
    (hready : PlansOn inputs state loopState modelCalls frontier) :
    Φ moves (planTurn D P J host self inputs state loopState modelCalls frontier toolCalls) := by
  refine h.call _ (.loadPlanningSnapshot _ _) _ trivial fun answer => ?_
  rcases answer with error | _ | snapshot
  · exact h.quiet _ _ (by cases error <;> trivial)
  · exact h.quiet _ _ trivial
  · refine h.lift fun _ _ => ?_
    split
    · exact h.quiet _ _ (only_lift.mpr fun _ _ => trivial)
    · exact h.quiet _ _ trivial
    · exact hplan (Move.head?_push hloaded) (Move.forall_push hfirst rfl) hready

theorem tickIdle_rule (h : QuietClosed Φ) (hplan : PlannerRule D P J host self inputs Φ)
    (hloaded : moves.head? = some ⟨.loadCurrent, Except.ok (some state)⟩)
    (hfirst : ∀ move ∈ moves, move.1.isPlan = false) (hloop : state.agentLoop = some loopState)
    (hcalls : loopState.modelCalls = some modelCalls)
    (hfrontier : deriveFrontier state = .ok frontier) (hidle : frontier.nextAction = none) :
    Φ moves (tickIdle D P J host self inputs state loopState modelCalls frontier toolCalls) := by
  unfold tickIdle
  split
  · exact h.quiet _ _ reportOpenCall_quiet
  · rename_i hclosed
    split
    · exact h.quiet _ _ reportCompletionCandidate_quiet
    · rename_i hundecided
      split
      · exact h.quiet _ _ trivial
      · rename_i hgoing
        exact planTurn_rule h hplan hloaded hfirst
          ⟨hloop, hcalls, hfrontier, hidle, hclosed, hundecided, hgoing⟩

/-- **From the start of a tick to its planner call.** -/
theorem tick_rule (h : QuietClosed Φ) (hplan : PlannerRule D P J host self inputs Φ) :
    Φ [] (self.tick D P J host inputs) := by
  rw [AgentLoop.tick, loadInitialized_bind]
  refine h.call _ _ _ trivial fun answer => h.lift fun state hanswer => ?_
  rw [loadedState_eq_ok.mp hanswer]
  refine h.lift fun _ _ => ?_
  have hloaded : ([⟨.loadCurrent, Except.ok (some state)⟩] : List RuntimeMove).head? =
      some ⟨.loadCurrent, Except.ok (some state)⟩ := rfl
  have hfirst : ∀ move ∈ ([⟨.loadCurrent, Except.ok (some state)⟩] : List RuntimeMove),
      move.1.isPlan = false := List.forall_mem_singleton.mpr rfl
  split
  · exact h.quiet _ _ configureLoop_quiet
  · rename_i loopState hloop
    refine h.lift fun _ _ => ?_
    split
    · exact h.quiet _ _ configureModelCallLifecycleTick_quiet
    · rename_i modelCalls hcalls
      unfold tickConfigured
      refine h.lift fun _ _ => h.lift fun frontier hfrontier => h.lift fun toolCalls _ => ?_
      split
      · refine h.quiet _ _ ?_
        split <;> trivial
      · rename_i hidle
        exact tickIdle_rule h hplan hloaded hfirst hloop hcalls
          (Outcome.mapErr_eq_ok.mp hfrontier) hidle

end Rule

/-- **A tick plans only after its reservation, at most once, and decides only on the reserved head.** -/
theorem tick_follows : (self.tick D P J host inputs).Follows LoopAllows fun _ _ => True := by
  refine tick_rule (Φ := fun moves p => Sat LoopAllows Move.push p moves fun _ _ => True)
    ⟨fun moves p hquiet => sat_of_quiet hquiet,
      fun moves op k hquiet hrest => ⟨hquiet.allowed, hrest⟩⟩ ?_
  intro moves state loopState modelCalls frontier toolCalls context hloaded hfirst hready
  exact callPlanner_follows hloaded hready.ready hfirst

theorem abandonModelCall_quiet {lease : RunLease} {callId : String} :
    Only RuntimeOp.Quiet (self.abandonModelCall P lease callId) fun _ => True := by
  simp only [AgentLoop.abandonModelCall, only_bind, only_lift]
  refine loadInitialized_only trivial fun state => ?_
  intro _ _ loopState _ _ _ lifecycle _ _ _ active _ _ _
  exact appendLoopEvent_quiet rfl fun _ => trivial

end Follows

end Xgeny
