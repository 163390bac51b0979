import Xgeny.AgentLoop.PlannerCalls
import Xgeny.Runtime.Verdicts

set_option autoImplicit false

/-!
# Conflicts of a model call

Another writer can move the head between the reservation and the settlement of a call. The settling
append is then answered by a conflict, and the tick loads the state once more and does what that
state calls for.

* `SettlesWith`: the first append after a planner call expects the reserved head, and a conflict
  leads to `resolveModelCallConflict`; **`tick_settles`**: every tick does so;
* `ConflictResolution`: what may follow a conflict;
* **`model_call_conflict_resolution`**: decisions stand directly behind their reservation, and a
  conflict is resolved by at most one record, which the reducer accepts.
-/

namespace Xgeny

open EventLog
open Prog (First Only first_lift_bind only_bind only_lift)

variable {D : Digests} {P : Protocol} {J : Schemas} {host : Host} {self : AgentLoop}
  {inputs : TickInputs} {state reserved : RunState} {callId : String}
  {intent : ModelCallConflictIntent} {moves : List RuntimeMove}

/-! ## Settling appends -/

def RuntimeOp.isAppend : RuntimeOp → Bool
  | .append _ => true
  | _ => false

/-- What an answer of the planner calls for when the head has moved: a doubt when the transport
failed, and otherwise a rejection. -/
def answeredIntent : Except PlannerPortFailure PlanProposal → ModelCallConflictIntent
  | .error .timeout => .markUnknown .timeout
  | .error .unavailable => .markUnknown .transportUnavailable
  | _ => .rejectStale

/-- An append expects the head of a state, and a conflict leads to the resolution for the call. -/
def SettlesWith (P : Protocol) (reserved : RunState) (callId : String)
    (intent : ModelCallConflictIntent) (_ : List RuntimeMove) :
    (op : RuntimeOp) → op.Response → Routine AgentLoopError AgentLoopTick → Prop
  | .append call, answer, rest => call.expected = .fromState reserved ∧
      ∀ expected actual, answer = Except.error (.headConflict expected actual) →
        rest = resolveModelCallConflict P callId intent
  | _, _, _ => True

/-- The first append of a routine settles the call. -/
abbrev Settles (P : Protocol) (reserved : RunState) (callId : String)
    (intent : ModelCallConflictIntent) (p : Routine AgentLoopError AgentLoopTick) : Prop :=
  ∀ moves, p.First RuntimeOp.isAppend (SettlesWith P reserved callId intent) moves

theorem settleOrResolve_append {call : AppendCall} (hexpected : call.expected = .fromState reserved)
    {finish : Commit → Outcome AgentLoopError AgentLoopTick} :
    Settles P reserved callId intent
      (settleOrResolve P callId intent ((Routine.append call).mapErr .store) finish) := by
  intro moves answer
  refine ⟨hexpected, ?_⟩
  rintro expected actual rfl
  rfl

theorem createLoopEvent_bind {α : Type} {body : RunEventBody}
    {f : RunEvent → Routine AgentLoopError α} :
    createLoopEvent P state body >>= f =
      .call (.createMetadata state) fun given =>
        match given with
        | .error error => .stop (.err (.eventFactory error))
        | .ok metadata =>
          if P.rfc3339 metadata.recordedAt = none then .stop (.err .eventMetadata)
          else f (state.event metadata body) := by
  show Prog.call _ _ = _
  congr 1
  funext given
  cases given with
  | error error => rfl
  | ok metadata =>
    show Prog.bind (Prog.bind (Prog.lift (Outcome.failIf
      (P.rfc3339 metadata.recordedAt = none) AgentLoopError.eventMetadata)) _) _ = _
    by_cases htime : P.rfc3339 metadata.recordedAt = none
    · have hcheck : Outcome.failIf (P.rfc3339 metadata.recordedAt = none)
          AgentLoopError.eventMetadata = Outcome.fail .eventMetadata := if_pos htime
      rw [hcheck]
      simp only [if_pos htime]
      rfl
    · have hcheck : Outcome.failIf (P.rfc3339 metadata.recordedAt = none)
          AgentLoopError.eventMetadata = .ok () := if_neg htime
      rw [hcheck]
      simp only [if_neg htime]
      rfl

theorem append_bind {α : Type} {call : AppendCall} {f : Commit → Routine AgentLoopError α} :
    (Routine.append call).mapErr AgentLoopError.store >>= f =
      .call (.append call) fun answer =>
        match answer with
        | .ok commit => f commit
        | .error error => .stop (.err (.store error)) := by
  show Prog.call _ _ = _
  congr 1
  funext answer
  cases answer <;> rfl

theorem settleOrResolve_settles {body : RunEventBody}
    {finish : Commit → Outcome AgentLoopError AgentLoopTick} :
    Settles P reserved callId intent
      (settleOrResolve P callId intent (appendLoopEvent P reserved body) finish) := by
  intro moves
  rw [settleOrResolve, appendLoopEvent, createLoopEvent_bind]
  intro given
  cases given with
  | error error => trivial
  | ok metadata =>
    show First _ _ _ (Prog.attempt (if P.rfc3339 metadata.recordedAt = none then _ else _) >>= _)
    split
    · trivial
    · exact settleOrResolve_append rfl _

theorem recordProposalRejection_settles {reason : ProposalRejection} :
    Settles P reserved callId .rejectStale (recordProposalRejection P reserved callId reason) :=
  settleOrResolve_settles

theorem recordPlannerFailure_settles {failure : PlannerPortFailure} :
    Settles P reserved callId (answeredIntent (.error failure))
      (recordPlannerFailure P reserved callId failure) := by
  cases failure <;> exact settleOrResolve_settles

theorem createLoopEvent_unwatched {body : RunEventBody} {Q : RunEvent → Prop} (hQ : ∀ event, Q event) :
    Only (fun op => op.isAppend = false) (createLoopEvent P state body) Q :=
  createLoopEvent_only rfl fun _ => hQ _

theorem recordCompletionCandidateTick_settle {frontier : WorkFrontier} {context : PlanningContext}
    {summary : String} : Settles P reserved callId .rejectStale
      (recordCompletionCandidateTick D P state reserved frontier context callId summary) := by
  unfold recordCompletionCandidateTick
  split
  · exact recordProposalRejection_settles
  · split
    · exact recordProposalRejection_settles
    · intro moves
      refine first_lift_bind.mpr fun turnIndex _ => first_lift_bind.mpr fun output _ =>
        first_lift_bind.mpr fun decision _ => First.bind ?_
      exact createLoopEvent_unwatched fun event => settleOrResolve_append rfl

theorem handlePlan_settle {frontier : WorkFrontier} {context : PlanningContext}
    {steps : List ProposedPlanStep} {toolCalls : UInt32} : Settles P reserved callId .rejectStale
      (handlePlan D P J host self inputs state reserved frontier context callId steps toolCalls) := by
  unfold handlePlan
  split
  · exact recordProposalRejection_settles
  · split
    · exact fun _ => trivial
    · exact recordProposalRejection_settles
    · intro moves
      refine First.bind (Only.attempt ((materializePlan_only fun _ => rfl).mono fun bundle _ => ?_)
        fun failure => ?_)
      · intro moves
        obtain ⟨accepted, records⟩ := bundle
        refine first_lift_bind.mpr fun turnIndex _ => first_lift_bind.mpr fun decision _ =>
          First.bind ?_
        exact createLoopEvent_unwatched fun event => settleOrResolve_append rfl
      · exact settleOrResolve_settles

theorem handleProposal_settle {frontier : WorkFrontier} {context : PlanningContext}
    {proposal : PlanProposal} {toolCalls : UInt32} : Settles P reserved callId .rejectStale
      (handleProposal D P J host self inputs state reserved frontier context callId proposal
        toolCalls) := by
  cases proposal with
  | completionCandidate summary => exact recordCompletionCandidateTick_settle
  | plan steps => exact handlePlan_settle

/-! ## The planner call of a tick -/

/-- A planner call comes after its reservation, and the routine that is left settles the call. -/
def PlansWith (P : Protocol) (moves : List RuntimeMove) :
    (op : RuntimeOp) → op.Response → Routine AgentLoopError AgentLoopTick → Prop
  | .plan request, answer, rest => ∃ state reservation commit,
      ReservedCall moves state reservation commit ∧ request.callId = reservation.callId ∧
      Settles P commit.state request.callId (answeredIntent answer) rest
  | _, _, _ => True

/-- **Every tick settles its planner call on the reserved head.** -/
theorem tick_settles : (self.tick D P J host inputs).First RuntimeOp.isPlan (PlansWith P) [] := by
  refine tick_rule (Φ := fun moves p => p.First RuntimeOp.isPlan (PlansWith P) moves)
    ⟨fun moves p hquiet => ?_, fun moves op k hquiet hrest answer => ?_⟩ ?_
  · refine Prog.Only.first (hquiet.weaken fun op hop => ?_)
    cases op with
    | plan => exact hop.elim
    | _ => rfl
  · have hop : ¬ op.isPlan = true := by
      cases op with
      | plan => exact hquiet.elim
      | _ => simp [RuntimeOp.isPlan]
    rw [if_neg hop]
    exact hrest answer
  · intro moves state loopState modelCalls frontier toolCalls context hloaded hfirst hready
    refine first_lift_bind.mpr fun reservation _ => ?_
    rw [appendLoopEvent, createLoopEvent_bind]
    intro given
    cases given with
    | error error => trivial
    | ok metadata =>
      show First _ _ _ ((if P.rfc3339 metadata.recordedAt = none then _ else _) >>= _)
      split
      · trivial
      · intro appended
        cases appended with
        | error error => trivial
        | ok commit =>
          intro answer
          refine ⟨state, reservation, commit, ⟨Move.head?_push (Move.head?_push hloaded),
            ⟨metadata, List.getLast?_concat⟩, ⟨frontier, hready.ready⟩,
            Move.forall_push (Move.forall_push hfirst rfl) rfl⟩, rfl, ?_⟩
          cases answer with
          | error failure => exact recordPlannerFailure_settles
          | ok proposal => exact handleProposal_settle

/-! ## The resolution -/

/-- The event that resolves a conflict. -/
def ModelCallConflictIntent.body (callId : String) : ModelCallConflictIntent → RunEventBody
  | .markUnknown reason => .modelCallBecameUnknown callId reason
  | .rejectStale => .modelCallSettled callId (.rejected .staleHead)

/-- What a tick reports after that event. -/
def ModelCallConflictIntent.result (callId : String) (head : AgentLoopHead) :
    ModelCallConflictIntent → AgentLoopTick
  | .markUnknown reason => .modelCallRecoveryRequired callId reason true head
  | .rejectStale => .modelCallRejected .staleHead head

/-- The outcome of a routine that ends like this, or was cut short before. -/
def EndsWith (outcome : Option (Outcome AgentLoopError AgentLoopTick))
    (result : Outcome AgentLoopError AgentLoopTick) : Prop :=
  outcome = none ∨ outcome = some result

/-- What a routine does that appends the resolving event on the head of a state: the append is
committed, or it fails, but never because the reducer refuses the event. -/
inductive ResolvingAppend (current : RunState) (callId : String) (intent : ModelCallConflictIntent) :
    List RuntimeMove → Option (Outcome AgentLoopError AgentLoopTick) → Prop
  | died : ResolvingAppend current callId intent [] none
  | noEvent {answer : Except EventFactoryError EventMetadata}
      {outcome : Option (Outcome AgentLoopError AgentLoopTick)}
      (houtcome : outcome = none ∨ outcome = some (Outcome.fail .eventMetadata) ∨
        ∃ cause, outcome = some (Outcome.fail (.eventFactory cause))) :
      ResolvingAppend current callId intent [⟨.createMetadata current, answer⟩] outcome
  | committed {metadata : EventMetadata} {commit : Commit}
      {outcome : Option (Outcome AgentLoopError AgentLoopTick)}
      (houtcome : EndsWith outcome (.ok (intent.result callId (.fromState commit.state)))) :
      ResolvingAppend current callId intent
        [⟨.createMetadata current, Except.ok metadata⟩,
          ⟨.append (.append (.fromState current) (current.event metadata (intent.body callId))),
            Except.ok commit⟩] outcome
  | failed {metadata : EventMetadata} {error : StoreError}
      {outcome : Option (Outcome AgentLoopError AgentLoopTick)}
      (haccepted : ∀ cause, error ≠ .transition cause)
      (houtcome : EndsWith outcome (Outcome.fail (.store error))) :
      ResolvingAppend current callId intent
        [⟨.createMetadata current, Except.ok metadata⟩,
          ⟨.append (.append (.fromState current) (current.event metadata (intent.body callId))),
            Except.error error⟩] outcome

/-- What a tick does after a conflict: it loads the state, and then it finds that the call is no longer
open, or that it is in doubt already, or it appends the resolving event, which the reducer accepts in
that state. -/
inductive ConflictResolution (D : Digests) (callId : String) (intent : ModelCallConflictIntent) :
    List RuntimeMove → Option (Outcome AgentLoopError AgentLoopTick) → Prop
  | died : ConflictResolution D callId intent [] none
  | unread {error : StoreError} {outcome : Option (Outcome AgentLoopError AgentLoopTick)}
      (houtcome : EndsWith outcome (Outcome.fail (.store error))) :
      ConflictResolution D callId intent [⟨.loadCurrent, Except.error error⟩] outcome
  | noLongerActive {current : RunState} {outcome : Option (Outcome AgentLoopError AgentLoopTick)}
      (hslot : ∀ active, current.openCall = some active → active.reservation.callId ≠ callId)
      (houtcome : EndsWith outcome (Outcome.fail .modelCallNoLongerActive)) :
      ConflictResolution D callId intent [⟨.loadCurrent, Except.ok (some current)⟩] outcome
  | alreadyUnknown {current : RunState} {active : ModelCallState} {reason : ModelCallUnknownReason}
      {outcome : Option (Outcome AgentLoopError AgentLoopTick)}
      (hslot : current.openCall = some active) (hcall : active.reservation.callId = callId)
      (hstatus : active.status = .unknown reason)
      (houtcome : EndsWith outcome
        (.ok (.modelCallRecoveryRequired callId reason false (.fromState current)))) :
      ConflictResolution D callId intent [⟨.loadCurrent, Except.ok (some current)⟩] outcome
  | resolving {current : RunState} {active : ModelCallState} {rest : List RuntimeMove}
      {outcome : Option (Outcome AgentLoopError AgentLoopTick)}
      (hslot : current.openCall = some active) (hcall : active.reservation.callId = callId)
      (hstatus : active.status = .reserved)
      (haccepts : ∃ next, applyBody D current (intent.body callId) = .ok next)
      (hrest : ResolvingAppend current callId intent rest outcome) :
      ConflictResolution D callId intent
        (⟨.loadCurrent, Except.ok (some current)⟩ :: rest) outcome

section Resolution

variable {store store' : MemoryRunStore} {history : RuntimeHistory}
  {outcome : Option (Outcome AgentLoopError AgentLoopTick)} {records : List EventRecord}
  {current : RunState} {active : ModelCallState} {reservation : ModelCallReservation} {i : ℕ}
  {r : EventRecord}

/-- **The reducer accepts what resolves a conflict.** -/
theorem intent_accepted (intent : ModelCallConflictIntent) (hinj : CallIdsInjective D records)
    (h : replay D records = .ok current) (hslot : current.openCall = some active) (hstatus : active.status = .reserved)
    (hi : At records i r) (hr : r.event.body.reservation? = some reservation)
    (hcall : active.reservation.callId = reservation.callId) (hmoved : i + 1 < records.length) :
    ∃ next, applyBody D current (intent.body reservation.callId) = .ok next := by
  rw [← hcall]
  cases intent with
  | markUnknown reason => exact markModelCallUnknown_isOk h hslot hstatus reason
  | rejectStale =>
    refine (settleModelCall_isOk_iff h hslot _).mpr ?_
    have hhistory := callHistory_of_replay hinj h
    obtain ⟨j, q, hj, hq⟩ := hhistory.occupied active hslot
    obtain ⟨rfl, _⟩ := hhistory.callId_injective hinj hj hi hq hr hcall
    exact (checkSettlement_rejected_iff h hstatus hj hq .staleHead).mpr (iff_of_true rfl hmoved)

theorem not_refused {metadata : EventMetadata} {body : RunEventBody} {cause : TransitionError}
    (h : store.Sound D P) (hseen : Seen D store current)
    (hcreate : ∀ goal, body ≠ .runCreated goal)
    (haccepts : ∃ next, applyBody D current body = .ok next) :
    store.call D P (.append (.fromState current) (current.event metadata body)) ≠
      .error (.err (.transition cause)) := by
  intro hcall
  obtain ⟨hhead, record, hnext, happly⟩ := refused_of_transition hcall
  obtain ⟨hprojection, hreplay⟩ := hseen.current h hhead.symm
  have hevent := EventRecord.next_event hnext
  have hfollows : NextRecord D store.records current body record := by
    refine ⟨?_, ⟨?_, ?_, ?_⟩, ?_⟩
    · rw [hevent, ← h.journal.last]
      exact hnext
    all_goals rw [hevent]; rfl
  obtain ⟨state', hok⟩ := (hfollows.accepted_iff hreplay hcreate).mpr haccepts
  rw [← h.journal.projection, hprojection, hok] at happly
  cases happly

/-- **The resolving append.** -/
theorem resolvingAppend_of_exec (h : store.Sound D P) (hseen : Seen D store current)
    (haccepts : ∃ next, applyBody D current (intent.body callId) = .ok next)
    (hexec : Exec (runtimeSystem D P)
      (appendLoopEvent P current (intent.body callId) >>= fun commit =>
        pure (intent.result callId (.fromState commit.state))) store history store' outcome) :
    ResolvingAppend current callId intent (Happening.own history) outcome := by
  rw [appendLoopEvent, Prog.bind_assoc, createLoopEvent_bind] at hexec
  rcases hexec.call_inv with ⟨hmoves, rfl⟩ | ⟨given, before, after, m, m', rfl, hbefore, ht, hstep, hrest⟩
  · rw [hmoves]
    exact .died
  · have hm := extends_of_trace h ht
    obtain rfl : m' = m := hstep
    rw [Happening.own_append, hbefore, Happening.own_did, List.nil_append]
    cases given with
    | error error =>
      obtain ⟨hafter, houtcome⟩ := hrest.stop_inv
      rw [hafter]
      exact .noEvent (houtcome.imp_right fun h => Or.inr ⟨error, h⟩)
    | ok metadata =>
      simp only at hrest
      split at hrest
      · obtain ⟨hafter, houtcome⟩ := Exec.stop_inv hrest
        rw [hafter]
        exact .noEvent (houtcome.imp_right Or.inl)
      · rw [append_bind] at hrest
        rcases hrest.call_inv with ⟨hmoves, rfl⟩ |
          ⟨answer, before', after', n, n', rfl, hbefore', ht', hstep', hend⟩
        · rw [hmoves]
          exact .noEvent (Or.inl rfl)
        · rw [Happening.own_append, hbefore', Happening.own_did, List.nil_append]
          cases answer with
          | ok commit =>
            obtain ⟨hafter, houtcome⟩ := hend.ret_inv
            rw [hafter]
            exact .committed houtcome
          | error error =>
            obtain ⟨hafter, houtcome⟩ := hend.stop_inv
            rw [hafter]
            refine .failed ?_ houtcome
            rintro cause rfl
            have hn := extends_of_trace hm.sound ht'
            rcases hstep' with ⟨hrefused, _⟩ | ⟨hfault, _⟩
            · refine not_refused hn.sound ((hseen.extends hm).extends hn) ?_ haccepts hrefused
              intro goal
              cases intent <;> simp [ModelCallConflictIntent.body]
            · cases hfault

theorem requireOpenCall_eq (callId : String) (hcalls : current.lifecycle ≠ none) :
    requireOpenCall current callId =
      match current.openCall with
      | none => Outcome.fail .modelCallNoLongerActive
      | some active =>
        if active.reservation.callId = callId then .ok active
        else Outcome.fail .modelCallNoLongerActive := by
  obtain ⟨calls, hlifecycle⟩ := Option.ne_none_iff_exists'.mp hcalls
  obtain ⟨loop, hloop, hsome⟩ := Option.bind_eq_some_iff.mp hlifecycle
  have hslot : current.openCall = calls.activeCall := by
    rw [RunState.openCall_eq hloop, hsome]
    rfl
  have hfound : requireOpenCall current callId =
      (Outcome.okOr calls.activeCall .modelCallNoLongerActive >>= fun active =>
        Outcome.failIf (active.reservation.callId ≠ callId) .modelCallNoLongerActive >>= fun _ =>
          pure active) := by
    rw [requireOpenCall, hloop]
    show (Outcome.okOr loop.modelCalls _ >>= _) = _
    rw [hsome]
    rfl
  rw [hslot, hfound]
  cases calls.activeCall with
  | none => rfl
  | some active =>
    show (Outcome.failIf (active.reservation.callId ≠ callId) _ >>= _) = _
    by_cases hcall : active.reservation.callId = callId
    · simp [Outcome.failIf, hcall]
    · simp only [Outcome.failIf, ne_eq, hcall, not_false_eq_true, if_true]
      rfl

theorem lifecycle_of_reservation (h : replay D records = .ok current) (hi : At records i r)
    (hr : r.event.body.reservation? = some reservation) : current.lifecycle ≠ none := by
  intro hnone
  have hcounted := callsCounted_of_replay h
  rw [hnone] at hcounted
  have hnot := List.countP_eq_zero.mp hcounted r hi.mem
  simp [hr] at hnot

/-- **After a conflict.** -/
theorem conflictResolution_of_exec (hinj : CallIdsInjective D store'.records) (h : store.Sound D P)
    (hi : At store.records i r) (hr : r.event.body.reservation? = some reservation)
    (hmoved : i + 1 < store.records.length)
    (hexec : Exec (runtimeSystem D P) (resolveModelCallConflict P reservation.callId intent) store
      history store' outcome) :
    ConflictResolution D reservation.callId intent (Happening.own history) outcome := by
  rw [resolveModelCallConflict, loadInitialized_bind] at hexec
  rcases hexec.call_inv with ⟨hmoves, rfl⟩ |
    ⟨answer, before, after, m, m', rfl, hbefore, ht, hstep, hrest⟩
  · rw [hmoves]
    exact .died
  · have hm := extends_of_trace h ht
    obtain ⟨rfl, hanswer⟩ := hstep
    rw [Happening.own_append, hbefore, Happening.own_did, List.nil_append]
    have him := hm.at hi
    rcases answer with error | _ | current
    · obtain ⟨hafter, houtcome⟩ := Exec.stop_inv hrest
      rw [hafter]
      exact .unread houtcome
    · have hempty := hm.sound.records_empty (hanswer none rfl).symm
      have hin := him.lt_length
      rw [hempty] at hin
      simp at hin
    · have hprojection := (hanswer _ rfl).symm
      have hreplay := hm.sound.replay hprojection
      have hopen := requireOpenCall_eq reservation.callId
        (lifecycle_of_reservation hreplay him hr)
      change Exec _ (Prog.lift (requireOpenCall current reservation.callId) >>= _) _ _ _ _ at hrest
      rw [hopen] at hrest
      cases hslot : current.openCall with
      | none =>
        rw [hslot] at hrest
        obtain ⟨hafter, houtcome⟩ := Exec.stop_inv hrest
        rw [hafter]
        exact .noLongerActive (by simp [hslot]) houtcome
      | some active =>
        rw [hslot] at hrest
        by_cases hcall : active.reservation.callId = reservation.callId
        · simp only [if_pos hcall] at hrest
          obtain ⟨held, status⟩ := active
          cases hstatus : status with
          | unknown reason =>
            subst hstatus
            obtain ⟨hafter, houtcome⟩ := Exec.ret_inv hrest
            rw [hafter]
            exact .alreadyUnknown hslot hcall rfl houtcome
          | reserved =>
            subst hstatus
            have hstatus : (⟨held, .reserved⟩ : ModelCallState).status = .reserved := rfl
            have hbefore := hinj.mono (extends_of_trace hm.sound hrest.trace).records
            have haccepts := intent_accepted intent hbefore hreplay hslot hstatus him hr
              hcall (lt_of_lt_of_le hmoved hm.records.length_le)
            have hprogram : Exec (runtimeSystem D P)
                (appendLoopEvent P current (intent.body reservation.callId) >>= fun commit =>
                  pure (intent.result reservation.callId (.fromState commit.state)))
                m' after store' outcome := by
              cases intent <;> exact hrest
            exact .resolving hslot hcall hstatus haccepts
              (resolvingAppend_of_exec hm.sound (hm.sound.seen hprojection) haccepts hprogram)
        · simp only [if_neg hcall] at hrest
          obtain ⟨hafter, houtcome⟩ := Exec.stop_inv hrest
          rw [hafter]
          refine .noLongerActive (fun other hother => ?_) houtcome
          rw [hslot] at hother
          rwa [← Option.some.inj hother]

/-! ## The law -/

/-- The reservation of a planner call stands in the journal; the state after it is the one that the
call settles on. -/
theorem ReservedCall.committed {before after : List RuntimeMove} {commit : Commit}
    (hreserved : ReservedCall before state reservation commit) (h : store.Sound D P)
    (ht : Trace (runtimeSystem D P) store history store')
    (hsplit : Happening.own history = before ++ after) :
    ∃ earlier, replay D (earlier ++ [commit.record]) = .ok commit.state ∧
      commit.record.event.body = .modelCallReserved reservation ∧
      earlier ++ [commit.record] <+: store'.records := by
  obtain ⟨metadata, hlast⟩ := hreserved.reserved
  obtain ⟨init, hinit⟩ := List.getLast?_eq_some_iff.mp hlast
  rw [hinit, List.append_assoc] at hsplit
  obtain ⟨earlier, m, m', htrace, hmoves, hm, hmove, hext⟩ := move_of_append h ht hsplit
  refine ⟨m.records, ?_, ?_, hmove.records ▸ hext.records⟩
  · rw [← hmove.records]
    exact hmove.sound.replay hmove.projection
  · rw [hmove.event]
    rfl

theorem ReservedCall.unique {state' : RunState} {reservation' : ModelCallReservation}
    {commit commit' : Commit} (h : ReservedCall moves state reservation commit)
    (h' : ReservedCall moves state' reservation' commit') :
    reservation = reservation' ∧ commit = commit' := by
  obtain ⟨metadata, hlast⟩ := h.reserved
  obtain ⟨metadata', hlast'⟩ := h'.reserved
  rw [hlast, Option.some.injEq] at hlast'
  obtain ⟨hop, hanswer⟩ := Sigma.mk.inj hlast'
  have hevent := (AppendCall.append.inj (RuntimeOp.append.inj hop)).2
  exact ⟨RunEventBody.modelCallReserved.inj (congrArg RunEvent.body hevent),
    Except.ok.inj (eq_of_heq hanswer)⟩

theorem moved_on {earlier : List EventRecord} {commit : Commit} (h : store.Sound D P)
    (hreplay : replay D (earlier ++ [commit.record]) = .ok commit.state)
    (hcommitted : earlier ++ [commit.record] <+: store.records)
    (hhead : ExpectedHead.fromState commit.state ≠ store.index.head) :
    earlier.length + 1 < store.records.length := by
  rcases Nat.lt_or_ge (earlier.length + 1) store.records.length with hlt | hge
  · exact hlt
  · have hrecords := hcommitted.eq_of_length_le (by simpa using hge)
    have hreplayed := h.journal.replayed
    rw [← hrecords, replay_eq_ok.mp hreplay, ← h.journal.projection] at hreplayed
    exact absurd (h.head (Except.ok.inj hreplayed).symm).symm hhead

/-- What stands behind an accepted decision: its tick has called the planner, and the decision was
appended directly behind the reservation of that call. -/
structure DecidedOnReservation (before : List RuntimeMove) (call : AppendCall) (commit : Commit)
    (journal : List EventRecord) (request : PlannerCallRequest) (reserved : Commit) : Prop where
  planned : ∃ init answer rest state reservation, before = init ++ ⟨.plan request, answer⟩ :: rest ∧
    ReservedCall init state reservation reserved ∧ request.callId = reservation.callId
  expected : call.expected = .fromState reserved.state
  journal : ∃ earlier, earlier ++ [reserved.record, commit.record] <+: journal

/-- **Conflicts of a model call.** Whatever other writers append, and when: a tick commits a decision
only directly behind the reservation of its own planner call; and when the first append after its
planner call is answered by a conflict, then the tick finds that the call is no longer open, or in
doubt already, and appends nothing, or it appends exactly one record on the head that it has loaded, a
doubt when the transport failed and a rejection of the stale head otherwise, which the reducer
accepts. -/
theorem model_call_conflict_resolution (h : store.Sound D P)
    (hexec : Exec (runtimeSystem D P) (self.tick D P J host inputs) store history store' outcome) :
    (∀ before call commit after,
      Happening.own history = before ++ ⟨.append call, Except.ok commit⟩ :: after →
      call.event.body.decision? ≠ none →
      ∃ request reserved, DecidedOnReservation before call commit store'.records request reserved) ∧
    (CallIdsInjective D store'.records → ∀ init request answer mid call expected actual after,
      Happening.own history = init ++ ⟨.plan request, answer⟩ ::
        (mid ++ ⟨.append call, Except.error (.headConflict expected actual)⟩ :: after) →
      (∀ move ∈ mid, move.1.isAppend = false) →
      ConflictResolution D request.callId (answeredIntent answer) after outcome) := by
  constructor
  · intro before call commit after hsplit hdecision
    have hallowed := hexec.follows_own tick_follows hsplit
    obtain ⟨init, request, answer, rest, state, reservation, reserved, hbefore, hreserved,
      hexpected⟩ := hallowed hdecision
    subst hbefore
    rw [List.append_assoc] at hsplit
    refine ⟨request, reserved, ⟨init, answer, rest, state, reservation, rfl, hreserved, ?_⟩,
      hexpected, ?_⟩
    · obtain ⟨_, _, _, hother, hcall⟩ := hexec.follows_own tick_follows hsplit
      rw [hcall, (hreserved.unique hother).1]
    · rw [← List.append_assoc] at hsplit
      obtain ⟨earlier, m, m', ht, hmoves, hm, hmove, hext⟩ := move_of_append h hexec.trace hsplit
      obtain ⟨records, hreplay, _, hcommitted⟩ := hreserved.committed h ht hmoves
      have hseen : Seen D m reserved.state := ⟨_, hcommitted, hreplay⟩
      refine ⟨records, ?_⟩
      -- both journals end at the reserved head
      obtain ⟨_, hcurrent⟩ := hseen.current hm (hmove.expected ▸ hexpected)
      have hrecords : records ++ [reserved.record] = m.records :=
        hcommitted.eq_of_length ((replay_journal hreplay).length.symm.trans
          (replay_journal hcurrent).length)
      have hjournal := hext.records
      rwa [hmove.records, ← hrecords, List.append_assoc] at hjournal
  · intro hinj init request answer mid call expected actual after hsplit hmid
    have hinit : ∀ move ∈ init, move.1.isPlan = false := by
      obtain ⟨_, _, _, hreserved, _⟩ := hexec.follows_own tick_follows hsplit
      exact hreserved.first
    obtain ⟨rest, earlier, later, m, m', rfl, hearlier, hlater, ht, hstep, hrest, state, reservation,
      reserved, hreserved, hcall, hsettles⟩ := hexec.first tick_settles hsplit hinit rfl
    obtain ⟨rest', earlier', later', n, n', rfl, hearlier', hlater', ht', hstep', hrest', hexpected,
      hresolves⟩ := hrest.first (hsettles []) hlater hmid rfl
    obtain ⟨hrefused, rfl⟩ : n.call D P call = .error (.err (.headConflict expected actual)) ∧
        n' = n := hstep'.resolve_right fun hfault => by cases hfault.1
    -- the reservation stands in the journal, and the journal has moved on
    have htrace := Trace.append_iff.mpr ⟨m, ht, .did hstep ht'⟩
    obtain ⟨records, hreplay, hbody, hcommitted⟩ := hreserved.committed h htrace (by
      rw [Happening.own_append, hearlier, List.nil_append])
    have hn := (extends_of_trace h htrace).sound
    have hmoved := moved_on hn hreplay hcommitted (hexpected ▸ head_of_conflict hrefused)
    have hat : At n'.records records.length reserved.record := by
      obtain ⟨more, hmore⟩ := hcommitted
      rw [At, ← hmore, List.getElem?_append_left (by simp), List.getElem?_concat_length]
    rw [hresolves _ _ rfl, hcall] at hrest'
    rw [hcall, ← hlater']
    exact conflictResolution_of_exec hinj hn hat (by rw [hbody]; rfl) hmoved hrest'

end Resolution

/-! ## A sample run

Two ticks configure the loop; the third one calls the planner, and meanwhile another writer plans a
step. The hashes are those of the canonical documents. -/

def conflictReservation : ModelCallReservation where
  formatVersion := 1
  callId := "model-call-d15a796d3b2fe8d59aeab34fc777abb927ec47c497083fd44ef974f606c920fa"
  plannerId := "planner-1"
  callIndex := 1
  turnIndex := 1
  baseSequence := 3
  baseHeadDigest := "sha256:e4d93e0b3bc4a28a93159b1315323e5367a73fa3587966a498c7aa61545ea5c8"
  contextDigest := "sha256:f2cc01eca4b74376c74f1e247f54be83ab95b8dcd69f809d56f1d8ece6d635ea"
  requestDigest := "sha256:aa993ff2be75194f4a563bcf3d02c859bedc6b878308856f1488ea27a848d904"

/-- The journal of the sample run; the doubt stands behind the step of the other writer. -/
def conflictLines : List SampleLine :=
  [⟨.runCreated "goal", 201,
      "2a305b9c8e53986a99236b61759b39aa8f7d9296e141523041ba50b57dfb94bf"⟩,
    ⟨.agentLoopConfigured ⟨3, 8, 8, 65536⟩, 356,
      "b19bb550ec0d1df261b5a993aab908cc4e32da0deb2f3343ac912cbb4938b012"⟩,
    ⟨.modelCallLifecycleConfigured ⟨4⟩, 305,
      "e4d93e0b3bc4a28a93159b1315323e5367a73fa3587966a498c7aa61545ea5c8"⟩,
    ⟨.modelCallReserved conflictReservation, 725,
      "133babbec078c39f6ccc730c7908fc4089c965290f37e447c778b81dfa9131ab"⟩,
    ⟨.stepPlanned "step-a" "other work" [], 300,
      "cc9411882df338410f70e321621ae0cb11e6a869845e6ce3a9d63c8a7c511382"⟩,
    ⟨.modelCallBecameUnknown conflictReservation.callId .timeout, 376,
      "82fe2d51a79496974a0c7c9c025c8df807326820406ece461d66165748457bbd"⟩]

/-- What the planner of the sample run is shown. -/
def conflictPayload : PlanningContextPayload where
  profileVersion := planningContextProfileV3
  capabilities := []
  omittedCapabilities := 0
  catalogDigest := "sha256:05cfd9d9cb22af0e216e3b847bd63b98bef17d55e0e3f74088d1b4e47d3a776e"
  goal := "goal"
  planningConstraints := []
  steps := []
  omittedSteps := 0
  toolOutputs := []
  totalSteps := 0
  verifiedCompletedSteps := 0
  runId := "run-1"
  authority := "local"
  authorityEpoch := 1
  journalSequence := 3
  journalHeadDigest := conflictReservation.baseHeadDigest

/-- The documents of the sample run. -/
def conflictTable : List (DigestInput × ℕ × String) :=
  sampleDocuments 0 none conflictLines ++
    [(.capabilityCatalog [], 53,
        "05cfd9d9cb22af0e216e3b847bd63b98bef17d55e0e3f74088d1b4e47d3a776e"),
      (.planningContextPayload conflictPayload, 448,
        "f951275282f8a557d4a6b00cdcfc0d24107882ccce8331854d69763566dc93eb"),
      (.planningContext conflictPayload, 504,
        "f2cc01eca4b74376c74f1e247f54be83ab95b8dcd69f809d56f1d8ece6d635ea"),
      (.plannerRequest "planner-1" (sampleDigest 'a') conflictReservation.contextDigest, 251,
        "aa993ff2be75194f4a563bcf3d02c859bedc6b878308856f1488ea27a848d904"),
      (.modelCallId 1 "run-1" 1 "planner-1" 1 1 3 conflictReservation.baseHeadDigest
        conflictReservation.contextDigest conflictReservation.requestDigest, 428,
        "d15a796d3b2fe8d59aeab34fc777abb927ec47c497083fd44ef974f606c920fa")]

abbrev conflictDigests : Digests := tableDigests conflictTable

/-- Another writer plans a step while the planner is called. -/
def otherStep (store : MemoryRunStore) (op : RuntimeOp) : Option (Commit × MemoryRunStore) :=
  if op.isPlan = true then
    (store.call conflictDigests flatProtocol (.append store.index.head
      (sampleEvent 5 (.stepPlanned "step-a" "other work" [])))).value?
  else none

theorem otherStep_accepts (store : MemoryRunStore) (op : RuntimeOp) (commit : Commit)
    (store' : MemoryRunStore) (h : otherStep store op = some (commit, store')) :
    (runtimeSystem conflictDigests flatProtocol).other store commit store' := by
  unfold otherStep at h
  split at h
  · exact ⟨_, Outcome.value?_eq_some.mp h⟩
  · simp at h

/-- The conflict after the first planner call among some moves, with what follows it. -/
def conflictAfterPlan : List RuntimeMove → Option (PlannerCallRequest × List RuntimeMove)
  | ⟨.plan request, _⟩ :: ⟨.createMetadata _, _⟩ ::
      ⟨.append _, Except.error (.headConflict _ _)⟩ :: after => some (request, after)
  | _ :: rest => conflictAfterPlan rest
  | [] => none

theorem conflictAfterPlan_eq_some {moves after : List RuntimeMove} {request : PlannerCallRequest}
    (h : conflictAfterPlan moves = some (request, after)) :
    ∃ init answer mid call expected actual,
      moves = init ++ ⟨.plan request, answer⟩ ::
        (mid ++ ⟨.append call, Except.error (.headConflict expected actual)⟩ :: after) ∧
      ∀ move ∈ mid, move.1.isAppend = false := by
  fun_induction conflictAfterPlan moves with
  | case1 request' answer state metadata call expected actual after' =>
    obtain ⟨rfl, rfl⟩ := Prod.mk.inj (Option.some.inj h)
    exact ⟨[], answer, [⟨.createMetadata state, metadata⟩], call, expected, actual, rfl,
      List.forall_mem_singleton.mpr rfl⟩
  | case2 first rest hnot ih =>
    obtain ⟨init, answer, mid, call, expected, actual, rfl, hmid⟩ := ih h
    exact ⟨first :: init, answer, mid, call, expected, actual, rfl, hmid⟩
  | case3 => simp at h

/-- The planner of the sample loop runs into a timeout while another writer plans a step: the tick
records the doubt behind it. -/
theorem model_call_conflict_resolution_sample : ∃ store history store' outcome answer after,
    ∃ request : PlannerCallRequest,
    Exec (runtimeSystem conflictDigests flatProtocol) (sampleTick conflictDigests) store history store'
      outcome ∧
    ConflictResolution conflictDigests request.callId (answeredIntent answer) after outcome ∧
    after.length = 3 := by
  obtain ⟨segments, hsession, _⟩ := sampleTicks_session conflictDigests timeoutPorts 2
  have hsound := (extends_of_trace (createdStore_sound _) hsession.trace).sound
  have hexec := (sampleTick conflictDigests).exec_run
    (memoryHost_step (D := conflictDigests) (P := flatProtocol) timeoutPorts) otherStep_accepts
    (sampleTicks conflictDigests timeoutPorts 2).2
  have hrun : (conflictAfterPlan (Happening.own ((sampleTick conflictDigests).run
      (memoryHost conflictDigests flatProtocol timeoutPorts) otherStep
      (sampleTicks conflictDigests timeoutPorts 2).2).1)).any (fun found => found.2.length == 3) =
      true := by
    decide +kernel
  obtain ⟨⟨request, after⟩, hfound, hlength⟩ := (Option.any_eq_true _ _).mp hrun
  obtain ⟨init, answer, mid, call, expected, actual, hmoves, hmid⟩ :=
    conflictAfterPlan_eq_some hfound
  exact ⟨_, _, _, _, answer, after, request, hexec,
    (model_call_conflict_resolution hsound hexec).2 (callIdsInjective_of_table (by decide +kernel) _)
      init request answer mid call expected actual after hmoves hmid, beq_iff_eq.mp hlength⟩

end Xgeny
