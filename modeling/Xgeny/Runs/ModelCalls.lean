import Xgeny.Runs.AtMostOnce

set_option autoImplicit false

/-!
# The model-call protocol

A run has one slot for an open model call. A reservation fills it, a decision or a settlement
empties it, and a doubt can only be followed by an abandonment. Any other event may stand between.

* `CallMove`: what an event does to the slot;
* `CallFate`: a reserved call is the open one, or it was ended by exactly one record;
* `CallHistory`: the invariant that ties the slot to positions in the journal;
* **`callHistory_of_replay`**: every accepted journal has it, when call ids are injective;
* **`model_call_protocol`**: the protocol, read off a journal.
-/

namespace Xgeny

open EventLog

/-! ## What an event says about a call -/

/-- The reservation that an event makes. -/
def RunEventBody.reservation? : RunEventBody → Option ModelCallReservation
  | .modelCallReserved reservation => some reservation
  | _ => none

/-- The decision that an event accepts. -/
def RunEventBody.decision? : RunEventBody → Option ExpectedPlanningTurn
  | .planAccepted decision _ => some decision
  | .completionCandidateRecorded decision _ _ _ => some decision
  | _ => none

/-- The call that an event ends: by an accepted decision that names it, or by a settlement. -/
def RunEventBody.endedCall? : RunEventBody → Option String
  | .planAccepted decision _ => decision.modelCallId
  | .completionCandidateRecorded decision _ _ _ => decision.modelCallId
  | .modelCallSettled callId _ => some callId
  | _ => none

/-- The call whose outcome an event leaves unknown. -/
def RunEventBody.doubtedCall? : RunEventBody → Option String
  | .modelCallBecameUnknown callId _ => some callId
  | _ => none

/-- The event abandons the call. -/
def RunEventBody.Abandons (body : RunEventBody) (callId : String) : Prop :=
  ∃ reason, body = .modelCallSettled callId (.abandoned reason)

/-- The open call of a run. -/
def RunState.openCall (state : RunState) : Option ModelCallState :=
  (state.agentLoop.bind AgentLoopState.modelCalls).bind ModelCallLifecycleState.activeCall

theorem RunState.openCall_eq {state : RunState} {loop : AgentLoopState}
    (hloop : state.agentLoop = some loop) :
    state.openCall = loop.modelCalls.bind ModelCallLifecycleState.activeCall := by
  rw [openCall, hloop]
  rfl

/-- The run has a model-call lifecycle. -/
def RunState.hasCalls (state : RunState) : Prop :=
  ∃ loop calls, state.agentLoop = some loop ∧ loop.modelCalls = some calls

/-- No two calls have the id of a call that the journal reserves. -/
def CallIdsInjective (D : Digests) (records : List EventRecord) : Prop :=
  ∀ (r : EventRecord) (reservation : ModelCallReservation), r ∈ records →
    r.event.body.reservation? = some reservation →
    ∀ {runId runId' : String} {epoch epoch' : UInt64} {planner planner' : String}
      {call call' turn turn' : UInt32} {base base' : UInt64}
      {head head' context context' request request' : String},
      modelCallId D runId epoch planner call turn base head context request =
        .ok reservation.callId →
      modelCallId D runId' epoch' planner' call' turn' base' head' context' request' =
        .ok reservation.callId →
      (runId, epoch, planner, call, turn, base, head, context, request) =
        (runId', epoch', planner', call', turn', base', head', context', request')

theorem CallIdsInjective.mono {D : Digests} {records more : List EventRecord}
    (h : CallIdsInjective D more) (hmore : records <+: more) : CallIdsInjective D records :=
  fun r reservation hr => h r reservation (hmore.subset hr)

/-! ## The slot -/

/-- What an event does to the slot of the open call. -/
inductive CallMove (D : Digests) (state : RunState) :
    RunEventBody → Option ModelCallState → Option ModelCallState → Prop where
  | quiet {body : RunEventBody} {slot : Option ModelCallState}
      (hreservation : body.reservation? = none) (hended : body.endedCall? = none)
      (hdoubted : body.doubtedCall? = none) : CallMove D state body slot slot
  | reserved {reservation : ModelCallReservation}
      (hbase : reservation.baseSequence = state.journalSequence)
      (hvalid : reservation.validateFor D state.runId state.authorityEpoch = .ok ()) :
      CallMove D state (.modelCallReserved reservation) none (some ⟨reservation, .reserved⟩)
  | doubted {active : ModelCallState} {reason : ModelCallUnknownReason}
      (hstatus : active.status = .reserved) :
      CallMove D state (.modelCallBecameUnknown active.reservation.callId reason) (some active)
        (some { active with status := .unknown reason })
  | ended {body : RunEventBody} {active : ModelCallState} (hreservation : body.reservation? = none)
      (hended : body.endedCall? = some active.reservation.callId)
      (hdoubted : body.doubtedCall? = none)
      (hstatus : active.status = .reserved ∨ body.Abandons active.reservation.callId) :
      CallMove D state body (some active) none

theorem checkSettlement_eq_ok {state : RunState} {active : ModelCallState}
    {settlement : ModelCallSettlement} (h : checkSettlement state active settlement = .ok ()) :
    active.status = .reserved ∨ ∃ reason, settlement = .abandoned reason := by
  cases settlement with
  | abandoned reason => exact Or.inr ⟨reason, rfl⟩
  | rejected reason =>
    simp only [checkSettlement, Outcome.bind_eq_ok, Outcome.exists_unit, Outcome.failIf_eq_ok,
      ne_eq, Decidable.not_not] at h
    exact Or.inl h.1

theorem CallEnds.callMove {D : Digests} {state : RunState} {decision : ExpectedPlanningTurn}
    {loop : AgentLoopState} {new : Option ModelCallLifecycleState} {body : RunEventBody}
    (h : CallEnds state decision loop.modelCalls new) (hloop : state.agentLoop = some loop)
    (hended : body.endedCall? = decision.modelCallId)
    (hreservation : body.reservation? = none) (hdoubted : body.doubtedCall? = none) :
    CallMove D state body state.openCall (new.bind ModelCallLifecycleState.activeCall) := by
  rw [RunState.openCall_eq hloop]
  generalize loop.modelCalls = old at h
  cases h with
  | legacy hcall => exact .quiet hreservation (hended.trans hcall) hdoubted
  | bound hactive hstatus hcall hturn hcontext hhead hsettled =>
    rw [Option.bind_some, hactive]
    exact .ended hreservation (hended.trans hcall) hdoubted (Or.inl hstatus)

/-- **Every transition, seen from the slot.** -/
theorem Transition.callMove {D : Digests} {state next : RunState} {body : RunEventBody}
    (h : Transition D state body next) : CallMove D state body state.openCall next.openCall := by
  cases h with
  | agentLoopConfigured hloop =>
    have hslot : state.openCall = none := by simp [RunState.openCall, hloop]
    rw [hslot]
    exact .quiet rfl rfl rfl
  | modelCallLifecycleConfigured hloop hcalls =>
    rw [RunState.openCall_eq hloop, hcalls]
    exact .quiet rfl rfl rfl
  | modelCallReserved hloop hcalls hidle hopen hturns hbudget hindex hturn hbase hvalid =>
    rw [RunState.openCall_eq hloop, hcalls, Option.bind_some, hidle]
    exact .reserved hbase hvalid
  | modelCallBecameUnknown hloop hcalls hactive hcall hstatus =>
    rw [RunState.openCall_eq hloop, hcalls, Option.bind_some, hactive, ← hcall]
    exact .doubted hstatus
  | modelCallSettled hloop hcalls hactive hcall hsettlement =>
    rw [RunState.openCall_eq hloop, hcalls, Option.bind_some, hactive, ← hcall]
    refine .ended rfl rfl rfl ?_
    rcases checkSettlement_eq_ok hsettlement with hreserved | ⟨reason, rfl⟩
    · exact Or.inl hreserved
    · exact Or.inr ⟨reason, rfl⟩
  | planAccepted hloop hopen hturn hturns hcall => exact hcall.callMove hloop rfl rfl rfl
  | completionCandidateRecorded hloop hopen hturn hturns hcall =>
    exact hcall.callMove hloop rfl rfl rfl
  | stepPlanned | effectIntentCommitted => exact .quiet rfl rfl rfl
  | moved hstep hmove =>
    refine .quiet ?_ ?_ ?_ <;> cases hmove <;> rfl

/-- The reserved call that a decision names, when the journal head is the reservation. -/
structure NamesCall (state : RunState) (decision : ExpectedPlanningTurn) (active : ModelCallState) :
    Prop where
  slot : state.openCall = some active
  callId : decision.modelCallId = some active.reservation.callId
  turnIndex : active.reservation.turnIndex = decision.turnIndex
  contextDigest : active.reservation.contextDigest = decision.contextDigest
  head : state.journalSequence.toNat = active.reservation.baseSequence.toNat + 1

theorem CallEnds.namesCall {state : RunState} {decision : ExpectedPlanningTurn}
    {loop : AgentLoopState} {new : Option ModelCallLifecycleState}
    (h : CallEnds state decision loop.modelCalls new) (hloop : state.agentLoop = some loop)
    (hcalls : state.hasCalls) : ∃ active, NamesCall state decision active := by
  obtain ⟨loop', calls, hloop', hsome⟩ := hcalls
  rw [hloop] at hloop'
  obtain rfl := Option.some.inj hloop'
  have hslot := RunState.openCall_eq hloop
  rw [hsome] at h hslot
  cases h with
  | bound hactive hstatus hcall hturn hcontext hhead hsettled =>
    rw [Option.bind_some, hactive] at hslot
    exact ⟨_, hslot, hcall, hturn, hcontext, hhead⟩

theorem Transition.namesCall {D : Digests} {state next : RunState} {body : RunEventBody}
    {decision : ExpectedPlanningTurn} (h : Transition D state body next) (hcalls : state.hasCalls)
    (hdecision : body.decision? = some decision) : ∃ active, NamesCall state decision active := by
  cases h with
  | planAccepted hloop hopen hturn hturns hcall =>
    obtain rfl := Option.some.inj hdecision
    exact hcall.namesCall hloop hcalls
  | completionCandidateRecorded hloop hopen hturn hturns hcall =>
    obtain rfl := Option.some.inj hdecision
    exact hcall.namesCall hloop hcalls
  | moved hstep hmove => cases hmove <;> simp [RunEventBody.decision?] at hdecision
  | _ => simp [RunEventBody.decision?] at hdecision

theorem CallEnds.isSome {state : RunState} {decision : ExpectedPlanningTurn}
    {old new : Option ModelCallLifecycleState} (h : CallEnds state decision old new)
    (hold : old.isSome = true) : ∃ calls, new = some calls := by
  cases h with
  | legacy => simp at hold
  | bound => exact ⟨_, rfl⟩

theorem Transition.hasCalls {D : Digests} {state next : RunState} {body : RunEventBody}
    (h : Transition D state body next)
    (hcalls : state.hasCalls ∨ ∃ budget, body = .modelCallLifecycleConfigured budget) :
    next.hasCalls := by
  rcases hcalls with ⟨loop', calls', hloop', hcalls'⟩ | ⟨budget, rfl⟩
  · cases h with
    | agentLoopConfigured hnone => simp [hloop'] at hnone
    | modelCallLifecycleConfigured | modelCallReserved | modelCallBecameUnknown
    | modelCallSettled => exact ⟨_, _, rfl, rfl⟩
    | planAccepted hloop hopen hturn hturns hcall =>
      rw [hloop'] at hloop
      obtain rfl := Option.some.inj hloop
      obtain ⟨calls, hsome⟩ := hcall.isSome (by simp [hcalls'])
      exact ⟨_, calls, rfl, hsome⟩
    | completionCandidateRecorded hloop hopen hturn hturns hcall =>
      rw [hloop'] at hloop
      obtain rfl := Option.some.inj hloop
      obtain ⟨calls, hsome⟩ := hcall.isSome (by simp [hcalls'])
      exact ⟨_, calls, rfl, hsome⟩
    | stepPlanned | effectIntentCommitted | moved => exact ⟨loop', calls', hloop', hcalls'⟩
  · cases h with
    | modelCallLifecycleConfigured => exact ⟨_, _, rfl, rfl⟩
    | moved hstep hmove => cases hmove

/-! ## The fate of a call -/

section

variable {D : Digests} {records : List EventRecord} {record : EventRecord}
  {slot : Option ModelCallState} {reservation : ModelCallReservation} {i : ℕ}

/-- The call reserved at position `i` is the open one, and nothing ended it. -/
structure CallOpen (records : List EventRecord) (slot : Option ModelCallState) (i : ℕ)
    (reservation : ModelCallReservation) : Prop where
  slot : ∃ status, slot = some ⟨reservation, status⟩ ∧
    (status = .reserved → ∀ k r, At records k r →
      r.event.body.doubtedCall? ≠ some reservation.callId)
  running : ∀ k r, At records k r → r.event.body.endedCall? ≠ some reservation.callId
  last : ∀ j r, At records j r → r.event.body.reservation? ≠ none → j ≤ i

/-- The call reserved at position `i` was ended by one record, before any other reservation; if it
was in doubt, then it was abandoned. -/
structure CallClosed (records : List EventRecord) (slot : Option ModelCallState) (i : ℕ)
    (reservation : ModelCallReservation) : Prop where
  slot : ∀ status, slot ≠ some ⟨reservation, status⟩
  ended : ∃ k r, i < k ∧ At records k r ∧ r.event.body.endedCall? = some reservation.callId ∧
    (∀ k' r', At records k' r' → r'.event.body.endedCall? = some reservation.callId → k' = k) ∧
    (∀ j q, i < j → At records j q → q.event.body.reservation? ≠ none → k < j) ∧
    (∀ j q, At records j q → q.event.body.doubtedCall? = some reservation.callId →
      r.event.body.Abandons reservation.callId)

/-- A reserved call is open or closed. -/
def CallFate (records : List EventRecord) (slot : Option ModelCallState) (i : ℕ)
    (reservation : ModelCallReservation) : Prop :=
  CallOpen records slot i reservation ∨ CallClosed records slot i reservation

theorem CallClosed.snoc {slot' : Option ModelCallState}
    (h : CallClosed records slot i reservation)
    (hended : record.event.body.endedCall? ≠ some reservation.callId)
    (hdoubted : record.event.body.doubtedCall? ≠ some reservation.callId)
    (hslot : ∀ status, slot' ≠ some ⟨reservation, status⟩) :
    CallClosed (records ++ [record]) slot' i reservation := by
  obtain ⟨k, r, hik, hk, hr, hunique, hbefore, habandons⟩ := h.ended
  refine ⟨hslot, k, r, hik, hk.snoc, hr, ?_, ?_, ?_⟩
  · intro k' r' hk' hr'
    rcases at_snoc.mp hk' with hk' | ⟨_, rfl⟩
    · exact hunique k' r' hk' hr'
    · exact absurd hr' hended
  · intro j q hij hj hq
    rcases at_snoc.mp hj with hj | ⟨rfl, _⟩
    · exact hbefore j q hij hj hq
    · exact hk.lt_length
  · intro j q hj hq
    rcases at_snoc.mp hj with hj | ⟨_, rfl⟩
    · exact habandons j q hj hq
    · exact absurd hq hdoubted

/-- An open call stays open under every record that neither ends it nor reserves another one; if
the record doubts it, then the slot says so. -/
theorem CallOpen.snoc {status : ModelCallStatus} (h : CallOpen records slot i reservation)
    (hreservation : record.event.body.reservation? = none)
    (hended : record.event.body.endedCall? = none)
    (hstatus : status = .reserved → slot = some ⟨reservation, .reserved⟩ ∧
      record.event.body.doubtedCall? = none) :
    CallOpen (records ++ [record]) (some ⟨reservation, status⟩) i reservation := by
  obtain ⟨old, hold, hdoubts⟩ := h.slot
  refine ⟨⟨status, rfl, ?_⟩, ?_, ?_⟩
  · intro hreserved k r hk
    obtain ⟨hslot, hdoubted⟩ := hstatus hreserved
    rcases at_snoc.mp hk with hk | ⟨_, rfl⟩
    · refine hdoubts ?_ k r hk
      rw [hold] at hslot
      exact congrArg ModelCallState.status (Option.some.inj hslot)
    · rw [hdoubted]
      simp
  · intro k r hk
    rcases at_snoc.mp hk with hk | ⟨_, rfl⟩
    · exact h.running k r hk
    · rw [hended]
      simp
  · intro j r hj hr
    rcases at_snoc.mp hj with hj | ⟨_, rfl⟩
    · exact h.last j r hj hr
    · exact absurd hreservation hr

theorem CallOpen.close {status : ModelCallStatus} (h : CallOpen records slot i reservation)
    (hi : i < records.length) (hslot : slot = some ⟨reservation, status⟩)
    (hreservation : record.event.body.reservation? = none)
    (hended : record.event.body.endedCall? = some reservation.callId)
    (hdoubted : record.event.body.doubtedCall? = none)
    (hstatus : status = .reserved ∨ record.event.body.Abandons reservation.callId) :
    CallClosed (records ++ [record]) none i reservation := by
  obtain ⟨old, hold, hdoubts⟩ := h.slot
  obtain rfl : old = status := by
    rw [hold] at hslot
    exact congrArg ModelCallState.status (Option.some.inj hslot)
  refine ⟨by simp, records.length, record, hi, at_length, hended, ?_, ?_, ?_⟩
  · intro k r hk hr
    rcases at_snoc.mp hk with hk | ⟨rfl, _⟩
    · exact absurd hr (h.running k r hk)
    · rfl
  · intro j q hij hj hq
    rcases at_snoc.mp hj with hj | ⟨_, rfl⟩
    · exact absurd (h.last j q hj hq) (by omega)
    · exact absurd hreservation hq
  · intro j q hj hq
    rcases at_snoc.mp hj with hj | ⟨_, rfl⟩
    · rcases hstatus with hreserved | habandons
      · exact absurd hq (hdoubts hreserved j q hj)
      · exact habandons
    · rw [hdoubted] at hq
      simp at hq

/-! ## The history of all calls -/

/-- What a journal says about its model calls, given the slot. -/
structure CallHistory (D : Digests) (records : List EventRecord) (slot : Option ModelCallState) :
    Prop where
  numbered : ∀ i r reservation, At records i r → r.event.body.reservation? = some reservation →
    reservation.baseSequence.toNat = i ∧ ∃ runId epoch,
      reservation.validateFor D runId epoch = .ok ()
  occupied : ∀ active, slot = some active →
    ∃ i r, At records i r ∧ r.event.body.reservation? = some active.reservation
  owned : ∀ k r callId, At records k r →
    r.event.body.endedCall? = some callId ∨ r.event.body.doubtedCall? = some callId →
    ∃ i q reservation, At records i q ∧ q.event.body.reservation? = some reservation ∧
      reservation.callId = callId
  fate : ∀ i r reservation, At records i r → r.event.body.reservation? = some reservation →
    CallFate records slot i reservation

theorem CallHistory.callId_injective (h : CallHistory D records slot)
    (hinj : CallIdsInjective D records) {j : ℕ} {r q : EventRecord} {reservation' : ModelCallReservation} (hi : At records i r)
    (hj : At records j q) (hr : r.event.body.reservation? = some reservation)
    (hq : q.event.body.reservation? = some reservation')
    (heq : reservation.callId = reservation'.callId) : i = j ∧ reservation = reservation' := by
  obtain ⟨hnumber, runId, epoch, hvalid⟩ := h.numbered i r reservation hi hr
  obtain ⟨hnumber', runId', epoch', hvalid'⟩ := h.numbered j q reservation' hj hq
  have hid := ModelCallReservation.validateFor_call_id hvalid
  have hid' := ModelCallReservation.validateFor_call_id hvalid'
  rw [← heq] at hid'
  have hfields := hinj _ _ hi.mem hr hid hid'
  simp only [Prod.mk.injEq] at hfields
  have hij : i = j := by rw [← hnumber, ← hnumber', hfields.2.2.2.2.2.1]
  subst hij
  rw [At.unique hi hj, hq] at hr
  exact ⟨rfl, (Option.some.inj hr).symm⟩

theorem CallHistory.fate_of_slot (h : CallHistory D records slot) {active : ModelCallState}
    (hslot : slot = some active) {r : EventRecord} (hi : At records i r)
    (hr : r.event.body.reservation? = some reservation) :
    active.reservation = reservation ∧ CallOpen records slot i reservation ∨
      CallClosed records slot i reservation := by
  rcases h.fate i r reservation hi hr with hopen | hclosed
  · obtain ⟨status, hstatus, _⟩ := hopen.slot
    rw [hslot] at hstatus
    exact Or.inl ⟨congrArg ModelCallState.reservation (Option.some.inj hstatus), hopen⟩
  · exact Or.inr hclosed

theorem CallHistory.snoc {slot' : Option ModelCallState} (h : CallHistory D records slot)
    (hreservation : record.event.body.reservation? = none)
    (hslot : ∀ active, slot' = some active →
      ∃ old, slot = some old ∧ old.reservation = active.reservation)
    (howned : ∀ callId, record.event.body.endedCall? = some callId ∨
      record.event.body.doubtedCall? = some callId →
      ∃ active, slot = some active ∧ active.reservation.callId = callId)
    (hfate : ∀ i r reservation, At records i r → r.event.body.reservation? = some reservation →
      CallFate (records ++ [record]) slot' i reservation) :
    CallHistory D (records ++ [record]) slot' := by
  have hold : ∀ {i r reservation}, At (records ++ [record]) i r →
      r.event.body.reservation? = some reservation → At records i r := by
    intro i r reservation hi hr
    rcases at_snoc.mp hi with hi | ⟨_, rfl⟩
    · exact hi
    · rw [hreservation] at hr
      simp at hr
  refine ⟨fun i r reservation hi hr => h.numbered i r reservation (hold hi hr) hr, ?_, ?_,
    fun i r reservation hi hr => hfate i r reservation (hold hi hr) hr⟩
  · intro active hactive
    obtain ⟨old, hold, heq⟩ := hslot active hactive
    obtain ⟨i, r, hi, hr⟩ := h.occupied old hold
    exact ⟨i, r, hi.snoc, heq ▸ hr⟩
  · intro k r callId hk hcall
    rcases at_snoc.mp hk with hk | ⟨_, rfl⟩
    · obtain ⟨i, q, reservation, hi, hq, hid⟩ := h.owned k r callId hk hcall
      exact ⟨i, q, reservation, hi.snoc, hq, hid⟩
    · obtain ⟨active, hactive, hid⟩ := howned callId hcall
      obtain ⟨i, q, hi, hq⟩ := h.occupied active hactive
      exact ⟨i, q, active.reservation, hi.snoc, hq, hid⟩

theorem CallHistory.closed_callId_ne (h : CallHistory D records slot)
    (hinj : CallIdsInjective D records) {active : ModelCallState} (hslot : slot = some active) {r : EventRecord} (hi : At records i r)
    (hr : r.event.body.reservation? = some reservation)
    (hclosed : CallClosed records slot i reservation) :
    active.reservation.callId ≠ reservation.callId := by
  intro heq
  obtain ⟨j, q, hj, hq⟩ := h.occupied active hslot
  obtain ⟨_, hsame⟩ := h.callId_injective hinj hj hi hq hr heq
  exact hclosed.slot active.status (by rw [hslot, ← hsame])

/-- **Step lemma.** What an event does to the slot keeps the history. -/
theorem CallHistory.move {state : RunState} {slot' : Option ModelCallState}
    (h : CallHistory D records slot) (hinj : CallIdsInjective D records)
    (hlength : state.journalSequence.toNat = records.length)
    (hmove : CallMove D state record.event.body slot slot') :
    CallHistory D (records ++ [record]) slot' := by
  generalize hbody : record.event.body = body at hmove
  cases hmove with
  | quiet hreservation hended hdoubted =>
    rw [← hbody] at hreservation hended hdoubted
    refine h.snoc hreservation (fun active hactive => ⟨active, hactive, rfl⟩) ?_ ?_
    · intro callId hcall
      simp [hended, hdoubted] at hcall
    · intro i r reservation hi hr
      rcases h.fate i r reservation hi hr with hopen | hclosed
      · obtain ⟨status, hstatus, _⟩ := hopen.slot
        rw [hstatus]
        refine Or.inl (hopen.snoc hreservation hended fun hreserved => ⟨?_, hdoubted⟩)
        rw [hstatus, hreserved]
      · exact Or.inr (hclosed.snoc (by simp [hended]) (by simp [hdoubted]) hclosed.slot)
  | doubted hstatus =>
    rename_i active reason
    have hreservation : record.event.body.reservation? = none := by rw [hbody]; rfl
    have hended : record.event.body.endedCall? = none := by rw [hbody]; rfl
    have hdoubted : record.event.body.doubtedCall? = some active.reservation.callId := by
      rw [hbody]; rfl
    refine h.snoc hreservation ?_ ?_ ?_
    · intro new hnew
      exact ⟨active, rfl, by rw [← Option.some.inj hnew]⟩
    · intro callId hcall
      rw [hended, hdoubted] at hcall
      exact ⟨active, rfl, by simpa using hcall⟩
    · intro i r reservation hi hr
      rcases h.fate_of_slot rfl hi hr with ⟨rfl, hopen⟩ | hclosed
      · exact Or.inl (hopen.snoc hreservation hended (by simp))
      · have hne := h.closed_callId_ne hinj rfl hi hr hclosed
        refine Or.inr (hclosed.snoc (by simp [hended]) (by simpa [hdoubted] using hne) ?_)
        intro status hsame
        have heq := congrArg ModelCallState.reservation (Option.some.inj hsame)
        exact hne (congrArg ModelCallReservation.callId heq)
  | ended hreservation hended hdoubted hstatus =>
    rename_i active
    rw [← hbody] at hreservation hended hdoubted hstatus
    refine h.snoc hreservation (by simp) ?_ ?_
    · intro callId hcall
      rw [hended, hdoubted] at hcall
      exact ⟨active, rfl, by simpa using hcall⟩
    · intro i r reservation hi hr
      rcases h.fate_of_slot rfl hi hr with ⟨rfl, hopen⟩ | hclosed
      · exact Or.inr (hopen.close hi.lt_length rfl hreservation hended hdoubted hstatus)
      · have hne := h.closed_callId_ne hinj rfl hi hr hclosed
        exact Or.inr (hclosed.snoc (by simpa [hended] using hne) (by simp [hdoubted]) (by simp))
  | reserved hbase hvalid =>
    rename_i reservation
    have hnew : record.event.body.reservation? = some reservation := by rw [hbody]; rfl
    have hended : record.event.body.endedCall? = none := by rw [hbody]; rfl
    have hdoubted : record.event.body.doubtedCall? = none := by rw [hbody]; rfl
    have hnumber : reservation.baseSequence.toNat = records.length := by rw [hbase, hlength]
    -- no earlier record names the new call
    have hfresh : ∀ i r other, At records i r → r.event.body.reservation? = some other →
        other.callId ≠ reservation.callId := by
      intro i r other hi hr heq
      obtain ⟨hother, runId, epoch, hvalid'⟩ := h.numbered i r other hi hr
      have hid := ModelCallReservation.validateFor_call_id hvalid'
      have hfields := hinj _ _ hi.mem hr hid (heq ▸ ModelCallReservation.validateFor_call_id hvalid)
      simp only [Prod.mk.injEq] at hfields
      have := hi.lt_length
      rw [← hother, hfields.2.2.2.2.2.1, hnumber] at this
      omega
    have hunnamed : ∀ k r, At records k r → r.event.body.endedCall? ≠ some reservation.callId ∧
        r.event.body.doubtedCall? ≠ some reservation.callId := by
      refine fun k r hk => ⟨fun hr => ?_, fun hr => ?_⟩
      · obtain ⟨i, q, other, hi, hq, heq⟩ := h.owned k r _ hk (Or.inl hr)
        exact hfresh i q other hi hq heq
      · obtain ⟨i, q, other, hi, hq, heq⟩ := h.owned k r _ hk (Or.inr hr)
        exact hfresh i q other hi hq heq
    refine ⟨?_, ?_, ?_, ?_⟩
    · intro i r other hi hr
      rcases at_snoc.mp hi with hi | ⟨rfl, rfl⟩
      · exact h.numbered i r other hi hr
      · rw [hnew] at hr
        rw [← Option.some.inj hr]
        exact ⟨hnumber, _, _, hvalid⟩
    · intro active hactive
      rw [← Option.some.inj hactive]
      exact ⟨records.length, record, at_length, hnew⟩
    · intro k r callId hk hcall
      rcases at_snoc.mp hk with hk | ⟨_, rfl⟩
      · obtain ⟨i, q, other, hi, hq, hid⟩ := h.owned k r callId hk hcall
        exact ⟨i, q, other, hi.snoc, hq, hid⟩
      · simp [hended, hdoubted] at hcall
    · intro i r other hi hr
      rcases at_snoc.mp hi with hi | ⟨rfl, rfl⟩
      · rcases h.fate i r other hi hr with hopen | hclosed
        · obtain ⟨status, hslot, _⟩ := hopen.slot
          simp at hslot
        · refine Or.inr (hclosed.snoc (by simp [hended]) (by simp [hdoubted]) ?_)
          intro status hsame
          have heq := congrArg ModelCallState.reservation (Option.some.inj hsame)
          exact hfresh i r other hi hr (congrArg ModelCallReservation.callId heq.symm)
      · rw [hnew] at hr
        obtain rfl := Option.some.inj hr
        refine Or.inl ⟨⟨.reserved, rfl, fun _ k q hk => ?_⟩, fun k q hk => ?_, fun j q hj _ => ?_⟩
        · rcases at_snoc.mp hk with hk | ⟨_, rfl⟩
          · exact (hunnamed k q hk).2
          · simp [hdoubted]
        · rcases at_snoc.mp hk with hk | ⟨_, rfl⟩
          · exact (hunnamed k q hk).1
          · simp [hended]
        · have := hj.lt_length
          simp only [List.length_append, List.length_singleton] at this
          omega

/-- **Run lemma.** Every accepted journal has the history of its model calls. -/
theorem callHistory_of_replay {state : RunState} (hinj : CallIdsInjective D records)
    (h : replay D records = .ok state) : CallHistory D records state.openCall := by
  have hempty : CallHistory D [] none := by
    constructor <;> simp [At]
  refine replay_induction (I := fun records s => CallIdsInjective D records →
    CallHistory D records s.openCall) ?_ ?_ h hinj
  · intro record goal hcreates _
    have hquiet : CallMove D (RunState.created record.event goal) record.event.body none none := by
      rw [hcreates.body]
      exact .quiet rfl rfl rfl
    exact hempty.move (fun _ _ hr => absurd hr List.not_mem_nil) rfl hquiet
  · intro records s record next hs hI _ ht hinj
    have hbefore := hinj.mono (List.prefix_append records [record])
    exact (hI hbefore).move hbefore (replay_journal hs).length ht.callMove

/-! ## Decisions -/

/-- After a lifecycle is configured, every decision stands right after its reservation. -/
structure DecisionsBound (records : List EventRecord) (state : RunState) : Prop where
  configured : ∀ c p budget, At records c p →
    p.event.body = .modelCallLifecycleConfigured budget → state.hasCalls
  bound : ∀ c n p r budget decision, c < n → At records c p →
    p.event.body = .modelCallLifecycleConfigured budget → At records n r →
    r.event.body.decision? = some decision →
    ∃ m q reservation, n = m + 1 ∧ At records m q ∧
      q.event.body.reservation? = some reservation ∧
      decision.modelCallId = some reservation.callId ∧
      reservation.turnIndex = decision.turnIndex ∧
      reservation.contextDigest = decision.contextDigest

theorem decisionsBound_of_replay {state : RunState} (hinj : CallIdsInjective D records)
    (h : replay D records = .ok state) : DecisionsBound records state := by
  refine replay_induction (I := fun records s => CallIdsInjective D records →
    DecisionsBound records s) ?_ ?_ h hinj
  · intro record goal hcreates _
    have hfirst : ∀ {i r}, At [record] i r → i = 0 ∧ record = r := by
      intro i r hi
      simpa [At, List.getElem?_singleton] using hi
    refine ⟨fun c p budget hc hp => ?_, fun c n p r budget decision hcn hc _ hn => ?_⟩
    · obtain ⟨_, rfl⟩ := hfirst hc
      rw [hcreates.body] at hp
      simp at hp
    · obtain ⟨rfl, _⟩ := hfirst hn
      omega
  · intro records s record next hs hI _ ht hinj
    have hbefore := hinj.mono (List.prefix_append records [record])
    replace hI := hI hbefore
    have hcalls : ∀ c p budget, At (records ++ [record]) c p →
        p.event.body = .modelCallLifecycleConfigured budget → next.hasCalls := by
      intro c p budget hc hp
      rcases at_snoc.mp hc with hc | ⟨_, rfl⟩
      · exact ht.hasCalls (Or.inl (hI.configured c p budget hc hp))
      · exact ht.hasCalls (Or.inr ⟨budget, hp⟩)
    refine ⟨hcalls, fun c n p r budget decision hcn hc hp hn hr => ?_⟩
    rcases at_snoc.mp hn with hn | ⟨rfl, rfl⟩
    · rcases at_snoc.mp hc with hc | ⟨rfl, _⟩
      · obtain ⟨m, q, reservation, hm, hq, hfacts⟩ := hI.bound c n p r budget decision hcn hc hp hn hr
        exact ⟨m, q, reservation, hm, hq.snoc, hfacts⟩
      · exact absurd hn.lt_length (by omega)
    · rcases at_snoc.mp hc with hc | ⟨rfl, _⟩
      · -- the slot holds the reservation, whose number is its position
        have hH := callHistory_of_replay hbefore hs
        obtain ⟨active, hnames⟩ := ht.namesCall (hI.configured c p budget hc hp) hr
        obtain ⟨m, q, hm, hq⟩ := hH.occupied active hnames.slot
        have hnumber := (hH.numbered m q _ hm hq).1
        refine ⟨m, q, active.reservation, ?_, hm.snoc, hq, hnames.callId, hnames.turnIndex,
          hnames.contextDigest⟩
        rw [← (replay_journal hs).length, hnames.head, hnumber]
      · omega

theorem RunEventBody.reservation?_eq_some {body : RunEventBody} :
    body.reservation? = some reservation ↔ body = .modelCallReserved reservation := by
  cases body <;> simp [RunEventBody.reservation?]

/-- **The model-call protocol.** When the ids of the calls of a journal are injective, and the
journal is accepted:

* after a lifecycle is configured, each accepted decision stands right after the reservation whose
  id, turn and context it names;
* between two reservations exactly one record ends the first call;
* no call is ended twice;
* a call in doubt is only ever ended by an abandonment. -/
theorem model_call_protocol {state : RunState} (hinj : CallIdsInjective D records)
    (h : replay D records = .ok state) :
    (∀ c n p r budget decision, c < n → At records c p →
      p.event.body = .modelCallLifecycleConfigured budget → At records n r →
      r.event.body.decision? = some decision →
      ∃ m q reservation, n = m + 1 ∧ At records m q ∧ q.sequence.toNat + 1 = r.sequence.toNat ∧
        q.event.body = .modelCallReserved reservation ∧
        decision.modelCallId = some reservation.callId ∧
        reservation.turnIndex = decision.turnIndex ∧
        reservation.contextDigest = decision.contextDigest) ∧
      (∀ i j p q first second, i < j → At records i p → At records j q →
        p.event.body = .modelCallReserved first → q.event.body = .modelCallReserved second →
        ∃! k, i < k ∧ k < j ∧ ∃ r, At records k r ∧ r.event.body.endedCall? = some first.callId) ∧
      (∀ i j p q callId, At records i p → At records j q →
        p.event.body.endedCall? = some callId → q.event.body.endedCall? = some callId → i = j) ∧
      (∀ i j p q callId reason, At records i p → At records j q →
        p.event.body = .modelCallBecameUnknown callId reason →
        q.event.body.endedCall? = some callId → q.event.body.Abandons callId) := by
  have hH := callHistory_of_replay hinj h
  -- a call that was ended is closed
  have hclosed : ∀ {j q callId}, At records j q → q.event.body.endedCall? = some callId →
      ∃ i reservation, reservation.callId = callId ∧
        CallClosed records state.openCall i reservation := by
    intro j q callId hj hq
    obtain ⟨i, p, reservation, hi, hp, hid⟩ := hH.owned j q callId hj (Or.inl hq)
    rcases hH.fate i p reservation hi hp with hopen | hclosed
    · exact absurd (hid ▸ hq) (hopen.running j q hj)
    · exact ⟨i, reservation, hid, hclosed⟩
  refine ⟨?_, ?_, ?_, ?_⟩
  · intro c n p r budget decision hcn hc hp hn hr
    obtain ⟨m, q, reservation, rfl, hq, hbody, hfacts⟩ :=
      (decisionsBound_of_replay hinj h).bound c n p r budget decision hcn hc hp hn hr
    have hJ := replay_journal h
    refine ⟨m, q, reservation, rfl, hq, ?_, RunEventBody.reservation?_eq_some.mp hbody, hfacts⟩
    rw [hJ.position m q hq, hJ.position (m + 1) r hn]
  · intro i j p q first second hij hi hj hp hq
    have hfirst : p.event.body.reservation? = some first := RunEventBody.reservation?_eq_some.mpr hp
    have hsecond : q.event.body.reservation? ≠ none := by
      rw [RunEventBody.reservation?_eq_some.mpr hq]
      simp
    rcases hH.fate i p first hi hfirst with hopen | hclosed
    · exact absurd (hopen.last j q hj hsecond) (by omega)
    · obtain ⟨k, r, hik, hk, hr, hunique, hbefore, _⟩ := hclosed.ended
      refine ⟨k, ⟨hik, hbefore j q hij hj hsecond, r, hk, hr⟩, ?_⟩
      rintro k' ⟨_, _, r', hk', hr'⟩
      exact hunique k' r' hk' hr'
  · intro i j p q callId hi hj hp hq
    obtain ⟨_, reservation, rfl, hcall⟩ := hclosed hj hq
    obtain ⟨k, _, _, _, _, hunique, _, _⟩ := hcall.ended
    rw [hunique i p hi hp, hunique j q hj hq]
  · intro i j p q callId reason hi hj hp hq
    obtain ⟨_, reservation, rfl, hcall⟩ := hclosed hj hq
    obtain ⟨k, r, _, hk, _, hunique, _, habandons⟩ := hcall.ended
    obtain rfl := hunique j q hj hq
    rw [At.unique hj hk]
    exact habandons i p hi (by rw [hp]; rfl)

end

/-! ## A sample run with model calls -/

def callOne : String :=
  "model-call-d7129d5248637dfe0eb03bd2ca01f9bea5aefff35e2ef30eaefedcfe22bef06d"

def callTwo : String :=
  "model-call-1dd011cf4b257b4c3ab9247a7881f9eb3ddd37a7354695e5aa28be39db3e84c3"

def reservationOne : ModelCallReservation where
  formatVersion := 1
  callId := callOne
  plannerId := "planner-1"
  callIndex := 1
  turnIndex := 1
  baseSequence := 12
  baseHeadDigest := "sha256:0a459a248401923bddc32e5b0ebe887f0ee31659ec5abc7f28c695aa5fbbafbd"
  contextDigest := sampleDigest 'c'
  requestDigest := sampleDigest '9'

def reservationTwo : ModelCallReservation where
  formatVersion := 1
  callId := callTwo
  plannerId := "planner-1"
  callIndex := 2
  turnIndex := 2
  baseSequence := 14
  baseHeadDigest := "sha256:8ca59c62501d8ad9b13d315dfb5a3210c62ef86b11b903757ff8cedae4a1000b"
  contextDigest := sampleDigest 'c'
  requestDigest := sampleDigest '9'

def sampleSpec : PlannedInvocationSpec where
  capabilityId := "file.write"
  contractVersion := "1.0.0"
  definitionDigest := sampleDigest '1'
  actionDigest := sampleDigest 'b'
  planInputDigest := sampleDigest '3'
  executionProfile := .localSyncOnceV1
  targetOs := "linux"
  targetArch := "x86_64"

def sampleInvocation : PlannedInvocationBinding where
  formatVersion := 1
  planId := "plan-b"
  proposalDigest := sampleDigest 'd'
  capabilityId := "file.write"
  contractVersion := "1.0.0"
  definitionDigest := sampleDigest '1'
  actionDigest := sampleDigest 'b'
  planInputDigest := sampleDigest '3'
  planInputRecordDigest := sampleDigest 'f'
  executionProfile := .localSyncOnceV1
  targetOs := "linux"
  targetArch := "x86_64"
  specDigest := "sha256:0014bbadfb181d1e764973fbb42f6f2669114fdeee4b420eaf1c56aff61e27c0"

/-- One call ends with an accepted plan; the next one times out and is abandoned. -/
def callLines : List SampleLine :=
  sampleLines ++
    [⟨.modelCallLifecycleConfigured ⟨4⟩, 307,
        "0a459a248401923bddc32e5b0ebe887f0ee31659ec5abc7f28c695aa5fbbafbd"⟩,
      ⟨.modelCallReserved reservationOne, 728,
        "dfb52e26ba0a30f4157c5ac89d8a937b0bacbf2ac6f026a82199e25dda601905"⟩,
      ⟨.planAccepted ⟨1, some callOne, sampleDigest 'c', sampleDigest 'd'⟩
        [⟨"step-b", "write the second file", ["step-a"], sampleInvocation⟩], 1385,
        "8ca59c62501d8ad9b13d315dfb5a3210c62ef86b11b903757ff8cedae4a1000b"⟩,
      ⟨.modelCallReserved reservationTwo, 728,
        "5fa6b1fa413a6dce4e0626c396182a0fe7d768b3c6b2a78312774ea95c229140"⟩,
      ⟨.modelCallBecameUnknown callTwo .timeout, 378,
        "22d3081470baf2cdeb5510b7b782a8f00415f6ac3622586b2cab6ce3926809b7"⟩,
      ⟨.modelCallSettled callTwo (.abandoned .recoveryDiscarded), 423,
        "a27c81553b759b531149335b83ce38e4d8d1f4c13153eb447661e14d3b4272a6"⟩]

/-- The documents of the calls and of the planned invocation. -/
def callDocuments : List (DigestInput × ℕ × String) :=
  [(.modelCallId 1 "run-1" 1 "planner-1" 1 1 12
        "sha256:0a459a248401923bddc32e5b0ebe887f0ee31659ec5abc7f28c695aa5fbbafbd"
        (sampleDigest 'c') (sampleDigest '9'), 429,
      "d7129d5248637dfe0eb03bd2ca01f9bea5aefff35e2ef30eaefedcfe22bef06d"),
    (.modelCallId 1 "run-1" 1 "planner-1" 2 2 14
        "sha256:8ca59c62501d8ad9b13d315dfb5a3210c62ef86b11b903757ff8cedae4a1000b"
        (sampleDigest 'c') (sampleDigest '9'), 429,
      "1dd011cf4b257b4c3ab9247a7881f9eb3ddd37a7354695e5aa28be39db3e84c3"),
    (.plannedInvocationSpec sampleSpec, 454,
      "0014bbadfb181d1e764973fbb42f6f2669114fdeee4b420eaf1c56aff61e27c0")]

def callTable : List (DigestInput × ℕ × String) :=
  sampleDocuments 0 none callLines ++ sampleAuthorization ++ callDocuments

def callJournal : List EventRecord := sampleRecords 0 none callLines

theorem callJournal_replays : ∃ state loop calls,
    replay (tableDigests callTable) callJournal = .ok state ∧ state.agentLoop = some loop ∧
      loop.modelCalls = some calls ∧ calls.reservedCalls = 2 := by
  have hrun : (replay (tableDigests callTable) callJournal).value?.any (fun state =>
      (state.agentLoop.bind AgentLoopState.modelCalls).any fun calls => calls.reservedCalls == 2)
      = true := by
    decide +kernel
  obtain ⟨state, hreplay, hstate⟩ := Outcome.exists_ok_of_any hrun
  obtain ⟨calls, hbind, hreserved⟩ := Option.any_eq_true _ _ |>.mp hstate
  obtain ⟨loop, hloop, hcalls⟩ := Option.bind_eq_some_iff.mp hbind
  exact ⟨state, loop, calls, hreplay, hloop, hcalls, by simpa using hreserved⟩

theorem callIdsInjective_of_table {table : List (DigestInput × ℕ × String)}
    (h : (table.map fun entry => entry.2.2).Nodup) (records : List EventRecord) :
    CallIdsInjective (tableDigests table) records := by
  intro r reservation _ _ runId runId' epoch epoch' planner planner' call call' turn turn' base base'
    head head' context context' request request' hid hid'
  rw [modelCallId, Digests.identifier_eq_ok] at hid hid'
  obtain ⟨c, hc, hname⟩ := hid
  obtain ⟨d, hd, hname'⟩ := hid'
  have hhash : c.sha256.val = d.sha256.val :=
    (String.append_right_inj _).mp (hname.trans hname'.symm)
  have hsame := tableDigests_injective h hc hd hhash
  simp only [DigestInput.modelCallId.injEq] at hsame
  simp [hsame]

/-- The two reservations of the sample run stand at positions 12 and 14. -/
theorem model_call_protocol_sample : ∃ state,
    replay (tableDigests callTable) callJournal = .ok state ∧
      ∃! k, 12 < k ∧ k < 14 ∧ ∃ r, At callJournal k r ∧ r.event.body.endedCall? = some callOne := by
  obtain ⟨state, _, _, hstate, _⟩ := callJournal_replays
  refine ⟨state, hstate, ?_⟩
  exact (model_call_protocol (callIdsInjective_of_table (by decide +kernel) _) hstate).2.1 12 14 _ _
    reservationOne reservationTwo (by decide) rfl rfl rfl rfl

end Xgeny
