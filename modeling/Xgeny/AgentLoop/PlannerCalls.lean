import Xgeny.AgentLoop.Discipline

set_option autoImplicit false

/-!
# Planner calls across crashes

What the discipline of one tick means for any sequence of ticks and abandoned calls, among the
appends of others, with faults of the store and crashes at any moment.

* `ReservationsEnded`: of the reservations of a journal only the open one has no settlement;
* `reservations`: their number; **`reservations_le_budget`**: the model-call budget bounds it;
* `PlannedAfterReservation`: what stands in the journal when the planner is called;
* **`planner_call_discipline`**: the law of planner calls.
-/

namespace Xgeny

open EventLog

variable {D : Digests} {P : Protocol} {J : Schemas} {state : RunState}
  {records : List EventRecord} {record : EventRecord}

/-! ## Reservations of a journal -/

/-- The event accepts the answer of the call. -/
def RunEventBody.Answers (body : RunEventBody) (callId : String) : Prop :=
  ∃ decision, body.decision? = some decision ∧ decision.modelCallId = some callId

/-- The call reserved at position `i` was settled: the next record accepts its answer, or a later one
settles it otherwise. -/
def SettledAfter (records : List EventRecord) (i : ℕ) (callId : String) : Prop :=
  (∃ q, At records (i + 1) q ∧ q.event.body.Answers callId) ∨
    ∃ k q settlement, i < k ∧ At records k q ∧
      q.event.body = .modelCallSettled callId settlement

/-- Every reservation is the open one or was settled. -/
def ReservationsEnded (records : List EventRecord) (slot : Option ModelCallState) : Prop :=
  ∀ i r reservation, At records i r → r.event.body.reservation? = some reservation →
    (∃ status, slot = some ⟨reservation, status⟩) ∨ SettledAfter records i reservation.callId

theorem SettledAfter.snoc {i : ℕ} {callId : String} (h : SettledAfter records i callId) :
    SettledAfter (records ++ [record]) i callId := by
  rcases h with ⟨q, hq, hanswers⟩ | ⟨k, q, settlement, hik, hk, hbody⟩
  · exact Or.inl ⟨q, hq.snoc, hanswers⟩
  · exact Or.inr ⟨k, q, settlement, hik, hk.snoc, hbody⟩

theorem RunEventBody.endedCall?_cases {body : RunEventBody} {callId : String}
    (h : body.endedCall? = some callId) :
    body.Answers callId ∨ ∃ settlement, body = .modelCallSettled callId settlement := by
  cases body with
  | planAccepted decision plan => exact Or.inl ⟨decision, rfl, h⟩
  | completionCandidateRecorded decision => exact Or.inl ⟨decision, rfl, h⟩
  | modelCallSettled id settlement =>
    obtain rfl := Option.some.inj h
    exact Or.inr ⟨settlement, rfl⟩
  | _ => simp [endedCall?] at h

theorem RunState.hasCalls_of_openCall {active : ModelCallState} (h : state.openCall = some active) :
    state.hasCalls := by
  obtain ⟨loop, calls, hloop, hcalls, _⟩ := RunState.openCall_eq_some h
  exact ⟨loop, calls, hloop, hcalls⟩

theorem ReservationsEnded.snoc {slot slot' : Option ModelCallState}
    (h : ReservationsEnded records slot) (hreservation : record.event.body.reservation? = none)
    (hslot : ∀ i r reservation status, At records i r →
      r.event.body.reservation? = some reservation → slot = some ⟨reservation, status⟩ →
      (∃ status', slot' = some ⟨reservation, status'⟩) ∨
        SettledAfter (records ++ [record]) i reservation.callId) :
    ReservationsEnded (records ++ [record]) slot' := by
  intro i r reservation hi hr
  rcases at_snoc.mp hi with hi | ⟨_, rfl⟩
  · rcases h i r reservation hi hr with ⟨status, hopen⟩ | hsettled
    · exact hslot i r reservation status hi hr hopen
    · exact Or.inr hsettled.snoc
  · simp [hreservation] at hr

/-- **Run lemma.** Only the open call of a reachable state has no settlement. -/
theorem reservationsEnded_of_replay (h : replay D records = .ok state) :
    ReservationsEnded records state.openCall := by
  refine replay_induction (I := fun records s => ReservationsEnded records s.openCall) ?_ ?_ h
  · intro record goal hcreates i r reservation hi hr
    obtain ⟨_, rfl⟩ : i = 0 ∧ record = r := by simpa [At, List.getElem?_singleton] using hi
    simp [hcreates.body, RunEventBody.reservation?] at hr
  · intro records s record next hs hI hfollows ht
    have hmove := ht.callMove
    have hopen : (next.advance record).openCall = next.openCall := rfl
    rw [hopen]
    generalize hslot : s.openCall = slot at hmove hI
    generalize next.openCall = slot' at hmove
    generalize hbody : record.event.body = body at hmove
    cases hmove with
    | quiet hreservation hended hdoubted =>
      exact hI.snoc (hbody ▸ hreservation) fun i r reservation status _ _ hsome =>
        Or.inl ⟨status, hsome⟩
    | reserved hbase hvalid =>
      intro i r reservation hi hr
      rcases at_snoc.mp hi with hi | ⟨_, rfl⟩
      · rcases hI i r reservation hi hr with ⟨status, hnone⟩ | hsettled
        · simp at hnone
        · exact Or.inr hsettled.snoc
      · rw [hbody] at hr
        exact Or.inl ⟨_, by rw [← Option.some.inj hr]⟩
    | doubted hstatus =>
      refine hI.snoc (by rw [hbody]; rfl) fun i r reservation status _ _ hsome => Or.inl ?_
      obtain rfl := Option.some.inj hsome
      exact ⟨_, rfl⟩
    | @ended _ active hreservation hended hdoubted hstatus =>
      refine hI.snoc (hbody ▸ hreservation) fun i r reservation status hi hr hsome => Or.inr ?_
      obtain rfl := Option.some.inj hsome
      rcases RunEventBody.endedCall?_cases hended with hanswers | ⟨settlement, hsettled⟩
      · -- an accepted answer stands directly after the reservation
        have hnamed := hanswers
        obtain ⟨decision, hdecision, _⟩ := hnamed
        obtain ⟨named, hnamed⟩ := ht.namesCall (RunState.hasCalls_of_openCall hslot)
          (hbody ▸ hdecision)
        have hsame := hnamed.slot
        rw [hslot] at hsame
        obtain rfl := Option.some.inj hsame
        have hbase := (callPositions_of_replay hs).numbered i r reservation hi hr
        have hposition : i + 1 = records.length := by
          rw [← hbase, ← hnamed.head, (replay_journal hs).length]
        exact Or.inl ⟨record, hposition ▸ at_length, by rw [hbody]; exact hanswers⟩
      · exact Or.inr ⟨records.length, record, settlement, hi.lt_length, at_length,
          hbody.trans hsettled⟩

/-- The number of reservations of a journal. -/
def reservations (records : List EventRecord) : ℕ :=
  records.countP fun record => record.event.body.reservation?.isSome

/-- The model-call lifecycle of a run. -/
def RunState.lifecycle (state : RunState) : Option ModelCallLifecycleState :=
  state.agentLoop.bind AgentLoopState.modelCalls

theorem RunState.lifecycle_eq {loop : AgentLoopState} (hloop : state.agentLoop = some loop) :
    state.lifecycle = loop.modelCalls := by
  rw [lifecycle, hloop]
  rfl

/-- A lifecycle counts at least so many reservations; without one there are none. -/
def CallsCounted (count : ℕ) : Option ModelCallLifecycleState → Prop
  | none => count = 0
  | some calls => count ≤ calls.reservedCalls.toNat

theorem reservations_snoc : reservations (records ++ [record]) =
    reservations records + if record.event.body.reservation?.isSome = true then 1 else 0 := by
  simp [reservations, List.countP_append, List.countP_cons]

theorem CallEnds.callsCounted {decision : ExpectedPlanningTurn} {count : ℕ}
    {old new : Option ModelCallLifecycleState} (h : CallEnds state decision old new)
    (hold : CallsCounted count old) : CallsCounted count new := by
  cases h with
  | legacy => exact hold
  | bound => exact hold

/-- **Step lemma.** -/
theorem Transition.callsCounted {next : RunState} {body : RunEventBody} {count : ℕ}
    (h : Transition D state body next) (hI : CallsCounted count state.lifecycle) :
    CallsCounted (count + if body.reservation?.isSome = true then 1 else 0) next.lifecycle := by
  cases h with
  | agentLoopConfigured hloop =>
    have hnone : state.lifecycle = none := by rw [RunState.lifecycle, hloop]; rfl
    rw [hnone] at hI
    exact hI
  | modelCallLifecycleConfigured hloop hcalls =>
    rw [RunState.lifecycle_eq hloop, hcalls] at hI
    obtain rfl : count = 0 := hI
    exact Nat.zero_le _
  | modelCallReserved hloop hcalls hidle hopen hturns hbudget hindex =>
    rw [RunState.lifecycle_eq hloop, hcalls] at hI
    show count + 1 ≤ _
    rw [hindex]
    exact Nat.succ_le_succ hI
  | modelCallBecameUnknown hloop hcalls | modelCallSettled hloop hcalls =>
    rw [RunState.lifecycle_eq hloop, hcalls] at hI
    exact hI
  | planAccepted hloop hopen hturn hturns hcall
  | completionCandidateRecorded hloop hopen hturn hturns hcall =>
    rw [RunState.lifecycle_eq hloop] at hI
    exact hcall.callsCounted hI
  | stepPlanned | effectIntentCommitted => exact hI
  | moved hstep hmove =>
    cases hmove <;> exact hI

/-- **Run lemma.** -/
theorem callsCounted_of_replay (h : replay D records = .ok state) :
    CallsCounted (reservations records) state.lifecycle := by
  refine replay_induction
    (I := fun records s => CallsCounted (reservations records) s.lifecycle) ?_ ?_ h
  · intro record goal hcreates
    show reservations [record] = 0
    simp [reservations, hcreates.body, RunEventBody.reservation?]
  · intro records s record next hs hI hfollows ht
    rw [reservations_snoc]
    exact ht.callsCounted hI

/-- **The model-call budget bounds the reservations of a journal.** -/
theorem reservations_le_budget (h : replay D records = .ok state) {calls : ModelCallLifecycleState}
    (hcalls : state.lifecycle = some calls) :
    reservations records ≤ calls.budget.maxModelCalls.toNat := by
  have hcounted := callsCounted_of_replay h
  rw [hcalls] at hcounted
  obtain ⟨loop, hloop, hsome⟩ := Option.bind_eq_some_iff.mp hcalls
  exact hcounted.trans ((reachable_loopBudget ⟨_, h⟩ loop hloop).calls calls hsome).budget

/-! ## Planner calls -/

/-- A tick of some agent loop, or the abandonment of a call. -/
inductive LoopCall (D : Digests) (P : Protocol) (J : Schemas) :
    Routine AgentLoopError AgentLoopTick → Prop
  | tick (host : Host) (self : AgentLoop) (inputs : TickInputs) :
      LoopCall D P J (self.tick D P J host inputs)
  | abandonModelCall (self : AgentLoop) (lease : RunLease) (callId : String) :
      LoopCall D P J (self.abandonModelCall P lease callId)

theorem LoopCall.follows {p : Routine AgentLoopError AgentLoopTick} (h : LoopCall D P J p) :
    p.Follows LoopAllows fun _ _ => True := by
  cases h with
  | tick => exact tick_follows
  | abandonModelCall => exact sat_of_quiet abandonModelCall_quiet

/-- The number of planner calls among some moves. -/
def plannerCalls (moves : List RuntimeMove) : ℕ := moves.countP fun move => move.1.isPlan

/-- A planner call with `moves` before it in its tick: the tick loaded `state`, the projection of
`earlier`; its last move has committed the reservation of the call on that head; there was nothing to
do but to plan, and every reservation of `earlier` was settled. -/
structure PlannedAfterReservation (D : Digests) (moves : List RuntimeMove)
    (request : PlannerCallRequest) (journal : List EventRecord) (state : RunState)
    (earlier : List EventRecord) (reservation : ModelCallReservation) (commit : Commit) : Prop where
  loaded : moves.head? = some ⟨.loadCurrent, Except.ok (some state)⟩
  replayed : replay D earlier = .ok state
  reserved : ∃ metadata, moves.getLast? = some ⟨.append (.append (.fromState state)
    (state.event metadata (.modelCallReserved reservation))), Except.ok commit⟩
  body : commit.record.event.body = .modelCallReserved reservation
  callId : request.callId = reservation.callId
  committed : earlier ++ [commit.record] <+: journal
  ready : ∃ frontier, ReadyToPlan state frontier
  settled : ∀ i r other, At earlier i r → r.event.body.reservation? = some other →
    SettledAfter earlier i other.callId

section Calls

variable {store store' : MemoryRunStore} {history : RuntimeHistory}
  {p : Routine AgentLoopError AgentLoopTick} {outcome : Option (Outcome AgentLoopError AgentLoopTick)}
  {before after : List RuntimeMove} {request : PlannerCallRequest}
  {answer : Except PlannerPortFailure PlanProposal}

theorem countP_le_one {α : Type} {good : α → Bool} {xs : List α}
    (h : ∀ before x after, xs = before ++ x :: after → good x = true →
      ∀ y ∈ before, good y = false) : xs.countP good ≤ 1 := by
  induction xs using List.reverseRecOn with
  | nil => simp
  | append_singleton xs x ih =>
    rw [List.countP_append, List.countP_singleton]
    by_cases hx : good x = true
    · have hzero : xs.countP good = 0 :=
        List.countP_eq_zero.mpr fun y hy => by rw [h xs x [] rfl hx y hy]; decide
      rw [if_pos hx, hzero]
    · rw [if_neg hx]
      refine ih fun before y after hsplit hy => h before y (after ++ [x]) ?_ hy
      rw [hsplit, List.append_assoc, List.cons_append]

/-- **One call of the planner in a tick.** -/
theorem plannerCalls_le_one (hcall : LoopCall D P J p)
    (hexec : Exec (runtimeSystem D P) p store history store' outcome) :
    plannerCalls (Happening.own history) ≤ 1 := by
  refine countP_le_one fun before move after hsplit hplan => ?_
  have hallowed := hexec.follows_own hcall.follows hsplit
  obtain ⟨op, answer⟩ := move
  cases op with
  | plan request =>
    obtain ⟨_, _, _, hreserved, _⟩ := hallowed
    exact hreserved.first
  | _ => simp [RuntimeOp.isPlan] at hplan

/-- **What stands in the journal when the planner is called.** -/
theorem planned_after_reservation (h : store.Sound D P) (hcall : LoopCall D P J p)
    (hexec : Exec (runtimeSystem D P) p store history store' outcome)
    (hsplit : Happening.own history = before ++ ⟨.plan request, answer⟩ :: after) :
    ∃ state earlier reservation commit, PlannedAfterReservation D before request store'.records
      state earlier reservation commit := by
  obtain ⟨state, reservation, commit, hreserved, hid⟩ := hexec.follows_own hcall.follows hsplit
  obtain ⟨metadata, hlast⟩ := hreserved.reserved
  obtain ⟨init, hinit⟩ := List.getLast?_eq_some_iff.mp hlast
  rw [hinit, List.append_assoc] at hsplit
  obtain ⟨earlier, m, m', htrace, hmoves, hm, hmove, hext⟩ := move_of_append h hexec.trace hsplit
  -- the tick loaded its state before it reserved the call
  have hloaded : (⟨.loadCurrent, Except.ok (some state)⟩ : RuntimeMove) ∈ init := by
    have hhead := hreserved.loaded
    rw [hinit] at hhead
    cases init with
    | nil => cases hhead
    | cons first rest =>
      rw [List.cons_append, List.head?_cons, Option.some.injEq] at hhead
      rw [hhead]
      exact List.mem_cons_self
  have hseen := seen_of_loaded h htrace (hmoves ▸ hloaded)
  obtain ⟨_, hreplay⟩ := hseen.current hm hmove.expected.symm
  obtain ⟨frontier, hready⟩ := hreserved.ready
  refine ⟨state, m.records, reservation, commit, hreserved.loaded, hreplay, ⟨metadata, hlast⟩, ?_,
    hid, hmove.records ▸ hext.records, ⟨frontier, hready⟩, fun i r other hi hr => ?_⟩
  · rw [hmove.event]
    rfl
  · rcases reservationsEnded_of_replay hreplay i r other hi hr with ⟨status, hopen⟩ | hsettled
    · rw [hready.closed] at hopen
      simp at hopen
    · exact hsettled

theorem plannerCalls_le_committed (h : store.Sound D P) (hcall : LoopCall D P J p)
    (hexec : Exec (runtimeSystem D P) p store history store' outcome) :
    plannerCalls (Happening.own history) ≤ reservations (committed (Happening.own history)) := by
  by_cases hnone : plannerCalls (Happening.own history) = 0
  · rw [hnone]
    exact Nat.zero_le _
  · refine (plannerCalls_le_one hcall hexec).trans ?_
    obtain ⟨move, hmem, hplan⟩ := List.countP_pos_iff.mp (Nat.pos_of_ne_zero hnone)
    obtain ⟨before, after, hsplit⟩ := List.append_of_mem hmem
    obtain ⟨op, answer⟩ := move
    cases op with
    | plan request =>
      obtain ⟨state, earlier, reservation, commit, hplanned⟩ :=
        planned_after_reservation h hcall hexec hsplit
      obtain ⟨metadata, hlast⟩ := hplanned.reserved
      have hmade := List.mem_append_left (⟨.plan request, answer⟩ :: after)
        (List.mem_of_getLast? hlast)
      rw [← hsplit] at hmade
      refine List.countP_pos_iff.mpr ⟨commit.record, List.mem_filterMap.mpr ⟨_, hmade, rfl⟩, ?_⟩
      rw [hplanned.body]
      rfl
    | _ => simp [RuntimeOp.isPlan] at hplan

variable {start : MemoryRunStore}
  {segments : List (Segment RuntimeOp RuntimeOp.Response Commit AgentLoopError AgentLoopTick)}

theorem plannerCalls_le_reservations (hstart : start.Sound D P)
    (hsession : Session (runtimeSystem D P) (LoopCall D P J) start segments store) :
    plannerCalls (Happening.own (Segment.histories segments)) ≤ reservations store.records := by
  have hcommitted : plannerCalls (Happening.own (Segment.histories segments)) ≤
      reservations (committed (Happening.own (Segment.histories segments))) := by
    induction hsession with
    | nil => exact Nat.zero_le _
    | @snoc segments segment m m' hbefore hkind hexec ih =>
      have hm := (extends_of_trace hstart hbefore.trace).sound
      have hlast := plannerCalls_le_committed hm hkind hexec
      simp only [Segment.histories, List.flatMap_append, List.flatMap_singleton,
        Happening.own_append, committed, List.filterMap_append, plannerCalls, reservations,
        List.countP_append] at ih hlast ⊢
      exact Nat.add_le_add ih hlast
  obtain ⟨added, hadded, hsub⟩ := committed_of_trace hstart hsession.trace
  refine hcommitted.trans ((hsub.countP_le).trans ?_)
  rw [hadded, reservations, List.countP_append]
  exact Nat.le_add_left _ _

/-- **The discipline of planner calls.** In every sequence of ticks and abandoned calls, with the
appends of others in between, faults of the store and crashes at any moment: a tick calls the planner
at most once, and only after its last move has committed the reservation of the call on the head that
it loaded, in a state in which nothing is left to do but to plan and every earlier reservation was
settled; the planner calls are at most as many as the reservations of the journal, which the
model-call budget bounds. -/
theorem planner_call_discipline (hstart : start.Sound D P)
    (hsession : Session (runtimeSystem D P) (LoopCall D P J) start segments store) :
    (∀ segment ∈ segments, plannerCalls (Happening.own segment.history) ≤ 1) ∧
    (∀ segment ∈ segments, ∀ before request answer after,
      Happening.own segment.history = before ++ ⟨.plan request, answer⟩ :: after →
      ∃ state earlier reservation commit, PlannedAfterReservation D before request store.records
        state earlier reservation commit) ∧
    plannerCalls (Happening.own (Segment.histories segments)) ≤ reservations store.records ∧
    ∀ state, replay D store.records = .ok state →
      (∀ calls, state.lifecycle = some calls →
        plannerCalls (Happening.own (Segment.histories segments)) ≤
          calls.budget.maxModelCalls.toNat) ∧
      (state.lifecycle = none →
        plannerCalls (Happening.own (Segment.histories segments)) = 0) := by
  have htotal := plannerCalls_le_reservations hstart hsession
  refine ⟨fun segment hsegment => ?_, fun segment hsegment before request answer after hsplit => ?_,
    htotal, fun state hreplay => ⟨fun calls hcalls => ?_, fun hnone => ?_⟩⟩
  · obtain ⟨earlier, later, hsegments⟩ := List.append_of_mem hsegment
    obtain ⟨m, m', _, hkind, hexec, _⟩ := hsession.split hsegments
    exact plannerCalls_le_one hkind hexec
  · obtain ⟨earlier, later, hsegments⟩ := List.append_of_mem hsegment
    obtain ⟨m, m', hbefore, hkind, hexec, hrest⟩ := hsession.split hsegments
    have hm := (extends_of_trace hstart hbefore.trace).sound
    have hm' := (extends_of_trace hm hexec.trace).sound
    obtain ⟨state, records, reservation, commit, hplanned⟩ :=
      planned_after_reservation hm hkind hexec hsplit
    exact ⟨state, records, reservation, commit,
      { hplanned with
        committed := hplanned.committed.trans (extends_of_trace hm' hrest).records }⟩
  · exact htotal.trans (reservations_le_budget hreplay hcalls)
  · have hcounted := callsCounted_of_replay hreplay
    rw [hnone] at hcounted
    exact Nat.le_zero.mp (htotal.trans (le_of_eq hcounted))

end Calls

/-- Digests that are the same for every document. -/
def flatDigests : Digests where
  canonicalize _ := .ok ⟨64, ⟨"aaaaaaaaaaaaaaaaaaaaaaaaaaaaaaaaaaaaaaaaaaaaaaaaaaaaaaaaaaaaaaaa",
    by decide +kernel⟩⟩

def flatProtocol : Protocol where
  schema _ := .ok ()
  rfc3339 _ := some 0

def flatSchemas : Schemas where
  build _ := none
  policyDecision _ := true

/-- Ports of a host whose planner runs into a timeout. -/
def timeoutPorts (store : MemoryRunStore) : (op : RuntimeOp) → op.Response
  | .loadCurrent | .loadPlannedInvocation _ | .loadInvocationMaterial _ | .append _ =>
    Except.error .sequenceOutOfRange
  | .loadCompletionOutput _ _ => Except.ok none
  | .loadPlanningSnapshot _ _ => Except.ok (store.projection.map fun state => ⟨state, ∅, [], []⟩)
  | .createMetadata state =>
    Except.ok ⟨"event-" ++ toString (state.journalSequence + 1), "2026-01-01T00:00:00Z"⟩
  | .plan _ => Except.error .timeout
  | .materialize _ => Except.error .unavailable
  | .reconstruct _ _ _ => Except.error .unavailable
  | .prepare _ _ => Except.error .unavailable
  | .execute _ => AdapterExecutionObservation.unknown .adapterTerminated
  | .reconcile _ _ => AdapterReconciliationObservation.inconclusive .queryUnavailable
  | .routeFor _ _ => Except.error .unavailable
  | .decide _ => Except.error .unavailable
  | .observe _ => DriverProgressControl.continue_
  | .verifyStep _ => Except.ok ()

def sampleLoop : AgentLoop where
  budget := ⟨3, 8, 8, 65536⟩
  modelCallBudget := ⟨4⟩
  planningConstraints := []

def sampleTickInputs : TickInputs where
  lease := ⟨"run-1"⟩
  capabilities := ⟨∅, ∅⟩
  resolver _ resource := .ok resource
  planner := ⟨"planner-1", sampleDigest 'a'⟩

/-- A tick of the sample loop. -/
def sampleTick (D : Digests) : Routine AgentLoopError AgentLoopTick :=
  sampleLoop.tick D flatProtocol flatSchemas ⟨"linux", "x86_64"⟩ sampleTickInputs

/-- The host of the samples. -/
def sampleHost (D : Digests) (ports : MemoryRunStore → (op : RuntimeOp) → op.Response)
    (store : MemoryRunStore) : (op : RuntimeOp) → op.Response × MemoryRunStore :=
  memoryHost D flatProtocol ports store

/-- A store with a created run. -/
def createdStore (D : Digests) : MemoryRunStore :=
  (sampleHost D timeoutPorts .new (.append (.append .empty (sampleEvent 1 (.runCreated "goal"))))).2

theorem createdStore_sound (D : Digests) : (createdStore D).Sound D flatProtocol :=
  (MemoryRunStore.sound_new.answers (memoryHost_step _ _ _)).sound

/-- No one else appends. -/
def noOthers (_ : MemoryRunStore) (_ : RuntimeOp) : Option (Commit × MemoryRunStore) := none

theorem noOthers_accepts (D : Digests) (store : MemoryRunStore) (op : RuntimeOp) (commit : Commit)
    (store' : MemoryRunStore) (h : noOthers store op = some (commit, store')) :
    (runtimeSystem D flatProtocol).other store commit store' := by
  simp [noOthers] at h

theorem noOthers_single {ε α : Type} (host : MemoryRunStore → (op : RuntimeOp) → op.Response × MemoryRunStore)
    (p : Routine ε α) (store : MemoryRunStore) : SingleWriter (p.run host noOthers store).1 := by
  induction p generalizing store with
  | ret | stop => simp [SingleWriter, Prog.run]
  | call op k ih =>
    intro commit hmem
    have hrest := ih (host store op).1 (host store op).2 commit
    simp only [Prog.run, noOthers, List.mem_cons, reduceCtorEq, false_or] at hmem
    exact hrest hmem

/-- The history of some ticks of the sample loop, and the store after them. -/
def sampleTicks (D : Digests) (ports : MemoryRunStore → (op : RuntimeOp) → op.Response) :
    ℕ → RuntimeHistory × MemoryRunStore
  | 0 => ([], createdStore D)
  | count + 1 =>
    let before := sampleTicks D ports count
    let last := (sampleTick D).run (sampleHost D ports) noOthers before.2
    (before.1 ++ last.1, last.2.1)

theorem sampleTicks_session (D : Digests)
    (ports : MemoryRunStore → (op : RuntimeOp) → op.Response) (count : ℕ) :
    ∃ segments, Session (runtimeSystem D flatProtocol) (LoopCall D flatProtocol flatSchemas)
      (createdStore D) segments (sampleTicks D ports count).2 ∧
      Segment.histories segments = (sampleTicks D ports count).1 := by
  induction count with
  | zero => exact ⟨[], .nil, rfl⟩
  | succ count ih =>
    obtain ⟨segments, hsession, hmoves⟩ := ih
    refine ⟨_, hsession.run (.tick _ _ _) (memoryHost_step ports) (noOthers_accepts D), ?_⟩
    rw [Segment.histories, List.flatMap_append, List.flatMap_singleton]
    exact congrArg (· ++ _) hmoves

/-- Three ticks configure the loop and its lifecycle, and call the planner once. -/
theorem planner_call_discipline_sample : ∃ segments store,
    Session (runtimeSystem flatDigests flatProtocol)
      (LoopCall flatDigests flatProtocol flatSchemas) (createdStore flatDigests) segments store ∧
    plannerCalls (Happening.own (Segment.histories segments)) = 1 ∧
    plannerCalls (Happening.own (Segment.histories segments)) ≤ reservations store.records := by
  obtain ⟨segments, hsession, hmoves⟩ := sampleTicks_session flatDigests timeoutPorts 3
  refine ⟨segments, _, hsession, ?_, (planner_call_discipline (createdStore_sound _) hsession).2.2.1⟩
  rw [hmoves]
  decide

end Xgeny
