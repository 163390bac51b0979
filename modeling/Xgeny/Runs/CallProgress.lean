import Xgeny.Runs.Budgets

set_option autoImplicit false

/-!
# No wedged model call

An open model call can always be ended, and the slot can then be taken again: the counters leave
room for the settlement, and the sequence number of the head says which rejections are possible.

* `NextRecord`: the record that an event becomes at the end of a journal;
* `CallPositions`: the open call stands in the journal, at the number that its reservation names;
* `settleModelCall_isOk_iff`, `markModelCallUnknown_isOk`, `reserveModelCall_isOk`: what the
  handlers accept in a reachable state;
* **`no_wedged_model_call`**: the law, for every reachable state with an open call.
-/

namespace Xgeny

open EventLog

variable {D : Digests} {state : RunState} {records : List EventRecord} {record : EventRecord}
  {active : ModelCallState}

/-! ## The next record of a journal -/

/-- The event carries the identity of the run. -/
structure RunEvent.Of (event : RunEvent) (state : RunState) : Prop where
  runId : event.runId = state.runId
  authority : event.authority = state.authority
  authorityEpoch : event.authorityEpoch = state.authorityEpoch

/-- The record that an event of the run becomes at the end of the journal. -/
structure NextRecord (D : Digests) (records : List EventRecord) (state : RunState)
    (body : RunEventBody) (record : EventRecord) : Prop where
  next : EventRecord.next D records.getLast? record.event = .ok record
  identity : record.event.Of state
  body : record.event.body = body

theorem replay_getLast (h : replay D records = .ok state) : ∃ last, records.getLast? = some last ∧
    last.sequence = state.journalSequence ∧ last.digest = state.journalHeadDigest := by
  have hjournal := replay_journal h
  obtain ⟨last, hlast, hdigest⟩ := Option.map_eq_some_iff.mp hjournal.head
  refine ⟨last, hlast, ?_, hdigest⟩
  have hpos : 0 < records.length := List.length_pos_of_ne_nil (replay_ne_nil h)
  have hat : At records (records.length - 1) last := by rw [At, ← List.getLast?_eq_getElem?, hlast]
  rw [← UInt64.toNat_inj, hjournal.position _ _ hat, hjournal.length]
  omega

/-- **An event of the run becomes a record, below the last sequence number**; only the encoder can
refuse it. -/
theorem next_total (h : replay D records = .ok state)
    (hsequence : state.journalSequence.toNat + 1 < 2 ^ 64) (event : RunEvent) :
    (∃ record, EventRecord.next D records.getLast? event = .ok record ∧ record.event = event) ∨
      ∃ text, EventRecord.next D records.getLast? event = Outcome.fail (.canonicalization text) := by
  obtain ⟨last, hlast, hseq, _⟩ := replay_getLast h
  have hnext : last.sequence.checkedAdd 1 = some (last.sequence + 1) := by
    rw [UInt64.checkedAdd_eq_some, hseq, UInt64.toNat_add]
    exact Nat.mod_eq_of_lt hsequence
  have heq : EventRecord.next D records.getLast? event =
      (recordDigest D (last.sequence + 1) (some last.digest) event >>= fun digest =>
        pure ⟨last.sequence + 1, some last.digest, event, digest⟩) := by
    simp only [EventRecord.next, hlast, hnext]
    rfl
  rw [heq, recordDigest, Digests.digest, Digests.toVec]
  cases D.canonicalize (.record (last.sequence + 1) (some last.digest) event) with
  | ok canonical => exact Or.inl ⟨_, rfl, rfl⟩
  | error text => exact Or.inr ⟨text, rfl⟩

theorem NextRecord.follows {body : RunEventBody} (hnext : NextRecord D records state body record)
    (h : replay D records = .ok state) : Follows D state record := by
  obtain ⟨last, hlast, hseq, hhead⟩ := replay_getLast h
  have hok := hnext.next
  rw [hlast] at hok
  obtain ⟨hsequence, hprevious, _, hdigest⟩ := EventRecord.next_some hok
  exact ⟨by rw [hsequence, hseq], by rw [hprevious, hhead], hdigest, hnext.identity.runId,
    hnext.identity.authority, hnext.identity.authorityEpoch⟩

theorem NextRecord.accepted_iff {body : RunEventBody}
    (hnext : NextRecord D records state body record) (h : replay D records = .ok state)
    (hcreate : ∀ goal, body ≠ .runCreated goal) :
    (∃ state', applyRecord D (some state) record = .ok state') ↔
      ∃ next, applyBody D state body = .ok next := by
  have hbody := hnext.body
  constructor
  · rintro ⟨state', happly⟩
    obtain ⟨next, hok, _⟩ :=
      ((hnext.follows h).applyRecord_eq_ok (by rwa [hbody])).mp happly
    exact ⟨next, hbody ▸ hok⟩
  · rintro ⟨next, hok⟩
    exact ⟨_, ((hnext.follows h).applyRecord_eq_ok (by rwa [hbody])).mpr
      ⟨next, by rw [hbody, hok], rfl⟩⟩

/-! ## The position of the open call -/

theorem reservation?_eq_some {body : RunEventBody} {reservation : ModelCallReservation} :
    body.reservation? = some reservation ↔ body = .modelCallReserved reservation := by
  cases body <;> simp [RunEventBody.reservation?]

/-- Every reservation names the number of records before it, and the open call was reserved in the
journal, for this run. -/
structure CallPositions (D : Digests) (records : List EventRecord) (state : RunState) : Prop where
  numbered : ∀ i r reservation, At records i r → r.event.body.reservation? = some reservation →
    reservation.baseSequence.toNat = i
  reserved : ∀ active, state.openCall = some active →
    ∃ i r, At records i r ∧ r.event.body.reservation? = some active.reservation
  valid : ∀ active, state.openCall = some active →
    active.reservation.validateFor D state.runId state.authorityEpoch = .ok ()

theorem CallPositions.quiet {next : RunState} (h : CallPositions D records state)
    (hrun : next.runId = state.runId) (hepoch : next.authorityEpoch = state.authorityEpoch)
    (hreservation : record.event.body.reservation? = none)
    (hslot : ∀ active, next.openCall = some active →
      ∃ old, state.openCall = some old ∧ old.reservation = active.reservation) :
    CallPositions D (records ++ [record]) next := by
  refine ⟨fun i r reservation hi hr => ?_, fun active hactive => ?_, fun active hactive => ?_⟩
  · rcases at_snoc.mp hi with hi | ⟨_, rfl⟩
    · exact h.numbered i r reservation hi hr
    · simp [hreservation] at hr
  · obtain ⟨old, hold, hsame⟩ := hslot active hactive
    obtain ⟨i, r, hi, hr⟩ := h.reserved old hold
    exact ⟨i, r, hi.snoc, hsame ▸ hr⟩
  · obtain ⟨old, hold, hsame⟩ := hslot active hactive
    rw [← hsame, hrun, hepoch]
    exact h.valid old hold

/-- **Run lemma.** -/
theorem callPositions_of_replay (h : replay D records = .ok state) :
    CallPositions D records state := by
  refine replay_induction ?_ ?_ h
  · intro record goal hcreates
    refine ⟨fun i r reservation hi hr => ?_, fun active hactive => ?_, fun active hactive => ?_⟩
    · obtain ⟨_, rfl⟩ : i = 0 ∧ record = r := by
        simpa [At, List.getElem?_singleton] using hi
      simp [hcreates.body, RunEventBody.reservation?] at hr
    · simp [RunState.openCall, RunState.advance, RunState.created] at hactive
    · simp [RunState.openCall, RunState.advance, RunState.created] at hactive
  · intro records s record next hs hI hfollows ht
    obtain ⟨hrun, _, hepoch⟩ := ht.identity_eq
    have hmove := ht.callMove
    generalize hslot : s.openCall = slot at hmove
    generalize hslot' : next.openCall = slot' at hmove
    generalize hbody : record.event.body = body at hmove
    have hopen : (next.advance record).openCall = slot' := hslot'
    cases hmove with
    | quiet hreservation hended hdoubted =>
      refine hI.quiet hrun hepoch (hbody ▸ hreservation) fun active hactive => ?_
      exact ⟨active, by rw [hslot, ← hopen, hactive], rfl⟩
    | doubted hstatus =>
      refine hI.quiet hrun hepoch (by rw [hbody]; rfl) fun active hactive => ?_
      rw [hopen] at hactive
      exact ⟨_, hslot, by rw [← Option.some.inj hactive]⟩
    | ended hreservation hended hdoubted hstatus =>
      refine hI.quiet hrun hepoch (hbody ▸ hreservation) fun active hactive => ?_
      simp [hopen] at hactive
    | reserved hbase hvalid =>
      rename_i reservation
      refine ⟨fun i r other hi hr => ?_, fun active hactive => ?_, fun active hactive => ?_⟩
      · rcases at_snoc.mp hi with hi | ⟨rfl, rfl⟩
        · exact hI.numbered i r other hi hr
        · rw [hbody] at hr
          obtain rfl := Option.some.inj hr
          rw [hbase, (replay_journal hs).length]
      · rw [hopen] at hactive
        rw [← Option.some.inj hactive]
        exact ⟨_, record, at_length, by rw [hbody]; rfl⟩
      · rw [hopen] at hactive
        rw [← Option.some.inj hactive]
        show reservation.validateFor D next.runId next.authorityEpoch = .ok ()
        rw [hrun, hepoch]
        exact hvalid

/-! ## What the handlers accept -/

theorem RunState.openCall_eq_some (h : state.openCall = some active) :
    ∃ loop calls, state.agentLoop = some loop ∧ loop.modelCalls = some calls ∧
      calls.activeCall = some active := by
  obtain ⟨calls, hcalls, hactive⟩ := Option.bind_eq_some_iff.mp h
  obtain ⟨loop, hloop, hcalls⟩ := Option.bind_eq_some_iff.mp hcalls
  exact ⟨loop, calls, hloop, hcalls, hactive⟩

theorem ModelCallReservation.validateFor_requireModelCallId {self : ModelCallReservation}
    {runId : String} {authorityEpoch : UInt64} {u : Unit}
    (h : self.validateFor D runId authorityEpoch = .ok u) :
    requireModelCallId "call_id" self.callId = .ok () := by
  simp only [ModelCallReservation.validateFor, Outcome.bind_eq_ok, Outcome.exists_unit] at h
  exact h.2.2.1

theorem validateModelCallCounters_ok {loop : AgentLoopState} {calls : ModelCallLifecycleState}
    {sequence : ℕ} (hcalls : loop.modelCalls = some calls)
    (h : CallCounters loop.acceptedModelTurns sequence calls) :
    validateModelCallCounters loop = .ok () := by
  have haccepted := h.accepted
  have hbalance := h.balance
  have hunknown := h.unknown
  simp only [validateModelCallCounters, hcalls, Outcome.whenSome_eq_ok, Option.some.injEq,
    forall_eq', Outcome.failIf_eq_ok, gt_iff_lt, UInt32.lt_iff_toNat_lt]
  omega

section

variable (h : replay D records = .ok state)
include h

/-- **The open call is settled exactly when the settlement itself is admissible.** -/
theorem settleModelCall_isOk_iff (hslot : state.openCall = some active)
    (settlement : ModelCallSettlement) :
    (∃ next, settleModelCall state active.reservation.callId settlement = .ok next) ↔
      checkSettlement state active settlement = .ok () := by
  obtain ⟨loop, calls, hloop, hcalls, hactive⟩ := RunState.openCall_eq_some hslot
  have hcounters := (reachable_loopBudget ⟨_, h⟩ loop hloop).calls calls hcalls
  have hid := ModelCallReservation.validateFor_requireModelCallId
    ((callPositions_of_replay h).valid active hslot)
  simp only [settleModelCall, hloop, hcalls, hactive, Outcome.bind_eq_ok, Outcome.exists_unit,
    Outcome.mapErr_eq_ok, hid, Outcome.okOr_eq_ok, Option.some.injEq, exists_eq_left',
    Outcome.failIf_eq_ok, ne_eq, not_true_eq_false, not_false_eq_true, Outcome.pure_eq_ok, true_and]
  constructor
  · rintro ⟨_, hsettlement, _⟩
    exact hsettlement
  · intro hsettlement
    -- the open call is the one reservation that the settled calls do not count yet
    have hroom := hcounters.settled_lt hactive
    have hlt := calls.reservedCalls.toNat_lt
    have hadd : calls.settledCalls.checkedAdd 1 = some (calls.settledCalls + 1) := by
      rw [UInt32.checkedAdd_eq_some, UInt32.toNat_add]
      exact Nat.mod_eq_of_lt (by rw [UInt32.toNat_one]; omega)
    refine ⟨_, hsettlement, _, hadd, ?_, rfl⟩
    exact validateModelCallCounters_ok rfl
      (hcounters.settle hactive (UInt32.checkedAdd_eq_some.mp hadd) (Nat.le_succ _))

theorem markModelCallUnknown_isOk (hslot : state.openCall = some active)
    (hstatus : active.status = .reserved) (reason : ModelCallUnknownReason) :
    ∃ next, markModelCallUnknown state active.reservation.callId reason = .ok next := by
  obtain ⟨loop, calls, hloop, hcalls, hactive⟩ := RunState.openCall_eq_some hslot
  have hcounters := (reachable_loopBudget ⟨_, h⟩ loop hloop).calls calls hcalls
  have hid := ModelCallReservation.validateFor_requireModelCallId
    ((callPositions_of_replay h).valid active hslot)
  have hroom := hcounters.unknown_lt hactive hstatus
  have hlt := calls.reservedCalls.toNat_lt
  have hadd : calls.unknownCalls.checkedAdd 1 = some (calls.unknownCalls + 1) := by
    rw [UInt32.checkedAdd_eq_some, UInt32.toNat_add]
    exact Nat.mod_eq_of_lt (by rw [UInt32.toNat_one]; omega)
  simp only [markModelCallUnknown, hloop, hcalls, hactive, hstatus, Outcome.bind_eq_ok,
    Outcome.exists_unit, Outcome.mapErr_eq_ok, hid, Outcome.okOr_eq_ok, Option.some.injEq,
    exists_eq_left', Outcome.failIf_eq_ok, ne_eq, not_true_eq_false, not_false_eq_true,
    Outcome.pure_eq_ok, true_and]
  refine ⟨_, _, hadd, ?_, rfl⟩
  exact validateModelCallCounters_ok rfl
    (hcounters.doubt hactive hstatus (UInt32.checkedAdd_eq_some.mp hadd))

theorem reserveModelCall_isOk {loop : AgentLoopState} {calls : ModelCallLifecycleState}
    {reservation : ModelCallReservation} (hloop : state.agentLoop = some loop)
    (hcalls : loop.modelCalls = some calls) (hidle : calls.activeCall = none)
    (hopen : loop.completionCandidate = none)
    (hturns : loop.acceptedModelTurns < loop.budget.maxModelTurns)
    (hbudget : calls.reservedCalls < calls.budget.maxModelCalls)
    (hvalid : reservation.validateFor D state.runId state.authorityEpoch = .ok ())
    (hindex : reservation.callIndex.toNat = calls.reservedCalls.toNat + 1)
    (hturn : reservation.turnIndex.toNat = loop.acceptedModelTurns.toNat + 1)
    (hbase : reservation.baseSequence = state.journalSequence)
    (hhead : reservation.baseHeadDigest = state.journalHeadDigest) :
    ∃ next, reserveModelCall D state reservation = .ok next := by
  have hcounters := (reachable_loopBudget ⟨_, h⟩ loop hloop).calls calls hcalls
  have hcall : calls.reservedCalls.checkedAdd 1 = some reservation.callIndex :=
    UInt32.checkedAdd_eq_some.mpr hindex
  have haccepted : loop.acceptedModelTurns.checkedAdd 1 = some reservation.turnIndex :=
    UInt32.checkedAdd_eq_some.mpr hturn
  simp only [reserveModelCall, hloop, hcalls, hidle, hopen, hvalid, hcall, haccepted, hbase, hhead,
    Outcome.bind_eq_ok, Outcome.exists_unit, Outcome.mapErr_eq_ok, Outcome.okOr_eq_ok,
    Option.some.injEq, exists_eq_left', Outcome.failIf_eq_ok, ne_eq, not_true_eq_false,
    not_false_eq_true, Option.isSome_none, Bool.false_eq_true, ge_iff_le, UInt32.not_le, hturns,
    hbudget, or_self, Outcome.pure_eq_ok, true_and]
  refine ⟨_, ?_, rfl⟩
  exact validateModelCallCounters_ok rfl (hcounters.reserve hidle hbudget hindex (by rw [hbase]))

/-- **A rejection is admissible exactly when its reason says whether the journal moved on.** -/
theorem checkSettlement_rejected_iff (hstatus : active.status = .reserved) {i : ℕ}
    {r : EventRecord} (hi : At records i r)
    (hr : r.event.body.reservation? = some active.reservation) (reason : ModelCallRejectionReason) :
    checkSettlement state active (.rejected reason) = .ok () ↔
      (reason = .staleHead ↔ i + 1 < records.length) := by
  have hbase := (callPositions_of_replay h).numbered i r _ hi hr
  have hlength := (replay_journal h).length
  have hin := hi.lt_length
  have hlt := state.journalSequence.toNat_lt
  have hadd : active.reservation.baseSequence.checkedAdd 1 =
      some (active.reservation.baseSequence + 1) := by
    rw [UInt64.checkedAdd_eq_some, UInt64.toNat_add]
    exact Nat.mod_eq_of_lt (by rw [UInt64.toNat_one]; omega)
  have hnumber := UInt64.checkedAdd_eq_some.mp hadd
  have hhead : state.journalSequence = active.reservation.baseSequence + 1 ↔
      ¬ i + 1 < records.length := by
    rw [← UInt64.toNat_inj, hnumber, hbase, hlength, UInt64.toNat_one]
    omega
  simp only [checkSettlement, hstatus, hadd, Outcome.bind_eq_ok, Outcome.exists_unit,
    Outcome.failIf_eq_ok, Outcome.okOr_eq_ok, Option.some.injEq, exists_eq_left', ne_eq,
    not_true_eq_false, not_false_eq_true, true_and, Decidable.not_not, hhead]
  tauto

end

/-! ## The law -/

/-- **No wedged model call.** In every reachable state with an open call, below the last sequence
number: an event of the run becomes a record unless the encoder refuses it; every record that
abandons the call is accepted; if the call is still reserved, then a rejection is accepted exactly
when its reason says whether a record was committed after the reservation; and once a settlement
was accepted, every valid reservation on the new head is accepted, as long as turns and calls are
left and no completion candidate is recorded. -/
theorem no_wedged_model_call (h : replay D records = .ok state)
    (hslot : state.openCall = some active)
    (hsequence : state.journalSequence.toNat + 1 < 2 ^ 64) :
    (∀ event, (∃ record, EventRecord.next D records.getLast? event = .ok record ∧
        record.event = event) ∨
      ∃ text, EventRecord.next D records.getLast? event = Outcome.fail (.canonicalization text)) ∧
    (∀ reason record, NextRecord D records state
        (.modelCallSettled active.reservation.callId (.abandoned reason)) record →
      ∃ state', applyRecord D (some state) record = .ok state') ∧
    (active.status = .reserved →
      ∃ i r, At records i r ∧ r.event.body = .modelCallReserved active.reservation ∧
        ∀ reason record, NextRecord D records state
          (.modelCallSettled active.reservation.callId (.rejected reason)) record →
          ((∃ state', applyRecord D (some state) record = .ok state') ↔
            (reason = .staleHead ↔ i + 1 < records.length))) ∧
    (∀ settlement record state', NextRecord D records state
        (.modelCallSettled active.reservation.callId settlement) record →
      applyRecord D (some state) record = .ok state' →
      ∃ loop calls, state'.agentLoop = some loop ∧ loop.modelCalls = some calls ∧
        calls.activeCall = none ∧
        (loop.completionCandidate = none →
          loop.acceptedModelTurns < loop.budget.maxModelTurns →
          calls.reservedCalls < calls.budget.maxModelCalls →
          ∀ reservation : ModelCallReservation,
            reservation.validateFor D state'.runId state'.authorityEpoch = .ok () →
            reservation.callIndex.toNat = calls.reservedCalls.toNat + 1 →
            reservation.turnIndex.toNat = loop.acceptedModelTurns.toNat + 1 →
            reservation.baseSequence = state'.journalSequence →
            reservation.baseHeadDigest = state'.journalHeadDigest →
            ∀ record', NextRecord D (records ++ [record]) state'
              (.modelCallReserved reservation) record' →
              ∃ state'', applyRecord D (some state') record' = .ok state'')) := by
  refine ⟨next_total h hsequence, ?_, ?_, ?_⟩
  · intro reason record hnext
    rw [hnext.accepted_iff h (by simp)]
    exact (settleModelCall_isOk_iff h hslot _).mpr rfl
  · intro hstatus
    obtain ⟨i, r, hi, hr⟩ := (callPositions_of_replay h).reserved active hslot
    refine ⟨i, r, hi, reservation?_eq_some.mp hr, fun reason record hnext => ?_⟩
    rw [hnext.accepted_iff h (by simp)]
    exact (settleModelCall_isOk_iff h hslot _).trans
      (checkSettlement_rejected_iff h hstatus hi hr reason)
  · intro settlement record state' hnext happly
    have hreplay : replay D (records ++ [record]) = .ok state' :=
      replay_eq_ok.mpr (EventLog.run_snoc.mpr
        ⟨some state, state', replay_eq_ok.mp h, Outcome.mapErr_eq_ok.mpr happly, rfl⟩)
    obtain ⟨next, _, ht, rfl⟩ := applyRecord_some happly
    rw [hnext.body] at ht
    cases ht with
    | modelCallSettled hloop hcalls hactive hcall hsettlement hsettled =>
      refine ⟨_, _, rfl, rfl, rfl, ?_⟩
      intro hopen hturns hbudget reservation hvalid hindex hturn hbase hhead record' hnext'
      rw [hnext'.accepted_iff hreplay (by simp)]
      exact reserveModelCall_isOk hreplay rfl rfl rfl hopen hturns hbudget hvalid hindex hturn hbase
        hhead
    | moved hstep hmove => cases hmove

/-- The last record of the sample run abandons the second call, which timed out. -/
def abandonRecord : EventRecord where
  sequence := 17
  previousDigest := some "sha256:22d3081470baf2cdeb5510b7b782a8f00415f6ac3622586b2cab6ce3926809b7"
  event := sampleEvent 17 (.modelCallSettled callTwo (.abandoned .recoveryDiscarded))
  digest := "sha256:a27c81553b759b531149335b83ce38e4d8d1f4c13153eb447661e14d3b4272a6"

/-- The second call of the sample run is open in doubt, and abandoning it is accepted. -/
theorem no_wedged_model_call_sample : ∃ state active state',
    replay (tableDigests callTable) callJournal.dropLast = .ok state ∧
      state.openCall = some active ∧ state.journalSequence.toNat + 1 < 2 ^ 64 ∧
      applyRecord (tableDigests callTable) (some state) abandonRecord = .ok state' := by
  have hrun : (replay (tableDigests callTable) callJournal.dropLast).value?.any (fun state =>
      decide (state.runId = "run-1" ∧ state.authority = "local" ∧ state.authorityEpoch = 1 ∧
        state.journalSequence = 16) &&
        state.openCall.any fun active => decide (active.reservation.callId = callTwo)) = true := by
    decide +kernel
  obtain ⟨state, hreplay, hstate⟩ := Outcome.exists_ok_of_any hrun
  obtain ⟨hidentity, hslot⟩ := Bool.and_eq_true_iff.mp hstate
  obtain ⟨hrunId, hauthority, hepoch, hsequence⟩ := of_decide_eq_true hidentity
  obtain ⟨active, hslot, hcall⟩ := (Option.any_eq_true _ _).mp hslot
  have hbound : state.journalSequence.toNat + 1 < 2 ^ 64 := by
    rw [hsequence]
    decide
  have hnext : NextRecord (tableDigests callTable) callJournal.dropLast state
      (.modelCallSettled active.reservation.callId (.abandoned .recoveryDiscarded))
      abandonRecord := by
    refine ⟨Outcome.value?_eq_some.mp (by decide +kernel), ⟨?_, ?_, ?_⟩, ?_⟩
    · rw [hrunId]; rfl
    · rw [hauthority]; rfl
    · rw [hepoch]; rfl
    · rw [of_decide_eq_true hcall]; rfl
  obtain ⟨state', happly⟩ := (no_wedged_model_call hreplay hslot hbound).2.1 _ _ hnext
  exact ⟨state, active, state', hreplay, hslot, hbound, happly⟩

end Xgeny
