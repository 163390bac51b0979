import Xgeny.Transition.Steps

set_option autoImplicit false

/-!
# Runs

`replay` read as a run of the transition relation: the first record creates the run, and every
further record follows the head of the journal and is a transition.

* `Follows`: what is checked of a record before its event is applied;
* `Creates`: what the first record is;
* **`replay_induction`**: the invariant rule for replayed states;
* **`reachable_induction`**: the same for invariants that do not mention the journal;
* `reachable_steps_induction`: the same for single steps, and `reachable_step_shape`, its first use;
* `reachable_moves_induction`: the same for single steps, with the event that moved them;
* `replay_journal`: the position of each record, and the head.
-/

namespace Xgeny

variable {D : Digests} {state state' : RunState} {record : EventRecord}
  {records : List EventRecord}

@[simp] theorem RunState.advance_steps : (state.advance record).steps = state.steps := rfl

@[simp] theorem RunState.advance_agentLoop : (state.advance record).agentLoop = state.agentLoop :=
  rfl

@[simp] theorem RunState.advance_authorizationConsumption :
    (state.advance record).authorizationConsumption = state.authorizationConsumption := rfl

@[simp] theorem RunState.advance_journalSequence :
    (state.advance record).journalSequence = record.sequence := rfl

@[simp] theorem RunState.advance_runId : (state.advance record).runId = state.runId := rfl

@[simp] theorem RunState.advance_authorityEpoch :
    (state.advance record).authorityEpoch = state.authorityEpoch := rfl

theorem Transition.identity_eq {body : RunEventBody} (h : Transition D state body state') :
    state'.runId = state.runId ∧ state'.authority = state.authority ∧
      state'.authorityEpoch = state.authorityEpoch := by
  cases h <;> exact ⟨rfl, rfl, rfl⟩

theorem Transition.runId_eq {body : RunEventBody} (h : Transition D state body state') :
    state'.runId = state.runId := h.identity_eq.1

/-- A record that extends the journal of a state. -/
structure Follows (D : Digests) (state : RunState) (record : EventRecord) : Prop where
  sequence : record.sequence.toNat = state.journalSequence.toNat + 1
  previous : record.previousDigest = some state.journalHeadDigest
  digest : recordDigest D record.sequence record.previousDigest record.event = .ok record.digest
  runId : record.event.runId = state.runId
  authority : record.event.authority = state.authority
  authorityEpoch : record.event.authorityEpoch = state.authorityEpoch

/-- A record that creates a run. -/
structure Creates (D : Digests) (record : EventRecord) (goal : String) : Prop where
  body : record.event.body = .runCreated goal
  sequence : record.sequence.toNat = 1
  previous : record.previousDigest = none
  digest : recordDigest D record.sequence record.previousDigest record.event = .ok record.digest

theorem applyRecord_none (h : applyRecord D none record = .ok state) :
    ∃ goal, Creates D record goal ∧ state = (RunState.created record.event goal).advance record := by
  simp only [applyRecord, verifyRecordAgainstState, nextSequence, Outcome.bind_eq_ok,
    Outcome.exists_unit, Outcome.okOr_eq_ok, Outcome.failIf_eq_ok, Outcome.mapErr_eq_ok,
    EventRecord.verifyDigest_eq_ok, Outcome.pure_eq_ok, ne_eq, Decidable.not_not, Option.map_none,
    Option.some.injEq, exists_eq_left'] at h
  obtain ⟨⟨hsequence, hprevious, hdigest, _⟩, s, hs, rfl⟩ := h
  cases hbody : record.event.body with
  | runCreated goal =>
    simp only [applyEvent, hbody, Outcome.pure_eq_ok] at hs
    exact ⟨goal, ⟨hbody, by rw [hsequence]; rfl, hprevious, hdigest⟩, by rw [hs]⟩
  | _ => simp [applyEvent, hbody] at hs

theorem applyRecord_some (h : applyRecord D (some state) record = .ok state') :
    ∃ next, Follows D state record ∧ Transition D state record.event.body next ∧
      state' = next.advance record := by
  simp only [applyRecord, verifyRecordAgainstState, nextSequence, checkRunIdentity,
    Outcome.bind_eq_ok, Outcome.exists_unit, Outcome.okOr_eq_ok, Outcome.failIf_eq_ok,
    Outcome.mapErr_eq_ok, EventRecord.verifyDigest_eq_ok, Outcome.whenSome_eq_ok,
    Outcome.pure_eq_ok, ne_eq, Decidable.not_not, Option.map_some, Option.some.injEq,
    forall_eq', UInt64.checkedAdd_eq_some] at h
  obtain ⟨⟨_, hsequence, rfl, hprevious, hdigest, hrun, hauthority, hepoch⟩, next, hnext, rfl⟩ := h
  refine ⟨next, ⟨hsequence, hprevious, hdigest, hrun, hauthority, hepoch⟩, ?_, rfl⟩
  unfold applyEvent at hnext
  split at hnext
  · simp at *
  · simp at *
  · simp at hnext
  · rename_i heq _
    obtain rfl := Option.some.inj heq
    exact transition_of_applyBody hnext

theorem Follows.applyRecord_eq_ok (h : Follows D state record)
    (hcreate : ∀ goal, record.event.body ≠ .runCreated goal) :
    applyRecord D (some state) record = .ok state' ↔
      ∃ next, applyBody D state record.event.body = .ok next ∧ next.advance record = state' := by
  have hsequence : nextSequence (some state) = some record.sequence := by
    rw [nextSequence, UInt64.checkedAdd_eq_some]
    exact h.sequence
  have hverify : verifyRecordAgainstState D (some state) record = .ok () := by
    have hdigest := h.digest
    rw [h.previous] at hdigest
    simp [verifyRecordAgainstState, hsequence, h.previous, hdigest, h.runId, h.authority,
      h.authorityEpoch, EventRecord.verifyDigest_eq_ok, checkRunIdentity, Outcome.mapErr_eq_ok]
  have hevent : applyEvent D (some state) record.event = applyBody D state record.event.body := by
    unfold applyEvent
    split
    · simp at *
    · simp at *
    · rename_i hbody
      exact absurd hbody (hcreate _)
    · rename_i heq _
      rw [Option.some.inj heq]
  simp only [applyRecord, hverify, hevent, Outcome.bind_eq_ok, Outcome.exists_unit,
    Outcome.pure_eq_ok, true_and]

/-! ## Invariant rules -/

theorem replay_eq_ok : replay D records = .ok state ↔
    EventLog.run (fun current record => (applyRecord D current record).mapErr replayTransitionError)
      records = .ok (some state) := by
  simp only [replay, Outcome.bind_eq_ok, Outcome.okOr_eq_ok, exists_eq_right]

/-- **Invariant rule for replayed states**, with the journal in hand. -/
theorem replay_induction {I : List EventRecord → RunState → Prop}
    (first : ∀ record goal, Creates D record goal →
      I [record] ((RunState.created record.event goal).advance record))
    (next : ∀ records state record next, replay D records = .ok state → I records state →
      Follows D state record → Transition D state record.event.body next →
      I (records ++ [record]) (next.advance record))
    (h : replay D records = .ok state) : I records state := by
  refine EventLog.run_induction ?_ ?_ (replay_eq_ok.mp h)
  · intro record s hs
    obtain ⟨goal, hcreates, rfl⟩ := applyRecord_none (Outcome.mapErr_eq_ok.mp hs)
    exact first record goal hcreates
  · intro records s record s' hrun hI hs'
    obtain ⟨t, hfollows, ht, rfl⟩ := applyRecord_some (Outcome.mapErr_eq_ok.mp hs')
    exact next records s record t (replay_eq_ok.mpr hrun) hI hfollows ht

/-- **Invariant rule for reachable states.** -/
theorem reachable_induction {I : RunState → Prop}
    (first : ∀ record goal, Creates D record goal →
      I ((RunState.created record.event goal).advance record))
    (next : ∀ state record next, Reachable D state → I state → Follows D state record →
      Transition D state record.event.body next → I (next.advance record))
    (h : Reachable D state) : I state := by
  obtain ⟨records, hrecords⟩ := h
  refine replay_induction (I := fun _ s => I s) first ?_ hrecords
  exact fun records s record t hs => next s record t ⟨records, hs⟩

/-- **Invariant rule for the steps of a reachable state**: fresh steps have the property, and a
step that an event replaces keeps it. -/
theorem reachable_steps_induction {P : String → StepState → Prop}
    (fresh : ∀ id step, StepState.IsFresh step id → P id step)
    (evolves : ∀ id step step', P id step → StepEvolves step step' → P id step')
    (h : Reachable D state) : ∀ (id : String) (step : StepState), state.steps[id]? = some step →
      P id step := by
  refine reachable_induction (I := fun s => ∀ (id : String) (step : StepState),
    s.steps[id]? = some step → P id step) ?_ ?_ h
  · intro record goal _ id step hstep
    simp [RunState.created, RunState.advance] at hstep
  · intro s record next _ hI _ ht id step hstep
    rw [RunState.advance_steps] at hstep
    cases ht.stepsChange with
    | same hsame => exact hI id step (hsame ▸ hstep)
    | replaced hold hnew hevolves =>
      rw [hnew, BTreeMap.get_insert] at hstep
      split at hstep
      · rename_i heq
        subst heq
        obtain rfl := Option.some.inj hstep
        exact evolves _ _ _ (hI _ _ hold) hevolves
      · exact hI id step hstep
    | added _ hnew =>
      rcases hnew hstep with hold | ⟨_, hfresh⟩
      · exact hI id step hold
      · exact fresh id step hfresh

/-- **Invariant rule for single steps, by what moved them**: fresh steps have the property, and the
commit of an intent and every lifecycle event keep it. -/
theorem reachable_moves_induction {P : String → StepState → Prop}
    (fresh : ∀ id step, StepState.IsFresh step id → P id step)
    (commits : ∀ id step intent, P id step → step.status = .planned →
      P id { step with intent := some intent, status := .intentCommitted })
    (moves : ∀ body id step step', P id step → StepMove body id step step' → P id step')
    (h : Reachable D state) (id : String) : ∀ step, state.steps[id]? = some step → P id step := by
  refine reachable_induction (I := fun s => ∀ step, s.steps[id]? = some step → P id step) ?_ ?_ h
  · intro record goal _ step hstep
    simp [RunState.created, RunState.advance] at hstep
  · intro s record next _ hI _ ht step hstep
    rw [RunState.advance_steps] at hstep
    have hlocal := ht.localMove id
    rw [hstep] at hlocal
    generalize s.steps[id]? = view at hlocal hI
    generalize record.event.body = body at hlocal
    cases hlocal with
    | idle hbody => exact hI step rfl
    | enters hbody hfresh => exact fresh id step hfresh
    | commits hstatus => exact commits id _ _ (hI _ rfl) hstatus
    | moves hmove => exact moves body id _ step (hI _ rfl) hmove

theorem reachable_step_shape (h : Reachable D state) (id : String) (step : StepState)
    (hstep : state.steps[id]? = some step) :
    step.stepId = id ∧ (step.intent.isSome = true ↔ step.status ≠ .planned) := by
  refine reachable_steps_induction (P := fun id step => step.stepId = id ∧
    (step.intent.isSome = true ↔ step.status ≠ .planned)) ?_ ?_ h id step hstep
  · intro id step hfresh
    rw [hfresh]
    simp [StepState.fresh]
  · rintro id step step' ⟨hid, hintent⟩ hevolves
    refine ⟨hevolves.stepId.trans hid, ?_⟩
    rcases hevolves.intent with ⟨hstatus, hsame⟩ | ⟨_, hsome⟩
    · rw [hsame, hintent]
      exact ⟨fun _ => hevolves.left, fun _ => hstatus⟩
    · simp [hsome, hevolves.left]

theorem replay_snoc (hne : records ≠ []) (h : replay D (records ++ [record]) = .ok state') :
    ∃ state, replay D records = .ok state ∧ applyRecord D (some state) record = .ok state' := by
  obtain ⟨current, s, hrun, hstep, hs⟩ := EventLog.run_snoc.mp (replay_eq_ok.mp h)
  obtain rfl := Option.some.inj hs
  cases current with
  | none => exact absurd (EventLog.run_eq_none hrun) hne
  | some state => exact ⟨state, replay_eq_ok.mpr hrun, Outcome.mapErr_eq_ok.mp hstep⟩

theorem replay_ne_nil (h : replay D records = .ok state) : records ≠ [] := by
  rintro rfl
  simp [replay_eq_ok] at h

theorem replay_prefix {more : List EventRecord} (hne : records ≠ [])
    (h : replay D (records ++ more) = .ok state') : ∃ state, replay D records = .ok state := by
  obtain ⟨current, hrun⟩ := EventLog.run_prefix (replay_eq_ok.mp h)
  cases current with
  | none => exact absurd (EventLog.run_eq_none hrun) hne
  | some state => exact ⟨state, replay_eq_ok.mpr hrun⟩

theorem replay_runId (h : replay D records = .ok state) {r : EventRecord} (hr : r ∈ records) :
    r.event.runId = state.runId := by
  refine replay_induction (I := fun records state => ∀ r ∈ records, r.event.runId = state.runId)
    ?_ ?_ h r hr
  · intro record goal _ r hr
    rw [List.mem_singleton.mp hr]
    rfl
  · intro records state record next _ hI hfollows htransition r hr
    rw [RunState.advance_runId, htransition.runId_eq]
    rcases List.mem_append.mp hr with hr | hr
    · exact hI r hr
    · rw [List.mem_singleton.mp hr, hfollows.runId]

/-! ## Positions -/

/-- The journal of a replayed state: its length, the place of each record, and its head. -/
structure JournalOf (records : List EventRecord) (state : RunState) : Prop where
  length : state.journalSequence.toNat = records.length
  position : ∀ i r, EventLog.At records i r → r.sequence.toNat = i + 1
  head : records.getLast?.map EventRecord.digest = some state.journalHeadDigest

theorem replay_journal (h : replay D records = .ok state) : JournalOf records state := by
  refine replay_induction ?_ ?_ h
  · intro record goal hcreates
    refine ⟨hcreates.sequence, fun i r hi => ?_, rfl⟩
    obtain ⟨rfl, rfl⟩ : i = 0 ∧ record = r := by
      simpa [EventLog.At, List.getElem?_singleton] using hi
    exact hcreates.sequence
  · intro records state record next _ hI hfollows _
    refine ⟨?_, fun i r hi => ?_, by simp [RunState.advance]⟩
    · rw [RunState.advance_journalSequence, hfollows.sequence, hI.length, List.length_append,
        List.length_singleton]
    · rcases EventLog.at_snoc.mp hi with hi | ⟨rfl, rfl⟩
      · exact hI.position i r hi
      · rw [hfollows.sequence, hI.length]

end Xgeny
