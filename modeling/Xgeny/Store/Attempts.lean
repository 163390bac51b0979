import Xgeny.Store.Chronology

set_option autoImplicit false

/-!
# The attempts of a step

The executions of an effect are counted twice: by the step that committed it, and by the start that
the index keeps of it. The output of a step is bound to the attempt that the index counts, and it is
checked against the attempts of the step; the two never differ.

* `VerifiedRunIndex.startsOf`: the executions that the index counts;
* `StepCounted`: what the index says of the attempts and of the evidence of a step;
* `CommitStep.counted`: a commit keeps it;
* **`ReachedStore.counted`**: it holds of every store that appends have filled.
-/

namespace Xgeny

open VerifiedRunIndex

/-- The executions of an effect that the index counts. -/
def VerifiedRunIndex.startsOf (index : VerifiedRunIndex) (intent : EffectIntent) : ℕ :=
  index.effectStarts[intent.effectId]?.elim 0 fun anchor => anchor.executionAttempt.toNat

/-- What the index says of the executions of a step. -/
structure StepCounted (index : VerifiedRunIndex) (runId id : String) (step : StepState) : Prop where
  fresh : step.status = .planned → step.intent = none
  attempts : step.attempts.toNat = step.intent.elim 0 index.startsOf
  evidence : step.outputRecordDigest ≠ none → ∃ intent anchor, step.intent = some intent ∧
    index.toolOutputEvents[intent.effectId]? = some anchor ∧ anchor.runId = runId ∧
    anchor.stepId = id ∧ anchor.executionAttempt = step.attempts ∧
    step.effectEvidenceDigest = some anchor.evidenceDigest

/-- What the index says of the executions of every step. -/
def Counted (index : VerifiedRunIndex) : Prop :=
  ∀ (state : RunState) (id : String) (step : StepState), index.state = some state →
    state.steps[id]? = some step → StepCounted index state.runId id step

variable {D : Digests} {P : Protocol} {data data' : RunData} {index index' : VerifiedRunIndex}
  {commit : Commit}

/-! ## What a move changes -/

theorem StepMove.attempts_cases {body : RunEventBody} {id : String} {step step' : StepState}
    (hmove : StepMove body id step step') :
    ((∀ effectId, body ≠ .effectExecutionStarted id effectId) ∧ step'.attempts = step.attempts) ∨
      ∃ effectId, body = .effectExecutionStarted id effectId ∧ step.Commits effectId ∧
        step'.attempts.toNat = step.attempts.toNat + 1 := by
  cases hmove with
  | executionStarted heffect hstatus hattempts => exact Or.inr ⟨_, rfl, heffect, hattempts⟩
  | materialUnavailable | succeeded | failed | becameUnknown | reconciliationStarted
  | reconciliationResolved | manualRequired | verificationPassed | verificationFailed
  | verificationRecorded => exact Or.inl ⟨by simp, rfl⟩

theorem StepMove.evidence_cases {body : RunEventBody} {id : String} {step step' : StepState}
    (hmove : StepMove body id step step')
    (hconcluded : step.outputRecordDigest ≠ none → step.status.Concluded) :
    (step'.outputRecordDigest ≠ none → step.outputRecordDigest ≠ none ∧
      step'.attempts = step.attempts ∧ step'.effectEvidenceDigest = step.effectEvidenceDigest) ∨
    ∃ effectId evidence digest, body = .effectSucceeded id effectId evidence (some digest) ∧
      step.Commits effectId ∧ step'.effectEvidenceDigest = some evidence := by
  have hnone : ¬ step.status.Concluded → step.outputRecordDigest = none := by
    intro hopen
    by_contra hsome
    exact hopen (hconcluded hsome)
  cases hmove with
  | @succeeded _ effectId evidence output _ heffect hstatus houtput =>
    cases output with
    | none => exact Or.inl fun hsome => absurd rfl hsome
    | some digest => exact Or.inr ⟨effectId, evidence, digest, rfl, heffect, rfl⟩
  | failed => exact Or.inl fun hsome => absurd rfl hsome
  | executionStarted heffect hstatus =>
    refine Or.inl fun hsome => absurd (hnone ?_) hsome
    simp [StepStatus.Concluded, StepStatus.Terminal, hstatus]
  | materialUnavailable | becameUnknown | reconciliationStarted | reconciliationResolved
  | manualRequired | verificationPassed | verificationFailed | verificationRecorded =>
    exact Or.inl fun hsome => ⟨hsome, rfl, rfl⟩

/-! ## What a commit changes -/

theorem CommitStep.start_owner (hp : Prepared D index commit.record.event commit)
    (ha : Anchored D data index) {stepId effectId : String}
    (hbody : commit.record.event.body = .effectExecutionStarted stepId effectId) :
    ∃ anchor, index.intents[effectId]? = some anchor ∧ anchor.stepId = stepId := by
  obtain ⟨state, next, hstate, _, ht, _⟩ := hp.transition (by simp [hbody])
  rw [hbody] at ht
  obtain ⟨intent, hintent, rfl⟩ := ht.start_commits
  obtain ⟨anchor, hanchor, hid, _⟩ := ha.committed state stepId intent hstate hintent
  exact ⟨anchor, hanchor, hid⟩

theorem CommitStep.startsOf_frame (hstep : CommitStep D P data index commit data' index')
    (hp : Prepared D index commit.record.event commit) (ha : Anchored D data index) {id : String}
    {intent : EffectIntent} {anchor : EffectIntentAnchor}
    (hanchor : index.intents[intent.effectId]? = some anchor) (hid : anchor.stepId = id)
    (hother : ∀ effectId, commit.record.event.body ≠ .effectExecutionStarted id effectId) :
    index'.startsOf intent = index.startsOf intent := by
  unfold startsOf
  rcases hstep.starts_cases with ⟨_, hsame⟩ | ⟨stepId, effectId, hbody, hnew⟩
  · rw [hsame]
  · have hne : effectId ≠ intent.effectId := by
      rintro rfl
      obtain ⟨found, hfound, howner⟩ := CommitStep.start_owner hp ha hbody
      obtain rfl := Option.some.inj (hfound.symm.trans hanchor)
      exact hother intent.effectId (by rw [hbody, ← hid, howner])
    rw [hnew, BTreeMap.get_insert_ne _ _ hne]

theorem CommitStep.startsOf_started (hstep : CommitStep D P data index commit data' index')
    {id : String} {intent : EffectIntent}
    (hbody : commit.record.event.body = .effectExecutionStarted id intent.effectId)
    (hfits : index.startsOf intent + 1 < 2 ^ 32) :
    index'.startsOf intent = index.startsOf intent + 1 := by
  rcases hstep.starts_cases with ⟨hnone, _⟩ | ⟨stepId, effectId, hstarted, hnew⟩
  · have hstart := hnone intent.effectId
    simp [EventRecord.startOf, hbody] at hstart
  · obtain ⟨rfl, rfl⟩ := RunEventBody.effectExecutionStarted.inj (hbody.symm.trans hstarted)
    unfold startsOf at hfits ⊢
    rw [hnew, Std.ExtTreeMap.getElem?_insert_self]
    cases hold : index.effectStarts[intent.effectId]? with
    | none => simp [effectStartFor, hold]
    | some start =>
      rw [hold, Option.elim_some] at hfits
      simp only [effectStartFor, hold, Option.map_some, Option.getD_some, Option.elim_some]
      rw [UInt32.saturatingAdd, if_pos (by simpa using hfits), UInt32.toNat_add]
      exact Nat.mod_eq_of_lt (by simpa using hfits)

theorem Chronicled.startsOf_fresh (hc : Chronicled data index) {intent : EffectIntent}
    (hfresh : intent.effectId ∉ index.intents) : index.effectStarts[intent.effectId]? = none := by
  cases hstart : index.effectStarts[intent.effectId]? with
  | none => rfl
  | some start =>
    have hfound := hc.starts intent.effectId
    rw [hstart, Option.map_some] at hfound
    obtain ⟨record, hrecord, hsome⟩ := List.exists_of_findSome?_eq_some hfound.symm
    obtain ⟨anchor, hanchor, _⟩ := hc.started record (List.mem_reverse.mp hrecord) _ _ _ hsome
    exact absurd (BTreeMap.mem_iff_exists.mpr ⟨anchor, hanchor⟩) hfresh

theorem CommitStep.events_cases (hstep : CommitStep D P data index commit data' index') :
    ((∀ stepId effectId evidence digest, commit.record.event.body ≠
        .effectSucceeded stepId effectId evidence (some digest)) ∧
      index'.toolOutputEvents = index.toolOutputEvents) ∨
    ∃ anchor, index.toolOutputAnchorFor commit.record = .ok anchor ∧
      anchor.effectId ∉ index.toolOutputEffectIds ∧
      index'.toolOutputEvents = index.toolOutputEvents.insert anchor.effectId anchor := by
  cases hstep with
  | toolOutput hbody hcandidate =>
    obtain ⟨hanchor, hnew, _⟩ := verifyToolOutputCandidate_eq_ok hcandidate
    exact Or.inr ⟨_, hanchor, hnew, rfl⟩
  | plain hbody =>
    refine Or.inl ⟨fun stepId effectId evidence digest heq => ?_, rfl⟩
    simp [heq, RunEventBody.plain] at hbody
  | stepPlanned hbody | planAccepted hbody | intentCommitted hbody | executionStarted hbody
  | completionOutput hbody =>
    exact Or.inl ⟨fun stepId effectId evidence digest heq => by simp [hbody] at heq, rfl⟩
  | receipt hbody =>
    exact Or.inl ⟨fun stepId effectId evidence digest heq => by simp [hbody] at heq, rfl⟩

theorem CommitStep.keeps_event (hstep : CommitStep D P data index commit data' index')
    (ho : OutputCoherent D data index) {effectId : String} {anchor : ToolOutputEventAnchor}
    (h : index.toolOutputEvents[effectId]? = some anchor) :
    index'.toolOutputEvents[effectId]? = some anchor := by
  rcases hstep.events_cases with ⟨_, hsame⟩ | ⟨new, _, hfresh, hnew⟩
  · rw [hsame, h]
  · have hne : new.effectId ≠ effectId := by
      rintro rfl
      exact hfresh ((ho.events _).mp (BTreeMap.mem_iff_exists.mpr ⟨anchor, h⟩))
    rw [hnew, BTreeMap.get_insert_ne _ _ hne, h]

theorem CommitStep.new_event (hstep : CommitStep D P data index commit data' index') {id : String}
    {intent : EffectIntent} {evidence digest : String}
    (hbody : commit.record.event.body =
      .effectSucceeded id intent.effectId evidence (some digest)) :
    ∃ anchor, index'.toolOutputEvents[intent.effectId]? = some anchor ∧
      anchor.runId = commit.record.event.runId ∧ anchor.stepId = id ∧
      anchor.executionAttempt.toNat = index.startsOf intent ∧ anchor.evidenceDigest = evidence := by
  rcases hstep.events_cases with ⟨hother, _⟩ | ⟨anchor, hanchor, _, hnew⟩
  · exact absurd hbody (hother _ _ _ _)
  · simp only [toolOutputAnchorFor, hbody, Outcome.bind_eq_ok, Outcome.exists_unit,
      Outcome.okOr_eq_ok, Outcome.pure_eq_ok] at hanchor
    obtain ⟨_, _, _, _, start, hstart, _, rfl⟩ := hanchor
    refine ⟨_, by rw [hnew, Std.ExtTreeMap.getElem?_insert_self], rfl, rfl, ?_, rfl⟩
    rw [startsOf, hstart, Option.elim_some]

/-! ## The steps along a commit -/

theorem StepCounted.fresh_step {runId id : String} {step : StepState} (h : step.IsFresh id) :
    StepCounted index runId id step := by
  rw [h]
  constructor <;> simp [StepState.fresh]

theorem StepCounted.idle (hstep : CommitStep D P data index commit data' index')
    (hp : Prepared D index commit.record.event commit) (hcoherent : Coherent D P data index)
    (ha : Anchored D data index) {state : RunState} (hstate : index.state = some state)
    {id : String} {step : StepState} (hget : state.steps[id]? = some step)
    (hother : commit.record.event.body.subject ≠ some id)
    (h : StepCounted index state.runId id step) : StepCounted index' state.runId id step where
  fresh := h.fresh
  attempts := by
    rw [h.attempts]
    cases hintent : step.intent with
    | none => rfl
    | some intent =>
      obtain ⟨anchor, hanchor, hid, _⟩ := ha.committed state id intent hstate
        (RunState.intentOf_eq_some.mpr ⟨step, hget, hintent⟩)
      refine (hstep.startsOf_frame hp ha hanchor hid fun effectId hbody => hother ?_).symm
      rw [hbody]
      rfl
  evidence := by
    intro hsome
    obtain ⟨intent, anchor, hintent, hanchor, hrest⟩ := h.evidence hsome
    exact ⟨intent, anchor, hintent, hstep.keeps_event hcoherent.output hanchor, hrest⟩

theorem StepCounted.commits (hstep : CommitStep D P data index commit data' index')
    (hp : Prepared D index commit.record.event commit) (hcoherent : Coherent D P data index)
    (hc : Chronicled data index) {state : RunState} (hstate : index.state = some state)
    {id : String} {intent : EffectIntent} {step : StepState} (hget : state.steps[id]? = some step)
    (hbody : commit.record.event.body = .effectIntentCommitted id intent)
    (hstatus : step.status = .planned) (h : StepCounted index state.runId id step) :
    StepCounted index' state.runId id
      { step with intent := some intent, status := .intentCommitted } where
  fresh := by simp
  attempts := by
    have hzero : step.attempts.toNat = 0 := by
      rw [h.attempts, h.fresh hstatus]
      rfl
    show step.attempts.toNat = index'.startsOf intent
    rcases hstep.starts_cases with ⟨_, hsame⟩ | ⟨_, _, hstarted, _⟩
    · have hnone := hc.startsOf_fresh (hcoherent.journal.intent_fresh hp hbody)
      rw [hzero, startsOf, hsame, hnone]
      rfl
    · simp [hbody] at hstarted
  evidence := by
    intro hsome
    have hconcluded := (hc.projected state id step hstate hget).observed hsome
    simp [StepStatus.Concluded, StepStatus.Terminal, hstatus] at hconcluded

theorem StepCounted.moves (hstep : CommitStep D P data index commit data' index')
    (hp : Prepared D index commit.record.event commit) (hcoherent : Coherent D P data index)
    (ha : Anchored D data index) (hc : Chronicled data index) {state : RunState}
    (hstate : index.state = some state) (hrun : commit.record.event.runId = state.runId)
    {id : String} {step step' : StepState} (hget : state.steps[id]? = some step)
    (hmove : StepMove commit.record.event.body id step step')
    (h : StepCounted index state.runId id step) : StepCounted index' state.runId id step' where
  fresh := fun hplanned => absurd hplanned hmove.evolves.left
  attempts := by
    rw [hmove.intent_eq.1]
    cases hintent : step.intent with
    | none =>
      rcases hmove.attempts_cases with ⟨_, hsame⟩ | ⟨_, _, hcommits, _⟩
      · rw [hsame, h.attempts, hintent]
        rfl
      · simp [StepState.Commits, hintent] at hcommits
    | some intent =>
      have hold : step.attempts.toNat = index.startsOf intent := by
        rw [h.attempts, hintent]
        rfl
      obtain ⟨anchor, hanchor, hid, _⟩ := ha.committed state id intent hstate
        (RunState.intentOf_eq_some.mpr ⟨step, hget, hintent⟩)
      rcases hmove.attempts_cases with ⟨hother, hsame⟩ | ⟨effectId, hbody, hcommits, hnext⟩
      · rw [hsame, hold, Option.elim_some, hstep.startsOf_frame hp ha hanchor hid hother]
      · obtain rfl : intent.effectId = effectId := by
          simpa [StepState.Commits, hintent] using hcommits
        have hfits : index.startsOf intent + 1 < 2 ^ 32 := by
          rw [← hold, ← hnext]
          exact step'.attempts.toNat_lt
        rw [hnext, hold, Option.elim_some, hstep.startsOf_started hbody hfits]
  evidence := by
    intro hsome
    rcases hmove.evidence_cases (hc.projected state id step hstate hget).observed with hkept |
      ⟨effectId, evidence, digest, hbody, hcommits, hevidence⟩
    · obtain ⟨hold, hattempts, hevidence⟩ := hkept hsome
      obtain ⟨intent, anchor, hintent, hanchor, howner, hid, hattempt, hdigest⟩ := h.evidence hold
      exact ⟨intent, anchor, hmove.intent_eq.1.trans hintent,
        hstep.keeps_event hcoherent.output hanchor, howner, hid, hattempt.trans hattempts.symm,
        hevidence.trans hdigest⟩
    · obtain ⟨intent, hintent, rfl⟩ := Option.map_eq_some_iff.mp hcommits
      obtain ⟨anchor, hanchor, howner, hid, hattempt, rfl⟩ := hstep.new_event hbody
      refine ⟨intent, anchor, hmove.intent_eq.1.trans hintent, hanchor, howner.trans hrun, hid, ?_,
        hevidence⟩
      rcases hmove.attempts_cases with ⟨_, hsame⟩ | ⟨_, hstarted, _⟩
      · rw [hsame, ← UInt32.toNat_inj, hattempt, h.attempts, hintent]
        rfl
      · simp [hbody] at hstarted

/-- **A commit keeps the counts.** -/
theorem CommitStep.counted (hstep : CommitStep D P data index commit data' index')
    (hp : Prepared D index commit.record.event commit) (hcoherent : Coherent D P data index)
    (ha : Anchored D data index) (hc : Chronicled data index) (h : Counted index) :
    Counted index' := by
  intro state' id step' hstate' hget
  obtain rfl := Option.some.inj (hstep.common.2.2.1.symm.trans hstate')
  have happly := hp.state
  cases hstate : index.state with
  | none =>
    rw [hstate] at happly
    obtain ⟨goal, _, hcreated⟩ := applyRecord_none happly
    rw [hcreated] at hget
    simp [RunState.created, RunState.advance] at hget
  | some state =>
    rw [hstate] at happly
    obtain ⟨next, hfollows, ht, hnext⟩ := applyRecord_some happly
    have hrun : commit.state.runId = state.runId := by
      rw [hnext, RunState.advance_runId, ht.runId_eq]
    rw [hrun]
    rw [hnext, RunState.advance_steps] at hget
    have hlocal := ht.localMove id
    rw [hget] at hlocal
    generalize hview : state.steps[id]? = view at hlocal
    generalize hevent : commit.record.event.body = body at hlocal
    cases hlocal with
    | idle hbody =>
      exact (h state id step' hstate hview).idle hstep hp hcoherent ha hstate hview (hevent ▸ hbody)
    | enters hbody hfresh => exact StepCounted.fresh_step hfresh
    | commits hstatus =>
      exact (h state id _ hstate hview).commits hstep hp hcoherent hc hstate hview hevent hstatus
    | moves hmove =>
      exact (h state id _ hstate hview).moves hstep hp hcoherent ha hc hstate hfollows.runId hview
        (hevent ▸ hmove)

/-- **The attempts are counted** in every store that appends have filled: the index counts as many
starts of an effect as its step, and the event of an output names its attempt and its evidence. -/
theorem ReachedStore.counted {store : MemoryRunStore} (h : ReachedStore D P store) :
    Counted store.index := by
  induction h with
  | new =>
    intro state id step hstate
    exact absurd hstate (Option.some_ne_none state).symm
  | @call store store' call result hreached hrun hreturned ih =>
    rcases result with (e | message) | commit
    · rw [perform_atomic call store e store' hrun]
      exact ih
    · exact absurd rfl (hreturned message)
    · have hcoherent := hreached.coherent
      obtain ⟨ha, hc⟩ := hreached.chronicled
      obtain ⟨anchors, hcommitted⟩ :=
        MemoryRunStore.call_eq_ok hcoherent (perform_eq_ok_iff.mp hrun)
      have hp := hcommitted.accepted.prepared
      obtain ⟨index', hindex', hstep⟩ := hcommitted.accepted.step store.toRunData
      obtain rfl : store'.index = index' := Except.ok.inj (hcommitted.index.symm.trans hindex')
      exact hstep.counted hp hcoherent ha hc ih

end Xgeny
