import Xgeny.Store.Coherent

set_option autoImplicit false

/-!
# A commit keeps the journal coherent

The pass over the journal refuses a record when it meets a duplicate. The candidate checks of a
commit do not look for most of these duplicates: the reducer excludes them, because a new step, a
new intent or a new candidate is new in the projection.

* `StateGrows`: what every accepted record keeps of the projection;
* `CommitStep.indexRecord`: the pass takes the new record to the new journal fields;
* **`CommitStep.journal`**: a commit keeps the journal coherent.
-/

namespace Xgeny

open VerifiedRunIndex

variable {D : Digests} {P : Protocol} {data data' : RunData} {index index' : VerifiedRunIndex}
  {commit : Commit}

/-! ## The projection along a commit -/

/-- What every accepted record keeps of the projection. -/
structure StateGrows (state state' : RunState) : Prop where
  runId : state'.runId = state.runId
  steps : ∀ id, id ∈ state.steps → id ∈ state'.steps
  intents : ∀ id intent, state.intentOf id = some intent → state'.intentOf id = some intent

theorem applyRecord_grows {state state' : RunState} {record : EventRecord}
    (hreachable : Reachable D state) (h : applyRecord D (some state) record = .ok state') :
    StateGrows state state' := by
  obtain ⟨next, _, ht, rfl⟩ := applyRecord_some h
  refine ⟨ht.runId_eq, fun id hid => ?_, fun id intent hintent => ?_⟩
  · rw [RunState.advance_steps]
    obtain ⟨step, hstep⟩ := BTreeMap.mem_iff_exists.mp hid
    cases ht.stepsChange with
    | same hsame => rwa [hsame]
    | replaced hold hnew _ =>
      rw [hnew, BTreeMap.mem_insert_iff]
      exact Or.inr hid
    | added hold _ => exact BTreeMap.mem_iff_exists.mpr ⟨step, hold hstep⟩
  · show next.intentOf id = some intent
    rcases ht.intents with ⟨_, _, hsame⟩ | ⟨other, new, consumption, _, hcommits, _, hnew⟩
    · rw [hsame, hintent]
    · rw [hnew, if_neg, hintent]
      rintro rfl
      rw [hcommits.intentOf_eq_none hreachable] at hintent
      simp at hintent

theorem Prepared.transition (h : Prepared D index commit.record.event commit)
    (hbody : ∀ goal, commit.record.event.body ≠ .runCreated goal) :
    ∃ state next, index.state = some state ∧ Follows D state commit.record ∧
      Transition D state commit.record.event.body next ∧
      commit.state = next.advance commit.record := by
  have happly := h.state
  cases hstate : index.state with
  | none =>
    rw [hstate] at happly
    obtain ⟨goal, hcreates, _⟩ := applyRecord_none happly
    exact absurd hcreates.body (hbody goal)
  | some state =>
    rw [hstate] at happly
    obtain ⟨next, hfollows, ht, hnext⟩ := applyRecord_some happly
    exact ⟨state, next, rfl, hfollows, ht, hnext⟩

theorem JournalCoherent.reachable (h : JournalCoherent D data index) {state : RunState}
    (hstate : index.state = some state) : Reachable D state := by
  refine ⟨data.records, replay_eq_ok.mpr ?_⟩
  rw [h.replayed, hstate]

theorem JournalCoherent.grows (h : JournalCoherent D data index)
    (hp : Prepared D index commit.record.event commit) {state : RunState}
    (hstate : index.state = some state) : StateGrows state commit.state := by
  have happly := hp.state
  rw [hstate] at happly
  exact applyRecord_grows (h.reachable hstate) happly

theorem CommitStep.common (h : CommitStep D P data index commit data' index') :
    data'.records = data.records ++ [commit.record] ∧ data'.projection = some commit.state ∧
      index'.state = some commit.state ∧ index'.lastRecord = some commit.record := by
  cases h <;> exact ⟨rfl, rfl, rfl, rfl⟩

/-! ## Plans -/

theorem map_stepId_zipIdx (steps : List AcceptedPlanStep) :
    steps.zipIdx.map (fun entry => entry.1.stepId) = steps.map AcceptedPlanStep.stepId := by
  conv_rhs => rw [← List.zipIdx_map_fst 0 steps]
  rw [List.map_map]
  rfl

theorem exists_zipIdx_iff {steps : List AcceptedPlanStep} {id : String} :
    (∃ e ∈ steps.zipIdx, e.1.stepId = id) ↔ ∃ step ∈ steps, step.stepId = id := by
  have hmap := map_stepId_zipIdx steps
  rw [← List.mem_map (f := fun entry : AcceptedPlanStep × ℕ => entry.1.stepId), hmap, List.mem_map]

theorem foldl_indexPlannedStep {sequence : UInt64} {entries : List (AcceptedPlanStep × ℕ)}
    {index : VerifiedRunIndex} (hnodup : (entries.map fun e => e.1.stepId).Nodup)
    (hpositions : ∀ e ∈ entries, e.1.stepId ∉ index.stepPositions)
    (hinvocations : ∀ e ∈ entries, e.1.stepId ∉ index.plannedInvocations) :
    Outcome.foldl (indexPlannedStep sequence) index entries = .ok
      { index with
        stepPositions := insertPositions sequence index.stepPositions entries
        plannedInvocations := insertInvocations sequence index.plannedInvocations entries } := by
  induction entries generalizing index with
  | nil => rfl
  | cons entry entries ih =>
    obtain ⟨hentry, hrest⟩ := List.nodup_cons.mp hnodup
    have hne : ∀ e ∈ entries, entry.1.stepId ≠ e.1.stepId :=
      fun e he heq => hentry (List.mem_map.mpr ⟨e, he, heq.symm⟩)
    simp only [Outcome.foldl, indexPlannedStep, Outcome.bind_eq_ok, BTreeMap.insertNew_eq_ok,
      Outcome.pure_eq_ok]
    refine ⟨_, ⟨_, ⟨hpositions entry List.mem_cons_self, rfl⟩, _,
      ⟨hinvocations entry List.mem_cons_self, rfl⟩, rfl⟩, ?_⟩
    rw [ih hrest]
    · rfl
    · intro e he
      rw [BTreeMap.mem_insert_iff, not_or]
      exact ⟨hne e he, hpositions e (List.mem_cons_of_mem _ he)⟩
    · intro e he
      rw [BTreeMap.mem_insert_iff, not_or]
      exact ⟨hne e he, hinvocations e (List.mem_cons_of_mem _ he)⟩

/-! ## The pass over the new record -/

theorem indexEvent_plain {record : EventRecord} (h : record.event.body.plain = true) :
    index.indexEvent record = .ok index := by
  unfold RunEventBody.plain at h
  unfold indexEvent
  split at h <;> simp_all

theorem verifyToolOutputCandidate_eq_ok {record : EventRecord} {output : ToolOutputRecord}
    {anchor : ToolOutputEventAnchor}
    (h : verifyToolOutputCandidate D index record output = .ok anchor) :
    index.toolOutputAnchorFor record = .ok anchor ∧
      anchor.effectId ∉ index.toolOutputEffectIds ∧ output.outputId ∉ index.toolOutputIds ∧
      output.recordDigest ∉ index.toolOutputRecordDigests ∧
      (∃ intent, index.intents[anchor.effectId]? = some intent ∧
        output.verifyFor D anchor.runId anchor.stepId intent.intent anchor.executionAttempt
          anchor.evidenceDigest = .ok ()) ∧
      output.recordDigest = anchor.recordDigest := by
  simp only [verifyToolOutputCandidate, Outcome.bind_eq_ok, Outcome.exists_unit,
    Outcome.failIf_eq_ok, Outcome.expect_eq_ok, Outcome.mapErr_eq_ok, Outcome.pure_eq_ok, not_or,
    ne_eq, Decidable.not_not] at h
  obtain ⟨_, hanchor, ⟨heffect, hid, hdigest⟩, intent, hintent, hverify, hrecord, rfl⟩ := h
  exact ⟨hanchor, heffect, hid, hdigest, ⟨intent, hintent, hverify⟩, hrecord⟩

theorem verifyReceiptCandidate_eq_ok {record : EventRecord} {receipt : ExecutionReceiptBody}
    {anchor : ReceiptEventAnchor} (h : verifyReceiptCandidate P index record receipt = .ok anchor) :
    index.receiptAnchorFor record = .ok anchor ∧ receipt.receiptId ∉ index.receiptIds ∧
      receipt.receiptDigest ∉ index.receiptDigests ∧ anchor.effectId ∉ index.receiptEffectIds ∧
      receiptFollows anchor index.receiptHeadDigest receipt = true ∧
      (∃ intent provenance, index.intents[anchor.effectId]? = some intent ∧
        intent.intent.receiptProvenance = some provenance ∧
        verifyReceiptIntentBinding receipt intent.intent provenance anchor.disposition = .ok ()) ∧
      verifyReceiptToolOutputBinding index anchor.effectId receipt = .ok () ∧
      verifyReceiptTimestamps P anchor receipt = .ok () := by
  simp only [verifyReceiptCandidate, Outcome.bind_eq_ok, Outcome.exists_unit, Outcome.failIf_eq_ok,
    Outcome.expect_eq_ok, Outcome.okOr_eq_ok, Outcome.pure_eq_ok, not_or, Decidable.not_not] at h
  obtain ⟨_, hanchor, ⟨hid, hdigest, heffect⟩, hfollows, intent, hintent, provenance, hprovenance,
    hbinding, houtput, htimes, rfl⟩ := h
  exact ⟨hanchor, hid, hdigest, heffect, hfollows, ⟨intent, provenance, hintent, hprovenance,
    hbinding⟩, houtput, htimes⟩

theorem verifyCompletionOutputCandidate_eq_ok {record : EventRecord}
    {output : CompletionOutputRecord} {anchor : CompletionOutputEventAnchor}
    (h : verifyCompletionOutputCandidate D index record output = .ok anchor) :
    index.completionOutputEvent = none ∧ completionOutputAnchorFor record = .ok anchor ∧
      (∃ decision, completionAnchorDecision anchor = .ok decision ∧
        output.verifyFor D anchor.runId decision anchor.candidateId anchor.summaryDigest = .ok ()) ∧
      output.recordDigest = anchor.recordDigest := by
  simp only [verifyCompletionOutputCandidate, Outcome.bind_eq_ok, Outcome.exists_unit,
    Outcome.failIf_eq_ok, Outcome.mapErr_eq_ok, Outcome.pure_eq_ok, ne_eq, Decidable.not_not] at h
  obtain ⟨hnone, _, hanchor, decision, hdecision, hverify, hrecord, rfl⟩ := h
  exact ⟨hnone, hanchor, ⟨decision, hdecision, hverify⟩, hrecord⟩

/-! ### What the reducer makes sure of -/

theorem JournalCoherent.step_fresh (h : JournalCoherent D data index)
    (hp : Prepared D index commit.record.event commit) {stepId objective : String}
    {dependsOn : List String}
    (hbody : commit.record.event.body = .stepPlanned stepId objective dependsOn) :
    stepId ∉ index.stepPositions := by
  obtain ⟨state, next, hstate, _, ht, _⟩ := hp.transition (by simp [hbody])
  rw [hbody] at ht
  intro hin
  obtain ⟨state', hstate', hold⟩ := h.positions _ hin
  rw [hstate] at hstate'
  obtain rfl := Option.some.inj hstate'
  cases ht with
  | stepPlanned hnew => exact hnew hold
  | moved _ hmove => cases hmove

theorem JournalCoherent.plan_fresh (h : JournalCoherent D data index)
    (hp : Prepared D index commit.record.event commit) {decision : ExpectedPlanningTurn}
    {steps : List AcceptedPlanStep}
    (hbody : commit.record.event.body = .planAccepted decision steps) :
    (steps.zipIdx.map fun e => e.1.stepId).Nodup ∧
      ∀ e ∈ steps.zipIdx, e.1.stepId ∉ index.stepPositions := by
  obtain ⟨state, next, hstate, _, ht, _⟩ := hp.transition (by simp [hbody])
  rw [hbody] at ht
  have hfresh : FreshPlan state.steps steps := by
    cases ht with
    | planAccepted _ _ _ _ _ _ _ hheaders => exact headers_fresh hheaders
    | moved _ hmove => cases hmove
  rw [map_stepId_zipIdx]
  refine ⟨hfresh.nodup, fun e he hin => ?_⟩
  obtain ⟨state', hstate', hold⟩ := h.positions _ hin
  rw [hstate] at hstate'
  obtain rfl := Option.some.inj hstate'
  obtain ⟨step, hmem, hid⟩ := exists_zipIdx_iff.mp ⟨e, he, rfl⟩
  exact hfresh.fresh step hmem (hid ▸ hold)

theorem JournalCoherent.intent_fresh (h : JournalCoherent D data index)
    (hp : Prepared D index commit.record.event commit) {stepId : String} {intent : EffectIntent}
    (hbody : commit.record.event.body = .effectIntentCommitted stepId intent) :
    intent.effectId ∉ index.intents := by
  obtain ⟨state, next, hstate, _, ht, _⟩ := hp.transition (by simp [hbody])
  rw [hbody] at ht
  intro hin
  obtain ⟨anchor, hanchor⟩ := BTreeMap.mem_iff_exists.mp hin
  obtain ⟨heffect, state', hstate', hold⟩ := h.intents _ _ hanchor
  rw [hstate] at hstate'
  obtain rfl := Option.some.inj hstate'
  rcases ht.intents with ⟨hother, _⟩ | ⟨_, _, _, heq, hcommits, _⟩
  · exact hother _ _ rfl
  · obtain ⟨rfl, rfl⟩ := RunEventBody.effectIntentCommitted.inj heq
    exact hcommits.fresh _ _ hold heffect

/-- **The pass takes the new record to the new journal fields.** -/
theorem CommitStep.indexRecord (hstep : CommitStep D P data index commit data' index')
    (hp : Prepared D index commit.record.event commit) (h : Coherent D P data index) :
    index.bare.indexRecord commit.record = .ok index'.bare := by
  have hj := h.journal
  suffices hevent : VerifiedRunIndex.indexEvent
      { index.bare with eventIds := index.eventIds.insert commit.record.event.eventId }
      commit.record = .ok { index'.bare with lastRecord := index.lastRecord } by
    simp only [VerifiedRunIndex.indexRecord, Outcome.bind_eq_ok, BTreeSet.insertNew_eq_ok,
      Outcome.pure_eq_ok]
    exact ⟨_, ⟨hp.fresh, rfl⟩, _, hevent, by cases hstep <;> rfl⟩
  cases hstep with
  | plain hbody => exact indexEvent_plain hbody
  | stepPlanned hbody =>
    simp only [indexEvent, hbody, Outcome.bind_eq_ok, BTreeMap.insertNew_eq_ok, Outcome.pure_eq_ok]
    exact ⟨_, ⟨hj.step_fresh hp hbody, rfl⟩, rfl⟩
  | planAccepted hbody hlength hbyStep hverified hnew =>
    obtain ⟨hnodup, hpositions⟩ := hj.plan_fresh hp hbody
    simp only [indexEvent, hbody]
    exact foldl_indexPlannedStep hnodup hpositions
      fun e he hin => hpositions e he (hj.invocations _ hin)
  | intentCommitted hbody hverified hnew =>
    simp only [indexEvent, hbody, Outcome.bind_eq_ok, BTreeMap.insertNew_eq_ok, Outcome.pure_eq_ok]
    exact ⟨_, ⟨hj.intent_fresh hp hbody, rfl⟩, rfl⟩
  | executionStarted hbody =>
    simp only [indexEvent, hbody]
    rfl
  | toolOutput hbody hcandidate =>
    obtain ⟨hanchor, hnew, _⟩ := verifyToolOutputCandidate_eq_ok hcandidate
    simp only [indexEvent, hbody, Outcome.bind_eq_ok, BTreeMap.insertNew_eq_ok, Outcome.pure_eq_ok]
    exact ⟨_, hanchor, _, ⟨fun hin => hnew ((h.output.events _).mp hin), rfl⟩, rfl⟩
  | completionOutput hbody hcandidate =>
    obtain ⟨hnone, hanchor, _⟩ := verifyCompletionOutputCandidate_eq_ok hcandidate
    simp only [indexEvent, hbody, Outcome.bind_eq_ok, Outcome.exists_unit, Outcome.failIf_eq_ok,
      Outcome.pure_eq_ok, ne_eq, Decidable.not_not]
    exact ⟨hnone, _, hanchor, rfl⟩
  | receipt hbody hvalid hcandidate =>
    obtain ⟨hanchor, _, _, hnew, _⟩ := verifyReceiptCandidate_eq_ok hcandidate
    simp only [indexEvent, hbody, indexReceiptEvent, Outcome.bind_eq_ok, BTreeMap.insertNew_eq_ok,
      Outcome.pure_eq_ok]
    exact ⟨_, hanchor, _, ⟨fun hin => hnew ((h.receipt.events _).mp hin), rfl⟩, rfl⟩

/-! ## The journal after a commit -/

theorem CommitStep.positions (hstep : CommitStep D P data index commit data' index')
    (hp : Prepared D index commit.record.event commit) (h : JournalCoherent D data index) :
    ∀ id, id ∈ index'.stepPositions → id ∈ commit.state.steps := by
  have hold : ∀ id, id ∈ index.stepPositions → id ∈ commit.state.steps := by
    intro id hid
    obtain ⟨state, hstate, hmem⟩ := h.positions id hid
    exact (h.grows hp hstate).steps id hmem
  cases hstep with
  | stepPlanned hbody =>
    obtain ⟨state, next, hstate, _, ht, hnext⟩ := hp.transition (by simp [hbody])
    rw [hbody] at ht
    intro id hid
    rcases BTreeMap.mem_insert_iff.mp hid with rfl | hid
    · rw [hnext, RunState.advance_steps]
      cases ht with
      | stepPlanned hnew => exact BTreeMap.mem_insert_iff.mpr (Or.inl rfl)
      | moved _ hmove => cases hmove
    · exact hold id hid
  | planAccepted hbody =>
    obtain ⟨state, next, hstate, _, ht, hnext⟩ := hp.transition (by simp [hbody])
    rw [hbody] at ht
    intro id hid
    rcases BTreeMap.mem_insertAll.mp hid with hid | hid
    · exact hold id hid
    · obtain ⟨step, hmem, rfl⟩ := exists_zipIdx_iff.mp hid
      rw [hnext, RunState.advance_steps]
      cases ht with
      | planAccepted _ _ _ _ _ _ _ hheaders =>
        exact BTreeMap.mem_iff_exists.mpr ⟨_, addAccepted_get_of_mem (headers_fresh hheaders) hmem⟩
      | moved _ hmove => cases hmove
  | plain | intentCommitted | executionStarted | toolOutput | completionOutput | receipt => exact hold

theorem CommitStep.invocations (hstep : CommitStep D P data index commit data' index')
    (h : JournalCoherent D data index) :
    ∀ id, id ∈ index'.plannedInvocations → id ∈ index'.stepPositions := by
  intro id hid
  cases hstep with
  | stepPlanned => exact BTreeMap.mem_insert_iff.mpr (Or.inr (h.invocations id hid))
  | planAccepted =>
    rcases BTreeMap.mem_insertAll.mp hid with hid | hid
    · exact BTreeMap.mem_insertAll.mpr (Or.inl (h.invocations id hid))
    · exact BTreeMap.mem_insertAll.mpr (Or.inr hid)
  | plain | intentCommitted | executionStarted | toolOutput | completionOutput | receipt =>
    exact h.invocations id hid

theorem CommitStep.intents (hstep : CommitStep D P data index commit data' index')
    (hp : Prepared D index commit.record.event commit) (h : JournalCoherent D data index)
    (effectId : String) (anchor : EffectIntentAnchor)
    (hanchor : index'.intents[effectId]? = some anchor) : anchor.intent.effectId = effectId ∧
      commit.state.intentOf anchor.stepId = some anchor.intent := by
  have hold : index.intents[effectId]? = some anchor → anchor.intent.effectId = effectId ∧
      commit.state.intentOf anchor.stepId = some anchor.intent := by
    intro hanchor
    obtain ⟨heffect, state, hstate, hintent⟩ := h.intents effectId anchor hanchor
    exact ⟨heffect, (h.grows hp hstate).intents _ _ hintent⟩
  cases hstep with
  | intentCommitted hbody hverified hnew =>
    rename_i stepId intent material
    rw [BTreeMap.get_insert] at hanchor
    split at hanchor
    · rename_i heffect
      obtain rfl := Option.some.inj hanchor
      obtain ⟨state, next, hstate, _, ht, hnext⟩ := hp.transition (by simp [hbody])
      rw [hbody] at ht
      refine ⟨heffect, ?_⟩
      rw [hnext]
      show next.intentOf stepId = some intent
      rcases ht.intents with ⟨hother, _⟩ | ⟨_, _, _, heq, _, _, hintents⟩
      · exact absurd rfl (hother _ _)
      · obtain ⟨rfl, rfl⟩ := RunEventBody.effectIntentCommitted.inj heq
        rw [hintents, if_pos rfl]
    · exact hold hanchor
  | plain | stepPlanned | planAccepted | executionStarted | toolOutput | completionOutput
  | receipt => exact hold hanchor

/-- **A commit keeps the journal coherent.** -/
theorem CommitStep.journal (hstep : CommitStep D P data index commit data' index')
    (hp : Prepared D index commit.record.event commit) (h : Coherent D P data index) :
    JournalCoherent D data' index' := by
  have hj := h.journal
  obtain ⟨hrecords, hprojection, hstate, hlast⟩ := hstep.common
  constructor
  · rw [hrecords, hstate, EventLog.run_snoc]
    exact ⟨_, _, hj.replayed, Outcome.mapErr_eq_ok.mpr hp.state, rfl⟩
  · rw [hprojection, hstate]
  · rw [hlast, hrecords, List.getLast?_concat]
  · rw [hrecords, Outcome.foldl_append, hj.indexed]
    show Outcome.foldl VerifiedRunIndex.indexRecord index.bare [commit.record] = .ok index'.bare
    simp only [Outcome.foldl, hstep.indexRecord hp h]
    rfl
  · exact fun id hid => ⟨_, hstate, hstep.positions hp hj id hid⟩
  · exact hstep.invocations hj
  · intro effectId anchor hanchor
    obtain ⟨heffect, hintent⟩ := hstep.intents hp hj effectId anchor hanchor
    exact ⟨heffect, _, hstate, hintent⟩

end Xgeny
