import Xgeny.Store.Anchors
import Xgeny.Store.Atomicity

set_option autoImplicit false

/-!
# The index and the order of the journal

The maps of the index that say when something happened: where each step was planned, when each effect
was started last, and which verification finished which step. Each is kept up to date one commit at a
time, and each is a function of the journal.

* `EventRecord.planned`, `EventRecord.startOf`, `EventRecord.verdict`: what one record says;
* `StepProjected`: what the index and the sidecars say of a step of the projection;
* `Chronicled`: the agreement of the maps with the journal and with the projection;
* **`ReachedStore.chronicled`**: it holds of every store that appends have filled.
-/

namespace Xgeny

open VerifiedRunIndex

/-! ## What one record says -/

/-- The start of an effect by this record: the step, and the time. -/
def EventRecord.startOf (effectId : String) (record : EventRecord) : Option (String × String) :=
  match record.event.body with
  | .effectExecutionStarted stepId started =>
    if started = effectId then some (stepId, record.event.recordedAt) else none
  | _ => none

/-- The steps that an event plans, in order. -/
def RunEventBody.plannedIds : RunEventBody → List String
  | .stepPlanned stepId _ _ => [stepId]
  | .planAccepted _ steps => steps.map AcceptedPlanStep.stepId
  | _ => []

/-- The steps that a record plans, with their positions in the journal. -/
def EventRecord.planned (record : EventRecord) : List (StepJournalPosition × String) :=
  record.event.body.plannedIds.zipIdx.map fun entry => (⟨record.sequence, entry.2⟩, entry.1)

/-- A position comes before another: in an earlier event, or earlier in the same plan. -/
def StepJournalPosition.before (a b : StepJournalPosition) : Prop :=
  a.eventSequence < b.eventSequence ∨
    a.eventSequence = b.eventSequence ∧ a.eventStepIndex < b.eventStepIndex

/-- The event that a receipt anchor stands for. -/
def ReceiptEventAnchor.body (anchor : ReceiptEventAnchor) : RunEventBody :=
  .verificationRecorded anchor.stepId anchor.effectId anchor.disposition anchor.receiptId
    anchor.receiptDigest

/-- The verification that a record finishes a step with, if it is one. -/
def EventRecord.verdict (record : EventRecord) : Option (UInt64 × RunEventBody) :=
  match record.event.body with
  | .verificationRecorded .. => some (record.sequence, record.event.body)
  | _ => none

/-! ## The agreement -/

/-- The effect of the step has been observed, or will not be any more. -/
def StepStatus.Concluded (status : StepStatus) : Prop := status = .validating ∨ status.Terminal

/-- What the index and the sidecars say of a step of the projection. -/
structure StepProjected (data : RunData) (index : VerifiedRunIndex) (id : String)
    (step : StepState) : Prop where
  output : step.outputRecordDigest = (step.intent.bind fun intent =>
    data.outputs[intent.effectId]?).map fun stored => stored.record.recordDigest
  observed : step.outputRecordDigest ≠ none → step.status.Concluded
  completed : step.status = .completed → ∃ anchor ∈ index.receiptEvents, anchor.stepId = id ∧
    step.Commits anchor.effectId ∧ anchor.disposition = .passed ∧
    step.executionReceiptId = some anchor.receiptId ∧
    step.executionReceiptDigest = some anchor.receiptDigest

/-- The index agrees with the order of the journal and with the projection. -/
structure Chronicled (data : RunData) (index : VerifiedRunIndex) : Prop where
  sequences : ∀ r ∈ data.records, index.Used r.sequence
  starts : ∀ effectId : String,
    index.effectStarts[effectId]?.map (fun anchor => (anchor.stepId, anchor.recordedAt)) =
      data.records.reverse.findSome? (EventRecord.startOf effectId)
  started : ∀ r ∈ data.records, ∀ effectId stepId time, r.startOf effectId = some (stepId, time) →
    ∃ anchor, index.intents[effectId]? = some anchor ∧ anchor.stepId = stepId
  positions : ∀ (id : String) (position : StepJournalPosition),
    index.stepPositions[id]? = some position ↔
      (position, id) ∈ data.records.flatMap EventRecord.planned
  chronological : (data.records.flatMap EventRecord.planned).Pairwise fun a b => a.1.before b.1
  positioned : ∀ state id, index.state = some state → id ∈ state.steps → id ∈ index.stepPositions
  verdicts : index.receiptEvents.map (fun anchor => (anchor.eventSequence, anchor.body)) =
    data.records.filterMap EventRecord.verdict
  receiptOrder : index.receiptEvents.Pairwise fun a b => a.eventSequence < b.eventSequence
  receiptAt : ∀ (i : ℕ) (anchor : ReceiptEventAnchor), index.receiptEvents[i]? = some anchor →
    index.receiptEventPositions[anchor.effectId]? = some i
  ended : ∀ anchor ∈ index.receiptEvents, ∃ (state : RunState) (step : StepState),
    index.state = some state ∧ state.steps[anchor.stepId]? = some step ∧
      step.Commits anchor.effectId ∧ step.status = anchor.disposition.nextStatus
  outputs : ∀ (effectId : String) (stored : StoredToolOutput),
    data.outputs[effectId]? = some stored → ∃ anchor, index.intents[effectId]? = some anchor ∧
      anchor.stepId = stored.record.stepId
  sizes : ∀ effectId : String, index.toolOutputSizes[effectId]? =
    data.outputs[effectId]?.map fun stored => stored.record.canonicalSizeBytes
  projected : ∀ (state : RunState) (id : String) (step : StepState), index.state = some state →
    state.steps[id]? = some step → StepProjected data index id step

theorem Chronicled.empty : Chronicled .empty .default := by
  constructor <;> simp [RunData.empty, VerifiedRunIndex.default]

variable {D : Digests} {P : Protocol} {data data' : RunData} {index index' : VerifiedRunIndex}
  {commit : Commit}

/-! ## What a commit changes -/

theorem CommitStep.starts_cases (hstep : CommitStep D P data index commit data' index') :
    ((∀ effectId, commit.record.startOf effectId = none) ∧
      index'.effectStarts = index.effectStarts) ∨
    ∃ stepId effectId, commit.record.event.body = .effectExecutionStarted stepId effectId ∧
      index'.effectStarts = index.effectStarts.insert effectId
        (index.effectStartFor commit.record stepId effectId) := by
  cases hstep with
  | executionStarted hbody => exact Or.inr ⟨_, _, hbody, rfl⟩
  | plain hbody =>
    refine Or.inl ⟨fun effectId => ?_, rfl⟩
    unfold EventRecord.startOf
    split
    · rename_i heq
      simp [heq, RunEventBody.plain] at hbody
    · rfl
  | stepPlanned hbody | planAccepted hbody | intentCommitted hbody | toolOutput hbody
  | completionOutput hbody | receipt hbody =>
    refine Or.inl ⟨fun effectId => ?_, rfl⟩
    simp [EventRecord.startOf, hbody]

theorem CommitStep.positions_eq (hstep : CommitStep D P data index commit data' index') :
    index'.stepPositions =
      BTreeMap.insertAll Prod.snd Prod.fst index.stepPositions commit.record.planned := by
  cases hstep with
  | planAccepted hbody =>
    rename_i decision steps inputs byStep _ _ _ _
    simp only [EventRecord.planned, hbody, RunEventBody.plannedIds, List.zipIdx_map, List.map_map,
      BTreeMap.insertAll, List.foldl_map]
    rfl
  | stepPlanned hbody =>
    simp only [EventRecord.planned, hbody, RunEventBody.plannedIds]
    rfl
  | plain hbody =>
    have hnone : commit.record.event.body.plannedIds = [] := by
      unfold RunEventBody.plannedIds
      split
      · rename_i heq
        simp [heq, RunEventBody.plain] at hbody
      · rename_i heq
        simp [heq, RunEventBody.plain] at hbody
      · rfl
    rw [EventRecord.planned, hnone]
    rfl
  | intentCommitted hbody | executionStarted hbody | toolOutput hbody | completionOutput hbody
  | receipt hbody =>
    simp only [EventRecord.planned, hbody, RunEventBody.plannedIds]
    rfl

theorem CommitStep.outputs_cases (hstep : CommitStep D P data index commit data' index')
    (hj : JournalCoherent D data index) :
    ((∀ stepId effectId evidence digest, commit.record.event.body ≠
        .effectSucceeded stepId effectId evidence (some digest)) ∧
      data'.outputs = data.outputs ∧ index'.toolOutputSizes = index.toolOutputSizes) ∨
    ∃ stepId effectId evidence output, commit.record.event.body =
        .effectSucceeded stepId effectId evidence (some output.recordDigest) ∧
      output.stepId = stepId ∧
      (∃ anchor, index.intents[effectId]? = some anchor ∧ anchor.stepId = stepId) ∧
      data'.outputs = data.outputs.insert effectId ⟨commit.record.sequence, output⟩ ∧
      index'.toolOutputSizes = index.toolOutputSizes.insert effectId output.canonicalSizeBytes := by
  cases hstep with
  | toolOutput hbody hcandidate =>
    rename_i stepId effectId evidence output anchor
    obtain ⟨heffect, hstep, _, hintent⟩ := toolOutputCandidate_names hj hbody hcandidate
    refine Or.inr ⟨stepId, effectId, evidence, output, hbody, hstep, hintent, ?_, ?_⟩
    · rw [heffect]
    · rw [← heffect]
      rfl
  | plain hbody =>
    refine Or.inl ⟨fun stepId effectId evidence digest heq => ?_, rfl, rfl⟩
    simp [heq, RunEventBody.plain] at hbody
  | stepPlanned hbody | planAccepted hbody | intentCommitted hbody | executionStarted hbody
  | completionOutput hbody =>
    exact Or.inl ⟨fun stepId effectId evidence digest heq => by simp [hbody] at heq, rfl, rfl⟩
  | receipt hbody =>
    exact Or.inl ⟨fun stepId effectId evidence digest heq => by simp [hbody] at heq, rfl, rfl⟩

theorem CommitStep.receipts_cases (hstep : CommitStep D P data index commit data' index') :
    (commit.record.verdict = none ∧ index'.receiptEvents = index.receiptEvents ∧
      index'.receiptEventPositions = index.receiptEventPositions) ∨
    ∃ anchor : ReceiptEventAnchor, commit.record.event.body = anchor.body ∧
      anchor.eventSequence = commit.record.sequence ∧
      anchor.effectId ∉ index.receiptEffectIds ∧
      index'.receiptEvents = index.receiptEvents ++ [anchor] ∧
      index'.receiptEventPositions =
        index.receiptEventPositions.insert anchor.effectId index.receiptEvents.length := by
  cases hstep with
  | receipt hbody hvalid hcandidate =>
    rename_i anchor
    obtain ⟨hanchor, _, _, hnew, _⟩ := verifyReceiptCandidate_eq_ok hcandidate
    refine Or.inr ⟨anchor, ?_, (receiptAnchorFor_eq_ok hanchor).1, hnew, rfl, rfl⟩
    simp only [receiptAnchorFor, hbody, Outcome.bind_eq_ok, Outcome.exists_unit,
      Outcome.pure_eq_ok] at hanchor
    obtain ⟨_, _, _, _, _, _, rfl⟩ := hanchor
    exact hbody
  | plain hbody =>
    refine Or.inl ⟨?_, rfl, rfl⟩
    unfold EventRecord.verdict
    split
    · rename_i heq
      simp [heq, RunEventBody.plain] at hbody
    · rfl
  | stepPlanned hbody | planAccepted hbody | intentCommitted hbody | executionStarted hbody
  | toolOutput hbody | completionOutput hbody =>
    refine Or.inl ⟨?_, rfl, rfl⟩
    simp [EventRecord.verdict, hbody]

theorem CommitStep.keeps_intent (hstep : CommitStep D P data index commit data' index')
    (hp : Prepared D index commit.record.event commit) (hj : JournalCoherent D data index)
    {effectId : String} {anchor : EffectIntentAnchor}
    (h : index.intents[effectId]? = some anchor) : index'.intents[effectId]? = some anchor := by
  rcases hstep.intents_cases with ⟨_, hsame⟩ | ⟨id, intent, hbody, hnew⟩
  · rw [hsame, h]
  · have hne : intent.effectId ≠ effectId := by
      rintro rfl
      exact hj.intent_fresh hp hbody (BTreeMap.mem_iff_exists.mpr ⟨anchor, h⟩)
    rw [hnew, BTreeMap.get_insert_ne _ _ hne, h]

/-! ## The journal fields along a commit -/

theorem CommitStep.chronicled_sequences (hstep : CommitStep D P data index commit data' index')
    (hp : Prepared D index commit.record.event commit) (h : Chronicled data index) :
    ∀ r ∈ data'.records, index'.Used r.sequence := by
  rw [hstep.common.1]
  intro r hr
  rcases List.mem_append.mp hr with hr | hr
  · exact hstep.used hp (h.sequences r hr)
  · rw [List.mem_singleton.mp hr]
    exact hstep.used_new

theorem CommitStep.chronicled_starts (hstep : CommitStep D P data index commit data' index')
    (h : Chronicled data index) (effectId : String) :
    index'.effectStarts[effectId]?.map (fun anchor => (anchor.stepId, anchor.recordedAt)) =
      data'.records.reverse.findSome? (EventRecord.startOf effectId) := by
  rw [hstep.common.1, List.reverse_append, List.reverse_singleton, List.singleton_append,
    List.findSome?_cons, ← h.starts effectId]
  rcases hstep.starts_cases with ⟨hnone, hsame⟩ | ⟨stepId, started, hbody, hnew⟩
  · rw [hnone, hsame]
  · rw [hnew, BTreeMap.get_insert]
    by_cases heffect : started = effectId
    · simp [EventRecord.startOf, hbody, heffect, effectStartFor]
    · simp [EventRecord.startOf, hbody, heffect]

theorem Transition.start_commits {state next : RunState} {stepId effectId : String}
    (ht : Transition D state (.effectExecutionStarted stepId effectId) next) :
    ∃ intent, state.intentOf stepId = some intent ∧ intent.effectId = effectId := by
  cases ht with
  | moved hstep hmove hbudget =>
    cases hmove with
    | executionStarted heffect =>
      obtain ⟨intent, hintent, heffect⟩ := Option.map_eq_some_iff.mp heffect
      exact ⟨intent, RunState.intentOf_eq_some.mpr ⟨_, hstep, hintent⟩, heffect⟩

theorem CommitStep.chronicled_started (hstep : CommitStep D P data index commit data' index')
    (hp : Prepared D index commit.record.event commit) (hj : JournalCoherent D data index)
    (ha : Anchored D data index) (h : Chronicled data index) :
    ∀ r ∈ data'.records, ∀ effectId stepId time, r.startOf effectId = some (stepId, time) →
      ∃ anchor, index'.intents[effectId]? = some anchor ∧ anchor.stepId = stepId := by
  rw [hstep.common.1]
  intro r hr effectId stepId time hstart
  rcases List.mem_append.mp hr with hr | hr
  · obtain ⟨anchor, hanchor, hid⟩ := h.started r hr effectId stepId time hstart
    exact ⟨anchor, hstep.keeps_intent hp hj hanchor, hid⟩
  · rw [List.mem_singleton.mp hr] at hstart
    have hbody : commit.record.event.body = .effectExecutionStarted stepId effectId := by
      unfold EventRecord.startOf at hstart
      split at hstart
      · rename_i hbody
        split at hstart
        · rename_i heffect
          rw [hbody, heffect, (Prod.mk.inj (Option.some.inj hstart)).1]
        · simp at hstart
      · simp at hstart
    obtain ⟨state, next, hstate, _, ht, _⟩ := hp.transition (by simp [hbody])
    rw [hbody] at ht
    obtain ⟨intent, hintent, rfl⟩ := ht.start_commits
    obtain ⟨anchor, hanchor, hid, _⟩ := ha.committed state stepId intent hstate hintent
    exact ⟨anchor, hstep.keeps_intent hp hj hanchor, hid⟩

theorem Prepared.planned_fresh (hp : Prepared D index commit.record.event commit)
    (hj : JournalCoherent D data index) :
    (commit.record.planned.map Prod.snd).Nodup ∧
      ∀ entry ∈ commit.record.planned, entry.2 ∉ index.stepPositions := by
  have hids : commit.record.planned.map Prod.snd = commit.record.event.body.plannedIds := by
    rw [EventRecord.planned, List.map_map]
    exact List.zipIdx_map_fst 0 _
  have hfresh : commit.record.event.body.plannedIds.Nodup ∧
      ∀ id ∈ commit.record.event.body.plannedIds, id ∉ index.stepPositions := by
    unfold RunEventBody.plannedIds
    split
    · rename_i hbody
      exact ⟨List.nodup_singleton _, by simpa using hj.step_fresh hp hbody⟩
    · rename_i hbody
      obtain ⟨hnodup, hnew⟩ := hj.plan_fresh hp hbody
      rw [map_stepId_zipIdx] at hnodup
      refine ⟨hnodup, fun id hid => ?_⟩
      obtain ⟨entry, hentry, rfl⟩ := exists_zipIdx_iff.mpr (List.mem_map.mp hid)
      exact hnew entry hentry
    · simp
  rw [hids]
  refine ⟨hfresh.1, fun entry hentry => hfresh.2 entry.2 ?_⟩
  rw [← hids]
  exact List.mem_map_of_mem hentry

theorem CommitStep.chronicled_positions (hstep : CommitStep D P data index commit data' index')
    (hp : Prepared D index commit.record.event commit) (hj : JournalCoherent D data index)
    (h : Chronicled data index) (id : String) (position : StepJournalPosition) :
    index'.stepPositions[id]? = some position ↔
      (position, id) ∈ data'.records.flatMap EventRecord.planned := by
  obtain ⟨hnodup, hnew⟩ := hp.planned_fresh hj
  have hadds : BTreeMap.Adds index.stepPositions
      (BTreeMap.insertAll Prod.snd Prod.fst index.stepPositions commit.record.planned) _ :=
    BTreeMap.Adds.insertAll hnodup hnew
  rw [hstep.common.1, List.flatMap_append, List.mem_append, ← h.positions, hstep.positions_eq,
    hadds.lookup]
  simp

theorem CommitStep.chronicled_chronological
    (hstep : CommitStep D P data index commit data' index')
    (hp : Prepared D index commit.record.event commit) (h : Chronicled data index) :
    (data'.records.flatMap EventRecord.planned).Pairwise fun a b => a.1.before b.1 := by
  rw [hstep.common.1, List.flatMap_append, List.flatMap_singleton]
  refine List.pairwise_append.mpr ⟨h.chronological, ?_, fun a ha b hb => ?_⟩
  · rw [EventRecord.planned, List.pairwise_map]
    have hindices : (commit.record.event.body.plannedIds.zipIdx).Pairwise fun a b => a.2 < b.2 := by
      rw [← List.pairwise_map (f := Prod.snd), List.zipIdx_map_snd]
      exact List.pairwise_lt_range'
    exact hindices.imp fun hlt => Or.inr ⟨rfl, hlt⟩
  · -- an old position was used before the record of the commit
    obtain ⟨r, hr, har⟩ := List.mem_flatMap.mp ha
    obtain ⟨entry, _, rfl⟩ := List.mem_map.mp har
    obtain ⟨entry', _, rfl⟩ := List.mem_map.mp hb
    obtain ⟨last, hlast, hle⟩ := h.sequences r hr
    exact Or.inl (UInt64.lt_of_le_of_lt hle (hp.sequence_lt hlast))

theorem Transition.planned_ids {state next : RunState} {body : RunEventBody}
    (ht : Transition D state body next) {id : String} (hid : id ∈ next.steps) :
    id ∈ state.steps ∨ id ∈ body.plannedIds := by
  cases ht with
  | planAccepted hloop hopen hturn hturns hcall hplan hsize hheaders hschedulable =>
    obtain ⟨step, hstep⟩ := BTreeMap.mem_iff_exists.mp hid
    rcases addAccepted_get hstep with hold | ⟨p, hp, rfl, _⟩
    · exact Or.inl (BTreeMap.mem_iff_exists.mpr ⟨step, hold⟩)
    · exact Or.inr (List.mem_map_of_mem hp)
  | stepPlanned hnew =>
    rcases BTreeMap.mem_insert_iff.mp hid with rfl | hold
    · exact Or.inr (List.mem_singleton.mpr rfl)
    · exact Or.inl hold
  | effectIntentCommitted hstep =>
    rcases BTreeMap.mem_insert_iff.mp hid with rfl | hold
    · exact Or.inl (BTreeMap.mem_iff_exists.mpr ⟨_, hstep⟩)
    · exact Or.inl hold
  | moved hstep =>
    rcases BTreeMap.mem_insert_iff.mp hid with rfl | hold
    · exact Or.inl (BTreeMap.mem_iff_exists.mpr ⟨_, hstep⟩)
    · exact Or.inl hold
  | agentLoopConfigured | modelCallLifecycleConfigured | modelCallReserved
  | modelCallBecameUnknown | modelCallSettled | completionCandidateRecorded => exact Or.inl hid

theorem CommitStep.chronicled_positioned (hstep : CommitStep D P data index commit data' index')
    (hp : Prepared D index commit.record.event commit) (h : Chronicled data index) (id : String)
    (hid : id ∈ commit.state.steps) : id ∈ index'.stepPositions := by
  rw [hstep.positions_eq, BTreeMap.mem_insertAll]
  rcases hp.created_or_transition with ⟨_, hnone⟩ | ⟨state, next, hstate, ht, hnext⟩
  · obtain ⟨step, hstep⟩ := BTreeMap.mem_iff_exists.mp hid
    simp [hnone] at hstep
  · rw [hnext] at hid
    rcases ht.planned_ids hid with hold | hplanned
    · exact Or.inl (h.positioned state id hstate hold)
    · refine Or.inr ?_
      rw [← List.zipIdx_map_fst 0 commit.record.event.body.plannedIds] at hplanned
      obtain ⟨entry, hentry, rfl⟩ := List.mem_map.mp hplanned
      exact ⟨_, List.mem_map_of_mem hentry, rfl⟩

/-! ## Receipts along a commit -/

theorem CommitStep.chronicled_verdicts (hstep : CommitStep D P data index commit data' index')
    (h : Chronicled data index) :
    index'.receiptEvents.map (fun anchor => (anchor.eventSequence, anchor.body)) =
      data'.records.filterMap EventRecord.verdict := by
  rw [hstep.common.1, List.filterMap_append, ← h.verdicts]
  rcases hstep.receipts_cases with ⟨hnone, hsame, _⟩ | ⟨anchor, hbody, hsequence, _, hnew, _⟩
  · simp [hnone, hsame]
  · have hverdict : commit.record.verdict = some (anchor.eventSequence, anchor.body) := by
      rw [EventRecord.verdict, hbody, hsequence]
      rfl
    simp [hverdict, hnew]

theorem Chronicled.receipt_used (h : Chronicled data index) {anchor : ReceiptEventAnchor}
    (hanchor : anchor ∈ index.receiptEvents) : index.Used anchor.eventSequence := by
  have hmem := List.mem_map_of_mem (f := fun a : ReceiptEventAnchor => (a.eventSequence, a.body))
    hanchor
  rw [h.verdicts] at hmem
  obtain ⟨r, hr, hverdict⟩ := List.mem_filterMap.mp hmem
  unfold EventRecord.verdict at hverdict
  split at hverdict
  · rw [← (Prod.mk.inj (Option.some.inj hverdict)).1]
    exact h.sequences r hr
  · simp at hverdict

theorem CommitStep.chronicled_receiptOrder (hstep : CommitStep D P data index commit data' index')
    (hp : Prepared D index commit.record.event commit) (h : Chronicled data index) :
    index'.receiptEvents.Pairwise fun a b => a.eventSequence < b.eventSequence := by
  rcases hstep.receipts_cases with ⟨_, hsame, _⟩ | ⟨anchor, _, hsequence, _, hnew, _⟩
  · rw [hsame]
    exact h.receiptOrder
  · rw [hnew]
    refine List.pairwise_append.mpr ⟨h.receiptOrder, List.pairwise_singleton _ _, ?_⟩
    intro a ha b hb
    obtain ⟨last, hlast, hle⟩ := h.receipt_used ha
    rw [List.mem_singleton.mp hb, hsequence]
    exact UInt64.lt_of_le_of_lt hle (hp.sequence_lt hlast)

theorem CommitStep.chronicled_receiptAt (hstep : CommitStep D P data index commit data' index')
    (hr : ReceiptCoherent D P data index) (h : Chronicled data index) (i : ℕ)
    (anchor : ReceiptEventAnchor) (hanchor : index'.receiptEvents[i]? = some anchor) :
    index'.receiptEventPositions[anchor.effectId]? = some i := by
  rcases hstep.receipts_cases with ⟨_, hsame, hpositions⟩ |
    ⟨new, _, _, hfresh, hnew, hpositions⟩
  · rw [hsame] at hanchor
    rw [hpositions]
    exact h.receiptAt i anchor hanchor
  · rw [hnew] at hanchor
    rw [hpositions]
    by_cases hi : i < index.receiptEvents.length
    · rw [List.getElem?_append_left hi] at hanchor
      have hold := h.receiptAt i anchor hanchor
      have hne : new.effectId ≠ anchor.effectId := by
        intro heq
        refine hfresh ((hr.events _).mp ?_)
        rw [heq]
        exact BTreeMap.mem_iff_exists.mpr ⟨i, hold⟩
      rw [BTreeMap.get_insert_ne _ _ hne, hold]
    · rw [List.getElem?_append_right (Nat.le_of_not_lt hi)] at hanchor
      have hzero : i - index.receiptEvents.length = 0 := by
        have hbound := (List.getElem?_eq_some_iff.mp hanchor).1
        simpa using hbound
      rw [hzero] at hanchor
      obtain rfl := Option.some.inj hanchor
      rw [Std.ExtTreeMap.getElem?_insert_self]
      congr 1
      omega

theorem Transition.verdict_status {state next : RunState} {anchor : ReceiptEventAnchor}
    (ht : Transition D state anchor.body next) :
    ∃ step, next.steps[anchor.stepId]? = some step ∧ step.Commits anchor.effectId ∧
      step.status = anchor.disposition.nextStatus ∧
      step.executionReceiptId = some anchor.receiptId ∧
      step.executionReceiptDigest = some anchor.receiptDigest := by
  unfold ReceiptEventAnchor.body at ht
  cases ht with
  | moved hstep hmove hbudget =>
    cases hmove with
    | verificationRecorded heffect hstatus =>
      exact ⟨_, Std.ExtTreeMap.getElem?_insert_self, heffect, rfl, rfl, rfl⟩

theorem VerificationDisposition.nextStatus_terminal (disposition : VerificationDisposition) :
    disposition.nextStatus.Terminal := by
  cases disposition <;> simp [VerificationDisposition.nextStatus, StepStatus.Terminal]

theorem CommitStep.chronicled_ended (hstep : CommitStep D P data index commit data' index')
    (hp : Prepared D index commit.record.event commit) (h : Chronicled data index) :
    ∀ anchor ∈ index'.receiptEvents, ∃ (state : RunState) (step : StepState),
      index'.state = some state ∧ state.steps[anchor.stepId]? = some step ∧
        step.Commits anchor.effectId ∧ step.status = anchor.disposition.nextStatus := by
  have hstate' := hstep.common.2.2.1
  have hold : ∀ anchor ∈ index.receiptEvents, ∃ (state : RunState) (step : StepState),
      index'.state = some state ∧ state.steps[anchor.stepId]? = some step ∧
        step.Commits anchor.effectId ∧ step.status = anchor.disposition.nextStatus := by
    intro anchor hanchor
    obtain ⟨state, step, hstate, hget, hcommits, hstatus⟩ := h.ended anchor hanchor
    have hterminal : step.status.Terminal := by
      rw [hstatus]
      exact anchor.disposition.nextStatus_terminal
    rcases hp.created_or_transition with ⟨hnone, _⟩ | ⟨found, next, hfound, ht, hnext⟩
    · rw [hstate] at hnone
      simp at hnone
    · obtain rfl := Option.some.inj (hstate.symm.trans hfound)
      refine ⟨commit.state, step, hstate', ?_, hcommits, hstatus⟩
      rw [hnext]
      exact ht.terminal hget hterminal
  rcases hstep.receipts_cases with ⟨_, hsame, _⟩ | ⟨new, hbody, _, _, hnew, _⟩
  · rw [hsame]
    exact hold
  · rw [hnew]
    intro anchor hanchor
    rcases List.mem_append.mp hanchor with hanchor | hanchor
    · exact hold anchor hanchor
    · obtain rfl := List.mem_singleton.mp hanchor
      obtain ⟨state, next, _, _, ht, hnext⟩ :=
        hp.transition (by simp [hbody, ReceiptEventAnchor.body])
      rw [hbody] at ht
      obtain ⟨step, hget, hcommits, hstatus, _⟩ := ht.verdict_status
      exact ⟨commit.state, step, hstate', by rw [hnext]; exact hget, hcommits, hstatus⟩

/-! ## Outputs along a commit -/

theorem CommitStep.chronicled_outputs (hstep : CommitStep D P data index commit data' index')
    (hp : Prepared D index commit.record.event commit) (hj : JournalCoherent D data index)
    (h : Chronicled data index) (effectId : String) (stored : StoredToolOutput)
    (hstored : data'.outputs[effectId]? = some stored) :
    ∃ anchor, index'.intents[effectId]? = some anchor ∧ anchor.stepId = stored.record.stepId := by
  have hold : data.outputs[effectId]? = some stored → ∃ anchor,
      index'.intents[effectId]? = some anchor ∧ anchor.stepId = stored.record.stepId := by
    intro hstored
    obtain ⟨anchor, hanchor, hid⟩ := h.outputs effectId stored hstored
    exact ⟨anchor, hstep.keeps_intent hp hj hanchor, hid⟩
  rcases hstep.outputs_cases hj with ⟨_, hsame, _⟩ |
    ⟨stepId, effect, evidence, output, _, hid, ⟨anchor, hanchor, hanchorId⟩, hnew, _⟩
  · rw [hsame] at hstored
    exact hold hstored
  · rw [hnew, BTreeMap.get_insert] at hstored
    split at hstored
    · rename_i heffect
      obtain rfl := Option.some.inj hstored
      rw [heffect] at hanchor
      exact ⟨anchor, hstep.keeps_intent hp hj hanchor, hanchorId.trans hid.symm⟩
    · exact hold hstored

theorem CommitStep.chronicled_sizes (hstep : CommitStep D P data index commit data' index')
    (hj : JournalCoherent D data index) (h : Chronicled data index) (effectId : String) :
    index'.toolOutputSizes[effectId]? =
      data'.outputs[effectId]?.map fun stored => stored.record.canonicalSizeBytes := by
  rcases hstep.outputs_cases hj with ⟨_, hsame, hsizes⟩ | ⟨_, effect, _, output, _, _, _, hnew, hsizes⟩
  · rw [hsame, hsizes]
    exact h.sizes effectId
  · rw [hnew, hsizes, BTreeMap.get_insert, BTreeMap.get_insert]
    split
    · rfl
    · exact h.sizes effectId

/-! ## The steps of the projection along a commit -/

theorem StepProjected.fresh {id : String} {step : StepState} (h : step.IsFresh id) :
    StepProjected data index id step := by
  rw [h]
  constructor <;> simp [StepState.fresh]

theorem StepMove.output_cases {body : RunEventBody} {id : String} {step step' : StepState}
    (hmove : StepMove body id step step')
    (hconcluded : step.outputRecordDigest ≠ none → step.status.Concluded) :
    (step'.outputRecordDigest = step.outputRecordDigest ∧
      (∀ stepId effectId evidence digest,
        body ≠ .effectSucceeded stepId effectId evidence (some digest)) ∧
      (step'.outputRecordDigest ≠ none → step'.status.Concluded)) ∨
    ∃ effectId evidence digest, body = .effectSucceeded id effectId evidence (some digest) ∧
      step'.Commits effectId ∧ step'.outputRecordDigest = some digest ∧
      step'.status = .validating := by
  have hnone : ¬ step.status.Concluded → step.outputRecordDigest = none := by
    intro hopen
    by_contra hsome
    exact hopen (hconcluded hsome)
  cases hmove with
  | succeeded heffect hstatus houtput =>
    rename_i effectId evidence output
    cases output with
    | none =>
      have hold := hnone (by simp [StepStatus.Concluded, StepStatus.Terminal, hstatus])
      exact Or.inl ⟨hold.symm, by simp, by simp⟩
    | some digest => exact Or.inr ⟨effectId, evidence, digest, rfl, heffect, rfl, rfl⟩
  | failed heffect hstatus =>
    have hold := hnone (by simp [StepStatus.Concluded, StepStatus.Terminal, hstatus])
    exact Or.inl ⟨hold.symm, by simp, by simp⟩
  | materialUnavailable heffect hstatus | executionStarted heffect hstatus
  | becameUnknown heffect hstatus | reconciliationStarted heffect hstatus
  | reconciliationResolved heffect hstatus =>
    have hold := hnone (by simp [StepStatus.Concluded, StepStatus.Terminal, hstatus])
    exact Or.inl ⟨rfl, by simp, fun hsome => absurd hold hsome⟩
  | manualRequired | verificationPassed | verificationFailed =>
    exact Or.inl ⟨rfl, by simp, fun _ => by simp [StepStatus.Concluded, StepStatus.Terminal]⟩
  | @verificationRecorded _ _ _ _ disposition =>
    exact Or.inl ⟨rfl, by simp, fun _ => Or.inr disposition.nextStatus_terminal⟩

theorem StepMove.completed_cases {body : RunEventBody} {id : String} {step step' : StepState}
    (hmove : StepMove body id step step') (hstatus : step'.status = .completed) :
    body = .verificationPassed id ∨ ∃ effectId receiptId receiptDigest,
      body = .verificationRecorded id effectId .passed receiptId receiptDigest ∧
        step'.Commits effectId ∧ step'.executionReceiptId = some receiptId ∧
        step'.executionReceiptDigest = some receiptDigest := by
  cases hmove with
  | verificationPassed => exact Or.inl rfl
  | @verificationRecorded _ effectId receiptId receiptDigest disposition _ heffect =>
    cases disposition with
    | passed => exact Or.inr ⟨effectId, receiptId, receiptDigest, rfl, heffect, rfl, rfl⟩
    | failed => simp [VerificationDisposition.nextStatus] at hstatus
    | inconclusive => simp [VerificationDisposition.nextStatus] at hstatus
  | @reconciliationResolved _ _ _ resolution =>
    cases resolution <;> simp [ReconciliationResolution.nextStatus] at hstatus
  | materialUnavailable | executionStarted | succeeded | failed | becameUnknown
  | reconciliationStarted | manualRequired | verificationFailed => simp at hstatus

theorem CommitStep.keeps_receipts (hstep : CommitStep D P data index commit data' index')
    {anchor : ReceiptEventAnchor} (h : anchor ∈ index.receiptEvents) :
    anchor ∈ index'.receiptEvents := by
  rcases hstep.receipts_cases with ⟨_, hsame, _⟩ | ⟨new, _, _, _, hnew, _⟩
  · rwa [hsame]
  · rw [hnew]
    exact List.mem_append_left _ h

theorem CommitStep.records_verdict (hstep : CommitStep D P data index commit data' index')
    {stepId effectId receiptId receiptDigest : String} {disposition : VerificationDisposition}
    (hbody : commit.record.event.body =
      .verificationRecorded stepId effectId disposition receiptId receiptDigest) :
    ∃ anchor ∈ index'.receiptEvents, anchor.stepId = stepId ∧ anchor.effectId = effectId ∧
      anchor.disposition = disposition ∧ anchor.receiptId = receiptId ∧
      anchor.receiptDigest = receiptDigest := by
  rcases hstep.receipts_cases with ⟨hnone, _⟩ | ⟨anchor, hanchor, _, _, hnew, _⟩
  · simp [EventRecord.verdict, hbody] at hnone
  · rw [hbody, ReceiptEventAnchor.body] at hanchor
    obtain ⟨rfl, rfl, rfl, rfl, rfl⟩ := RunEventBody.verificationRecorded.inj hanchor
    exact ⟨anchor, by simp [hnew], rfl, rfl, rfl, rfl, rfl⟩

theorem CommitStep.output_frame (hstep : CommitStep D P data index commit data' index')
    (hj : JournalCoherent D data index) {id : String} {intent : EffectIntent}
    {anchor : EffectIntentAnchor} (hanchor : index.intents[intent.effectId]? = some anchor)
    (hid : anchor.stepId = id) (hother : ∀ effectId evidence digest, commit.record.event.body ≠
      .effectSucceeded id effectId evidence (some digest)) :
    data'.outputs[intent.effectId]? = data.outputs[intent.effectId]? := by
  rcases hstep.outputs_cases hj with ⟨_, hsame, _⟩ |
    ⟨stepId, effectId, evidence, output, hbody, _, ⟨found, hfound, hfoundId⟩, hnew, _⟩
  · rw [hsame]
  · have hne : effectId ≠ intent.effectId := by
      rintro rfl
      obtain rfl := Option.some.inj (hfound.symm.trans hanchor)
      exact hother intent.effectId evidence output.recordDigest (by rw [hbody, ← hid, hfoundId])
    rw [hnew, BTreeMap.get_insert_ne _ _ hne]

theorem CommitStep.chronicled_projected (hstep : CommitStep D P data index commit data' index')
    (hp : Prepared D index commit.record.event commit) (hj : JournalCoherent D data index)
    (ha : Anchored D data index) (h : Chronicled data index)
    (hlegacy : ∀ id, commit.record.event.body ≠ .verificationPassed id) (id : String)
    (step' : StepState) (hget : commit.state.steps[id]? = some step') :
    StepProjected data' index' id step' := by
  rcases hp.created_or_transition with ⟨_, hnone⟩ | ⟨state, next, hstate, ht, hnext⟩
  · simp [hnone] at hget
  rw [hnext, RunState.advance_steps] at hget
  have hlocal := ht.localMove id
  rw [hget] at hlocal
  -- an output of the step that the commit is not about stays as it is
  have hframe : ∀ step, state.steps[id]? = some step → (∀ effectId evidence digest,
      commit.record.event.body ≠ .effectSucceeded id effectId evidence (some digest)) →
      (step.intent.bind fun intent => data'.outputs[intent.effectId]?) =
        step.intent.bind fun intent => data.outputs[intent.effectId]? := by
    intro step hold hother
    cases hintent : step.intent with
    | none => rfl
    | some intent =>
      obtain ⟨anchor, hanchor, hid, _⟩ := ha.committed state id intent hstate
        (RunState.intentOf_eq_some.mpr ⟨step, hold, hintent⟩)
      exact hstep.output_frame hj hanchor hid hother
  generalize hview : state.steps[id]? = view at hlocal
  generalize hevent : commit.record.event.body = body at hlocal
  cases hlocal with
  | idle hbody =>
    have hold := h.projected state id step' hstate hview
    refine ⟨?_, hold.observed, fun hcompleted => ?_⟩
    · rw [hold.output, hframe step' hview]
      rintro effectId evidence digest heq
      rw [← hevent, heq] at hbody
      exact hbody rfl
    · obtain ⟨anchor, hanchor, hrest⟩ := hold.completed hcompleted
      exact ⟨anchor, hstep.keeps_receipts hanchor, hrest⟩
  | enters hbody hfresh => exact StepProjected.fresh hfresh
  | @commits _ intent step hstatus =>
    have hold := h.projected state id step hstate hview
    have hnone : step.outputRecordDigest = none := by
      by_contra hsome
      simpa [StepStatus.Concluded, StepStatus.Terminal, hstatus] using hold.observed hsome
    -- an output of the effect would belong to an older intent
    have hfresh : data'.outputs[intent.effectId]? = none := by
      rcases hstep.outputs_cases hj with ⟨_, hsame, _⟩ | ⟨_, _, _, _, hbody, _⟩
      · rw [hsame]
        cases hstored : data.outputs[intent.effectId]? with
        | none => rfl
        | some stored =>
          obtain ⟨anchor, hanchor, _⟩ := h.outputs _ _ hstored
          exact absurd (BTreeMap.mem_iff_exists.mpr ⟨anchor, hanchor⟩) (hj.intent_fresh hp hevent)
      · rw [hevent] at hbody
        simp at hbody
    refine ⟨?_, fun hsome => absurd hnone hsome, by simp⟩
    simp [hnone, hfresh]
  | moves hmove =>
    rename_i step
    have hold := h.projected state id step hstate hview
    refine ⟨?_, ?_, fun hcompleted => ?_⟩
    · rcases hmove.output_cases hold.observed with ⟨hkept, hother, _⟩ |
        ⟨effectId, evidence, digest, hbody, hcommits, hdigest, _⟩
      · rw [hkept, hold.output, hmove.intent_eq.1, hframe step hview]
        intro effectId evidence digest heq
        exact hother id effectId evidence digest (hevent.symm.trans heq)
      · obtain ⟨intent, hintent, rfl⟩ := Option.map_eq_some_iff.mp hcommits
        rcases hstep.outputs_cases hj with ⟨hother, _⟩ |
          ⟨_, _, _, output, hsucceeded, _, _, hnew, _⟩
        · exact absurd (hevent.trans hbody) (hother _ _ _ _)
        · rw [hevent, hbody] at hsucceeded
          obtain ⟨rfl, rfl, rfl, hdigests⟩ := RunEventBody.effectSucceeded.inj hsucceeded
          obtain rfl := Option.some.inj hdigests
          rw [hdigest, hintent, Option.bind_some, hnew, Std.ExtTreeMap.getElem?_insert_self]
          rfl
    · rcases hmove.output_cases hold.observed with ⟨_, _, hconcluded⟩ |
        ⟨_, _, _, _, _, _, hstatus⟩
      · exact hconcluded
      · exact fun _ => Or.inl hstatus
    · rcases hmove.completed_cases hcompleted with hpassed |
        ⟨effectId, receiptId, receiptDigest, hrecorded, hcommits, hreceipt, hdigest⟩
      · exact absurd (hevent.trans hpassed) (hlegacy id)
      · obtain ⟨anchor, hanchor, hid, heffect, hdisposition, hname, hreceiptDigest⟩ :=
          hstep.records_verdict (hevent.trans hrecorded)
        refine ⟨anchor, hanchor, hid, ?_, hdisposition, ?_, ?_⟩
        · rwa [heffect]
        · rw [hname, hreceipt]
        · rw [hreceiptDigest, hdigest]

/-- **A commit keeps the agreement with the order of the journal.** -/
theorem CommitStep.chronicled (hstep : CommitStep D P data index commit data' index')
    (hp : Prepared D index commit.record.event commit) (hcoherent : Coherent D P data index)
    (ha : Anchored D data index) (h : Chronicled data index)
    (hlegacy : ∀ id, commit.record.event.body ≠ .verificationPassed id) :
    Chronicled data' index' where
  sequences := hstep.chronicled_sequences hp h
  starts := hstep.chronicled_starts h
  started := hstep.chronicled_started hp hcoherent.journal ha h
  positions := hstep.chronicled_positions hp hcoherent.journal h
  chronological := hstep.chronicled_chronological hp h
  positioned := by
    intro state id hstate hid
    obtain rfl := Option.some.inj (hstep.common.2.2.1.symm.trans hstate)
    exact hstep.chronicled_positioned hp h id hid
  verdicts := hstep.chronicled_verdicts h
  receiptOrder := hstep.chronicled_receiptOrder hp h
  receiptAt := hstep.chronicled_receiptAt hcoherent.receipt h
  ended := hstep.chronicled_ended hp h
  outputs := hstep.chronicled_outputs hp hcoherent.journal h
  sizes := hstep.chronicled_sizes hcoherent.journal h
  projected := by
    intro state id step hstate hget
    obtain rfl := Option.some.inj (hstep.common.2.2.1.symm.trans hstate)
    exact hstep.chronicled_projected hp hcoherent.journal ha h hlegacy id step hget

/-! ## Every store that appends have filled -/

theorem Accepted.not_legacy {event : RunEvent} {sidecars : CommitSidecars}
    {anchors : CommitAnchors} (h : Accepted D P index event sidecars anchors commit) (id : String) :
    event.body ≠ .verificationPassed id := by
  intro hbody
  have hbundle := h.bundles.2.2.1
  unfold verifyReceiptBundle at hbundle
  rw [hbody] at hbundle
  cases hreceipt : sidecars.receipt <;> simp [hreceipt] at hbundle

/-- **The anchors and the order of the journal agree with every store that appends have filled.** -/
theorem ReachedStore.chronicled {store : MemoryRunStore} (h : ReachedStore D P store) :
    Anchored D store.toRunData store.index ∧ Chronicled store.toRunData store.index := by
  induction h with
  | new => exact ⟨Anchored.empty, Chronicled.empty⟩
  | @call store store' call result hreached hrun hreturned ih =>
    rcases result with (e | message) | commit
    · rw [perform_atomic call store e store' hrun]
      exact ih
    · exact absurd rfl (hreturned message)
    · have hcoherent := hreached.coherent
      obtain ⟨anchors, hcommitted⟩ :=
        MemoryRunStore.call_eq_ok hcoherent (perform_eq_ok_iff.mp hrun)
      have hp := hcommitted.accepted.prepared
      obtain ⟨index', hindex', hstep⟩ := hcommitted.accepted.step store.toRunData
      obtain rfl : store'.index = index' := Except.ok.inj (hcommitted.index.symm.trans hindex')
      rw [hcommitted.data]
      exact ⟨hstep.anchored hp hcoherent.journal ih.1,
        hstep.chronicled hp hcoherent ih.1 ih.2 hcommitted.accepted.not_legacy⟩

end Xgeny
