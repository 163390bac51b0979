import Xgeny.Transition.Run

set_option autoImplicit false

/-!
# At-most-once execution

Over a whole journal, the effect of a step is started again only after a recorded proof that it
was not applied. The invariant ties the records that name a step to its present state: while the
step is back in `intentCommitted`, every earlier start is followed by such a proof.

* `Commits`, `Starts`, `Doubts`, `ProvesNotApplied`: the records that matter to a step;
* `StepHistory`: the invariant, for one step;
* **`at_most_once_execution`**: the result for every accepted journal and every step.
-/

namespace Xgeny

open EventLog (At at_snoc at_length)

/-! ## Records of a step -/

/-- The record commits the intent of a step. -/
def EventRecord.Commits (r : EventRecord) (id : String) (intent : EffectIntent) : Prop :=
  r.event.body = .effectIntentCommitted id intent

/-- The record starts the effect of a step. -/
def EventRecord.Starts (r : EventRecord) (id effectId : String) : Prop :=
  r.event.body = .effectExecutionStarted id effectId

/-- The record leaves the effect of a step in doubt. -/
def EventRecord.Doubts (r : EventRecord) (id effectId : String) : Prop :=
  ∃ reason, r.event.body = .effectBecameUnknown id effectId reason

/-- The record proves that the effect of a step was not applied. -/
def EventRecord.ProvesNotApplied (r : EventRecord) (id effectId : String) : Prop :=
  ∃ evidence, r.event.body = .reconciliationResolved id effectId .provedNotApplied evidence

/-- The record starts an effect of the step, as a test. -/
def EventRecord.startsStep (r : EventRecord) (id : String) : Bool :=
  match r.event.body with
  | .effectExecutionStarted step _ => step == id
  | _ => false

/-- The record starts the effect of a step or leaves it in doubt. -/
def EventRecord.Attempts (r : EventRecord) (id effectId : String) : Prop :=
  r.Starts id effectId ∨ r.Doubts id effectId

theorem EventRecord.startsStep_iff {r : EventRecord} {id : String} :
    r.startsStep id = true ↔ ∃ effectId, r.Starts id effectId := by
  unfold EventRecord.startsStep EventRecord.Starts
  split
  · rename_i step effectId hbody
    simp only [beq_iff_eq, hbody, RunEventBody.effectExecutionStarted.injEq]
    constructor
    · exact fun h => ⟨effectId, h, rfl⟩
    · rintro ⟨_, h, _⟩
      exact h
  · rename_i hbody
    simp only [Bool.false_eq_true, false_iff, not_exists]
    exact fun effectId h => hbody id effectId h

theorem EventRecord.not_commits_of_subject {r : EventRecord} {id : String}
    (h : r.event.body.subject ≠ some id) (intent : EffectIntent) : ¬ r.Commits id intent :=
  fun hr => h (by rw [hr]; rfl)

theorem EventRecord.not_attempts_of_subject {r : EventRecord} {id : String}
    (h : r.event.body.subject ≠ some id) (effectId : String) : ¬ r.Attempts id effectId := by
  rintro (hr | ⟨reason, hr⟩)
  · exact h (by rw [hr]; rfl)
  · exact h (by rw [hr]; rfl)

/-! ## The invariant -/

/-- What the journal says about a step, given its present state. -/
structure StepHistory (records : List EventRecord) (id : String) (view : Option StepState) :
    Prop where
  untouched : (∀ step, view = some step → step.intent = none) →
    ∀ i r, At records i r → (∀ intent, ¬ r.Commits id intent) ∧ ∀ e, ¬ r.Attempts id e
  committed : ∀ step intent, view = some step → step.intent = some intent →
    ∃ j q, At records j q ∧ q.Commits id intent ∧
      (∀ i r other, At records i r → r.Commits id other → i = j) ∧
      ∀ i r e, At records i r → r.Attempts id e → j < i ∧ e = intent.effectId
  settled : ∀ step, view = some step → step.status = .intentCommitted →
    ∀ i r e, At records i r → r.Attempts id e →
      ∃ k q, i < k ∧ At records k q ∧ q.ProvesNotApplied id e
  between : ∀ i j r q e f, i < j → At records i r → At records j q →
    r.Attempts id e → q.Starts id f → ∃ k p, i < k ∧ k < j ∧ At records k p ∧
      p.ProvesNotApplied id e
  attempts : (view.elim 0 fun step => step.attempts.toNat) =
    records.countP fun r => r.startsStep id

variable {records : List EventRecord} {record : EventRecord} {id : String}

theorem startsStep_of_not_attempts (h : ∀ e, ¬ record.Attempts id e) :
    record.startsStep id = false := by
  rw [Bool.eq_false_iff, ne_eq, EventRecord.startsStep_iff]
  rintro ⟨e, he⟩
  exact h e (Or.inl he)

/-- A record that is not about the step keeps its history, when the step keeps its intent and its
attempts and does not return to `intentCommitted`. -/
theorem StepHistory.quiet {view view' : Option StepState} (h : StepHistory records id view)
    (hcommit : ∀ intent, ¬ record.Commits id intent) (hattempt : ∀ e, ¬ record.Attempts id e)
    (hintent : view'.bind StepState.intent = view.bind StepState.intent)
    (hstatus : ∀ step', view' = some step' → step'.status = .intentCommitted →
      ∃ step, view = some step ∧ step.status = .intentCommitted)
    (hattempts : (view'.elim 0 fun step => step.attempts.toNat) =
      view.elim 0 fun step => step.attempts.toNat) :
    StepHistory (records ++ [record]) id view' := by
  have hnone : ∀ v : Option StepState, (∀ step, v = some step → step.intent = none) ↔
      v.bind StepState.intent = none := by
    intro v
    cases v <;> simp
  have hsome : ∀ (v : Option StepState) (a : EffectIntent),
      (∃ step, v = some step ∧ step.intent = some a) ↔ v.bind StepState.intent = some a := by
    intro v a
    cases v <;> simp
  constructor
  · intro hview i r hi
    rw [hnone, hintent, ← hnone] at hview
    rcases at_snoc.mp hi with hi | ⟨_, rfl⟩
    · exact h.untouched hview i r hi
    · exact ⟨hcommit, hattempt⟩
  · intro step intent hview hstep
    have hbind := (hsome view' intent).mp ⟨step, hview, hstep⟩
    rw [hintent, ← hsome] at hbind
    obtain ⟨old, hold, holdIntent⟩ := hbind
    obtain ⟨j, q, hj, hq, hunique, heffects⟩ := h.committed old intent hold holdIntent
    refine ⟨j, q, hj.snoc, hq, ?_, ?_⟩
    · intro i r other hi hr
      rcases at_snoc.mp hi with hi | ⟨_, rfl⟩
      · exact hunique i r other hi hr
      · exact absurd hr (hcommit other)
    · intro i r e hi hr
      rcases at_snoc.mp hi with hi | ⟨_, rfl⟩
      · exact heffects i r e hi hr
      · exact absurd hr (hattempt e)
  · intro step hview hcommitted i r e hi hr
    obtain ⟨old, hold, holdStatus⟩ := hstatus step hview hcommitted
    rcases at_snoc.mp hi with hi | ⟨_, rfl⟩
    · obtain ⟨k, q, hk, hq, hproof⟩ := h.settled old hold holdStatus i r e hi hr
      exact ⟨k, q, hk, hq.snoc, hproof⟩
    · exact absurd hr (hattempt e)
  · intro i j r q e f hij hi hj hr hq
    rcases at_snoc.mp hj with hj | ⟨_, rfl⟩
    · have hlt := hj.lt_length
      rcases at_snoc.mp hi with hi | ⟨rfl, _⟩
      · obtain ⟨k, p, hik, hkj, hp, hproof⟩ := h.between i j r q e f hij hi hj hr hq
        exact ⟨k, p, hik, hkj, hp.snoc, hproof⟩
      · omega
    · exact absurd (Or.inl hq) (hattempt f)
  · rw [hattempts, h.attempts, List.countP_append, List.countP_singleton,
      startsStep_of_not_attempts hattempt]
    rfl

theorem StepHistory.commit {intent : EffectIntent} {step : StepState}
    (h : StepHistory records id (some step)) (hnone : step.intent = none)
    (hrecord : record.Commits id intent) :
    StepHistory (records ++ [record]) id
      (some { step with intent := some intent, status := .intentCommitted }) := by
  have hbefore := h.untouched fun s hs => by rwa [← Option.some.inj hs]
  have hattempt : ∀ e, ¬ record.Attempts id e := by
    rintro e (he | ⟨reason, he⟩)
    · exact absurd (hrecord.symm.trans he) (by simp)
    · exact absurd (hrecord.symm.trans he) (by simp)
  have hnever : ∀ i r e, At (records ++ [record]) i r → ¬ r.Attempts id e := by
    intro i r e hi
    rcases at_snoc.mp hi with hi | ⟨_, rfl⟩
    · exact (hbefore i r hi).2 e
    · exact hattempt e
  constructor
  · intro hview
    simp at hview
  · intro s a hs ha
    obtain rfl := Option.some.inj hs
    obtain rfl := Option.some.inj ha
    refine ⟨records.length, record, at_length, hrecord, ?_, ?_⟩
    · intro i r other hi hr
      rcases at_snoc.mp hi with hi | ⟨rfl, _⟩
      · exact absurd hr ((hbefore i r hi).1 other)
      · rfl
    · exact fun i r e hi hr => absurd hr (hnever i r e hi)
  · exact fun s _ _ i r e hi hr => absurd hr (hnever i r e hi)
  · exact fun i j r q e f _ hi _ hr => absurd hr (hnever i r e hi)
  · rw [List.countP_append, List.countP_singleton, startsStep_of_not_attempts hattempt, ← h.attempts]
    rfl

theorem StepHistory.attempt {step step' : StepState} {intent : EffectIntent}
    (h : StepHistory records id (some step)) (hsome : step.intent = some intent)
    (hrecord : record.Attempts id intent.effectId) (hintent : step'.intent = step.intent)
    (hstatus : step'.status ≠ .intentCommitted)
    (hstart : ∀ e, record.Starts id e → step.status = .intentCommitted)
    (hattempts : step'.attempts.toNat =
      step.attempts.toNat + if record.startsStep id = true then 1 else 0) :
    StepHistory (records ++ [record]) id (some step') := by
  obtain ⟨j, q, hj, hq, hunique, heffects⟩ := h.committed step intent rfl hsome
  have hcommit : ∀ other, ¬ record.Commits id other := by
    intro other hother
    rcases hrecord with hr | ⟨reason, hr⟩
    · exact absurd (hother.symm.trans hr) (by simp)
    · exact absurd (hother.symm.trans hr) (by simp)
  have hsame : ∀ e, record.Attempts id e → e = intent.effectId := by
    intro e he
    rcases hrecord with hr | ⟨reason, hr⟩ <;> rcases he with he | ⟨reason', he⟩ <;>
      simp_all [EventRecord.Starts]
  constructor
  · intro hview
    simp [hintent, hsome] at hview
  · intro s a hs ha
    obtain rfl := Option.some.inj hs
    rw [hintent, hsome] at ha
    obtain rfl := Option.some.inj ha
    refine ⟨j, q, hj.snoc, hq, ?_, ?_⟩
    · intro i r other hi hr
      rcases at_snoc.mp hi with hi | ⟨_, rfl⟩
      · exact hunique i r other hi hr
      · exact absurd hr (hcommit other)
    · intro i r e hi hr
      rcases at_snoc.mp hi with hi | ⟨rfl, rfl⟩
      · exact heffects i r e hi hr
      · exact ⟨hj.lt_length, hsame e hr⟩
  · intro s hs hcommitted
    obtain rfl := Option.some.inj hs
    exact absurd hcommitted hstatus
  · intro i k r p e f hik hi hk hr hp
    rcases at_snoc.mp hk with hk | ⟨rfl, rfl⟩
    · have hlt := hk.lt_length
      rcases at_snoc.mp hi with hi | ⟨rfl, _⟩
      · obtain ⟨m, o, him, hmk, ho, hproof⟩ := h.between i k r p e f hik hi hk hr hp
        exact ⟨m, o, him, hmk, ho.snoc, hproof⟩
      · omega
    · rcases at_snoc.mp hi with hi | ⟨rfl, _⟩
      · obtain ⟨m, o, him, ho, hproof⟩ := h.settled step rfl (hstart f hp) i r e hi hr
        exact ⟨m, o, him, ho.lt_length, ho.snoc, hproof⟩
      · omega
  · rw [List.countP_append, List.countP_singleton, ← h.attempts]
    exact hattempts

theorem StepHistory.resolve {step step' : StepState} {intent : EffectIntent}
    (h : StepHistory records id (some step)) (hsome : step.intent = some intent)
    (hrecord : record.ProvesNotApplied id intent.effectId) (hintent : step'.intent = step.intent)
    (hattempts : step'.attempts = step.attempts) :
    StepHistory (records ++ [record]) id (some step') := by
  obtain ⟨evidence, hbody⟩ := hrecord
  obtain ⟨j, q, hj, hq, hunique, heffects⟩ := h.committed step intent rfl hsome
  have hcommit : ∀ other, ¬ record.Commits id other := fun other hother =>
    absurd (hother.symm.trans hbody) (by simp)
  have hattempt : ∀ e, ¬ record.Attempts id e := by
    rintro e (he | ⟨reason, he⟩)
    · exact absurd (he.symm.trans hbody) (by simp)
    · exact absurd (he.symm.trans hbody) (by simp)
  -- apart from what it settles, the record is quiet
  have hquiet : StepHistory (records ++ [record]) id (some { step' with status := .reconciling }) :=
    h.quiet hcommit hattempt (by simp [hintent]) (by simp) (by simp [hattempts])
  refine ⟨fun hview => hquiet.untouched ?_, fun s a hs ha => ?_, ?_, hquiet.between, hquiet.attempts⟩
  · simpa using hview
  · obtain rfl := Option.some.inj hs
    exact hquiet.committed _ a rfl ha
  · intro s _ _ i r e hi hr
    rcases at_snoc.mp hi with hi | ⟨_, rfl⟩
    · refine ⟨records.length, record, hi.lt_length, at_length, evidence, ?_⟩
      rw [(heffects i r e hi hr).2, hbody]
    · exact absurd hr (hattempt e)

/-! ## Every journal -/

theorem StepHistory.other {step step' : StepState} (h : StepHistory records id (some step))
    (hmove : StepMove record.event.body id step step')
    (hcommit : ∀ intent, record.event.body ≠ .effectIntentCommitted id intent)
    (hstart : ∀ e, record.event.body ≠ .effectExecutionStarted id e)
    (hdoubt : ∀ e reason, record.event.body ≠ .effectBecameUnknown id e reason)
    (hstatus : step'.status ≠ .intentCommitted) (hattempts : step'.attempts = step.attempts) :
    StepHistory (records ++ [record]) id (some step') := by
  refine h.quiet (fun intent => hcommit intent) ?_ (by simp [hmove.intent_eq.1]) ?_ (by simp [hattempts])
  · rintro e (he | ⟨reason, he⟩)
    · exact hstart e he
    · exact hdoubt e reason he
  · intro s hs
    obtain rfl := Option.some.inj hs
    exact fun hcommitted => absurd hcommitted hstatus

theorem StepHistory.move {step step' : StepState} (h : StepHistory records id (some step))
    (hmove : StepMove record.event.body id step step') :
    StepHistory (records ++ [record]) id (some step') := by
  have hkeep := hmove.intent_eq.1
  generalize hbody : record.event.body = body at hmove
  have hmove' := hbody ▸ hmove
  cases hmove with
  | executionStarted heffect hstatus hattempts =>
    obtain ⟨intent, hintent, rfl⟩ := Option.map_eq_some_iff.mp heffect
    have hstart : record.startsStep id = true := EventRecord.startsStep_iff.mpr ⟨_, hbody⟩
    exact h.attempt hintent (Or.inl hbody) hkeep (by simp) (fun _ _ => hstatus)
      (by simp [hstart, hattempts])
  | becameUnknown heffect hstatus =>
    obtain ⟨intent, hintent, rfl⟩ := Option.map_eq_some_iff.mp heffect
    have hnot : ∀ e, ¬ record.Starts id e := fun e he => by
      rw [EventRecord.Starts, hbody] at he
      simp at he
    have hstart : record.startsStep id = false := by
      rw [Bool.eq_false_iff, ne_eq, EventRecord.startsStep_iff]
      exact fun ⟨e, he⟩ => hnot e he
    exact h.attempt hintent (Or.inr ⟨_, hbody⟩) hkeep (by simp) (fun e he => absurd he (hnot e))
      (by simp [hstart])
  | reconciliationResolved heffect hstatus hprofile =>
    rename_i effectId evidence resolution
    obtain ⟨intent, hintent, rfl⟩ := Option.map_eq_some_iff.mp heffect
    cases resolution with
    | provedNotApplied => exact h.resolve hintent ⟨_, hbody⟩ hkeep rfl
    | provedApplied | failed =>
      exact h.other hmove' (by simp [hbody]) (by simp [hbody]) (by simp [hbody])
        (by simp [ReconciliationResolution.nextStatus]) rfl
  | verificationRecorded heffect hstatus =>
    rename_i disposition
    exact h.other hmove' (by simp [hbody]) (by simp [hbody]) (by simp [hbody])
      (by cases disposition <;> simp [VerificationDisposition.nextStatus]) rfl
  | materialUnavailable | succeeded | failed | reconciliationStarted | manualRequired
  | verificationPassed | verificationFailed =>
    exact h.other hmove' (by simp [hbody]) (by simp [hbody]) (by simp [hbody]) (by simp) rfl

/-- **Run lemma.** Every accepted journal has the history of every step. -/
theorem stepHistory_of_replay {D : Digests} {state : RunState}
    (h : replay D records = .ok state) (id : String) :
    StepHistory records id state.steps[id]? := by
  refine replay_induction (I := fun records s => StepHistory records id s.steps[id]?) ?_ ?_ h
  · intro record goal hcreates
    have hsubject : record.event.body.subject ≠ some id := by simp [hcreates.body, RunEventBody.subject]
    have hempty : StepHistory [] id none := by
      constructor <;> simp [At]
    have hfirst : StepHistory ([] ++ [record]) id none :=
      hempty.quiet (fun a => EventRecord.not_commits_of_subject hsubject a)
        (fun e => EventRecord.not_attempts_of_subject hsubject e) rfl (by simp) rfl
    simpa [RunState.created, RunState.advance] using hfirst
  · intro records s record next hs hI _ ht
    rw [RunState.advance_steps]
    have hlocal := ht.localMove id
    generalize hview : s.steps[id]? = view at hlocal hI
    generalize next.steps[id]? = view' at hlocal
    generalize hbody : record.event.body = body at hlocal
    cases hlocal with
    | idle hsubject =>
      rw [← hbody] at hsubject
      exact hI.quiet (fun a => EventRecord.not_commits_of_subject hsubject a)
        (fun e => EventRecord.not_attempts_of_subject hsubject e) rfl (fun s hs hc => ⟨s, hs, hc⟩) rfl
    | enters hsubject hfresh =>
      rw [← hbody] at hsubject
      rw [hfresh]
      exact hI.quiet (fun a => EventRecord.not_commits_of_subject hsubject a)
        (fun e => EventRecord.not_attempts_of_subject hsubject e) rfl (by simp [StepState.fresh]) rfl
    | commits hstatus =>
      have hshape := (reachable_step_shape ⟨records, hs⟩ id _ hview).2
      exact hI.commit (by simpa [hstatus] using hshape) hbody
    | moves hmove => exact hI.move (hbody ▸ hmove)

/-- **At-most-once execution.** In every accepted journal and for every step: all starts name the
effect of the one intent committed for the step, which stands before them; between two starts, and
between a doubt and a later start, there is a recorded proof that the effect was not applied; and
the replayed step counts its starts. -/
theorem at_most_once_execution {D : Digests} {state : RunState}
    (h : replay D records = .ok state) (id : String) :
    (∀ i r e, At records i r → r.Starts id e →
      ∃ j q intent, j < i ∧ At records j q ∧ q.Commits id intent ∧ intent.effectId = e ∧
        ∀ k p other, At records k p → p.Commits id other → k = j) ∧
      (∀ i j r q e f, At records i r → At records j q → r.Starts id e → q.Starts id f → e = f) ∧
      (∀ i j r q e f, i < j → At records i r → At records j q → r.Starts id e → q.Starts id f →
        ∃ k p, i < k ∧ k < j ∧ At records k p ∧ p.ProvesNotApplied id e) ∧
      (∀ i j r q e f, i < j → At records i r → At records j q → r.Doubts id e → q.Starts id f →
        ∃ k p, i < k ∧ k < j ∧ At records k p ∧ p.ProvesNotApplied id e) ∧
      (∀ step, state.steps[id]? = some step →
        step.attempts.toNat = records.countP fun r => r.startsStep id) := by
  have hI := stepHistory_of_replay h id
  -- a start is only possible once an intent is committed
  have hstarted : ∀ i r e, At records i r → r.Starts id e →
      ∃ step intent, state.steps[id]? = some step ∧ step.intent = some intent := by
    intro i r e hi hr
    by_contra hnone
    refine (hI.untouched (fun step hstep => ?_) i r hi).2 e (Or.inl hr)
    cases hintent : step.intent with
    | none => rfl
    | some intent => exact absurd ⟨step, intent, hstep, hintent⟩ hnone
  refine ⟨?_, ?_, ?_, ?_, ?_⟩
  · intro i r e hi hr
    obtain ⟨step, intent, hstep, hintent⟩ := hstarted i r e hi hr
    obtain ⟨j, q, hj, hq, hunique, heffects⟩ := hI.committed step intent hstep hintent
    obtain ⟨hji, rfl⟩ := heffects i r e hi (Or.inl hr)
    exact ⟨j, q, intent, hji, hj, hq, rfl, hunique⟩
  · intro i j r q e f hi hj hr hq
    obtain ⟨step, intent, hstep, hintent⟩ := hstarted i r e hi hr
    obtain ⟨_, _, _, _, _, heffects⟩ := hI.committed step intent hstep hintent
    rw [(heffects i r e hi (Or.inl hr)).2, (heffects j q f hj (Or.inl hq)).2]
  · exact fun i j r q e f hij hi hj hr hq => hI.between i j r q e f hij hi hj (Or.inl hr) hq
  · exact fun i j r q e f hij hi hj hr hq => hI.between i j r q e f hij hi hj (Or.inr hr) hq
  · intro step hstep
    have := hI.attempts
    rwa [hstep] at this

/-! ## A sample run

One run of a single step that is started, left in doubt, proved not applied, started again and
verified. The hashes are those of the canonical documents, so the sample encoder answers as the
real one does on every document that the run needs. -/

/-- A digest made of one repeated digit. -/
def sampleDigest (c : Char) : String := "sha256:" ++ String.ofList (List.replicate 64 c)

def sampleEvent (sequence : UInt64) (body : RunEventBody) : RunEvent where
  eventId := "event-" ++ toString sequence
  runId := "run-1"
  authority := "local"
  authorityEpoch := 1
  recordedAt := "2026-01-01T00:00:00Z"
  body := body

/-- One line of a sample journal: an event with the size and the hash of its record. -/
structure SampleLine where
  body : RunEventBody
  size : ℕ
  hash : String

/-- The records of some lines, after a given head. -/
def sampleRecords (sequence : UInt64) (previous : Option String) : List SampleLine → List EventRecord
  | [] => []
  | line :: lines =>
    { sequence := sequence + 1
      previousDigest := previous
      event := sampleEvent (sequence + 1) line.body
      digest := "sha256:" ++ line.hash } ::
      sampleRecords (sequence + 1) (some ("sha256:" ++ line.hash)) lines

/-- The documents of some lines, with their sizes and hashes. -/
def sampleDocuments (sequence : UInt64) (previous : Option String) (lines : List SampleLine) :
    List (DigestInput × ℕ × String) :=
  (sampleRecords sequence previous lines).zip lines |>.map fun (record, line) =>
    (.record record.sequence record.previousDigest record.event, line.size, line.hash)

/-- An encoder that knows the listed documents. -/
def tableDigests (table : List (DigestInput × ℕ × String)) : Digests where
  canonicalize input :=
    match table.find? fun entry => decide (entry.1 = input) with
    | none => .error "unknown document"
    | some (_, size, hash) =>
      if h : isHex64 (bytes hash) = true then .ok ⟨size, ⟨hash, h⟩⟩ else .error "malformed hash"

theorem tableDigests_injective {table : List (DigestInput × ℕ × String)}
    (h : (table.map fun entry => entry.2.2).Nodup) {a b : DigestInput} {c d : Canonical}
    (ha : (tableDigests table).canonicalize a = .ok c)
    (hb : (tableDigests table).canonicalize b = .ok d) (heq : c.sha256.val = d.sha256.val) :
    a = b := by
  have hentry : ∀ {input canonical}, (tableDigests table).canonicalize input = .ok canonical →
      ∃ entry ∈ table, entry.1 = input ∧ entry.2.2 = canonical.sha256.val := by
    intro input canonical hok
    simp only [tableDigests] at hok
    split at hok
    · simp at hok
    · rename_i input' size hash hfind
      split at hok
      · obtain rfl := Except.ok.inj hok
        exact ⟨_, List.mem_of_find?_eq_some hfind, by simpa using List.find?_some hfind, rfl⟩
      · simp at hok
  obtain ⟨x, hx, rfl, hxc⟩ := hentry ha
  obtain ⟨y, hy, rfl, hyd⟩ := hentry hb
  rw [List.inj_on_of_nodup_map h hx hy (by rw [hxc, hyd, heq])]

def sampleInvocationBinding : InvocationBinding where
  capabilityId := "file.write"
  contractVersion := "1.0.0"
  definitionDigest := sampleDigest '1'
  instanceId := "local-fs"
  instanceBindingDigest := sampleDigest '2'

def sampleBinding (stepId : String) (sequence : UInt64) (head action : String) :
    AuthorizationBinding where
  runId := "run-1"
  stepId := stepId
  authority := "local"
  authorityEpoch := 1
  issuedAtSequence := sequence
  issuedAtHeadDigest := head
  capabilityId := "file.write"
  contractVersion := "1.0.0"
  definitionDigest := sampleDigest '1'
  instanceId := "local-fs"
  instanceBindingDigest := sampleDigest '2'
  actionDigest := action
  materialDigest := sampleDigest '3'
  materialRetentionDigest := sampleDigest '4'
  policyEvidenceDigest := sampleDigest '5'
  receiptProvenanceDigest := none

/-- A one-shot intent, with the hashes of its authorization. -/
def sampleIntent (effectId idHash digestHash : String) (binding : AuthorizationBinding) :
    EffectIntent where
  effectId := effectId
  actionDigest := binding.actionDigest
  invocation := sampleInvocationBinding
  effectClass := .nonIdempotent
  idempotencyKey := none
  sinkGuarantee := .none
  authorization :=
    { grantId := "authorization-" ++ idHash
      grantDigest := "sha256:" ++ digestHash
      maxUses := 1
      binding := binding }
  receiptProvenance := none

def bindingA : AuthorizationBinding :=
  sampleBinding "step-a" 2 "sha256:d52694526447767c2130a9ff693bff87eb7c75011f13dffdb66422b158edca74"
    (sampleDigest 'a')

def intentA : EffectIntent :=
  sampleIntent "effect-a" "83638658ce28d7e6fc3d734945551f071d7d20e0c2c1aa39f983a3841a19fd4d"
    "8c8fa80139aff2036fe69eddb3c05739cade83d84ce5c84c0117bd7c348f7bf4" bindingA

/-- A step runs its effect twice, with a proof in between, and is verified; then a loop is
configured. -/
def sampleLines : List SampleLine :=
  [⟨.runCreated "write two files", 212,
      "1a2ff360e22efc4f653a7fef280060d32e13b82543efb6174078446500f29a1b"⟩,
    ⟨.stepPlanned "step-a" "write the first file" [], 310,
      "d52694526447767c2130a9ff693bff87eb7c75011f13dffdb66422b158edca74"⟩,
    ⟨.effectIntentCommitted "step-a" intentA, 1824,
      "40aca9ce51ba64d8978895a84e3754c2d8c5bcb8fddab126a70d37b855e0d435"⟩,
    ⟨.effectExecutionStarted "step-a" "effect-a", 309,
      "00a48eef8716d3cd08db7247c634ab54e4d02b105bdf367874c57f8613fed575"⟩,
    ⟨.effectBecameUnknown "step-a" "effect-a" "timeout", 325,
      "747cc3a73980688f8145f7f0df8f40394b7ecce2e17cbcbe9267a75db769c437"⟩,
    ⟨.reconciliationStarted "step-a" "effect-a", 307,
      "7f266f2f98c05c066b803f4ba5958b53b6fdeb5026aebc615ebd2a16ffc82a58"⟩,
    ⟨.reconciliationResolved "step-a" "effect-a" .provedNotApplied (sampleDigest '6'), 433,
      "b36a101ca649a3cf4b7b33c4d5016a1ebc8e1ab33898abe9112e1dc03ada691b"⟩,
    ⟨.effectExecutionStarted "step-a" "effect-a", 309,
      "fdf69ffc33dc71b39f00468f8116eaf4be6a092f4c2dbb3401bd62d78a5b2faa"⟩,
    ⟨.effectSucceeded "step-a" "effect-a" (sampleDigest '7') none, 391,
      "a91dc5059fae5718326cd826e901435e5523c534b6796390906e40f3cfcd7c47"⟩,
    ⟨.verificationRecorded "step-a" "effect-a" .passed "receipt-a" (sampleDigest '8'), 445,
      "6811da7da3f5df6f0b8b43c7e71c0b51d0868b5e74c5bd2f5ec389ecb51d233e"⟩,
    ⟨.agentLoopConfigured ⟨4, 4, 4, 65536⟩, 358,
      "aa62e9dde41d17b0b04c21e8dc06e143f16fb913d055d9bd33a1272025ff63a7"⟩]

/-- The documents of the authorization in the sample run. -/
def sampleAuthorization : List (DigestInput × ℕ × String) :=
  [(.onceAuthorizationId "run-1" (sampleDigest 'a'), 152,
      "83638658ce28d7e6fc3d734945551f071d7d20e0c2c1aa39f983a3841a19fd4d"),
    (.authorization bindingA 1, 899,
      "8c8fa80139aff2036fe69eddb3c05739cade83d84ce5c84c0117bd7c348f7bf4")]

/-- The documents of the sample run. -/
def sampleTable : List (DigestInput × ℕ × String) :=
  sampleDocuments 0 none sampleLines ++ sampleAuthorization

def sampleJournal : List EventRecord := sampleRecords 0 none sampleLines

theorem sampleJournal_replays : ∃ state, replay (tableDigests sampleTable) sampleJournal = .ok state :=
  Outcome.exists_ok_of_isSome (by decide +kernel)

/-- The sample run starts its effect at positions 3 and 7; the proof stands at position 6. -/
theorem at_most_once_execution_sample : ∃ state,
    replay (tableDigests sampleTable) sampleJournal = .ok state ∧
      ∃ k p, 3 < k ∧ k < 7 ∧ At sampleJournal k p ∧ p.ProvesNotApplied "step-a" "effect-a" := by
  obtain ⟨state, hstate⟩ := sampleJournal_replays
  refine ⟨state, hstate, ?_⟩
  exact (at_most_once_execution hstate "step-a").2.2.1 3 7 _ _ _ "effect-a" (by decide) rfl rfl rfl rfl

end Xgeny
