import Xgeny.Store.Refinement

set_option autoImplicit false

/-!
# The anchors of the index and the projection

The index names the intents, the starts, the outputs and the receipts of the journal. What it says
agrees with the projection and with the sidecars, whatever calls filled the store.

* `Anchored`: that agreement;
* `CommitStep.anchored`: a commit keeps it;
* **`anchored_runCalls`**: it holds after any calls.
-/

namespace Xgeny

open VerifiedRunIndex

variable {D : Digests} {P : Protocol} {data data' : RunData} {index index' : VerifiedRunIndex}
  {commit : Commit}

/-- The sequence number was used in the journal. -/
def VerifiedRunIndex.Used (index : VerifiedRunIndex) (sequence : UInt64) : Prop :=
  ∃ last, index.lastRecord = some last ∧ sequence ≤ last.sequence

/-- The anchors of the index agree with the projection and with the sidecars. -/
structure Anchored (D : Digests) (data : RunData) (index : VerifiedRunIndex) : Prop where
  events : ∀ id : String, id ∈ index.eventIds ↔ ∃ r ∈ data.records, r.event.eventId = id
  committed : ∀ state id intent, index.state = some state → state.intentOf id = some intent →
    ∃ anchor, index.intents[intent.effectId]? = some anchor ∧ anchor.stepId = id ∧
      anchor.intent = intent
  intents : ∀ (effectId : String) (anchor : EffectIntentAnchor),
    index.intents[effectId]? = some anchor → index.Used anchor.eventSequence
  starts : ∀ (effectId : String) (anchor : EffectStartAnchor),
    index.effectStarts[effectId]? = some anchor → index.Used anchor.eventSequence
  outputs : ∀ effectId : String, index.toolOutputDigests[effectId]? =
    data.outputs[effectId]?.map fun stored => stored.record.outputDigest
  settled : ∀ effectId : String, effectId ∈ index.receiptEffectIds →
    ∃ (state : RunState) (id : String) (step : StepState), index.state = some state ∧
      state.steps[id]? = some step ∧ step.Commits effectId ∧ step.status.Terminal
  stored : ∀ id : String, id ∈ index.receiptIds ↔
    ∃ stored ∈ data.receipts, stored.receipt.receiptId = id
  named : ∀ stored ∈ data.receipts, stored.receipt.receiptId = coreReceiptIdV1 stored.effectId ∧
    stored.effectId ∈ index.receiptEffectIds
  digests : ∀ digest : String, digest ∈ index.receiptDigests → ∃ receipt : ExecutionReceiptBody,
    receipt.receiptId ∈ index.receiptIds ∧ receipt.receiptDigest = digest ∧
      verifyReceiptDigest D "runtime ExecutionReceipt" receipt = .ok ()

theorem Anchored.empty : Anchored D .empty .default := by
  constructor <;> simp [VerifiedRunIndex.default, RunData.empty]

/-! ## The projection along a commit -/

theorem Prepared.created_or_transition (hp : Prepared D index commit.record.event commit) :
    (index.state = none ∧ ∀ id : String, commit.state.steps[id]? = none) ∨
      ∃ state next, index.state = some state ∧
        Transition D state commit.record.event.body next ∧
        commit.state = next.advance commit.record := by
  cases hstate : index.state with
  | none =>
    have happly := hp.state
    rw [hstate] at happly
    obtain ⟨goal, _, hcreated⟩ := applyRecord_none happly
    refine Or.inl ⟨rfl, fun id => ?_⟩
    rw [hcreated]
    exact Std.ExtTreeMap.getElem?_empty
  | some state =>
    have happly := hp.state
    rw [hstate] at happly
    obtain ⟨next, _, ht, hnext⟩ := applyRecord_some happly
    exact Or.inr ⟨state, next, rfl, ht, hnext⟩

theorem Transition.terminal {state next : RunState} {body : RunEventBody}
    (ht : Transition D state body next) {id : String} {step : StepState}
    (hstep : state.steps[id]? = some step) (hterminal : step.status.Terminal) :
    next.steps[id]? = some step := by
  cases ht.stepsChange with
  | same hsame => rw [hsame, hstep]
  | @replaced other old new hold hnew hevolves =>
    rw [hnew, BTreeMap.get_insert_ne _ _ fun heq => ?_, hstep]
    rw [heq, hstep] at hold
    exact hevolves.live (Option.some.inj hold ▸ hterminal)
  | added hold _ => exact hold hstep

/-! ## Each part along a commit -/

theorem CommitStep.used (hstep : CommitStep D P data index commit data' index')
    (hp : Prepared D index commit.record.event commit) {sequence : UInt64}
    (h : index.Used sequence) : index'.Used sequence := by
  obtain ⟨last, hlast, hle⟩ := h
  have hlt := hp.sequence_lt hlast
  refine ⟨commit.record, hstep.common.2.2.2, ?_⟩
  rw [UInt64.le_iff_toNat_le] at hle ⊢
  rw [UInt64.lt_iff_toNat_lt] at hlt
  omega

theorem CommitStep.used_new (hstep : CommitStep D P data index commit data' index') :
    index'.Used commit.record.sequence :=
  ⟨commit.record, hstep.common.2.2.2, UInt64.le_refl _⟩

theorem CommitStep.intents_cases (hstep : CommitStep D P data index commit data' index') :
    ((∀ id intent, commit.record.event.body ≠ .effectIntentCommitted id intent) ∧
      index'.intents = index.intents) ∨
    ∃ id intent, commit.record.event.body = .effectIntentCommitted id intent ∧
      index'.intents = index.intents.insert intent.effectId
        { eventSequence := commit.record.sequence, stepId := id, intent := intent } := by
  cases hstep with
  | intentCommitted hbody => exact Or.inr ⟨_, _, hbody, rfl⟩
  | plain hbody =>
    refine Or.inl ⟨fun id intent heq => ?_, rfl⟩
    rw [heq] at hbody
    simp [RunEventBody.plain] at hbody
  | stepPlanned hbody | planAccepted hbody | executionStarted hbody | toolOutput hbody
  | completionOutput hbody | receipt hbody =>
    exact Or.inl ⟨fun id intent heq => by simp [hbody] at heq, rfl⟩

theorem CommitStep.anchored_committed (hstep : CommitStep D P data index commit data' index')
    (hp : Prepared D index commit.record.event commit) (hj : JournalCoherent D data index)
    (h : Anchored D data index) (id : String) (intent : EffectIntent)
    (hintent : commit.state.intentOf id = some intent) :
    ∃ anchor, index'.intents[intent.effectId]? = some anchor ∧ anchor.stepId = id ∧
      anchor.intent = intent := by
  rcases hp.created_or_transition with ⟨_, hnone⟩ | ⟨state, next, hstate, ht, hnext⟩
  · rw [RunState.intentOf, hnone] at hintent
    simp at hintent
  replace hintent : next.intentOf id = some intent := by rwa [hnext] at hintent
  rcases hstep.intents_cases with ⟨hother, hsame⟩ | ⟨stepId, new, hbody, hnew⟩
  · rcases ht.intents with ⟨_, _, hkept⟩ | ⟨_, _, _, heq, _⟩
    · rw [hkept] at hintent
      rw [hsame]
      exact h.committed state id intent hstate hintent
    · exact absurd heq (hother _ _)
  · have hfresh := hj.intent_fresh hp hbody
    rw [hbody] at ht
    rcases ht.intents with ⟨hother, _⟩ | ⟨_, _, _, heq, _, _, hintents⟩
    · exact absurd rfl (hother _ _)
    · obtain ⟨rfl, rfl⟩ := RunEventBody.effectIntentCommitted.inj heq
      rw [hintents] at hintent
      split at hintent
      · rename_i hid
        obtain rfl := Option.some.inj hintent
        exact ⟨_, by rw [hnew, Std.ExtTreeMap.getElem?_insert_self], hid, rfl⟩
      · obtain ⟨anchor, hanchor, hrest⟩ := h.committed state id intent hstate hintent
        refine ⟨anchor, ?_, hrest⟩
        have hne : new.effectId ≠ intent.effectId := fun heq =>
          hfresh (heq ▸ BTreeMap.mem_iff_exists.mpr ⟨anchor, hanchor⟩)
        rw [hnew, BTreeMap.get_insert_ne _ _ hne, hanchor]

theorem CommitStep.anchored_intents (hstep : CommitStep D P data index commit data' index')
    (hp : Prepared D index commit.record.event commit) (h : Anchored D data index)
    (effectId : String) (anchor : EffectIntentAnchor)
    (hanchor : index'.intents[effectId]? = some anchor) : index'.Used anchor.eventSequence := by
  rcases hstep.intents_cases with ⟨_, hsame⟩ | ⟨stepId, new, _, hnew⟩
  · rw [hsame] at hanchor
    exact hstep.used hp (h.intents effectId anchor hanchor)
  · rw [hnew, BTreeMap.get_insert] at hanchor
    split at hanchor
    · obtain rfl := Option.some.inj hanchor
      exact hstep.used_new
    · exact hstep.used hp (h.intents effectId anchor hanchor)

theorem CommitStep.anchored_starts (hstep : CommitStep D P data index commit data' index')
    (hp : Prepared D index commit.record.event commit) (h : Anchored D data index)
    (effectId : String) (anchor : EffectStartAnchor)
    (hanchor : index'.effectStarts[effectId]? = some anchor) :
    index'.Used anchor.eventSequence := by
  have hused : index.Used anchor.eventSequence → index'.Used anchor.eventSequence := hstep.used hp
  have hnew := hstep.used_new
  cases hstep with
  | executionStarted =>
    rw [BTreeMap.get_insert] at hanchor
    split at hanchor
    · obtain rfl := Option.some.inj hanchor
      exact hnew
    · exact hused (h.starts effectId anchor hanchor)
  | plain | stepPlanned | planAccepted | intentCommitted | toolOutput | completionOutput
  | receipt => exact hused (h.starts effectId anchor hanchor)

theorem CommitStep.anchored_outputs (hstep : CommitStep D P data index commit data' index')
    (h : Anchored D data index) (effectId : String) :
    index'.toolOutputDigests[effectId]? =
      data'.outputs[effectId]?.map fun stored => stored.record.outputDigest := by
  cases hstep with
  | @toolOutput _ _ _ output =>
    show (index.toolOutputDigests.insert output.effectId output.outputDigest)[effectId]? =
      (data.outputs.insert output.effectId ⟨_, output⟩)[effectId]?.map _
    rw [BTreeMap.get_insert, BTreeMap.get_insert]
    split
    · rfl
    · exact h.outputs effectId
  | plain | stepPlanned | planAccepted | intentCommitted | executionStarted | completionOutput
  | receipt => exact h.outputs effectId

theorem Transition.verification_ends {state next : RunState} {stepId effectId receiptId : String}
    {receiptDigest : String} {disposition : VerificationDisposition}
    (ht : Transition D state
      (.verificationRecorded stepId effectId disposition receiptId receiptDigest) next) :
    ∃ step, next.steps[stepId]? = some step ∧ step.Commits effectId ∧ step.status.Terminal := by
  cases ht with
  | moved hstep hmove hbudget =>
    cases hmove with
    | verificationRecorded heffect hstatus =>
      refine ⟨_, Std.ExtTreeMap.getElem?_insert_self, heffect, ?_⟩
      cases disposition <;> simp [VerificationDisposition.nextStatus, StepStatus.Terminal]

theorem CommitStep.anchored_settled (hstep : CommitStep D P data index commit data' index')
    (hp : Prepared D index commit.record.event commit) (h : Anchored D data index)
    (effectId : String) (hsettled : effectId ∈ index'.receiptEffectIds) :
    ∃ (id : String) (step : StepState), commit.state.steps[id]? = some step ∧
      step.Commits effectId ∧ step.status.Terminal := by
  have hold : effectId ∈ index.receiptEffectIds → ∃ (id : String) (step : StepState),
      commit.state.steps[id]? = some step ∧ step.Commits effectId ∧ step.status.Terminal := by
    intro hmem
    obtain ⟨state, id, step, hstate, hget, hcommits, hterminal⟩ := h.settled effectId hmem
    rcases hp.created_or_transition with ⟨hnone, _⟩ | ⟨found, next, hfound, ht, hnext⟩
    · rw [hstate] at hnone
      simp at hnone
    · obtain rfl := Option.some.inj (hstate.symm.trans hfound)
      exact ⟨id, step, by rw [hnext]; exact ht.terminal hget hterminal, hcommits, hterminal⟩
  cases hstep with
  | receipt hbody =>
    simp only [applyReceipt, hbody] at hsettled
    rcases BTreeSet.mem_insert_iff.mp hsettled with rfl | hmem
    · obtain ⟨state, next, _, _, ht, hnext⟩ := hp.transition (by simp [hbody])
      rw [hbody] at ht
      obtain ⟨step, hget, hcommits, hterminal⟩ := ht.verification_ends
      exact ⟨_, step, by rw [hnext]; exact hget, hcommits, hterminal⟩
    · exact hold hmem
  | plain | stepPlanned | planAccepted | intentCommitted | executionStarted | toolOutput
  | completionOutput => exact hold hsettled

theorem CommitStep.anchored_events (hstep : CommitStep D P data index commit data' index')
    (h : Anchored D data index) (id : String) :
    id ∈ index'.eventIds ↔ ∃ r ∈ data'.records, r.event.eventId = id := by
  have hpush : id ∈ index.eventIds.insert commit.record.event.eventId ↔
      ∃ r ∈ data.records ++ [commit.record], r.event.eventId = id := by
    rw [BTreeSet.mem_insert_iff, h.events id]
    constructor
    · rintro (rfl | ⟨r, hr, hid⟩)
      · exact ⟨commit.record, by simp, rfl⟩
      · exact ⟨r, List.mem_append_left _ hr, hid⟩
    · rintro ⟨r, hr, hid⟩
      rcases List.mem_append.mp hr with hr | hr
      · exact Or.inr ⟨r, hr, hid⟩
      · rw [List.mem_singleton] at hr
        exact Or.inl (hr ▸ hid)
  cases hstep with
  | plain | stepPlanned | planAccepted | intentCommitted | executionStarted | toolOutput
  | completionOutput | receipt => exact hpush

theorem CommitStep.anchored_stored (hstep : CommitStep D P data index commit data' index')
    (h : Anchored D data index) (id : String) :
    id ∈ index'.receiptIds ↔ ∃ stored ∈ data'.receipts, stored.receipt.receiptId = id := by
  cases hstep with
  | @receipt _ effectId _ _ _ receipt =>
    show id ∈ index.receiptIds.insert receipt.receiptId ↔ _
    rw [BTreeSet.mem_insert_iff, h.stored id]
    constructor
    · rintro (rfl | ⟨stored, hstored, hid⟩)
      · exact ⟨⟨commit.record.sequence, effectId, receipt⟩, by simp, rfl⟩
      · exact ⟨stored, List.mem_append_left _ hstored, hid⟩
    · rintro ⟨stored, hstored, hid⟩
      rcases List.mem_append.mp hstored with hstored | hstored
      · exact Or.inr ⟨stored, hstored, hid⟩
      · rw [List.mem_singleton] at hstored
        subst hstored
        exact Or.inl hid
  | plain | stepPlanned | planAccepted | intentCommitted | executionStarted | toolOutput
  | completionOutput => exact h.stored id

theorem verifyReceiptIntentBinding_receiptId {receipt : ExecutionReceiptBody}
    {intent : EffectIntent} {provenance : ReceiptProvenance} {disposition : VerificationDisposition}
    (h : verifyReceiptIntentBinding receipt intent provenance disposition = .ok ()) :
    receipt.receiptId = coreReceiptIdV1 intent.effectId := by
  simp only [verifyReceiptIntentBinding, Outcome.bind_eq_ok, Outcome.exists_unit,
    Outcome.failIf_eq_ok, not_or, Decidable.not_not, ne_eq] at h
  exact h.2.1.1

theorem CommitStep.anchored_named (hstep : CommitStep D P data index commit data' index')
    (hj : JournalCoherent D data index) (h : Anchored D data index) :
    ∀ stored ∈ data'.receipts, stored.receipt.receiptId = coreReceiptIdV1 stored.effectId ∧
      stored.effectId ∈ index'.receiptEffectIds := by
  cases hstep with
  | @receipt stepId effectId _ _ _ receipt anchor hbody hvalid hcandidate =>
    obtain ⟨hanchor, _, _, _, _, ⟨intent, _, hintent, _, hbinding⟩, _⟩ :=
      verifyReceiptCandidate_eq_ok hcandidate
    have heffect : anchor.effectId = effectId := by
      rw [(receiptAnchorFor_eq_ok hanchor).2, hbody]
      rfl
    intro stored hstored
    simp only [applyReceipt, hbody] at hstored ⊢
    rcases List.mem_append.mp hstored with hold | hnew
    · obtain ⟨hname, hsettled⟩ := h.named stored hold
      exact ⟨hname, BTreeSet.mem_insert_iff.mpr (Or.inr hsettled)⟩
    · rw [List.mem_singleton] at hnew
      subst hnew
      refine ⟨?_, BTreeSet.mem_insert_iff.mpr (Or.inl rfl)⟩
      rw [verifyReceiptIntentBinding_receiptId hbinding, (hj.intents _ _ hintent).1, heffect]
  | plain | stepPlanned | planAccepted | intentCommitted | executionStarted | toolOutput
  | completionOutput => exact h.named

theorem validateExecutionReceipt_digest {receipt : ExecutionReceiptBody}
    (h : validateExecutionReceipt D P receipt = .ok ()) :
    verifyReceiptDigest D "runtime ExecutionReceipt" receipt = .ok () := by
  unfold validateExecutionReceipt at h
  split at h
  · simp only [Outcome.bind_eq_ok, Outcome.exists_unit] at h
    exact h.2
  · simp at h

theorem CommitStep.anchored_digests (hstep : CommitStep D P data index commit data' index')
    (h : Anchored D data index) (digest : String) (hdigest : digest ∈ index'.receiptDigests) :
    ∃ receipt : ExecutionReceiptBody, receipt.receiptId ∈ index'.receiptIds ∧
      receipt.receiptDigest = digest ∧
      verifyReceiptDigest D "runtime ExecutionReceipt" receipt = .ok () := by
  cases hstep with
  | @receipt _ _ _ _ _ receipt _ hbody hvalid hcandidate =>
    simp only [applyReceipt, hbody] at hdigest ⊢
    rcases BTreeSet.mem_insert_iff.mp hdigest with rfl | hmem
    · exact ⟨receipt, BTreeSet.mem_insert_iff.mpr (Or.inl rfl), rfl,
        validateExecutionReceipt_digest hvalid⟩
    · obtain ⟨other, hother, hrest⟩ := h.digests digest hmem
      exact ⟨other, BTreeSet.mem_insert_iff.mpr (Or.inr hother), hrest⟩
  | plain | stepPlanned | planAccepted | intentCommitted | executionStarted | toolOutput
  | completionOutput => exact h.digests digest hdigest

/-! ## Every part -/

/-- **A commit keeps the agreement.** -/
theorem CommitStep.anchored (hstep : CommitStep D P data index commit data' index')
    (hp : Prepared D index commit.record.event commit) (hj : JournalCoherent D data index)
    (h : Anchored D data index) : Anchored D data' index' := by
  have hstate := hstep.common.2.2.1
  refine ⟨hstep.anchored_events h, fun state id intent hcurrent hintent => ?_,
    hstep.anchored_intents hp h, hstep.anchored_starts hp h, hstep.anchored_outputs h,
    fun effectId hsettled => ?_, hstep.anchored_stored h, hstep.anchored_named hj h,
    hstep.anchored_digests h⟩
  · obtain rfl := Option.some.inj (hstate.symm.trans hcurrent)
    exact hstep.anchored_committed hp hj h id intent hintent
  · obtain ⟨id, step, hrest⟩ := hstep.anchored_settled hp h effectId hsettled
    exact ⟨commit.state, id, step, hstate, hrest⟩

/-- **The anchors agree after any calls.** -/
theorem anchored_runCalls (calls : List AppendCall) :
    Anchored D (runCalls D P calls).1.toRunData (runCalls D P calls).1.index := by
  induction calls using List.reverseRecOn with
  | nil => exact Anchored.empty
  | append_singleton calls call ih =>
    have hcoherent := (coherent_runCalls (D := D) (P := P) calls).1
    rw [runCalls, List.foldl_append, ← runCalls, List.foldl_cons, List.foldl_nil,
      MemoryRunStore.afterCall]
    split
    · rename_i commit store hcall
      obtain ⟨anchors, hcommitted⟩ := MemoryRunStore.call_eq_ok hcoherent hcall
      obtain ⟨index', hindex', hstep⟩ :=
        hcommitted.accepted.step (runCalls D P calls).1.toRunData
      obtain rfl : store.index = index' := Except.ok.inj (hcommitted.index.symm.trans hindex')
      rw [hcommitted.data]
      exact hstep.anchored hcommitted.accepted.prepared hcoherent.journal ih
    · exact ih

end Xgeny
