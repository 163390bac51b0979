import Xgeny.Snapshots.Verification

set_option autoImplicit false

/-!
# The planning snapshot

A planning turn reads the steps in the order in which they were planned and the outputs of the
completed steps in the order of their receipts. Both are joined from the maps of the index; on a
store that appends have filled no check of the join can fail, save the budget.

* `planningStepOrder_eq`, `completedToolOutputOrder_eq`: the two orders are those of the journal;
* `selectOutput_bound`, `foldl_selectOutput`: the outputs are selected within the budget;
* `foldl_loadSelected`: every selected output is loaded;
* `PlannedFrom`: what a planning snapshot says;
* **`planning_snapshot_exact`**: the snapshot, or the budget error, and nothing else.
-/

namespace Xgeny

open VerifiedRunIndex

variable {D : Digests} {P : Protocol} {data : RunData} {index : VerifiedRunIndex}
  {state : RunState}

/-! ## The order of the steps -/

theorem keys_perm {β γ : Type} {m : BTreeMap String β} {m' : BTreeMap String γ}
    (h : ∀ k, k ∈ m ↔ k ∈ m') : m.keys.Perm m'.keys := by
  refine (List.perm_ext_iff_of_nodup Std.ExtTreeMap.nodup_keys Std.ExtTreeMap.nodup_keys).mpr ?_
  intro k
  rw [Std.ExtTreeMap.mem_keys, Std.ExtTreeMap.mem_keys, h k]

theorem Chronicled.mem_positions (hc : Chronicled data index) (hj : JournalCoherent D data index)
    (hstate : index.state = some state) (id : String) :
    id ∈ index.stepPositions ↔ id ∈ state.steps := by
  constructor
  · intro hpositioned
    obtain ⟨found, hfound, hid⟩ := hj.positions id hpositioned
    obtain rfl := Option.some.inj (hstate.symm.trans hfound)
    exact hid
  · exact hc.positioned state id hstate

theorem StepJournalPosition.before_irrefl (a : StepJournalPosition) : ¬ a.before a := by
  rintro (hlt | ⟨_, hlt⟩)
  · exact UInt64.lt_irrefl _ hlt
  · exact Nat.lt_irrefl _ hlt

theorem positionedLe_of_before {a b : StepJournalPosition × String} (h : a.1.before b.1) :
    positionedLe a b :=
  h.imp id fun hsame => ⟨hsame.1, Or.inl hsame.2⟩

theorem positionedLe_total (a b : StepJournalPosition × String) :
    positionedLe a b ∨ positionedLe b a := by
  unfold positionedLe
  simp only [UInt64.lt_iff_toNat_lt, ← UInt64.toNat_inj]
  rcases String.le_total a.2 b.2 with h | h
  · simp only [h, and_true]
    omega
  · simp only [h, and_true]
    omega

theorem positionedLe_trans {a b c : StepJournalPosition × String} (h : positionedLe a b)
    (h' : positionedLe b c) : positionedLe a c := by
  have hname : a.2 ≤ b.2 → b.2 ≤ c.2 → a.2 ≤ c.2 := String.le_trans
  unfold positionedLe at *
  simp only [UInt64.lt_iff_toNat_lt, ← UInt64.toNat_inj] at *
  grind

theorem positionedLe_antisymm {a b : StepJournalPosition × String} (h : positionedLe a b)
    (h' : positionedLe b a) : a = b := by
  unfold positionedLe at *
  simp only [UInt64.lt_iff_toNat_lt, ← UInt64.toNat_inj] at *
  have hsequence : a.1.eventSequence.toNat = b.1.eventSequence.toNat := by omega
  have hindex : a.1.eventStepIndex = b.1.eventStepIndex := by omega
  have hname : a.2 ≤ b.2 ∧ b.2 ≤ a.2 := by
    constructor <;> grind
  refine Prod.ext ?_ (String.le_antisymm hname.1 hname.2)
  cases ha : a.1
  cases hb : b.1
  simp_all [← UInt64.toNat_inj]
theorem Chronicled.sorted_positions (hc : Chronicled data index) :
    (index.stepPositions.toList.map fun entry => (entry.2, entry.1)).insertionSort positionedLe =
      data.records.flatMap EventRecord.planned := by
  have htotal : Std.Total positionedLe := ⟨positionedLe_total⟩
  have htrans : IsTrans (StepJournalPosition × String) positionedLe :=
    ⟨fun _ _ _ => positionedLe_trans⟩
  have hnodup : (data.records.flatMap EventRecord.planned).Nodup := by
    refine hc.chronological.imp ?_
    rintro a _ hlt rfl
    exact a.1.before_irrefl hlt
  have hentries : (index.stepPositions.toList.map fun entry => (entry.2, entry.1)).Nodup := by
    refine List.Nodup.map (fun a b heq => ?_) (BTreeMap.nodup_toList _)
    obtain ⟨hposition, hid⟩ := Prod.mk.inj heq
    exact Prod.ext hid hposition
  have hperm : (index.stepPositions.toList.map fun entry => (entry.2, entry.1)).Perm
      (data.records.flatMap EventRecord.planned) := by
    refine (List.perm_ext_iff_of_nodup hentries hnodup).mpr fun entry => ?_
    rw [← hc.positions entry.2 entry.1, List.mem_map]
    constructor
    · rintro ⟨found, hfound, rfl⟩
      exact Std.ExtTreeMap.mem_toList_iff_getElem?_eq_some.mp hfound
    · intro hget
      exact ⟨(entry.2, entry.1), Std.ExtTreeMap.mem_toList_iff_getElem?_eq_some.mpr hget, rfl⟩
  refine List.Perm.eq_of_pairwise (fun a b _ _ => positionedLe_antisymm)
    (List.pairwise_insertionSort _ _) (hc.chronological.imp positionedLe_of_before) ?_
  exact (List.perm_insertionSort _ _).trans hperm

/-- **The order of the steps is that of the journal**, and it is an order of the projected steps. -/
theorem planningStepOrder_eq (hc : Chronicled data index) (hj : JournalCoherent D data index)
    (hstate : index.state = some state) :
    planningStepOrder index state =
        .ok ((data.records.flatMap EventRecord.planned).map Prod.snd) ∧
      ((data.records.flatMap EventRecord.planned).map Prod.snd).Perm state.steps.keys := by
  have hkeys : index.stepPositions.keys.Perm state.steps.keys :=
    keys_perm (hc.mem_positions hj hstate)
  constructor
  · simp only [planningStepOrder, Outcome.bind_eq_ok, Outcome.exists_unit, Outcome.failIf_eq_ok,
      not_or, not_exists, not_and, Decidable.not_not, ne_eq, hc.sorted_positions,
      Outcome.pure_eq_ok, and_true]
    refine ⟨?_, fun id hid => ?_⟩
    · rw [← Std.ExtTreeMap.length_keys, ← Std.ExtTreeMap.length_keys, hkeys.length_eq]
    · exact (hc.mem_positions hj hstate id).mp (Std.ExtTreeMap.mem_keys.mp hid)
  · rw [← hc.sorted_positions]
    refine List.Perm.trans ?_ hkeys
    refine ((List.perm_insertionSort _ _).map _).trans ?_
    rw [List.map_map, ← Std.ExtTreeMap.map_fst_toList_eq_keys]
    exact List.Perm.refl _

/-! ## The order of the outputs -/

/-- The step that an event completes. -/
def RunEventBody.passedStep : RunEventBody → Option String
  | .verificationRecorded stepId _ .passed _ _ => some stepId
  | _ => none

theorem Chronicled.receipt_steps (hc : Chronicled data index) :
    (index.receiptEvents.map ReceiptEventAnchor.stepId).Nodup := by
  rw [List.nodup_iff_pairwise_ne, List.pairwise_map, List.pairwise_iff_getElem]
  intro i j hi hj hlt heq
  obtain ⟨state, step, hstate, hstep, hcommits, _⟩ := hc.ended _ (List.getElem_mem hi)
  obtain ⟨state', step', hstate', hstep', hcommits', _⟩ := hc.ended _ (List.getElem_mem hj)
  obtain rfl := Option.some.inj (hstate.symm.trans hstate')
  rw [heq] at hstep
  obtain rfl := Option.some.inj (hstep.symm.trans hstep')
  have heffect := Option.some.inj (hcommits.symm.trans hcommits')
  have hat := hc.receiptAt i _ (List.getElem?_eq_getElem hi)
  rw [heffect, hc.receiptAt j _ (List.getElem?_eq_getElem hj)] at hat
  have hsame := Option.some.inj hat
  omega

theorem ReceiptEventAnchor.passedStep_body (anchor : ReceiptEventAnchor) :
    anchor.body.passedStep = if anchor.disposition = .passed then some anchor.stepId else none := by
  unfold ReceiptEventAnchor.body
  cases anchor.disposition <;> rfl

theorem Chronicled.passed_steps (hc : Chronicled data index) :
    (index.receiptEvents.filter fun anchor => anchor.disposition = .passed).map
        ReceiptEventAnchor.stepId =
      data.records.filterMap fun record => record.event.body.passedStep := by
  have hverdicts := congrArg (List.filterMap fun entry => entry.2.passedStep) hc.verdicts
  rw [List.filterMap_map, List.filterMap_filterMap] at hverdicts
  calc (index.receiptEvents.filter fun anchor => anchor.disposition = .passed).map
        ReceiptEventAnchor.stepId
    _ = index.receiptEvents.filterMap fun anchor => anchor.body.passedStep := by
      rw [← List.filterMap_eq_map, List.filterMap_filter]
      refine List.filterMap_congr fun anchor _ => ?_
      simp [anchor.passedStep_body]
    _ = data.records.filterMap fun record => (record.verdict.bind fun entry =>
        entry.2.passedStep) := hverdicts
    _ = data.records.filterMap fun record => record.event.body.passedStep := by
      refine List.filterMap_congr fun record _ => ?_
      unfold EventRecord.verdict
      split
      · rfl
      · rename_i hother
        unfold RunEventBody.passedStep
        split
        · rename_i heq
          exact absurd heq (hother _ _ _ _ _)
        · rfl

theorem foldl_observeReceipt {receipts : List ReceiptEventAnchor} {observed : BTreeSet String}
    (hnodup : (receipts.map ReceiptEventAnchor.stepId).Nodup)
    (hnew : ∀ receipt ∈ receipts, receipt.stepId ∉ observed) (order : List String) :
    Outcome.foldl observeReceipt (observed, order) receipts =
      .ok (BTreeSet.insertAll ReceiptEventAnchor.stepId observed receipts,
        order ++ receipts.map ReceiptEventAnchor.stepId) := by
  induction receipts generalizing observed order with
  | nil =>
    rw [List.map_nil, List.append_nil]
    rfl
  | cons receipt receipts ih =>
    obtain ⟨hhead, htail⟩ := List.nodup_cons.mp hnodup
    have hfirst : observeReceipt (observed, order) receipt =
        .ok (observed.insert receipt.stepId, order ++ [receipt.stepId]) := by
      simp only [observeReceipt, Outcome.bind_eq_ok, BTreeSet.insertNew_eq_ok, Outcome.pure_eq_ok]
      exact ⟨_, ⟨hnew receipt List.mem_cons_self, rfl⟩, rfl⟩
    have hfresh : ∀ other ∈ receipts, other.stepId ∉ observed.insert receipt.stepId := by
      intro other hother hmem
      rcases BTreeSet.mem_insert_iff.mp hmem with heq | hold
      · exact hhead (heq ▸ List.mem_map_of_mem hother)
      · exact hnew other (List.mem_cons_of_mem _ hother) hold
    simp only [Outcome.foldl, hfirst, Outcome.bind_eq_ok]
    refine ⟨_, rfl, (ih htail hfresh _).trans ?_⟩
    rw [List.append_assoc]
    rfl

/-- **The order of the outputs is that of the passed receipts.** -/
theorem completedToolOutputOrder_eq (hc : Chronicled data index) {expected : BTreeSet String}
    (hexpected : ∀ id ∈ expected, ∃ anchor ∈ index.receiptEvents,
      anchor.stepId = id ∧ anchor.disposition = .passed) :
    completedToolOutputOrder index expected = .ok
        ((data.records.filterMap fun record => record.event.body.passedStep).filter (· ∈ expected)) ∧
      ((data.records.filterMap fun record => record.event.body.passedStep).filter
        (· ∈ expected)).Nodup := by
  have hfiltered : (index.receiptEvents.filter fun receipt => receipt.disposition = .passed ∧
      receipt.stepId ∈ expected).map ReceiptEventAnchor.stepId =
      (data.records.filterMap fun record => record.event.body.passedStep).filter
        (· ∈ expected) := by
    rw [← hc.passed_steps, List.filter_map, List.filter_filter]
    congr 1
    refine List.filter_congr fun receipt _ => ?_
    simp [Bool.and_comm]
  have hnodup : ((index.receiptEvents.filter fun receipt => receipt.disposition = .passed ∧
      receipt.stepId ∈ expected).map ReceiptEventAnchor.stepId).Nodup :=
    hc.receipt_steps.sublist (List.filter_sublist.map _)
  have hsorted : (index.receiptEvents.filter fun receipt => receipt.disposition = .passed ∧
      receipt.stepId ∈ expected).insertionSort receiptLe = index.receiptEvents.filter
        fun receipt => receipt.disposition = .passed ∧ receipt.stepId ∈ expected :=
    List.Pairwise.insertionSort_eq ((hc.receiptOrder.filter _).imp Or.inl)
  have hfold := fun order : List String =>
    foldl_observeReceipt hnodup (fun _ _ => Std.ExtTreeSet.not_mem_empty) order
  rw [← hfiltered]
  refine ⟨?_, hnodup⟩
  simp only [completedToolOutputOrder, hsorted, hfold, Outcome.bind_eq_ok, Outcome.exists_unit,
    Outcome.failIf_eq_ok, Outcome.pure_eq_ok, Except.ok.injEq, exists_eq_left', List.nil_append,
    and_true, ne_eq, Decidable.not_not]
  refine Std.ExtTreeSet.ext_mem fun id => ?_
  rw [BTreeSet.mem_insertAll]
  constructor
  · rintro (hnone | ⟨receipt, hreceipt, rfl⟩)
    · simp at hnone
    · have hkept := (List.mem_filter.mp hreceipt).2
      simp only [decide_eq_true_eq] at hkept
      exact hkept.2
  · intro hid
    obtain ⟨anchor, hanchor, rfl, hpassed⟩ := hexpected id hid
    exact Or.inr ⟨anchor, List.mem_filter.mpr ⟨hanchor, by simp [hpassed, hid]⟩, rfl⟩

/-! ## The outputs -/

/-- The step is completed, and bound to an output. -/
def StepState.OutputBound (step : StepState) : Prop :=
  step.status = .completed ∧ step.outputRecordDigest ≠ none

instance decidableOutputBound (step : StepState) : Decidable step.OutputBound :=
  inferInstanceAs (Decidable (_ ∧ _))

/-- The bytes of the output that a planning snapshot reads of a step. -/
def RunData.outputBytes (data : RunData) (step : StepState) : ℕ :=
  if step.OutputBound then
    ((step.intent.bind fun intent => data.outputs[intent.effectId]?).map fun stored =>
      stored.record.canonicalSizeBytes.toNat).getD 0
  else 0

/-- The bytes of all outputs that a planning snapshot reads. -/
def RunData.completedOutputBytes (data : RunData) (state : RunState) : ℕ :=
  BTreeMap.total data.outputBytes state.steps

/-- The output that a step is bound to, and the receipt that completed the step. -/
structure BoundOutput (data : RunData) (index : VerifiedRunIndex) (id : String) (step : StepState)
    (intent : EffectIntent) (stored : StoredToolOutput) : Prop where
  committed : step.intent = some intent
  found : data.outputs[intent.effectId]? = some stored
  digest : step.outputRecordDigest = some stored.record.recordDigest
  owner : stored.record.stepId = id
  receipt : ∃ position anchor, index.receiptEventPositions[intent.effectId]? = some position ∧
    index.receiptEvents[position]? = some anchor ∧ anchor.stepId = id ∧
    anchor.disposition = .passed ∧ step.executionReceiptId = some anchor.receiptId ∧
    step.executionReceiptDigest = some anchor.receiptDigest

theorem Chronicled.boundOutput (hc : Chronicled data index) (ha : Anchored D data index)
    (hstate : index.state = some state) {id : String} {step : StepState}
    (hstep : state.steps[id]? = some step) (hbound : step.OutputBound) :
    ∃ intent stored, BoundOutput data index id step intent stored := by
  have hprojected := hc.projected state id step hstate hstep
  obtain ⟨digest, hdigest⟩ := Option.ne_none_iff_exists'.mp hbound.2
  obtain ⟨stored, hstored, rfl⟩ := Option.map_eq_some_iff.mp (hprojected.output.symm.trans hdigest)
  obtain ⟨intent, hintent, hget⟩ := Option.bind_eq_some_iff.mp hstored
  obtain ⟨anchor, hanchor, howner⟩ := hc.outputs _ _ hget
  obtain ⟨found, hfound, hid, _⟩ := ha.committed state id intent hstate
    (RunState.intentOf_eq_some.mpr ⟨step, hstep, hintent⟩)
  obtain rfl := Option.some.inj (hanchor.symm.trans hfound)
  obtain ⟨receipt, hreceipt, hreceiptStep, hcommits, hpassed, hname, hreceiptDigest⟩ :=
    hprojected.completed hbound.1
  obtain ⟨position, hposition⟩ := List.mem_iff_getElem?.mp hreceipt
  have heffect : receipt.effectId = intent.effectId := by
    rw [StepState.Commits, hintent] at hcommits
    exact (Option.some.inj hcommits).symm
  refine ⟨intent, stored, hintent, hget, hdigest, howner.symm.trans hid, position, receipt, ?_,
    hposition, hreceiptStep, hpassed, hname, hreceiptDigest⟩
  rw [← heffect]
  exact hc.receiptAt position receipt hposition

theorem BoundOutput.bytes {id : String} {step : StepState} {intent : EffectIntent}
    {stored : StoredToolOutput} (h : BoundOutput data index id step intent stored)
    (hbound : step.OutputBound) :
    data.outputBytes step = stored.record.canonicalSizeBytes.toNat := by
  simp [RunData.outputBytes, hbound, h.committed, h.found]

/-- The selection of a step with a bound output. -/
def OutputSelection.of (id : String) (intent : EffectIntent) (stored : StoredToolOutput) :
    OutputSelection :=
  ⟨id, intent.effectId, stored.record.recordDigest⟩

theorem selectOutput_unbound {maxOutputBytes : UInt64} {acc : UInt64 × List OutputSelection}
    {id : String} {step : StepState} (h : ¬ step.OutputBound) :
    selectOutput index maxOutputBytes acc (id, step) = .ok acc := by
  unfold selectOutput
  by_cases hcompleted : step.status = .completed
  · have hnone : step.outputRecordDigest = none := by
      by_contra hsome
      exact h ⟨hcompleted, hsome⟩
    simp only [hcompleted, hnone, ne_eq, not_true_eq_false, if_false]
    rfl
  · simp only [hcompleted, ne_eq, not_false_eq_true, if_true]
    rfl

/-- **No check of a bound output fails**, save the budget. -/
theorem selectOutput_bound (hc : Chronicled data index) (hr : ReceiptCoherent D P data index)
    {maxOutputBytes total : UInt64} {selections : List OutputSelection} {id : String}
    {step : StepState} {intent : EffectIntent} {stored : StoredToolOutput}
    (hbound : step.OutputBound) (h : BoundOutput data index id step intent stored) :
    selectOutput index maxOutputBytes (total, selections) (id, step) =
      Outcome.okOr (UInt64.checkedAdd total stored.record.canonicalSizeBytes)
          .planningSnapshotBudgetExceeded >>= fun selectedOutputBytes =>
        Outcome.failIf (selectedOutputBytes > maxOutputBytes) .planningSnapshotBudgetExceeded >>=
          fun _ => .ok (selectedOutputBytes, selections ++ [OutputSelection.of id intent stored]) := by
  obtain ⟨position, anchor, hposition, hanchor, hstep, hpassed, hname, hdigest⟩ := h.receipt
  have hsettled : intent.effectId ∈ index.receiptEffectIds :=
    (hr.events _).mp (BTreeMap.mem_iff_exists.mpr ⟨position, hposition⟩)
  have hsize : index.toolOutputSizes[intent.effectId]? =
      some stored.record.canonicalSizeBytes := by
    rw [hc.sizes, h.found]
    rfl
  unfold selectOutput
  simp only [hbound.1, h.digest, h.committed, hname, hdigest, hposition, hanchor, hsize,
    hstep, hpassed, hsettled, Option.bind_some, Outcome.okOr, Outcome.failIf, ne_eq,
    not_true_eq_false, or_self, if_false, bind, Except.bind]
  rfl

theorem selectOutput_within (hc : Chronicled data index) (hr : ReceiptCoherent D P data index)
    {maxOutputBytes total : UInt64} {selections : List OutputSelection} {id : String}
    {step : StepState} {intent : EffectIntent} {stored : StoredToolOutput}
    (hbound : step.OutputBound) (h : BoundOutput data index id step intent stored)
    (hfits : total.toNat + data.outputBytes step ≤ maxOutputBytes.toNat) :
    ∃ next : UInt64, next.toNat = total.toNat + data.outputBytes step ∧
      selectOutput index maxOutputBytes (total, selections) (id, step) =
        .ok (next, selections ++ [OutputSelection.of id intent stored]) := by
  rw [h.bytes hbound] at hfits ⊢
  have hmax := maxOutputBytes.toNat_lt
  obtain ⟨next, hnext⟩ := Option.ne_none_iff_exists'.mp
    (mt UInt64.checkedAdd_eq_none.mp (show ¬ 2 ^ 64 ≤ total.toNat +
      stored.record.canonicalSizeBytes.toNat by omega))
  have hsum := UInt64.checkedAdd_eq_some.mp hnext
  refine ⟨next, hsum, ?_⟩
  rw [selectOutput_bound hc hr hbound h]
  simp only [hnext, Outcome.bind_eq_ok, Outcome.exists_unit, Outcome.okOr_eq_ok,
    Outcome.failIf_eq_ok, gt_iff_lt, UInt64.lt_iff_toNat_lt]
  exact ⟨next, rfl, by omega, rfl⟩

theorem selectOutput_exceeds (hc : Chronicled data index) (hr : ReceiptCoherent D P data index)
    {maxOutputBytes total : UInt64} {selections : List OutputSelection} {id : String}
    {step : StepState} {intent : EffectIntent} {stored : StoredToolOutput}
    (hbound : step.OutputBound) (h : BoundOutput data index id step intent stored)
    (hexceeds : maxOutputBytes.toNat < total.toNat + data.outputBytes step) :
    selectOutput index maxOutputBytes (total, selections) (id, step) =
      Outcome.fail .planningSnapshotBudgetExceeded := by
  rw [h.bytes hbound] at hexceeds
  rw [selectOutput_bound hc hr hbound h]
  cases hnext : UInt64.checkedAdd total stored.record.canonicalSizeBytes with
  | none => rfl
  | some next =>
    have hsum := UInt64.checkedAdd_eq_some.mp hnext
    have hover : next > maxOutputBytes := by
      rw [gt_iff_lt, UInt64.lt_iff_toNat_lt]
      omega
    simp only [Outcome.okOr, Outcome.failIf, hover, if_true, bind, Except.bind]
    rfl

/-- The steps whose outputs are selected. -/
def boundSteps (entries : List (String × StepState)) : List String :=
  (entries.filter fun entry => entry.2.OutputBound).map Prod.fst

/-- The selection names the bound output of its step. -/
structure OutputSelection.Names (data : RunData) (index : VerifiedRunIndex) (state : RunState)
    (selection : OutputSelection) (step : StepState) (intent : EffectIntent)
    (stored : StoredToolOutput) : Prop where
  projected : state.steps[selection.stepId]? = some step
  bound : step.OutputBound
  output : BoundOutput data index selection.stepId step intent stored
  effect : selection.effectId = intent.effectId
  expected : selection.expectedRecordDigest = stored.record.recordDigest

theorem OutputSelection.Names.unique {selection : OutputSelection} {step step' : StepState}
    {intent intent' : EffectIntent} {stored stored' : StoredToolOutput}
    (h : selection.Names data index state step intent stored)
    (h' : selection.Names data index state step' intent' stored') :
    step = step' ∧ intent = intent' ∧ stored = stored' := by
  obtain rfl := Option.some.inj (h.projected.symm.trans h'.projected)
  obtain rfl := Option.some.inj (h.output.committed.symm.trans h'.output.committed)
  exact ⟨rfl, rfl, Option.some.inj (h.output.found.symm.trans h'.output.found)⟩

/-- **The outputs within the budget are selected**, in the order of the steps. -/
theorem foldl_selectOutput (hc : Chronicled data index) (ha : Anchored D data index)
    (hr : ReceiptCoherent D P data index) (hstate : index.state = some state)
    {maxOutputBytes : UInt64} {entries : List (String × StepState)}
    (hentries : ∀ entry ∈ entries, state.steps[entry.1]? = some entry.2) (total : UInt64)
    (selections : List OutputSelection) (hfits : total.toNat +
      (entries.map fun entry => data.outputBytes entry.2).sum ≤ maxOutputBytes.toNat) :
    ∃ total' more, Outcome.foldl (selectOutput index maxOutputBytes) (total, selections) entries =
        .ok (total', selections ++ more) ∧
      more.map OutputSelection.stepId = boundSteps entries ∧
      ∀ selection ∈ more, ∃ step intent stored, selection.Names data index state step intent stored := by
  induction entries generalizing total selections with
  | nil => exact ⟨total, [], by rw [List.append_nil]; rfl, rfl, by simp⟩
  | cons entry entries ih =>
    obtain ⟨id, step⟩ := entry
    simp only [List.map_cons, List.sum_cons] at hfits
    have hstep := hentries (id, step) List.mem_cons_self
    have hrest : ∀ entry ∈ entries, state.steps[entry.1]? = some entry.2 := fun entry hentry =>
      hentries entry (List.mem_cons_of_mem _ hentry)
    by_cases hbound : step.OutputBound
    · obtain ⟨intent, stored, houtput⟩ := hc.boundOutput ha hstate hstep hbound
      obtain ⟨next, hnext, hselect⟩ := selectOutput_within hc hr hbound houtput
        (show total.toNat + data.outputBytes step ≤ maxOutputBytes.toNat by omega)
      obtain ⟨total', more, hfold, hsteps, hnames⟩ :=
        ih hrest next (selections ++ [.of id intent stored]) (by omega)
      refine ⟨total', .of id intent stored :: more, ?_, ?_, ?_⟩
      · simp only [Outcome.foldl, Outcome.bind_eq_ok]
        refine ⟨_, hselect, hfold.trans ?_⟩
        rw [List.append_assoc]
        rfl
      · rw [List.map_cons, hsteps]
        simp [boundSteps, hbound, OutputSelection.of]
      · intro selection hselection
        rcases List.mem_cons.mp hselection with rfl | hselection
        · exact ⟨step, intent, stored, hstep, hbound, houtput, rfl, rfl⟩
        · exact hnames selection hselection
    · have hzero : data.outputBytes step = 0 := if_neg hbound
      obtain ⟨total', more, hfold, hsteps, hnames⟩ := ih hrest total selections (by omega)
      refine ⟨total', more, ?_, ?_, hnames⟩
      · simp only [Outcome.foldl, selectOutput_unbound hbound, Outcome.bind_eq_ok]
        exact ⟨_, rfl, hfold⟩
      · rw [hsteps]
        simp [boundSteps, hbound]

/-- **Outputs over the budget are refused.** -/
theorem foldl_selectOutput_exceeds (hc : Chronicled data index) (ha : Anchored D data index)
    (hr : ReceiptCoherent D P data index) (hstate : index.state = some state)
    {maxOutputBytes : UInt64} {entries : List (String × StepState)}
    (hentries : ∀ entry ∈ entries, state.steps[entry.1]? = some entry.2) (total : UInt64)
    (selections : List OutputSelection) (htotal : total.toNat ≤ maxOutputBytes.toNat)
    (hexceeds : maxOutputBytes.toNat < total.toNat +
      (entries.map fun entry => data.outputBytes entry.2).sum) :
    Outcome.foldl (selectOutput index maxOutputBytes) (total, selections) entries =
      Outcome.fail .planningSnapshotBudgetExceeded := by
  induction entries generalizing total selections with
  | nil =>
    simp at hexceeds
    omega
  | cons entry entries ih =>
    obtain ⟨id, step⟩ := entry
    simp only [List.map_cons, List.sum_cons] at hexceeds
    have hstep := hentries (id, step) List.mem_cons_self
    have hrest : ∀ entry ∈ entries, state.steps[entry.1]? = some entry.2 := fun entry hentry =>
      hentries entry (List.mem_cons_of_mem _ hentry)
    by_cases hbound : step.OutputBound
    · obtain ⟨intent, stored, houtput⟩ := hc.boundOutput ha hstate hstep hbound
      by_cases hfits : total.toNat + data.outputBytes step ≤ maxOutputBytes.toNat
      · obtain ⟨next, hnext, hselect⟩ := selectOutput_within hc hr hbound houtput hfits
        rw [Outcome.foldl, hselect]
        exact ih hrest next _ (by omega) (by omega)
      · rw [Outcome.foldl, selectOutput_exceeds hc hr hbound houtput (Nat.lt_of_not_le hfits)]
        rfl
    · have hzero : data.outputBytes step = 0 := if_neg hbound
      rw [Outcome.foldl, selectOutput_unbound hbound]
      exact ih hrest total selections htotal (by omega)

theorem loadSelected_eq (ha : Anchored D data index) (ho : OutputCoherent D data index)
    {selection : OutputSelection} {step : StepState} {intent : EffectIntent}
    {stored : StoredToolOutput} (h : selection.Names data index state step intent stored)
    {loaded : BTreeMap String ToolOutputRecord} (hnew : selection.stepId ∉ loaded) :
    loadSelected D index (fun effectId => pure data.outputs[effectId]?) loaded selection =
      .ok (loaded.insert selection.stepId stored.record) := by
  have hfound := h.output.found
  have hdigest := ha.outputs intent.effectId
  rw [hfound, Option.map_some] at hdigest
  simp only [loadSelected, h.effect, h.expected, Outcome.bind_eq_ok, Outcome.exists_unit,
    Outcome.pure_eq_ok, exists_eq_left', ho.point, Outcome.okOr_eq_ok,
    Outcome.failIf_eq_ok, BTreeMap.insertNew_eq_ok, true_and]
  exact ⟨stored, hfound, by simp [h.output.owner, hdigest], hnew, rfl⟩

/-- **Every selected output is loaded.** -/
theorem foldl_loadSelected (ha : Anchored D data index) (ho : OutputCoherent D data index)
    {selections : List OutputSelection} (hnodup : (selections.map OutputSelection.stepId).Nodup)
    (hnames : ∀ selection ∈ selections, ∃ step intent stored,
      selection.Names data index state step intent stored)
    (loaded : BTreeMap String ToolOutputRecord)
    (hnew : ∀ selection ∈ selections, selection.stepId ∉ loaded) :
    ∃ loaded', Outcome.foldl (loadSelected D index fun effectId => pure data.outputs[effectId]?)
        loaded selections = .ok loaded' ∧
      ∀ id record, loaded'[id]? = some record ↔ loaded[id]? = some record ∨
        ∃ selection ∈ selections, selection.stepId = id ∧ ∃ step intent stored,
          selection.Names data index state step intent stored ∧ stored.record = record := by
  induction selections generalizing loaded with
  | nil => exact ⟨loaded, rfl, by simp⟩
  | cons selection selections ih =>
    obtain ⟨hhead, htail⟩ := List.nodup_cons.mp hnodup
    obtain ⟨step, intent, stored, hselection⟩ := hnames selection List.mem_cons_self
    have hfree := hnew selection List.mem_cons_self
    have hfresh : ∀ other ∈ selections,
        other.stepId ∉ loaded.insert selection.stepId stored.record := by
      intro other hother hmem
      rcases BTreeMap.mem_insert_iff.mp hmem with heq | hold
      · exact hhead (heq ▸ List.mem_map_of_mem hother)
      · exact hnew other (List.mem_cons_of_mem _ hother) hold
    obtain ⟨loaded', hfold, hlookup⟩ := ih htail
      (fun other hother => hnames other (List.mem_cons_of_mem _ hother)) _ hfresh
    refine ⟨loaded', ?_, fun id record => ?_⟩
    · rw [Outcome.foldl, loadSelected_eq ha ho hselection hfree]
      exact hfold
    · rw [hlookup, BTreeMap.get_insert]
      simp only [List.mem_cons, exists_eq_or_imp]
      by_cases hid : selection.stepId = id
      · subst hid
        rw [if_pos rfl, BTreeMap.get_eq_none_iff.mpr hfree]
        constructor
        · rintro (hsame | hrest)
          · exact Or.inr (Or.inl ⟨rfl, step, intent, stored, hselection, Option.some.inj hsame⟩)
          · exact Or.inr (Or.inr hrest)
        · rintro (hnone | ⟨_, _, _, _, hother, rfl⟩ | hrest)
          · simp at hnone
          · obtain ⟨_, _, rfl⟩ := hselection.unique hother
            exact Or.inl rfl
          · exact Or.inr hrest
      · rw [if_neg hid]
        simp only [hid, false_and, false_or]

/-! ## The snapshot -/

/-- What a planning snapshot says of a run: the steps in the order in which the journal plans them,
the outputs of the completed steps, and these steps in the order of their passed receipts. -/
structure PlannedFrom (data : RunData) (state : RunState) (snapshot : RunPlanningSnapshot) : Prop where
  projection : snapshot.state = state
  steps : snapshot.planningStepOrder.Perm state.steps.keys
  planned : snapshot.planningStepOrder = (data.records.flatMap EventRecord.planned).map Prod.snd
  chronological : (data.records.flatMap EventRecord.planned).Pairwise fun a b => a.1.before b.1
  bound : ∀ id : String, id ∈ snapshot.completedToolOutputs ↔
    ∃ step : StepState, state.steps[id]? = some step ∧ step.OutputBound
  outputs : ∀ (id : String) (record : ToolOutputRecord),
    snapshot.completedToolOutputs[id]? = some record → ∃ (step : StepState) (intent : EffectIntent)
      (sequence : UInt64), state.steps[id]? = some step ∧ step.intent = some intent ∧
      data.outputs[intent.effectId]? = some ⟨sequence, record⟩ ∧
      step.outputRecordDigest = some record.recordDigest
  order : snapshot.completedToolOutputOrder.Perm snapshot.completedToolOutputs.keys
  receipts : snapshot.completedToolOutputOrder =
    (data.records.filterMap fun record => record.event.body.passedStep).filter
      (· ∈ snapshot.completedToolOutputs)

theorem mem_boundSteps {id : String} : id ∈ boundSteps state.steps.toList ↔
    ∃ step : StepState, state.steps[id]? = some step ∧ step.OutputBound := by
  simp only [boundSteps, List.mem_map, List.mem_filter, decide_eq_true_eq]
  constructor
  · rintro ⟨⟨id, step⟩, ⟨hmem, hbound⟩, rfl⟩
    exact ⟨step, Std.ExtTreeMap.mem_toList_iff_getElem?_eq_some.mp hmem, hbound⟩
  · rintro ⟨step, hstep, hbound⟩
    exact ⟨(id, step), ⟨Std.ExtTreeMap.mem_toList_iff_getElem?_eq_some.mpr hstep, hbound⟩, rfl⟩

theorem boundSteps_nodup : (boundSteps state.steps.toList).Nodup := by
  have hkeys := Std.ExtTreeMap.nodup_keys (t := state.steps)
  rw [← Std.ExtTreeMap.map_fst_toList_eq_keys] at hkeys
  exact hkeys.sublist (List.filter_sublist.map _)

theorem completedOutputBytes_eq : data.completedOutputBytes state =
    (state.steps.toList.map fun entry => data.outputBytes entry.2).sum := by
  rw [RunData.completedOutputBytes, BTreeMap.total, BTreeMap.vals, List.map_map]
  rfl

/-- **The outputs within the budget are selected and loaded**: those of all bound steps. -/
theorem loaded_outputs (hcoherent : Coherent D P data index) (ha : Anchored D data index)
    (hc : Chronicled data index) (hstate : index.state = some state) {maxOutputBytes : UInt64}
    (hfits : data.completedOutputBytes state ≤ maxOutputBytes.toNat) :
    ∃ total selections loaded,
      Outcome.foldl (selectOutput index maxOutputBytes) (0, []) state.steps.toList =
        .ok (total, selections) ∧
      Outcome.foldl (loadSelected D index fun effectId => pure data.outputs[effectId]?) ∅
        selections = .ok loaded ∧
      (∀ id : String, id ∈ loaded ↔
        ∃ step : StepState, state.steps[id]? = some step ∧ step.OutputBound) ∧
      ∀ (id : String) (record : ToolOutputRecord), loaded[id]? = some record →
        ∃ step intent stored, state.steps[id]? = some step ∧
          BoundOutput data index id step intent stored ∧ stored.record = record := by
  obtain ⟨total, selections, hselected, hsteps, hnames⟩ := foldl_selectOutput hc ha
    hcoherent.receipt hstate
    (fun entry hentry => Std.ExtTreeMap.mem_toList_iff_getElem?_eq_some.mp hentry) 0 []
    (by rw [← completedOutputBytes_eq]; simpa using hfits)
  have hnodup : (selections.map OutputSelection.stepId).Nodup := by
    rw [hsteps]
    exact boundSteps_nodup
  obtain ⟨loaded, hloaded, hlookup⟩ := foldl_loadSelected ha hcoherent.output hnodup hnames ∅
    fun _ _ => Std.ExtTreeMap.not_mem_empty
  refine ⟨total, selections, loaded, hselected, hloaded, fun id => ?_, fun id record hget => ?_⟩
  · rw [← mem_boundSteps, ← hsteps, List.mem_map]
    constructor
    · intro hmem
      obtain ⟨record, hget⟩ := BTreeMap.mem_iff_exists.mp hmem
      rcases (hlookup id record).mp hget with hnone | ⟨selection, hselection, hid, _⟩
      · simp at hnone
      · exact ⟨selection, hselection, hid⟩
    · rintro ⟨selection, hselection, rfl⟩
      obtain ⟨step, intent, stored, h⟩ := hnames selection hselection
      exact BTreeMap.mem_iff_exists.mpr ⟨stored.record, (hlookup _ _).mpr
        (Or.inr ⟨selection, hselection, rfl, step, intent, stored, h, rfl⟩)⟩
  · rcases (hlookup id record).mp hget with hnone |
      ⟨selection, _, rfl, step, intent, stored, h, hrecord⟩
    · simp at hnone
    · exact ⟨step, intent, stored, h.projected, h.output, hrecord⟩

/-- **Within the budget** the snapshot is built. -/
theorem buildPlanningSnapshot_within (hcoherent : Coherent D P data index)
    (ha : Anchored D data index) (hc : Chronicled data index) (hstate : index.state = some state)
    {maxOutputBytes : UInt64} (hfits : data.completedOutputBytes state ≤ maxOutputBytes.toNat) :
    ∃ snapshot, buildPlanningSnapshot D index index.head maxOutputBytes
        (fun effectId => pure data.outputs[effectId]?) = .ok (some snapshot) ∧
      PlannedFrom data state snapshot := by
  obtain ⟨hplanned, hperm⟩ := planningStepOrder_eq hc hcoherent.journal hstate
  obtain ⟨total, selections, loaded, hselected, hloaded, hbound, houtputs⟩ :=
    loaded_outputs hcoherent ha hc hstate hfits
  have hkeys : ∀ id : String, id ∈ keySet loaded ↔ id ∈ loaded := by
    intro id
    rw [keySet, BTreeSet.mem_ofList_iff, Std.ExtTreeMap.mem_keys]
  -- every loaded output was completed by a passed receipt
  have hpassed : ∀ id ∈ keySet loaded, ∃ anchor ∈ index.receiptEvents,
      anchor.stepId = id ∧ anchor.disposition = .passed := by
    intro id hid
    obtain ⟨step, hstep, hcompleted⟩ := (hbound id).mp ((hkeys id).mp hid)
    obtain ⟨anchor, hanchor, howner, _, hdisposition, _⟩ :=
      (hc.projected state id step hstate hstep).completed hcompleted.1
    exact ⟨anchor, hanchor, howner, hdisposition⟩
  obtain ⟨horder, horderNodup⟩ := completedToolOutputOrder_eq hc hpassed
  simp only [hkeys] at horder horderNodup
  refine ⟨⟨state, loaded, (data.records.flatMap EventRecord.planned).map Prod.snd,
    (data.records.filterMap fun record => record.event.body.passedStep).filter (· ∈ loaded)⟩,
    ?_, ?_⟩
  · simp only [buildPlanningSnapshot, hstate, hplanned, hselected, hloaded, horder,
      Outcome.bind_eq_ok, Outcome.exists_unit, Outcome.failIf_eq_ok, Outcome.pure_eq_ok,
      Except.ok.injEq, exists_eq_left', ne_eq, not_true_eq_false, not_false_eq_true, true_and]
  · refine ⟨rfl, hperm, rfl, hc.chronological, hbound, fun id record hget => ?_, ?_, rfl⟩
    · obtain ⟨step, intent, ⟨sequence, _⟩, hstep, h, rfl⟩ := houtputs id record hget
      exact ⟨step, intent, sequence, hstep, h.committed, h.found, h.digest⟩
    · refine (List.perm_ext_iff_of_nodup horderNodup Std.ExtTreeMap.nodup_keys).mpr fun id => ?_
      rw [Std.ExtTreeMap.mem_keys, List.mem_filter, decide_eq_true_eq, and_iff_right_iff_imp,
        ← hc.passed_steps]
      intro hid
      obtain ⟨anchor, hanchor, rfl, hdisposition⟩ := hpassed id ((hkeys id).mpr hid)
      exact List.mem_map_of_mem (List.mem_filter.mpr ⟨hanchor, by simp [hdisposition]⟩)

/-- **Over the budget** it is refused. -/
theorem buildPlanningSnapshot_exceeds (hcoherent : Coherent D P data index)
    (ha : Anchored D data index) (hc : Chronicled data index) (hstate : index.state = some state)
    {maxOutputBytes : UInt64} (hexceeds : maxOutputBytes.toNat < data.completedOutputBytes state) :
    buildPlanningSnapshot D index index.head maxOutputBytes
      (fun effectId => pure data.outputs[effectId]?) =
        Outcome.fail .planningSnapshotBudgetExceeded := by
  have hselected := foldl_selectOutput_exceeds hc ha hcoherent.receipt hstate
    (fun entry hentry => Std.ExtTreeMap.mem_toList_iff_getElem?_eq_some.mp hentry) 0 []
    (Nat.zero_le _) (by rw [← completedOutputBytes_eq]; simpa using hexceeds)
  simp only [buildPlanningSnapshot, hstate, (planningStepOrder_eq hc hcoherent.journal hstate).1,
    hselected, Outcome.failIf, ne_eq, not_true_eq_false, if_false]
  rfl

/-- **The planning snapshot.** On every store that appends have filled, the planning snapshot at the
current head is never corrupt: there is none before the run is created; it is refused exactly when
the outputs of the completed steps are larger than the budget; otherwise it has the steps in the order
of the journal, the outputs of the completed steps, and these in the order of their receipts. -/
theorem planning_snapshot_exact {store : MemoryRunStore} (h : ReachedStore D P store)
    (maxOutputBytes : UInt64) :
    (store.projection = none →
      store.loadPlanningSnapshot D store.index.head maxOutputBytes = .ok none) ∧
    ∀ state, store.projection = some state →
      (maxOutputBytes.toNat < store.completedOutputBytes state →
        store.loadPlanningSnapshot D store.index.head maxOutputBytes =
          Outcome.fail .planningSnapshotBudgetExceeded) ∧
      (store.completedOutputBytes state ≤ maxOutputBytes.toNat → ∃ snapshot,
        store.loadPlanningSnapshot D store.index.head maxOutputBytes = .ok (some snapshot) ∧
          PlannedFrom store.toRunData state snapshot) := by
  have hcoherent := h.coherent
  obtain ⟨ha, hc⟩ := h.chronicled
  rw [hcoherent.journal.projection]
  refine ⟨fun hnone => ?_, fun state hstate => ⟨?_, ?_⟩⟩
  · simp only [MemoryRunStore.loadPlanningSnapshot, buildPlanningSnapshot, hnone, Outcome.failIf,
      ne_eq, not_true_eq_false, if_false]
    rfl
  · exact buildPlanningSnapshot_exceeds hcoherent ha hc hstate
  · exact buildPlanningSnapshot_within hcoherent ha hc hstate

/-- The two steps of the sample run, in the order in which they were planned; no output is bound, so
that no budget is too small. -/
theorem planning_snapshot_sample : ∃ state snapshot, (checkedStore 10).projection = some state ∧
    (checkedStore 10).loadPlanningSnapshot (tableDigests checkedTable) (checkedStore 10).index.head 0 =
      .ok (some snapshot) ∧
    PlannedFrom (checkedStore 10).toRunData state snapshot ∧
    snapshot.planningStepOrder = ["step-x", "step-y"] := by
  have hbytes : (checkedStore 10).projection.any (fun state =>
      (checkedStore 10).completedOutputBytes state = 0 ∧
        ((checkedStore 10).records.flatMap EventRecord.planned).map Prod.snd =
          ["step-x", "step-y"]) = true := by
    decide +kernel
  obtain ⟨state, hstate, hfields⟩ := (Option.any_eq_true _ _).mp hbytes
  obtain ⟨hzero, hsteps⟩ := of_decide_eq_true hfields
  have hfits : (checkedStore 10).completedOutputBytes state ≤ (0 : UInt64).toNat := by
    rw [hzero]
    exact Nat.zero_le _
  obtain ⟨_, hlaw⟩ := planning_snapshot_exact (checkedStore_reached 10) 0
  obtain ⟨snapshot, hloaded, hplanned⟩ := (hlaw state hstate).2 hfits
  exact ⟨state, snapshot, hstate, hloaded, hplanned, hplanned.planned.trans hsteps⟩

end Xgeny
