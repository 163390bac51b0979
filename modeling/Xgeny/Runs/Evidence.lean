import Xgeny.Runs.AtMostOnce

set_option autoImplicit false

/-!
# Evidence discipline

What the evidence of a step says about its status. The output record is written once, when the
effect succeeds; the receipt fields are written once, when the verification is recorded; a retry
after a proof that the effect was not applied starts from a step that has neither.

* `StepStatus.Started`, `StepStatus.Observed`: the statuses that an effect start, or an observation
  of the effect, must have led to;
* `Evidenced`: the invariant of one step;
* `StepMove.evidenced`: every lifecycle event keeps it;
* **`evidence_discipline`**: the law, for every step of a reachable state.
-/

namespace Xgeny

/-- The effect was observed and was not found to have failed. -/
def StepStatus.Observed (status : StepStatus) : Prop :=
  status = .validating ∨ status = .completed

/-- The effect was started, and it is not proved that it was not applied. -/
def StepStatus.Started (status : StepStatus) : Prop :=
  status = .executing ∨ status = .effectUnknown ∨ status = .reconciling ∨ status.Observed

/-- How the evidence fields of a step, its profile and its status hang together. -/
structure Evidenced (step : StepState) : Prop where
  planned : step.status = .planned → step.outputRecordDigest = none
  output : ∀ digest, step.outputRecordDigest = some digest →
    step.toolOutputProfile = some toolOutputProfileV1 ∧ isSha256Digest digest = true
  profile : step.toolOutputProfile = some toolOutputProfileV1 → step.status.Observed →
    step.effectEvidenceDigest.isSome = true ∧ step.outputRecordDigest.isSome = true
  observed : step.status.Observed →
    step.effectEvidenceDigest.isSome = true ∨ step.reconciliationEvidenceDigest.isSome = true
  started : step.status.Started → 1 ≤ step.attempts.toNat
  receipt : step.executionReceiptId.isSome = step.executionReceiptDigest.isSome
  verified : step.executionReceiptId.isSome = true → step.status.Terminal

theorem Evidenced.fresh {id : String} {step : StepState} (h : step.IsFresh id) :
    Evidenced step := by
  rw [h]
  constructor <;> simp [StepState.fresh, StepStatus.Observed, StepStatus.Started]

theorem Evidenced.commit {step : StepState} (h : Evidenced step) (hstatus : step.status = .planned)
    (intent : EffectIntent) :
    Evidenced { step with intent := some intent, status := .intentCommitted } := by
  have hnone := h.planned hstatus
  have hreceipt : ¬ step.executionReceiptId.isSome = true := by
    intro hsome
    have hterminal := h.verified hsome
    simp [StepStatus.Terminal, hstatus] at hterminal
  constructor
  · exact fun _ => hnone
  · simp [hnone]
  · simp [StepStatus.Observed]
  · simp [StepStatus.Observed]
  · simp [StepStatus.Started, StepStatus.Observed]
  · exact h.receipt
  · exact fun hsome => absurd hsome hreceipt

theorem checkOutputRecord_eq_ok {step : StepState} {effectId : String} {output : Option String}
    (h : checkOutputRecord step effectId output .validating = .ok ()) :
    (∀ digest, output = some digest →
      step.toolOutputProfile = some toolOutputProfileV1 ∧ isSha256Digest digest = true) ∧
      (step.toolOutputProfile = some toolOutputProfileV1 → output.isSome = true) := by
  cases output with
  | none =>
    simp only [checkOutputRecord, Outcome.failIf_eq_ok, not_and] at h
    exact ⟨by simp, fun hprofile => absurd trivial (h hprofile)⟩
  | some digest =>
    simp only [checkOutputRecord, Outcome.bind_eq_ok, Outcome.exists_unit, Outcome.failIf_eq_ok,
      ne_eq, Decidable.not_not] at h
    refine ⟨fun d hd => ?_, by simp⟩
    rw [← Option.some.inj hd]
    exact h

/-- **Step lemma.** Every lifecycle event keeps the discipline. -/
theorem StepMove.evidenced {body : RunEventBody} {id : String} {step step' : StepState}
    (hmove : StepMove body id step step') (h : Evidenced step) : Evidenced step' := by
  -- a step that still moves has no receipt, and one that has left `planned` stays out of it
  have hreceipt : ¬ step.executionReceiptId.isSome = true :=
    fun hsome => hmove.evolves.live (h.verified hsome)
  have hleft : ∀ {P : Prop}, step'.status = .planned → P :=
    fun hplanned => absurd hplanned hmove.evolves.left
  cases hmove with
  | materialUnavailable heffect hstatus =>
    exact ⟨hleft, h.output, by simp [StepStatus.Observed], by simp [StepStatus.Observed],
      by simp [StepStatus.Started, StepStatus.Observed], h.receipt, fun hsome => absurd hsome hreceipt⟩
  | executionStarted heffect hstatus hattempts =>
    refine ⟨hleft, h.output, by simp [StepStatus.Observed], by simp [StepStatus.Observed],
      fun _ => ?_, h.receipt, fun hsome => absurd hsome hreceipt⟩
    simp only [hattempts]
    omega
  | succeeded heffect hstatus houtput =>
    obtain ⟨hdigest, hrequired⟩ := checkOutputRecord_eq_ok houtput
    exact ⟨hleft, hdigest, fun hprofile _ => ⟨rfl, hrequired hprofile⟩, fun _ => Or.inl rfl,
      fun _ => h.started (Or.inl hstatus), h.receipt, fun hsome => absurd hsome hreceipt⟩
  | failed heffect hstatus =>
    exact ⟨hleft, by simp, by simp [StepStatus.Observed], by simp [StepStatus.Observed],
      by simp [StepStatus.Started, StepStatus.Observed], h.receipt, fun hsome => absurd hsome hreceipt⟩
  | becameUnknown heffect hstatus =>
    exact ⟨hleft, h.output, by simp [StepStatus.Observed], by simp [StepStatus.Observed],
      fun _ => h.started (Or.inl hstatus), h.receipt, fun hsome => absurd hsome hreceipt⟩
  | reconciliationStarted heffect hstatus =>
    exact ⟨hleft, h.output, by simp [StepStatus.Observed], by simp [StepStatus.Observed],
      fun _ => h.started (Or.inr (Or.inl hstatus)), h.receipt, fun hsome => absurd hsome hreceipt⟩
  | reconciliationResolved heffect hstatus hprofile =>
    rename_i resolution
    have hstarted := h.started (Or.inr (Or.inr (Or.inl hstatus)))
    refine ⟨hleft, h.output, fun hv1 hobserved => ?_, fun _ => Or.inr rfl, fun _ => hstarted,
      h.receipt, fun hsome => absurd hsome hreceipt⟩
    -- a required output cannot be recovered, so the effect was not proved applied
    cases resolution with
    | provedApplied => exact absurd ⟨rfl, hv1⟩ hprofile
    | provedNotApplied | failed =>
      simp [StepStatus.Observed, ReconciliationResolution.nextStatus] at hobserved
  | manualRequired heffect hstatus =>
    exact ⟨hleft, h.output, by simp [StepStatus.Observed], by simp [StepStatus.Observed],
      by simp [StepStatus.Started, StepStatus.Observed], h.receipt, fun hsome => absurd hsome hreceipt⟩
  | verificationPassed hstatus =>
    have hobserved : step.status.Observed := Or.inl hstatus
    exact ⟨hleft, h.output, fun hprofile _ => h.profile hprofile hobserved,
      fun _ => h.observed hobserved, fun _ => h.started (Or.inr (Or.inr (Or.inr hobserved))),
      h.receipt, fun _ => Or.inl rfl⟩
  | verificationFailed hstatus =>
    exact ⟨hleft, h.output, by simp [StepStatus.Observed], by simp [StepStatus.Observed],
      by simp [StepStatus.Started, StepStatus.Observed], h.receipt, fun _ => Or.inr (Or.inl rfl)⟩
  | verificationRecorded heffect hstatus =>
    rename_i disposition
    have hobserved : step.status.Observed := Or.inl hstatus
    have hterminal : disposition.nextStatus.Terminal := by
      cases disposition <;> simp [VerificationDisposition.nextStatus, StepStatus.Terminal]
    exact ⟨hleft, h.output, fun hprofile _ => h.profile hprofile hobserved,
      fun _ => h.observed hobserved, fun _ => h.started (Or.inr (Or.inr (Or.inr hobserved))),
      rfl, fun _ => hterminal⟩

/-- **Run lemma.** -/
theorem reachable_evidenced {D : Digests} {state : RunState} (h : Reachable D state) {id : String}
    {step : StepState} (hstep : state.steps[id]? = some step) : Evidenced step :=
  reachable_moves_induction (P := fun _ step => Evidenced step)
    (fun _ _ hfresh => Evidenced.fresh hfresh) (fun _ _ intent hI hstatus => hI.commit hstatus intent)
    (fun _ _ _ _ hI hmove => hmove.evidenced hI) h id step hstep

/-- **Evidence discipline.** For every step of a reachable state: an output record is there only
under the first tool-output profile, and its digest is canonical; under that profile a step that is
validated or completed has both its evidence and its output record; a step that is validated or
completed was started, and the effect was observed or reconciled; the receipt id and the receipt
digest are set together, and only in a terminal status. -/
theorem evidence_discipline {D : Digests} {state : RunState} (h : Reachable D state) (id : String)
    (step : StepState) (hstep : state.steps[id]? = some step) :
    (∀ digest, step.outputRecordDigest = some digest →
      step.toolOutputProfile = some toolOutputProfileV1 ∧ isSha256Digest digest = true) ∧
      (step.toolOutputProfile = some toolOutputProfileV1 →
        step.status = .validating ∨ step.status = .completed →
        step.effectEvidenceDigest.isSome = true ∧ step.outputRecordDigest.isSome = true) ∧
      (step.status = .validating ∨ step.status = .completed →
        (step.effectEvidenceDigest.isSome = true ∨ step.reconciliationEvidenceDigest.isSome = true) ∧
          1 ≤ step.attempts.toNat) ∧
      step.executionReceiptId.isSome = step.executionReceiptDigest.isSome ∧
      (step.executionReceiptId.isSome = true →
        step.status = .completed ∨ step.status = .failed ∨ step.status = .manualRequired) := by
  have hI := reachable_evidenced h hstep
  refine ⟨hI.output, hI.profile, fun hobserved => ⟨hI.observed hobserved, ?_⟩, hI.receipt, hI.verified⟩
  exact hI.started (Or.inr (Or.inr (Or.inr hobserved)))

/-- The step of the sample run is completed, so its effect was observed, on its second start. -/
theorem evidence_discipline_sample : ∃ state step,
    Reachable (tableDigests sampleTable) state ∧ state.steps["step-a"]? = some step ∧
      step.status = .completed ∧ 1 ≤ step.attempts.toNat ∧
      (step.effectEvidenceDigest.isSome = true ∨
        step.reconciliationEvidenceDigest.isSome = true) := by
  have hrun : (replay (tableDigests sampleTable) sampleJournal).value?.any (fun state =>
      state.steps["step-a"]?.any fun step => decide (step.status = .completed)) = true := by
    decide +kernel
  obtain ⟨state, hreplay, hstate⟩ := Outcome.exists_ok_of_any hrun
  obtain ⟨step, hstep, hcompleted⟩ := (Option.any_eq_true _ _).mp hstate
  have hstatus := of_decide_eq_true hcompleted
  have hlaw := (evidence_discipline ⟨_, hreplay⟩ "step-a" step hstep).2.2.1 (Or.inr hstatus)
  exact ⟨state, step, ⟨_, hreplay⟩, hstep, hstatus, hlaw.2, hlaw.1⟩

end Xgeny
