import Mathlib.Data.List.TakeWhile
import Xgeny.Admission.Admitted
import Xgeny.Runs.AtMostOnce

set_option autoImplicit false

/-!
# Outcomes that the reducer accepts

The runtime commits what it observes of an effect as an event, and the reducer decides on that event
by itself. Here the store has no faults, so that an append fails only when the reducer refuses the
event, and a call of `drive_step` runs to its end.

* `FaultlessAnswers`: the answers of such a store;
* `Ends`: how an append ends, by what the reducer says of its event;
* `finishReconciliation_ends`: a reconciliation settles the step unless its sink proved an effect
  applied whose output has to be kept;
* **`drive_step_settles_iff`**: the same for every status that can be driven.
-/

namespace Xgeny

open Prog (only_bind only_lift only_mapErr only_pure)

/-! ## Evidence and reasons -/

theorem trimmed_ne_empty {s : String} {c : Char} (hc : c ∈ s.toList)
    (hspace : isWhitespace c = false) : trimmed s ≠ "" := by
  intro h
  have hnil : (s.toList.dropWhile isWhitespace).reverse.dropWhile isWhitespace = [] := by
    rw [trimmed, ← String.toList_inj, String.toList_ofList] at h
    exact List.reverse_eq_nil_iff.mp h
  have hall := List.dropWhile_eq_nil_iff.mp hnil
  rw [← List.takeWhile_append_dropWhile (p := isWhitespace) (l := s.toList)] at hc
  rcases List.mem_append.mp hc with hfront | hback
  · simp [List.mem_takeWhile_imp hfront] at hspace
  · simp [hall c (List.mem_reverse.mpr hback)] at hspace

theorem trimmed_digest {value : String} (h : isSha256Digest value = true) : trimmed value ≠ "" := by
  obtain ⟨rest, hrest, _⟩ := (Option.any_eq_true _ _).mp h
  obtain ⟨front, hsplit, hfront⟩ := List.dropPrefix?_eq_some_iff.mp hrest
  obtain rfl := eq_of_beq hfront
  rw [bytes_eq_encode, bytes_eq_encode] at hsplit
  obtain ⟨b, hchars, _⟩ := Utf8.prefix_of_encode hsplit.symm
  refine trimmed_ne_empty (c := 's') ?_ (by decide)
  rw [hchars]
  exact List.mem_append_left _ (by decide)

theorem requireObservationValue_ok {observation field value : String} (h : trimmed value ≠ "") :
    requireObservationValue observation field value = .ok value := by
  simp only [requireObservationValue, Outcome.bind_eq_ok, Outcome.exists_unit,
    Outcome.failIf_eq_ok, Outcome.pure_eq_ok, and_true]
  exact h

theorem AdapterExecutionUnknownReason.trimmed_code (reason : AdapterExecutionUnknownReason) :
    trimmed reason.code ≠ "" := by
  cases reason <;> decide

theorem AdapterReconciliationInconclusiveReason.trimmed_code
    (reason : AdapterReconciliationInconclusiveReason) : trimmed reason.code ≠ "" := by
  cases reason <;> decide

/-! ## What the reducer accepts -/

section Reducer

variable {D : Digests} {state : RunState} {id : String} {step step' : StepState}
  {body : RunEventBody}

/-- **The reducer accepts every move of a step**, a start apart: that one also counts against the
budget of the loop. -/
theorem applyBody_of_move (hstep : state.steps[id]? = some step)
    (hmove : StepMove body id step step')
    (hstart : ∀ effectId, body ≠ .effectExecutionStarted id effectId) :
    applyBody D state body = .ok (state.setStep id step') := by
  cases hmove with
  | executionStarted => exact absurd rfl (hstart _)
  | materialUnavailable heffect hstatus =>
    simp only [applyBody, applyEffectLifecycle, markMaterialUnavailable, Outcome.bind_eq_ok,
      Outcome.exists_unit, matchingStepMut_eq_ok, requireStatus_eq_ok, Outcome.pure_eq_ok]
    exact ⟨step, ⟨hstep, heffect⟩, hstatus, rfl⟩
  | succeeded heffect hstatus houtput =>
    simp only [applyBody, applyEffectLifecycle, recordEffectObservation, Outcome.bind_eq_ok,
      Outcome.exists_unit, matchingStepMut_eq_ok, requireStatus_eq_ok, Outcome.pure_eq_ok]
    exact ⟨step, ⟨hstep, heffect⟩, hstatus, houtput, rfl⟩
  | failed heffect hstatus =>
    simp only [applyBody, applyEffectLifecycle, recordEffectObservation, checkOutputRecord,
      Outcome.bind_eq_ok, Outcome.exists_unit, matchingStepMut_eq_ok, requireStatus_eq_ok,
      Outcome.failIf_eq_ok, Outcome.pure_eq_ok]
    exact ⟨step, ⟨hstep, heffect⟩, hstatus, by simp, rfl⟩
  | becameUnknown heffect hstatus =>
    simp only [applyBody, applyEffectLifecycle, recordEffectUnknown, Outcome.bind_eq_ok,
      Outcome.exists_unit, matchingStepMut_eq_ok, requireStatus_eq_ok, Outcome.pure_eq_ok]
    exact ⟨step, ⟨hstep, heffect⟩, hstatus, rfl⟩
  | reconciliationStarted heffect hstatus =>
    simp only [applyBody, applyEffectLifecycle, recordReconciliationStarted, Outcome.bind_eq_ok,
      Outcome.exists_unit, matchingStepMut_eq_ok, requireStatus_eq_ok, Outcome.pure_eq_ok]
    exact ⟨step, ⟨hstep, heffect⟩, hstatus, rfl⟩
  | reconciliationResolved heffect hstatus hprofile =>
    simp only [applyBody, applyEffectLifecycle, recordReconciliation, Outcome.bind_eq_ok,
      Outcome.exists_unit, matchingStepMut_eq_ok, requireStatus_eq_ok, Outcome.failIf_eq_ok,
      Outcome.pure_eq_ok]
    exact ⟨step, ⟨hstep, heffect⟩, hstatus, hprofile, rfl⟩
  | manualRequired heffect hstatus =>
    simp only [applyBody, applyEffectLifecycle, recordManualRequired, Outcome.bind_eq_ok,
      Outcome.exists_unit, matchingStepMut_eq_ok, Outcome.failIf_eq_ok, Outcome.pure_eq_ok,
      not_not]
    exact ⟨step, ⟨hstep, heffect⟩, hstatus, rfl⟩
  | verificationPassed hstatus =>
    simp only [applyBody, applyEffectLifecycle, recordLegacyVerification, stepMut,
      Outcome.bind_eq_ok, Outcome.exists_unit, Outcome.okOr_eq_ok, requireStatus_eq_ok,
      Outcome.pure_eq_ok]
    exact ⟨step, hstep, hstatus, rfl⟩
  | verificationFailed hstatus =>
    simp only [applyBody, applyEffectLifecycle, recordLegacyVerification, stepMut,
      Outcome.bind_eq_ok, Outcome.exists_unit, Outcome.okOr_eq_ok, requireStatus_eq_ok,
      Outcome.pure_eq_ok]
    exact ⟨step, hstep, hstatus, rfl⟩
  | verificationRecorded heffect hstatus =>
    simp only [applyBody, applyEffectLifecycle, recordVerification, Outcome.bind_eq_ok,
      Outcome.exists_unit, matchingStepMut_eq_ok, requireStatus_eq_ok, Outcome.pure_eq_ok]
    exact ⟨step, ⟨hstep, heffect⟩, hstatus, rfl⟩

/-- **A proof that an effect was applied is refused where its output has to be kept.** -/
theorem applyBody_provedApplied {effectId evidence : String} {next : RunState}
    (hstep : state.steps[id]? = some step)
    (hprofile : step.toolOutputProfile = some toolOutputProfileV1) :
    applyBody D state (.reconciliationResolved id effectId .provedApplied evidence) ≠ .ok next := by
  intro h
  simp only [applyBody, applyEffectLifecycle, recordReconciliation, Outcome.bind_eq_ok,
    Outcome.exists_unit, matchingStepMut_eq_ok, requireStatus_eq_ok, Outcome.failIf_eq_ok,
    Outcome.pure_eq_ok] at h
  obtain ⟨found, ⟨hfound, _⟩, _, hallowed, _⟩ := h
  rw [hstep] at hfound
  obtain rfl := Option.some.inj hfound
  exact hallowed ⟨trivial, hprofile⟩

end Reducer

/-! ## A store without faults -/

section

variable (D : Digests) (P : Protocol)

/-- The reducer refuses the record that the event becomes. -/
def MemoryRunStore.Refuses (store : MemoryRunStore) (event : RunEvent) : Prop :=
  ∃ record error, EventRecord.next D store.index.lastRecord event = .ok record ∧
    applyRecord D store.index.state record = .error (.err error)

/-- The answers of a store without faults, and of a factory that dates its events: an append fails
only when the reducer refuses the event. The adapters answer whatever they like. -/
def FaultlessAnswers (store store' : MemoryRunStore) : (op : RuntimeOp) → op.Response → Prop
  | .loadCurrent, answer => store' = store ∧ answer = Except.ok store.projection
  | .loadPlannedInvocation stepId, answer =>
    store' = store ∧ answer = Except.ok store.planInputs[stepId]?
  | .loadInvocationMaterial effectId, answer =>
    store' = store ∧ answer = Except.ok store.materials[effectId]?
  | .append call, Except.ok commit => store.call D P call = .ok (commit, store')
  | .append call, Except.error error =>
    store.call D P call = .error (.err error) ∧ store' = store ∧ store.Refuses D call.event
  | .createMetadata _, answer =>
    store' = store ∧ ∃ metadata time, answer = Except.ok metadata ∧
      P.rfc3339 metadata.recordedAt = some time
  | op, answer => StoreAnswers D P store store' op answer

/-- The store without faults, used by nobody else. -/
def faultlessSystem : System RuntimeOp RuntimeOp.Response MemoryRunStore Commit :=
  System.alone
    { step := fun store op answer store' => FaultlessAnswers D P store store' op answer
      other := fun store commit store' => store.Accepts D P commit store' }

end

section Ends

variable {D : Digests} {P : Protocol} {store store' : MemoryRunStore} {state : RunState}
  {body : RunEventBody} {history : RuntimeHistory} {ε α : Type}

/-- **Without faults is one way to answer.** -/
theorem FaultlessAnswers.answers {op : RuntimeOp} {answer : op.Response}
    (h : FaultlessAnswers D P store store' op answer) :
    StoreAnswers D P store store' op answer := by
  cases op with
  | loadCurrent | loadPlannedInvocation | loadInvocationMaterial =>
    obtain ⟨rfl, rfl⟩ := h
    exact ⟨rfl, fun _ hanswer => (Except.ok.inj hanswer).symm⟩
  | append call =>
    cases answer with
    | ok commit => exact h
    | error error => exact Or.inl ⟨h.1, h.2.1⟩
  | createMetadata =>
    obtain ⟨rfl, -⟩ := h
    exact rfl
  | _ => exact h

/-- How an append of an event ends without faults: it is committed when the reducer accepts it, and
nothing changes when the reducer refuses it. -/
structure Ends (D : Digests) (P : Protocol) (store : MemoryRunStore) (state : RunState)
    (body : RunEventBody) (store' : MemoryRunStore) (stateOf : α → RunState)
    (outcome : Outcome ε α) : Prop where
  accepted : ∀ next, applyBody D state body = .ok next →
    ∃ a record, outcome = .ok a ∧ store'.Sound D P ∧ store'.projection = some (stateOf a) ∧
      stateOf a = next.advance record
  refused : (∀ next, applyBody D state body ≠ .ok next) →
    store' = store ∧ ∃ fault, outcome = .error fault

theorem createEvent_ends {onFactory : EventFactoryError → ε} {onMetadata : ε}
    {outcome : Outcome ε RunEvent}
    (h : Exec (faultlessSystem D P) (createEvent P onFactory onMetadata state body) store history
      store' (some outcome)) :
    store' = store ∧ ∃ metadata, outcome = .ok (state.event metadata body) := by
  obtain ⟨answer, m, after, -, hstep, hrest⟩ := Exec.complete_call h
  obtain ⟨rfl, metadata, time, rfl, htime⟩ := hstep
  have hdated : Outcome.failIf (P.rfc3339 metadata.recordedAt = none) onMetadata = .ok () := by
    rw [Outcome.failIf_eq_ok, htime]
    simp
  have hcreated : Exec (faultlessSystem D P)
      (Prog.lift (Outcome.failIf (P.rfc3339 metadata.recordedAt = none) onMetadata) >>= fun _ =>
        pure (state.event metadata body)) m after store' (some outcome) := hrest
  rw [hdated] at hcreated
  obtain ⟨-, rfl, rfl⟩ := Exec.complete_lift (x := .ok (state.event metadata body)) hcreated
  exact ⟨rfl, metadata, rfl⟩

/-- **One append.** -/
theorem append_ends {call : AppendCall} {metadata : EventMetadata} {onStore : StoreError → ε}
    {outcome : Outcome ε Commit} (hsound : store.Sound D P) (hstate : store.projection = some state)
    (hevent : call.event = state.event metadata body) (hcreate : ∀ goal, body ≠ .runCreated goal)
    (h : Exec (faultlessSystem D P) ((Routine.append call).mapErr onStore) store history store'
      (some outcome)) :
    Ends D P store state body store' Commit.state outcome := by
  have hindex : store.index.state = some state := hsound.journal.projection.symm.trans hstate
  have hreplay := hsound.replay hstate
  have hbody : call.event.body = body := by rw [hevent, RunState.event]
  obtain ⟨inner, hexec, rfl⟩ := Exec.complete_mapErr h
  obtain ⟨answer, m, after, -, hstep, hrest⟩ := Exec.complete_call hexec
  cases answer with
  | ok commit =>
    obtain ⟨-, rfl, rfl⟩ := Exec.complete_lift (x := .ok commit) hrest
    obtain ⟨-, hprepared⟩ := prepareCommit_eq_ok (MemoryRunStore.call_prepared hstep)
    have hmove := hsound.move hstep
    have happlied := hprepared.state
    rw [hindex] at happlied
    obtain ⟨_, hfollows, _, _⟩ := applyRecord_some happlied
    have hrecord : commit.record.event.body = body := by rw [hprepared.carries, hbody]
    obtain ⟨next, hnext, hadvance⟩ :=
      (hfollows.applyRecord_eq_ok (by rwa [hrecord])).mp happlied
    rw [hrecord] at hnext
    refine ⟨fun other hother => ?_, fun hrefused => absurd hnext (hrefused next)⟩
    rw [hnext] at hother
    obtain rfl := Except.ok.inj hother
    exact ⟨commit, commit.record, rfl, hmove.sound, hmove.projection, hadvance.symm⟩
  | error error =>
    obtain ⟨-, rfl, rfl⟩ := Exec.complete_lift (x := .error (.err error)) hrest
    obtain ⟨-, rfl, record, refusal, hnext, hrefused⟩ := hstep
    refine ⟨fun next hnext' => ?_, fun _ => ⟨rfl, _, rfl⟩⟩
    rw [hsound.journal.last] at hnext
    have hrecord : record.event.body = body := by rw [EventRecord.next_event hnext, hbody]
    have hidentity : record.event.Of state := by
      rw [EventRecord.next_event hnext, hevent]
      exact ⟨rfl, rfl, rfl⟩
    have hafter : NextRecord D store'.records state body record :=
      ⟨by rwa [EventRecord.next_event hnext], hidentity, hrecord⟩
    have hfollows := hafter.follows hreplay
    have happlied := (hfollows.applyRecord_eq_ok (by rwa [hrecord])).mpr
      ⟨next, by rw [hrecord, hnext'], rfl⟩
    rw [hindex, happlied] at hrefused
    cases hrefused

theorem Ends.map {β : Type} {stateOf : α → RunState} {f : α → β} {stateOf' : β → RunState}
    {outcome : Outcome ε α} (h : Ends D P store state body store' stateOf outcome)
    (hsame : ∀ a, stateOf' (f a) = stateOf a) :
    Ends D P store state body store' stateOf' (outcome.map f) := by
  constructor
  · intro next hnext
    obtain ⟨a, record, rfl, hsound, hstate, hadvance⟩ := h.accepted next hnext
    exact ⟨f a, record, rfl, hsound, by rw [hsame, hstate], by rw [hsame, hadvance]⟩
  · intro hrefused
    obtain ⟨hstore, fault, rfl⟩ := h.refused hrefused
    exact ⟨hstore, fault, rfl⟩

theorem create_append_ends {f : RunEvent → Routine RuntimeError α}
    {stateOf : α → RunState} {outcome : Outcome RuntimeError α}
    (hf : ∀ {m : MemoryRunStore} {after : RuntimeHistory} {metadata : EventMetadata}, m = store →
      Exec (faultlessSystem D P) (f (state.event metadata body)) m after store' (some outcome) →
      Ends D P store state body store' stateOf outcome)
    (h : Exec (faultlessSystem D P) (createEvent P .eventFactory .eventMetadata state body >>= f)
      store history store' (some outcome)) :
    Ends D P store state body store' stateOf outcome := by
  rcases Exec.complete_bind h with ⟨fault, -, hexec⟩ | ⟨event, m, before, after, -, hexec, hlast⟩
  · obtain ⟨-, metadata, hok⟩ := createEvent_ends hexec
    cases hok
  · obtain ⟨hm, metadata, hok⟩ := createEvent_ends hexec
    obtain rfl := Except.ok.inj hok
    exact hf hm hlast

theorem appendEvent_ends {outcome : Outcome RuntimeError Commit} (hsound : store.Sound D P)
    (hstate : store.projection = some state) (hcreate : ∀ goal, body ≠ .runCreated goal)
    (h : Exec (faultlessSystem D P) (DurableEffectRuntime.appendEvent P state body) store history
      store' (some outcome)) :
    Ends D P store state body store' Commit.state outcome := by
  refine create_append_ends (fun {m after metadata} hm hlast => ?_) h
  subst hm
  exact append_ends hsound hstate rfl hcreate hlast

theorem commitReport_ends {action : DriveAction} {outcome : Outcome RuntimeError DriveReport}
    (hsound : store.Sound D P) (hstate : store.projection = some state)
    (hcreate : ∀ goal, body ≠ .runCreated goal)
    (h : Exec (faultlessSystem D P) (DurableEffectRuntime.commitReport P state body action) store
      history store' (some outcome)) :
    Ends D P store state body store' DriveReport.state outcome := by
  obtain ⟨inner, hexec, rfl⟩ := Exec.complete_map h
  exact (appendEvent_ends hsound hstate hcreate hexec).map fun _ => rfl

theorem commitToolOutputReport_ends {action : DriveAction} {output : ToolOutputRecord}
    {outcome : Outcome RuntimeError DriveReport} (hsound : store.Sound D P)
    (hstate : store.projection = some state) (hcreate : ∀ goal, body ≠ .runCreated goal)
    (h : Exec (faultlessSystem D P)
      (DurableEffectRuntime.commitToolOutputReport P state body action output) store history store'
      (some outcome)) :
    Ends D P store state body store' DriveReport.state outcome := by
  refine create_append_ends (fun {m after metadata} hm hlast => ?_) h
  subst hm
  obtain ⟨inner, hexec, rfl⟩ := Exec.complete_map hlast
  exact (append_ends hsound hstate rfl hcreate hexec).map fun _ => rfl

/-! ## A step that leaves its status -/

/-- The call returned a report of the state that the store is left with, and there the step has some
status. -/
def Reports (store : MemoryRunStore) (id : String) (outcome : Outcome RuntimeError DriveReport)
    (status : StepStatus) : Prop :=
  ∃ report step, outcome = .ok report ∧ store.projection = some report.state ∧
    report.state.steps[id]? = some step ∧ step.status = status

/-- **An event that moves a step is committed**, and the step has its next status. -/
theorem Ends.reports {id : String} {step step' : StepState}
    {outcome : Outcome RuntimeError DriveReport}
    (h : Ends D P store state body store' DriveReport.state outcome)
    (hstep : state.steps[id]? = some step) (hmove : StepMove body id step step')
    (hstart : ∀ effectId, body ≠ .effectExecutionStarted id effectId) :
    Reports store' id outcome step'.status := by
  obtain ⟨report, record, hok, -, hstate, hadvance⟩ :=
    h.accepted _ (applyBody_of_move hstep hmove hstart)
  refine ⟨report, step', hok, hstate, ?_, rfl⟩
  rw [hadvance, RunState.advance_steps, RunState.setStep, BTreeMap.get_insert, if_pos rfl]

/-! ## Reconciliation -/

/-- A sink was asked for the effect and gave this answer. -/
def Answered (history : RuntimeHistory) (answer : AdapterReconciliationObservation) : Prop :=
  ∃ key request, .did (.reconcile key request) answer ∈ history

/-- The status that an answer of the sink leads to. -/
def AdapterReconciliationObservation.status : AdapterReconciliationObservation → StepStatus
  | .applied _ => .validating
  | .notApplied _ => .intentCommitted
  | .failed _ => .failed
  | .inconclusive _ => .manualRequired

/-- The answer proves that an effect was applied whose output has to be kept. -/
def Unrecoverable (step : StepState) (answer : AdapterReconciliationObservation) : Prop :=
  step.toolOutputProfile = some toolOutputProfileV1 ∧ ∃ evidence, answer = .applied evidence

variable {id : String} {step : StepState} {intent : EffectIntent}
  {answer : AdapterReconciliationObservation}

/-- The event that is committed for an answer of the sink. -/
def reconciliationEvent (step : StepState) (intent : EffectIntent) :
    AdapterReconciliationObservation → RunEventBody
  | .applied evidence =>
    .reconciliationResolved step.stepId intent.effectId .provedApplied evidence.val
  | .notApplied evidence =>
    .reconciliationResolved step.stepId intent.effectId .provedNotApplied evidence.val
  | .failed evidence => .reconciliationResolved step.stepId intent.effectId .failed evidence.val
  | .inconclusive reason => .manualInterventionRequired step.stepId intent.effectId reason.code

theorem reconciliationReport_ok (answer : AdapterReconciliationObservation) :
    ∃ action, reconciliationReport step intent (DirectSink.observeReconciliation answer) =
      .ok (reconciliationEvent step intent answer, action) := by
  cases answer with
  | applied evidence | notApplied evidence | failed evidence =>
    simp only [reconciliationReport, DirectSink.observeReconciliation,
      requireObservationValue_ok (trimmed_digest evidence.property)]
    exact ⟨_, rfl⟩
  | inconclusive reason =>
    simp only [reconciliationReport, DirectSink.observeReconciliation,
      requireObservationValue_ok reason.trimmed_code]
    exact ⟨_, rfl⟩

/-- **The event moves the step**, unless the answer is unrecoverable. -/
theorem reconciliationEvent_moves (heffect : step.Commits intent.effectId)
    (hstatus : step.status = .reconciling) (hanswer : ¬ Unrecoverable step answer) :
    ∃ step', StepMove (reconciliationEvent step intent answer) step.stepId step step' ∧
      step'.status = answer.status := by
  cases answer with
  | applied evidence =>
    have hprofile : ¬ (ReconciliationResolution.provedApplied = .provedApplied ∧
        step.toolOutputProfile = some toolOutputProfileV1) :=
      fun h => hanswer ⟨h.2, evidence, rfl⟩
    exact ⟨_, .reconciliationResolved heffect hstatus hprofile, rfl⟩
  | notApplied evidence =>
    have hprofile : ¬ (ReconciliationResolution.provedNotApplied = .provedApplied ∧
        step.toolOutputProfile = some toolOutputProfileV1) := by simp
    exact ⟨_, .reconciliationResolved heffect hstatus hprofile, rfl⟩
  | failed evidence =>
    have hprofile : ¬ (ReconciliationResolution.failed = .provedApplied ∧
        step.toolOutputProfile = some toolOutputProfileV1) := by simp
    exact ⟨_, .reconciliationResolved heffect hstatus hprofile, rfl⟩
  | inconclusive reason => exact ⟨_, .manualRequired heffect (Or.inr hstatus), rfl⟩

theorem reconciliationEvent_ne_started (effectId : String) :
    reconciliationEvent step intent answer ≠ .effectExecutionStarted id effectId := by
  cases answer <;> simp [reconciliationEvent]

theorem reconciliationEvent_ne_created (goal : String) :
    reconciliationEvent step intent answer ≠ .runCreated goal := by
  cases answer <;> simp [reconciliationEvent]

theorem sink_reconcile_complete {sink : DirectSink}
    {outcome : Outcome RuntimeError ReconciliationObservation}
    (h : Exec (faultlessSystem D P) (sink.reconcile intent) store history store' (some outcome)) :
    (history = [] ∧ ∃ fault, outcome = .error fault) ∨
      ∃ key request answer, history = [.did (.reconcile key request) answer] ∧ store' = store ∧
        outcome = .ok (DirectSink.observeReconciliation answer) := by
  cases hadapter : sink.adapter with
  | none =>
    left
    simp only [DirectSink.reconcile, hadapter] at h
    obtain ⟨rfl, -, rfl⟩ := Exec.complete_lift (x := Outcome.abort _) h
    exact ⟨rfl, _, rfl⟩
  | some adapter =>
    cases hinstance : sink.reconciliationInstance with
    | none =>
      left
      simp only [DirectSink.reconcile, hadapter, hinstance] at h
      obtain ⟨rfl, -, rfl⟩ := Exec.complete_lift (x := Outcome.abort _) h
      exact ⟨rfl, _, rfl⟩
    | some instance_ =>
      right
      simp only [DirectSink.reconcile, hadapter, hinstance] at h
      obtain ⟨answer, m, after, rfl, hstep, hrest⟩ := Exec.complete_call h
      obtain ⟨rfl, rfl, rfl⟩ := Exec.complete_lift
        (x := .ok (DirectSink.observeReconciliation answer)) hrest
      exact ⟨_, _, answer, rfl, hstep, rfl⟩

theorem appendEvent_only {good : RuntimeOp → Prop} (hmetadata : good (.createMetadata state))
    (happend : ∀ call, good (.append call)) :
    (DurableEffectRuntime.appendEvent P state body).Only good fun _ => True := by
  simp only [DurableEffectRuntime.appendEvent, createEvent, only_bind, only_mapErr, only_lift,
    only_pure]
  refine ⟨hmetadata, fun answer => ?_⟩
  cases answer with
  | error error => trivial
  | ok metadata =>
    refine fun _ _ => ⟨happend _, fun answer => ?_⟩
    cases answer with
    | error error => trivial
    | ok commit => trivial

theorem commitReport_asksNobody {action : DriveAction} :
    (DurableEffectRuntime.commitReport P state body action).Only
      (fun op => ∀ key request, op ≠ .reconcile key request) fun _ => True := by
  simp only [DurableEffectRuntime.commitReport, only_bind, only_pure]
  exact appendEvent_only (by simp) (by simp)

/-- How a reconciliation without faults ends: the step takes the status that the answer leads to,
and an unrecoverable answer leaves the store as it was. -/
structure Reconciles (store : MemoryRunStore) (id : String) (step : StepState)
    (history : RuntimeHistory) (store' : MemoryRunStore)
    (outcome : Outcome RuntimeError DriveReport) : Prop where
  settled : (∀ answer, Answered history answer → ¬ Unrecoverable step answer) →
    ∃ status, Reports store' id outcome status ∧
      status ∈ [StepStatus.validating, .intentCommitted, .failed, .manualRequired]
  stuck : (∃ answer, Answered history answer ∧ Unrecoverable step answer) →
    store' = store ∧ ∃ fault, outcome = .error fault

theorem AdapterReconciliationObservation.status_mem (answer : AdapterReconciliationObservation) :
    answer.status ∈ [StepStatus.validating, .intentCommitted, .failed, .manualRequired] := by
  cases answer <;> simp [status]

/-- **One reconciliation of a step**, from the state in which it is reconciling. -/
theorem finishReconciliation_ends {sink : DirectSink} {outcome : Outcome RuntimeError DriveReport}
    (hsound : store.Sound D P) (hstate : store.projection = some state)
    (hstep : state.steps[id]? = some step) (hid : step.stepId = id)
    (hstatus : step.status = .reconciling) (hintent : step.intent = some intent)
    (h : Exec (faultlessSystem D P) (DurableEffectRuntime.finishReconciliation P sink state step)
      store history store' (some outcome))
    (hasked : intent.sinkGuarantee.supportsQuery = true → ∃ answer, Answered history answer) :
    Reconciles store id step history store' outcome := by
  subst hid
  have heffect : step.Commits intent.effectId := by rw [StepState.Commits, hintent, Option.map_some]
  rw [DurableEffectRuntime.finishReconciliation, requireIntent, hintent] at h
  change Exec (faultlessSystem D P) (if _ then _ else _) _ _ _ _ at h
  split at h
  · rename_i hquery
    obtain ⟨asked, hasked⟩ := hasked hquery
    rcases Exec.complete_bind h with ⟨fault, -, hexec⟩ |
      ⟨observation, m, before, after, rfl, hexec, hlast⟩
    · rcases sink_reconcile_complete hexec with ⟨rfl, -⟩ | ⟨_, _, _, _, _, hok⟩
      · obtain ⟨_, _, hmem⟩ := hasked
        cases hmem
      · cases hok
    · rcases sink_reconcile_complete hexec with ⟨_, _, hfault⟩ |
        ⟨key, request, answer, rfl, rfl, hok⟩
      · cases hfault
      · obtain rfl := Except.ok.inj hok
        obtain ⟨action, hreport⟩ : ∃ action, reconciliationReport step intent
            (DirectSink.observeReconciliation answer) =
              .ok (reconciliationEvent step intent answer, action) :=
          reconciliationReport_ok answer
        rw [hreport] at hlast
        have hends := commitReport_ends hsound hstate reconciliationEvent_ne_created hlast
        -- the sink was asked once
        have honce : ∀ other, Answered ([.did (.reconcile key request) answer] ++ after) other →
            other = answer := by
          rintro other ⟨key', request', hmem⟩
          rcases List.mem_append.mp hmem with hhead | hafter
          · cases List.mem_singleton.mp hhead
            rfl
          · exact absurd rfl (Exec.does hlast commitReport_asksNobody hafter key' request')
        have hanswered : Answered ([.did (.reconcile key request) answer] ++ after) answer :=
          ⟨key, request, List.mem_append_left _ (List.mem_singleton_self _)⟩
        constructor
        · intro hrecoverable
          obtain ⟨step', hmove, hnext⟩ :=
            reconciliationEvent_moves heffect hstatus (hrecoverable answer hanswered)
          exact ⟨_, hends.reports hstep hmove reconciliationEvent_ne_started,
            hnext ▸ answer.status_mem⟩
        · rintro ⟨other, hother, hprofile, evidence, hevidence⟩
          obtain rfl := honce other hother
          subst hevidence
          exact hends.refused fun next => applyBody_provedApplied hstep hprofile
  · rename_i hquery
    have hends := commitReport_ends hsound hstate (by simp) h
    have hmove : StepMove (.manualInterventionRequired step.stepId intent.effectId
        "reconciliation state has no query-capable sink contract") step.stepId step _ :=
      .manualRequired heffect (Or.inr hstatus)
    constructor
    · exact fun _ => ⟨_, hends.reports hstep hmove (by simp), by simp⟩
    · rintro ⟨answer, ⟨key, request, hmem⟩, _⟩
      exact absurd rfl (Exec.does h commitReport_asksNobody hmem key request)

/-! ## Execution -/

/-- What an adapter can be observed to have done: its evidence is a digest, a reason is a code. -/
def ExecutionObservation.Evident : ExecutionObservation → Prop
  | .succeeded evidenceDigest => isSha256Digest evidenceDigest = true
  | .succeededWithOutput evidenceDigest _ => isSha256Digest evidenceDigest = true
  | .failed evidenceDigest => isSha256Digest evidenceDigest = true
  | .unknown reason => trimmed reason ≠ ""

theorem DirectSink.observeExecution_evident {sink : DirectSink}
    (observation : AdapterExecutionObservation) :
    (sink.observeExecution D observation).Evident := by
  cases observation with
  | succeeded evidence =>
    simp only [observeExecution]
    split
    · exact AdapterExecutionUnknownReason.trimmed_code _
    · exact evidence.property
  | succeededWithOutput evidence output =>
    simp only [observeExecution]
    split
    · exact evidence.property
    · exact AdapterExecutionUnknownReason.trimmed_code _
  | failed evidence => exact evidence.property
  | unknown reason => exact reason.trimmed_code

theorem ToolOutputRecord.new_digest {runId stepId evidence : String} {attempt : UInt32}
    {output : Json} {record : ToolOutputRecord}
    (h : ToolOutputRecord.new D runId stepId intent attempt evidence output = .ok record) :
    isSha256Digest record.recordDigest = true := by
  simp only [ToolOutputRecord.new, Outcome.bind_eq_ok, Outcome.exists_unit, Outcome.pure_eq_ok] at h
  obtain ⟨_, _, _, _, _, _, outputId, _, digest, hdigest, _, rfl⟩ := h
  exact Digests.isSha256Digest_of_digest hdigest

/-- What is pending after an execution moves the executing step. -/
structure PendingExecutionCommit.Moves (pending : PendingExecutionCommit) (id : String)
    (current : StepState) : Prop where
  move : ∃ step', StepMove pending.body id current step' ∧
    step'.status ∈ [StepStatus.validating, .failed, .effectUnknown]
  notStarted : ∀ effectId, pending.body ≠ .effectExecutionStarted id effectId
  notCreated : ∀ goal, pending.body ≠ .runCreated goal

section Pending

variable {current : StepState} {evidence : String}

theorem PendingExecutionCommit.unknown_moves {reason : String}
    (heffect : current.Commits intent.effectId) (hstatus : current.status = .executing)
    (hid : step.stepId = id) :
    (PendingExecutionCommit.unknown step intent reason).Moves id current := by
  subst hid
  exact ⟨⟨_, .becameUnknown heffect hstatus, by simp⟩, by simp [unknown], by simp [unknown]⟩

theorem PendingExecutionCommit.failed_moves (heffect : current.Commits intent.effectId)
    (hstatus : current.status = .executing) (hid : step.stepId = id) :
    (PendingExecutionCommit.failed step intent evidence).Moves id current := by
  subst hid
  exact ⟨⟨_, .failed heffect hstatus, by simp⟩, by simp [failed], by simp [failed]⟩

theorem PendingExecutionCommit.succeeded_moves {output : Option ToolOutputRecord}
    (heffect : current.Commits intent.effectId) (hstatus : current.status = .executing)
    (hid : step.stepId = id)
    (houtput : checkOutputRecord current intent.effectId (output.map ToolOutputRecord.recordDigest)
      .validating = .ok ()) :
    (PendingExecutionCommit.succeeded step intent evidence output).Moves id current := by
  subst hid
  exact ⟨⟨_, .succeeded heffect hstatus houtput, by simp⟩, by simp [succeeded], by simp [succeeded]⟩

/-- **Whatever an adapter answers, the runtime builds an event that moves the step**: a success
without the output that it needs, or with one that it must not have, is an unknown outcome. -/
theorem classifyExecutionObservation_moves {observation : ExecutionObservation}
    (hobserved : observation.Evident) (hcurrent : state.steps[step.stepId]? = some current)
    (hid : step.stepId = id) (hintent : current.intent = some intent)
    (hstatus : current.status = .executing) :
    ∃ pending, classifyExecutionObservation D state step intent
      (decide (intent.toolOutputProfile = some toolOutputProfileV1)) observation = .ok pending ∧
      pending.Moves id current := by
  have heffect : current.Commits intent.effectId := by
    rw [StepState.Commits, hintent, Option.map_some]
  have hprofile : current.toolOutputProfile = intent.toolOutputProfile := by
    rw [StepState.toolOutputProfile, hintent, Option.bind_some]
  cases observation with
  | succeeded evidence =>
    simp only [classifyExecutionObservation, requireObservationValue_ok (trimmed_digest hobserved)]
    by_cases hrequired : intent.toolOutputProfile = some toolOutputProfileV1
    · rw [decide_eq_true hrequired]
      exact ⟨_, rfl, PendingExecutionCommit.unknown_moves heffect hstatus hid⟩
    · rw [decide_eq_false hrequired]
      refine ⟨_, rfl, PendingExecutionCommit.succeeded_moves heffect hstatus hid ?_⟩
      rw [Option.map_none, checkOutputRecord, Outcome.failIf_eq_ok, hprofile]
      exact fun h => hrequired h.1
  | succeededWithOutput evidence output =>
    simp only [classifyExecutionObservation, classifyOutputSuccess,
      requireObservationValue_ok (trimmed_digest hobserved), hcurrent]
    by_cases hrequired : intent.toolOutputProfile = some toolOutputProfileV1
    · rw [decide_eq_true hrequired]
      cases hnew : (ToolOutputRecord.new D state.runId step.stepId intent current.attempts evidence
        output).value? with
      | none =>
        refine ⟨.unknown step intent "adapter tool output is invalid", ?_,
          PendingExecutionCommit.unknown_moves heffect hstatus hid⟩
        refine Outcome.bind_eq_ok.mpr ⟨evidence, rfl, Outcome.bind_eq_ok.mpr ⟨current, rfl, ?_⟩⟩
        rw [if_pos rfl, hnew]
        rfl
      | some record =>
        refine ⟨.succeeded step intent evidence (some record), ?_,
          PendingExecutionCommit.succeeded_moves heffect hstatus hid ?_⟩
        · refine Outcome.bind_eq_ok.mpr ⟨evidence, rfl, Outcome.bind_eq_ok.mpr ⟨current, rfl, ?_⟩⟩
          rw [if_pos rfl, hnew]
          rfl
        · simp only [Option.map_some, checkOutputRecord, Outcome.bind_eq_ok, Outcome.exists_unit,
            Outcome.failIf_eq_ok, hprofile, not_not]
          exact ⟨hrequired, ToolOutputRecord.new_digest (Outcome.value?_eq_some.mp hnew)⟩
    · rw [decide_eq_false hrequired]
      exact ⟨_, rfl, PendingExecutionCommit.unknown_moves heffect hstatus hid⟩
  | failed evidence =>
    simp only [classifyExecutionObservation, requireObservationValue_ok (trimmed_digest hobserved)]
    exact ⟨_, rfl, PendingExecutionCommit.failed_moves heffect hstatus hid⟩
  | unknown reason =>
    simp only [classifyExecutionObservation, requireObservationValue_ok hobserved]
    exact ⟨_, rfl, PendingExecutionCommit.unknown_moves heffect hstatus hid⟩

end Pending

/-- **One execution**, from the state in which the step is executing. -/
theorem executeStarted_ends {sink : DirectSink} {prepared : CorePreparedEffect}
    {outcome : Outcome RuntimeError DriveReport} {current : StepState} (hsound : store.Sound D P)
    (hstate : store.projection = some state) (hcurrent : state.steps[id]? = some current)
    (hid : step.stepId = id) (hintent : current.intent = some intent)
    (hstatus : current.status = .executing)
    (h : Exec (faultlessSystem D P)
      (DurableEffectRuntime.executeStarted D P sink state step intent prepared) store history store'
      (some outcome)) :
    ∃ status, Reports store' id outcome status ∧
      status ∈ [StepStatus.validating, .failed, .effectUnknown] := by
  obtain ⟨observation, m, after, -, hstep, hrest⟩ := Exec.complete_call h
  obtain rfl : m = store := hstep
  have hstepId : state.steps[step.stepId]? = some current := by rwa [hid]
  have hobserved : (sink.observeExecution D observation).Evident :=
    DirectSink.observeExecution_evident observation
  obtain ⟨pending, hpending, ⟨⟨step', hmove, hnext⟩, hstart, hcreate⟩⟩ :=
    classifyExecutionObservation_moves (D := D) hobserved hstepId hid hintent hstatus
  have hcommit : Exec (faultlessSystem D P) (Prog.lift (classifyExecutionObservation D state step
      intent (decide (intent.toolOutputProfile = some toolOutputProfileV1))
      (sink.observeExecution D observation)) >>= _) m after store' (some outcome) := hrest
  rw [hpending, Prog.lift_ok_bind] at hcommit
  have hends : Ends D P m state pending.body store' DriveReport.state outcome := by
    cases houtput : pending.output with
    | none =>
      simp only [houtput] at hcommit
      exact commitReport_ends hsound hstate hcreate hcommit
    | some output =>
      simp only [houtput] at hcommit
      exact commitToolOutputReport_ends hsound hstate hcreate hcommit
  exact ⟨_, hends.reports hcurrent hmove hstart, hnext⟩

theorem applyBody_started {effectId : String} {next : RunState}
    (hstep : state.steps[id]? = some step)
    (h : applyBody D state (.effectExecutionStarted id effectId) = .ok next) :
    ∃ current, next.steps[id]? = some current ∧ current.intent = step.intent ∧
      current.status = .executing := by
  cases transition_of_applyBody h with
  | moved hfound hmove _ =>
    cases hmove with
    | executionStarted heffect hstatus hattempts =>
      rw [hstep] at hfound
      obtain rfl := Option.some.inj hfound
      rename_i attempts _
      refine ⟨{ step with status := .executing, attempts := attempts }, ?_, rfl, rfl⟩
      rw [RunState.setStep, BTreeMap.get_insert, if_pos rfl]

theorem Ends.committed {stateOf : α → RunState} {a : α}
    (h : Ends D P store state body store' stateOf (.ok a : Outcome ε α)) :
    ∃ next record, applyBody D state body = .ok next ∧ store'.Sound D P ∧
      store'.projection = some (stateOf a) ∧ stateOf a = next.advance record := by
  by_cases haccepted : ∃ next, applyBody D state body = .ok next
  · obtain ⟨next, hnext⟩ := haccepted
    obtain ⟨b, record, hok, hsound, hstate, hadvance⟩ := h.accepted next hnext
    obtain rfl := Except.ok.inj hok
    exact ⟨next, record, hnext, hsound, hstate, hadvance⟩
  · obtain ⟨-, fault, hfault⟩ := h.refused fun next hnext => haccepted ⟨next, hnext⟩
    cases hfault

/-- **A committed intent whose effect was executed.** -/
theorem executeIntent_ends {policy : RuntimePolicy} {sink : DirectSink}
    {prepared : Option CorePreparedEffect} {outcome : Outcome RuntimeError DriveReport}
    (hsound : store.Sound D P) (hstate : store.projection = some state)
    (hstep : state.steps[id]? = some step) (hid : step.stepId = id)
    (h : Exec (faultlessSystem D P)
      (DurableEffectRuntime.executeIntent D P policy sink state step prepared) store history store'
      (some outcome))
    (hexecuted : ∃ prepared observation, .did (.execute prepared) observation ∈ history) :
    ∃ status, Reports store' id outcome status ∧
      status ∈ [StepStatus.validating, .failed, .effectUnknown] := by
  subst hid
  obtain ⟨executed, observation, hexecuted⟩ := hexecuted
  rcases Exec.complete_lift_bind h with rfl | ⟨⟨intent, effect⟩, hrequired, hchecked⟩
  · cases hexecuted
  have hintent : step.intent = some intent := by
    simp only [DurableEffectRuntime.requirePrepared, requireIntent, Outcome.bind_eq_ok,
      Outcome.exists_unit, Outcome.okOr_eq_ok, Outcome.pure_eq_ok, Prod.mk.injEq] at hrequired
    obtain ⟨_, hfound, _, _, _, _, rfl, _⟩ := hrequired
    exact hfound
  -- the load of the material, and the checks on it
  obtain ⟨found, m, loaded, rfl, ⟨rfl, rfl⟩, hloaded⟩ := Exec.complete_call hchecked
  have hexecuted : .did (.execute executed) observation ∈ loaded := by
    rcases List.mem_cons.mp hexecuted with hhead | htail
    · cases hhead
    · exact htail
  rcases Exec.complete_lift_bind hloaded with rfl | ⟨record, -, hrecord⟩
  · cases hexecuted
  rcases Exec.complete_lift_bind hrecord with rfl | ⟨_, -, hunchanged⟩
  · cases hexecuted
  -- the start, and the execution after it
  have hquiet : (DurableEffectRuntime.appendEvent P state
      (.effectExecutionStarted step.stepId intent.effectId)).Only
      (fun op => ∀ prepared, op ≠ .execute prepared) fun _ => True :=
    appendEvent_only (by simp) (by simp)
  rcases Exec.complete_bind hunchanged with ⟨fault, -, hstart⟩ |
    ⟨started, m', before, after, rfl, hstart, hrest⟩
  · exact absurd rfl (Exec.does hstart hquiet hexecuted executed)
  · obtain ⟨next, committed, hnext, hsound', hstate', hadvance⟩ :=
      (appendEvent_ends hsound hstate (by simp) hstart).committed
    obtain ⟨current, hcurrent, hsame, hexecuting⟩ := applyBody_started hstep hnext
    refine executeStarted_ends hsound' hstate' (?_ : _ = some current) rfl (by rw [hsame, hintent])
      hexecuting hrest
    rw [hadvance, RunState.advance_steps, hcurrent]

/-! ## Every status -/

/-- **An execution whose outcome was lost.** -/
theorem markRecovered_ends {outcome : Outcome RuntimeError DriveReport} (hsound : store.Sound D P)
    (hstate : store.projection = some state) (hstep : state.steps[id]? = some step)
    (hid : step.stepId = id) (hintent : step.intent = some intent)
    (hstatus : step.status = .executing)
    (h : Exec (faultlessSystem D P)
      (DurableEffectRuntime.markRecoveredExecutionUnknown P state step) store history store'
      (some outcome)) :
    Reports store' id outcome .effectUnknown := by
  subst hid
  have heffect : step.Commits intent.effectId := by rw [StepState.Commits, hintent, Option.map_some]
  rw [DurableEffectRuntime.markRecoveredExecutionUnknown, requireIntent, hintent] at h
  exact (commitReport_ends hsound hstate (by simp) h).reports hstep (.becameUnknown heffect hstatus)
    (by simp)

/-- **A reconciliation that begins with an unknown effect.** -/
theorem beginReconciliation_ends {sink : DirectSink} {outcome : Outcome RuntimeError DriveReport}
    (hsound : store.Sound D P) (hstate : store.projection = some state)
    (hstep : state.steps[id]? = some step) (hid : step.stepId = id)
    (hstatus : step.status = .effectUnknown) (hintent : step.intent = some intent)
    (h : Exec (faultlessSystem D P) (DurableEffectRuntime.beginReconciliation P sink state step)
      store history store' (some outcome))
    (hasked : intent.sinkGuarantee.supportsQuery = true → ∃ answer, Answered history answer) :
    ∃ m, Reconciles m id step history store' outcome := by
  subst hid
  have heffect : step.Commits intent.effectId := by rw [StepState.Commits, hintent, Option.map_some]
  rw [DurableEffectRuntime.beginReconciliation, requireIntent, hintent] at h
  change Exec (faultlessSystem D P) (if _ then _ else _) _ _ _ _ at h
  split at h
  · rename_i hquery
    obtain ⟨answer, key, request, hanswer⟩ := hasked hquery
    have hquiet : (DurableEffectRuntime.appendEvent P state
        (.reconciliationStarted step.stepId intent.effectId)).Only
        (fun op => ∀ key request, op ≠ .reconcile key request) fun _ => True :=
      appendEvent_only (by simp) (by simp)
    rcases Exec.complete_bind h with ⟨fault, -, hstart⟩ |
      ⟨started, m, before, after, rfl, hstart, hrest⟩
    · exact absurd rfl (Exec.does hstart hquiet hanswer key request)
    · -- the sink is asked after the start only
      have hafter : ∀ other, Answered (before ++ after) other ↔ Answered after other := by
        intro other
        constructor
        · rintro ⟨key, request, hmem⟩
          rcases List.mem_append.mp hmem with hbefore | hmem
          · exact absurd rfl (Exec.does hstart hquiet hbefore key request)
          · exact ⟨key, request, hmem⟩
        · rintro ⟨key, request, hmem⟩
          exact ⟨key, request, List.mem_append_right _ hmem⟩
      have hmove : StepMove (.reconciliationStarted step.stepId intent.effectId) step.stepId step
          { step with status := .reconciling } := .reconciliationStarted heffect hstatus
      obtain ⟨next, record, hnext, hsound', hstate', hadvance⟩ :=
        (appendEvent_ends hsound hstate (by simp) hstart).committed
      rw [applyBody_of_move hstep hmove (by simp)] at hnext
      obtain rfl := Except.ok.inj hnext
      have hreconciling : started.state.steps[step.stepId]? =
          some { step with status := .reconciling } := by
        rw [hadvance, RunState.advance_steps, RunState.setStep, BTreeMap.get_insert, if_pos rfl]
      rcases Exec.complete_lift_bind hrest with rfl | ⟨found, hfound, hfinish⟩
      · obtain ⟨_, _, hmem⟩ := (hafter answer).mp ⟨key, request, hanswer⟩
        cases hmem
      rw [hreconciling] at hfound
      obtain rfl := Except.ok.inj hfound
      have hends := finishReconciliation_ends hsound' hstate' hreconciling rfl rfl hintent hfinish
        fun _ => ⟨answer, (hafter answer).mp ⟨key, request, hanswer⟩⟩
      refine ⟨m, fun hrecoverable => ?_, ?_⟩
      · exact hends.settled fun other hother => hrecoverable other ((hafter other).mpr hother)
      · rintro ⟨other, hother, hlost⟩
        exact hends.stuck ⟨other, (hafter other).mp hother, hlost⟩
  · have hends := commitReport_ends hsound hstate (by simp) h
    have hmove : StepMove (.manualInterventionRequired step.stepId intent.effectId
        "sink cannot query the effect by its stable key; blind retry is disabled") step.stepId step
        _ := .manualRequired heffect (Or.inl hstatus)
    refine ⟨store, fun _ => ⟨_, hends.reports hstep hmove (by simp), by simp⟩, ?_⟩
    rintro ⟨answer, ⟨key, request, hmem⟩, _⟩
    exact absurd rfl (Exec.does h commitReport_asksNobody hmem key request)

/-- A call that could act on a step: its lease is one of the run, a committed intent was executed,
and the sink of an unknown effect was asked when it can be. -/
structure Acts (lease : RunLease) (state : RunState) (step : StepState) (history : RuntimeHistory) :
    Prop where
  lease : lease.runId = state.runId
  driven : step.status ∈ [StepStatus.intentCommitted, .executing, .effectUnknown, .reconciling]
  executed : step.status = .intentCommitted →
    ∃ prepared observation, .did (.execute prepared) observation ∈ history
  asked : step.status ∈ [StepStatus.effectUnknown, .reconciling] → ∀ intent,
    step.intent = some intent → intent.sinkGuarantee.supportsQuery = true →
      ∃ answer, Answered history answer

theorem driveStep_complete {policy : RuntimePolicy} {sink : DirectSink} {lease : RunLease}
    {prepared : Option CorePreparedEffect} {outcome : Outcome RuntimeError DriveReport}
    (hstate : store.projection = some state) (hstep : state.steps[id]? = some step)
    (hlease : lease.runId = state.runId)
    (h : Exec (faultlessSystem D P)
      (DurableEffectRuntime.driveStep D P policy sink lease id prepared) store history store'
      (some outcome)) :
    ∃ answer after, history = .did .loadCurrent answer :: after ∧
      Exec (faultlessSystem D P)
        (DurableEffectRuntime.driveFrom D P policy sink state step prepared) store after store'
        (some outcome) := by
  obtain ⟨answer, m, after, rfl, ⟨rfl, rfl⟩, hrest⟩ := Exec.complete_call h
  refine ⟨_, after, rfl, ?_⟩
  have hloaded : Exec (faultlessSystem D P)
      (Prog.lift (Outcome.okOr m.projection .runNotInitialized) >>= fun state => do
        Prog.lift (DurableEffectRuntime.verifyLease lease state)
        let step ← Prog.lift (Outcome.okOr state.steps[id]? (.stepNotFound id))
        DurableEffectRuntime.driveFrom D P policy sink state step prepared) m after store'
      (some outcome) := hrest
  have hverified : DurableEffectRuntime.verifyLease lease state = .ok () := by
    rw [DurableEffectRuntime.verifyLease, Outcome.failIf_eq_ok]
    exact fun hne => hne hlease
  rw [hstate, Outcome.okOr, Prog.lift_ok_bind, hverified, Prog.lift_ok_bind, hstep] at hloaded
  exact hloaded

theorem Reconciles.leaves_iff {m : MemoryRunStore} {outcome : Outcome RuntimeError DriveReport}
    (h : Reconciles m id step history store' outcome)
    (hunknown : step.status ∈ [StepStatus.effectUnknown, .reconciling]) :
    (∃ status, Reports store' id outcome status ∧ status ≠ step.status) ↔
      ¬ (step.status ∈ [StepStatus.effectUnknown, .reconciling] ∧
        ∃ answer, Answered history answer ∧ Unrecoverable step answer) := by
  constructor
  · rintro ⟨status, ⟨report, _, hok, _⟩, _⟩ ⟨_, hlost⟩
    obtain ⟨-, fault, herror⟩ := h.stuck hlost
    rw [herror] at hok
    cases hok
  · intro hrecoverable
    obtain ⟨status, hreports, hmem⟩ := h.settled fun answer hanswer hlost =>
      hrecoverable ⟨hunknown, answer, hanswer, hlost⟩
    refine ⟨status, hreports, ?_⟩
    rintro rfl
    simp only [List.mem_cons, List.not_mem_nil, or_false] at hmem hunknown
    rcases hunknown with hunknown | hunknown <;> simp [hunknown] at hmem

/-- **A driven step leaves its status** unless a sink proved an effect applied whose output has to
be kept: the reducer refuses that proof, so that a reconciling step stays as it is, however often it
is driven. -/
theorem drive_step_settles_iff {policy : RuntimePolicy} {sink : DirectSink} {lease : RunLease}
    {prepared : Option CorePreparedEffect} {outcome : Outcome RuntimeError DriveReport}
    (hsound : store.Sound D P) (hstate : store.projection = some state)
    (hstep : state.steps[id]? = some step)
    (h : Exec (faultlessSystem D P)
      (DurableEffectRuntime.driveStep D P policy sink lease id prepared) store history store'
      (some outcome)) (hacts : Acts lease state step history) :
    ((∃ status, Reports store' id outcome status ∧ status ≠ step.status) ↔
      ¬ (step.status ∈ [StepStatus.effectUnknown, .reconciling] ∧
        ∃ answer, Answered history answer ∧ Unrecoverable step answer)) ∧
    (step.status = .reconciling → (∃ answer, Answered history answer ∧ Unrecoverable step answer) →
      store' = store) := by
  obtain ⟨hid, hcommitted⟩ := reachable_step_shape ⟨_, hsound.replay hstate⟩ id step hstep
  obtain ⟨loaded, after, rfl, hdriven⟩ := driveStep_complete hstate hstep hacts.lease h
  have hafter : ∀ answer, Answered (.did .loadCurrent loaded :: after) answer ↔
      Answered after answer := by
    intro answer
    constructor
    · rintro ⟨key, request, hmem⟩
      rcases List.mem_cons.mp hmem with hhead | htail
      · cases hhead
      · exact ⟨key, request, htail⟩
    · rintro ⟨key, request, hmem⟩
      exact ⟨key, request, List.mem_cons_of_mem _ hmem⟩
  simp only [hafter]
  have hintent : step.status ≠ .planned → ∃ intent, step.intent = some intent := fun hne =>
    Option.isSome_iff_exists.mp (hcommitted.mpr hne)
  have hdrivable := hacts.driven
  simp only [List.mem_cons, List.not_mem_nil, or_false] at hdrivable
  rcases hdrivable with hstatus | hstatus | hstatus | hstatus
  · rw [DurableEffectRuntime.driveFrom, hstatus] at hdriven
    obtain ⟨prepared, observation, hmem⟩ := hacts.executed hstatus
    have hexecuted : .did (.execute prepared) observation ∈ after := by
      rcases List.mem_cons.mp hmem with hhead | htail
      · cases hhead
      · exact htail
    obtain ⟨status, hreports, hnext⟩ :=
      executeIntent_ends hsound hstate hstep hid hdriven ⟨_, _, hexecuted⟩
    refine ⟨iff_of_true ⟨status, hreports, ?_⟩ (by simp [hstatus]), by simp [hstatus]⟩
    rintro rfl
    simp [hstatus] at hnext
  · rw [DurableEffectRuntime.driveFrom, hstatus] at hdriven
    obtain ⟨intent, hintent⟩ := hintent (by simp [hstatus])
    have hreports := markRecovered_ends hsound hstate hstep hid hintent hstatus hdriven
    exact ⟨iff_of_true ⟨_, hreports, by simp [hstatus]⟩ (by simp [hstatus]), by simp [hstatus]⟩
  · have hunknown : step.status ∈ [StepStatus.effectUnknown, .reconciling] := by simp [hstatus]
    rw [DurableEffectRuntime.driveFrom, hstatus] at hdriven
    obtain ⟨intent, hintent⟩ := hintent (by simp [hstatus])
    obtain ⟨m, hends⟩ := beginReconciliation_ends hsound hstate hstep hid hstatus hintent hdriven
      fun hquery => by
        obtain ⟨answer, hanswer⟩ := hacts.asked hunknown intent hintent hquery
        exact ⟨answer, (hafter answer).mp hanswer⟩
    exact ⟨hends.leaves_iff hunknown, by simp [hstatus]⟩
  · have hunknown : step.status ∈ [StepStatus.effectUnknown, .reconciling] := by simp [hstatus]
    rw [DurableEffectRuntime.driveFrom, hstatus] at hdriven
    obtain ⟨intent, hintent⟩ := hintent (by simp [hstatus])
    have hends := finishReconciliation_ends hsound hstate hstep hid hstatus hintent hdriven
      fun hquery => by
        obtain ⟨answer, hanswer⟩ := hacts.asked hunknown intent hintent hquery
        exact ⟨answer, (hafter answer).mp hanswer⟩
    exact ⟨hends.leaves_iff hunknown, fun _ hlost => (hends.stuck hlost).1⟩

end Ends

/-! ## An output that cannot be recovered -/

/-- An intent whose sink can be asked by a key, and whose output has to be kept. -/
def queryIntent : EffectIntent where
  effectId := "effect-1"
  actionDigest := sampleDigest 'a'
  invocation := sampleInvocationBinding
  effectClass := .idempotent
  idempotencyKey := some "key"
  sinkGuarantee := .queryByKey
  authorization :=
    { grantId := "authorization-aaaaaaaaaaaaaaaaaaaaaaaaaaaaaaaaaaaaaaaaaaaaaaaaaaaaaaaaaaaaaaaa"
      grantDigest := sampleDigest 'a'
      maxUses := 1
      binding := { sampleBinding "step-1" 2 (sampleDigest 'a') (sampleDigest 'a') with
        materialRetentionDigest := sampleDigest 'a'
        receiptProvenanceDigest := some (sampleDigest 'a') } }
  receiptProvenance := some
    { profileVersion := coreReceiptProfileV2
      toolOutputProfile := some toolOutputProfileV1
      invocationId := "invocation-1"
      planId := "plan-1"
      policyDecisionId := "decision-1"
      policyDecisionDigest := sampleDigest 'a'
      executorId := localExecutorId
      executorPlacement := .localHost
      executorPlatform := "linux-x86_64"
      inputSummary := coreReceiptInputSummaryV1
      verificationPlan := [] }

/-- The store after one more append. -/
def appended (store : MemoryRunStore) (call : AppendCall) : MemoryRunStore :=
  (sampleHost flatDigests timeoutPorts store (.append call)).2

theorem appended_sound {store : MemoryRunStore} (h : store.Sound flatDigests flatProtocol)
    (call : AppendCall) : (appended store call).Sound flatDigests flatProtocol :=
  (h.answers (memoryHost_step _ _ _)).sound

/-- The store after the appends of some events, each with the next number. -/
def appendedAll (store : MemoryRunStore) : List (UInt64 × RunEventBody) → MemoryRunStore
  | [] => store
  | (sequence, body) :: rest =>
    appendedAll (appended store (.append store.index.head (sampleEvent sequence body))) rest

theorem appendedAll_sound {events : List (UInt64 × RunEventBody)} {store : MemoryRunStore}
    (h : store.Sound flatDigests flatProtocol) :
    (appendedAll store events).Sound flatDigests flatProtocol := by
  induction events generalizing store with
  | nil => exact h
  | cons event rest ih => exact ih (appended_sound h _)

/-- A run in which the effect of a step became unknown and its sink is going to be asked. -/
def reconcilingStore (material : InvocationMaterialRecord) : MemoryRunStore :=
  let planned := appendedAll (createdStore flatDigests) [(2, .stepPlanned "step-1" "objective" [])]
  let committed := appended planned (.withInvocationMaterial planned.index.head
    (sampleEvent 3 (.effectIntentCommitted "step-1" queryIntent)) material)
  appendedAll committed
    [(4, .effectExecutionStarted "step-1" "effect-1"),
      (5, .effectBecameUnknown "step-1" "effect-1" "timeout"),
      (6, .reconciliationStarted "step-1" "effect-1")]

theorem reconcilingStore_sound (material : InvocationMaterialRecord) :
    (reconcilingStore material).Sound flatDigests flatProtocol :=
  appendedAll_sound (appended_sound (appendedAll_sound (createdStore_sound _)) _)

/-- The proof of the sink, as the event that the runtime builds of it. -/
def resolvedEvent (state : RunState) (resolution : ReconciliationResolution) : RunEvent :=
  state.event ⟨"event-7", "2026-01-01T00:00:00Z"⟩
    (.reconciliationResolved "step-1" "effect-1" resolution (sampleDigest 'b'))

def appliedEvent (state : RunState) : RunEvent := resolvedEvent state .provedApplied

/-- The step is found reconciling; both the reducer and the store refuse the proof that the effect was
applied, and the store accepts the proof that it was not. -/
def refusedQuery (store : MemoryRunStore) (state : RunState) (step : StepState) : Bool :=
  (decide (step.stepId = "step-1" ∧ step.status = .reconciling ∧ step.intent = some queryIntent) &&
    (store.call flatDigests flatProtocol
      (.append (.fromState state) (appliedEvent state))).error?.isSome &&
    (EventRecord.next flatDigests store.index.lastRecord (appliedEvent state)).value?.any
      fun record => (applyRecord flatDigests store.index.state record).error?.isSome) &&
    (store.call flatDigests flatProtocol
      (.append (.fromState state) (resolvedEvent state .provedNotApplied))).value?.isSome

/-- The sink of the sample. -/
def querySink : DirectSink where
  adapter := some ⟨"fs", none, none⟩
  reconciliationInstance := some (gateInstance .available)
  outputValidator := none

theorem appliedAnswer_digest : isSha256Digest (sampleDigest 'b') = true := by decide

/-- Its answers: the effect was applied, and it was not. -/
def appliedAnswer : AdapterReconciliationObservation :=
  .applied ⟨sampleDigest 'b', appliedAnswer_digest⟩

def notAppliedAnswer : AdapterReconciliationObservation :=
  .notApplied ⟨sampleDigest 'b', appliedAnswer_digest⟩

/-- What a call does on the sample. -/
def reconcilingHistory (state : RunState) (answer : AdapterReconciliationObservation)
    (event : RunEvent) (result : Except StoreError Commit) : RuntimeHistory :=
  [.did .loadCurrent (Except.ok (some state)),
    .did (.reconcile ⟨"fs", none, none⟩ ⟨queryIntent, gateInstance .available⟩) answer,
    .did (.createMetadata state) (Except.ok ⟨"event-7", "2026-01-01T00:00:00Z"⟩),
    .did (.append (.append (.fromState state) event)) result]

def refusedHistory (state : RunState) (error : StoreError) : RuntimeHistory :=
  reconcilingHistory state appliedAnswer (appliedEvent state) (Except.error error)

def settledHistory (state : RunState) (commit : Commit) : RuntimeHistory :=
  reconcilingHistory state notAppliedAnswer (resolvedEvent state .provedNotApplied)
    (Except.ok commit)

/-- A call on the step of the sample. -/
def refusedCall (state : RunState) : Routine RuntimeError DriveReport :=
  DurableEffectRuntime.driveStep flatDigests flatProtocol .default querySink ⟨state.runId⟩ "step-1"
    none

/-- A store in which the one proof of the sink is refused and the other one accepted. -/
structure RefusedStore (store : MemoryRunStore) (state : RunState) (step : StepState)
    (error : StoreError) : Prop where
  sound : store.Sound flatDigests flatProtocol
  projection : store.projection = some state
  found : state.steps["step-1"]? = some step
  stepId : step.stepId = "step-1"
  status : step.status = .reconciling
  intent : step.intent = some queryIntent
  call : store.call flatDigests flatProtocol (.append (.fromState state) (appliedEvent state)) =
    .error (.err error)
  refuses : store.Refuses flatDigests (appliedEvent state)
  accepts : ∃ commit store', store.call flatDigests flatProtocol
    (.append (.fromState state) (resolvedEvent state .provedNotApplied)) = .ok (commit, store')

theorem exists_refusedStore : ∃ store state step error, RefusedStore store state step error := by
  have hrun : (InvocationMaterialRecord.new flatDigests "run-1" "step-1" queryIntent
      (sampleDigest '3') .ephemeral).value?.any (fun material =>
        let store := reconcilingStore material
        store.projection.any fun state =>
          (state.steps["step-1"]?).any (refusedQuery store state)) = true := by
    decide +kernel
  obtain ⟨material, -, hrun⟩ := (Option.any_eq_true _ _).mp hrun
  obtain ⟨state, hstate, hrun⟩ := (Option.any_eq_true _ _).mp hrun
  obtain ⟨step, hstep, hrun⟩ := (Option.any_eq_true _ _).mp hrun
  simp only [refusedQuery, Bool.and_eq_true, decide_eq_true_eq] at hrun
  obtain ⟨⟨⟨⟨hid, hstatus, hintent⟩, hcall⟩, hrefuses⟩, haccepts⟩ := hrun
  obtain ⟨⟨commit, store'⟩, haccepts⟩ := Outcome.exists_ok_of_isSome haccepts
  obtain ⟨error, hcall⟩ := Outcome.exists_err_of_isSome hcall
  obtain ⟨record, hrecord, hrefused⟩ := Outcome.exists_ok_of_any hrefuses
  obtain ⟨refusal, hrefused⟩ := Outcome.exists_err_of_isSome hrefused
  exact ⟨_, state, step, error, reconcilingStore_sound material, hstate, hstep, hid, hstatus,
    hintent, hcall, ⟨record, refusal, hrecord, hrefused⟩, commit, store', haccepts⟩

section Refused

variable {store : MemoryRunStore} {state : RunState} {step : StepState} {error : StoreError}

theorem RefusedStore.exec_of_report (h : RefusedStore store state step error)
    {answer : AdapterReconciliationObservation} {event : RunEvent}
    {result : Except StoreError Commit} {store' : MemoryRunStore}
    {outcome : Outcome RuntimeError DriveReport} (action : DriveAction)
    (hreport : reconciliationReport step queryIntent (DirectSink.observeReconciliation answer) =
      .ok (event.body, action))
    (hcommit : Exec (faultlessSystem flatDigests flatProtocol)
      (DurableEffectRuntime.commitReport flatProtocol state event.body action) store
      [.did (.createMetadata state) (Except.ok ⟨"event-7", "2026-01-01T00:00:00Z"⟩),
        .did (.append (.append (.fromState state) event)) result] store' (some outcome)) :
    Exec (faultlessSystem flatDigests flatProtocol) (refusedCall state) store
      (reconcilingHistory state answer event result) store' (some outcome) := by
  rw [reconcilingHistory]
  refine .call ⟨rfl, by rw [h.projection]⟩ ?_
  have hverified : DurableEffectRuntime.verifyLease ⟨state.runId⟩ state = .ok () := by
    rw [DurableEffectRuntime.verifyLease, Outcome.failIf_eq_ok]
    exact fun hne => hne rfl
  show Exec _ (Prog.lift (DurableEffectRuntime.verifyLease ⟨state.runId⟩ state) >>= fun _ =>
    Prog.lift (Outcome.okOr state.steps["step-1"]? _) >>= fun step =>
      DurableEffectRuntime.driveFrom flatDigests flatProtocol .default querySink state step none)
    _ _ _ _
  rw [hverified, Prog.lift_ok_bind, h.found]
  show Exec _ (DurableEffectRuntime.driveFrom flatDigests flatProtocol .default querySink state step
    none) _ _ _ _
  rw [DurableEffectRuntime.driveFrom, h.status]
  show Exec _ (DurableEffectRuntime.finishReconciliation flatProtocol querySink state step) _ _ _ _
  rw [DurableEffectRuntime.finishReconciliation, requireIntent, h.intent]
  refine .call rfl ?_
  show Exec _ (Prog.lift (reconciliationReport step queryIntent
    (DirectSink.observeReconciliation answer)) >>= fun report =>
      DurableEffectRuntime.commitReport flatProtocol state report.1 report.2) _ _ _ _
  rw [hreport]
  exact hcommit

theorem RefusedStore.exec (h : RefusedStore store state step error) :
    Exec (faultlessSystem flatDigests flatProtocol) (refusedCall state) store
      (refusedHistory state error) store (some (.error (.err (.store error)))) := by
  refine h.exec_of_report .reconciliationApplied ?_
    (.call ⟨rfl, _, 0, rfl, rfl⟩ (.call ⟨h.call, rfl, h.refuses⟩ .stop))
  simp only [reconciliationReport, DirectSink.observeReconciliation, appliedAnswer, h.stepId,
    requireObservationValue_ok (trimmed_digest appliedAnswer_digest)]
  rfl

theorem RefusedStore.exec_settled (h : RefusedStore store state step error) :
    ∃ commit store', Exec (faultlessSystem flatDigests flatProtocol) (refusedCall state) store
      (settledHistory state commit) store'
        (some (.ok ⟨.reconciliationNotApplied, commit.state⟩)) := by
  obtain ⟨commit, store', hcall⟩ := h.accepts
  refine ⟨commit, store', h.exec_of_report .reconciliationNotApplied ?_
    (.call ⟨rfl, _, 0, rfl, rfl⟩ (.call hcall .ret))⟩
  simp only [reconciliationReport, DirectSink.observeReconciliation, notAppliedAnswer, h.stepId,
    requireObservationValue_ok (trimmed_digest appliedAnswer_digest)]
  rfl

theorem reconcilingHistory_answered {answer other : AdapterReconciliationObservation}
    {event : RunEvent} {result : Except StoreError Commit} :
    Answered (reconcilingHistory state answer event result) other ↔ other = answer := by
  constructor
  · rintro ⟨key, request, hmem⟩
    simp only [reconcilingHistory, List.mem_cons, List.not_mem_nil, or_false] at hmem
    rcases hmem with hmem | hmem | hmem | hmem
    · cases hmem
    · cases hmem
      rfl
    · cases hmem
    · cases hmem
  · rintro rfl
    exact ⟨_, _, List.mem_cons_of_mem _ List.mem_cons_self⟩

theorem RefusedStore.acts (h : RefusedStore store state step error)
    {answer : AdapterReconciliationObservation} {event : RunEvent}
    {result : Except StoreError Commit} :
    Acts ⟨state.runId⟩ state step (reconcilingHistory state answer event result) where
  lease := rfl
  driven := by simp [h.status]
  executed := by simp [h.status]
  asked _ _ _ _ := ⟨_, reconcilingHistory_answered.mpr rfl⟩

theorem RefusedStore.unrecoverable (h : RefusedStore store state step error) :
    Unrecoverable step appliedAnswer :=
  ⟨by rw [StepState.toolOutputProfile, h.intent]; rfl, _, rfl⟩

end Refused

/-- **A reconciling step can be stuck**: its sink proves the effect applied, the runtime builds the
event for it, the reducer refuses the event, and the store is as it was. -/
theorem applied_is_refused : ∃ store state step error,
    store.Sound flatDigests flatProtocol ∧ store.projection = some state ∧
    state.steps["step-1"]? = some step ∧ step.status = .reconciling ∧
    Acts ⟨state.runId⟩ state step (refusedHistory state error) ∧
    Answered (refusedHistory state error) appliedAnswer ∧
    (∀ next, applyBody flatDigests state (reconciliationEvent step queryIntent appliedAnswer) ≠
      .ok next) ∧
    Exec (faultlessSystem flatDigests flatProtocol) (refusedCall state) store
      (refusedHistory state error) store (some (.error (.err (.store error)))) := by
  obtain ⟨store, state, step, error, h⟩ := exists_refusedStore
  refine ⟨store, state, step, error, h.sound, h.projection, h.found, h.status, h.acts,
    reconcilingHistory_answered.mpr rfl, fun next => ?_, h.exec⟩
  refine applyBody_provedApplied ?_ h.unrecoverable.1
  rw [h.stepId]
  exact h.found

/-- The call on the sample leaves the status of its step as it is where the sink has proved the effect
applied, and moves it where the sink has proved the opposite. -/
theorem drive_step_settles_iff_sample : ∃ store state step error,
    store.Sound flatDigests flatProtocol ∧ store.projection = some state ∧
    state.steps["step-1"]? = some step ∧
    ((∃ status, Reports store "step-1" (.error (.err (.store error))) status ∧
        status ≠ step.status) ↔
      ¬ (step.status ∈ [StepStatus.effectUnknown, .reconciling] ∧
        ∃ answer, Answered (refusedHistory state error) answer ∧ Unrecoverable step answer)) ∧
    (∃ answer, Answered (refusedHistory state error) answer ∧ Unrecoverable step answer) ∧
    ∃ commit store', Exec (faultlessSystem flatDigests flatProtocol) (refusedCall state) store
        (settledHistory state commit) store'
          (some (.ok ⟨.reconciliationNotApplied, commit.state⟩)) ∧
      ∃ status, Reports store' "step-1" (.ok ⟨.reconciliationNotApplied, commit.state⟩) status ∧
        status ≠ step.status := by
  obtain ⟨store, state, step, error, h⟩ := exists_refusedStore
  obtain ⟨commit, store', hsettled⟩ := h.exec_settled
  refine ⟨store, state, step, error, h.sound, h.projection, h.found,
    (drive_step_settles_iff h.sound h.projection h.found h.exec h.acts).1,
    ⟨appliedAnswer, reconcilingHistory_answered.mpr rfl, h.unrecoverable⟩, commit, store', hsettled,
    (drive_step_settles_iff h.sound h.projection h.found hsettled h.acts).1.mpr ?_⟩
  rintro ⟨-, answer, hanswered, -, evidence, rfl⟩
  cases reconcilingHistory_answered.mp hanswered

end Xgeny
