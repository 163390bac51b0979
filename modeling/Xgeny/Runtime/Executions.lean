import Xgeny.Admission.Admitted
import Xgeny.Runs.AtMostOnce
import Xgeny.Runtime.Executor
import Xgeny.Runtime.World

set_option autoImplicit false

/-!
# Executions across crashes

The executor commits the start of an effect before it executes it, and it never executes what it
finds already started. What this means for any sequence of calls, with faults of the store and
crashes at any moment, whatever the adapters answer.

* `ExecutorAllows`: what the own moves so far allow; **`driveStep_obeys`**: a call does only that;
* `starts_le_proofs`: in a journal a step is started at most once more than it was proved not applied;
* **`crash_safe_execution`**: executions have their own committed starts, and so they are bounded.
-/

namespace Xgeny

open EventLog
open Prog (Only Sat only_bind only_lift only_mapErr only_pure sat_bind sat_lift sat_mapErr sat_pure)

/-! ## Starts and proofs of a journal -/

/-- The record proves that an effect of the step was not applied, as a test. -/
def EventRecord.provesStep (r : EventRecord) (id : String) : Bool :=
  match r.event.body with
  | .reconciliationResolved step _ .provedNotApplied _ => step == id
  | _ => false

/-- The number of starts of a step. -/
def stepStarts (records : List EventRecord) (id : String) : ℕ :=
  records.countP fun r => r.startsStep id

/-- The number of proofs that the effect of a step was not applied. -/
def stepProofs (records : List EventRecord) (id : String) : ℕ :=
  records.countP fun r => r.provesStep id

section Counts

variable {D : Digests} {records : List EventRecord} {record : EventRecord} {id : String}

theorem stepStarts_snoc : stepStarts (records ++ [record]) id =
    stepStarts records id + if record.startsStep id = true then 1 else 0 := by
  simp [stepStarts, List.countP_append, List.countP_singleton]

theorem stepProofs_snoc : stepProofs (records ++ [record]) id =
    stepProofs records id + if record.provesStep id = true then 1 else 0 := by
  simp [stepProofs, List.countP_append, List.countP_singleton]

/-- A step has been started at most once more than it was proved not applied, and at most as often
while its intent is committed. -/
structure StartsCovered (records : List EventRecord) (id : String) (view : Option StepState) :
    Prop where
  absent : view = none → stepStarts records id = 0
  covered : stepStarts records id ≤ 1 + stepProofs records id
  committed : ∀ step, view = some step → step.status = .intentCommitted →
    stepStarts records id ≤ stepProofs records id
  planned : ∀ step, view = some step → step.status = .planned → stepStarts records id = 0

theorem StartsCovered.quiet {view view' : Option StepState} (h : StartsCovered records id view)
    (hstart : record.startsStep id = false) (hnone : view' = none → view = none)
    (hcommitted : ∀ step', view' = some step' → step'.status = .intentCommitted →
      ∃ step, view = some step ∧ (step.status = .intentCommitted ∨ step.status = .planned))
    (hplanned : ∀ step', view' = some step' → step'.status = .planned →
      view = none ∨ ∃ step, view = some step ∧ step.status = .planned) :
    StartsCovered (records ++ [record]) id view' := by
  have hstarts : stepStarts (records ++ [record]) id = stepStarts records id := by
    rw [stepStarts_snoc, hstart]
    rfl
  have hproofs : stepProofs records id ≤ stepProofs (records ++ [record]) id := by
    rw [stepProofs_snoc]
    exact Nat.le_add_right _ _
  constructor
  · intro hview
    rw [hstarts]
    exact h.absent (hnone hview)
  · rw [hstarts]
    exact h.covered.trans (Nat.add_le_add_left hproofs 1)
  · intro step' hview hstatus
    rw [hstarts]
    obtain ⟨step, hold, hwas | hwas⟩ := hcommitted step' hview hstatus
    · exact (h.committed step hold hwas).trans hproofs
    · rw [h.planned step hold hwas]
      exact Nat.zero_le _
  · intro step' hview hstatus
    rw [hstarts]
    rcases hplanned step' hview hstatus with hold | ⟨step, hold, hwas⟩
    · exact h.absent hold
    · exact h.planned step hold hwas

theorem startsStep_eq_false (h : ∀ effectId, record.event.body ≠ .effectExecutionStarted id effectId) :
    record.startsStep id = false := by
  rw [Bool.eq_false_iff, ne_eq, EventRecord.startsStep_iff]
  rintro ⟨effectId, hstarts⟩
  exact h effectId hstarts

theorem StartsCovered.move {step step' : StepState} (h : StartsCovered records id (some step))
    (hmove : StepMove record.event.body id step step') :
    StartsCovered (records ++ [record]) id (some step') := by
  generalize hbody : record.event.body = body at hmove
  cases hmove with
  | executionStarted heffect hstatus hattempts =>
    -- the only event that starts the step, while its intent is committed
    have hstart : record.startsStep id = true := EventRecord.startsStep_iff.mpr ⟨_, hbody⟩
    have hbefore := h.committed step rfl hstatus
    have hproofs : stepProofs records id ≤ stepProofs (records ++ [record]) id := by
      rw [stepProofs_snoc]
      exact Nat.le_add_right _ _
    have hstarts : stepStarts (records ++ [record]) id = stepStarts records id + 1 := by
      rw [stepStarts_snoc, if_pos hstart]
    refine ⟨by simp, by omega, ?_, ?_⟩
    · intro s hs
      obtain rfl := Option.some.inj hs
      simp
    · intro s hs
      obtain rfl := Option.some.inj hs
      simp
  | reconciliationResolved heffect hstatus hprofile =>
    rename_i effectId evidence resolution
    have hstart : record.startsStep id = false := startsStep_eq_false (by simp [hbody])
    cases resolution with
    | provedNotApplied =>
      -- the step returns to its intent, with one more proof
      have hproved : record.provesStep id = true := by simp [EventRecord.provesStep, hbody]
      have hcovered := h.covered
      have hstarts : stepStarts (records ++ [record]) id = stepStarts records id := by
        rw [stepStarts_snoc, hstart]
        rfl
      have hproofs : stepProofs (records ++ [record]) id = stepProofs records id + 1 := by
        rw [stepProofs_snoc, if_pos hproved]
      refine ⟨by simp, by omega, fun s _ _ => by omega, ?_⟩
      intro s hs
      obtain rfl := Option.some.inj hs
      simp [ReconciliationResolution.nextStatus]
    | provedApplied | failed =>
      refine h.quiet hstart (by simp) ?_ ?_
      · intro s hs
        obtain rfl := Option.some.inj hs
        simp [ReconciliationResolution.nextStatus]
      · intro s hs
        obtain rfl := Option.some.inj hs
        simp [ReconciliationResolution.nextStatus]
  | verificationRecorded heffect hstatus =>
    rename_i disposition
    refine h.quiet (startsStep_eq_false (by simp [hbody])) (by simp) ?_ ?_
    · intro s hs
      obtain rfl := Option.some.inj hs
      cases disposition <;> simp [VerificationDisposition.nextStatus]
    · intro s hs
      obtain rfl := Option.some.inj hs
      cases disposition <;> simp [VerificationDisposition.nextStatus]
  | becameUnknown | materialUnavailable | succeeded | failed | reconciliationStarted
  | manualRequired | verificationPassed | verificationFailed =>
    refine h.quiet (startsStep_eq_false (by simp [hbody])) (by simp) ?_ ?_
    · intro s hs
      obtain rfl := Option.some.inj hs
      simp
    · intro s hs
      obtain rfl := Option.some.inj hs
      simp

theorem StartsCovered.empty {view : Option StepState} : StartsCovered [] id view :=
  ⟨fun _ => rfl, Nat.zero_le _, fun _ _ _ => Nat.zero_le _, fun _ _ _ => rfl⟩

/-- **Run lemma**: what is appended to a journal keeps every step covered. -/
theorem startsCovered_of_replay {state : RunState} {before : List EventRecord}
    (h : replay D (before ++ records) = .ok state) (id : String) :
    StartsCovered records id state.steps[id]? := by
  refine replay_induction (I := fun journal s => ∀ records, journal = before ++ records →
    StartsCovered records id s.steps[id]?) ?_ ?_ h records rfl
  · intro record goal hcreates records hsplit
    rcases List.eq_nil_or_concat records with rfl | ⟨more, last, rfl⟩
    · exact .empty
    rw [List.concat_eq_append, ← List.append_assoc] at hsplit
    obtain ⟨hnone, hlast⟩ := List.append_inj'
      (show [] ++ [record] = before ++ more ++ [last] from hsplit) rfl
    obtain ⟨-, rfl⟩ := List.append_eq_nil_iff.mp hnone.symm
    obtain rfl := List.singleton_inj.mp hlast
    have hfirst : StartsCovered ([] ++ [record]) id none :=
      StartsCovered.empty.quiet (startsStep_eq_false (by simp [hcreates.body])) (fun _ => rfl)
        (by simp) (by simp)
    simpa [RunState.created, RunState.advance] using hfirst
  · intro journal s record next hs hI _ ht records hsplit
    rcases List.eq_nil_or_concat records with rfl | ⟨more, last, rfl⟩
    · exact .empty
    rw [List.concat_eq_append, ← List.append_assoc] at hsplit
    obtain ⟨hjournal, hlast⟩ := List.append_inj' hsplit rfl
    obtain rfl := List.singleton_inj.mp hlast
    replace hI := hI more hjournal
    rw [List.concat_eq_append, RunState.advance_steps]
    have hlocal := ht.localMove id
    generalize hview : s.steps[id]? = view at hlocal hI
    generalize next.steps[id]? = view' at hlocal
    generalize hbody : record.event.body = body at hlocal
    cases hlocal with
    | idle hsubject =>
      have hstart : record.startsStep id = false := startsStep_eq_false (by
        rintro effectId hstarts
        rw [← hbody, hstarts] at hsubject
        exact hsubject rfl)
      exact hI.quiet hstart (fun h => h) (fun step h hc => ⟨step, h, Or.inl hc⟩)
        fun step h hp => Or.inr ⟨step, h, hp⟩
    | enters hsubject hfresh =>
      have hstart : record.startsStep id = false := startsStep_eq_false (by
        rintro effectId hstarts
        rw [← hbody, hstarts] at hsubject
        exact hsubject rfl)
      refine hI.quiet hstart (by simp) ?_ fun _ _ _ => Or.inl rfl
      intro step hstep
      rw [← Option.some.inj hstep, hfresh]
      simp [StepState.fresh]
    | commits hstatus =>
      refine hI.quiet (startsStep_eq_false (by simp [hbody])) (by simp) ?_ ?_
      · exact fun _ _ _ => ⟨_, rfl, Or.inr hstatus⟩
      · intro step hstep
        obtain rfl := Option.some.inj hstep
        simp
    | moves hmove => exact hI.move (hbody ▸ hmove)

/-- **A step is started at most once more than it was proved not applied**, since any moment. -/
theorem starts_le_proofs {state : RunState} {before : List EventRecord}
    (h : replay D (before ++ records) = .ok state) (id : String) :
    stepStarts records id ≤ 1 + stepProofs records id := (startsCovered_of_replay h id).covered

end Counts

/-! ## What a call may do -/

/-- The state was loaded by an own move, or committed by one. -/
def Known (moves : List RuntimeMove) (state : RunState) : Prop :=
  (⟨.loadCurrent, Except.ok (some state)⟩ : RuntimeMove) ∈ moves ∨
    ∃ call commit, (⟨.append call, Except.ok commit⟩ : RuntimeMove) ∈ moves ∧ commit.state = state

/-- The step of a known state. -/
structure KnownStep (moves : List RuntimeMove) (id : String) (state : RunState) (step : StepState) :
    Prop where
  known : Known moves state
  found : ∃ key : String, state.steps[key]? = some step
  stepId : step.stepId = id

/-- The first load has found the step with its intent committed. -/
def FoundCommitted (moves : List RuntimeMove) (id : String) : Prop :=
  ∃ state step, moves.head? = some ⟨.loadCurrent, Except.ok (some state)⟩ ∧
    state.steps[id]? = some step ∧ step.status = .intentCommitted

/-- The last move has committed the start of the effect. -/
def StartCommitted (moves : List RuntimeMove) (stepId effectId : String) : Prop :=
  ∃ before call commit, moves = before ++ [⟨.append call, Except.ok commit⟩] ∧
    call.event.body = .effectExecutionStarted stepId effectId

/-- What the own moves so far allow: a start while the attempts of the step are below the limit, a
proof that an effect was not applied from a sink that can be asked, and an execution only of what was
found with its intent committed, directly after its start. It neither plans nor verifies. -/
def ExecutorAllows (policy : RuntimePolicy) (id : String) (moves : List RuntimeMove) :
    RuntimeOp → Prop
  | .append call =>
    (∀ stepId effectId, call.event.body = .effectExecutionStarted stepId effectId →
      ∃ state step, KnownStep moves stepId state step ∧ call.expected = .fromState state ∧
        step.attempts < policy.maxExecutionAttempts) ∧
    ∀ stepId effectId evidence,
      call.event.body = .reconciliationResolved stepId effectId .provedNotApplied evidence →
      ∃ state step intent, KnownStep moves stepId state step ∧ step.intent = some intent ∧
        intent.sinkGuarantee.supportsQuery = true
  | .prepare _ _ => FoundCommitted moves id
  | .execute prepared => FoundCommitted moves id ∧
      StartCommitted moves prepared.binding.stepId prepared.binding.effectId
  | .plan _ | .verifyStep _ => False
  | _ => True

section Discipline

variable {D : Digests} {P : Protocol} {J : Schemas} {H : Host} {policy : RuntimePolicy}
  {id : String} {moves : List RuntimeMove} {state : RunState} {step : StepState}

theorem Known.push (h : Known moves state) {op : RuntimeOp} {answer : op.Response} :
    Known (Move.push moves op answer) state := by
  rcases h with hloaded | ⟨call, commit, hmem, hstate⟩
  · exact Or.inl (List.mem_append_left _ hloaded)
  · exact Or.inr ⟨call, commit, List.mem_append_left _ hmem, hstate⟩

theorem KnownStep.push (h : KnownStep moves id state step) {op : RuntimeOp} {answer : op.Response} :
    KnownStep (Move.push moves op answer) id state step := ⟨h.known.push, h.found, h.stepId⟩

theorem FoundCommitted.push (h : FoundCommitted moves id) {op : RuntimeOp} {answer : op.Response} :
    FoundCommitted (Move.push moves op answer) id := by
  obtain ⟨state, step, hhead, hfound, hstatus⟩ := h
  exact ⟨state, step, Move.head?_push hhead, hfound, hstatus⟩

/-- A body that neither starts an effect nor proves that one was not applied. -/
def RunEventBody.Harmless (body : RunEventBody) : Prop :=
  (∀ stepId effectId, body ≠ .effectExecutionStarted stepId effectId) ∧
    ∀ stepId effectId evidence,
      body ≠ .reconciliationResolved stepId effectId .provedNotApplied evidence

theorem RunEventBody.Harmless.allowed {call : AppendCall} (h : call.event.body.Harmless) :
    ExecutorAllows policy id moves (.append call) := by
  constructor
  · intro stepId effectId hbody
    exact absurd hbody (h.1 stepId effectId)
  · intro stepId effectId evidence hbody
    exact absurd hbody (h.2 stepId effectId evidence)

/-- The routine does what is allowed. -/
abbrev Obeys {ε α : Type} (policy : RuntimePolicy) (id : String) (p : Routine ε α)
    (moves : List RuntimeMove) : Prop :=
  p.Sat (ExecutorAllows policy id) Move.push moves fun _ _ => True

theorem appendEvent_obeys {β : Type} {body : RunEventBody}
    {f : Commit → Routine RuntimeError β}
    (happend : ∀ metadata moves', moves' = Move.push moves (.createMetadata state) metadata →
      ∀ event : RunEvent, event.body = body →
        ExecutorAllows policy id moves' (.append (.append (.fromState state) event)))
    (hf : ∀ before event commit, event.body = body →
      Obeys policy id (f commit) (Move.push (Move.push moves (.createMetadata state) before)
        (.append (.append (.fromState state) event)) (Except.ok commit))) :
    Obeys policy id (DurableEffectRuntime.appendEvent P state body >>= f) moves := by
  simp only [Obeys, DurableEffectRuntime.appendEvent, createEvent, Routine.createMetadata,
    Routine.append, sat_bind, sat_mapErr, sat_lift, sat_pure]
  refine ⟨trivial, fun answer => ?_⟩
  cases answer with
  | error error => trivial
  | ok metadata =>
    simp only [Routine.answered, Sat, Outcome.mapErr]
    split
    · refine ⟨happend _ _ rfl _ rfl, fun answer => ?_⟩
      cases answer with
      | error error => trivial
      | ok commit => exact hf _ _ commit rfl
    · trivial

theorem commitReport_obeys {body : RunEventBody} {action : DriveAction}
    (happend : ∀ metadata moves', moves' = Move.push moves (.createMetadata state) metadata →
      ∀ event : RunEvent, event.body = body →
        ExecutorAllows policy id moves' (.append (.append (.fromState state) event))) :
    Obeys policy id (DurableEffectRuntime.commitReport P state body action) moves :=
  appendEvent_obeys happend fun _ _ _ _ => trivial

theorem commitReport_harmless {body : RunEventBody} {action : DriveAction} (h : body.Harmless) :
    Obeys policy id (DurableEffectRuntime.commitReport P state body action) moves :=
  commitReport_obeys fun _ _ _ _ hbody => RunEventBody.Harmless.allowed (hbody ▸ h)

theorem commitToolOutputReport_harmless {body : RunEventBody} {action : DriveAction}
    {output : ToolOutputRecord} (h : body.Harmless) :
    Obeys policy id (DurableEffectRuntime.commitToolOutputReport P state body action output)
      moves := by
  simp only [Obeys, DurableEffectRuntime.commitToolOutputReport, createEvent, Routine.createMetadata,
    Routine.append, sat_bind, sat_mapErr, sat_lift, sat_pure]
  refine ⟨trivial, fun answer => ?_⟩
  cases answer with
  | error error => trivial
  | ok metadata =>
    simp only [Routine.answered, Sat, Outcome.mapErr]
    split
    · refine ⟨RunEventBody.Harmless.allowed h, fun answer => ?_⟩
      cases answer <;> trivial
    · trivial

/-! ### Executing -/

theorem classifyExecutionObservation_harmless {started : RunState} {intent : EffectIntent}
    {outputRequired : Bool} {observation : ExecutionObservation} {pending : PendingExecutionCommit}
    (h : classifyExecutionObservation D started step intent outputRequired observation =
      .ok pending) : pending.body.Harmless := by
  have hsucceeded : ∀ evidence output,
      (PendingExecutionCommit.succeeded step intent evidence output).body.Harmless := by
    intro evidence output
    simp [PendingExecutionCommit.succeeded, RunEventBody.Harmless]
  have hfailed : ∀ evidence, (PendingExecutionCommit.failed step intent evidence).body.Harmless := by
    intro evidence
    simp [PendingExecutionCommit.failed, RunEventBody.Harmless]
  have hunknown : ∀ reason, (PendingExecutionCommit.unknown step intent reason).body.Harmless := by
    intro reason
    simp [PendingExecutionCommit.unknown, RunEventBody.Harmless]
  cases observation with
  | succeeded evidence =>
    obtain ⟨_, -, h⟩ := Outcome.bind_eq_ok.mp h
    cases outputRequired with
    | true =>
      obtain rfl := Except.ok.inj h
      exact hunknown _
    | false =>
      obtain rfl := Except.ok.inj h
      exact hsucceeded _ _
  | succeededWithOutput evidence output =>
    obtain ⟨_, -, h⟩ := Outcome.bind_eq_ok.mp h
    obtain ⟨current, -, h⟩ := Outcome.bind_eq_ok.mp h
    cases outputRequired with
    | true =>
      simp only [if_true] at h
      split at h
      · obtain rfl := Except.ok.inj h
        exact hsucceeded _ _
      · obtain rfl := Except.ok.inj h
        exact hunknown _
    | false =>
      obtain rfl := Except.ok.inj h
      exact hunknown _
  | failed evidence =>
    obtain ⟨_, -, h⟩ := Outcome.bind_eq_ok.mp h
    obtain rfl := Except.ok.inj h
    exact hfailed _
  | unknown reason =>
    obtain ⟨_, -, h⟩ := Outcome.bind_eq_ok.mp h
    obtain rfl := Except.ok.inj h
    exact hunknown _

theorem executeStarted_obeys {sink : DirectSink} {started : RunState} {intent : EffectIntent}
    {prepared : CorePreparedEffect} (hfound : FoundCommitted moves id)
    (hstart : StartCommitted moves prepared.binding.stepId prepared.binding.effectId) :
    Obeys policy id
      (DurableEffectRuntime.executeStarted D P sink started step intent prepared) moves := by
  simp only [Obeys, DurableEffectRuntime.executeStarted, DirectSink.execute, Routine.execute, sat_bind,
    sat_lift, sat_pure]
  refine ⟨⟨hfound, hstart⟩, fun observation => ?_⟩
  simp only [Sat]
  split
  · rename_i pending hpending
    have hharmless := classifyExecutionObservation_harmless hpending
    split
    · exact commitToolOutputReport_harmless hharmless
    · exact commitReport_harmless hharmless
  · trivial

theorem requirePrepared_eq_ok {prepared : Option CorePreparedEffect} {intent : EffectIntent}
    {effect : CorePreparedEffect}
    (h : DurableEffectRuntime.requirePrepared D policy state step prepared = .ok (intent, effect)) :
    prepared = some effect ∧ step.intent = some intent ∧
      step.attempts < policy.maxExecutionAttempts ∧ effect.binding.stepId = step.stepId ∧
      effect.binding.effectId = intent.effectId := by
  simp only [DurableEffectRuntime.requirePrepared, requireIntent, verifyPreparedInvocation,
    Outcome.bind_eq_ok, Outcome.exists_unit, Outcome.okOr_eq_ok, Outcome.failIf_eq_ok, not_or,
    ne_eq, Decidable.not_not, Outcome.pure_eq_ok, Prod.mk.injEq] at h
  obtain ⟨found, hintent, hattempts, given, hprepared, ⟨-, ⟨hstep, heffect⟩, -⟩, rfl, rfl⟩ := h
  exact ⟨hprepared, hintent, UInt32.not_le.mp hattempts, hstep, heffect⟩

theorem executeIntent_obeys {sink : DirectSink} {prepared : Option CorePreparedEffect}
    (hknown : KnownStep moves step.stepId state step)
    (hfound : prepared ≠ none → FoundCommitted moves id) :
    Obeys policy id
      (DurableEffectRuntime.executeIntent D P policy sink state step prepared) moves := by
  simp only [Obeys, DurableEffectRuntime.executeIntent, sat_bind, sat_lift, sat_mapErr]
  split
  · rename_i checked hchecked
    obtain ⟨intent, effect⟩ := checked
    obtain ⟨rfl, -, hattempts, hstep, heffect⟩ := requirePrepared_eq_ok hchecked
    have hfound := hfound (by simp)
    refine ⟨trivial, fun answer => ?_⟩
    cases answer with
    | error error => trivial
    | ok found =>
      simp only [Routine.answered, Sat, Outcome.mapErr]
      split
      · split
        · rw [← sat_bind]
          refine appendEvent_obeys ?_ ?_
          · rintro metadata _ rfl event hbody
            constructor
            · intro stepId effectId hstarts
              obtain ⟨rfl, -⟩ := RunEventBody.effectExecutionStarted.inj (hbody.symm.trans hstarts)
              exact ⟨state, step, hknown.push.push, rfl, hattempts⟩
            · intro stepId effectId evidence hproves
              exact absurd (hbody.symm.trans hproves) (by simp)
          · intro metadata event commit hbody
            refine executeStarted_obeys hfound.push.push.push ⟨_, _, commit, rfl, ?_⟩
            rw [hstep, heffect]
            exact hbody
        · trivial
      · trivial
  · trivial

/-! ### Reconciling -/

theorem reconciliationReport_not_start {intent : EffectIntent}
    {observation : ReconciliationObservation} {body : RunEventBody} {action : DriveAction}
    (h : reconciliationReport step intent observation = .ok (body, action)) :
    (∀ stepId effectId, body ≠ .effectExecutionStarted stepId effectId) ∧
      ∀ stepId effectId evidence,
        body = .reconciliationResolved stepId effectId .provedNotApplied evidence →
        stepId = step.stepId := by
  cases observation with
  | applied evidence | notApplied evidence | failed evidence | inconclusive evidence =>
    obtain ⟨_, -, h⟩ := Outcome.bind_eq_ok.mp h
    obtain ⟨rfl, -⟩ := Prod.mk.inj (Except.ok.inj h)
    simp

theorem finishReconciliation_obeys {sink : DirectSink}
    (hknown : KnownStep moves step.stepId state step) :
    Obeys policy id (DurableEffectRuntime.finishReconciliation P sink state step) moves := by
  simp only [Obeys, DurableEffectRuntime.finishReconciliation, sat_bind, sat_lift]
  split
  · rename_i intent hintent
    split
    · rename_i hquery
      simp only [DirectSink.reconcile, Routine.reconcile, sat_bind, sat_lift, sat_pure]
      split
      · split
        · refine ⟨trivial, fun answer => ?_⟩
          simp only [Sat]
          split
          · rename_i report hreport
            obtain ⟨body, action⟩ := report
            obtain ⟨hstart, hproof⟩ := reconciliationReport_not_start hreport
            refine commitReport_obeys ?_
            rintro metadata _ rfl event hbody
            constructor
            · intro stepId effectId hstarts
              exact absurd (hbody.symm.trans hstarts) (hstart stepId effectId)
            · intro stepId effectId evidence hproves
              obtain rfl := hproof stepId effectId evidence (hbody.symm.trans hproves)
              exact ⟨state, step, intent, hknown.push.push, Outcome.okOr_eq_ok.mp hintent, hquery⟩
          · trivial
        · trivial
      · trivial
    · exact commitReport_harmless (by simp [RunEventBody.Harmless])
  · trivial

theorem beginReconciliation_obeys {sink : DirectSink} :
    Obeys policy id (DurableEffectRuntime.beginReconciliation P sink state step) moves := by
  simp only [Obeys, DurableEffectRuntime.beginReconciliation, sat_bind, sat_lift]
  split
  · split
    · refine appendEvent_obeys ?_ ?_
      · rintro metadata _ rfl event hbody
        refine RunEventBody.Harmless.allowed ?_
        rw [show (AppendCall.append (.fromState state) event).event = event from rfl, hbody]
        simp [RunEventBody.Harmless]
      · intro metadata event commit _
        simp only [Obeys, sat_bind, sat_lift]
        split
        · rename_i reconciling hreconciling
          have hknown : Known (Move.push (Move.push moves (.createMetadata state) metadata)
              (.append (.append (.fromState state) event)) (Except.ok commit)) commit.state :=
            Or.inr ⟨_, commit, List.mem_append_right _ (List.mem_singleton_self _), rfl⟩
          exact finishReconciliation_obeys ⟨hknown, ⟨_, Outcome.okOr_eq_ok.mp hreconciling⟩, rfl⟩
        · trivial
    · exact commitReport_harmless (by simp [RunEventBody.Harmless])
  · trivial

/-! ### The runtime and the executor -/

theorem driveFrom_obeys {sink : DirectSink} {prepared : Option CorePreparedEffect}
    (hknown : KnownStep moves step.stepId state step)
    (hfound : prepared ≠ none → FoundCommitted moves id) :
    Obeys policy id
      (DurableEffectRuntime.driveFrom D P policy sink state step prepared) moves := by
  unfold DurableEffectRuntime.driveFrom
  split
  · exact executeIntent_obeys hknown hfound
  · simp only [Obeys, DurableEffectRuntime.markRecoveredExecutionUnknown, sat_bind, sat_lift]
    split
    · exact commitReport_harmless (by simp [RunEventBody.Harmless])
    · trivial
  · exact beginReconciliation_obeys
  · exact finishReconciliation_obeys hknown
  all_goals trivial

theorem runtime_obeys {sink : DirectSink} {lease : RunLease} {stepId : String}
    {prepared : Option CorePreparedEffect} (hfound : prepared ≠ none → FoundCommitted moves id) :
    Obeys policy id
      (DurableEffectRuntime.driveStep D P policy sink lease stepId prepared) moves := by
  simp only [Obeys, DurableEffectRuntime.driveStep, Routine.loadCurrent, sat_bind, sat_lift,
    sat_mapErr]
  refine ⟨trivial, fun answer => ?_⟩
  cases answer with
  | error error => trivial
  | ok current =>
    simp only [Routine.answered, Sat, Outcome.mapErr]
    split
    · rename_i state hstate
      split
      · split
        · rename_i step hstep
          have hloaded : Known (Move.push moves .loadCurrent (Except.ok current)) state := by
            rw [Outcome.okOr_eq_ok.mp hstate]
            exact Or.inl (List.mem_append_right _ (List.mem_singleton_self _))
          exact driveFrom_obeys ⟨hloaded, ⟨stepId, Outcome.okOr_eq_ok.mp hstep⟩, rfl⟩
            fun hsome => (hfound hsome).push
        · trivial
      · trivial
    · trivial

theorem driveWithoutAdapter_obeys {lease : RunLease} {stepId : String} :
    Obeys policy id (DirectExecutor.driveWithoutAdapter D P policy lease stepId) moves := by
  simp only [Obeys, DirectExecutor.driveWithoutAdapter, sat_mapErr]
  exact runtime_obeys (by simp)

theorem driveCommittedIntent_obeys {lease : RunLease} {capabilities : CapabilityRegistry}
    {adapters : EffectAdapterRegistry} {stepId : String} {material : Option InvocationMaterial}
    (hfound : FoundCommitted moves id) :
    Obeys policy id (DirectExecutor.driveCommittedIntent D P J H policy lease capabilities adapters
      state stepId step material) moves := by
  simp only [Obeys, DirectExecutor.driveCommittedIntent, DirectExecutor.verifyMaterial,
    Routine.loadInvocationMaterial, Routine.prepare, sat_bind, sat_lift, sat_mapErr]
  split
  · split
    · refine ⟨trivial, fun answer => ?_⟩
      cases answer with
      | error error => trivial
      | ok found =>
        simp only [Routine.answered, Sat, Outcome.mapErr]
        split
        · split
          · split
            · split
              · split
                · refine ⟨hfound.push, fun answer => ?_⟩
                  cases answer with
                  | error error => trivial
                  | ok invocation =>
                    exact (runtime_obeys fun _ => hfound.push.push).mono fun _ _ _ => trivial
                · trivial
              · trivial
            · trivial
          · trivial
        · trivial
    · trivial
  · trivial

theorem driveUnknownEffect_obeys {lease : RunLease} {capabilities : CapabilityRegistry}
    {adapters : EffectAdapterRegistry} {stepId : String} :
    Obeys policy id (DirectExecutor.driveUnknownEffect D P H policy lease capabilities adapters
      stepId step) moves := by
  simp only [Obeys, DirectExecutor.driveUnknownEffect, sat_bind, sat_lift]
  split
  · split
    · split
      · simp only [sat_bind, sat_lift]
        split
        · simp only [sat_mapErr]
          exact runtime_obeys (by simp)
        · trivial
      · exact driveWithoutAdapter_obeys
    · trivial
  · trivial

/-- **A call of the executor does only what is allowed.** -/
theorem driveStep_obeys {lease : RunLease} {capabilities : CapabilityRegistry}
    {adapters : EffectAdapterRegistry} {stepId : String} {material : Option InvocationMaterial} :
    Obeys policy stepId (DirectExecutor.driveStep D P J H policy lease capabilities adapters stepId
      material) [] := by
  simp only [Obeys, DirectExecutor.driveStep, DirectExecutor.requireCurrentState,
    Routine.loadCurrent, sat_bind, sat_lift, sat_mapErr]
  refine ⟨trivial, fun answer => ?_⟩
  cases answer with
  | error error => trivial
  | ok current =>
    simp only [Routine.answered, Sat, Outcome.mapErr]
    split
    · rename_i state hstate
      split
      · split
        · rename_i step hstep
          unfold DirectExecutor.driveFrom
          split
          · rename_i hstatus
            refine driveCommittedIntent_obeys ⟨state, step, ?_, Outcome.okOr_eq_ok.mp hstep, hstatus⟩
            rw [Outcome.okOr_eq_ok.mp hstate]
            rfl
          · exact driveUnknownEffect_obeys
          · exact driveUnknownEffect_obeys
          all_goals exact driveWithoutAdapter_obeys
        · trivial
      · trivial
    · trivial

end Discipline

/-! ## Runs of calls -/

/-- A call of the executor, by some process, on some step and with some material. -/
def ExecutorCall (D : Digests) (P : Protocol) (J : Schemas) (policy : RuntimePolicy)
    (p : Routine DirectExecutorError DriveReport) : Prop :=
  ∃ host lease capabilities adapters stepId material,
    p = DirectExecutor.driveStep D P J host policy lease capabilities adapters stepId material

/-- The effect that a move executes. -/
def executed? : RuntimeMove → Option CorePreparedEffect
  | ⟨.execute prepared, _⟩ => some prepared
  | _ => none

/-- The effects that some moves execute, in their order. -/
def executions (moves : List RuntimeMove) : List CorePreparedEffect := moves.filterMap executed?

/-- The number of executions of a step. -/
def stepExecutions (moves : List RuntimeMove) (id : String) : ℕ :=
  (executions moves).countP fun prepared => prepared.binding.stepId == id

/-- The record starts the prepared effect. -/
def CorePreparedEffect.StartedBy (prepared : CorePreparedEffect) (record : EventRecord) : Prop :=
  record.Starts prepared.binding.stepId prepared.binding.effectId

/-- The intent was issued by the admission of an invocation. -/
def IssuedByAdmission (D : Digests) (J : Schemas) (intent : EffectIntent) : Prop :=
  ∃ host pending state definition instance_ selectedInstanceId evaluation decidedAt issued,
    issueOnceEffect D J host pending state definition instance_ selectedInstanceId evaluation
      decidedAt = .ok issued ∧ intent = issued.intent

section Moves

variable {moves : List RuntimeMove} {id : String}

theorem executed?_eq_some {move : RuntimeMove} {prepared : CorePreparedEffect}
    (h : executed? move = some prepared) : ∃ answer, move = ⟨.execute prepared, answer⟩ := by
  obtain ⟨op, answer⟩ := move
  cases op with
  | execute given =>
    obtain rfl := Option.some.inj h
    exact ⟨answer, rfl⟩
  | _ => simp [executed?] at h

theorem committed?_eq_some {move : RuntimeMove} {record : EventRecord}
    (h : committed? move = some record) :
    ∃ call commit, move = ⟨.append call, Except.ok commit⟩ ∧ commit.record = record := by
  obtain ⟨op, answer⟩ := move
  cases op with
  | append call =>
    cases answer with
    | ok commit => exact ⟨call, commit, rfl, Option.some.inj h⟩
    | error error => simp [committed?] at h
  | _ => simp [committed?] at h

/-- When every execution directly follows the commit of its start, the executions have distinct
starts. -/
theorem starts_of_executions
    (hstarts : ∀ before prepared answer after,
      moves = before ++ (⟨.execute prepared, answer⟩ : RuntimeMove) :: after →
      ∃ earlier call commit, before = earlier ++ [(⟨.append call, Except.ok commit⟩ : RuntimeMove)] ∧
        prepared.StartedBy commit.record) :
    ∃ starts, starts.Sublist (committed moves) ∧
      List.Forall₂ CorePreparedEffect.StartedBy (executions moves) starts := by
  -- an execution is taken away together with its start
  induction hlength : moves.length using Nat.strong_induction_on generalizing moves with
  | _ length ih =>
    rcases List.eq_nil_or_concat moves with rfl | ⟨before, last, rfl⟩
    · exact ⟨[], List.nil_sublist _, .nil⟩
    rw [List.concat_eq_append] at hstarts hlength ⊢
    have hearlier : ∀ shorter rest, before = shorter ++ rest → ∃ starts,
        starts.Sublist (committed shorter) ∧
          List.Forall₂ CorePreparedEffect.StartedBy (executions shorter) starts := by
      rintro shorter rest rfl
      refine ih shorter.length (by simp at hlength; omega) (fun before prepared answer after hsplit => ?_)
        rfl
      exact hstarts before prepared answer (after ++ (rest ++ [last])) (by simp [hsplit])
    cases hlast : executed? last with
    | none =>
      obtain ⟨starts, hsub, hall⟩ := hearlier before [] (List.append_nil _).symm
      refine ⟨starts, ?_, ?_⟩
      · rw [committed, List.filterMap_append]
        exact hsub.trans (List.sublist_append_left _ _)
      · simpa [executions, List.filterMap_append, hlast] using hall
    | some prepared =>
      obtain ⟨answer, rfl⟩ := executed?_eq_some hlast
      obtain ⟨earlier, call, commit, hbefore, hstarted⟩ := hstarts before prepared answer [] rfl
      obtain ⟨starts, hsub, hall⟩ := hearlier earlier _ hbefore
      refine ⟨starts ++ [commit.record], ?_, ?_⟩
      · rw [hbefore]
        simp only [committed, List.filterMap_append]
        refine List.Sublist.trans ?_ (List.sublist_append_left _ _)
        exact hsub.append (List.Sublist.refl _)
      · rw [hbefore]
        simp only [executions, List.filterMap_append]
        rw [List.append_assoc]
        exact List.rel_append hall (.cons hstarted .nil)

theorem stepExecutions_le {starts : List EventRecord}
    (h : List.Forall₂ CorePreparedEffect.StartedBy (executions moves) starts) :
    stepExecutions moves id ≤ stepStarts starts id := by
  rw [stepExecutions, stepStarts]
  generalize executions moves = executed at h ⊢
  induction h with
  | nil => exact Nat.le_refl _
  | @cons prepared record executed starts hstarted _ ih =>
    rw [List.countP_cons, List.countP_cons]
    refine Nat.add_le_add ih ?_
    by_cases hstep : (prepared.binding.stepId == id) = true
    · have hstart : record.startsStep id = true := by
        rw [← beq_iff_eq.mp hstep]
        exact EventRecord.startsStep_iff.mpr ⟨_, hstarted⟩
      rw [if_pos hstep, if_pos hstart]
    · rw [if_neg hstep]
      exact Nat.zero_le _

theorem countP_le_of_split {α : Type} {good : α → Bool} {xs : List α} {bound : ℕ}
    (h : ∀ before x after, xs = before ++ x :: after → good x = true →
      before.countP good < bound) : xs.countP good ≤ bound := by
  induction xs using List.reverseRecOn with
  | nil => exact Nat.zero_le _
  | append_singleton xs x ih =>
    rw [List.countP_append, List.countP_singleton]
    by_cases hx : good x = true
    · have hbefore := h xs x [] rfl hx
      rw [if_pos hx]
      omega
    · rw [if_neg hx]
      refine ih fun before y after hsplit hy => h before y (after ++ [x]) ?_ hy
      rw [hsplit, List.append_assoc, List.cons_append]

end Moves

section Calls

variable {D : Digests} {P : Protocol} {J : Schemas} {policy : RuntimePolicy}
  {start store : MemoryRunStore} {state : RunState} {id : String}
  {segments : List (Segment RuntimeOp RuntimeOp.Response Commit DirectExecutorError DriveReport)}
  {before after : List RuntimeMove} {op : RuntimeOp} {answer : op.Response}

theorem Known.seen {history : RuntimeHistory} {moves : List RuntimeMove} (h : start.Sound D P)
    (ht : Trace (runtimeSystem D P) start history store) (hknown : Known moves state)
    (hmoves : ∀ move ∈ moves, move ∈ Happening.own history) : Seen D store state := by
  rcases hknown with hloaded | ⟨call, commit, hcommitted, rfl⟩
  · exact seen_of_loaded h ht (hmoves _ hloaded)
  · obtain ⟨before, after, hsplit⟩ := List.append_of_mem (hmoves _ hcommitted)
    obtain ⟨earlier, m, m', _, _, _, hmove, hext⟩ := move_of_append h ht hsplit
    exact (hmove.sound.seen hmove.projection).extends hext

theorem attempts_of_replay {records : List EventRecord} {key : String} {step : StepState}
    (h : replay D records = .ok state) (hstep : state.steps[key]? = some step) :
    step.attempts.toNat = stepStarts records step.stepId := by
  have hid := (reachable_step_shape ⟨_, h⟩ key step hstep).1
  have hattempts := (stepHistory_of_replay h key).attempts
  rw [hstep] at hattempts
  rw [hid]
  exact hattempts

/-- **What every move of a session was allowed.** -/
theorem allowed_of_session
    (hsession : Session (runtimeSystem D P) (ExecutorCall D P J policy) start segments store)
    (hsplit : Happening.own (Segment.histories segments) = before ++ ⟨op, answer⟩ :: after) :
    ∃ id earlier now, before = earlier ++ now ∧ ExecutorAllows policy id now op := by
  obtain ⟨segment, _, earlier, now, later, m, m', hbefore, hown, hkind, hexec⟩ :=
    hsession.own_split hsplit
  obtain ⟨host, lease, capabilities, adapters, stepId, material, hprogram⟩ := hkind
  rw [hprogram] at hexec
  exact ⟨stepId, earlier, now, hbefore, hexec.follows_own driveStep_obeys hown⟩

theorem starts_lt_limit {call : AppendCall} {commit : Commit} (hstart : start.Sound D P)
    (hsession : Session (runtimeSystem D P) (ExecutorCall D P J policy) start segments store)
    (hsplit : Happening.own (Segment.histories segments) =
      before ++ ⟨.append call, Except.ok commit⟩ :: after)
    (hrecord : commit.record.startsStep id = true) :
    stepStarts (committed before) id < policy.maxExecutionAttempts.toNat := by
  obtain ⟨effectId, hstarts⟩ := EventRecord.startsStep_iff.mp hrecord
  obtain ⟨_, earlier, now, rfl, hallowed, _⟩ := allowed_of_session hsession hsplit
  obtain ⟨history, m, m', htrace, hbefore, hm, hmove, _⟩ :=
    move_of_append hstart hsession.trace hsplit
  obtain ⟨state, step, hknown, hexpected, hattempts⟩ :=
    hallowed id effectId (by rw [← hmove.event]; exact hstarts)
  -- the state that the call has seen is the one that the start extends
  have hseen : Seen D m state := by
    refine hknown.known.seen hstart htrace fun move hmem => ?_
    rw [hbefore]
    exact List.mem_append_right _ hmem
  obtain ⟨_, hreplay⟩ := hseen.current hm (hmove.expected.symm.trans hexpected)
  obtain ⟨key, hfound⟩ := hknown.found
  have hcount := attempts_of_replay hreplay hfound
  rw [hknown.stepId] at hcount
  obtain ⟨added, hadded, hsub⟩ := committed_of_trace hstart htrace
  rw [hbefore] at hsub
  calc stepStarts (committed (earlier ++ now)) id
      ≤ stepStarts added id := hsub.countP_le
    _ ≤ stepStarts m.records id := by
      rw [hadded, stepStarts, stepStarts, List.countP_append]
      exact Nat.le_add_left _ _
    _ = step.attempts.toNat := hcount.symm
    _ < policy.maxExecutionAttempts.toNat := UInt32.lt_iff_toNat_lt.mp hattempts

theorem starts_le_limit (hstart : start.Sound D P)
    (hsession : Session (runtimeSystem D P) (ExecutorCall D P J policy) start segments store) :
    stepStarts (committed (Happening.own (Segment.histories segments))) id ≤
      policy.maxExecutionAttempts.toNat := by
  refine countP_le_of_split fun before record after hsplit hrecord => ?_
  obtain ⟨moves, rest, hmoves, rfl, hrest⟩ := List.filterMap_eq_append_iff.mp hsplit
  obtain ⟨others, move, later, rfl, hothers, hmove, _⟩ := List.filterMap_eq_cons_iff.mp hrest
  obtain ⟨call, commit, rfl, rfl⟩ := committed?_eq_some hmove
  have hstarted : Happening.own (Segment.histories segments) =
      (moves ++ others) ++ ⟨.append call, Except.ok commit⟩ :: later := by
    rw [hmoves, List.append_assoc]
  have hlt := starts_lt_limit hstart hsession hstarted hrecord
  rwa [committed, List.filterMap_append, List.filterMap_eq_nil_iff.mpr hothers,
    List.append_nil] at hlt

theorem started_of_session {prepared : CorePreparedEffect}
    {answer : (RuntimeOp.execute prepared).Response} (hstart : start.Sound D P)
    (hsession : Session (runtimeSystem D P) (ExecutorCall D P J policy) start segments store)
    (hsplit : Happening.own (Segment.histories segments) =
      before ++ ⟨.execute prepared, answer⟩ :: after) :
    ∃ earlier call commit, before = earlier ++ [(⟨.append call, Except.ok commit⟩ : RuntimeMove)] ∧
      prepared.StartedBy commit.record := by
  obtain ⟨_, earlier, now, rfl, _, last, call, commit, rfl, hbody⟩ :=
    allowed_of_session hsession hsplit
  rw [List.append_assoc, List.append_assoc] at hsplit
  have hstarted : Happening.own (Segment.histories segments) = (earlier ++ last) ++
      ⟨.append call, Except.ok commit⟩ :: ⟨.execute prepared, answer⟩ :: after := by
    rw [hsplit, List.append_assoc]
    rfl
  obtain ⟨_, m, m', _, _, _, hmove, _⟩ := move_of_append hstart hsession.trace hstarted
  refine ⟨earlier ++ last, call, commit, by rw [List.append_assoc], ?_⟩
  rw [CorePreparedEffect.StartedBy, EventRecord.Starts, hmove.event]
  exact hbody

theorem not_mem_of_appended {records added : List EventRecord} {record : EventRecord}
    (h : replay D (records ++ added) = .ok state) (hadded : record ∈ added) : record ∉ records := by
  intro hmem
  obtain ⟨i, hi, hfirst⟩ := List.mem_iff_getElem.mp hmem
  obtain ⟨j, hj, hsecond⟩ := List.mem_iff_getElem.mp hadded
  have hjournal := replay_journal h
  have hbefore := hjournal.position i record (by
    rw [EventLog.At, List.getElem?_append_left hi, List.getElem?_eq_getElem hi, hfirst])
  have hafter := hjournal.position (records.length + j) record (by
    rw [EventLog.At, List.getElem?_append_right (Nat.le_add_right _ _), Nat.add_sub_cancel_left,
      List.getElem?_eq_getElem hj, hsecond])
  omega

theorem no_proof_of_session {added : List EventRecord} (hstart : start.Sound D P)
    (hsession : Session (runtimeSystem D P) (ExecutorCall D P J policy) start segments store)
    (hissued : ∀ r ∈ store.records, ∀ intent, r.Commits id intent → IssuedByAdmission D J intent)
    (hadded : store.records = start.records ++ added)
    (hothers : ∀ commit, Happening.other commit ∈ Segment.histories segments →
      commit.record.provesStep id = false) : stepProofs added id = 0 := by
  refine List.countP_eq_zero.mpr fun record hmem hproves => ?_
  have hsound := (extends_of_trace hstart hsession.trace).sound
  have hrecord : record ∈ store.records := hadded ▸ List.mem_append_right _ hmem
  cases origin_of_trace hstart hsession.trace hrecord with
  | kept hkept =>
    cases hprojection : store.projection with
    | none => rw [hsound.records_empty hprojection] at hrecord; cases hrecord
    | some state => exact not_mem_of_appended (hadded ▸ hsound.replay hprojection) hmem hkept
  | other hmove hrecord => rw [hrecord, hothers _ hmove] at hproves; cases hproves
  | verified hmove =>
    obtain ⟨earlier, later, hsplit⟩ := List.append_of_mem hmove
    obtain ⟨_, _, _, _, hallowed⟩ := allowed_of_session hsession hsplit
    exact hallowed
  | @own call answer hmove hevent =>
    obtain ⟨earlier, later, hsplit⟩ := List.append_of_mem hmove
    obtain ⟨_, other, now, rfl, _, hallowed⟩ := allowed_of_session hsession hsplit
    obtain ⟨effectId, evidence, hbody⟩ : ∃ effectId evidence, call.event.body =
        .reconciliationResolved id effectId .provedNotApplied evidence := by
      rw [← hevent]
      unfold EventRecord.provesStep at hproves
      split at hproves
      · rename_i step effectId evidence hbody
        exact ⟨effectId, evidence, by rw [hbody, beq_iff_eq.mp hproves]⟩
      · cases hproves
    obtain ⟨state, step, intent, hknown, hintent, hquery⟩ := hallowed id effectId evidence hbody
    have hseen : Seen D store state := by
      refine hknown.known.seen hstart hsession.trace fun move hmem => ?_
      rw [hsplit]
      exact List.mem_append_left _ (List.mem_append_right _ hmem)
    obtain ⟨records, hrecords, hreplay⟩ := hseen
    obtain ⟨key, hfound⟩ := hknown.found
    have hkey := (reachable_step_shape ⟨_, hreplay⟩ key step hfound).1
    have hhistory := stepHistory_of_replay hreplay id
    rw [← hknown.stepId, hkey, hfound] at hhistory
    obtain ⟨i, r, hi, hcommits, _⟩ := hhistory.committed step intent rfl hintent
    rw [← hkey, hknown.stepId] at hcommits
    have hr : r ∈ store.records := hrecords.subset (List.mem_of_getElem? hi)
    obtain ⟨_, _, _, _, _, _, _, _, issued, hissue, rfl⟩ := hissued r hr intent hcommits
    rw [(issueOnceEffect_eq_ok hissue).sinkGuarantee] at hquery
    cases hquery

theorem idle_call {segment : Segment RuntimeOp RuntimeOp.Response Commit DirectExecutorError
      DriveReport} {host : Host} {lease : RunLease} {capabilities : CapabilityRegistry}
    {adapters : EffectAdapterRegistry} {stepId : String} {material : Option InvocationMaterial}
    {m m' : MemoryRunStore} {step : StepState}
    (hprogram : segment.program =
      DirectExecutor.driveStep D P J host policy lease capabilities adapters stepId material)
    (hexec : Exec (runtimeSystem D P) segment.program m segment.history m' segment.outcome)
    (hloaded : (Happening.own segment.history).head? =
      some ⟨.loadCurrent, Except.ok (some state)⟩)
    (hstep : state.steps[stepId]? = some step) (hstatus : step.status ≠ .intentCommitted) :
    ∀ move ∈ Happening.own segment.history,
      (∀ key request, move.1 ≠ .prepare key request) ∧ ∀ prepared, move.1 ≠ .execute prepared := by
  intro move hmem
  obtain ⟨before, after, hsplit⟩ := List.append_of_mem hmem
  rw [hprogram] at hexec
  have hallowed := hexec.follows_own driveStep_obeys hsplit
  have hnever : ¬ FoundCommitted before stepId := by
    rintro ⟨state', step', hhead, hstep', hcommitted⟩
    rw [hsplit, List.head?_append, hhead] at hloaded
    obtain ⟨_, hanswer⟩ := Sigma.mk.inj (Option.some.inj hloaded)
    obtain rfl := Option.some.inj (Except.ok.inj (eq_of_heq hanswer))
    rw [hstep] at hstep'
    obtain rfl := Option.some.inj hstep'
    exact hstatus hcommitted
  constructor
  · intro key request hop
    rw [hop] at hallowed
    exact hnever hallowed
  · intro prepared hop
    rw [hop] at hallowed
    exact hnever hallowed.1

/-- **Executions are crash-safe.** In every sequence of calls of the executor, on any steps and with
any materials, with faults of the store, crashes at any moment, any answers of the adapters, and the
appends of others in between: an execution directly follows the commit of its own start; so a step is
executed at most as often as the policy allows, and at most once more than it was proved not applied,
which is once when its intents come from the admission; and a call that finds the step after its start
neither prepares nor executes. -/
theorem crash_safe_execution (hstart : start.Sound D P)
    (hsession : Session (runtimeSystem D P) (ExecutorCall D P J policy) start segments store) :
    (∀ before prepared answer after,
      Happening.own (Segment.histories segments) =
        before ++ (⟨.execute prepared, answer⟩ : RuntimeMove) :: after →
      ∃ earlier call commit, before = earlier ++ [(⟨.append call, Except.ok commit⟩ : RuntimeMove)] ∧
        prepared.StartedBy commit.record) ∧
    (∃ added starts, store.records = start.records ++ added ∧ starts.Sublist added ∧
      List.Forall₂ CorePreparedEffect.StartedBy
        (executions (Happening.own (Segment.histories segments))) starts) ∧
    (∀ id, stepExecutions (Happening.own (Segment.histories segments)) id ≤
        policy.maxExecutionAttempts.toNat ∧
      stepExecutions (Happening.own (Segment.histories segments)) id ≤
        1 + stepProofs store.records id ∧
      ((∀ r ∈ store.records, ∀ intent, r.Commits id intent → IssuedByAdmission D J intent) →
        (∀ commit, Happening.other commit ∈ Segment.histories segments →
          commit.record.provesStep id = false) →
        stepExecutions (Happening.own (Segment.histories segments)) id ≤ 1)) ∧
    ∀ segment ∈ segments, ∀ host lease capabilities adapters stepId material,
      segment.program =
        DirectExecutor.driveStep D P J host policy lease capabilities adapters stepId material →
      ∀ state step, (Happening.own segment.history).head? =
          some ⟨.loadCurrent, Except.ok (some state)⟩ →
        state.steps[stepId]? = some step →
        step.status = .executing ∨ step.status = .effectUnknown ∨ step.status = .reconciling →
        ∀ move ∈ Happening.own segment.history,
          (∀ key request, move.1 ≠ .prepare key request) ∧
            ∀ prepared, move.1 ≠ .execute prepared := by
  have hfollows : ∀ before prepared answer after,
      Happening.own (Segment.histories segments) =
        before ++ (⟨.execute prepared, answer⟩ : RuntimeMove) :: after →
      ∃ earlier call commit, before = earlier ++ [(⟨.append call, Except.ok commit⟩ : RuntimeMove)] ∧
        prepared.StartedBy commit.record :=
    fun before prepared answer after hsplit => started_of_session hstart hsession hsplit
  obtain ⟨starts, hsub, hall⟩ := starts_of_executions hfollows
  obtain ⟨added, hadded, hcommitted⟩ := committed_of_trace hstart hsession.trace
  have hcovered : ∀ id, stepExecutions (Happening.own (Segment.histories segments)) id ≤
      1 + stepProofs added id := by
    intro id
    have hsound := (extends_of_trace hstart hsession.trace).sound
    cases hprojection : store.projection with
    | none =>
      rw [hsound.records_empty hprojection] at hadded
      obtain ⟨-, rfl⟩ := List.append_eq_nil_iff.mp hadded.symm
      have hnone : starts = [] := List.sublist_nil.mp (hsub.trans hcommitted)
      rw [hnone] at hall
      have hzero : stepExecutions (Happening.own (Segment.histories segments)) id ≤ 0 :=
        stepExecutions_le hall
      omega
    | some state =>
      calc stepExecutions (Happening.own (Segment.histories segments)) id
          ≤ stepStarts starts id := stepExecutions_le hall
        _ ≤ stepStarts added id := (hsub.trans hcommitted).countP_le
        _ ≤ 1 + stepProofs added id :=
          starts_le_proofs (hadded ▸ hsound.replay hprojection) id
  refine ⟨hfollows, ⟨added, starts, hadded, hsub.trans hcommitted, hall⟩,
    fun id => ⟨?_, (hcovered id).trans ?_, fun hissued hothers => ?_⟩, ?_⟩
  · exact (stepExecutions_le hall).trans
      ((hsub.countP_le).trans (starts_le_limit hstart hsession))
  · rw [hadded, stepProofs, stepProofs, List.countP_append]
    exact Nat.add_le_add_left (Nat.le_add_left _ _) 1
  · have hproofs := no_proof_of_session hstart hsession hissued hadded hothers
    have hbound := hcovered id
    rwa [hproofs] at hbound
  · intro segment hmem host lease capabilities adapters stepId material hprogram state step hloaded
      hstep hstatus
    obtain ⟨earlier, later, hsegments⟩ := List.append_of_mem hmem
    obtain ⟨m, m', _, _, hexec, _⟩ := hsession.split hsegments
    refine idle_call hprogram hexec hloaded hstep ?_
    rcases hstatus with hstatus | hstatus | hstatus
    · simp [hstatus]
    · simp [hstatus]
    · simp [hstatus]

end Calls

/-! ## A lost outcome -/

/-- Ports of a host whose adapter prepares every effect and is terminated when it executes one. -/
def terminatedPorts (store : MemoryRunStore) : (op : RuntimeOp) → op.Response
  | .prepare _ _ => Except.ok ⟨1⟩
  | op => timeoutPorts store op

/-- A call on the admitted step. -/
def gateDrive (effect : AdmittedEffect) : Routine DirectExecutorError DriveReport :=
  DirectExecutor.driveStep flatDigests flatProtocol openSchemas ⟨"linux", "x86_64"⟩ .default
    ⟨"run-1"⟩ (gateRegistry .available) ⟨[⟨"fs", none, none⟩]⟩ "step-1"
    (some ⟨effect.materialRecord, effect.normalizedArguments⟩)

/-- Two calls on the admitted step, one after the other. -/
def gateDrives (effect : AdmittedEffect) (store : MemoryRunStore) :
    RuntimeHistory × RuntimeHistory :=
  let first := (gateDrive effect).run (sampleHost flatDigests terminatedPorts) noOthers store
  (first.1, ((gateDrive effect).run (sampleHost flatDigests terminatedPorts) noOthers first.2.1).1)

/-- The first call executes the effect and loses its outcome; the second does not execute it again. -/
theorem crash_safe_execution_sample : ∃ start segments store,
    start.Sound flatDigests flatProtocol ∧
    Session (runtimeSystem flatDigests flatProtocol)
      (ExecutorCall flatDigests flatProtocol openSchemas .default) start segments store ∧
    segments.length = 2 ∧
    stepExecutions (Happening.own (Segment.histories segments)) "step-1" = 1 ∧
    stepExecutions (Happening.own (Segment.histories segments)) "step-1" ≤ 3 := by
  have hrun : (gateAdmitted .available).any (fun result =>
      let moves := gateDrives result.2.2.2 result.2.2.1
      stepExecutions (Happening.own (moves.1 ++ moves.2)) "step-1" == 1) = true := by
    decide +kernel
  obtain ⟨⟨pending, history, store, effect⟩, hadmitted, hcount⟩ := (Option.any_eq_true _ _).mp hrun
  obtain ⟨_, hexec⟩ := gateAdmitted_eq_some hadmitted
  have hsound := (extends_of_trace gateStore_sound hexec.trace).sound
  have hkind : ExecutorCall flatDigests flatProtocol openSchemas .default (gateDrive effect) :=
    ⟨_, _, _, _, _, _, rfl⟩
  have hhost : ∀ w op, (runtimeSystem flatDigests flatProtocol).step w op
      (sampleHost flatDigests terminatedPorts w op).1
      (sampleHost flatDigests terminatedPorts w op).2 := memoryHost_step terminatedPorts
  have hempty : Session (runtimeSystem flatDigests flatProtocol)
      (ExecutorCall flatDigests flatProtocol openSchemas .default) store [] store := .nil
  have hsession := (hempty.run hkind hhost (noOthers_accepts flatDigests)).run hkind hhost
    (noOthers_accepts flatDigests)
  refine ⟨store, _, _, hsound, hsession, rfl, ?_, ?_⟩
  · have hexecuted := beq_iff_eq.mp hcount
    simp only [gateDrives, Happening.own_append] at hexecuted
    simpa only [Segment.histories, List.nil_append, List.singleton_append, List.flatMap_cons,
      List.flatMap_nil, List.append_nil, Happening.own_append] using hexecuted
  · exact ((crash_safe_execution hsound hsession).2.2.1 "step-1").1

end Xgeny
