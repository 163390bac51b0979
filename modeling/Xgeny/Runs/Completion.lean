import Xgeny.Runs.AtMostOnce

set_option autoImplicit false

/-!
# Completion is final

A completion candidate is recorded when every step is completed with a receipt and no model call
is left open. Nothing can move after that: a completed step takes no event, and without an open
call no decision is accepted.

* `Finished`: the invariant of a run with a completion candidate;
* `Transition.of_finished`: what such a run still accepts;
* **`completion_is_final`**: the law, for every record accepted in a reachable state.
-/

namespace Xgeny

variable {D : Digests} {state state' next : RunState} {body : RunEventBody} {loop : AgentLoopState}

/-- A run whose work is done: it has steps, each completed with a receipt, and no open call. -/
structure Finished (state : RunState) (loop : AgentLoopState) : Prop where
  steps : 0 < state.steps.size
  releases : ∀ (id : String) (step : StepState), state.steps[id]? = some step →
    receiptReleasesDependency step = true
  idle : ∀ calls, loop.modelCalls = some calls → calls.activeCall = none

/-- A completion candidate is only ever recorded in a finished run. -/
def CompletionFinished (state : RunState) : Prop :=
  ∀ loop candidate, state.agentLoop = some loop → loop.completionCandidate = some candidate →
    Finished state loop

theorem Finished.completed (h : Finished state loop) {id : String} {step : StepState}
    (hstep : state.steps[id]? = some step) : step.status = .completed :=
  completed_of_releases (h.releases id step hstep)

theorem CallEnds.idle {decision : ExpectedPlanningTurn} {old new : Option ModelCallLifecycleState}
    (h : CallEnds state decision old new) : ∀ calls, new = some calls → calls.activeCall = none := by
  cases h with
  | legacy => simp
  | bound =>
    intro calls hcalls
    rw [← Option.some.inj hcalls]

/-- **What a finished run still accepts**: the first configuration of a model-call lifecycle. -/
theorem Transition.of_finished (h : Transition D state body next)
    {candidate : CompletionCandidateState} (hloop : state.agentLoop = some loop)
    (hcandidate : loop.completionCandidate = some candidate) (hfinished : Finished state loop) :
    ∃ budget calls, body = .modelCallLifecycleConfigured budget ∧ loop.modelCalls = none ∧
      calls.activeCall = none ∧ next = state.setLoop (loop.setCalls calls) := by
  -- the loop and the candidate of the state contradict every case that needs an open loop
  have hopen : ∀ other, state.agentLoop = some other → other.completionCandidate ≠ none := by
    intro other hother
    rw [hloop] at hother
    rw [← Option.some.inj hother, hcandidate]
    simp
  have hidle : ∀ other calls active, state.agentLoop = some other → other.modelCalls = some calls →
      calls.activeCall ≠ some active := by
    intro other calls active hother hcalls
    rw [hloop] at hother
    rw [← Option.some.inj hother] at hcalls
    simp [hfinished.idle calls hcalls]
  cases h with
  | agentLoopConfigured hnone => simp [hloop] at hnone
  | modelCallLifecycleConfigured hother hcalls hbudget =>
    rw [hloop] at hother
    obtain rfl := Option.some.inj hother
    exact ⟨_, _, rfl, hcalls, rfl, rfl⟩
  | modelCallReserved hother hcalls hfree hnone => exact absurd hnone (hopen _ hother)
  | modelCallBecameUnknown hother hcalls hactive => exact absurd hactive (hidle _ _ _ hother hcalls)
  | modelCallSettled hother hcalls hactive => exact absurd hactive (hidle _ _ _ hother hcalls)
  | planAccepted hother hnone => exact absurd hnone (hopen _ hother)
  | completionCandidateRecorded hother hnone => exact absurd hnone (hopen _ hother)
  | stepPlanned hnew hbudget => exact absurd (hbudget loop hloop).1 (hopen loop hloop)
  | effectIntentCommitted hstep hstatus =>
    rw [hfinished.completed hstep] at hstatus
    exact absurd hstatus (by simp)
  | moved hstep hmove =>
    exact absurd (Or.inl (hfinished.completed hstep)) hmove.evolves.live

/-- **Step lemma.** -/
theorem Transition.completionFinished (h : Transition D state body next)
    (hI : CompletionFinished state) : CompletionFinished next := by
  intro loop' candidate hloop' hcandidate
  by_cases hbefore : ∃ loop old, state.agentLoop = some loop ∧ loop.completionCandidate = some old
  · obtain ⟨loop, old, hloop, hold⟩ := hbefore
    have hfinished := hI loop old hloop hold
    obtain ⟨budget, calls, _, _, hidle, rfl⟩ := h.of_finished hloop hold hfinished
    obtain rfl := Option.some.inj hloop'
    refine ⟨hfinished.steps, hfinished.releases, fun others hothers => ?_⟩
    rw [← Option.some.inj hothers]
    exact hidle
  · -- only one event records a candidate
    have hnone : ∀ loop, state.agentLoop = some loop → loop.completionCandidate = none := by
      intro loop hloop
      cases hc : loop.completionCandidate with
      | none => rfl
      | some old => exact absurd ⟨loop, old, hloop, hc⟩ hbefore
    cases h with
    | completionCandidateRecorded hloop hopen hturn hturns hcall hsome hcompleted =>
      obtain rfl := Option.some.inj hloop'
      exact ⟨hsome, hcompleted, hcall.idle⟩
    | agentLoopConfigured =>
      obtain rfl := Option.some.inj hloop'
      simp at hcandidate
    | modelCallLifecycleConfigured hloop | modelCallReserved hloop | modelCallBecameUnknown hloop
    | modelCallSettled hloop | planAccepted hloop =>
      obtain rfl := Option.some.inj hloop'
      have hcontra := hnone _ hloop
      exact absurd (hcandidate.symm.trans hcontra) (by simp)
    | stepPlanned | effectIntentCommitted | moved =>
      exact absurd (hcandidate.symm.trans (hnone _ hloop')) (by simp)

/-- **Run lemma.** -/
theorem reachable_completionFinished (h : Reachable D state) : CompletionFinished state := by
  refine reachable_induction (I := CompletionFinished) ?_ ?_ h
  · intro record goal _ loop candidate hloop
    simp [RunState.created, RunState.advance] at hloop
  · intro s record next _ hI _ ht loop candidate hloop hcandidate
    have hfinished := ht.completionFinished hI loop candidate hloop hcandidate
    exact ⟨hfinished.steps, hfinished.releases, hfinished.idle⟩

/-- **Completion is final.** In a reachable state with a completion candidate there are steps, all
of them completed with a releasing receipt; and every record that is still accepted is the first
configuration of a model-call lifecycle, which leaves the steps, the consumed authorizations, the
candidate and the accepted turns as they are. -/
theorem completion_is_final {candidate : CompletionCandidateState} (h : Reachable D state)
    (hloop : state.agentLoop = some loop) (hcandidate : loop.completionCandidate = some candidate) :
    0 < state.steps.size ∧
      (∀ (id : String) (step : StepState), state.steps[id]? = some step →
        step.status = .completed ∧ receiptReleasesDependency step = true) ∧
      ∀ record state', applyRecord D (some state) record = .ok state' →
        (∃ budget, record.event.body = .modelCallLifecycleConfigured budget) ∧
          loop.modelCalls = none ∧ state'.steps = state.steps ∧
          state'.authorizationConsumption = state.authorizationConsumption ∧
          ∃ loop', state'.agentLoop = some loop' ∧ loop'.modelCalls.isSome = true ∧
            loop'.completionCandidate = some candidate ∧
            loop'.acceptedModelTurns = loop.acceptedModelTurns := by
  have hfinished := reachable_completionFinished h loop candidate hloop hcandidate
  refine ⟨hfinished.steps, ?_, ?_⟩
  · exact fun id step hstep => ⟨hfinished.completed hstep, hfinished.releases id step hstep⟩
  · intro record state' happly
    obtain ⟨next, _, ht, rfl⟩ := applyRecord_some happly
    obtain ⟨budget, calls, hbody, hfirst, _, rfl⟩ := ht.of_finished hloop hcandidate hfinished
    exact ⟨⟨budget, hbody⟩, hfirst, rfl, rfl, loop.setCalls calls, rfl, rfl, hcandidate, rfl⟩

/-! ## A completed sample run -/

/-- The sample run completes. -/
def completedLines : List SampleLine :=
  sampleLines ++
    [⟨.completionCandidateRecorded ⟨1, none, sampleDigest 'c', sampleDigest 'd'⟩ "candidate-1"
      (sampleDigest 'e') none, 602,
      "c600ac68ba188dc7964239879c891cb520f1f4f601941b179b3f6bd096f6e118"⟩]

/-- Only after its completion does the run get a model-call lifecycle. -/
def lateLine : SampleLine :=
  ⟨.modelCallLifecycleConfigured ⟨4⟩, 307,
    "ab3daf64e5c76329139c8925e7d42f31fcfacaded858dfbb36e319d5d70dfc0d"⟩

def completedTable : List (DigestInput × ℕ × String) :=
  sampleDocuments 0 none (completedLines ++ [lateLine]) ++ sampleAuthorization

def completedJournal : List EventRecord := sampleRecords 0 none completedLines

def lateRecord : EventRecord where
  sequence := 13
  previousDigest := some "sha256:c600ac68ba188dc7964239879c891cb520f1f4f601941b179b3f6bd096f6e118"
  event := sampleEvent 13 lateLine.body
  digest := "sha256:" ++ lateLine.hash

/-- The completed run has a candidate and accepts one more record. -/
theorem completion_is_final_sample : ∃ state loop candidate state',
    Reachable (tableDigests completedTable) state ∧ state.agentLoop = some loop ∧
      loop.completionCandidate = some candidate ∧
      applyRecord (tableDigests completedTable) (some state) lateRecord = .ok state' ∧
      0 < state.steps.size ∧ state'.steps = state.steps := by
  have hrun : (replay (tableDigests completedTable) completedJournal).value?.any (fun state =>
      (state.agentLoop.bind AgentLoopState.completionCandidate).isSome &&
        (applyRecord (tableDigests completedTable) (some state) lateRecord).value?.isSome) = true := by
    decide +kernel
  obtain ⟨state, hreplay, hstate⟩ := Outcome.exists_ok_of_any hrun
  obtain ⟨hcandidate, hlate⟩ := Bool.and_eq_true_iff.mp hstate
  obtain ⟨candidate, hcandidate⟩ := Option.isSome_iff_exists.mp hcandidate
  obtain ⟨loop, hloop, hcandidate⟩ := Option.bind_eq_some_iff.mp hcandidate
  obtain ⟨state', happly⟩ := Outcome.exists_ok_of_isSome hlate
  have hfinal := completion_is_final ⟨_, hreplay⟩ hloop hcandidate
  exact ⟨state, loop, candidate, state', ⟨_, hreplay⟩, hloop, hcandidate, happly, hfinal.1,
    (hfinal.2.2 lateRecord state' happly).2.2.1⟩

end Xgeny
