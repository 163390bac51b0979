import Xgeny.Runs.AtMostOnce

set_option autoImplicit false

/-!
# Step history

The steps of a run are append-only: a record adds steps or changes one step, and what a step was
planned as, its intent and its terminal status never change.

* **`step_history_append_only`**: the law, for every record accepted in a reachable state.
-/

namespace Xgeny

/-- What one accepted record keeps of a step. -/
structure StepKept (step step' : StepState) : Prop where
  stepId : step'.stepId = step.stepId
  objective : step'.objective = step.objective
  dependsOn : step'.dependsOn = step.dependsOn
  plannedInvocation : step'.plannedInvocation = step.plannedInvocation
  intent : ∀ intent, step.intent = some intent → step'.intent = some intent
  attempts : step.attempts ≤ step'.attempts
  terminal : step.status = .completed ∨ step.status = .failed ∨ step.status = .manualRequired →
    step' = step

theorem StepKept.refl (step : StepState) : StepKept step step :=
  ⟨rfl, rfl, rfl, rfl, fun _ h => h, UInt32.le_refl _, fun _ => rfl⟩

theorem StepEvolves.kept {step step' : StepState} (h : StepEvolves step step')
    (hplanned : step.status = .planned → step.intent = none) : StepKept step step' := by
  refine ⟨h.stepId, h.objective, h.dependsOn, h.plannedInvocation, ?_, h.attempts, ?_⟩
  · intro intent hintent
    rcases h.intent with ⟨_, hsame⟩ | ⟨hstatus, _⟩
    · rw [hsame, hintent]
    · rw [hplanned hstatus] at hintent
      exact absurd hintent (by simp)
  · exact fun hterminal => absurd hterminal h.live

/-- **Step history is append-only.** A record accepted in a reachable state drops no step, changes
at most one of the steps that existed, and keeps of each what `StepKept` says. -/
theorem step_history_append_only {D : Digests} {state state' : RunState} {record : EventRecord}
    (hstate : Reachable D state) (h : applyRecord D (some state) record = .ok state') :
    (∀ id : String, id ∈ state.steps → id ∈ state'.steps) ∧
      (∀ a b : String, a ∈ state.steps → b ∈ state.steps → state'.steps[a]? ≠ state.steps[a]? →
        state'.steps[b]? ≠ state.steps[b]? → a = b) ∧
      (∀ (id : String) (step : StepState), state.steps[id]? = some step →
        ∃ step', state'.steps[id]? = some step' ∧ StepKept step step') := by
  obtain ⟨next, _, ht, rfl⟩ := applyRecord_some h
  rw [RunState.advance_steps]
  have hkept : (∀ a b : String, a ∈ state.steps → b ∈ state.steps →
      next.steps[a]? ≠ state.steps[a]? → next.steps[b]? ≠ state.steps[b]? → a = b) ∧
      (∀ (id : String) (step : StepState), state.steps[id]? = some step →
        ∃ step', next.steps[id]? = some step' ∧ StepKept step step') := by
    cases ht.stepsChange with
    | same hsame =>
      rw [hsame]
      exact ⟨fun a b _ _ ha => absurd rfl ha, fun id step hstep => ⟨step, hstep, StepKept.refl step⟩⟩
    | replaced hold hnew hevolves =>
      rename_i id step step'
      rw [hnew]
      have hchanged : ∀ a : String, (state.steps.insert id step')[a]? ≠ state.steps[a]? → id = a := by
        intro a ha
        by_contra hne
        exact ha (BTreeMap.get_insert_ne _ _ hne)
      refine ⟨fun a b _ _ ha hb => (hchanged a ha).symm.trans (hchanged b hb), ?_⟩
      intro a s hs
      rw [BTreeMap.get_insert]
      split
      · rename_i heq
        subst heq
        rw [hold] at hs
        obtain rfl := Option.some.inj hs
        have hshape := (reachable_step_shape hstate id step hold).2
        refine ⟨step', rfl, hevolves.kept fun hplanned => ?_⟩
        simpa [hplanned] using hshape
      · exact ⟨s, hs, StepKept.refl s⟩
    | added hold hnew =>
      refine ⟨fun a b ha _ hchanged => ?_, fun id step hstep => ⟨step, hold hstep, StepKept.refl step⟩⟩
      obtain ⟨step, hstep⟩ := BTreeMap.mem_iff_exists.mp ha
      exact absurd ((hold hstep).trans hstep.symm) hchanged
  refine ⟨fun id hid => ?_, hkept⟩
  obtain ⟨step, hstep⟩ := BTreeMap.mem_iff_exists.mp hid
  obtain ⟨step', hstep', _⟩ := hkept.2 id step hstep
  exact BTreeMap.mem_iff_exists.mpr ⟨step', hstep'⟩

/-- The fourth record of the sample run starts the effect of the step, and changes nothing else. -/
theorem step_history_append_only_sample : ∃ state state' record step step',
    Reachable (tableDigests sampleTable) state ∧
      applyRecord (tableDigests sampleTable) (some state) record = .ok state' ∧
      (∀ id : String, id ∈ state.steps → id ∈ state'.steps) ∧
      state.steps["step-a"]? = some step ∧ state'.steps["step-a"]? = some step' ∧ step' ≠ step ∧
      StepKept step step' ∧
      ∀ id : String, id ∈ state.steps → state'.steps[id]? ≠ state.steps[id]? → id = "step-a" := by
  obtain ⟨state', hstate', hafter⟩ := Outcome.exists_ok_of_any
    (x := replay (tableDigests sampleTable) (sampleJournal.take 4))
    (p := fun state => state.steps["step-a"]?.any fun step => step.status == .executing)
    (by decide +kernel)
  rw [← List.dropLast_append_getLast (l := sampleJournal.take 4) (by decide)] at hstate'
  obtain ⟨state, hreplay, happly⟩ := replay_snoc (by decide) hstate'
  obtain ⟨earlier, hearlier, hbefore⟩ := Outcome.exists_ok_of_any
    (x := replay (tableDigests sampleTable) (sampleJournal.take 4).dropLast)
    (p := fun state => state.steps["step-a"]?.any fun step => step.status == .intentCommitted)
    (by decide +kernel)
  obtain rfl : state = earlier := Except.ok.inj (hreplay.symm.trans hearlier)
  obtain ⟨hkeeps, hone, hhistory⟩ := step_history_append_only ⟨_, hreplay⟩ happly
  obtain ⟨step, hstep, hintent⟩ := (Option.any_eq_true _ _).mp hbefore
  obtain ⟨changed, hchanged, hexecuting⟩ := (Option.any_eq_true _ _).mp hafter
  obtain ⟨step', hstep', hkept⟩ := hhistory "step-a" step hstep
  obtain rfl : step' = changed := Option.some.inj (hstep'.symm.trans hchanged)
  have hne : step' ≠ step := by
    rintro rfl
    rw [beq_iff_eq] at hintent hexecuting
    cases hintent.symm.trans hexecuting
  have hmem : "step-a" ∈ state.steps := BTreeMap.mem_iff_exists.mpr ⟨step, hstep⟩
  refine ⟨state, state', _, step, step', ⟨_, hreplay⟩, happly, hkeeps, hstep, hstep', hne, hkept,
    fun id hid hdiffers => hone id "step-a" hid hmem hdiffers ?_⟩
  rw [hstep, hstep']
  exact fun heq => hne (Option.some.inj heq)

end Xgeny
