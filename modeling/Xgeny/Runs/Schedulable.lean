import Xgeny.Runs.AtMostOnce

set_option autoImplicit false

/-!
# Every reachable graph is schedulable

Steps enter through two paths and change status in any order, and still every reachable state has
a frontier: a new step depends on existing steps only, an accepted plan was checked as a whole, and
an event replaces a step that releases nobody yet, so it cannot take back a release.

* `Schedulable.add`, `Schedulable.replace`: the two ways in which a graph changes;
* **`reachable_schedulable`**: the run lemma;
* **`reachable_has_frontier`**: a frontier exists for every reachable state, with the conditions
  it stands for.
-/

namespace Xgeny

theorem Schedulable.of_steps_eq {state state' : RunState} (h : Schedulable state)
    (heq : state'.steps = state.steps) : Schedulable state' := by
  have hdepends : DependsOn state' = DependsOn state := by
    unfold DependsOn
    rw [heq]
  refine ⟨⟨?_, ?_, ?_⟩, ?_, ?_⟩
  · rw [heq]
    exact h.known
  · rw [heq]
    exact h.irreflexive
  · rw [heq]
    exact h.nodup
  · rw [hdepends]
    exact h.acyclic
  · unfold ActiveReleased
    rw [heq]
    exact h.released

theorem schedulable_of_empty {state : RunState} (h : state.steps = ∅) : Schedulable state := by
  refine ⟨⟨?_, ?_, ?_⟩, ?_, ?_⟩
  · simp [h]
  · simp [h]
  · simp [h]
  · intro a ha
    obtain ⟨b, ⟨step, hstep, _⟩, _⟩ := Relation.TransGen.head'_iff.mp ha
    simp [h] at hstep
  · simp [h]

/-! ## A new step -/

section

variable {state : RunState} {id : String} {new : StepState}

theorem transGen_old (hg : WellFormedGraph state) (hnew : id ∉ state.steps) {a b : String}
    (ha : a ∈ state.steps) (h : Relation.TransGen (DependsOn (state.setStep id new)) a b) :
    b ∈ state.steps ∧ Relation.TransGen (DependsOn state) a b := by
  have hedge : ∀ {x y}, x ∈ state.steps → DependsOn (state.setStep id new) x y →
      y ∈ state.steps ∧ DependsOn state x y := by
    rintro x y hx ⟨step, hstep, hy⟩
    have hne : id ≠ x := fun heq => hnew (heq ▸ hx)
    rw [RunState.setStep, BTreeMap.get_insert_ne _ _ hne] at hstep
    exact ⟨hg.known hstep hy, step, hstep, hy⟩
  induction h with
  | single hab =>
    obtain ⟨hb, hr⟩ := hedge ha hab
    exact ⟨hb, .single hr⟩
  | tail _ hbc ih =>
    obtain ⟨hb, hr⟩ := ih
    obtain ⟨hc, hr'⟩ := hedge hb hbc
    exact ⟨hc, hr.tail hr'⟩

theorem Schedulable.add (h : Schedulable state) (hnew : id ∉ state.steps)
    (hplanned : new.status = .planned) (hself : id ∉ new.dependsOn) (hnodup : new.dependsOn.Nodup)
    (hknown : ∀ d ∈ new.dependsOn, d ∈ state.steps) : Schedulable (state.setStep id new) := by
  have hget : ∀ {x : String} {s : StepState}, (state.setStep id new).steps[x]? = some s →
      (id = x ∧ s = new) ∨ (x ∈ state.steps ∧ state.steps[x]? = some s) := by
    intro x s hs
    rw [RunState.setStep, BTreeMap.get_insert] at hs
    split at hs
    · rename_i heq
      exact Or.inl ⟨heq, (Option.some.inj hs).symm⟩
    · exact Or.inr ⟨BTreeMap.mem_iff_exists.mpr ⟨s, hs⟩, hs⟩
  have hold : ∀ {x : String}, x ∈ state.steps →
      (state.setStep id new).steps[x]? = state.steps[x]? := by
    intro x hx
    have hne : id ≠ x := fun heq => hnew (heq ▸ hx)
    rw [RunState.setStep, BTreeMap.get_insert_ne _ _ hne]
  refine ⟨⟨?_, ?_, ?_⟩, ?_, ?_⟩
  · intro x d s hs hd
    rw [RunState.setStep, BTreeMap.mem_insert_iff]
    rcases hget hs with ⟨_, rfl⟩ | ⟨_, hs⟩
    · exact Or.inr (hknown d hd)
    · exact Or.inr (h.known hs hd)
  · intro x s hs
    rcases hget hs with ⟨rfl, rfl⟩ | ⟨_, hs⟩
    · exact hself
    · exact h.irreflexive hs
  · intro x s hs
    rcases hget hs with ⟨_, rfl⟩ | ⟨_, hs⟩
    · exact hnodup
    · exact h.nodup hs
  · intro a ha
    obtain ⟨b, ⟨s, hs, hb⟩, hrest⟩ := Relation.TransGen.head'_iff.mp ha
    rcases hget hs with ⟨rfl, rfl⟩ | ⟨hx, _⟩
    · -- a cycle through the new step would come back to it from an old one
      rcases Relation.reflTransGen_iff_eq_or_transGen.mp hrest with heq | htrans
      · exact hnew (heq ▸ hknown b hb)
      · exact hnew (transGen_old h.toWellFormedGraph hnew (hknown b hb) htrans).1
    · exact h.acyclic a (transGen_old h.toWellFormedGraph hnew hx ha).2
  · intro x s hs hactive d hd
    rcases hget hs with ⟨_, rfl⟩ | ⟨_, hs⟩
    · exact absurd hplanned hactive
    · rw [hold (h.known hs hd)]
      exact h.released hs hactive d hd

/-! ## A replaced step -/

theorem Schedulable.replace {step : StepState} (h : Schedulable state)
    (hstep : state.steps[id]? = some step) (hevolves : StepEvolves step new)
    (hreleased : ∀ d ∈ step.dependsOn, releasesAt state d = true) :
    Schedulable (state.setStep id new) := by
  have hnot : receiptReleasesDependency step = false := by
    rw [Bool.eq_false_iff]
    exact fun hr => hevolves.live (Or.inl (completed_of_releases hr))
  have hget : ∀ {x : String} {s : StepState}, (state.setStep id new).steps[x]? = some s →
      ∃ s₀, state.steps[x]? = some s₀ ∧ s.dependsOn = s₀.dependsOn ∧
        (id = x ∧ s₀ = step ∨ s = s₀) := by
    intro x s hs
    rw [RunState.setStep, BTreeMap.get_insert] at hs
    split at hs
    · rename_i heq
      obtain rfl := Option.some.inj hs
      exact ⟨step, heq ▸ hstep, hevolves.dependsOn, Or.inl ⟨heq, rfl⟩⟩
    · exact ⟨s, hs, rfl, Or.inr rfl⟩
  have hmem : ∀ {x : String}, x ∈ state.steps → x ∈ (state.setStep id new).steps := fun hx => by
    rw [RunState.setStep, BTreeMap.mem_insert_iff]
    exact Or.inr hx
  have hdepends : ∀ a b, DependsOn (state.setStep id new) a b → DependsOn state a b := by
    rintro a b ⟨s, hs, hb⟩
    obtain ⟨s₀, hs₀, hdeps, _⟩ := hget hs
    exact ⟨s₀, hs₀, hdeps ▸ hb⟩
  -- what released before is untouched
  have hkeep : ∀ d, releasesAt state d = true → ∃ dependency,
      (state.setStep id new).steps[d]? = some dependency ∧
        receiptReleasesDependency dependency = true := by
    intro d hd
    obtain ⟨dependency, hdependency, hrel⟩ := Option.any_eq_true _ _ |>.mp hd
    have hne : id ≠ d := by
      rintro rfl
      rw [hstep] at hdependency
      rw [← Option.some.inj hdependency, hnot] at hrel
      exact absurd hrel (by simp)
    exact ⟨dependency, by rw [RunState.setStep, BTreeMap.get_insert_ne _ _ hne, hdependency], hrel⟩
  refine ⟨⟨?_, ?_, ?_⟩, ?_, ?_⟩
  · intro x d s hs hd
    obtain ⟨s₀, hs₀, hdeps, _⟩ := hget hs
    exact hmem (h.known hs₀ (hdeps ▸ hd))
  · intro x s hs
    obtain ⟨s₀, hs₀, hdeps, _⟩ := hget hs
    rw [hdeps]
    exact h.irreflexive hs₀
  · intro x s hs
    obtain ⟨s₀, hs₀, hdeps, _⟩ := hget hs
    rw [hdeps]
    exact h.nodup hs₀
  · exact fun a ha => h.acyclic a (Relation.TransGen.mono hdepends _ _ ha)
  · intro x s hs hactive d hd
    obtain ⟨s₀, hs₀, hdeps, ⟨rfl, rfl⟩ | rfl⟩ := hget hs
    · exact hkeep d (hreleased d (hdeps ▸ hd))
    · exact hkeep d (activeReleased_iff.mp (h.released hs₀) hactive d hd)

end

/-! ## Every reachable state -/

/-- **Step lemma.** A transition keeps a graph schedulable. -/
theorem Transition.schedulable {D : Digests} {state state' : RunState} {body : RunEventBody}
    (h : Transition D state body state') (hS : Schedulable state) : Schedulable state' := by
  cases h with
  | planAccepted hloop hopen hturn hturns hcall hplan hsize hheaders hschedulable =>
    exact hschedulable.of_steps_eq rfl
  | stepPlanned hnew hopen hself hnodup hknown => exact hS.add hnew rfl hself hnodup hknown
  | effectIntentCommitted hstep hstatus hintent hfresh hreleased hplanned hbinding hconsumed =>
    rename_i id intent step consumption
    have hevolves : StepEvolves step { step with intent := some intent, status := .intentCommitted } :=
      ⟨rfl, rfl, rfl, rfl, Or.inr ⟨hstatus, rfl⟩, UInt32.le_refl _,
        by simp [StepStatus.Terminal, hstatus], by simp⟩
    exact (hS.replace hstep hevolves hreleased).of_steps_eq rfl
  | moved hstep hmove hbudget =>
    exact hS.replace hstep hmove.evolves
      (activeReleased_iff.mp (hS.released hstep) hmove.intent_eq.2)
  | agentLoopConfigured | modelCallLifecycleConfigured | modelCallReserved
  | modelCallBecameUnknown | modelCallSettled | completionCandidateRecorded =>
    exact hS.of_steps_eq rfl

/-- **Run lemma.** Every reachable graph is schedulable. -/
theorem reachable_schedulable {D : Digests} {state : RunState} (h : Reachable D state) :
    Schedulable state := by
  refine reachable_induction (I := Schedulable) ?_ ?_ h
  · exact fun record goal _ => schedulable_of_empty rfl
  · exact fun s record next _ hS _ ht => (ht.schedulable hS).of_steps_eq rfl

/-- **Every reachable state has a frontier.** Dependencies name existing steps, never the step
itself and never twice; they have no cycle; and a step that left `planned` has only dependencies
that are completed with a receipt id and a well-formed receipt digest. -/
theorem reachable_has_frontier {D : Digests} {state : RunState} (h : Reachable D state) :
    (∃ frontier, deriveFrontier state = .ok frontier) ∧
      (∀ (id : String) (step : StepState), state.steps[id]? = some step →
        (∀ d ∈ step.dependsOn, d ∈ state.steps) ∧ id ∉ step.dependsOn ∧ step.dependsOn.Nodup) ∧
      (∀ id, ¬ Relation.TransGen (DependsOn state) id id) ∧
      (∀ (id : String) (step : StepState), state.steps[id]? = some step → step.status ≠ .planned →
        ∀ d ∈ step.dependsOn, ∃ dependency receiptId receiptDigest,
          state.steps[d]? = some dependency ∧ dependency.status = .completed ∧
            dependency.executionReceiptId = some receiptId ∧ receiptId ≠ "" ∧
            dependency.executionReceiptDigest = some receiptDigest ∧
            isSha256Digest receiptDigest = true) := by
  have hS := reachable_schedulable h
  refine ⟨exists_deriveFrontier_iff.mpr hS, ?_, hS.acyclic, ?_⟩
  · exact fun id step hstep => ⟨fun d => hS.known hstep, hS.irreflexive hstep, hS.nodup hstep⟩
  · intro id step hstep hactive d hd
    obtain ⟨dependency, hdependency, hrel⟩ := hS.released hstep hactive d hd
    simp only [receiptReleasesDependency, Bool.and_eq_true, beq_iff_eq, Option.any_eq_true,
      bne_iff_ne, ne_eq] at hrel
    obtain ⟨⟨hstatus, receiptId, hid, hne⟩, receiptDigest, hdigest, hsha⟩ := hrel
    exact ⟨dependency, receiptId, receiptDigest, hdependency, hstatus, hid, hne, hdigest, hsha⟩

def dependentBinding : AuthorizationBinding :=
  sampleBinding "step-b" 11 "sha256:96f6d7ed84c7f98747bd45fbbd6384877b9faf8c0fba0e66679957d1693f3de6"
    (sampleDigest 'b')

/-- The first step is verified; a second one, which waits for it, has its intent committed. -/
def dependentLines : List SampleLine :=
  sampleLines.take 10 ++
    [⟨.stepPlanned "step-b" "write the second file" ["step-a"], 336,
      "96f6d7ed84c7f98747bd45fbbd6384877b9faf8c0fba0e66679957d1693f3de6"⟩,
    ⟨.effectIntentCommitted "step-b" (sampleIntent "effect-b"
        "99e4544d8a2d5101b1afbded1987e4d07e53ef12681e701984fd5adf6cd46049"
        "3a103f91e3bec85ba0f3935a9eb17cb05ddcf5ef409b232a95153c739d98def0" dependentBinding), 1827,
      "5f9a4f8579d93b93db268bebf80dc50bc25b7a4148816894c9719c805f3a9ba3"⟩]

def dependentTable : List (DigestInput × ℕ × String) :=
  sampleDocuments 0 none dependentLines ++ sampleAuthorization ++
    [(.onceAuthorizationId "run-1" (sampleDigest 'b'), 152,
      "99e4544d8a2d5101b1afbded1987e4d07e53ef12681e701984fd5adf6cd46049"),
    (.authorization dependentBinding 1, 900,
      "3a103f91e3bec85ba0f3935a9eb17cb05ddcf5ef409b232a95153c739d98def0")]

/-- The second step has left `planned`, so that the first one is completed with its receipt. -/
theorem reachable_has_frontier_sample : ∃ state step dependency frontier,
    Reachable (tableDigests dependentTable) state ∧ deriveFrontier state = .ok frontier ∧
      state.steps["step-b"]? = some step ∧ step.status = .intentCommitted ∧
      step.dependsOn = ["step-a"] ∧ state.steps["step-a"]? = some dependency ∧
      dependency.status = .completed ∧ dependency.executionReceiptId.isSome = true := by
  obtain ⟨state, hstate, hcheck⟩ := Outcome.exists_ok_of_any
    (x := replay (tableDigests dependentTable) (sampleRecords 0 none dependentLines))
    (p := fun state => state.steps["step-b"]?.any fun step =>
      step.status == .intentCommitted && step.dependsOn == ["step-a"]) (by decide +kernel)
  obtain ⟨step, hstep, hshape⟩ := (Option.any_eq_true _ _).mp hcheck
  simp only [Bool.and_eq_true, beq_iff_eq] at hshape
  obtain ⟨⟨frontier, hfrontier⟩, -, -, hreleased⟩ := reachable_has_frontier ⟨_, hstate⟩
  obtain ⟨dependency, receiptId, _, hdependency, hcompleted, hreceipt, -⟩ :=
    hreleased "step-b" step hstep (by simp [hshape.1]) "step-a" (by simp [hshape.2])
  exact ⟨state, step, dependency, frontier, ⟨_, hstate⟩, hfrontier, hstep, hshape.1, hshape.2,
    hdependency, hcompleted, by rw [hreceipt]; rfl⟩

end Xgeny
