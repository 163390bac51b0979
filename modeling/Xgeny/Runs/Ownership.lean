import Xgeny.Runs.Authorization
import Xgeny.Runs.ModelCalls

set_option autoImplicit false

/-!
# Who owns an action

A step owns the action of its planned invocation and the action of its intent. Accepting a plan
checks the new actions against all owners. Committing an intent does not, when its step was planned
alone: such an intent can take the action that an accepted plan gave to another step.

* `Owns`, `UniqueOwners`: the owners of the actions of a state;
* `existingActionOwners_isOk_iff`: the scan of the owners succeeds exactly when they are unique;
* `LeavesPlannedActions`: an intent does not take the planned action of another step;
* `two_owners_sample`: a run in which two steps own one action;
* **`unique_owners_iff`**: the owners are unique all along a run exactly when every intent in it
  leaves planned actions alone.
-/

namespace Xgeny

variable {D : Digests} {state next : RunState} {body : RunEventBody}

/-- The step `id` owns the action. -/
def Owns (state : RunState) (id action : String) : Prop :=
  ∃ step, state.steps[id]? = some step ∧ action ∈ step.ownedActions

instance (state : RunState) (id action : String) : Decidable (Owns state id action) :=
  decidable_of_iff (state.steps[id]?.any (fun step => decide (action ∈ step.ownedActions)) = true)
    (by simp [Owns, Option.any_eq_true])

/-- No action has two owners. -/
def UniqueOwners (state : RunState) : Prop :=
  ∀ a b action, Owns state a action → Owns state b action → a = b

/-- The action of the planned invocation of a step. -/
def RunState.plannedAction (state : RunState) (id : String) : Option String :=
  (state.steps[id]?.bind StepState.plannedInvocation).map PlannedInvocationBinding.actionDigest

theorem owns_iff {id action : String} : Owns state id action ↔
    state.plannedAction id = some action ∨
      (state.intentOf id).map EffectIntent.actionDigest = some action := by
  unfold Owns RunState.plannedAction RunState.intentOf
  cases state.steps[id]? with
  | none => simp
  | some step => simp [StepState.ownedActions]

/-! ## The scan of the owners -/

theorem claimAction_eq_ok {stepId action : String} {owners owners' : BTreeMap String String} :
    claimAction stepId owners action = .ok owners' ↔
      (∀ existing, owners[action]? = some existing → existing = stepId) ∧
        owners.insert action stepId = owners' := by
  simp only [claimAction, Outcome.bind_eq_ok, Outcome.exists_unit, Outcome.whenSome_eq_ok,
    Outcome.failIf_eq_ok, Outcome.pure_eq_ok, ne_eq, Decidable.not_not]

theorem claimAction_keeps {stepId action : String} {owners owners' : BTreeMap String String}
    (h : claimAction stepId owners action = .ok owners') {x id : String}
    (hx : owners[x]? = some id) : owners'[x]? = some id := by
  obtain ⟨hown, rfl⟩ := claimAction_eq_ok.mp h
  rw [BTreeMap.get_insert]
  split
  · rename_i heq
    subst heq
    rw [hown id hx]
  · exact hx

theorem claimActions_spec {stepId : String} {actions : List String}
    {owners owners' : BTreeMap String String}
    (h : Outcome.foldl (claimAction stepId) owners actions = .ok owners') :
    (∀ x id : String, owners[x]? = some id → owners'[x]? = some id) ∧
      ∀ action ∈ actions, owners'[action]? = some stepId := by
  refine Outcome.foldl_induction (I := fun seen (acc : BTreeMap String String) =>
    (∀ x id : String, owners[x]? = some id → acc[x]? = some id) ∧
      ∀ action ∈ seen, acc[action]? = some stepId) ⟨fun x id hx => hx, by simp⟩ ?_ h
  rintro seen acc action acc' _ ⟨hkeep, hseen⟩ hclaim
  refine ⟨fun x id hx => claimAction_keeps hclaim (hkeep x id hx), fun a ha => ?_⟩
  rcases List.mem_append.mp ha with ha | ha
  · exact claimAction_keeps hclaim (hseen a ha)
  · rw [List.mem_singleton.mp ha, ← (claimAction_eq_ok.mp hclaim).2]
    exact Std.ExtTreeMap.getElem?_insert_self

theorem existingActionOwners_eq_ok {owners : BTreeMap String String}
    (h : existingActionOwners state = .ok owners) :
    ∀ step ∈ BTreeMap.vals state.steps, ∀ action ∈ step.ownedActions,
      owners[action]? = some step.stepId := by
  refine Outcome.foldl_induction (I := fun seen (acc : BTreeMap String String) =>
    ∀ step ∈ seen, ∀ action ∈ step.ownedActions, acc[action]? = some step.stepId) (by simp) ?_ h
  intro seen acc step acc' _ hseen hclaim s hs action haction
  obtain ⟨hkeep, hnew⟩ := claimActions_spec hclaim
  rcases List.mem_append.mp hs with hs | hs
  · exact hkeep _ _ (hseen s hs action haction)
  · rw [List.mem_singleton.mp hs] at haction ⊢
    exact hnew action haction

/-- What the owners found so far come from. -/
def OwnersFrom (owners : BTreeMap String String) (steps : List StepState) : Prop :=
  ∀ action id : String, owners[action]? = some id →
    ∃ step ∈ steps, step.stepId = id ∧ action ∈ step.ownedActions

theorem OwnersFrom.claim {owners owners' : BTreeMap String String} {steps : List StepState}
    {step : StepState} {action : String} (h : OwnersFrom owners steps) (hstep : step ∈ steps)
    (haction : action ∈ step.ownedActions)
    (hclaim : claimAction step.stepId owners action = .ok owners') : OwnersFrom owners' steps := by
  obtain ⟨_, rfl⟩ := claimAction_eq_ok.mp hclaim
  intro x id hx
  rw [BTreeMap.get_insert] at hx
  split at hx
  · rename_i heq
    exact ⟨step, hstep, Option.some.inj hx, heq ▸ haction⟩
  · exact h x id hx

theorem claimAll_isOk {steps : List StepState}
    (hunique : ∀ s ∈ steps, ∀ t ∈ steps, ∀ action, action ∈ s.ownedActions →
      action ∈ t.ownedActions → s.stepId = t.stepId) :
    ∃ owners, Outcome.foldl
      (fun owners step => Outcome.foldl (claimAction step.stepId) owners step.ownedActions)
      ∅ steps = .ok owners := by
  have hinner : ∀ (seen : List StepState) (owners : BTreeMap String String) (step : StepState),
      (∃ rest, steps = seen ++ step :: rest) → OwnersFrom owners steps →
      (∃ owners', Outcome.foldl (claimAction step.stepId) owners step.ownedActions = .ok owners') ∧
        ∀ owners', Outcome.foldl (claimAction step.stepId) owners step.ownedActions = .ok owners' →
          OwnersFrom owners' steps := by
    rintro seen owners step ⟨rest, hrest⟩ hfrom
    have hstep : step ∈ steps := by simp [hrest]
    have hmem : ∀ {before : List String} {action : String},
        (∃ rest, step.ownedActions = before ++ action :: rest) → action ∈ step.ownedActions := by
      rintro before action ⟨rest, hactions⟩
      simp [hactions]
    have hkeeps : ∀ (before : List String) (acc : BTreeMap String String) (action : String)
        (acc' : BTreeMap String String), (∃ rest, step.ownedActions = before ++ action :: rest) →
        OwnersFrom acc steps → claimAction step.stepId acc action = .ok acc' →
        OwnersFrom acc' steps :=
      fun _ _ _ _ hin hacc hclaim => hacc.claim hstep (hmem hin) hclaim
    refine ⟨Outcome.foldl_total (I := fun _ acc => OwnersFrom acc steps) hfrom hkeeps ?_,
      fun owners' => Outcome.foldl_induction (I := fun _ acc => OwnersFrom acc steps) hfrom hkeeps⟩
    intro before acc action hin hacc
    refine ⟨_, claimAction_eq_ok.mpr ⟨fun existing hexisting => ?_, rfl⟩⟩
    obtain ⟨s, hs, rfl, hsaction⟩ := hacc action existing hexisting
    exact hunique s hs step hstep action hsaction (hmem hin)
  refine Outcome.foldl_total (I := fun _ acc => OwnersFrom acc steps) (by simp [OwnersFrom]) ?_ ?_
  · exact fun seen owners step owners' hin hfrom => (hinner seen owners step hin hfrom).2 owners'
  · exact fun seen owners step hin hfrom => (hinner seen owners step hin hfrom).1

/-- **The scan succeeds exactly when the owners are unique.** -/
theorem existingActionOwners_isOk_iff (h : Reachable D state) :
    (∃ owners, existingActionOwners state = .ok owners) ↔ UniqueOwners state := by
  have hshape : ∀ {id : String} {step : StepState}, state.steps[id]? = some step →
      step.stepId = id := fun hstep => (reachable_step_shape h _ _ hstep).1
  constructor
  · rintro ⟨owners, howners⟩ a b action ⟨x, hx, hax⟩ ⟨y, hy, hay⟩
    have hspec := existingActionOwners_eq_ok howners
    have ha := hspec x (BTreeMap.mem_vals_iff.mpr ⟨a, hx⟩) action hax
    have hb := hspec y (BTreeMap.mem_vals_iff.mpr ⟨b, hy⟩) action hay
    rw [← hshape hx, ← hshape hy]
    exact Option.some.inj (ha.symm.trans hb)
  · intro hU
    refine claimAll_isOk fun s hs t ht action hsaction htaction => ?_
    obtain ⟨a, ha⟩ := BTreeMap.mem_vals_iff.mp hs
    obtain ⟨b, hb⟩ := BTreeMap.mem_vals_iff.mp ht
    rw [hshape ha, hshape hb]
    exact hU a b action ⟨s, ha, hsaction⟩ ⟨t, hb, htaction⟩

/-! ## Accepted plans -/

/-- An accepted plan takes no action that has an owner, and none twice. -/
structure UnownedPlan (state : RunState) (plan : List AcceptedPlanStep) : Prop where
  unowned : ∀ p ∈ plan, ∀ id, ¬ Owns state id p.invocation.actionDigest
  distinct : ∀ p ∈ plan, ∀ q ∈ plan, p.invocation.actionDigest = q.invocation.actionDigest →
    p.stepId = q.stepId

theorem headers_unowned {decision : ExpectedPlanningTurn} {plan : List AcceptedPlanStep}
    {proposedIds : BTreeSet String} (hstate : Reachable D state)
    (h : validateAcceptedPlanHeaders D state decision plan = .ok proposedIds) :
    UnownedPlan state plan := by
  have hfresh := headers_fresh h
  simp only [validateAcceptedPlanHeaders, Outcome.bind_eq_ok, Outcome.pure_eq_ok] at h
  obtain ⟨owners, howners, acc, hacc, _⟩ := h
  -- every owner is kept, and every header enters its step
  have hI := Outcome.foldl_induction
    (I := fun (seen : List AcceptedPlanStep) (acc : BTreeSet String × BTreeMap String String) =>
      (∀ x id : String, owners[x]? = some id → acc.2[x]? = some id) ∧
        ∀ p ∈ seen, acc.2[p.invocation.actionDigest]? = some p.stepId)
    ⟨fun x id hx => hx, by simp⟩ ?_ hacc
  · obtain ⟨hkeep, hplan⟩ := hI
    refine ⟨?_, ?_⟩
    · rintro p hp id ⟨step, hstep, haction⟩
      have hold := existingActionOwners_eq_ok howners step (BTreeMap.mem_vals_iff.mpr ⟨id, hstep⟩) _
        haction
      have hsame := Option.some.inj ((hkeep _ _ hold).symm.trans (hplan p hp))
      rw [(reachable_step_shape hstate id step hstep).1] at hsame
      exact hfresh.fresh p hp (hsame ▸ BTreeMap.mem_iff_exists.mpr ⟨step, hstep⟩)
    · intro p hp q hq heq
      have hpq := hplan p hp
      rw [heq, hplan q hq] at hpq
      exact (Option.some.inj hpq).symm
  · rintro seen acc p acc' _ ⟨hkeep, hseen⟩ hok
    obtain ⟨_, _, _, _, hclaim⟩ := validateAcceptedPlanHeader_eq_ok hok
    refine ⟨fun x id hx => claimAction_keeps hclaim (hkeep x id hx), fun q hq => ?_⟩
    rcases List.mem_append.mp hq with hq | hq
    · exact claimAction_keeps hclaim (hseen q hq)
    · rw [List.mem_singleton.mp hq, ← (claimAction_eq_ok.mp hclaim).2]
      exact Std.ExtTreeMap.getElem?_insert_self

theorem owns_addAccepted {plan : List AcceptedPlanStep} {id action : String}
    (hnext : next.steps = addAccepted state.steps plan) (h : Owns next id action) :
    Owns state id action ∨ ∃ p ∈ plan, p.stepId = id ∧ p.invocation.actionDigest = action := by
  obtain ⟨step, hstep, haction⟩ := h
  rw [hnext] at hstep
  rcases addAccepted_get hstep with hold | ⟨p, hp, rfl, rfl⟩
  · exact Or.inl ⟨step, hold, haction⟩
  · refine Or.inr ⟨p, hp, rfl, ?_⟩
    simpa [StepState.ownedActions, AcceptedPlanStep.toStep, StepState.fresh, eq_comm] using haction

/-! ## Intents -/

/-- An intent for a step that was planned alone does not take the planned action of another
step. -/
def LeavesPlannedActions (state : RunState) (body : RunEventBody) : Prop :=
  ∀ id intent, body = .effectIntentCommitted id intent → state.plannedAction id = none →
    ∀ other, other ≠ id → state.plannedAction other ≠ some intent.actionDigest

theorem validatePlannedInvocationBinding_eq_ok {step : StepState} {intent : EffectIntent} {u : Unit}
    (h : validatePlannedInvocationBinding D step intent = .ok u)
    {planned : PlannedInvocationBinding} (hplanned : step.plannedInvocation = some planned) :
    planned.actionDigest = intent.actionDigest := by
  simp only [validatePlannedInvocationBinding, Outcome.whenSome_eq_ok, Outcome.bind_eq_ok,
    Outcome.exists_unit, Outcome.forEach_eq_ok] at h
  obtain ⟨_, hfields, _⟩ := h planned hplanned
  have haction := hfields ("action_digest", planned.actionDigest == intent.actionDigest) (by simp)
  simpa using haction

theorem Transition.plannedAction_eq (h : Transition D state body next)
    (hplan : ∀ decision plan, body ≠ .planAccepted decision plan) (id : String) :
    next.plannedAction id = state.plannedAction id := by
  rw [RunState.plannedAction, RunState.plannedAction]
  cases h with
  | planAccepted => exact absurd rfl (hplan _ _)
  | stepPlanned hnew =>
    rw [RunState.setStep, BTreeMap.get_insert]
    split
    · rename_i heq
      rw [← heq, BTreeMap.get_eq_none_iff.mpr hnew]
      rfl
    · rfl
  | effectIntentCommitted hstep =>
    rw [BTreeMap.get_insert]
    split
    · rename_i heq
      rw [← heq, hstep]
      rfl
    · rfl
  | moved hstep hmove =>
    rw [RunState.setStep, BTreeMap.get_insert]
    split
    · rename_i heq
      rw [← heq, hstep, Option.bind_some, Option.bind_some, hmove.evolves.plannedInvocation]
    · rfl
  | agentLoopConfigured | modelCallLifecycleConfigured | modelCallReserved
  | modelCallBecameUnknown | modelCallSettled | completionCandidateRecorded => rfl

theorem IntentCommits.unowned {id : String} {intent : EffectIntent}
    {consumption : AuthorizationConsumption} (h : IntentCommits D state id intent consumption)
    (hstate : Reachable D state) (hU : UniqueOwners state)
    (hleaves : LeavesPlannedActions state (.effectIntentCommitted id intent)) {other : String}
    (hother : Owns state other intent.actionDigest) : other = id := by
  have hG := reachable_grants hstate
  rcases owns_iff.mp hother with hplanned | hintent
  · obtain ⟨step, hstep, _, hbinding⟩ := h.step
    cases hown : state.plannedAction id with
    | none =>
      by_contra hne
      exact hleaves id intent rfl hown other hne hplanned
    | some action =>
      -- a planned step commits an intent for its own action
      refine hU other id intent.actionDigest hother (owns_iff.mpr (Or.inl ?_))
      rw [RunState.plannedAction, hstep, Option.bind_some, Option.map_eq_some_iff] at hown
      obtain ⟨planned, hsome, _⟩ := hown
      rw [RunState.plannedAction, hstep, Option.bind_some, hsome, Option.map_some,
        validatePlannedInvocationBinding_eq_ok hbinding hsome]
  · -- an intent for the same action has used the grant
    obtain ⟨old, hold, haction⟩ := Option.map_eq_some_iff.mp hintent
    have hgrant := hG.named other old hold
    rw [haction, validateAuthorizationBinding_eq_ok h.binding, Except.ok.injEq] at hgrant
    obtain ⟨used, hused, _⟩ := hG.used other old hold
    rw [← hgrant, (h.new_grant hG).1] at hused
    simp at hused

/-- **Step lemma.** A transition that leaves planned actions alone keeps the owners unique. -/
theorem Transition.uniqueOwners (h : Transition D state body next) (hstate : Reachable D state)
    (hU : UniqueOwners state) (hleaves : LeavesPlannedActions state body) : UniqueOwners next := by
  by_cases hplan : ∃ decision plan, body = .planAccepted decision plan
  · obtain ⟨decision, plan, rfl⟩ := hplan
    cases h with
    | planAccepted _ _ _ _ _ _ _ hheaders =>
      have hP := headers_unowned hstate hheaders
      intro a b action ha hb
      rcases owns_addAccepted rfl ha with ha | ⟨p, hp, rfl, hpaction⟩ <;>
        rcases owns_addAccepted rfl hb with hb | ⟨q, hq, rfl, hqaction⟩
      · exact hU a b action ha hb
      · exact absurd (hqaction ▸ ha) (hP.unowned q hq a)
      · exact absurd (hpaction ▸ hb) (hP.unowned p hp b)
      · exact hP.distinct p hp q hq (hpaction.trans hqaction.symm)
    | moved hstep hmove => cases hmove
  · have hkeeps := h.plannedAction_eq fun decision plan heq => hplan ⟨decision, plan, heq⟩
    rcases h.intents with ⟨_, _, hintents⟩ | ⟨id, intent, consumption, rfl, hcommits, _, hintents⟩
    · intro a b action
      simpa only [owns_iff, hkeeps, hintents] using hU a b action
    · -- only the step of the intent gets an action
      have hcases : ∀ {a action}, Owns next a action →
          Owns state a action ∨ a = id ∧ action = intent.actionDigest := by
        intro a action ha
        rw [owns_iff, hkeeps, hintents] at ha
        split at ha
        · rename_i heq
          rcases ha with ha | ha
          · exact Or.inl (owns_iff.mpr (Or.inl ha))
          · exact Or.inr ⟨heq.symm, by simpa [eq_comm] using ha⟩
        · exact Or.inl (owns_iff.mpr ha)
      intro a b action ha hb
      rcases hcases ha with ha | ⟨rfl, rfl⟩ <;> rcases hcases hb with hb | ⟨rfl, hb⟩
      · exact hU a b action ha hb
      · exact hcommits.unowned hstate hU hleaves (hb ▸ ha)
      · exact (hcommits.unowned hstate hU hleaves hb).symm
      · rfl

theorem Transition.leavesPlannedActions (h : Transition D state body next)
    (hU : UniqueOwners next) : LeavesPlannedActions state body := by
  rintro id intent rfl _ other hne hother
  rcases h.intents with ⟨hnot, _⟩ | ⟨id', intent', _, hbody, _, _, hintents⟩
  · exact hnot id intent rfl
  · obtain ⟨rfl, rfl⟩ := RunEventBody.effectIntentCommitted.inj hbody
    have hkeeps := h.plannedAction_eq (by simp) other
    refine hne (hU other id intent.actionDigest (owns_iff.mpr (Or.inl (hkeeps.trans hother)))
      (owns_iff.mpr (Or.inr ?_)))
    rw [hintents, if_pos rfl, Option.map_some]

/-! ## Runs -/

/-- Every intent of a journal leaves the planned actions of the state before it alone. -/
def LeavesPlannedActionsAlong (D : Digests) (records : List EventRecord) : Prop :=
  ∀ before record after state, records = before ++ record :: after →
    replay D before = .ok state → LeavesPlannedActions state record.event.body

/-- The owners are unique in every state that a journal goes through. -/
def UniqueOwnersAlong (D : Digests) (records : List EventRecord) : Prop :=
  ∀ before after state, records = before ++ after → replay D before = .ok state →
    UniqueOwners state ∧ ∃ owners, existingActionOwners state = .ok owners

/-- **Run lemma.** -/
theorem uniqueOwners_of_replay {records : List EventRecord} (h : replay D records = .ok state)
    (hleaves : LeavesPlannedActionsAlong D records) : UniqueOwners state := by
  have hI : LeavesPlannedActionsAlong D records → UniqueOwners state := by
    refine replay_induction
      (I := fun records s => LeavesPlannedActionsAlong D records → UniqueOwners s) ?_ ?_ h
    · rintro record goal _ _ a b action ⟨step, hstep, _⟩
      simp [RunState.created] at hstep
    · intro records s record next hs hI _ ht halong a b action
      have hU : UniqueOwners s := hI fun before r after t hsplit =>
        halong before r (after ++ [record]) t (by simp [hsplit])
      exact ht.uniqueOwners ⟨records, hs⟩ hU (halong records record [] s rfl hs) a b action
  exact hI hleaves

/-- **Unique owners, exactly.** In every accepted journal: no action has two owners in any of its
states, and the scan of the owners never fails, exactly when no intent for a step that was planned
alone takes the planned action of another step. -/
theorem unique_owners_iff {records : List EventRecord} (h : replay D records = .ok state) :
    UniqueOwnersAlong D records ↔ LeavesPlannedActionsAlong D records := by
  constructor
  · intro hU before record after s hsplit hs
    have hrest : records = (before ++ [record]) ++ after := by simp [hsplit]
    obtain ⟨s', hs'⟩ := replay_prefix (by simp) (hrest ▸ h)
    have hunique := (hU (before ++ [record]) after s' hrest hs').1
    obtain ⟨t, ht, happly⟩ := replay_snoc (replay_ne_nil hs) hs'
    obtain rfl := Except.ok.inj (hs.symm.trans ht)
    obtain ⟨next, _, htransition, rfl⟩ := applyRecord_some happly
    exact htransition.leavesPlannedActions fun a b action => hunique a b action
  · intro hleaves before after s hsplit hs
    have hU := uniqueOwners_of_replay hs fun b r a t hbefore =>
      hleaves b r (a ++ after) t (by simp [hsplit, hbefore])
    exact ⟨hU, (existingActionOwners_isOk_iff ⟨before, hs⟩).mpr hU⟩

/-! ## Two sample runs

An accepted plan gives an action to the step `step-b`; a second step, planned alone, commits an
intent. In the first run the intent is for an action of its own, in the second run it is for the
action of `step-b`. -/

/-- A run up to the plan and the second step. -/
def plannedLines : List SampleLine :=
  sampleLines.take 1 ++
    [⟨.agentLoopConfigured ⟨4, 4, 4, 65536⟩, 356,
        "6471a47e7bc92acc79b171b19101fda279e1fc572a60d32a724db159fb339188"⟩,
      ⟨.planAccepted ⟨1, none, sampleDigest 'c', sampleDigest 'd'⟩
        [⟨"step-b", "write the second file", [], sampleInvocation⟩], 1283,
        "3f65eed9434bf1820667d333a6b2cf64ada46e71eb9e2121a965ecd1cee511dd"⟩,
      ⟨.stepPlanned "step-c" "clean up" [], 298,
        "ad20f62a34a9327d1c92a10b84f4f131fd9e2a669e49319832f11b7f41882bea"⟩]

def plannedHead : String := "sha256:ad20f62a34a9327d1c92a10b84f4f131fd9e2a669e49319832f11b7f41882bea"

def ownBinding : AuthorizationBinding := sampleBinding "step-c" 4 plannedHead (sampleDigest '0')

def takenBinding : AuthorizationBinding := sampleBinding "step-c" 4 plannedHead (sampleDigest 'b')

/-- The second step commits an intent for an action of its own. -/
def ownLines : List SampleLine :=
  plannedLines ++
    [⟨.effectIntentCommitted "step-c" (sampleIntent "effect-c"
        "4b8ea93c5910b203790a898d1b26f0e40af95b6b8c54d277ad5ad82b02b089eb"
        "05c0ab8c9e709b8fbc08c44314fc6dd7050dfa300b1098eae2b54ae23f68dd59" ownBinding), 1824,
        "cd4435f16c55f2d75f32edd3fbdf8e4011d4ac17b5b894939217e277d584aa7c"⟩]

/-- The second step commits an intent for the action of `step-b`. -/
def takenLines : List SampleLine :=
  plannedLines ++
    [⟨.effectIntentCommitted "step-c" (sampleIntent "effect-c"
        "99e4544d8a2d5101b1afbded1987e4d07e53ef12681e701984fd5adf6cd46049"
        "d2e04d58759b7065f5d17bcc1d763eb5b8cc60e8ade9d6fb66b8617641c280f9" takenBinding), 1824,
        "006040fbe97f5ead87d64990aab372fc7613e511aa50800a0e9c8ea595b3aa16"⟩]

def ownTable : List (DigestInput × ℕ × String) :=
  sampleDocuments 0 none ownLines ++ callDocuments ++
    [(.onceAuthorizationId "run-1" (sampleDigest '0'), 152,
        "4b8ea93c5910b203790a898d1b26f0e40af95b6b8c54d277ad5ad82b02b089eb"),
      (.authorization ownBinding 1, 899,
        "05c0ab8c9e709b8fbc08c44314fc6dd7050dfa300b1098eae2b54ae23f68dd59")]

def takenTable : List (DigestInput × ℕ × String) :=
  sampleDocuments 0 none takenLines ++ callDocuments ++
    [(.onceAuthorizationId "run-1" (sampleDigest 'b'), 152,
        "99e4544d8a2d5101b1afbded1987e4d07e53ef12681e701984fd5adf6cd46049"),
      (.authorization takenBinding 1, 899,
        "d2e04d58759b7065f5d17bcc1d763eb5b8cc60e8ade9d6fb66b8617641c280f9")]

/-- The run in which the second step takes the planned action ends with two owners of it, and the
scan that every later plan starts with fails. -/
theorem two_owners_sample : ∃ state,
    replay (tableDigests takenTable) (sampleRecords 0 none takenLines) = .ok state ∧
      Owns state "step-b" (sampleDigest 'b') ∧ Owns state "step-c" (sampleDigest 'b') ∧
      ¬ UniqueOwners state ∧
      existingActionOwners state = .error (.err (.duplicatePlannedAction "step-c" "step-b")) := by
  have hrun : (replay (tableDigests takenTable) (sampleRecords 0 none takenLines)).value?.any
      (fun state => decide (Owns state "step-b" (sampleDigest 'b') ∧
        Owns state "step-c" (sampleDigest 'b') ∧ existingActionOwners state =
          .error (.err (.duplicatePlannedAction "step-c" "step-b")))) = true := by
    decide +kernel
  obtain ⟨state, hreplay, hstate⟩ := Outcome.exists_ok_of_any hrun
  obtain ⟨hb, hc, herror⟩ := of_decide_eq_true hstate
  refine ⟨state, hreplay, hb, hc, fun hU => ?_, herror⟩
  exact absurd (hU "step-b" "step-c" _ hb hc) (by decide)

/-- The run in which the second step keeps to an action of its own meets the condition, and its
owners are unique all along. -/
theorem unique_owners_iff_sample :
    UniqueOwnersAlong (tableDigests ownTable) (sampleRecords 0 none ownLines) := by
  have hrun : ((replay (tableDigests ownTable) (sampleRecords 0 none ownLines)).value?.isSome &&
      (replay (tableDigests ownTable) (sampleRecords 0 none plannedLines)).value?.all (fun state =>
        (BTreeMap.vals state.steps).all fun step => step.plannedInvocation.all fun planned =>
          planned.actionDigest != sampleDigest '0')) = true := by
    decide +kernel
  obtain ⟨hreplay, hfree⟩ := Bool.and_eq_true_iff.mp hrun
  obtain ⟨state, hreplay⟩ := Outcome.exists_ok_of_isSome hreplay
  refine (unique_owners_iff hreplay).mpr fun before record after s hsplit hs id intent hbody _ => ?_
  -- the one intent of the run is its last record
  have hat : (sampleRecords 0 none ownLines)[before.length]? = some record := by simp [hsplit]
  have hsubject : ((sampleRecords 0 none ownLines).map fun r => r.event.body.subject)[before.length]?
      = some (some id) := by
    rw [List.getElem?_map, hat, Option.map_some, hbody]
    rfl
  have hlength : before.length = 4 := by
    generalize before.length = n at hsubject
    rcases n with _ | _ | _ | _ | _ | n <;> simp [sampleRecords, ownLines, plannedLines, sampleLines,
      sampleEvent, RunEventBody.subject] at hsubject ⊢
  have hbefore : sampleRecords 0 none plannedLines = before := by
    have htake : (sampleRecords 0 none ownLines).take 4 = before := by
      rw [hsplit, ← hlength, List.take_left]
    exact htake
  have haction : intent.actionDigest = sampleDigest '0' := by
    rw [hlength] at hat
    obtain rfl := Option.some.inj hat
    obtain ⟨_, rfl⟩ := RunEventBody.effectIntentCommitted.inj hbody
    rfl
  rintro other _ hplanned
  rw [hbefore, hs] at hfree
  rw [RunState.plannedAction, Option.map_eq_some_iff] at hplanned
  obtain ⟨planned, hbind, hdigest⟩ := hplanned
  obtain ⟨step, hstep, hsome⟩ := Option.bind_eq_some_iff.mp hbind
  have hne := List.all_eq_true.mp hfree step (BTreeMap.mem_vals_iff.mpr ⟨other, hstep⟩)
  simp [hsome, hdigest, haction] at hne

end Xgeny
