import Xgeny.Runs.AtMostOnce

set_option autoImplicit false

/-!
# One-shot authorizations

A grant is named by the run and the action it is for, it allows one use, and committing an intent
uses it. So a run commits one intent for each action, and the map of consumed grants has one entry
for each intent.

* `RunState.intentOf`: the intent committed for a step; `Transition.intents`: how it changes;
* `Grants`: the invariant between the intents and the consumed grants;
* **`one_shot_authorization`**: the law, for every accepted journal. It needs no assumption on the
  digests: intents that share an action share their grant.
-/

namespace Xgeny

open EventLog

variable {D : Digests} {state next : RunState} {body : RunEventBody}

/-! ## Intents -/

/-- The intent committed for a step. -/
def RunState.intentOf (state : RunState) (id : String) : Option EffectIntent :=
  state.steps[id]?.bind StepState.intent

theorem RunState.intentOf_eq_some {id : String} {intent : EffectIntent} :
    state.intentOf id = some intent ↔
      ∃ step, state.steps[id]? = some step ∧ step.intent = some intent := by
  rw [intentOf, Option.bind_eq_some_iff]

/-- What is checked of an intent when it is committed, and what it consumes. -/
structure IntentCommits (D : Digests) (state : RunState) (id : String) (intent : EffectIntent)
    (consumption : AuthorizationConsumption) : Prop where
  step : ∃ step, state.steps[id]? = some step ∧ step.status = .planned ∧
    validatePlannedInvocationBinding D step intent = .ok ()
  checked : checkIntent D intent = .ok ()
  fresh : ∀ other old, state.intentOf other = some old → old.effectId ≠ intent.effectId
  binding : validateAuthorizationBinding D state id intent = .ok ()
  consumed : consumeAuthorization state intent = .ok consumption

/-- **How intents change.** One event commits an intent and uses its grant; every other event keeps
all intents and all consumed grants. -/
theorem Transition.intents (h : Transition D state body next) :
    ((∀ id intent, body ≠ .effectIntentCommitted id intent) ∧
      next.authorizationConsumption = state.authorizationConsumption ∧
      ∀ id, next.intentOf id = state.intentOf id) ∨
    ∃ id intent consumption, body = .effectIntentCommitted id intent ∧
      IntentCommits D state id intent consumption ∧
      next.authorizationConsumption =
        state.authorizationConsumption.insert intent.authorization.grantId consumption ∧
      ∀ other, next.intentOf other = if id = other then some intent else state.intentOf other := by
  by_cases hbody : ∃ id intent, body = .effectIntentCommitted id intent
  · obtain ⟨id, intent, rfl⟩ := hbody
    cases h with
    | effectIntentCommitted hstep hstatus hintent hfresh hreleased hplanned hbinding hconsumed =>
      refine Or.inr ⟨id, intent, _, rfl, ⟨⟨_, hstep, hstatus, hplanned⟩, hintent, ?_, hbinding,
        hconsumed⟩, rfl, fun other => ?_⟩
      · intro other old hold heffect
        obtain ⟨s, hs, hsintent⟩ := RunState.intentOf_eq_some.mp hold
        exact hfresh other s hs (by rw [StepState.Commits, hsintent, Option.map_some, heffect])
      · rw [RunState.intentOf, BTreeMap.get_insert]
        split <;> rfl
    | moved hstep hmove => cases hmove
  · have hother : ∀ id intent, body ≠ .effectIntentCommitted id intent :=
      fun id intent heq => hbody ⟨id, intent, heq⟩
    refine Or.inl ⟨hother, ?_, fun id => ?_⟩
    · cases h <;> first | rfl | exact absurd rfl (hother _ _)
    · rw [RunState.intentOf, RunState.intentOf]
      have hlocal := h.localMove id
      generalize state.steps[id]? = view at hlocal
      generalize next.steps[id]? = view' at hlocal
      cases hlocal with
      | idle => rfl
      | enters hsubject hfresh =>
        rw [hfresh]
        rfl
      | commits => exact absurd rfl (hother _ _)
      | moves hmove => exact hmove.intent_eq.1

theorem IntentCommits.intentOf_eq_none {id : String} {intent : EffectIntent}
    {consumption : AuthorizationConsumption} (h : IntentCommits D state id intent consumption)
    (hstate : Reachable D state) : state.intentOf id = none := by
  obtain ⟨step, hstep, hstatus, _⟩ := h.step
  have hshape := (reachable_step_shape hstate id step hstep).2
  rw [RunState.intentOf, hstep, Option.bind_some]
  simpa [hstatus] using hshape

theorem validateAuthorizationBinding_eq_ok {id : String} {intent : EffectIntent} {u : Unit}
    (h : validateAuthorizationBinding D state id intent = .ok u) :
    onceAuthorizationId D state.runId intent.actionDigest = .ok intent.authorization.grantId := by
  simp only [validateAuthorizationBinding, Outcome.bind_eq_ok, Outcome.exists_unit,
    Outcome.failIf_eq_ok, Outcome.mapErr_eq_ok, ne_eq, Decidable.not_not] at h
  obtain ⟨hrun, _, _, _, _, haction, _, expected, hid, rfl, _⟩ := h
  rw [← hrun, ← haction]
  exact hid

theorem checkIntent_eq_ok {intent : EffectIntent} {u : Unit} (h : checkIntent D intent = .ok u) :
    intent.authorization.maxUses = 1 := by
  simp only [checkIntent, Outcome.bind_eq_ok, Outcome.exists_unit, Outcome.failIf_eq_ok, ne_eq,
    Decidable.not_not] at h
  exact h.2.2.1

/-! ## Grants -/

/-- The one use of a grant, for one effect. -/
structure UsedOnce (consumption : AuthorizationConsumption) (effectId : String) : Prop where
  maxUses : consumption.maxUses = 1
  uses : consumption.uses = 1
  effectIds : consumption.effectIds = {effectId}

/-- The consumed grants are those of the committed intents, one for each. -/
structure Grants (D : Digests) (state : RunState) : Prop where
  named : ∀ id intent, state.intentOf id = some intent →
    onceAuthorizationId D state.runId intent.actionDigest = .ok intent.authorization.grantId
  used : ∀ id intent, state.intentOf id = some intent → ∃ consumption,
    state.authorizationConsumption[intent.authorization.grantId]? = some consumption ∧
      UsedOnce consumption intent.effectId
  entry : ∀ (grantId : String) consumption,
    state.authorizationConsumption[grantId]? = some consumption →
    ∃ id intent, state.intentOf id = some intent ∧ intent.authorization.grantId = grantId
  grant : ∀ a b x y, state.intentOf a = some x → state.intentOf b = some y →
    x.authorization.grantId = y.authorization.grantId → a = b
  effect : ∀ a b x y, state.intentOf a = some x → state.intentOf b = some y →
    x.effectId = y.effectId → a = b

theorem IntentCommits.new_grant {id : String} {intent : EffectIntent}
    {consumption : AuthorizationConsumption} (h : IntentCommits D state id intent consumption)
    (hG : Grants D state) :
    state.authorizationConsumption[intent.authorization.grantId]? = none ∧
      UsedOnce consumption intent.effectId := by
  have hconsumed := h.consumed
  simp only [consumeAuthorization, Outcome.bind_eq_ok, Outcome.exists_unit, Outcome.failIf_eq_ok,
    Outcome.pure_eq_ok, not_or, ge_iff_le, UInt32.not_le] at hconsumed
  obtain ⟨_, huses, rfl⟩ := hconsumed
  cases hentry : state.authorizationConsumption[intent.authorization.grantId]? with
  | some old =>
    obtain ⟨other, oldIntent, hold, hgrant⟩ := hG.entry _ _ hentry
    obtain ⟨old', hold', hused⟩ := hG.used other oldIntent hold
    rw [hgrant, hentry] at hold'
    obtain rfl := Option.some.inj hold'
    simp only [consumptionEntry, hentry, Option.getD_some, hused.uses, hused.maxUses] at huses
    exact absurd huses (by decide)
  | none =>
    simp only [consumptionEntry, hentry, Option.getD_none]
    exact ⟨trivial, checkIntent_eq_ok h.checked, rfl, rfl⟩

/-- **Step lemma.** A transition keeps the grants. -/
theorem Transition.grants (h : Transition D state body next) (hstate : Reachable D state)
    (hG : Grants D state) : Grants D next := by
  have hrun := h.runId_eq
  rcases h.intents with ⟨_, hconsumption, hintents⟩ |
    ⟨id, intent, consumption, _, hcommits, hconsumption, hintents⟩
  · constructor
    · simpa only [hintents, hrun] using hG.named
    · simpa only [hintents, hconsumption] using hG.used
    · simpa only [hintents, hconsumption] using hG.entry
    · simpa only [hintents] using hG.grant
    · simpa only [hintents] using hG.effect
  · obtain ⟨hnone, hused⟩ := hcommits.new_grant hG
    -- an intent of the new state is the new one or an old one
    have hcases : ∀ {a x}, next.intentOf a = some x →
        id = a ∧ intent = x ∨ state.intentOf a = some x := by
      intro a x hx
      rw [hintents] at hx
      split at hx
      · rename_i heq
        exact Or.inl ⟨heq, Option.some.inj hx⟩
      · exact Or.inr hx
    have hnew : ∀ {a x}, state.intentOf a = some x →
        x.authorization.grantId ≠ intent.authorization.grantId := by
      intro a x hx heq
      obtain ⟨old, hold, _⟩ := hG.used a x hx
      rw [heq, hnone] at hold
      simp at hold
    constructor
    · intro a x hx
      rw [hrun]
      rcases hcases hx with ⟨_, rfl⟩ | hx
      · exact validateAuthorizationBinding_eq_ok hcommits.binding
      · exact hG.named a x hx
    · intro a x hx
      rw [hconsumption]
      rcases hcases hx with ⟨_, rfl⟩ | hx
      · exact ⟨consumption, Std.ExtTreeMap.getElem?_insert_self, hused⟩
      · rw [BTreeMap.get_insert_ne _ _ (hnew hx).symm]
        exact hG.used a x hx
    · intro grantId c hc
      rw [hconsumption, BTreeMap.get_insert] at hc
      split at hc
      · rename_i heq
        exact ⟨id, intent, by rw [hintents, if_pos rfl], heq⟩
      · obtain ⟨a, x, hx, hgrant⟩ := hG.entry grantId c hc
        refine ⟨a, x, ?_, hgrant⟩
        rw [hintents, if_neg, hx]
        rintro rfl
        rw [hcommits.intentOf_eq_none hstate] at hx
        simp at hx
    · intro a b x y hx hy heq
      rcases hcases hx with ⟨rfl, rfl⟩ | hx <;> rcases hcases hy with ⟨rfl, rfl⟩ | hy
      · rfl
      · exact absurd heq.symm (hnew hy)
      · exact absurd heq (hnew hx)
      · exact hG.grant a b x y hx hy heq
    · intro a b x y hx hy heq
      rcases hcases hx with ⟨rfl, rfl⟩ | hx <;> rcases hcases hy with ⟨rfl, rfl⟩ | hy
      · rfl
      · exact absurd heq.symm (hcommits.fresh b y hy)
      · exact absurd heq (hcommits.fresh a x hx)
      · exact hG.effect a b x y hx hy heq

/-- **Run lemma.** Every reachable state has its grants in order. -/
theorem reachable_grants (h : Reachable D state) : Grants D state := by
  refine reachable_induction (I := Grants D) ?_ ?_ h
  · intro record goal _
    have hnone : ∀ id, ((RunState.created record.event goal).advance record).intentOf id = none := by
      simp [RunState.intentOf, RunState.created]
    have hempty : (RunState.created record.event goal).authorizationConsumption = ∅ := rfl
    constructor <;> simp [hnone, hempty]
  · intro s record next hs hG _ ht
    have hnext := ht.grants hs hG
    exact ⟨hnext.named, hnext.used, hnext.entry, hnext.grant, hnext.effect⟩

theorem intentOf_of_commits {records : List EventRecord} (h : replay D records = .ok state) {i : ℕ}
    {r : EventRecord} {id : String} {intent : EffectIntent} (hi : At records i r)
    (hr : r.Commits id intent) : state.intentOf id = some intent ∧
      ∀ j q other, At records j q → q.Commits id other → j = i := by
  have hI := stepHistory_of_replay h id
  cases hintent : state.intentOf id with
  | none =>
    have hnone : ∀ step, state.steps[id]? = some step → step.intent = none := by
      intro step hstep
      rwa [RunState.intentOf, hstep, Option.bind_some] at hintent
    exact absurd hr ((hI.untouched hnone i r hi).1 intent)
  | some found =>
    obtain ⟨step, hstep, hfound⟩ := RunState.intentOf_eq_some.mp hintent
    obtain ⟨j, q, hj, hq, hunique, _⟩ := hI.committed step found hstep hfound
    obtain rfl := hunique i r intent hi hr
    have hsame : r = q := At.unique hi hj
    have hbody := hr.symm.trans (hsame ▸ hq)
    simp only [RunEventBody.effectIntentCommitted.injEq, true_and] at hbody
    exact ⟨by rw [hbody], hunique⟩

/-- **One-shot authorization.** In every accepted journal, two committed intents differ in their
step, their effect and their action; and the consumed grants of the replayed state are in one to
one correspondence with the steps that have an intent, each used once, of the one use it allows,
for the effect of that step. -/
theorem one_shot_authorization {records : List EventRecord} (h : replay D records = .ok state) :
    (∀ i j p q a b x y, i ≠ j → At records i p → At records j q →
      p.event.body = .effectIntentCommitted a x → q.event.body = .effectIntentCommitted b y →
      x.actionDigest ≠ y.actionDigest ∧ x.effectId ≠ y.effectId ∧ a ≠ b) ∧
      (∀ (grantId : String) consumption,
        state.authorizationConsumption[grantId]? = some consumption →
        ∃! id : String, ∃ (step : StepState) (intent : EffectIntent),
          state.steps[id]? = some step ∧ step.intent = some intent ∧
          intent.authorization.grantId = grantId ∧ consumption.uses = 1 ∧
          consumption.maxUses = 1 ∧ consumption.effectIds = {intent.effectId}) ∧
      (∀ (id : String) (step : StepState) (intent : EffectIntent),
        state.steps[id]? = some step → step.intent = some intent →
        intent.authorization.grantId ∈ state.authorizationConsumption) := by
  have hG := reachable_grants ⟨records, h⟩
  refine ⟨?_, ?_, ?_⟩
  · intro i j p q a b x y hij hi hj hp hq
    obtain ⟨hx, honly⟩ := intentOf_of_commits h hi hp
    obtain ⟨hy, _⟩ := intentOf_of_commits h hj hq
    have hab : a ≠ b := by
      rintro rfl
      exact hij (honly j q y hj hq).symm
    refine ⟨fun haction => ?_, fun heffect => ?_, hab⟩
    · -- one action, one grant
      have hgrant := hG.named a x hx
      rw [haction, hG.named b y hy, Except.ok.injEq] at hgrant
      exact hab (hG.grant a b x y hx hy hgrant.symm)
    · exact hab (hG.effect a b x y hx hy heffect)
  · intro grantId consumption hentry
    obtain ⟨id, intent, hintent, rfl⟩ := hG.entry grantId consumption hentry
    obtain ⟨used, hused, hfacts⟩ := hG.used id intent hintent
    obtain rfl := Option.some.inj (hentry.symm.trans hused)
    obtain ⟨step, hstep, hsome⟩ := RunState.intentOf_eq_some.mp hintent
    refine ⟨id, ⟨step, intent, hstep, hsome, rfl, hfacts.uses, hfacts.maxUses, hfacts.effectIds⟩, ?_⟩
    rintro other ⟨step', intent', hstep', hsome', hgrant, _⟩
    exact hG.grant other id intent' intent
      (RunState.intentOf_eq_some.mpr ⟨step', hstep', hsome'⟩) hintent hgrant
  · intro id step intent hstep hsome
    obtain ⟨used, hused, _⟩ :=
      hG.used id intent (RunState.intentOf_eq_some.mpr ⟨step, hstep, hsome⟩)
    exact BTreeMap.mem_iff_exists.mpr ⟨used, hused⟩

/-! ## A sample run with two intents -/

def bindingC : AuthorizationBinding :=
  sampleBinding "step-c" 4 "sha256:59f93d8a6a4b6ea0b61ba66b1a352f9d4fa8b0d4d6103e149153208f44c9fe24"
    (sampleDigest '0')

def intentC : EffectIntent :=
  sampleIntent "effect-c" "4b8ea93c5910b203790a898d1b26f0e40af95b6b8c54d277ad5ad82b02b089eb"
    "3841fee1c218bdb25e85efd9d45a6859feb548aa5a5b51ffc60972ca4523e173" bindingC

/-- The sample run up to its intent, and a second step with an intent of its own. -/
def twoIntentsLines : List SampleLine :=
  sampleLines.take 3 ++
    [⟨.stepPlanned "step-c" "clean up" [], 298,
        "59f93d8a6a4b6ea0b61ba66b1a352f9d4fa8b0d4d6103e149153208f44c9fe24"⟩,
      ⟨.effectIntentCommitted "step-c" intentC, 1824,
        "656094edabd1754fe4195aab3a1e6b118b70ebfd2f66ee982674f5ed5db096d5"⟩]

def twoIntentsTable : List (DigestInput × ℕ × String) :=
  sampleDocuments 0 none twoIntentsLines ++ sampleAuthorization ++
    [(.onceAuthorizationId "run-1" (sampleDigest '0'), 152,
        "4b8ea93c5910b203790a898d1b26f0e40af95b6b8c54d277ad5ad82b02b089eb"),
      (.authorization bindingC 1, 899,
        "3841fee1c218bdb25e85efd9d45a6859feb548aa5a5b51ffc60972ca4523e173")]

def twoIntentsJournal : List EventRecord := sampleRecords 0 none twoIntentsLines

theorem twoIntentsJournal_replays :
    ∃ state, replay (tableDigests twoIntentsTable) twoIntentsJournal = .ok state :=
  Outcome.exists_ok_of_isSome (by decide +kernel)

/-- The two intents of the sample run stand at positions 2 and 4. -/
theorem one_shot_authorization_sample : ∃ state,
    replay (tableDigests twoIntentsTable) twoIntentsJournal = .ok state ∧
      intentA.actionDigest ≠ intentC.actionDigest ∧ intentA.effectId ≠ intentC.effectId := by
  obtain ⟨state, hstate⟩ := twoIntentsJournal_replays
  obtain ⟨haction, heffect, _⟩ := (one_shot_authorization hstate).1 2 4 _ _ "step-a" "step-c"
    intentA intentC (by decide) rfl rfl rfl rfl
  exact ⟨state, hstate, haction, heffect⟩

end Xgeny
