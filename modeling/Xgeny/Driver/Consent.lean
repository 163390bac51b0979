import Xgeny.Driver.Passive
import Xgeny.Runtime.Executions

set_option autoImplicit false

/-!
# What the driver commits and executes

Within one invocation the driver commits an intent only for a request that the approval port has
approved, and it executes only what an adapter has prepared for the intent of a step that it has
loaded, with the arguments that the intent is bound to.

* `IntentFor`: an intent that was issued for a request;
* `PreparedEffect`: what was prepared for an execution;
* `Consented`: what the own moves so far allow; **`drive_consented`**: the driver does only that.
-/

namespace Xgeny

open Prog (Only Sat only_bind only_lift only_mapErr only_pure sat_bind sat_lift sat_mapErr sat_pure)

/-- The intent of a step was issued for a request, which was resolved from the arguments that the
intent is bound to. -/
structure IntentFor (D : Digests) (registry : CapabilityRegistry) (resolver : ResourceResolver)
    (request : ResolvedPermissionRequest) (arguments : Json) (id : String) (intent : EffectIntent) :
    Prop where
  stepId : request.stepId = id
  resolved : ∃ definition given, registry.definition intent.invocation.capability = some definition ∧
    resolveInvocation resolver request.requestId request.runId request.stepId definition given .once =
      .ok ⟨request, arguments⟩
  effectClass : mapEffectClass request.effectClass = .ok intent.effectClass
  material : invocationMaterialDigest D arguments = .ok intent.authorization.binding.materialDigest

/-- An adapter has prepared an effect for the intent of a loaded step: the adapter of an instance of
the intent's capability, with the arguments that the intent is bound to. -/
structure PreparedEffect (D : Digests) (moves : List RuntimeMove) (prepared : CorePreparedEffect)
    (state : RunState) (step : StepState) (intent : EffectIntent)
    (instance_ : CapabilityInstanceBody) (arguments : Json) : Prop where
  loaded : (⟨.loadCurrent, Except.ok (some state)⟩ : RuntimeMove) ∈ moves
  found : state.steps[prepared.binding.stepId]? = some step
  committed : step.intent = some intent
  effectId : prepared.binding.effectId = intent.effectId
  definition : instance_.definition = intent.invocation.capability
  adapter : AdapterBindingKey.fromBinding instance_.binding = .ok prepared.adapterKey
  material : invocationMaterialDigest D arguments = .ok intent.authorization.binding.materialDigest
  asked : (⟨.prepare prepared.adapterKey ⟨intent, instance_, arguments⟩,
    Except.ok prepared.invocation⟩ : RuntimeMove) ∈ moves

/-- What the own moves so far allow: an intent for a request that was approved, and the execution of
what was prepared. -/
def Consented (D : Digests) (registry : CapabilityRegistry) (resolver : ResourceResolver)
    (moves : List RuntimeMove) : RuntimeOp → Prop
  | .append call => ∀ id intent, call.event.body = .effectIntentCommitted id intent →
      ∃ request arguments inputs,
        (⟨.decide request, Except.ok (.approved inputs)⟩ : RuntimeMove) ∈ moves ∧
          IntentFor D registry resolver request arguments id intent
  | .execute prepared => ∃ state step intent instance_ arguments,
      PreparedEffect D moves prepared state step intent instance_ arguments
  | _ => True

section

variable {D : Digests} {registry : CapabilityRegistry} {resolver : ResourceResolver}
  {moves moves' : List RuntimeMove} {ε ε' α β : Type}

theorem RuntimeOp.Passive.consented {op : RuntimeOp} (h : op.Passive) :
    Consented D registry resolver moves op := by
  cases op with
  | append call =>
    intro id intent hbody
    rw [RuntimeOp.Passive, hbody] at h
    cases h
  | execute => exact h.elim
  | _ => trivial

theorem PreparedEffect.mono {prepared : CorePreparedEffect} {state : RunState} {step : StepState}
    {intent : EffectIntent} {instance_ : CapabilityInstanceBody} {arguments : Json}
    (h : PreparedEffect D moves prepared state step intent instance_ arguments)
    (hsub : moves ⊆ moves') :
    PreparedEffect D moves' prepared state step intent instance_ arguments :=
  { h with loaded := hsub h.loaded, asked := hsub h.asked }

/-- The routine does what is allowed, after any moves. -/
def Heeds (D : Digests) (registry : CapabilityRegistry) (resolver : ResourceResolver)
    (p : Routine ε α) : Prop :=
  ∀ moves, p.Sat (Consented D registry resolver) Move.push moves fun _ _ => True

theorem sat_of_passive {p : Routine ε α} {Q : α → Prop} (h : Only RuntimeOp.Passive p Q) :
    p.Sat (Consented D registry resolver) Move.push moves fun all outcome =>
      moves <+: all ∧ ∀ a, outcome = .ok a → Q a :=
  h.after fun _ _ hop => hop.consented

theorem Heeds.of_passive {p : Routine ε α} {Q : α → Prop} (h : Only RuntimeOp.Passive p Q) :
    Heeds D registry resolver p := fun _ => (sat_of_passive h).mono fun _ _ _ => trivial

theorem Heeds.mapErr {p : Routine ε α} {f : ε → ε'} (h : Heeds D registry resolver p) :
    Heeds D registry resolver (p.mapErr f) := fun moves => sat_mapErr.mpr (h moves)

theorem Heeds.bind {p : Routine ε α} {f : α → Routine ε β} (h : Heeds D registry resolver p)
    (hf : ∀ a, Heeds D registry resolver (f a)) : Heeds D registry resolver (p >>= f) := by
  intro moves
  refine sat_bind.mpr ((h moves).mono fun all outcome _ => ?_)
  cases outcome with
  | ok a => exact hf a all
  | error fault => trivial

theorem Heeds.passive_bind {p : Routine ε α} {f : α → Routine ε β} {Q : α → Prop}
    (h : Only RuntimeOp.Passive p Q) (hf : ∀ a, Q a → Heeds D registry resolver (f a)) :
    Heeds D registry resolver (p >>= f) := by
  intro moves
  refine sat_bind.mpr ((sat_of_passive h).mono fun all outcome hend => ?_)
  cases outcome with
  | ok a => exact hf a (hend.2 a rfl) all
  | error fault => trivial

theorem sat_passive_bind {p : Routine ε α} {f : α → Routine ε β} {Q : α → Prop}
    (h : Only RuntimeOp.Passive p Q)
    (hf : ∀ a all, moves <+: all → Q a →
      (f a).Sat (Consented D registry resolver) Move.push all fun _ _ => True) :
    (p >>= f).Sat (Consented D registry resolver) Move.push moves fun _ _ => True := by
  refine sat_bind.mpr ((sat_of_passive h).mono fun all outcome hend => ?_)
  cases outcome with
  | ok a => exact hf a all hend.1 (hend.2 a rfl)
  | error fault => trivial

end

/-! ## The executor -/

section Executor

variable {D : Digests} {P : Protocol} {J : Schemas} {H : Host} {registry : CapabilityRegistry}
  {resolver : ResourceResolver} {policy : RuntimePolicy} {moves : List RuntimeMove} {state : RunState}
  {step : StepState} {stepId : String} {lease : RunLease} {capabilities : CapabilityRegistry}
  {adapters : EffectAdapterRegistry}

/-- The effect that a routine is given to execute was prepared. -/
def WasPrepared (D : Digests) (moves : List RuntimeMove) (given : Option CorePreparedEffect) : Prop :=
  ∀ prepared, given = some prepared → ∃ state step intent instance_ arguments,
    PreparedEffect D moves prepared state step intent instance_ arguments

theorem WasPrepared.mono {moves' : List RuntimeMove} {given : Option CorePreparedEffect}
    (h : WasPrepared D moves given) (hsub : moves ⊆ moves') : WasPrepared D moves' given := by
  intro prepared hgiven
  obtain ⟨state, step, intent, instance_, arguments, heffect⟩ := h prepared hgiven
  exact ⟨state, step, intent, instance_, arguments, heffect.mono hsub⟩

theorem executeStarted_consented {sink : DirectSink} {intent : EffectIntent}
    {prepared : CorePreparedEffect} (h : WasPrepared D moves (some prepared)) :
    (DurableEffectRuntime.executeStarted D P sink state step intent prepared).Sat
      (Consented D registry resolver) Move.push moves fun _ _ => True := by
  simp only [DurableEffectRuntime.executeStarted, DirectSink.execute, Routine.execute, sat_bind,
    sat_lift, sat_pure]
  refine ⟨h prepared rfl, fun observation => ?_⟩
  simp only [Sat]
  split
  · rename_i pending hpending
    exact Heeds.of_passive (afterExecution_passive hpending) _
  · trivial

theorem executeIntent_consented {sink : DirectSink} {given : Option CorePreparedEffect}
    (h : WasPrepared D moves given) :
    (DurableEffectRuntime.executeIntent D P policy sink state step given).Sat
      (Consented D registry resolver) Move.push moves fun _ _ => True := by
  rw [DurableEffectRuntime.executeIntent, sat_bind, sat_lift]
  split
  · rename_i checked hchecked
    obtain ⟨intent, prepared⟩ := checked
    obtain ⟨rfl, -⟩ := requirePrepared_eq_ok hchecked
    refine sat_passive_bind (Q := fun _ => True) ?_ fun found all hall _ => ?_
    · exact only_mapErr.mpr (loadInvocationMaterial_passive fun _ => trivial)
    rw [sat_bind, sat_lift]
    split
    · rw [sat_bind, sat_lift]
      split
      · refine sat_passive_bind (Q := fun _ => True) (appendEvent_passive rfl fun _ => trivial)
          fun commit all' hall' _ => ?_
        exact executeStarted_consented (h.mono (hall.trans hall').subset)
      · trivial
    · trivial
  · trivial

theorem runtimeDriveFrom_consented {sink : DirectSink} {given : Option CorePreparedEffect}
    (h : WasPrepared D moves given) :
    (DurableEffectRuntime.driveFrom D P policy sink state step given).Sat
      (Consented D registry resolver) Move.push moves fun _ _ => True := by
  unfold DurableEffectRuntime.driveFrom
  split
  · exact executeIntent_consented h
  · exact Heeds.of_passive markRecoveredExecutionUnknown_passive moves
  · exact Heeds.of_passive beginReconciliation_passive moves
  · exact Heeds.of_passive finishReconciliation_passive moves
  all_goals trivial

theorem runtimeDriveStep_consented {sink : DirectSink} {given : Option CorePreparedEffect}
    (h : WasPrepared D moves given) :
    (DurableEffectRuntime.driveStep D P policy sink lease stepId given).Sat
      (Consented D registry resolver) Move.push moves fun _ _ => True := by
  rw [DurableEffectRuntime.driveStep]
  refine sat_passive_bind (Q := fun _ => True) ?_ fun current all hall _ => ?_
  · exact only_mapErr.mpr (loadCurrent_passive fun _ => trivial)
  rw [sat_bind, sat_lift]
  split
  · rw [sat_bind, sat_lift]
    split
    · rw [sat_bind, sat_lift]
      split
      · exact runtimeDriveFrom_consented (h.mono hall.subset)
      · trivial
    · trivial
  · trivial

theorem InvocationMaterialRecord.verifyFor_materialDigest {self : InvocationMaterialRecord}
    {runId : String} {intent : EffectIntent} {u : Unit}
    (h : self.verifyFor D runId stepId intent = .ok u) :
    intent.authorization.binding.materialDigest = self.materialDigest := by
  simp only [InvocationMaterialRecord.verifyFor, Outcome.bind_eq_ok, Outcome.exists_unit,
    Outcome.failIf_eq_ok, ne_eq, Decidable.not_not] at h
  exact h.2.2.2.2.2.2.2.1

theorem requireAttempt_eq_ok {material : Option InvocationMaterial} {intent : EffectIntent}
    {given : InvocationMaterial}
    (h : DirectExecutor.requireAttempt D H policy stepId step material = .ok (intent, given)) :
    step.intent = some intent ∧ material = some given := by
  simp only [DirectExecutor.requireAttempt, Outcome.bind_eq_ok, Outcome.exists_unit,
    Outcome.okOr_eq_ok, Outcome.pure_eq_ok, Prod.mk.injEq] at h
  obtain ⟨_, hintent, -, -, _, hmaterial, rfl, rfl⟩ := h
  exact ⟨hintent, hmaterial⟩

theorem verifyMaterial_passive {intent : EffectIntent} {material : InvocationMaterial} :
    Only RuntimeOp.Passive (DirectExecutor.verifyMaterial D state stepId intent material) fun _ =>
      invocationMaterialDigest D material.normalizedArguments =
        .ok intent.authorization.binding.materialDigest := by
  simp only [DirectExecutor.verifyMaterial, only_bind, only_lift, only_mapErr]
  intro _ hverify
  refine loadInvocationMaterial_passive fun found => ?_
  intro _ _ _ _ digest hdigest _ hsame
  rw [InvocationMaterialRecord.verifyFor_materialDigest (Outcome.mapErr_eq_ok.mp hverify),
    ← Decidable.not_not.mp (Outcome.failIf_eq_ok.mp hsame)]
  exact Outcome.mapErr_eq_ok.mp hdigest

theorem executionTarget_eq_ok {intent : EffectIntent} {instance_ : CapabilityInstanceBody}
    {validator : Option Validator} {key : AdapterBindingKey}
    (h : DirectExecutor.executionTarget D J capabilities adapters intent =
      .ok (instance_, validator, key)) :
    instance_.definition = intent.invocation.capability ∧
      AdapterBindingKey.fromBinding instance_.binding = .ok key := by
  simp only [DirectExecutor.executionTarget, DirectExecutor.verifyCurrentInstance,
    DirectExecutor.registeredAdapter, Outcome.bind_eq_ok, Outcome.exists_unit,
    Outcome.failIf_eq_ok, Outcome.mapErr_eq_ok, Outcome.pure_eq_ok, Prod.mk.injEq, ne_eq,
    Decidable.not_not] at h
  obtain ⟨_, ⟨_, -, _, -, -, _, -, -, _, -, hsame, _, -, -, rfl⟩, -, _, -, _, ⟨_, hkey, -, rfl⟩,
    rfl, -, rfl⟩ := h
  exact ⟨hsame, hkey⟩

theorem driveCommittedIntent_consented {material : Option InvocationMaterial}
    (hloaded : (⟨.loadCurrent, Except.ok (some state)⟩ : RuntimeMove) ∈ moves)
    (hstep : state.steps[stepId]? = some step) :
    (DirectExecutor.driveCommittedIntent D P J H policy lease capabilities adapters state stepId step
      material).Sat (Consented D registry resolver) Move.push moves fun _ _ => True := by
  rw [DirectExecutor.driveCommittedIntent, sat_bind, sat_lift]
  split
  · rename_i checked hchecked
    obtain ⟨intent, given⟩ := checked
    obtain ⟨hintent, -⟩ := requireAttempt_eq_ok hchecked
    refine sat_passive_bind verifyMaterial_passive fun _ all hall hmaterial => ?_
    rw [sat_bind, sat_lift]
    split
    · rename_i target htarget
      obtain ⟨instance_, validator, key⟩ := target
      obtain ⟨hdefinition, hkey⟩ := executionTarget_eq_ok htarget
      rw [sat_bind, sat_mapErr]
      refine ⟨trivial, fun answer => ?_⟩
      cases answer with
      | error failure => trivial
      | ok invocation =>
        refine sat_mapErr.mpr (runtimeDriveStep_consented ?_)
        intro prepared hgiven
        obtain rfl := Option.some.inj hgiven
        exact ⟨state, step, intent, instance_, given.normalizedArguments,
          { loaded := List.mem_append_left _ (hall.subset hloaded)
            found := hstep
            committed := hintent
            effectId := rfl
            definition := hdefinition
            adapter := hkey
            material := hmaterial
            asked := List.mem_append_right _ List.mem_cons_self }⟩
    · trivial
  · trivial

theorem driveUnknownEffect_consented :
    (DirectExecutor.driveUnknownEffect D P H policy lease capabilities adapters stepId step).Sat
      (Consented D registry resolver) Move.push moves fun _ _ => True := by
  have hnone : WasPrepared D moves none := fun _ hnone => by cases hnone
  rw [DirectExecutor.driveUnknownEffect, sat_bind, sat_lift]
  split
  · rw [sat_bind, sat_lift]
    split
    · split
      · rw [sat_bind, sat_lift]
        split
        · exact sat_mapErr.mpr (runtimeDriveStep_consented hnone)
        · trivial
      · exact sat_mapErr.mpr (runtimeDriveStep_consented hnone)
    · trivial
  · trivial

/-- **The executor executes only what was prepared for a committed intent.** -/
theorem driveStep_consented {material : Option InvocationMaterial} : Heeds D registry resolver
    (DirectExecutor.driveStep D P J H policy lease capabilities adapters stepId material) := by
  intro moves
  rw [DirectExecutor.driveStep, DirectExecutor.requireCurrentState, Prog.bind_assoc, sat_bind,
    sat_mapErr]
  refine ⟨trivial, fun answer => ?_⟩
  cases answer with
  | error error => trivial
  | ok current =>
    simp only [Routine.answered, Sat, Outcome.mapErr]
    rw [sat_bind, sat_lift]
    split
    · rename_i state hstate
      obtain rfl := Outcome.okOr_eq_ok.mp hstate
      rw [sat_bind, sat_lift]
      split
      · rw [sat_bind, sat_lift]
        split
        · rename_i step hstep
          unfold DirectExecutor.driveFrom
          split
          · exact driveCommittedIntent_consented (List.mem_append_right _ List.mem_cons_self)
              (Outcome.okOr_eq_ok.mp hstep)
          · exact driveUnknownEffect_consented
          · exact driveUnknownEffect_consented
          all_goals
            exact sat_mapErr.mpr (runtimeDriveStep_consented fun _ hnone => by cases hnone)
        · trivial
      · trivial
    · trivial

end Executor

/-! ## The driver -/

section Driver

variable {D : Digests} {P : Protocol} {J : Schemas} {H : Host} {driver : RunDriver}
  {inputs : DriverInputs} {stepId : String} {moves : List RuntimeMove}

/-- **The intent of a pending invocation is one for its request.** -/
theorem PreparedFrom.intentFor {registry : CapabilityRegistry} {resolver : ResourceResolver}
    {request : AdmissionRequest} {found state : RunState} {pending : PendingInvocation}
    {definition : CapabilityDefinitionBody} {instance_ : CapabilityInstanceBody}
    {selectedInstanceId : String} {issued : IssuedEffect}
    (h : PreparedFrom D J registry resolver request found pending)
    (hissues : Issues D H pending state definition instance_ selectedInstanceId issued)
    (hchosen : Chosen D pending registry selectedInstanceId definition instance_) :
    IntentFor D registry resolver pending.permissionRequest pending.normalizedArguments
      pending.permissionRequest.stepId issued.intent := by
  obtain ⟨input, hpending⟩ := h.prepared
  have hmaterial := preparePending_material hpending
  simp only [InvocationAdmission.preparePending, Outcome.bind_eq_ok, Outcome.pure_eq_ok] at hpending
  obtain ⟨facts, hfacts, _, -, _, -, _, -, rfl⟩ := hpending
  simp only [prepareInvocationFacts, Outcome.bind_eq_ok, Outcome.exists_unit, Outcome.mapErr_eq_ok,
    Outcome.okOr_eq_ok, Outcome.pure_eq_ok] at hfacts
  obtain ⟨given, hgiven, _, -, -, -, _, -, derived, hderived, -, _, -, _, -, _, -, rfl⟩ := hfacts
  obtain rfl := Option.some.inj (hgiven.symm.trans hchosen.registered)
  have hfields := hderived
  simp only [resolveInvocation, Outcome.bind_eq_ok, Outcome.exists_unit, Outcome.pure_eq_ok]
    at hfields
  obtain ⟨-, _, -, _, -, rfl⟩ := hfields
  exact
    { stepId := rfl
      resolved := ⟨given, _, hissues.capability ▸ hgiven, hderived⟩
      effectClass := hissues.effectClass
      material := by
        rw [hmaterial, ← hissues.materialDigest,
          InvocationMaterialRecord.verifyFor_materialDigest hissues.material] }

theorem observeOrCancel_passive {progress : DriverProgress} :
    Only RuntimeOp.Passive (observeOrCancel progress) fun _ => True := by
  refine ⟨trivial, fun answer => ?_⟩
  cases answer <;> trivial

theorem loadDriven_passive : Only RuntimeOp.Passive loadDriven fun _ => True := by
  simp only [loadDriven, only_bind, only_mapErr, only_lift]
  exact loadCurrent_passive fun _ _ _ => trivial

theorem admitApproved_consented {pending : PendingInvocation} {policyInputs : PolicyInputs}
    (hprepared : ∃ request found, PreparedFrom D J inputs.tick.capabilities inputs.tick.resolver
      request found pending)
    (happroved : (⟨.decide pending.permissionRequest, Except.ok (.approved policyInputs)⟩ :
      RuntimeMove) ∈ moves) :
    (admitApproved D P J H inputs stepId pending policyInputs).Sat
      (Consented D inputs.tick.capabilities inputs.tick.resolver) Move.push moves
      fun _ _ => True := by
  obtain ⟨request, found, hprepared⟩ := hprepared
  rw [admitApproved, sat_bind, sat_mapErr]
  refine (authorizeAndCommit_calls.after fun now op hop => ?_).mono fun all outcome _ => ?_
  · cases op with
    | append call =>
      obtain ⟨state, definition, instance_, selected, issued, hissues, hchosen, -, hbody⟩ := hop
      intro id intent hintent
      obtain ⟨rfl, rfl⟩ := RunEventBody.effectIntentCommitted.inj (hbody.symm.trans hintent)
      exact ⟨_, _, policyInputs, List.mem_append_left _ happroved,
        hprepared.intentFor hissues hchosen⟩
    | execute => exact hop.elim
    | _ => trivial
  · match outcome with
    | .ok (.authorized _) => exact Heeds.of_passive observeOrCancel_passive all
    | .ok (.notAuthorized _) | .error (.err _) | .error (.panic _) => trivial

theorem admitAction_consented :
    Heeds D inputs.tick.capabilities inputs.tick.resolver (admitAction D P J H inputs stepId) := by
  intro moves
  rw [admitAction]
  refine sat_passive_bind loadDriven_passive fun state all _ _ => ?_
  refine sat_passive_bind (Q := fun _ => True) ?_ fun route all' _ _ => ?_
  · refine only_mapErr.mpr ⟨trivial, fun answer => ?_⟩
    cases answer <;> trivial
  refine sat_passive_bind (only_mapErr.mpr (preparePlannedAdmission_reads.weaken
    fun _ => RuntimeOp.Reads.passive)) fun pending all'' _ hprepared => ?_
  obtain ⟨found, arguments, hprepared⟩ := hprepared
  rw [sat_bind, sat_mapErr]
  refine ⟨trivial, fun answer => ?_⟩
  cases answer with
  | error failure => trivial
  | ok decision =>
    simp only [Routine.answered, Sat, Outcome.mapErr]
    cases decision with
    | pending => exact sat_bind.mpr ⟨trivial, fun _ => trivial⟩
    | denied => trivial
    | approved policyInputs =>
      exact admitApproved_consented ⟨_, found, hprepared⟩
        (List.mem_append_right _ List.mem_cons_self)

theorem driveFound_consented {status : StepStatus} :
    Heeds D inputs.tick.capabilities inputs.tick.resolver
      (driveFound D P J H driver inputs stepId status) := by
  unfold driveFound
  split
  · refine Heeds.passive_bind (only_mapErr.mpr (recover_reads.weaken
      fun _ => RuntimeOp.Reads.passive)) fun material _ => ?_
    exact Heeds.bind driveStep_consented.mapErr fun _ => Heeds.of_passive (Q := fun _ => True) trivial
  · exact Heeds.bind driveStep_consented.mapErr fun _ => Heeds.of_passive (Q := fun _ => True) trivial

theorem driveEffectAction_consented :
    Heeds D inputs.tick.capabilities inputs.tick.resolver
      (driveEffectAction D P J H driver inputs stepId) := by
  rw [driveEffectAction]
  refine Heeds.passive_bind loadDriven_passive fun state _ => ?_
  refine Heeds.passive_bind (Q := fun _ => True) (only_lift.mpr fun _ _ => trivial) fun effect _ => ?_
  refine Heeds.passive_bind observeOrCancel_passive fun stopped _ => ?_
  split
  · exact Heeds.of_passive (Q := fun _ => True) trivial
  · exact Heeds.bind driveFound_consented fun _ => Heeds.of_passive observeOrCancel_passive

theorem verifyAction_passive : Only RuntimeOp.Passive (verifyAction stepId) fun _ => True := by
  rw [verifyAction, only_bind]
  refine observeOrCancel_passive.mono fun stopped _ => ?_
  split
  · trivial
  · rw [only_bind, only_mapErr]
    refine ⟨trivial, fun answer => ?_⟩
    cases answer with
    | error message => trivial
    | ok => exact observeOrCancel_passive

theorem afterTick_consented {tick : AgentLoopTick} :
    Heeds D inputs.tick.capabilities inputs.tick.resolver
      (afterTick D P J H driver inputs tick) := by
  cases tick with
  | planAccepted => exact Heeds.of_passive observeOrCancel_passive
  | actionRequired action =>
    rw [afterTick]
    split
    · exact admitAction_consented
    · exact driveEffectAction_consented
    · exact Heeds.of_passive verifyAction_passive
  | completionCandidate => exact fun moves => sat_bind.mpr ⟨trivial, fun _ => trivial⟩
  | _ => exact Heeds.of_passive (Q := fun _ => True) trivial

theorem consentToModelCall_passive {allowed : Bool} :
    Only RuntimeOp.Passive (consentToModelCall allowed) fun _ => True := by
  simp only [consentToModelCall, modelCallMayBeNext, only_bind, only_mapErr, only_lift]
  refine loadCurrent_passive fun current called _ => ?_
  split
  · split
    · exact observeOrCancel_passive
    · trivial
  · trivial

/-- **The driver commits an intent only for what was approved, and executes only what was prepared
for a committed intent.** -/
theorem drive_consented : Heeds D inputs.tick.capabilities inputs.tick.resolver
    (driver.driveUntilPauseWithModelEgressObserved D P J H inputs) := by
  rw [RunDriver.driveUntilPauseWithModelEgressObserved]
  generalize driver.maxTicks.toNat = count
  induction count with
  | zero => exact Heeds.of_passive (Q := fun _ => True) trivial
  | succ count ih =>
    rw [driveTicks]
    refine Heeds.passive_bind consentToModelCall_passive fun stopped _ => ?_
    split
    · exact Heeds.of_passive (Q := fun _ => True) trivial
    · refine Heeds.passive_bind (only_mapErr.mpr tick_passive) fun tick _ => ?_
      refine Heeds.bind afterTick_consented fun outcome => ?_
      split
      · exact Heeds.of_passive (Q := fun _ => True) trivial
      · exact ih

end Driver

end Xgeny
