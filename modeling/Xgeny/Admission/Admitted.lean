import Xgeny.AgentLoop.PlannerCalls
import Xgeny.Runtime.Executor

set_option autoImplicit false

/-!
# Admitted steps and the gates of the executor

Admission commits an intent before anything is executed, and the executor checks the intent again.
Everything that admission itself has bound passes again, at any later time. Two gates are stricter
than the router: an instance that the router may select can be degraded or need credentials, and the
schema of a kept output is compiled only when the output is about to be validated.

* `PendingInvocation.Prepared`: the pending invocations that a host can hold;
* `Issues`: what an issued effect carries; `issueOnceEffect_eq_ok`;
* `AuthorizedBy`, `authorizeAndCommit_follows`: what an authorized outcome comes from;
* **`admitted_gates`**: which gates pass, and exactly when the two others do;
* `admitted_step_refused`: a step that is admitted with a degraded instance, and refused.
-/

namespace Xgeny

open EventLog
open Prog (Only Sat only_bind only_lift only_mapErr only_pure sat_bind sat_lift sat_mapErr sat_pure)

variable {D : Digests} {P : Protocol} {J : Schemas} {H : Host}

/-! ## Pending invocations -/

/-- A pending invocation that some first phase has prepared; its recipe may have been chosen. -/
inductive PendingInvocation.Prepared (D : Digests) (P : Protocol) (J : Schemas) :
    PendingInvocation → Prop where
  | prepared {pending : PendingInvocation} {lease : RunLease} {registry : CapabilityRegistry}
      {resolver : ResourceResolver} {request : AdmissionRequest} {store store' : MemoryRunStore}
      {history : RuntimeHistory}
      (hexec : Exec (runtimeSystem D P)
        (InvocationAdmission.prepare D J lease registry resolver request) store history store'
        (some (.ok pending))) : Prepared D P J pending
  | reconstructable {pending : PendingInvocation} (hpending : Prepared D P J pending)
      (reference : ReconstructableMaterialReference) :
      Prepared D P J (pending.withReconstructableMaterial reference)

theorem prepareInvocationFacts_material {runId stepId : String} {capability : CapabilityRef}
    {arguments : Json} {registry : CapabilityRegistry} {resolver : ResourceResolver}
    {facts : PreparedInvocationFacts}
    (h : prepareInvocationFacts D J runId stepId capability arguments registry resolver = .ok facts) :
    invocationMaterialDigest D facts.normalizedArguments = .ok facts.materialDigest := by
  simp only [prepareInvocationFacts, Outcome.bind_eq_ok, Outcome.exists_unit, Outcome.mapErr_eq_ok,
    Outcome.pure_eq_ok] at h
  obtain ⟨_, -, _, -, -, -, _, -, _, -, -, _, -, _, -, _, hdigest, rfl⟩ := h
  exact hdigest

theorem preparePending_material {state : RunState}
    {plannedInput : Option PlannedInvocationMaterialRecord} {registry : CapabilityRegistry}
    {resolver : ResourceResolver} {request : AdmissionRequest} {pending : PendingInvocation}
    (h : InvocationAdmission.preparePending D J state plannedInput registry resolver request =
      .ok pending) :
    invocationMaterialDigest D pending.normalizedArguments = .ok pending.materialDigest := by
  simp only [InvocationAdmission.preparePending, Outcome.bind_eq_ok, Outcome.pure_eq_ok] at h
  obtain ⟨facts, hfacts, _, -, _, -, _, -, rfl⟩ := h
  exact prepareInvocationFacts_material hfacts

theorem loadLeased_only {good : RuntimeOp → Prop} (hgood : good .loadCurrent) {lease : RunLease}
    {Q : RunState → Prop} (hQ : ∀ state, Q state) :
    Only good (InvocationAdmission.loadLeased lease) Q := by
  simp only [InvocationAdmission.loadLeased, only_bind, only_mapErr, only_lift]
  refine ⟨hgood, fun answer => ?_⟩
  cases answer with
  | error error => trivial
  | ok current => exact fun state _ _ _ => hQ state

theorem verifyPlannedInputSidecar_only {good : RuntimeOp → Prop} {state : RunState}
    {stepId : String} (hgood : good (.loadPlannedInvocation stepId))
    {Q : Option PlannedInvocationMaterialRecord → Prop} (hQ : ∀ input, Q input) :
    Only good (verifyPlannedInputSidecar D state stepId) Q := by
  simp only [verifyPlannedInputSidecar, only_bind, only_lift]
  intro step _
  split
  · exact hQ none
  · simp only [only_bind, only_mapErr, only_lift]
    refine ⟨hgood, fun answer => ?_⟩
    cases answer with
    | error error => trivial
    | ok found => exact fun input _ _ _ => hQ (some input)

theorem prepare_material {lease : RunLease} {registry : CapabilityRegistry}
    {resolver : ResourceResolver} {request : AdmissionRequest} :
    Only (fun _ => True) (InvocationAdmission.prepare D J lease registry resolver request)
      fun pending =>
        invocationMaterialDigest D pending.normalizedArguments = .ok pending.materialDigest := by
  simp only [InvocationAdmission.prepare, only_bind, only_lift]
  exact loadLeased_only trivial fun state _ _ _ _ _ _ _ _ =>
    verifyPlannedInputSidecar_only trivial fun input pending hpending => preparePending_material hpending

/-- **The digest of a pending invocation is that of its arguments.** -/
theorem PendingInvocation.Prepared.material {pending : PendingInvocation}
    (h : pending.Prepared D P J) :
    invocationMaterialDigest D pending.normalizedArguments = .ok pending.materialDigest := by
  induction h with
  | prepared hexec => exact hexec.returns prepare_material
  | reconstructable _ reference ih =>
    rw [PendingInvocation.withReconstructableMaterial]
    split <;> exact ih

/-! ## Issued effects -/

theorem InvocationMaterialRecord.new_eq_ok {runId stepId materialDigest : String}
    {intent : EffectIntent} {retention : InvocationMaterialRetention}
    {record : InvocationMaterialRecord}
    (h : InvocationMaterialRecord.new D runId stepId intent materialDigest retention = .ok record) :
    record.verifyFor D runId stepId intent = .ok () ∧ record.materialDigest = materialDigest := by
  simp only [InvocationMaterialRecord.new, Outcome.bind_eq_ok, Outcome.exists_unit,
    Outcome.pure_eq_ok] at h
  obtain ⟨-, _, -, _, -, hverify, rfl⟩ := h
  exact ⟨hverify, rfl⟩

/-- What an issued effect carries. -/
structure Issues (D : Digests) (H : Host) (pending : PendingInvocation) (state : RunState)
    (definition : CapabilityDefinitionBody) (instance_ : CapabilityInstanceBody)
    (selectedInstanceId : String) (issued : IssuedEffect) : Prop where
  provenance : ∃ identity decisionId decisionDigest provenanceDigest,
    issued.intent.receiptProvenance = some (buildReceiptProvenance H identity pending.planId
      decisionId decisionDigest instance_ definition) ∧
    receiptProvenanceDigest D (buildReceiptProvenance H identity pending.planId decisionId
      decisionDigest instance_ definition) = .ok provenanceDigest ∧
    issued.intent.authorization.binding.receiptProvenanceDigest = some provenanceDigest
  effectClass : mapEffectClass definition.spec.effect.class_ = .ok issued.intent.effectClass
  capability : issued.intent.invocation.capability = pending.route.capability
  definitionDigest : issued.intent.invocation.definitionDigest = pending.definitionDigest
  instanceId : issued.intent.invocation.instanceId = selectedInstanceId
  bindingDigest : executableBindingDigest D instance_ =
    .ok issued.intent.invocation.instanceBindingDigest
  sinkGuarantee : issued.intent.sinkGuarantee = .none
  material : issued.materialRecord.verifyFor D state.runId pending.permissionRequest.stepId
    issued.intent = .ok ()
  materialDigest : issued.materialRecord.materialDigest = pending.materialDigest

theorem issueOnceEffect_eq_ok {pending : PendingInvocation} {state : RunState}
    {definition : CapabilityDefinitionBody} {instance_ : CapabilityInstanceBody}
    {selectedInstanceId decidedAt : String} {evaluation : BoundPolicyEvaluation}
    {issued : IssuedEffect}
    (h : issueOnceEffect D J H pending state definition instance_ selectedInstanceId evaluation
      decidedAt = .ok issued) :
    Issues D H pending state definition instance_ selectedInstanceId issued := by
  simp only [issueOnceEffect, Outcome.bind_eq_ok, Outcome.mapErr_eq_ok, Outcome.pure_eq_ok] at h
  obtain ⟨⟨authorization, sources⟩, -, identity, -, evidence, -, ⟨decisionId, decisionDigest⟩, -,
    provenanceDigest, hprovenance, bindingDigest, hbinding, retention, -, grant, -, effectClass,
    hclass, grantId, -, record, hrecord, rfl⟩ := h
  obtain ⟨hverify, hmaterial⟩ := InvocationMaterialRecord.new_eq_ok hrecord
  exact ⟨⟨identity, decisionId, decisionDigest, provenanceDigest, rfl, hprovenance, rfl⟩, hclass,
    rfl, rfl, rfl, hbinding, rfl, hverify, hmaterial⟩

/-! ## Authorized outcomes -/

/-- An issued effect and the moves that end with the accepted append of its intent. -/
structure CommittedBy (D : Digests) (H : Host) (pending : PendingInvocation) (state : RunState)
    (definition : CapabilityDefinitionBody) (instance_ : CapabilityInstanceBody)
    (effect : AdmittedEffect) (moves : List RuntimeMove) (issued : IssuedEffect)
    (event : RunEvent) : Prop where
  issues : Issues D H pending state definition instance_ effect.selectedInstanceId issued
  runId : event.runId = state.runId
  body : event.body = .effectIntentCommitted pending.permissionRequest.stepId issued.intent
  last : ∃ before, moves = before ++ [⟨.append (.withInvocationMaterial (.fromState state) event
    issued.materialRecord), Except.ok effect.commit⟩]
  arguments : effect.normalizedArguments = pending.normalizedArguments
  record : effect.materialRecord = issued.materialRecord

/-- The definition and the instance that were selected. -/
structure Chosen (D : Digests) (pending : PendingInvocation) (registry : CapabilityRegistry)
    (selectedInstanceId : String) (definition : CapabilityDefinitionBody)
    (instance_ : CapabilityInstanceBody) : Prop where
  registered : registry.definition pending.route.capability = some definition
  digest : definitionContractDigest D definition = .ok pending.definitionDigest
  routed : ∃ policy ranked candidates reason, route registry pending.route policy =
    .ok (.selected selectedInstanceId ranked candidates reason)
  found : registry.instance? selectedInstanceId = some instance_
  placement : instance_.placement = .localHost

/-- Every authorized outcome of a routine satisfies `Q`, with the moves up to it. -/
def Authorizes (Q : List RuntimeMove → AdmittedEffect → Prop)
    (p : Routine AdmissionError AdmissionOutcome) : Prop :=
  ∀ moves, p.Sat (fun _ _ => True) Move.push moves fun moves outcome =>
    ∀ effect, outcome = .ok (.authorized effect) → Q moves effect

section

variable {pending : PendingInvocation} {state : RunState} {registry : CapabilityRegistry}
  {definition : CapabilityDefinitionBody} {instance_ : CapabilityInstanceBody}
  {selectedInstanceId : String} {evaluation : BoundPolicyEvaluation}
  {Q : List RuntimeMove → AdmittedEffect → Prop}

theorem Authorizes.bind {α : Type} {p : Routine AdmissionError α}
    {f : α → Routine AdmissionError AdmissionOutcome}
    (h : Only (fun _ => True) p fun a => Authorizes Q (f a)) : Authorizes Q (p >>= f) := by
  show Authorizes Q (p.bind f)
  induction p with
  | ret a => exact h
  | stop fault =>
    intro moves effect hauthorized
    cases hauthorized
  | call op k ih => exact fun moves => ⟨trivial, fun answer => ih answer (h.2 answer) _⟩

theorem commitIssued_authorizes :
    Authorizes (fun moves effect => effect.selectedInstanceId = selectedInstanceId ∧
        ∃ issued event, CommittedBy D H pending state definition instance_ effect moves issued event)
      (InvocationAdmission.commitIssued D P J H pending state definition instance_
        selectedInstanceId evaluation) := by
  intro moves
  simp only [InvocationAdmission.commitIssued, Routine.createMetadata, Routine.append, sat_bind,
    sat_mapErr, sat_lift, sat_pure]
  refine ⟨trivial, fun answer => ?_⟩
  cases answer with
  | error error =>
    intro effect hauthorized
    cases hauthorized
  | ok metadata =>
    simp only [Routine.answered, Sat, Outcome.mapErr]
    split
    · split
      · rename_i issued hissued
        refine ⟨trivial, fun answer => ?_⟩
        cases answer with
        | error error =>
          intro effect hauthorized
          cases hauthorized
        | ok commit =>
          rintro effect h
          obtain rfl := AdmissionOutcome.authorized.inj (Except.ok.inj h)
          exact ⟨rfl, issued, _, issueOnceEffect_eq_ok hissued, rfl, rfl, ⟨_, rfl⟩, rfl, rfl⟩
      · simp
    · simp

theorem currentDefinition_eq_ok {plannedInput : Option PlannedInvocationMaterialRecord}
    (h : InvocationAdmission.currentDefinition D pending state plannedInput registry =
      .ok definition) :
    registry.definition pending.route.capability = some definition ∧
      definitionContractDigest D definition = .ok pending.definitionDigest := by
  simp only [InvocationAdmission.currentDefinition, Outcome.bind_eq_ok, Outcome.exists_unit,
    Outcome.okOr_eq_ok, Outcome.failIf_eq_ok, ne_eq, Decidable.not_not, Outcome.pure_eq_ok] at h
  obtain ⟨-, _, hdefinition, digest, hdigest, rfl, rfl⟩ := h
  exact ⟨hdefinition, hdigest⟩

theorem selectedInstance_eq_ok
    (h : InvocationAdmission.selectedInstance registry selectedInstanceId = .ok instance_) :
    registry.instance? selectedInstanceId = some instance_ ∧
      instance_.placement = .localHost := by
  simp only [InvocationAdmission.selectedInstance, Outcome.bind_eq_ok, Outcome.exists_unit,
    Outcome.okOr_eq_ok, Outcome.failIf_eq_ok, ne_eq, Decidable.not_not, Outcome.pure_eq_ok] at h
  obtain ⟨_, hfound, hplacement, rfl⟩ := h
  exact ⟨hfound, hplacement⟩

/-- **What an authorized outcome comes from.** -/
theorem authorizeAndCommit_authorizes {inputs : PolicyInputs} {lease : RunLease} :
    Authorizes (fun moves effect => ∃ state definition instance_ issued event,
        Chosen D pending registry effect.selectedInstanceId definition instance_ ∧
        CommittedBy D H pending state definition instance_ effect moves issued event)
      (InvocationAdmission.authorizeAndCommit D P J H pending inputs registry lease) := by
  unfold InvocationAdmission.authorizeAndCommit
  refine .bind (only_lift.mpr fun _ _ => .bind (loadLeased_only trivial fun state => ?_))
  refine .bind (only_lift.mpr fun _ _ => .bind (only_lift.mpr fun _ _ => ?_))
  refine .bind (verifyPlannedInputSidecar_only trivial fun plannedInput => ?_)
  refine .bind (only_lift.mpr fun definition hdefinition => ?_)
  refine .bind (only_lift.mpr fun evaluation _ => .bind (only_lift.mpr fun outcome houtcome => ?_))
  cases outcome with
  | selected selectedInstanceId ranked candidates reason =>
    refine .bind (only_lift.mpr fun instance_ hinstance => ?_)
    intro moves
    refine (commitIssued_authorizes moves).mono fun moves outcome hend effect heffect => ?_
    obtain ⟨hselected, issued, event, hcommitted⟩ := hend effect heffect
    obtain ⟨hregistered, hdigest⟩ := currentDefinition_eq_ok hdefinition
    obtain ⟨hfound, hplacement⟩ := selectedInstance_eq_ok hinstance
    exact ⟨state, definition, instance_, issued, event, ⟨hregistered, hdigest,
      ⟨_, ranked, candidates, reason, hselected ▸ Outcome.mapErr_eq_ok.mp houtcome⟩,
      hselected ▸ hfound, hplacement⟩, hcommitted⟩
  | interactionRequired | blocked =>
    intro moves effect hauthorized
    cases hauthorized

end

/-! ## The gates -/

section

variable {pending : PendingInvocation} {state : RunState} {registry : CapabilityRegistry}
  {definition : CapabilityDefinitionBody} {instance_ : CapabilityInstanceBody}
  {selectedInstanceId : String} {issued : IssuedEffect} {intent : EffectIntent}

theorem mapEffectClass_eq_ok {class_ : ProtocolEffectClass} {effectClass : EffectClass}
    (h : mapEffectClass class_ = .ok effectClass) :
    class_ = .readOnly ∧ effectClass = .readOnly ∨
      class_ = .idempotent ∧ effectClass = .idempotent ∨
      class_ = .nonIdempotent ∧ effectClass = .nonIdempotent := by
  cases class_ <;> simp_all [mapEffectClass]

theorem toolOutputProfileMatches_build {identity decisionId decisionDigest : String}
    {planId : Option String} {effectClass : EffectClass}
    (hclass : mapEffectClass definition.spec.effect.class_ = .ok effectClass) :
    toolOutputProfileMatches (buildReceiptProvenance H identity planId decisionId decisionDigest
      instance_ definition) effectClass = true := by
  have hprofiles : coreReceiptProfileV1 ≠ coreReceiptProfileV2 := by decide
  obtain ⟨hprotocol, rfl⟩ | ⟨hprotocol, rfl⟩ | ⟨hprotocol, rfl⟩ := mapEffectClass_eq_ok hclass <;>
    cases hdurable : definition.spec.execution.durableToolOutput <;>
    simp [toolOutputProfileMatches, receiptProfileMatches, buildReceiptProvenance,
      CapabilityDefinitionBody.keepsToolOutput, hprotocol, hdurable, hprofiles]

/-- **The provenance gate passes.** -/
theorem Issues.verifyReceiptProvenance
    (h : Issues D H pending state definition instance_ selectedInstanceId issued)
    (hplacement : instance_.placement = .localHost) :
    DirectExecutor.verifyReceiptProvenance D H issued.intent = .ok () := by
  obtain ⟨identity, decisionId, decisionDigest, digest, hprovenance, hdigest, hbound⟩ := h.provenance
  have hprofile : toolOutputProfileMatches (buildReceiptProvenance H identity pending.planId decisionId
      decisionDigest instance_ definition) issued.intent.effectClass = true :=
    toolOutputProfileMatches_build h.effectClass
  have hreceipt : receiptProfileMatches (buildReceiptProvenance H identity pending.planId decisionId
      decisionDigest instance_ definition).profileVersion issued.intent.effectClass = true := by
    rw [toolOutputProfileMatches, Bool.and_eq_true] at hprofile
    exact hprofile.1
  simp only [DirectExecutor.verifyReceiptProvenance, DirectExecutor.requireProvenance, hprovenance,
    Outcome.okOr, Outcome.bind_eq_ok, Outcome.exists_unit, Except.ok.injEq, exists_eq_left',
    Outcome.failIf_eq_ok, Outcome.mapErr_eq_ok, hbound, hdigest, hprofile, hreceipt]
  simp [buildReceiptProvenance, hplacement, receiptPlacement]

theorem receiptVerificationPlanMatches_build {identity decisionId decisionDigest : String}
    {planId : Option String} :
    receiptVerificationPlanMatches definition (buildReceiptProvenance H identity planId decisionId
      decisionDigest instance_ definition) = true := by
  have hstrategy : ∀ strategy : VerificationStrategy,
      protocolVerificationStrategy (receiptVerificationStrategy strategy) = strategy := by
    intro strategy
    cases strategy <;> rfl
  simp only [receiptVerificationPlanMatches, buildReceiptProvenance, List.length_map, beq_self_eq_true,
    Bool.true_and, List.all_eq_true, Bool.and_eq_true, beq_iff_eq, decide_eq_true_eq]
  intro rules hrules
  rw [← List.map_prod_left_eq_zip] at hrules
  obtain ⟨rule, -, rfl⟩ := List.mem_map.mp hrules
  exact ⟨rfl, (hstrategy _).symm⟩

theorem Chosen.capability (hregistry : registry.WellFormed)
    (h : Chosen D pending registry selectedInstanceId definition instance_) :
    instance_.definition = pending.route.capability := by
  obtain ⟨policy, ranked, candidates, reason, hroute⟩ := h.routed
  obtain ⟨_, found, _, hfound, hid, _⟩ := route_selected hroute
  rw [CapabilityRegistry.instancesFor, List.mem_filter, decide_eq_true_eq] at hfound
  obtain ⟨hmem, hkey⟩ := hfound
  -- the registry keeps an instance under its own id only
  have hstored : registry.instance? selectedInstanceId = some found := by
    obtain ⟨id, hfound⟩ := BTreeMap.mem_vals_iff.mp hmem
    rwa [← hid, hregistry.instanceId id found hfound]
  obtain rfl := Option.some.inj (h.found.symm.trans hstored)
  exact CapabilityRef.key_injective hkey

/-- **The instance gate passes.** -/
theorem Issues.verifyCurrentInstance (hregistry : registry.WellFormed)
    (h : Issues D H pending state definition instance_ selectedInstanceId issued)
    (hchosen : Chosen D pending registry selectedInstanceId definition instance_) :
    DirectExecutor.verifyCurrentInstance D registry issued.intent = .ok instance_ := by
  obtain ⟨identity, decisionId, decisionDigest, digest, hprovenance, -, -⟩ := h.provenance
  simp only [DirectExecutor.verifyCurrentInstance, DirectExecutor.requireDefinition,
    DirectExecutor.requireProvenance, Outcome.bind_eq_ok, Outcome.exists_unit, Outcome.okOr_eq_ok,
    Outcome.mapErr_eq_ok, Outcome.failIf_eq_ok, ne_eq, Decidable.not_not, Outcome.pure_eq_ok,
    h.capability, h.instanceId, h.definitionDigest, hchosen.registered, hprovenance, hchosen.found]
  exact ⟨definition, rfl, _, hchosen.digest, rfl, _, rfl, by
    rw [receiptVerificationPlanMatches_build]
    decide, instance_, rfl, hchosen.capability hregistry, _, h.bindingDigest, rfl, rfl⟩

theorem verifyDynamicExecutionGate_eq_ok (hplacement : instance_.placement = .localHost) :
    DirectExecutor.verifyDynamicExecutionGate instance_ = .ok () ↔
      instance_.health.status = .available ∧ instance_.auth.state = .notRequired ∧
        instance_.auth.authRef = none := by
  simp [DirectExecutor.verifyDynamicExecutionGate, hplacement]

theorem Issues.buildToolOutputValidator
    (h : Issues D H pending state definition instance_ selectedInstanceId issued)
    (hchosen : Chosen D pending registry selectedInstanceId definition instance_) :
    (∃ validator, DirectExecutor.buildToolOutputValidator J registry issued.intent =
        .ok validator) ↔
      (definition.keepsToolOutput = true → (J.build definition.spec.outputSchema).isSome = true) := by
  obtain ⟨identity, decisionId, decisionDigest, digest, hprovenance, -, -⟩ := h.provenance
  have hprofile : issued.intent.toolOutputProfile = some toolOutputProfileV1 ↔
      definition.keepsToolOutput = true := by
    rw [EffectIntent.toolOutputProfile, hprovenance]
    cases hkeeps : definition.keepsToolOutput <;> simp [buildReceiptProvenance, hkeeps]
  rw [DirectExecutor.buildToolOutputValidator]
  by_cases hkeeps : definition.keepsToolOutput = true
  · rw [if_pos (hprofile.mpr hkeeps)]
    have hdefinition : DirectExecutor.requireDefinition registry issued.intent = .ok definition := by
      rw [DirectExecutor.requireDefinition, h.capability, hchosen.registered]
      rfl
    rw [hdefinition]
    cases hbuilt : J.build definition.spec.outputSchema with
    | none => simp [hbuilt, Outcome.okOr, Outcome.fail, bind, Except.bind, hkeeps]
    | some validator => simp [hbuilt, Outcome.okOr, bind, Except.bind]
  · rw [if_neg (hprofile.not.mpr hkeeps)]
    simp [hkeeps]

end

/-! ## At any later time -/

section

variable {store later final : MemoryRunStore} {history : RuntimeHistory} {record : EventRecord}
  {state : RunState} {stepId : String} {intent : EffectIntent}

/-- **An intent that stands in the journal is the intent of its step.** -/
theorem intentOf_of_record (hsound : store.Sound D P) {i : ℕ} (hi : At store.records i record)
    (hcommits : record.Commits stepId intent)
    (hlater : Trace (runtimeSystem D P) store history later) :
    ∃ state, later.projection = some state ∧ state.intentOf stepId = some intent ∧
      record.event.runId = state.runId := by
  have hext := extends_of_trace hsound hlater
  have hat := hext.at hi
  cases hprojection : later.projection with
  | none =>
    rw [hext.sound.records_empty hprojection] at hat
    simp [At] at hat
  | some state =>
    have hreplay := hext.sound.replay hprojection
    exact ⟨state, rfl, (intentOf_of_commits hreplay hat hcommits).1,
      replay_runId hreplay (List.mem_of_getElem? hat)⟩

/-- **The material gate passes**, unless the store cannot be read. -/
theorem verifyMaterial_outcome {material : InvocationMaterial}
    {outcome : Outcome DirectExecutorError Unit} (hsound : later.Sound D P)
    (hverify : material.record.verifyFor D state.runId stepId intent = .ok ())
    (hdigest : invocationMaterialDigest D material.normalizedArguments =
      .ok material.record.materialDigest)
    (hstored : later.materials[intent.effectId]? = some material.record)
    (hexec : Exec (runtimeSystem D P)
      (DirectExecutor.verifyMaterial D state stepId intent material) later history final
      (some outcome)) :
    outcome = .ok () ∨ ∃ error, outcome = .error (.err (.store error)) := by
  rw [DirectExecutor.verifyMaterial, hverify] at hexec
  rcases hexec.call_inv with ⟨-, hcut⟩ | ⟨answer, before, after, m, m', -, -, hbefore, hstep, hrest⟩
  · simp at hcut
  obtain ⟨rfl, hanswer⟩ := hstep
  cases answer with
  | error error =>
    refine Or.inr ⟨error, ?_⟩
    simpa using hrest.stop_inv.2
  | ok found =>
    have hfound : found = some material.record := by
      rw [hanswer found rfl]
      exact material_of_trace hsound hbefore hstored
    subst hfound
    have hrest' : Exec (runtimeSystem D P)
        (Prog.lift (Outcome.failIf (material.record ≠ material.record) .materialRecordChanged) >>=
          fun _ => Prog.lift ((invocationMaterialDigest D material.normalizedArguments).mapErr
            .materialRecord) >>= fun digest =>
          Prog.lift (Outcome.failIf (digest ≠ material.record.materialDigest)
            .materialDigestMismatch)) m' after final (some outcome) := hrest
    rw [hdigest, Outcome.failIf, if_neg (not_not.mpr rfl)] at hrest'
    have hlast : Exec (runtimeSystem D P)
        (Prog.lift (Outcome.failIf (material.record.materialDigest ≠ material.record.materialDigest)
            .materialDigestMismatch) : Routine DirectExecutorError Unit) m' after final
        (some outcome) := hrest'
    rw [Outcome.failIf, if_neg (not_not.mpr rfl)] at hlast
    refine Or.inl ?_
    simpa using hlast.ret_inv.2

end

/-- **Which gates an admitted step passes.** For every registry, host, policy inputs and store, and
every pending invocation of a first phase: when the second phase ends authorized, then at any later
time the step still has the committed intent, and with the registry as it was and with the admitted
arguments the gates of the provenance, of the material and of the instance pass, the material unless
the store cannot be read. The dynamic gate passes exactly when the instance is available and needs
no credentials, and a validator is built exactly when the definition keeps no output or its output
schema compiles. -/
theorem admitted_gates {registry : CapabilityRegistry} {pending : PendingInvocation}
    {inputs : PolicyInputs} {lease : RunLease} {store store' : MemoryRunStore}
    {history : RuntimeHistory} {effect : AdmittedEffect} (hregistry : registry.WellFormed)
    (hpending : pending.Prepared D P J) (hstore : store.Sound D P)
    (hexec : Exec (runtimeSystem D P)
      (InvocationAdmission.authorizeAndCommit D P J H pending inputs registry lease) store history
      store' (some (.ok (.authorized effect)))) :
    ∃ definition instance_ intent,
      registry.definition pending.route.capability = some definition ∧
      registry.instance? effect.selectedInstanceId = some instance_ ∧
      (∀ later history', Trace (runtimeSystem D P) store' history' later → ∃ state,
        later.projection = some state ∧
        state.intentOf pending.permissionRequest.stepId = some intent ∧
        ∀ final history'' outcome, Exec (runtimeSystem D P)
          (DirectExecutor.verifyMaterial D state pending.permissionRequest.stepId intent
            ⟨effect.materialRecord, effect.normalizedArguments⟩) later history'' final
          (some outcome) → outcome = .ok () ∨ ∃ error, outcome = .error (.err (.store error))) ∧
      DirectExecutor.verifyReceiptProvenance D H intent = .ok () ∧
      DirectExecutor.verifyCurrentInstance D registry intent = .ok instance_ ∧
      (DirectExecutor.verifyDynamicExecutionGate instance_ = .ok () ↔
        instance_.health.status = .available ∧ instance_.auth.state = .notRequired ∧
          instance_.auth.authRef = none) ∧
      ((∃ validator, DirectExecutor.buildToolOutputValidator J registry intent = .ok validator) ↔
        (definition.keepsToolOutput = true →
          (J.build definition.spec.outputSchema).isSome = true)) := by
  obtain ⟨state, definition, instance_, issued, event, hchosen, hcommitted⟩ :=
    (hexec.follows (authorizeAndCommit_authorizes [])).2 _ rfl effect rfl
  have hissues := hcommitted.issues
  refine ⟨definition, instance_, issued.intent, hchosen.registered, hchosen.found, ?_,
    hissues.verifyReceiptProvenance hchosen.placement, hissues.verifyCurrentInstance hregistry hchosen,
    verifyDynamicExecutionGate_eq_ok hchosen.placement, hissues.buildToolOutputValidator hchosen⟩
  intro later history' hlater
  -- the own moves end with the append of the intent
  obtain ⟨before, hlast⟩ := hcommitted.last
  rw [List.nil_append] at hlast
  obtain ⟨earlier, rest, m, m', -, -, hm, hcall, hrest⟩ :=
    call_of_append hstore hexec.trace hlast
  have hmove := hm.move hcall
  have hafter := Trace.append_iff.mpr ⟨store', hrest, hlater⟩
  have hcommits : effect.commit.record.Commits pending.permissionRequest.stepId issued.intent := by
    show effect.commit.record.event.body = _
    rw [hmove.event]
    exact hcommitted.body
  have hat : At m'.records m.records.length effect.commit.record := by
    rw [At, hmove.records, List.getElem?_concat_length]
  obtain ⟨current, hprojection, hintent, hrunId⟩ :=
    intentOf_of_record hmove.sound hat hcommits hafter
  refine ⟨current, hprojection, hintent, fun final history'' outcome hverify => ?_⟩
  have hrun : state.runId = current.runId := by
    rw [← hrunId, hmove.event]
    exact hcommitted.runId.symm
  have heffect := InvocationMaterialRecord.verifyFor_effectId hissues.material
  refine verifyMaterial_outcome (extends_of_trace hmove.sound hafter).sound ?_ ?_ ?_ hverify
  · rw [hcommitted.record, ← hrun]
    exact hissues.material
  · rw [hcommitted.arguments, hcommitted.record, hissues.materialDigest]
    exact hpending.material
  · rw [hcommitted.record, ← heffect]
    exact material_of_trace hmove.sound hafter (withInvocationMaterial_stored hcall)

/-! ## A degraded instance -/

/-- An idempotent capability on one path. -/
def gateDefinition : CapabilityDefinitionBody where
  apiVersion := apiVersionV1alpha1
  extensions := ∅
  requiredExtensions := []
  metadata := ⟨"fs.write", "1.0.0", "Write", ∅⟩
  spec :=
    { summary := "write"
      inputSchema := .bool true
      outputSchema := .bool true
      effect := ⟨.idempotent, [⟨"filesystem.write", "/path"⟩], []⟩
      requiredCapabilities := []
      execution := ⟨[.sync], false, true, false, 1000, 1000⟩
      verification := [⟨.postcondition, true, none⟩]
      discovery := none }

def gateInstance (health : HealthStatus) : CapabilityInstanceBody where
  apiVersion := apiVersionV1alpha1
  extensions := ∅
  requiredExtensions := []
  instanceId := "instance-1"
  definition := gateDefinition.reference
  source := .builtin
  placement := .localHost
  platform := ⟨.any, .any⟩
  trust := .verified
  dataBoundary := .localHost
  health := ⟨health, "2026-01-01T00:00:00Z", none⟩
  auth := ⟨.notRequired, none⟩
  features := ⟨true, false, false, false⟩
  hints := none
  binding := ⟨"fs", none, none⟩

def gateRegistry (health : HealthStatus) : CapabilityRegistry where
  definitions := (∅ : BTreeMap DefinitionKey CapabilityDefinitionBody).insert
    gateDefinition.reference.key gateDefinition
  instances := (∅ : BTreeMap String CapabilityInstanceBody).insert "instance-1" (gateInstance health)

theorem gateRegistry_wellFormed (health : HealthStatus) : (gateRegistry health).WellFormed := by
  have hdefinition : CapabilityRegistry.new.registerSchemaValidatedDefinition gateDefinition =
      .ok { gateRegistry health with instances := ∅ } := rfl
  have hinstance : ({ gateRegistry health with instances := ∅ } :
      CapabilityRegistry).registerSchemaValidatedInstance (gateInstance health) =
        .ok (gateRegistry health) := ?_
  · exact (CapabilityRegistry.WellFormed.new.registerDefinition hdefinition).registerInstance
      hinstance
  simp only [CapabilityRegistry.registerSchemaValidatedInstance, Outcome.bind_eq_ok,
    Outcome.exists_unit, Outcome.failIf_eq_ok, Outcome.okOr_eq_ok, Outcome.pure_eq_ok]
  exact ⟨not_not.mpr rfl, Std.ExtTreeMap.not_mem_empty, gateDefinition,
    Std.ExtTreeMap.getElem?_insert_self, rfl, rfl⟩

/-- A schema library for which every value is valid. -/
def openSchemas : Schemas where
  build _ := some ⟨fun _ => []⟩
  policyDecision _ := true

/-- The policy layers allow what a request asks for. -/
def gateInputs (request : ResolvedPermissionRequest) : PolicyInputs where
  request := request
  layers :=
    let allowance : PolicyAllowance :=
      { scopes := Std.ExtTreeSet.ofList request.requestedScopes compare
        resources := Std.ExtTreeSet.ofList (request.resources.map ConcreteResource.key) compare
        criticalActions := []
        lifetimes := [.once] }
    .localHost ⟨⟨.host, "host", sampleDigest 'a'⟩, .allow allowance⟩
      ⟨⟨.userProfile, "user", sampleDigest 'a'⟩, .allow allowance⟩

def gateRequest : AdmissionRequest where
  stepId := "step-1"
  route :=
    { capability := gateDefinition.reference
      targetPlatform := ⟨.linux, .x86_64⟩
      requiredFeatures := ⟨.sync, false, true, false⟩
      allowedTrustLevels := [.verified]
      allowedDataBoundaries := [.localHost]
      trustPreference := []
      dataBoundaryPreference := []
      preferredInstanceIds := []
      pinnedInstanceId := none }
  arguments := .object [("path", .string "workspace:a/file")]

/-- A run with one planned step. -/
def gateStore : MemoryRunStore :=
  let created := createdStore flatDigests
  (sampleHost flatDigests timeoutPorts created (.append (.append created.index.head
    (sampleEvent 2 (.stepPlanned "step-1" "objective" []))))).2

theorem gateStore_sound : gateStore.Sound flatDigests flatProtocol :=
  ((createdStore_sound flatDigests).answers (memoryHost_step _ _ _)).sound

/-- The first phase on the sample. -/
def gatePrepare (health : HealthStatus) : Routine AdmissionError PendingInvocation :=
  InvocationAdmission.prepare flatDigests openSchemas ⟨"run-1"⟩ (gateRegistry health)
    (fun _ resource => .ok resource) gateRequest

/-- The second phase on the sample. -/
def gateCommit (health : HealthStatus) (pending : PendingInvocation) :
    Routine AdmissionError AdmissionOutcome :=
  InvocationAdmission.authorizeAndCommit flatDigests flatProtocol openSchemas ⟨"linux", "x86_64"⟩
    pending (gateInputs pending.permissionRequest) (gateRegistry health) ⟨"run-1"⟩

/-- What both phases leave on the sample. -/
def gateAdmitted (health : HealthStatus) :
    Option (PendingInvocation × RuntimeHistory × MemoryRunStore × AdmittedEffect) :=
  match ((gatePrepare health).run (sampleHost flatDigests timeoutPorts) noOthers gateStore).2.2 with
  | .error _ => none
  | .ok pending =>
    match (gateCommit health pending).run (sampleHost flatDigests timeoutPorts) noOthers
      gateStore with
    | (history, store, .ok (.authorized effect)) => some (pending, history, store, effect)
    | _ => none

theorem gateAdmitted_eq_some {health : HealthStatus} {pending : PendingInvocation}
    {history : RuntimeHistory} {store : MemoryRunStore} {effect : AdmittedEffect}
    (h : gateAdmitted health = some (pending, history, store, effect)) :
    pending.Prepared flatDigests flatProtocol openSchemas ∧
      Exec (runtimeSystem flatDigests flatProtocol) (gateCommit health pending) gateStore history
        store (some (.ok (.authorized effect))) := by
  rw [gateAdmitted] at h
  split at h
  · simp at h
  · rename_i found hprepare
    split at h
    · rename_i hcommit
      simp only [Option.some.injEq, Prod.mk.injEq] at h
      obtain ⟨rfl, rfl, rfl, rfl⟩ := h
      have hfirst := (gatePrepare health).exec_run (memoryHost_step timeoutPorts)
        (noOthers_accepts flatDigests) gateStore
      have hsecond := (gateCommit health found).exec_run (memoryHost_step timeoutPorts)
        (noOthers_accepts flatDigests) gateStore
      rw [show memoryHost flatDigests flatProtocol timeoutPorts =
        sampleHost flatDigests timeoutPorts from rfl] at hfirst hsecond
      rw [hprepare] at hfirst
      rw [hcommit] at hsecond
      exact ⟨.prepared hfirst, hsecond⟩
    · simp at h

/-- The committed intent of the sample passes the gate of its instance. -/
def gateIntent? (health : HealthStatus) (store : MemoryRunStore) : Option EffectIntent :=
  (store.projection.bind fun state => state.intentOf "step-1").filter fun intent =>
    decide ((DirectExecutor.verifyCurrentInstance flatDigests (gateRegistry health) intent).value? =
      some (gateInstance health))

/-- **An admitted step can be refused**: the router selects the degraded instance, the intent is
committed, and the executor does not execute it. -/
theorem admitted_step_refused : ∃ pending history store effect state intent,
    (gateRegistry .degraded).WellFormed ∧
    pending.Prepared flatDigests flatProtocol openSchemas ∧
    gateStore.Sound flatDigests flatProtocol ∧
    Exec (runtimeSystem flatDigests flatProtocol) (gateCommit .degraded pending) gateStore history
      store (some (.ok (.authorized effect))) ∧
    store.projection = some state ∧ state.intentOf "step-1" = some intent ∧
    DirectExecutor.verifyCurrentInstance flatDigests (gateRegistry .degraded) intent =
      .ok (gateInstance .degraded) ∧
    DirectExecutor.verifyDynamicExecutionGate (gateInstance .degraded) =
      .error (.err (.instanceNotAvailable .degraded)) := by
  have hrun : (gateAdmitted .degraded).any (fun result =>
      (gateIntent? .degraded result.2.2.1).isSome) = true := by decide
  obtain ⟨⟨pending, history, store, effect⟩, hadmitted, hintent⟩ := (Option.any_eq_true _ _).mp hrun
  obtain ⟨intent, hintent⟩ := Option.isSome_iff_exists.mp hintent
  obtain ⟨hfound, hinstance⟩ := Option.filter_eq_some_iff.mp hintent
  obtain ⟨state, hstate, hstep⟩ := Option.bind_eq_some_iff.mp hfound
  obtain ⟨hprepared, hexec⟩ := gateAdmitted_eq_some hadmitted
  exact ⟨pending, history, store, effect, state, intent, gateRegistry_wellFormed _, hprepared,
    gateStore_sound, hexec, hstate, hstep, Outcome.value?_eq_some.mp (of_decide_eq_true hinstance),
    rfl⟩

/-- An available instance passes. -/
theorem admitted_gates_sample : ∃ definition instance_ intent,
    (gateRegistry .available).definition gateDefinition.reference = some definition ∧
    DirectExecutor.verifyReceiptProvenance flatDigests ⟨"linux", "x86_64"⟩ intent = .ok () ∧
    DirectExecutor.verifyCurrentInstance flatDigests (gateRegistry .available) intent =
      .ok instance_ ∧
    (DirectExecutor.verifyDynamicExecutionGate instance_ = .ok () ↔
      instance_.health.status = .available ∧ instance_.auth.state = .notRequired ∧
        instance_.auth.authRef = none) := by
  have hrun : (gateAdmitted .available).any (fun result =>
      decide (result.1.route = gateRequest.route)) = true := by decide
  obtain ⟨⟨pending, history, store, effect⟩, hadmitted, hroute⟩ := (Option.any_eq_true _ _).mp hrun
  have hroute : pending.route = gateRequest.route := of_decide_eq_true hroute
  obtain ⟨hprepared, hexec⟩ := gateAdmitted_eq_some hadmitted
  obtain ⟨definition, instance_, intent, hdefinition, -, -, hprovenance, hinstance, hgate, -⟩ :=
    admitted_gates (gateRegistry_wellFormed .available) hprepared gateStore_sound hexec
  rw [hroute] at hdefinition
  exact ⟨definition, instance_, intent, hdefinition, hprovenance, hinstance, hgate⟩

end Xgeny
