import Xgeny.Admission.Admitted
import Xgeny.Driver.Driver

set_option autoImplicit false

/-!
# What the routines under the driver call

The phases of an admission and the recovery of material each use a few operations only, whatever the
answers are.

* `RuntimeOp.Reads`, `RuntimeOp.PlainReads`: loads, and the reconstruction of arguments;
* `preparePlannedAdmission_reads`, `recover_reads`: these phases only read;
* `AdmissionOp`: what the second phase calls; **`authorizeAndCommit_calls`**.
-/

namespace Xgeny

open Prog (Only only_bind only_lift only_mapErr only_pure)

/-- The operation loads from the store. -/
def RuntimeOp.PlainReads : RuntimeOp → Prop
  | .loadCurrent | .loadPlannedInvocation _ | .loadInvocationMaterial _ => True
  | _ => False

/-- The operation loads from the store or rebuilds arguments. -/
def RuntimeOp.Reads : RuntimeOp → Prop
  | .loadCurrent | .loadPlannedInvocation _ | .loadInvocationMaterial _ => True
  | .reconstruct _ _ _ => True
  | _ => False

theorem RuntimeOp.PlainReads.reads {op : RuntimeOp} (h : op.PlainReads) : op.Reads := by
  cases op <;> trivial

section

variable {D : Digests} {P : Protocol} {J : Schemas} {H : Host} {registry : CapabilityRegistry}
  {resolver : ResourceResolver} {lease : RunLease} {state : RunState} {stepId : String}

/-! ## Loading -/

theorem recoveryLoadLeased_reads {Q : RunState → Prop} (hQ : ∀ state, Q state) :
    Only RuntimeOp.PlainReads (InvocationMaterialRecovery.loadLeased lease) Q := by
  simp only [InvocationMaterialRecovery.loadLeased, only_bind, only_mapErr, only_lift]
  refine ⟨trivial, fun answer => ?_⟩
  cases answer with
  | error error => trivial
  | ok current => exact fun state _ _ _ => hQ state

theorem loadPlannedInvocation_reads
    {Q : Option PlannedInvocationMaterialRecord → Prop} (hQ : ∀ found, Q found) :
    Only RuntimeOp.PlainReads (Routine.loadPlannedInvocation stepId) Q := by
  refine ⟨trivial, fun answer => ?_⟩
  cases answer with
  | error error => trivial
  | ok found => exact hQ found

theorem loadInvocationMaterial_reads {effectId : String}
    {Q : Option InvocationMaterialRecord → Prop} (hQ : ∀ found, Q found) :
    Only RuntimeOp.PlainReads (Routine.loadInvocationMaterial effectId) Q := by
  refine ⟨trivial, fun answer => ?_⟩
  cases answer with
  | error error => trivial
  | ok found => exact hQ found

theorem reconstruct_reads {providers : MaterialProviderRegistry}
    {reference : ReconstructableMaterialReference} {Q : Json → Prop} (hQ : ∀ value, Q value) :
    Only RuntimeOp.Reads (InvocationMaterialRecovery.reconstruct providers reference) Q := by
  simp only [InvocationMaterialRecovery.reconstruct, only_bind, only_mapErr, only_lift]
  refine fun _ _ => ⟨trivial, fun answer => ?_⟩
  cases answer with
  | error error => trivial
  | ok value => exact hQ value

/-! ## The first phase and the recovery -/

/-- Where a pending invocation comes from. -/
structure PreparedFrom (D : Digests) (J : Schemas) (registry : CapabilityRegistry)
    (resolver : ResourceResolver) (request : AdmissionRequest) (state : RunState)
    (pending : PendingInvocation) : Prop where
  prepared : ∃ input,
    InvocationAdmission.preparePending D J state input registry resolver request = .ok pending
  planned : verifyPlannedRouteBinding state request.stepId request.route = .ok ()

theorem prepare_reads {request : AdmissionRequest} :
    Only RuntimeOp.PlainReads (InvocationAdmission.prepare D J lease registry resolver request)
      fun pending => ∃ state, PreparedFrom D J registry resolver request state pending := by
  simp only [InvocationAdmission.prepare, only_bind, only_lift]
  refine loadLeased_only trivial fun state => ?_
  intro _ _ _ _ _ hroute _ _
  exact verifyPlannedInputSidecar_only trivial fun input pending hpending => ⟨state, ⟨input, hpending⟩, hroute⟩

theorem preparePlannedAdmission_reads {providers : MaterialProviderRegistry}
    {request : PlannedAdmissionRequest} :
    Only RuntimeOp.Reads (InvocationMaterialRecovery.preparePlannedAdmission D J lease registry
      resolver providers request) fun pending => ∃ state arguments,
        PreparedFrom D J registry resolver ⟨request.stepId, request.route, arguments⟩ state
          pending := by
  simp only [InvocationMaterialRecovery.preparePlannedAdmission, only_bind, only_lift, only_mapErr]
  refine (recoveryLoadLeased_reads fun _ => ?_).weaken fun _ => RuntimeOp.PlainReads.reads
  intro binding _
  refine (loadPlannedInvocation_reads fun found => ?_).weaken fun _ => RuntimeOp.PlainReads.reads
  intro input _ _ _
  refine reconstruct_reads fun arguments => ?_
  refine (prepare_reads.weaken fun _ => RuntimeOp.PlainReads.reads).mono fun pending hpending => ?_
  obtain ⟨state, hprepared⟩ := hpending
  exact ⟨state, arguments, hprepared⟩

theorem recover_reads {providers : MaterialProviderRegistry} :
    Only RuntimeOp.Reads
      (InvocationMaterialRecovery.recover D J lease registry resolver providers stepId)
      fun _ => True := by
  simp only [InvocationMaterialRecovery.recover, only_bind, only_lift, only_mapErr]
  refine (recoveryLoadLeased_reads fun state => ?_).weaken fun _ => RuntimeOp.PlainReads.reads
  intro intent _
  refine (loadInvocationMaterial_reads fun found => ?_).weaken fun _ => RuntimeOp.PlainReads.reads
  intro record _ _ _ reference _ definition _
  exact reconstruct_reads fun _ _ _ => trivial

/-! ## The second phase -/

/-- What the second phase calls for a pending invocation: it loads, asks for metadata, and appends the
intent that it has issued. -/
def AdmissionOp (D : Digests) (H : Host) (registry : CapabilityRegistry)
    (pending : PendingInvocation) : RuntimeOp → Prop
  | .loadCurrent | .loadPlannedInvocation _ | .loadInvocationMaterial _ | .createMetadata _ => True
  | .append call => ∃ state definition instance_ selectedInstanceId issued,
      Issues D H pending state definition instance_ selectedInstanceId issued ∧
      Chosen D pending registry selectedInstanceId definition instance_ ∧
      call.expected = .fromState state ∧
      call.event.body = .effectIntentCommitted pending.permissionRequest.stepId issued.intent
  | _ => False

theorem RuntimeOp.PlainReads.admission {pending : PendingInvocation} {op : RuntimeOp}
    (h : op.PlainReads) : AdmissionOp D H registry pending op := by
  cases op with
  | loadCurrent | loadPlannedInvocation | loadInvocationMaterial => trivial
  | _ => exact h.elim

theorem commitIssued_calls {pending : PendingInvocation} {definition : CapabilityDefinitionBody}
    {instance_ : CapabilityInstanceBody} {selectedInstanceId : String}
    {evaluation : BoundPolicyEvaluation}
    (hchosen : Chosen D pending registry selectedInstanceId definition instance_) :
    Only (AdmissionOp D H registry pending)
      (InvocationAdmission.commitIssued D P J H pending state definition instance_
        selectedInstanceId evaluation) fun _ => True := by
  simp only [InvocationAdmission.commitIssued, Routine.createMetadata, Routine.append, only_bind,
    only_mapErr, only_lift, only_pure]
  refine ⟨trivial, fun answer => ?_⟩
  cases answer with
  | error error => trivial
  | ok metadata =>
    intro _ _ issued hissued
    refine ⟨⟨state, definition, instance_, selectedInstanceId, issued,
      issueOnceEffect_eq_ok hissued, hchosen, rfl, rfl⟩, fun answer => ?_⟩
    cases answer <;> trivial

/-- **What the second phase calls.** -/
theorem authorizeAndCommit_calls {pending : PendingInvocation} {policyInputs : PolicyInputs} :
    Only (AdmissionOp D H registry pending)
      (InvocationAdmission.authorizeAndCommit D P J H pending policyInputs registry lease)
      fun _ => True := by
  simp only [InvocationAdmission.authorizeAndCommit, only_bind, only_lift]
  intro _ _
  refine (loadLeased_only trivial fun state => ?_).weaken fun _ => RuntimeOp.PlainReads.admission
  intro _ _ _ _
  refine (verifyPlannedInputSidecar_only trivial fun input => ?_).weaken
    fun _ => RuntimeOp.PlainReads.admission
  intro definition hdefinition evaluation _ outcome hroute
  cases outcome with
  | selected selectedInstanceId ranked candidates reason =>
    simp only [only_bind, only_lift]
    intro instance_ hinstance
    obtain ⟨hregistered, hdigest⟩ := currentDefinition_eq_ok hdefinition
    obtain ⟨hfound, hplacement⟩ := selectedInstance_eq_ok hinstance
    exact commitIssued_calls ⟨hregistered, hdigest,
      ⟨_, ranked, candidates, reason, Outcome.mapErr_eq_ok.mp hroute⟩, hfound, hplacement⟩
  | interactionRequired | blocked => trivial

end

end Xgeny
