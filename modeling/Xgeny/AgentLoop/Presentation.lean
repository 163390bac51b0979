import Xgeny.AgentLoop.Structure
import Xgeny.Sidecars.Encoding

set_option autoImplicit false

/-!
# Plans do not depend on their presentation

A planner may list the steps of a proposal, and the dependencies of each step, in any order. The
bounds and the structure are checked on the proposal as it came; only then it is sorted.

* `SameStep`, `Rearranged`: two presentations of one proposal;
* `rawProposalJson`, `WritesRawProposal`: the document whose size is bounded;
* `normalizeProposal_rearranged`: sorting removes the difference;
* **`prepare_plan_rearranged`**: two presentations are prepared to the same plan.
-/

namespace Xgeny

/-- The same step, with its dependencies in another order. -/
structure SameStep (a b : ProposedPlanStep) : Prop where
  key : a.key = b.key
  objective : a.objective = b.objective
  dependsOn : a.dependsOn.Perm b.dependsOn
  capability : a.capability = b.capability
  arguments : a.arguments = b.arguments

/-- The same steps, in another order. -/
def Rearranged (steps steps' : List ProposedPlanStep) : Prop :=
  ∃ mid : List ProposedPlanStep, steps.Perm mid ∧ mid.Forall₂ SameStep steps'

section

variable {a b : ProposedPlanStep} {steps steps' : List ProposedPlanStep}

theorem SameStep.symm (h : SameStep a b) : SameStep b a :=
  ⟨h.key.symm, h.objective.symm, h.dependsOn.symm, h.capability.symm, h.arguments.symm⟩

theorem Rearranged.symm (h : Rearranged steps steps') : Rearranged steps' steps := by
  obtain ⟨mid, hperm, hsame⟩ := h
  obtain ⟨mid', hsame', hperm'⟩ := List.perm_comp_forall₂ hperm hsame
  exact ⟨mid', hperm'.symm, hsame'.flip.imp fun _ _ h => h.symm⟩

theorem Rearranged.map_perm {β : Type} {f : ProposedPlanStep → β} (h : Rearranged steps steps')
    (hf : ∀ {a b}, SameStep a b → f a = f b) : (steps.map f).Perm (steps'.map f) := by
  obtain ⟨mid, hperm, hsame⟩ := h
  have hmid : mid.map f = steps'.map f := by
    clear hperm
    induction hsame with
    | nil => rfl
    | cons hab _ ih => rw [List.map_cons, List.map_cons, hf hab, ih]
  rw [← hmid]
  exact hperm.map f

theorem Rearranged.mem (h : Rearranged steps steps') (ha : a ∈ steps) :
    ∃ b ∈ steps', SameStep a b := by
  obtain ⟨mid, hperm, hsame⟩ := h
  have hmid : a ∈ mid := hperm.mem_iff.mp ha
  clear hperm ha
  induction hsame with
  | nil => simp at hmid
  | cons hxy _ ih =>
    rcases List.mem_cons.mp hmid with rfl | hmid
    · exact ⟨_, List.mem_cons_self, hxy⟩
    · obtain ⟨b, hb, hab⟩ := ih hmid
      exact ⟨b, List.mem_cons_of_mem _ hb, hab⟩

theorem Rearranged.length_eq (h : Rearranged steps steps') : steps.length = steps'.length := by
  have hperm := h.map_perm fun _ => Eq.refl ()
  simpa using hperm.length_eq

/-! ## The structure -/

theorem Rearranged.dependsOn (h : Rearranged steps steps') {key key' : String} :
    ProposalDependsOn steps key key' → ProposalDependsOn steps' key key' := by
  rintro ⟨step, hstep, hkey, hdep⟩
  obtain ⟨step', hstep', hsame⟩ := h.mem hstep
  exact ⟨step', hstep', hsame.key.symm.trans hkey, hsame.dependsOn.mem_iff.mp hdep⟩

theorem WellStructured.rearranged {state : RunState} {frontier : WorkFrontier}
    {context : PlanningContext} (h : WellStructured state frontier context steps)
    (hr : Rearranged steps steps') : WellStructured state frontier context steps' := by
  have hkeys := hr.map_perm SameStep.key
  constructor
  · intro step hstep
    obtain ⟨step', hstep', hsame⟩ := hr.symm.mem hstep
    rw [hsame.key]
    exact h.keys step' hstep'
  · exact hkeys.nodup_iff.mp h.distinct
  · intro step hstep
    obtain ⟨step', hstep', hsame⟩ := hr.symm.mem hstep
    rw [hsame.objective]
    exact h.objectives step' hstep'
  · rw [← (hr.map_perm fun hsame => hsame.dependsOn.length_eq).sum_nat]
    exact h.edges
  · intro step hstep
    obtain ⟨step', hstep', hsame⟩ := hr.symm.mem hstep
    exact hsame.dependsOn.nodup_iff.mpr (h.once step' hstep')
  · intro step hstep dependency hdep
    obtain ⟨step', hstep', hsame⟩ := hr.symm.mem hstep
    rw [hsame.key]
    exact (allowedDependency_congr fun key => hkeys.mem_iff).mp
      (h.allowed step' hstep' dependency (hsame.dependsOn.mem_iff.mp hdep))
  · intro key hcycle
    exact h.acyclic key (Relation.TransGen.mono (fun _ _ => hr.symm.dependsOn) _ _ hcycle)

theorem validateProposalStructure_rearranged {state : RunState} {frontier : WorkFrontier}
    {context : PlanningContext} (hr : Rearranged steps steps')
    (h : validateProposalStructure state frontier context steps = .ok ()) :
    validateProposalStructure state frontier context steps' = .ok () :=
  validateProposalStructure_eq_ok.mpr ((validateProposalStructure_eq_ok.mp h).rearranged hr)

end

/-! ## The size -/

def PlanDependency.toJson : PlanDependency → Json
  | .existingStep stepId => .object [("kind", .string "existing_step"), ("stepId", .string stepId)]
  | .proposedStep key => .object [("key", .string key), ("kind", .string "proposed_step")]

def CapabilityRef.toJson (self : CapabilityRef) : Json :=
  .object [("capabilityId", .string self.capabilityId),
    ("contractVersion", .string self.contractVersion)]

/-- `RawPlanProposalSizeStep`. -/
def ProposedPlanStep.sizeJson (self : ProposedPlanStep) : Json :=
  .object
    [("arguments", self.arguments), ("capability", self.capability.toJson),
      ("dependsOn", .array (self.dependsOn.map PlanDependency.toJson)), ("key", .string self.key),
      ("objective", .string self.objective)]

/-- `RawPlanProposalSizeInput`. -/
def rawProposalJson (runId contextDigest : String) (steps : List ProposedPlanStep) : Json :=
  .object
    [("contextDigest", .string contextDigest),
      ("domain", .string "xgeny.plan-proposal.raw-size/v1"), ("runId", .string runId),
      ("steps", .array (steps.map ProposedPlanStep.sizeJson))]

/-- The canonical encoder writes every raw proposal as a JSON text. -/
def WritesRawProposal (D : Digests) (spell : JsonNumber → String) : Prop :=
  ∀ (runId contextDigest : String) (steps : List ProposedPlanStep), ∃ canonical,
    D.canonicalize (.rawPlanProposal runId contextDigest steps) = .ok canonical ∧
      canonical.size = byteLen ((rawProposalJson runId contextDigest steps).write spell)

section

variable {spell : JsonNumber → String}

theorem SameStep.byteLen_sizeJson {a b : ProposedPlanStep} (h : SameStep a b) :
    byteLen (a.sizeJson.write spell) = byteLen (b.sizeJson.write spell) := by
  have hdeps := @Json.byteLen_array_eq spell (a.dependsOn.map PlanDependency.toJson)
    (b.dependsOn.map PlanDependency.toJson) ((h.dependsOn.map _).map _)
  rw [ProposedPlanStep.sizeJson, ProposedPlanStep.sizeJson,
    Json.byteLen_object (List.cons_ne_nil _ _), Json.byteLen_object (List.cons_ne_nil _ _)]
  simp only [List.map_cons, List.map_nil, hdeps, h.key, h.objective, h.capability, h.arguments,
    List.length_cons, List.length_nil]

theorem byteLen_rawProposalJson {steps steps' : List ProposedPlanStep}
    (hr : Rearranged steps steps') (runId contextDigest : String) :
    byteLen ((rawProposalJson runId contextDigest steps).write spell) =
      byteLen ((rawProposalJson runId contextDigest steps').write spell) := by
  have hsteps := @Json.byteLen_array_eq spell (steps.map ProposedPlanStep.sizeJson)
    (steps'.map ProposedPlanStep.sizeJson) (by
      rw [List.map_map, List.map_map]
      exact hr.map_perm SameStep.byteLen_sizeJson)
  rw [rawProposalJson, rawProposalJson, Json.byteLen_object (List.cons_ne_nil _ _),
    Json.byteLen_object (List.cons_ne_nil _ _)]
  simp only [List.map_cons, List.map_nil, hsteps, List.length_cons, List.length_nil]

theorem checkProposalBounds_rearranged {D : Digests} (hD : WritesRawProposal D spell)
    {state : RunState} {context : PlanningContext} {budget : AgentLoopBudget}
    {steps steps' : List ProposedPlanStep} (hr : Rearranged steps steps')
    (h : checkProposalBounds D state context budget steps = .ok ()) :
    checkProposalBounds D state context budget steps' = .ok () := by
  have hempty : steps = [] ↔ steps' = [] := by
    rw [← List.length_eq_zero_iff, hr.length_eq, List.length_eq_zero_iff]
  obtain ⟨canonical, hcanonical, hsize⟩ := hD state.runId context.contextDigest steps
  obtain ⟨canonical', hcanonical', hsize'⟩ := hD state.runId context.contextDigest steps'
  have hsame : canonical.size = canonical'.size := by
    rw [hsize, hsize', byteLen_rawProposalJson hr]
  simp only [checkProposalBounds, Outcome.bind_eq_ok, Outcome.exists_unit, Outcome.failIf_eq_ok,
    Digests.toVec_eq_ok, hcanonical, hcanonical', Except.ok.injEq, exists_eq_left', hempty,
    hr.length_eq, hsame] at h ⊢
  exact h

end

/-! ## The sorted proposal -/

theorem PlanDependency.le_antisymm {a b : PlanDependency} (hab : a.le b) (hba : b.le a) :
    a = b := by
  cases a <;> cases b <;> simp_all [PlanDependency.le]
  · exact String.le_antisymm hab hba
  · exact String.le_antisymm hab hba

instance planDependencyTotal : Std.Total PlanDependency.le where
  total a b := by
    cases a <;> cases b <;> simp [PlanDependency.le, String.le_total]

instance planDependencyTrans : IsTrans PlanDependency PlanDependency.le where
  trans a b c := by
    cases a <;> cases b <;> cases c <;> simp [PlanDependency.le]
    · exact String.le_trans
    · exact String.le_trans

instance stepKeyTotal : Std.Total fun a b : ProposedPlanStep => a.key ≤ b.key where
  total a b := String.le_total a.key b.key

instance stepKeyTrans : IsTrans ProposedPlanStep fun a b => a.key ≤ b.key where
  trans _ _ _ := String.le_trans

/-- A step with its dependencies sorted. -/
def ProposedPlanStep.normalized (self : ProposedPlanStep) : ProposedPlanStep :=
  { self with dependsOn := self.dependsOn.insertionSort PlanDependency.le }

theorem SameStep.normalized {a b : ProposedPlanStep} (h : SameStep a b) :
    a.normalized = b.normalized := by
  have hdeps : a.dependsOn.insertionSort PlanDependency.le =
      b.dependsOn.insertionSort PlanDependency.le := by
    refine List.Perm.eq_of_pairwise (fun _ _ _ _ => PlanDependency.le_antisymm)
      (List.pairwise_insertionSort _ _) (List.pairwise_insertionSort _ _) ?_
    exact ((List.perm_insertionSort _ _).trans h.dependsOn).trans (List.perm_insertionSort _ _).symm
  rw [ProposedPlanStep.normalized, ProposedPlanStep.normalized, hdeps, h.key, h.objective,
    h.capability, h.arguments]

/-- **Sorting removes the difference**, because the keys of a checked proposal are distinct. -/
theorem normalizeProposal_rearranged {steps steps' : List ProposedPlanStep}
    (hr : Rearranged steps steps') (hdistinct : (steps.map ProposedPlanStep.key).Nodup) :
    normalizeProposal steps = normalizeProposal steps' := by
  have hsorted : ∀ l : List ProposedPlanStep,
      (normalizeProposal l).Pairwise fun a b => a.key ≤ b.key := fun l =>
    List.pairwise_map.mpr (List.pairwise_insertionSort (fun a b => a.key ≤ b.key) l)
  have hperm : ∀ l : List ProposedPlanStep,
      (normalizeProposal l).Perm (l.map ProposedPlanStep.normalized) := fun l =>
    (List.perm_insertionSort _ l).map _
  have hsame := hr.map_perm SameStep.normalized
  refine List.Perm.eq_of_pairwise ?_ (hsorted steps) (hsorted steps')
    (((hperm steps).trans hsame).trans (hperm steps').symm)
  intro a b ha hb hab hba
  have hkeys : ((steps.map ProposedPlanStep.normalized).map ProposedPlanStep.key).Nodup := by
    rwa [List.map_map]
  exact List.inj_on_of_nodup_map hkeys ((hperm steps).mem_iff.mp ha)
    (hsame.mem_iff.mpr ((hperm steps').mem_iff.mp hb)) (String.le_antisymm hab hba)

/-! ## The plan -/

section

variable {D : Digests} {J : Schemas} {spell : JsonNumber → String} {state : RunState}
  {context : PlanningContext} {registry : CapabilityRegistry} {resolver : ResourceResolver}
  {frontier : WorkFrontier} {budget : AgentLoopBudget} {steps steps' : List ProposedPlanStep}

theorem preparePlan_rearranged (hD : WritesRawProposal D spell) (hr : Rearranged steps steps')
    {plan : PreparedPlan}
    (h : preparePlan D J state context registry resolver frontier budget steps = .ok plan) :
    preparePlan D J state context registry resolver frontier budget steps' = .ok plan := by
  rw [preparePlan] at h ⊢
  rw [Outcome.bind_eq_ok] at h ⊢
  obtain ⟨_, hbounds, h⟩ := h
  refine ⟨(), checkProposalBounds_rearranged hD hr hbounds, ?_⟩
  rw [Outcome.bind_eq_ok] at h ⊢
  obtain ⟨_, hstructure, h⟩ := h
  refine ⟨(), validateProposalStructure_rearranged hr hstructure, ?_⟩
  rwa [← normalizeProposal_rearranged hr (validateProposalStructure_eq_ok.mp hstructure).distinct]

/-- **Two presentations of a proposal are prepared to the same plan**, or both are rejected. -/
theorem prepare_plan_rearranged (hD : WritesRawProposal D spell) (hr : Rearranged steps steps')
    (plan : PreparedPlan) :
    preparePlan D J state context registry resolver frontier budget steps = .ok plan ↔
      preparePlan D J state context registry resolver frontier budget steps' = .ok plan :=
  ⟨preparePlan_rearranged hD hr, preparePlan_rearranged hD hr.symm⟩

end

/-! ## One plan -/

/-- Three steps are told apart by their names. -/
def sampleNameHash (name : String) : Sha256Hex :=
  if name = "a" then sampleProposalHash
  else if name = "b" then sampleSummaryHash
  else sampleCandidateHash

/-- An encoder that writes raw proposals, and tells the actions and the ids of the steps apart. -/
def sampleCanonical : DigestInput → Canonical
  | .rawPlanProposal runId contextDigest steps =>
    ⟨byteLen ((rawProposalJson runId contextDigest steps).write spellWhole), sampleProposalHash⟩
  | .semanticAction _ _ _ arguments _ =>
    ⟨256, sampleNameHash (((arguments.pointer "/path").bind Json.asStr).getD "")⟩
  | .planStepId _ _ key => ⟨256, sampleNameHash key⟩
  | _ => ⟨256, sampleProposalHash⟩

def samplePlanDigests : Digests where
  canonicalize input := .ok (sampleCanonical input)

/-- Every schema accepts every value. -/
def sampleSchemas : Schemas where
  build _ := some ⟨fun _ => []⟩
  policyDecision _ := true

def readCapability : CapabilityRef := ⟨"filesystem.read-text", "1.0.0"⟩

def readDefinition : CapabilityDefinitionBody where
  apiVersion := apiVersionV1alpha1
  extensions := ∅
  requiredExtensions := []
  metadata := ⟨readCapability.capabilityId, readCapability.contractVersion, "Read text", ∅⟩
  spec :=
    { summary := "Read a file"
      inputSchema := .null
      outputSchema := .null
      effect :=
        { class_ := .readOnly
          resourceSelectors := [⟨"filesystem.read", "/path"⟩]
          criticalActions := [] }
      requiredCapabilities := []
      execution := ⟨[.sync], false, true, true, 1000, 1000⟩
      verification := []
      discovery := none }

def readRegistry : CapabilityRegistry where
  definitions := (∅ : BTreeMap DefinitionKey CapabilityDefinitionBody).insert readCapability.key
    readDefinition
  instances := ∅

def planSample : RunState where
  runId := "run"
  authority := "host"
  authorityEpoch := 1
  goal := "Read three files"
  revision := 1
  journalSequence := 1
  journalHeadDigest := ""
  steps := ∅
  authorizationConsumption := ∅
  agentLoop := none

def planSampleFrontier : WorkFrontier where
  runId := "run"
  revision := 1
  journalSequence := 1
  journalHeadDigest := ""
  totalSteps := 0
  actionable := []
  waiting := []
  blocked := []
  verifiedCompletedStepIds := []
  unverifiedCompletedStepIds := []
  failedStepIds := []
  manualRequiredStepIds := []

def planSampleContext : PlanningContext where
  payload :=
    { profileVersion := ""
      capabilities :=
        [{ capability := readCapability
           definitionDigest := ""
           summary := "Read a file"
           inputSchema := .null
           outputSchema := .null
           effectClass := .readOnly
           resourceSelectors := [⟨"filesystem.read", "/path"⟩]
           criticalActions := []
           executionStyles := [.sync]
           idempotencyKeySupported := true
           defaultTimeoutMs := 1000
           maxTimeoutMs := 1000 }]
      omittedCapabilities := 0
      catalogDigest := ""
      goal := "Read three files"
      planningConstraints := []
      steps := []
      omittedSteps := 0
      toolOutputs := []
      totalSteps := 0
      verifiedCompletedSteps := 0
      runId := "run"
      authority := "host"
      authorityEpoch := 1
      journalSequence := 1
      journalHeadDigest := "" }
  contextDigest := ""
  canonicalSizeBytes := 0

/-- A step that reads the file of its own name. -/
def readStep (key : String) (dependsOn : List PlanDependency) : ProposedPlanStep where
  key := key
  objective := "Read it"
  dependsOn := dependsOn
  capability := readCapability
  arguments := .object [("path", .string key)]

def preparePlanSample (steps : List ProposedPlanStep) : Outcome ProposalRejection PreparedPlan :=
  preparePlan samplePlanDigests sampleSchemas planSample planSampleContext readRegistry
    (fun _ resource => .ok resource) planSampleFrontier ⟨1, 8, 8, 4096⟩ steps

/-- A plan of three steps, presented in two orders. -/
theorem prepare_plan_rearranged_sample : ∃ plan,
    preparePlanSample [readStep "a" [], readStep "b" [],
      readStep "c" [.proposedStep "a", .proposedStep "b"]] = .ok plan ∧
    preparePlanSample [readStep "c" [.proposedStep "b", .proposedStep "a"], readStep "b" [],
      readStep "a" []] = .ok plan := by
  have hD : WritesRawProposal samplePlanDigests spellWhole := fun _ _ _ => ⟨_, rfl, rfl⟩
  have hr : Rearranged
      [readStep "a" [], readStep "b" [], readStep "c" [.proposedStep "a", .proposedStep "b"]]
      [readStep "c" [.proposedStep "b", .proposedStep "a"], readStep "b" [], readStep "a" []] := by
    refine ⟨_, (List.reverse_perm _).symm, .cons ?_ (.cons ?_ (.cons ?_ .nil))⟩
    · exact ⟨rfl, rfl, .swap _ _ _, rfl, rfl⟩
    · exact ⟨rfl, rfl, .refl _, rfl, rfl⟩
    · exact ⟨rfl, rfl, .refl _, rfl, rfl⟩
  have hprepared : (preparePlanSample [readStep "a" [], readStep "b" [],
      readStep "c" [.proposedStep "a", .proposedStep "b"]]).value?.isSome = true := by
    decide +kernel
  obtain ⟨plan, hplan⟩ := Outcome.exists_ok_of_isSome hprepared
  exact ⟨plan, hplan, (prepare_plan_rearranged hD hr plan).mp hplan⟩

end Xgeny
