import Xgeny.AgentLoop.ContextBuilds
import Xgeny.AgentLoop.PlannerCalls
import Xgeny.Provider.RequestSize

set_option autoImplicit false

/-!
# Sending a planning context

A context is built within 512 KiB of canonical JSON, and a request is sent within 1 MiB. A context is
not checked against the second bound before its call is reserved, and the planner checks it before it
sends.

* `PlanningContext.Built`: what every context that is built has;
* `reserveCall_names`: the names of a reserved call;
* **`planning_contexts_sent`**: which contexts are sent;
* `PlanningConstraint.new`, `AgentLoop.withPlanningConstraints`: the constraints of a loop;
* **`planning_context_not_sent`**: a context with constraints of backslashes is not.
-/

namespace Xgeny

open OpenAiPlannerConfig

/-! ## Contexts that are built -/

theorem packContext_keeps {α : Type} {f : PlanningContextPayload → α}
    (hsteps : ∀ payload steps omitted,
      f { payload with steps := steps, omittedSteps := omitted } = f payload)
    (hcapabilities : ∀ payload capabilities omitted,
      f { payload with capabilities := capabilities, omittedCapabilities := omitted } = f payload)
    {maximumSize : ℕ} {stepSummaries : List (PlanningStepSummary × ℕ)}
    {summaries : List (PlanningCapabilitySummary × ℕ)} (start : PlanningContextPayload × ℕ) :
    f (packContext maximumSize stepSummaries summaries start).1 = f start.1 := by
  have hstep : ∀ acc item, f (packStep maximumSize stepSummaries.length acc item).1 = f acc.1 := by
    intro acc item
    unfold packStep
    split
    · rfl
    · dsimp only
      split
      · exact hsteps _ _ _
      · rfl
  have hcapability : ∀ acc item,
      f (packCapability maximumSize summaries.length acc item).1 = f acc.1 := by
    intro acc item
    unfold packCapability
    split
    · rfl
    · dsimp only
      split
      · exact hcapabilities _ _ _
      · rfl
  unfold packContext
  generalize List.range _ = indices
  induction indices generalizing start with
  | nil => rfl
  | cons index rest ih => rw [List.foldl_cons, ih, hcapability, hstep]

/-- What every context has that is built with some constraints. -/
structure PlanningContext.Built (context : PlanningContext)
    (planningConstraints : List PlanningConstraint) : Prop where
  profileVersion : context.payload.profileVersion = planningContextProfileV3
  planningConstraints : context.payload.planningConstraints = planningConstraints
  bounded : context.canonicalSizeBytes.toNat ≤ maxPlanningContextBytes.toNat

theorem buildContextOrdered_built {D : Digests} {state : RunState}
    {completedToolOutputs : BTreeMap String ToolOutputRecord}
    {planningStepOrder completedToolOutputOrder : List String} {frontier : WorkFrontier}
    {registry : CapabilityRegistry} {planningConstraints : List PlanningConstraint}
    {budget : AgentLoopBudget} {context : PlanningContext}
    (h : buildContextOrdered D state completedToolOutputs planningStepOrder completedToolOutputOrder
      frontier registry planningConstraints budget = .ok context) :
    context.Built planningConstraints := by
  simp only [buildContextOrdered, Outcome.bind_eq_ok, Outcome.exists_unit, Outcome.failIf_eq_ok,
    Outcome.pure_eq_ok, not_lt, gt_iff_lt] at h
  obtain ⟨-, -, -, _, -, _, -, _, -, ⟨_, _⟩, -, _, -, ⟨_, _⟩, -, _, -, -, exactSize, -, hfits, digest,
    -, rfl⟩ := h
  refine ⟨packContext_keeps (fun _ _ _ => rfl) (fun _ _ _ => rfl) _,
    packContext_keeps (fun _ _ _ => rfl) (fun _ _ _ => rfl) _, ?_⟩
  have hsize : exactSize ≤ maxPlanningContextBytes.toNat := Nat.le_trans hfits (Nat.min_le_right _ _)
  show exactSize.toUInt64.toNat ≤ _
  rw [Nat.toUInt64_eq, UInt64.toNat_ofNat']
  exact Nat.le_trans (Nat.mod_le _ _) hsize

theorem reserveCall_names {D : Digests} {inputs : TickInputs} {state : RunState}
    {modelCalls : ModelCallLifecycleState} {context : PlanningContext}
    {reservation : ModelCallReservation}
    (h : reserveCall D inputs state modelCalls context = .ok reservation) :
    ∃ call request : Sha256Hex, reservation.callId = "model-call-" ++ call.val ∧
      reservation.requestDigest = sha256Digest request := by
  simp only [reserveCall, Outcome.bind_eq_ok, Outcome.exists_unit, Outcome.mapErr_eq_ok,
    ModelCallReservation.new, Outcome.pure_eq_ok] at h
  obtain ⟨-, requestDigest, hrequest, _, -, _, -, -, -, -, -, -, -, -, callId, hcall, rfl⟩ := h
  obtain ⟨request, -, rfl⟩ := Digests.digest_eq_ok.mp hrequest
  obtain ⟨call, -, rfl⟩ := Digests.identifier_eq_ok.mp hcall
  exact ⟨call.sha256, request.sha256, rfl, rfl⟩

/-! ## Which contexts are sent -/

/-- How a planning context is printed. -/
def printContext (lib : ProviderCrates) (context : PlanningContext) : Option String :=
  some (context.text lib.spell)

section

variable {lib : ProviderCrates} {baseUrl plannerId model tokenizer : String}
  {calls : List BuilderCall} {config : OpenAiPlannerConfig lib}

theorem build_model (h : OpenAiPlannerConfig.build lib baseUrl plannerId model tokenizer calls =
    .ok config) : byteLen model ≤ maxModelIdBytes := by
  simp only [OpenAiPlannerConfig.build, OpenAiPlannerConfig.new, validateProfileText,
    Outcome.bind_eq_ok, Outcome.exists_unit, Outcome.failIf_eq_ok, not_or, not_lt] at h
  obtain ⟨-, ⟨-, -, -, hmodel, -⟩, -⟩ := h
  exact hmodel.2.1

theorem Described.artifactSchema_none {options : ProfileOptions}
    (hd : Described model tokenizer options config) (h : config.artifactValidator = none) :
    options.artifactSchema = none := by
  have hattached := hd.artifactValidator
  cases hschema : options.artifactSchema with
  | none => rfl
  | some schema =>
    rw [hschema] at hattached
    obtain ⟨-, validator, -, hvalidator⟩ := hattached
    rw [h] at hvalidator
    cases hvalidator

theorem prepare_eq_requestTooLarge {print : PlanningContext → Option String}
    {request : PlannerCallRequest} {text : String}
    (hprofile : request.context.payload.profileVersion = planningContextProfileV3)
    (hprint : print request.context = some text) :
    config.prepare print request = .error (.err .requestTooLarge) ↔
      request.context.payload.planningConstraints.isEmpty ≠ config.planningConstraintsRequired ∧
        config.maxRequestBytes <
          byteLen (config.requestBody request.callId request.requestDigest text) := by
  unfold OpenAiPlannerConfig.prepare
  rw [hprint, hprofile]
  simp only [Outcome.bind_eq_error, Outcome.failIf_eq_error, Outcome.failIf_eq_ok,
    Outcome.okOr_eq_error, Outcome.okOr_eq_ok, Outcome.exists_unit]
  simp [pure, Except.pure]

/-- **Which contexts are sent.** The request of a reserved call has the bytes around the context, the
bytes of the context, and one more for each quote and each backslash of its text. The planner refuses
it for its size exactly when these are more than 1 MiB, and never when the text has at most 480 Ki
such characters. -/
theorem planning_contexts_sent {D : Digests} {state : RunState}
    {completedToolOutputs : BTreeMap String ToolOutputRecord}
    {planningStepOrder completedToolOutputOrder : List String} {frontier : WorkFrontier}
    {registry : CapabilityRegistry} {planningConstraints : List PlanningConstraint}
    {budget : AgentLoopBudget} {context : PlanningContext} {inputs : TickInputs}
    {modelCalls : ModelCallLifecycleState} {reservation : ModelCallReservation}
    (hspell : ∀ n : UInt64, lib.spell (.posInt n) = toString n.toNat)
    (hvisible : ∀ n : JsonNumber, Visible (lib.spell n))
    (hbuilt : buildContextOrdered D state completedToolOutputs planningStepOrder
      completedToolOutputOrder frontier registry planningConstraints budget = .ok context)
    (hprinted : byteLen (context.text lib.spell) = context.canonicalSizeBytes.toNat)
    (hconfig : OpenAiPlannerConfig.build lib baseUrl plannerId model tokenizer calls = .ok config)
    (hartifact : config.artifactValidator = none)
    (hreserved : reserveCall D inputs state modelCalls context = .ok reservation) :
    (config.prepare (printContext lib)
        ⟨reservation.callId, reservation.requestDigest, context⟩ = .error (.err .requestTooLarge) ↔
      planningConstraints.isEmpty ≠ config.planningConstraintsRequired ∧
        1048576 < config.requestOverhead reservation.callId reservation.requestDigest +
          context.canonicalSizeBytes.toNat + escapedChars (context.text lib.spell)) ∧
    (byteLen (config.requestBody reservation.callId reservation.requestDigest
        (context.text lib.spell)) ≤ config.maxRequestBytes ↔
      config.requestOverhead reservation.callId reservation.requestDigest +
        context.canonicalSizeBytes.toNat + escapedChars (context.text lib.spell) ≤ 1048576) ∧
    config.requestOverhead reservation.callId reservation.requestDigest ≤ 32768 ∧
    (escapedChars (context.text lib.spell) ≤ 491520 →
      byteLen (config.requestBody reservation.callId reservation.requestDigest
        (context.text lib.spell)) ≤ config.maxRequestBytes) := by
  have hcontext := buildContextOrdered_built hbuilt
  have hd := build_described hconfig
  obtain ⟨call, request, hcallId, hrequestDigest⟩ := reserveCall_names hreserved
  have hcall : byteLen reservation.callId = 75 := by
    rw [hcallId, byteLen_append, call.byteLen_val]
    rfl
  have hrequest : byteLen reservation.requestDigest = 71 := by
    rw [hrequestDigest, sha256Digest, byteLen_append, request.byteLen_val]
    rfl
  have hoverhead := hd.requestOverhead_le
    (hd.byteLen_proposalSchema (hd.artifactSchema_none hartifact) hspell) hspell
    (build_model hconfig) hcall hrequest
  have hsize := config.byteLen_requestBody reservation.callId reservation.requestDigest
    (context.text lib.spell)
  have hgrowth : escapeGrowth (context.text lib.spell) = escapedChars (context.text lib.spell) :=
    (visible_write hvisible context.payload.serialized).escapeGrowth_eq
  have hmax : config.maxRequestBytes = 1048576 := hd.maxRequestBytes
  have hbounded : context.canonicalSizeBytes.toNat ≤ 524288 := hcontext.bounded
  have hprepare := @prepare_eq_requestTooLarge lib config (printContext lib)
    ⟨reservation.callId, reservation.requestDigest, context⟩ _ hcontext.profileVersion rfl
  rw [hcontext.planningConstraints, hmax, hsize, hprinted, hgrowth] at hprepare
  rw [hmax, hsize, hprinted, hgrowth]
  exact ⟨hprepare, Iff.rfl, hoverhead, fun hescaped => by omega⟩

end

/-! ## The constraints of a loop -/

/-- `MAX_PLANNING_CONSTRAINTS`. -/
def maxPlanningConstraints : ℕ := 16

/-- `MAX_PLANNING_CONSTRAINT_ID_BYTES`. -/
def maxPlanningConstraintIdBytes : ℕ := 128

/-- `MAX_PLANNING_CONSTRAINT_DESCRIPTION_BYTES`. -/
def maxPlanningConstraintDescriptionBytes : ℕ := 16 * 1024

inductive PlanningConstraintError where
  | invalidIdentifier
  | invalidDescription
  | tooMany
  | duplicateIdentifier

/-- `PlanningConstraint::new`. -/
def PlanningConstraint.new (constraintId description : String) :
    Outcome PlanningConstraintError PlanningConstraint := do
  Outcome.failIf (constraintId = "" ∨ maxPlanningConstraintIdBytes < byteLen constraintId ∨
    ¬ (constraintId.toList.all fun c => c.isAlphanum || c == '.' || c == '_' || c == '-') = true)
    .invalidIdentifier
  Outcome.failIf (validBoundedText description maxPlanningConstraintDescriptionBytes = false)
    .invalidDescription
  pure ⟨constraintId, description⟩

/-- `with_planning_constraints`. -/
def AgentLoop.withPlanningConstraints (self : AgentLoop)
    (planningConstraints : List PlanningConstraint) : Outcome PlanningConstraintError AgentLoop := do
  Outcome.failIf (maxPlanningConstraints < planningConstraints.length) .tooMany
  Outcome.failIf (¬ (planningConstraints.map PlanningConstraint.constraintId).Nodup)
    .duplicateIdentifier
  pure { self with planningConstraints := planningConstraints }

/-! ## Constraints of backslashes -/

/-- A text of backslashes. -/
def backslashes (n : ℕ) : String := String.ofList (List.replicate n '\\')

theorem byteLen_backslashes (n : ℕ) : byteLen (backslashes n) = n := by
  rw [backslashes, byteLen_ofList, List.map_replicate, List.sum_replicate, smul_eq_mul]
  exact Nat.mul_one n

theorem escapeGrowth_backslashes (n : ℕ) : escapeGrowth (backslashes n) = n := by
  have hone : byteLen (escapeChar '\\') - '\\'.utf8Size = 1 := by decide
  rw [backslashes, escapeGrowth, String.toList_ofList, List.map_replicate, List.sum_replicate, hone,
    smul_eq_mul, Nat.mul_one]

theorem byteLen_quoted_backslashes (n : ℕ) : byteLen (quoted (backslashes n)) = 2 * n + 2 := by
  rw [byteLen_quoted_eq, byteLen_backslashes, escapeGrowth_backslashes]
  omega

theorem escapeGrowth_quoted_backslashes (n : ℕ) :
    2 * n ≤ escapeGrowth (quoted (backslashes n)) := by
  have htwo : escapeGrowth (escapeChar '\\') = 2 := by decide
  have hescaped : escapeGrowth (escapeChars (List.replicate n '\\')) = 2 * n := by
    induction n with
    | zero => rfl
    | succ n ih =>
      rw [List.replicate_succ, escapeChars, escapeGrowth_append, ih, htwo]
      omega
  rw [quoted, escapeGrowth_append, escapeGrowth_append, backslashes, String.toList_ofList, hescaped]
  omega

/-- Sixteen constraints with descriptions of backslashes. -/
def slashConstraint (n i : ℕ) : PlanningConstraint := ⟨"constraint-" ++ toString i, backslashes n⟩

def slashConstraints (n : ℕ) : List PlanningConstraint := (List.range 16).map (slashConstraint n)

section

variable {spell : JsonNumber → String}

theorem byteLen_slashConstraint (n i : ℕ) :
    byteLen ((slashConstraint n i).toJson.write spell) =
      byteLen ((slashConstraint 0 i).toJson.write spell) + 2 * n := by
  unfold PlanningConstraint.toJson slashConstraint
  rw [Json.byteLen_object (List.cons_ne_nil _ _), Json.byteLen_object (List.cons_ne_nil _ _)]
  simp only [List.map_cons, List.map_nil, List.sum_cons, List.sum_nil, List.length_cons,
    List.length_nil, Json.write, byteLen_quoted_backslashes]
  omega

theorem byteLen_slashConstraints (n : ℕ) :
    byteLen ((Json.array ((slashConstraints n).map PlanningConstraint.toJson)).write spell) =
      byteLen ((Json.array ((slashConstraints 0).map PlanningConstraint.toJson)).write spell) +
        32 * n := by
  have hrange : ∀ count : ℕ,
      byteLen ((Json.array (((List.range count).map (slashConstraint n)).map
        PlanningConstraint.toJson)).write spell) =
        byteLen ((Json.array (((List.range count).map (slashConstraint 0)).map
          PlanningConstraint.toJson)).write spell) + 2 * count * n := by
    intro count
    induction count with
    | zero => simp
    | succ count ih =>
      have hlast : ∀ m, (List.range (count + 1)).map (slashConstraint m) =
          (List.range count).map (slashConstraint m) ++ [slashConstraint m count] := by
        intro m
        rw [List.range_succ, List.map_append, List.map_singleton]
      rw [hlast, hlast, byteLen_array_snoc, byteLen_array_snoc, ih, byteLen_slashConstraint n]
      simp only [separatorSize, List.map_eq_nil_iff]
      ring
  exact hrange 16

theorem escapeGrowth_slashConstraints (n : ℕ) {payload : PlanningContextPayload}
    (h : payload.planningConstraints = slashConstraints n) :
    32 * n ≤ escapeGrowth (payload.serialized.write spell) := by
  have hdescription : ∀ i, 2 * n ≤ escapeGrowth ((slashConstraint n i).toJson.write spell) := by
    intro i
    have hmember := @escapeGrowth_object spell
      [("constraintId", .string (slashConstraint n i).constraintId),
        ("description", .string (backslashes n))] ("description", .string (backslashes n)) (by simp)
    exact Nat.le_trans (escapeGrowth_quoted_backslashes n) hmember
  have harray : 32 * n ≤
      escapeGrowth ((Json.array ((slashConstraints n).map PlanningConstraint.toJson)).write spell) := by
    refine Nat.le_trans ?_ (escapeGrowth_array _)
    have hsum := List.card_nsmul_le_sum
      (((slashConstraints n).map PlanningConstraint.toJson).map fun value =>
        escapeGrowth (value.write spell)) (2 * n) ?_
    · simp only [slashConstraints, List.length_map, List.length_range, smul_eq_mul] at hsum ⊢
      omega
    · intro growth hgrowth
      obtain ⟨value, hvalue, rfl⟩ := List.mem_map.mp hgrowth
      obtain ⟨constraint, hconstraint, rfl⟩ := List.mem_map.mp hvalue
      unfold slashConstraints at hconstraint
      obtain ⟨i, -, rfl⟩ := List.mem_map.mp hconstraint
      exact hdescription i
  refine Nat.le_trans harray (@escapeGrowth_object spell _ ("planningConstraints", _) ?_)
  have hsome : payload.constraintMembers = [("planningConstraints",
      .array ((slashConstraints n).map PlanningConstraint.toJson))] := by
    rw [PlanningContextPayload.constraintMembers, h, if_neg (by simp [slashConstraints])]
  rw [hsome]
  simp

end

theorem slashConstraints_valid {n : ℕ} (hpos : 0 < n)
    (hn : n ≤ maxPlanningConstraintDescriptionBytes) :
    (∀ constraint ∈ slashConstraints n,
        PlanningConstraint.new constraint.constraintId constraint.description = .ok constraint) ∧
      sampleLoop.withPlanningConstraints (slashConstraints n) =
        .ok { sampleLoop with planningConstraints := slashConstraints n } := by
  have hdescription : validBoundedText (backslashes n) maxPlanningConstraintDescriptionBytes =
      true := by
    have hnonempty : backslashes n ≠ "" := by
      intro hempty
      have hlength := byteLen_backslashes n
      rw [hempty] at hlength
      exact absurd hlength.symm (Nat.ne_of_gt hpos)
    have hvisible : (backslashes n).toList.any isControl = false := by
      rw [backslashes, String.toList_ofList, List.any_eq_false]
      intro c hc
      rw [(List.mem_replicate.mp hc).2]
      decide
    simp [validBoundedText, hnonempty, hvisible, byteLen_backslashes, hn]
  have hids : ∀ i ∈ List.range 16, ¬ ("constraint-" ++ toString i = "" ∨
      maxPlanningConstraintIdBytes < byteLen ("constraint-" ++ toString i) ∨
      ¬ (("constraint-" ++ toString i).toList.all fun c =>
        c.isAlphanum || c == '.' || c == '_' || c == '-') = true) := by decide +kernel
  have hnodup : ((List.range 16).map fun i => "constraint-" ++ toString i).Nodup := by
    decide +kernel
  constructor
  · intro constraint hconstraint
    unfold slashConstraints at hconstraint
    obtain ⟨i, hi, rfl⟩ := List.mem_map.mp hconstraint
    show PlanningConstraint.new ("constraint-" ++ toString i) (backslashes n) = .ok ⟨_, _⟩
    simp only [PlanningConstraint.new, hdescription, Outcome.bind_eq_ok, Outcome.exists_unit,
      Outcome.failIf_eq_ok, Outcome.pure_eq_ok, Bool.true_eq_false, not_false_eq_true, and_true]
    exact hids i hi
  · have hlength : ¬ maxPlanningConstraints < (slashConstraints n).length := by
      rw [slashConstraints, List.length_map, List.length_range]
      decide
    have hdistinct : ((slashConstraints n).map PlanningConstraint.constraintId).Nodup := by
      rw [slashConstraints, List.map_map]
      exact hnodup
    simp only [AgentLoop.withPlanningConstraints, hlength, hdistinct, Outcome.bind_eq_ok,
      Outcome.exists_unit, Outcome.failIf_eq_ok, Outcome.pure_eq_ok, not_true_eq_false,
      not_false_eq_true, true_and]

/-- A run without steps. -/
def slashState : RunState :=
  { planSample with
    journalHeadDigest := sampleDigest 'a'
    agentLoop := some ⟨⟨3, 8, 8, 524288⟩, 0, some ⟨⟨4⟩, 0, 0, 0, none⟩, none⟩ }

def slashDigests : Digests := flatDigests.withContexts sampleSpell

theorem slashDigests_writes : WritesPlanning slashDigests sampleSpell :=
  Digests.withContexts_writes _ fun _ => rfl

/-- The payload of a run with such constraints. -/
def slashPayload (n : ℕ) : PlanningContextPayload :=
  mandatoryPayload slashDigests slashState [] planSampleFrontier .new (slashConstraints n)

theorem byteLen_slashPayload (n : ℕ) :
    byteLen ((slashPayload n).toJson.write sampleSpell) = 1271 + 32 * n := by
  have hempty : byteLen ((slashPayload 0).toJson.write sampleSpell) = 1271 := by decide +kernel
  have hconstraints := @byteLen_slashConstraints sampleSpell n
  have hsome : ∀ m, (slashPayload m).constraintMembers = [("planningConstraints",
      .array ((slashConstraints m).map PlanningConstraint.toJson))] := by
    intro m
    rw [PlanningContextPayload.constraintMembers, if_neg (by simp [slashPayload, mandatoryPayload,
      slashConstraints])]
    rfl
  have hother : byteLen ((slashPayload n).toJson.write sampleSpell) =
      byteLen ((slashPayload 0).toJson.write sampleSpell) + 32 * n := by
    unfold PlanningContextPayload.toJson
    rw [Json.byteLen_object (by simp), Json.byteLen_object (by simp), hsome, hsome]
    simp only [List.map_append, List.map_cons, List.map_nil, List.sum_append, List.sum_cons,
      List.sum_nil, List.length_append, List.length_cons, List.length_nil, hconstraints,
      slashPayload, mandatoryPayload]
    omega
  rw [hother, hempty]

theorem slashConstraints_within {n : ℕ} (hn : n ≤ maxPlanningConstraintDescriptionBytes) :
    WithinInputLimits slashDigests slashState [] .new (slashConstraints n) := by
  have hdefinitions : BTreeMap.vals CapabilityRegistry.new.definitions = [] := by decide
  have hsteps : BTreeMap.vals slashState.steps = [] := by decide
  have hempty : ∀ i ∈ List.range 16,
      byteLen ((slashConstraint 0 i).toJson.write sampleSpell) ≤ 128 := by decide +kernel
  refine ⟨by decide +kernel, ?_, ?_, ?_⟩
  · rw [hdefinitions]
    intro definition hdefinition
    cases hdefinition
  · rw [hsteps]
    intro step hstep
    cases hstep
  · have hsum := List.sum_le_card_nsmul ((slashConstraints n).map fun item =>
      documentSize slashDigests (.planningConstraint item)) (2 * 16384 + 128) ?_
    · rw [hdefinitions, hsteps]
      rw [List.length_map, slashConstraints, List.length_map, List.length_range] at hsum
      simp only [List.map_nil, List.sum_nil, Nat.add_zero]
      exact Nat.le_trans hsum (by decide)
    · intro size hsize
      obtain ⟨constraint, hconstraint, rfl⟩ := List.mem_map.mp hsize
      unfold slashConstraints at hconstraint
      obtain ⟨i, hi, rfl⟩ := List.mem_map.mp hconstraint
      have hdocument : documentSize slashDigests (.planningConstraint (slashConstraint n i)) =
          byteLen ((slashConstraint n i).toJson.write sampleSpell) := rfl
      have hlimit : n ≤ 16384 := hn
      have hitem := hempty i hi
      rw [hdocument, byteLen_slashConstraint]
      omega

/-- **Their context is built**, and its call is reserved. -/
theorem slash_context {n : ℕ} (hn : 1271 + 32 * n ≤ 524288) :
    ∃ context reservation,
      buildContextOrdered slashDigests slashState ∅ [] [] planSampleFrontier .new (slashConstraints n)
        ⟨3, 8, 8, 524288⟩ = .ok context ∧
      context.payload.planningConstraints = slashConstraints n ∧
      byteLen (context.text sampleSpell) = context.canonicalSizeBytes.toNat ∧
      context.canonicalSizeBytes.toNat = 1271 + 32 * n ∧
      reserveCall slashDigests sampleTickInputs slashState ⟨⟨4⟩, 0, 0, 0, none⟩ context =
        .ok reservation := by
  have hdescription : n ≤ maxPlanningConstraintDescriptionBytes := by
    have hlimit : maxPlanningConstraintDescriptionBytes = 16384 := rfl
    omega
  have horder : ([] : List String).Perm slashState.steps.keys := by
    have hkeys : slashState.steps.keys = [] := by decide
    rw [hkeys]
  obtain ⟨-, hbuilds⟩ := @buildContextOrdered_within slashDigests sampleSpell slashState .new []
    slashDigests_writes ∅ [] [] planSampleFrontier (slashConstraints n) ⟨3, 8, 8, 524288⟩
    (slashConstraints_within hdescription) horder (by decide)
  obtain ⟨context, hbuilt, hpacked⟩ := hbuilds (Nat.le_trans (byteLen_slashPayload n).le hn)
  have hsteps : context.payload.steps = [] := List.sublist_nil.mp hpacked.steps
  have hcatalog : catalogSummaries slashDigests .new = [] := by
    rw [← List.length_eq_zero_iff, catalogSummaries_length]
    decide +kernel
  have hcapabilities : context.payload.capabilities = [] := by
    have hsublist := hpacked.capabilities
    rw [hcatalog] at hsublist
    exact List.sublist_nil.mp hsublist
  have hpayload : context.payload = slashPayload n := by
    have hkept := hpacked.payload
    rw [hsteps, hcapabilities, hcatalog] at hkept
    rw [hkept]
    have hzero : slashState.steps.size = 0 ∧ CapabilityRegistry.new.definitions.size = 0 := by
      decide +kernel
    unfold slashPayload mandatoryPayload PlanningContextPayload.withItems
    rw [hzero.1, hzero.2]
    rfl
  have hsize := hpacked.size
  rw [hpayload, byteLen_slashPayload] at hsize
  obtain ⟨-, canonical, hcanonical, hdigest⟩ := buildContextOrdered_payload hbuilt
  obtain rfl : ⟨64, _⟩ = canonical := Except.ok.inj hcanonical
  have hreserved : (reserveCall slashDigests sampleTickInputs slashState ⟨⟨4⟩, 0, 0, 0, none⟩
      { planSampleContext with contextDigest := sampleDigest 'a' }).value?.isSome = true := by
    decide +kernel
  obtain ⟨reservation, hreservation⟩ := Outcome.exists_ok_of_isSome hreserved
  refine ⟨context, reservation, hbuilt, ?_, ?_, hsize, ?_⟩
  · rw [hpayload]
    rfl
  · rw [PlanningContext.text, PlanningContextPayload.byteLen_serialized, hpacked.size]
  · have hcontext : context.contextDigest = sampleDigest 'a' := by
      rw [← hdigest]
      decide +kernel
    unfold reserveCall at hreservation ⊢
    rw [hcontext]
    exact hreservation

theorem visible_sampleSpell : ∀ n : JsonNumber, Visible (sampleSpell n)
  | .posInt n => visible_toString n.toNat
  | .negInt (.ofNat n) => visible_toString n
  | .negInt (.negSucc n) => Visible.append (by decide : Visible "-") (visible_toString (n + 1))
  | .float _ => (by decide : Visible "0.5")

theorem constrained_config : ∃ config,
    OpenAiPlannerConfig.build sampleCrates "https://models.example/v1" "planner" "m" "t"
      [.planningConstraintsRequired] = .ok config := by
  obtain ⟨first, hfirst⟩ := sample_new sample_endpoints.1
  simp only [OpenAiPlannerConfig.build, hfirst, Outcome.bind_eq_ok, Outcome.foldl,
    BuilderCall.apply, OpenAiPlannerConfig.withPlanningConstraintsRequired, sample_refresh]
  exact ⟨_, _, rfl, _, rfl, rfl⟩

/-- Sixteen constraints of one backslash each are sent. -/
theorem planning_contexts_sent_sample : ∃ context config reservation,
    buildContextOrdered slashDigests slashState ∅ [] [] planSampleFrontier .new (slashConstraints 1)
        ⟨3, 8, 8, 524288⟩ = .ok context ∧
      OpenAiPlannerConfig.build sampleCrates "https://models.example/v1" "planner" "m" "t"
        [.planningConstraintsRequired] = .ok config ∧
      reserveCall slashDigests sampleTickInputs slashState ⟨⟨4⟩, 0, 0, 0, none⟩ context =
        .ok reservation ∧
      byteLen (config.requestBody reservation.callId reservation.requestDigest
        (context.text sampleSpell)) ≤ config.maxRequestBytes := by
  obtain ⟨context, reservation, hbuilt, -, hprinted, hsize, hreserved⟩ := @slash_context 1 (by decide)
  obtain ⟨config, hconfig⟩ := constrained_config
  have hartifact : config.artifactValidator = none := (build_described hconfig).artifactValidator
  obtain ⟨-, -, -, hsent⟩ := @planning_contexts_sent sampleCrates _ _ _ _ _ config _ _ _ _ _ _ _ _ _
    context _ _ _ (fun _ => rfl) visible_sampleSpell hbuilt hprinted hconfig hartifact hreserved
  have hescaped := escapedChars_le (context.text sampleSpell)
  rw [hprinted, hsize] at hescaped
  exact ⟨context, config, reservation, hbuilt, hconfig, hreserved, hsent (Nat.le_trans hescaped (by decide))⟩

/-- **Sixteen constraints of 16344 backslashes are not sent.** The loop accepts them, their context is
built and its call is reserved, and then the planner refuses the request as too large. -/
theorem planning_context_not_sent : ∃ context config reservation,
    (∀ constraint ∈ slashConstraints 16344,
      PlanningConstraint.new constraint.constraintId constraint.description = .ok constraint) ∧
    sampleLoop.withPlanningConstraints (slashConstraints 16344) =
      .ok { sampleLoop with planningConstraints := slashConstraints 16344 } ∧
    buildContextOrdered slashDigests slashState ∅ [] [] planSampleFrontier .new
      (slashConstraints 16344) ⟨3, 8, 8, 524288⟩ = .ok context ∧
    byteLen (context.text sampleSpell) = context.canonicalSizeBytes.toNat ∧
    OpenAiPlannerConfig.build sampleCrates "https://models.example/v1" "planner" "m" "t"
      [.planningConstraintsRequired] = .ok config ∧ config.artifactValidator = none ∧
    reserveCall slashDigests sampleTickInputs slashState ⟨⟨4⟩, 0, 0, 0, none⟩ context =
      .ok reservation ∧
    config.maxRequestBytes < byteLen (config.requestBody reservation.callId
      reservation.requestDigest (context.text sampleSpell)) ∧
    config.prepare (printContext sampleCrates)
      ⟨reservation.callId, reservation.requestDigest, context⟩ =
        .error (.err .requestTooLarge) := by
  obtain ⟨hvalid, haccepted⟩ := @slashConstraints_valid 16344 (by decide) (by decide)
  obtain ⟨context, reservation, hbuilt, hconstraints, hprinted, hsize, hreserved⟩ :=
    @slash_context 16344 (by decide)
  obtain ⟨config, hconfig⟩ := constrained_config
  have hd := build_described hconfig
  have hartifact : config.artifactValidator = none := hd.artifactValidator
  have hmax : config.maxRequestBytes = 1048576 := hd.maxRequestBytes
  have hrequired : config.planningConstraintsRequired = true := hd.planningConstraintsRequired
  -- the prompt of the system alone is longer than what the constraints leave free in the context
  have hprompt : 2048 ≤ byteLen config.systemPrompt := by
    have hconstrained : 2048 ≤ byteLen constrainedSystemPrompt := by decide +kernel
    have hformat : config.responseFormat = .jsonSchema := hd.responseFormat
    rw [OpenAiPlannerConfig.systemPrompt, hrequired, OpenAiPlannerConfig.promptWithSchema, hformat]
    exact hconstrained
  have hoverhead := config.systemPrompt_le reservation.callId reservation.requestDigest
  have hgrowth := @escapeGrowth_slashConstraints sampleSpell 16344 _ hconstraints
  have hbody := config.byteLen_requestBody reservation.callId reservation.requestDigest
    (context.text sampleSpell)
  have hlarge : config.maxRequestBytes < byteLen (config.requestBody reservation.callId
      reservation.requestDigest (context.text sampleSpell)) := by
    rw [hbody, hmax, hprinted, hsize]
    have hcontext : 32 * 16344 ≤ escapeGrowth (context.text sampleSpell) := hgrowth
    omega
  refine ⟨context, config, reservation, hvalid, haccepted, hbuilt, hprinted, hconfig, hartifact,
    hreserved, hlarge, ?_⟩
  refine (prepare_eq_requestTooLarge (buildContextOrdered_built hbuilt).profileVersion rfl).mpr
    ⟨?_, hlarge⟩
  dsimp only
  rw [hconstraints, hrequired]
  simp [slashConstraints]

end Xgeny
