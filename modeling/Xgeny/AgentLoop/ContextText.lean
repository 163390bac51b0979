import Xgeny.AgentLoop.Presentation

set_option autoImplicit false

/-!
# The size of a planning context

The builder of a context never measures it while it packs: it adds the size of each item and a comma
to the size of the context without items, and measures the result once, at the end. The counts of the
omitted items only shrink on the way, so that the sum is never too small.

* `PlanningStepSummary.toJson`, `PlanningCapabilitySummary.toJson`, `PlanningContextPayload.toJson`:
  the documents that are measured, with their members in canonical order;
* `WritesPlanning`: what the canonical encoder does with them;
* `Packs`: what packing keeps true of the payload and of the conservative size;
* **`packContext_packs`**: the exact size of a packed context is at most the conservative one.
-/

namespace Xgeny

/-! ## The documents -/

/-- `#[serde(rename_all = "snake_case")]` of `StepStatus`. -/
def StepStatus.wireName : StepStatus → String
  | .planned => "planned"
  | .intentCommitted => "intent_committed"
  | .executing => "executing"
  | .effectUnknown => "effect_unknown"
  | .reconciling => "reconciling"
  | .validating => "validating"
  | .completed => "completed"
  | .failed => "failed"
  | .manualRequired => "manual_required"

def ProtocolEffectClass.wireName : ProtocolEffectClass → String
  | .readOnly => "read_only"
  | .idempotent => "idempotent"
  | .compensatable => "compensatable"
  | .nonIdempotent => "non_idempotent"
  | .unknown => "unknown"

def CriticalAction.wireName : CriticalAction → String
  | .irreversibleDelete => "irreversible_delete"
  | .credentialExport => "credential_export"
  | .paymentOrPurchase => "payment_or_purchase"
  | .externalPublishOrMessage => "external_publish_or_message"
  | .productionDeploy => "production_deploy"
  | .privilegeEscalation => "privilege_escalation"
  | .persistentStartup => "persistent_startup"

def ExecutionStyle.wireName : ExecutionStyle → String
  | .sync => "sync"
  | .task => "task"

/-- An unsigned integer of a document. -/
def Json.unsigned (n : ℕ) : Json := .number (.posInt (UInt64.ofNat n))

def PlanningConstraint.toJson (self : PlanningConstraint) : Json :=
  .object [("constraintId", .string self.constraintId), ("description", .string self.description)]

def PlanningToolOutput.toJson (self : PlanningToolOutput) : Json :=
  .object
    [("canonicalSizeBytes", .number (.posInt self.canonicalSizeBytes)),
      ("capability", self.capability.toJson), ("output", self.output),
      ("outputDigest", .string self.outputDigest), ("outputId", .string self.outputId),
      ("receiptDigest", .string self.receiptDigest), ("stepId", .string self.stepId)]

def PlanningStepSummary.toJson (self : PlanningStepSummary) : Json :=
  .object
    [("attempts", .unsigned self.attempts.toNat),
      ("capability", self.capability.elim .null CapabilityRef.toJson),
      ("dependencyReleased", .bool self.dependencyReleased),
      ("dependsOn", .array (self.dependsOn.map .string)), ("objective", .string self.objective),
      ("status", .string self.status.wireName), ("stepId", .string self.stepId)]

def PlanningResourceSelector.toJson (self : PlanningResourceSelector) : Json :=
  .object [("argumentPointer", .string self.argumentPointer), ("scope", .string self.scope)]

def PlanningCapabilitySummary.toJson (self : PlanningCapabilitySummary) : Json :=
  .object
    [("capability", self.capability.toJson),
      ("criticalActions", .array (self.criticalActions.map fun action => .string action.wireName)),
      ("defaultTimeoutMs", .number (.posInt self.defaultTimeoutMs)),
      ("definitionDigest", .string self.definitionDigest),
      ("effectClass", .string self.effectClass.wireName),
      ("executionStyles", .array (self.executionStyles.map fun style => .string style.wireName)),
      ("idempotencyKeySupported", .bool self.idempotencyKeySupported),
      ("inputSchema", self.inputSchema), ("maxTimeoutMs", .number (.posInt self.maxTimeoutMs)),
      ("outputSchema", self.outputSchema),
      ("resourceSelectors",
        .array (self.resourceSelectors.map PlanningResourceSelector.toJson)),
      ("summary", .string self.summary)]

/-- The constraints are left out when there are none. -/
def PlanningContextPayload.constraintMembers (self : PlanningContextPayload) :
    List (String × Json) :=
  if self.planningConstraints = [] then []
  else [("planningConstraints", .array (self.planningConstraints.map PlanningConstraint.toJson))]

def PlanningContextPayload.toJson (self : PlanningContextPayload) : Json :=
  .object
    ([("authority", .string self.authority),
      ("authorityEpoch", .number (.posInt self.authorityEpoch)),
      ("capabilities", .array (self.capabilities.map PlanningCapabilitySummary.toJson)),
      ("catalogDigest", .string self.catalogDigest), ("goal", .string self.goal),
      ("journalHeadDigest", .string self.journalHeadDigest),
      ("journalSequence", .number (.posInt self.journalSequence)),
      ("omittedCapabilities", .unsigned self.omittedCapabilities),
      ("omittedSteps", .unsigned self.omittedSteps)] ++ self.constraintMembers ++
      [("profileVersion", .string self.profileVersion), ("runId", .string self.runId),
      ("steps", .array (self.steps.map PlanningStepSummary.toJson)),
      ("toolOutputs", .array (self.toolOutputs.map PlanningToolOutput.toJson)),
      ("totalSteps", .unsigned self.totalSteps),
      ("verifiedCompletedSteps", .unsigned self.verifiedCompletedSteps)])

/-- The encoder writes a document as the text of a value. -/
def Writes (D : Digests) (spell : JsonNumber → String) (input : DigestInput) (value : Json) : Prop :=
  ∃ canonical, D.canonicalize input = .ok canonical ∧
    canonical.size = byteLen (value.write spell)

/-- The encoder accepts a document. -/
def Serializes (D : Digests) (input : DigestInput) : Prop :=
  ∃ canonical, D.canonicalize input = .ok canonical

/-- What the canonical encoder does with the documents of a planning context: it accepts all of them,
it spells an unsigned integer in decimal, and it writes a summary or a payload member by member. -/
structure WritesPlanning (D : Digests) (spell : JsonNumber → String) : Prop where
  unsigned : ∀ n : UInt64, spell (.posInt n) = toString n.toNat
  step : ∀ summary, Writes D spell (.planningStepSummary summary) summary.toJson
  capability : ∀ summary, Writes D spell (.planningCapabilitySummary summary) summary.toJson
  payload : ∀ payload, Writes D spell (.planningContextPayload payload) payload.toJson
  constraint : ∀ constraint, Serializes D (.planningConstraint constraint)
  output : ∀ output, Serializes D (.planningToolOutput output)
  definition : ∀ definition, Serializes D (.capabilityDefinition definition)
  contract : ∀ id version spec extensions,
    Serializes D (.definitionContract id version spec extensions)
  catalog : ∀ entries, Serializes D (.capabilityCatalog entries)
  context : ∀ payload, Serializes D (.planningContext payload)

/-! ## Counts -/

section

variable {D : Digests} {spell : JsonNumber → String}

theorem byteLen_toString (n : ℕ) : byteLen (toString n) = (Nat.toDigits 10 n).length := by
  rw [Nat.toString_eq_ofList_toDigits, byteLen_ofList]
  have hone : ∀ c ∈ Nat.toDigits 10 n, c.utf8Size = 1 := by
    intro c hc
    have hdigit := Nat.isDigit_of_mem_toDigits (by omega) (by omega) hc
    have hle : c.toNat ≤ 57 := (Char.isDigit_iff_toNat.mp hdigit).2
    have hval : c.val.toNat = c.toNat := rfl
    rw [Char.utf8Size_eq_one_iff, UInt32.le_iff_toNat_le, hval]
    exact Nat.le_trans hle (by decide)
  rw [List.map_congr_left hone, List.map_const', List.sum_replicate, smul_eq_mul, mul_one]

theorem toDigits_length_mono {m n : ℕ} (h : m ≤ n) :
    (Nat.toDigits 10 m).length ≤ (Nat.toDigits 10 n).length := by
  have hpos : 0 < (Nat.toDigits 10 n).length := Nat.length_toDigits_pos
  have hn := (Nat.length_toDigits_le_iff (by omega) hpos).mp (Nat.le_refl _)
  exact (Nat.length_toDigits_le_iff (by omega) hpos).mpr (Nat.lt_of_le_of_lt h hn)

theorem WritesPlanning.unsigned_mono (hD : WritesPlanning D spell) {m n : ℕ} (h : m ≤ n)
    (hn : n < 2 ^ 64) :
    byteLen ((Json.unsigned m).write spell) ≤ byteLen ((Json.unsigned n).write spell) := by
  rw [Json.unsigned, Json.unsigned, Json.write, Json.write, hD.unsigned, hD.unsigned,
    UInt64.toNat_ofNat_of_lt' hn, UInt64.toNat_ofNat_of_lt' (Nat.lt_of_le_of_lt h hn),
    byteLen_toString, byteLen_toString]
  exact toDigits_length_mono h

/-! ## The size of a payload -/

theorem byteLen_array_snoc {α : Type} (values : List α) (value : α) (f : α → Json) :
    byteLen ((Json.array ((values ++ [value]).map f)).write spell) =
      byteLen ((Json.array (values.map f)).write spell) + byteLen ((f value).write spell) +
        separatorSize values := by
  rw [List.map_append, List.map_singleton, Json.byteLen_array_concat]
  simp only [separatorSize, List.map_eq_nil_iff]

/-- A payload with the items that have been packed into it. -/
def PlanningContextPayload.withItems (self : PlanningContextPayload)
    (totalSteps totalCapabilities : ℕ) (steps : List PlanningStepSummary)
    (capabilities : List PlanningCapabilitySummary) : PlanningContextPayload :=
  { self with
    steps := steps
    omittedSteps := totalSteps - steps.length
    capabilities := capabilities
    omittedCapabilities := totalCapabilities - capabilities.length }

/-- The bytes of the members that packing changes. -/
def PlanningContextPayload.itemBytes (spell : JsonNumber → String) (self : PlanningContextPayload) :
    ℕ :=
  byteLen ((Json.array (self.steps.map PlanningStepSummary.toJson)).write spell) +
    byteLen ((Json.unsigned self.omittedSteps).write spell) +
    byteLen ((Json.array (self.capabilities.map PlanningCapabilitySummary.toJson)).write spell) +
    byteLen ((Json.unsigned self.omittedCapabilities).write spell)

theorem byteLen_withItems (base : PlanningContextPayload) (totalSteps totalCapabilities : ℕ)
    (steps steps' : List PlanningStepSummary)
    (capabilities capabilities' : List PlanningCapabilitySummary) :
    byteLen ((base.withItems totalSteps totalCapabilities steps' capabilities').toJson.write spell) +
        (base.withItems totalSteps totalCapabilities steps capabilities).itemBytes spell =
      byteLen ((base.withItems totalSteps totalCapabilities steps capabilities).toJson.write spell) +
        (base.withItems totalSteps totalCapabilities steps' capabilities').itemBytes spell := by
  have hconstraints : ∀ (steps : List PlanningStepSummary)
      (capabilities : List PlanningCapabilitySummary),
      (base.withItems totalSteps totalCapabilities steps capabilities).constraintMembers =
        base.constraintMembers := fun _ _ => rfl
  unfold PlanningContextPayload.toJson PlanningContextPayload.itemBytes
  rw [Json.byteLen_object (by simp), Json.byteLen_object (by simp), hconstraints, hconstraints]
  simp only [List.map_append, List.map_cons, List.map_nil, List.sum_append,
    List.sum_cons, List.sum_nil, List.length_append, List.length_cons, List.length_nil,
    PlanningContextPayload.withItems]
  omega

theorem WritesPlanning.step_size (hD : WritesPlanning D spell) (base : PlanningContextPayload)
    {totalSteps : ℕ} (totalCapabilities : ℕ) (htotal : totalSteps < 2 ^ 64)
    (steps : List PlanningStepSummary) (step : PlanningStepSummary)
    (capabilities : List PlanningCapabilitySummary) :
    byteLen ((base.withItems totalSteps totalCapabilities (steps ++ [step])
        capabilities).toJson.write spell) ≤
      byteLen ((base.withItems totalSteps totalCapabilities steps capabilities).toJson.write spell) +
        (byteLen (step.toJson.write spell) + separatorSize steps) := by
  have hsame := @byteLen_withItems spell base totalSteps totalCapabilities steps (steps ++ [step])
    capabilities capabilities
  have hsteps := @byteLen_array_snoc spell _ steps step PlanningStepSummary.toJson
  have hcount := hD.unsigned_mono (m := totalSteps - (steps ++ [step]).length)
    (n := totalSteps - steps.length) (by simp; omega) (by omega)
  simp only [PlanningContextPayload.itemBytes, PlanningContextPayload.withItems] at hsame ⊢
  omega

theorem WritesPlanning.capability_size (hD : WritesPlanning D spell) (base : PlanningContextPayload)
    (totalSteps : ℕ) {totalCapabilities : ℕ} (htotal : totalCapabilities < 2 ^ 64)
    (steps : List PlanningStepSummary) (capabilities : List PlanningCapabilitySummary)
    (capability : PlanningCapabilitySummary) :
    byteLen ((base.withItems totalSteps totalCapabilities steps
        (capabilities ++ [capability])).toJson.write spell) ≤
      byteLen ((base.withItems totalSteps totalCapabilities steps capabilities).toJson.write spell) +
        (byteLen (capability.toJson.write spell) + separatorSize capabilities) := by
  have hsame := @byteLen_withItems spell base totalSteps totalCapabilities steps steps
    capabilities (capabilities ++ [capability])
  have hcapabilities := @byteLen_array_snoc spell _ capabilities capability
    PlanningCapabilitySummary.toJson
  have hcount := hD.unsigned_mono (m := totalCapabilities - (capabilities ++ [capability]).length)
    (n := totalCapabilities - capabilities.length) (by simp; omega) (by omega)
  simp only [PlanningContextPayload.itemBytes, PlanningContextPayload.withItems] at hsame ⊢
  omega

/-! ## Packing -/

/-- Every item is listed with its size. -/
def Measured {α : Type} (spell : JsonNumber → String) (f : α → Json) (items : List (α × ℕ)) : Prop :=
  ∀ entry ∈ items, entry.2 = byteLen ((f entry.1).write spell)

/-- What packing keeps true after some of the steps and some of the capabilities: what has been packed
are some of them, in their order; the payload is not larger than the conservative size, and this is
within the limit. -/
structure Packs (spell : JsonNumber → String) (maximumSize : ℕ)
    (stepSummaries : List (PlanningStepSummary × ℕ))
    (summaries : List (PlanningCapabilitySummary × ℕ)) (base : PlanningContextPayload) (i j : ℕ)
    (acc : PlanningContextPayload × ℕ) : Prop where
  payload : acc.1 = base.withItems stepSummaries.length summaries.length acc.1.steps
    acc.1.capabilities
  steps : acc.1.steps.Sublist ((stepSummaries.take i).map Prod.fst)
  capabilities : acc.1.capabilities.Sublist ((summaries.take j).map Prod.fst)
  size : byteLen (acc.1.toJson.write spell) ≤ acc.2
  bounded : acc.2 ≤ maximumSize

variable {maximumSize i j : ℕ} {stepSummaries : List (PlanningStepSummary × ℕ)}
  {summaries : List (PlanningCapabilitySummary × ℕ)} {base : PlanningContextPayload}
  {acc : PlanningContextPayload × ℕ}

theorem Packs.packStep (hD : WritesPlanning D spell)
    (hmeasured : Measured spell PlanningStepSummary.toJson stepSummaries)
    (htotal : stepSummaries.length < 2 ^ 64)
    (h : Packs spell maximumSize stepSummaries summaries base i j acc) :
    Packs spell maximumSize stepSummaries summaries base (i + 1) j
      (packStep maximumSize stepSummaries.length acc stepSummaries[i]?) := by
  have htake : (stepSummaries.take (i + 1)).map Prod.fst =
      (stepSummaries.take i).map Prod.fst ++ (stepSummaries[i]?.toList).map Prod.fst := by
    rw [List.take_add_one, List.map_append]
  have hskip : acc.1.steps.Sublist ((stepSummaries.take (i + 1)).map Prod.fst) := by
    rw [htake]
    exact h.steps.trans (List.sublist_append_left _ _)
  cases hitem : stepSummaries[i]? with
  | none => exact ⟨h.payload, hskip, h.capabilities, h.size, h.bounded⟩
  | some entry =>
    obtain ⟨step, itemSize⟩ := entry
    have hsize : itemSize = byteLen (step.toJson.write spell) :=
      hmeasured _ (List.mem_of_getElem? hitem)
    by_cases hfits : acc.2 + (itemSize + separatorSize acc.1.steps) ≤ maximumSize
    · simp only [Xgeny.packStep, if_pos hfits]
      have hgrow := hD.step_size base summaries.length htotal acc.1.steps step acc.1.capabilities
      rw [← h.payload] at hgrow
      have hold := h.size
      have hpayload : { acc.1 with
          steps := acc.1.steps ++ [step]
          omittedSteps := stepSummaries.length - (acc.1.steps ++ [step]).length } =
            base.withItems stepSummaries.length summaries.length (acc.1.steps ++ [step])
              acc.1.capabilities := by
        conv_lhs => rw [h.payload]
        rfl
      refine ⟨hpayload, ?_, h.capabilities, ?_, hfits⟩
      · rw [htake, hitem]
        exact h.steps.append (List.Sublist.refl _)
      · dsimp only
        rw [hpayload]
        omega
    · simp only [Xgeny.packStep, if_neg hfits]
      exact ⟨h.payload, hskip, h.capabilities, h.size, h.bounded⟩

theorem Packs.packCapability (hD : WritesPlanning D spell)
    (hmeasured : Measured spell PlanningCapabilitySummary.toJson summaries)
    (htotal : summaries.length < 2 ^ 64)
    (h : Packs spell maximumSize stepSummaries summaries base i j acc) :
    Packs spell maximumSize stepSummaries summaries base i (j + 1)
      (packCapability maximumSize summaries.length acc summaries[j]?) := by
  have htake : (summaries.take (j + 1)).map Prod.fst =
      (summaries.take j).map Prod.fst ++ (summaries[j]?.toList).map Prod.fst := by
    rw [List.take_add_one, List.map_append]
  have hskip : acc.1.capabilities.Sublist ((summaries.take (j + 1)).map Prod.fst) := by
    rw [htake]
    exact h.capabilities.trans (List.sublist_append_left _ _)
  cases hitem : summaries[j]? with
  | none => exact ⟨h.payload, h.steps, hskip, h.size, h.bounded⟩
  | some entry =>
    obtain ⟨capability, itemSize⟩ := entry
    have hsize : itemSize = byteLen (capability.toJson.write spell) :=
      hmeasured _ (List.mem_of_getElem? hitem)
    by_cases hfits : acc.2 + (itemSize + separatorSize acc.1.capabilities) ≤ maximumSize
    · simp only [Xgeny.packCapability, if_pos hfits]
      have hgrow := hD.capability_size base stepSummaries.length htotal acc.1.steps
        acc.1.capabilities capability
      rw [← h.payload] at hgrow
      have hold := h.size
      have hpayload : { acc.1 with
          capabilities := acc.1.capabilities ++ [capability]
          omittedCapabilities := summaries.length - (acc.1.capabilities ++ [capability]).length } =
            base.withItems stepSummaries.length summaries.length acc.1.steps
              (acc.1.capabilities ++ [capability]) := by
        conv_lhs => rw [h.payload]
        rfl
      refine ⟨hpayload, h.steps, ?_, ?_, hfits⟩
      · rw [htake, hitem]
        exact h.capabilities.append (List.Sublist.refl _)
      · dsimp only
        rw [hpayload]
        omega
    · simp only [Xgeny.packCapability, if_neg hfits]
      exact ⟨h.payload, h.steps, hskip, h.size, h.bounded⟩

/-- **A packed context is within its limit.** When the payload without items fits, the exact size of
the packed payload is at most the conservative size, whatever was skipped. -/
theorem packContext_packs (hD : WritesPlanning D spell)
    (hsteps : Measured spell PlanningStepSummary.toJson stepSummaries)
    (hcapabilities : Measured spell PlanningCapabilitySummary.toJson summaries)
    (hstepTotal : stepSummaries.length < 2 ^ 64) (hcapabilityTotal : summaries.length < 2 ^ 64)
    (hfits : byteLen ((base.withItems stepSummaries.length summaries.length [] []).toJson.write
      spell) ≤ maximumSize) :
    Packs spell maximumSize stepSummaries summaries base stepSummaries.length summaries.length
      (packContext maximumSize stepSummaries summaries
        (base.withItems stepSummaries.length summaries.length [] [],
          byteLen ((base.withItems stepSummaries.length summaries.length [] []).toJson.write
            spell))) := by
  have hturns : ∀ n : ℕ, Packs spell maximumSize stepSummaries summaries base n n
      ((List.range n).foldl (fun acc index =>
        packCapability maximumSize summaries.length
          (packStep maximumSize stepSummaries.length acc stepSummaries[index]?) summaries[index]?)
        (base.withItems stepSummaries.length summaries.length [] [],
          byteLen ((base.withItems stepSummaries.length summaries.length [] []).toJson.write
            spell))) := by
    intro n
    induction n with
    | zero => exact ⟨rfl, List.Sublist.refl _, List.Sublist.refl _, Nat.le_refl _, hfits⟩
    | succ n ih =>
      rw [List.range_succ, List.foldl_append, List.foldl_cons, List.foldl_nil]
      exact (ih.packStep hD hsteps hstepTotal).packCapability hD hcapabilities hcapabilityTotal
  have hall := hturns (max stepSummaries.length summaries.length)
  refine ⟨hall.payload, ?_, ?_, hall.size, hall.bounded⟩
  · have hsublist := hall.steps
    rw [List.take_of_length_le (Nat.le_max_left _ _)] at hsublist
    rw [List.take_of_length_le (Nat.le_refl _)]
    exact hsublist
  · have hsublist := hall.capabilities
    rw [List.take_of_length_le (Nat.le_max_right _ _)] at hsublist
    rw [List.take_of_length_le (Nat.le_refl _)]
    exact hsublist

end

end Xgeny
