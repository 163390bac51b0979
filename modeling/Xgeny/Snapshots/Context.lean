import Xgeny.Store.Attempts
import Xgeny.Snapshots.Planning
import Xgeny.AgentLoop.ContextBuilds

set_option autoImplicit false

/-!
# The context of a snapshot

A planning context is built from a planning snapshot of the store. The builder checks every output of
the snapshot once more, against its step and its receipt; on a store that appends have filled these
checks never fail.

* `Chronicled.releases`: a completed step releases what depends on it;
* `presentedOutputs`: the outputs of a snapshot, as a context presents them;
* `planningToolOutput_loaded`, `buildPlanningToolOutputs_loaded`: the builder presents all of them;
* **`planning_context_packed`**: the context of a snapshot, or the budget error.
-/

namespace Xgeny

open VerifiedRunIndex

variable {D : Digests} {P : Protocol} {data : RunData} {index : VerifiedRunIndex}
  {state : RunState}

/-! ## Receipts -/

theorem ReceiptCoherent.identified (h : ReceiptCoherent D P data index) {anchor : ReceiptEventAnchor}
    (hanchor : anchor ∈ index.receiptEvents) :
    (∃ effectId, anchor.receiptId = coreReceiptIdV1 effectId) ∧
      isSha256Digest anchor.receiptDigest = true := by
  have hfold := Outcome.foldl_induction (I := fun seen _ => ∀ entry ∈ seen,
    (∃ effectId, entry.1.receiptId = coreReceiptIdV1 effectId) ∧
      isSha256Digest entry.1.receiptDigest = true) (by simp) ?_ h.verified
  · have hzip : (index.receiptEvents.zip data.receipts).map Prod.fst = index.receiptEvents :=
      List.map_fst_zip (Nat.le_of_eq h.length)
    rw [← hzip] at hanchor
    obtain ⟨entry, hentry, rfl⟩ := List.mem_map.mp hanchor
    exact hfold entry hentry
  · rintro seen ⟨c, previous⟩ ⟨anchor, stored⟩ c' _ hseen hok
    simp only [verifyReceiptRecord, Outcome.bind_eq_ok, Outcome.exists_unit, Outcome.mapErr_eq_ok,
      Outcome.failIf_eq_ok, not_or, Decidable.not_not, ne_eq] at hok
    obtain ⟨hvalid, ⟨_, _, hfollows⟩, _, _, _, _, hbinding, _⟩ := hok
    simp only [receiptFollows, Bool.and_eq_true, beq_iff_eq] at hfollows
    have hdigest := validateExecutionReceipt_digest hvalid
    simp only [verifyReceiptDigest, Outcome.bind_eq_ok, Outcome.failIf_eq_ok, Decidable.not_not,
      ne_eq] at hdigest
    obtain ⟨actual, hactual, rfl⟩ := hdigest
    intro entry hentry
    rcases List.mem_append.mp hentry with hold | hnew
    · exact hseen entry hold
    · rw [List.mem_singleton.mp hnew]
      refine ⟨⟨_, hfollows.1.1.1.1.symm.trans (verifyReceiptIntentBinding_receiptId hbinding)⟩, ?_⟩
      rw [← hfollows.1.1.1.2]
      exact Digests.isSha256Digest_of_digest hactual

theorem Chronicled.releases (hc : Chronicled data index) (hr : ReceiptCoherent D P data index)
    (hstate : index.state = some state) {id : String} {step : StepState}
    (hstep : state.steps[id]? = some step) (hcompleted : step.status = .completed) :
    receiptReleasesDependency step = true := by
  obtain ⟨anchor, hanchor, _, _, _, hname, hdigest⟩ :=
    (hc.projected state id step hstate hstep).completed hcompleted
  obtain ⟨⟨effectId, hreceiptId⟩, hsha256⟩ := hr.identified hanchor
  have hnonempty : anchor.receiptId ≠ "" := by
    rw [hreceiptId, coreReceiptIdV1]
    intro hempty
    have hlength := congrArg String.length hempty
    simp at hlength
  simp [receiptReleasesDependency, hcompleted, hname, hdigest, hnonempty, hsha256]

/-! ## Outputs -/

/-- An output, as a context presents it. -/
def PlanningToolOutput.ofRecord (stepId receiptDigest : String) (output : ToolOutputRecord) :
    PlanningToolOutput where
  stepId := stepId
  capability := ⟨output.invocation.capabilityId, output.invocation.contractVersion⟩
  outputId := output.outputId
  outputDigest := output.outputDigest
  receiptDigest := receiptDigest
  canonicalSizeBytes := output.canonicalSizeBytes
  output := output.output

/-- The output of a step, with the receipt of the step. -/
def presentedOutput (state : RunState) (completedToolOutputs : BTreeMap String ToolOutputRecord)
    (stepId : String) : Option PlanningToolOutput := do
  let step ← state.steps[stepId]?
  let receiptDigest ← step.executionReceiptDigest
  let output ← completedToolOutputs[stepId]?
  some (.ofRecord stepId receiptDigest output)

/-- The outputs of a snapshot, in their order. -/
def presentedOutputs (snapshot : RunPlanningSnapshot) : List PlanningToolOutput :=
  snapshot.completedToolOutputOrder.filterMap
    (presentedOutput snapshot.state snapshot.completedToolOutputs)

/-- **No check of a loaded output fails**: the output agrees with its step and with the event that
recorded it, and the step has its receipt. -/
theorem planningToolOutput_loaded (hcoherent : Coherent D P data index) (ha : Anchored D data index)
    (hc : Chronicled data index) (hcounted : Counted index) (hstate : index.state = some state)
    {completedToolOutputs : BTreeMap String ToolOutputRecord} {id : String} {step : StepState}
    {intent : EffectIntent} {sequence : UInt64} {record : ToolOutputRecord}
    (hstep : state.steps[id]? = some step) (hbound : step.OutputBound)
    (hintent : step.intent = some intent)
    (hstored : data.outputs[intent.effectId]? = some ⟨sequence, record⟩)
    (hdigest : step.outputRecordDigest = some record.recordDigest)
    (hloaded : completedToolOutputs[id]? = some record) :
    ∃ output, presentedOutput state completedToolOutputs id = some output ∧
      ∀ acc : BTreeSet String × List PlanningToolOutput, id ∉ acc.1 →
        planningToolOutput D state completedToolOutputs acc id =
          .ok (acc.1.insert id, acc.2 ++ [output]) := by
  have hreleases := hc.releases hcoherent.receipt hstate hstep hbound.1
  obtain ⟨receipt, _, _, _, _, _, hreceipt⟩ :=
    (hc.projected state id step hstate hstep).completed hbound.1
  -- the event of the output, and the check that the output passed when it was recorded
  obtain ⟨found, anchor, hfound, hanchor, hrun, howner, hattempt, hevidence⟩ :=
    (hcounted state id step hstate hstep).evidence hbound.2
  obtain rfl := Option.some.inj (hintent.symm.trans hfound)
  have hpoint := hcoherent.output.point intent.effectId
  rw [hstored] at hpoint
  simp only [verifyToolOutputPoint, hanchor, verifyStoredToolOutput, Outcome.bind_eq_ok,
    Outcome.exists_unit, Outcome.okOr_eq_ok, Outcome.mapErr_eq_ok] at hpoint
  obtain ⟨_, committed, hcommitted, hverified⟩ := hpoint
  rw [(hcoherent.output.anchored _ _ hanchor).1] at hcommitted
  obtain ⟨intentAnchor, hintentAnchor, _, hsame⟩ := ha.committed state id intent hstate
    (RunState.intentOf_eq_some.mpr ⟨step, hstep, hintent⟩)
  obtain rfl := Option.some.inj (hcommitted.symm.trans hintentAnchor)
  rw [hsame, hrun, howner, hattempt] at hverified
  refine ⟨.ofRecord id receipt.receiptDigest record, ?_, fun acc hnew => ?_⟩
  · simp only [presentedOutput, hstep, hreceipt, hloaded, Option.bind_eq_bind, Option.bind_some]
  · simp only [planningToolOutput, hnew, hstep, hbound.1, hdigest, hreleases, hintent, hevidence,
      hreceipt, hloaded, hverified, Outcome.failIf, Outcome.okOr, Outcome.mapErr, bind, Except.bind,
      if_false, ne_eq, not_true_eq_false, reduceCtorEq, or_self, Bool.true_eq_false]
    rfl

theorem foldl_planningToolOutput {completedToolOutputs : BTreeMap String ToolOutputRecord}
    {order : List String} (hnodup : order.Nodup)
    (hone : ∀ id ∈ order, ∃ output, presentedOutput state completedToolOutputs id = some output ∧
      ∀ acc : BTreeSet String × List PlanningToolOutput, id ∉ acc.1 →
        planningToolOutput D state completedToolOutputs acc id =
          .ok (acc.1.insert id, acc.2 ++ [output]))
    {acc : BTreeSet String × List PlanningToolOutput} (hnew : ∀ id ∈ order, id ∉ acc.1) :
    ∃ seen : BTreeSet String,
      Outcome.foldl (planningToolOutput D state completedToolOutputs) acc order =
        .ok (seen, acc.2 ++ order.filterMap (presentedOutput state completedToolOutputs)) ∧
      seen.size = acc.1.size + order.length := by
  induction order generalizing acc with
  | nil => exact ⟨acc.1, by simp [Outcome.foldl], rfl⟩
  | cons id order ih =>
    obtain ⟨hhead, htail⟩ := List.nodup_cons.mp hnodup
    obtain ⟨output, houtput, hpresented⟩ := hone id List.mem_cons_self
    have hfree := hnew id List.mem_cons_self
    have hfresh : ∀ other ∈ order, other ∉ acc.1.insert id := by
      intro other hother hmem
      rcases BTreeSet.mem_insert_iff.mp hmem with heq | hold
      · exact hhead (heq ▸ hother)
      · exact hnew other (List.mem_cons_of_mem _ hother) hold
    obtain ⟨seen, hfold, hsize⟩ := @ih htail
      (fun other hother => hone other (List.mem_cons_of_mem _ hother))
      (acc.1.insert id, acc.2 ++ [output]) hfresh
    refine ⟨seen, ?_, ?_⟩
    · rw [Outcome.foldl, hpresented acc hfree, List.filterMap_cons, houtput]
      show Outcome.foldl _ _ order = _
      rw [hfold, List.append_assoc]
      rfl
    · have habsent : ¬ acc.1.contains id = true := mt Std.ExtTreeSet.mem_iff_contains.mpr hfree
      rw [hsize, Std.ExtTreeSet.size_insert, if_neg habsent, List.length_cons]
      omega

theorem boundSteps_length (state : RunState) :
    ((BTreeMap.vals state.steps).filter fun step =>
      step.status == .completed && step.outputRecordDigest.isSome).length =
      (boundSteps state.steps.toList).length := by
  have hsame : ∀ step : StepState, (step.status == .completed && step.outputRecordDigest.isSome) =
      decide step.OutputBound := by
    intro step
    rw [Bool.eq_iff_iff, Bool.and_eq_true, beq_iff_eq, Option.isSome_iff_ne_none,
      decide_eq_true_eq]
    rfl
  rw [boundSteps, List.length_map, BTreeMap.vals, List.filter_map, List.length_map]
  simp only [hsame]
  rfl

/-- **The builder presents every output of the snapshot.** -/
theorem buildPlanningToolOutputs_loaded (hcoherent : Coherent D P data index)
    (ha : Anchored D data index) (hc : Chronicled data index) (hcounted : Counted index)
    (hstate : index.state = some state) {snapshot : RunPlanningSnapshot}
    (hplanned : PlannedFrom data state snapshot) :
    buildPlanningToolOutputs D snapshot.state snapshot.completedToolOutputs
      snapshot.completedToolOutputOrder = .ok (presentedOutputs snapshot) := by
  have hnodup : snapshot.completedToolOutputOrder.Nodup :=
    hplanned.order.nodup_iff.mpr Std.ExtTreeMap.nodup_keys
  have hlength : snapshot.completedToolOutputOrder.length = snapshot.completedToolOutputs.size := by
    rw [hplanned.order.length_eq, Std.ExtTreeMap.length_keys]
  have hexpected : (boundSteps state.steps.toList).length = snapshot.completedToolOutputs.size := by
    rw [← Std.ExtTreeMap.length_keys]
    refine ((List.perm_ext_iff_of_nodup boundSteps_nodup Std.ExtTreeMap.nodup_keys).mpr
      fun id => ?_).length_eq
    rw [mem_boundSteps, ← hplanned.bound, Std.ExtTreeMap.mem_keys]
  have hone : ∀ id ∈ snapshot.completedToolOutputOrder, ∃ output,
      presentedOutput state snapshot.completedToolOutputs id = some output ∧
      ∀ acc : BTreeSet String × List PlanningToolOutput, id ∉ acc.1 →
        planningToolOutput D state snapshot.completedToolOutputs acc id =
          .ok (acc.1.insert id, acc.2 ++ [output]) := by
    intro id hid
    have hmem : id ∈ snapshot.completedToolOutputs :=
      Std.ExtTreeMap.mem_keys.mp (hplanned.order.mem_iff.mp hid)
    obtain ⟨record, hrecord⟩ := BTreeMap.mem_iff_exists.mp hmem
    obtain ⟨step, intent, sequence, hstep, hintent, hstored, hdigest⟩ :=
      hplanned.outputs id record hrecord
    obtain ⟨bound, hboundStep, hbound⟩ := (hplanned.bound id).mp hmem
    obtain rfl := Option.some.inj (hstep.symm.trans hboundStep)
    exact planningToolOutput_loaded hcoherent ha hc hcounted hstate hstep hbound hintent hstored
      hdigest hrecord
  obtain ⟨seen, hfold, hsize⟩ := @foldl_planningToolOutput D state _ _ hnodup hone (∅, [])
    fun _ _ => Std.ExtTreeSet.not_mem_empty
  have hseen : seen.size = snapshot.completedToolOutputs.size := by
    rw [hsize, hlength, Std.ExtTreeSet.size_empty, Nat.zero_add]
  unfold buildPlanningToolOutputs presentedOutputs
  rw [hplanned.projection, boundSteps_length, hexpected, hlength]
  simp only [hfold, hseen, Outcome.failIf, ne_eq, not_true_eq_false, or_self, if_false, bind,
    Except.bind, List.nil_append]
  rfl

/-! ## The context -/

/-- The outputs of a context are those of all bound steps, in the order in which the journal has their
passed receipts, and each is the stored one. -/
structure ReceiptOrdered (data : RunData) (state : RunState) (toolOutputs : List PlanningToolOutput) :
    Prop where
  receipts : toolOutputs.map PlanningToolOutput.stepId =
    (data.records.filterMap fun record => record.event.body.passedStep).filter
      fun id => (state.steps[id]?).any fun step => decide step.OutputBound
  bound : ∀ (id : String) (step : StepState), state.steps[id]? = some step → step.OutputBound →
    id ∈ toolOutputs.map PlanningToolOutput.stepId
  stored : ∀ toolOutput ∈ toolOutputs, ∃ (step : StepState) (intent : EffectIntent)
    (receiptDigest : String) (sequence : UInt64) (record : ToolOutputRecord),
    state.steps[toolOutput.stepId]? = some step ∧ step.intent = some intent ∧
      step.executionReceiptDigest = some receiptDigest ∧
      data.outputs[intent.effectId]? = some ⟨sequence, record⟩ ∧
      toolOutput = .ofRecord toolOutput.stepId receiptDigest record

theorem presentedOutput_eq_some {completedToolOutputs : BTreeMap String ToolOutputRecord}
    {id : String} {toolOutput : PlanningToolOutput} :
    presentedOutput state completedToolOutputs id = some toolOutput ↔
      ∃ (step : StepState) (receiptDigest : String) (record : ToolOutputRecord),
        state.steps[id]? = some step ∧ step.executionReceiptDigest = some receiptDigest ∧
        completedToolOutputs[id]? = some record ∧ .ofRecord id receiptDigest record = toolOutput := by
  simp only [presentedOutput, Option.bind_eq_bind, Option.bind_eq_some_iff, Option.some.injEq,
    exists_and_left]

/-- **The presented outputs are those of the receipts.** -/
theorem presentedOutputs_ordered (hc : Chronicled data index) (hstate : index.state = some state)
    {snapshot : RunPlanningSnapshot} (hplanned : PlannedFrom data state snapshot) :
    ReceiptOrdered data state (presentedOutputs snapshot) := by
  have hids : (presentedOutputs snapshot).map PlanningToolOutput.stepId =
      snapshot.completedToolOutputOrder := by
    conv_rhs => rw [← @List.filterMap_some _ snapshot.completedToolOutputOrder]
    rw [presentedOutputs, List.map_filterMap]
    refine List.filterMap_congr fun id hid => ?_
    have hmem : id ∈ snapshot.completedToolOutputs :=
      Std.ExtTreeMap.mem_keys.mp (hplanned.order.mem_iff.mp hid)
    obtain ⟨record, hrecord⟩ := BTreeMap.mem_iff_exists.mp hmem
    obtain ⟨step, hstep, hbound⟩ := (hplanned.bound id).mp hmem
    obtain ⟨receipt, _, _, _, _, _, hreceipt⟩ :=
      (hc.projected state id step hstate hstep).completed hbound.1
    rw [hplanned.projection, presentedOutput_eq_some.mpr
      ⟨step, receipt.receiptDigest, record, hstep, hreceipt, hrecord, rfl⟩]
    rfl
  refine ⟨?_, fun id step hstep hbound => ?_, fun toolOutput hmem => ?_⟩
  · rw [hids, hplanned.receipts]
    refine List.filter_congr fun id _ => ?_
    rw [Bool.eq_iff_iff, decide_eq_true_eq, hplanned.bound, Option.any_eq_true]
    simp only [decide_eq_true_eq]
  · rw [hids, hplanned.order.mem_iff, Std.ExtTreeMap.mem_keys, hplanned.bound]
    exact ⟨step, hstep, hbound⟩
  · obtain ⟨id, _, hpresented⟩ := List.mem_filterMap.mp hmem
    rw [hplanned.projection] at hpresented
    obtain ⟨step, receiptDigest, record, hstep, hreceipt, hrecord, rfl⟩ :=
      presentedOutput_eq_some.mp hpresented
    obtain ⟨found, intent, sequence, hfound, hintent, hstored, _⟩ :=
      hplanned.outputs id record hrecord
    obtain rfl := Option.some.inj (hstep.symm.trans hfound)
    exact ⟨step, intent, receiptDigest, sequence, record, hstep, hintent, hreceipt, hstored, rfl⟩

/-- What a context holds of a snapshot: every bound output in the order of the receipts, some of the
steps in the order of the snapshot, some of the capabilities in the order of the catalog, and the
counts of the others. -/
structure ContextOf (D : Digests) (spell : JsonNumber → String) (data : RunData)
    (snapshot : RunPlanningSnapshot) (registry : CapabilityRegistry) (maximumSize : ℕ)
    (context : PlanningContext) : Prop where
  size : context.canonicalSizeBytes.toNat = byteLen (context.payload.toJson.write spell)
  bounded : context.canonicalSizeBytes.toNat ≤ maximumSize
  steps : context.payload.steps.Sublist
    ((plannedSteps snapshot.state snapshot.planningStepOrder).map stepSummary)
  totalSteps : context.payload.steps.length + context.payload.omittedSteps =
    snapshot.state.steps.size
  capabilities : context.payload.capabilities.Sublist (catalogSummaries D registry)
  totalCapabilities : context.payload.capabilities.length + context.payload.omittedCapabilities =
    registry.definitions.size
  toolOutputs : ReceiptOrdered data snapshot.state context.payload.toolOutputs

theorem PackedContext.contextOf {spell : JsonNumber → String} {snapshot : RunPlanningSnapshot}
    {frontier : WorkFrontier} {registry : CapabilityRegistry}
    {planningConstraints : List PlanningConstraint} {maximumSize : ℕ} {context : PlanningContext}
    (h : PackedContext spell (mandatoryPayload D snapshot.state (presentedOutputs snapshot) frontier
        registry planningConstraints)
      ((plannedSteps snapshot.state snapshot.planningStepOrder).map stepSummary)
      (catalogSummaries D registry) maximumSize context)
    (hplanned : PlannedFrom data snapshot.state snapshot)
    (hordered : ReceiptOrdered data snapshot.state (presentedOutputs snapshot)) :
    ContextOf D spell data snapshot registry maximumSize context := by
  have hstepTotal : ((plannedSteps snapshot.state snapshot.planningStepOrder).map
      stepSummary).length = snapshot.state.steps.size := by
    rw [List.length_map, plannedSteps_length hplanned.steps]
  have hcatalogTotal := catalogSummaries_length D registry
  have hsteps := h.steps.length_le
  have hcapabilities := h.capabilities.length_le
  refine ⟨h.size, h.bounded, h.steps, ?_, h.capabilities, ?_, ?_⟩
  · have homitted := congrArg PlanningContextPayload.omittedSteps h.payload
    simp only [PlanningContextPayload.withItems] at homitted
    omega
  · have homitted := congrArg PlanningContextPayload.omittedCapabilities h.payload
    simp only [PlanningContextPayload.withItems] at homitted
    omega
  · have hkept := congrArg PlanningContextPayload.toolOutputs h.payload
    rw [hkept]
    exact hordered

theorem ReachedStore.plannedFrom {store : MemoryRunStore} (h : ReachedStore D P store)
    {maxOutputBytes : UInt64} {snapshot : RunPlanningSnapshot}
    (hloaded : store.loadPlanningSnapshot D store.index.head maxOutputBytes = .ok (some snapshot)) :
    ∃ state, store.projection = some state ∧ PlannedFrom store.toRunData state snapshot := by
  obtain ⟨hnone, hsome⟩ := planning_snapshot_exact h maxOutputBytes
  cases hprojected : store.projection with
  | none =>
    rw [hnone hprojected] at hloaded
    cases hloaded
  | some state =>
    refine ⟨state, rfl, ?_⟩
    obtain ⟨hexceeds, hwithin⟩ := hsome state hprojected
    rcases Nat.lt_or_ge maxOutputBytes.toNat (store.completedOutputBytes state) with hover | hfits
    · rw [hexceeds hover] at hloaded
      cases hloaded
    · obtain ⟨found, hfound, hplanned⟩ := hwithin hfits
      rw [hfound] at hloaded
      cases hloaded
      exact hplanned

/-- **Packing.** On every store that appends have filled, and for every registry, constraints and
budget within the input limits, the builder never reports an output binding: it refuses the context
exactly when the payload without steps and capabilities is larger than the budget allows, and else
builds one within that size. -/
theorem planning_context_packed {spell : JsonNumber → String} (hD : WritesPlanning D spell)
    {store : MemoryRunStore} (h : ReachedStore D P store) {maxOutputBytes : UInt64}
    {snapshot : RunPlanningSnapshot}
    (hloaded : store.loadPlanningSnapshot D store.index.head maxOutputBytes = .ok (some snapshot))
    {frontier : WorkFrontier} {registry : CapabilityRegistry}
    {planningConstraints : List PlanningConstraint} {budget : AgentLoopBudget}
    (hlimits : WithinInputLimits D snapshot.state (presentedOutputs snapshot) registry
      planningConstraints) :
    let mandatory := mandatoryPayload D snapshot.state (presentedOutputs snapshot) frontier registry
      planningConstraints
    let build := buildContextOrdered D snapshot.state snapshot.completedToolOutputs
      snapshot.planningStepOrder snapshot.completedToolOutputOrder frontier registry
      planningConstraints budget
    build ≠ Outcome.fail .outputBinding ∧
      (build = Outcome.fail .budgetExceeded ↔
        min budget.maxContextBytes.toNat 524288 < byteLen (mandatory.toJson.write spell)) ∧
      (byteLen (mandatory.toJson.write spell) ≤ min budget.maxContextBytes.toNat 524288 →
        ∃ context, build = .ok context ∧ ContextOf D spell store.toRunData snapshot registry
          (min budget.maxContextBytes.toNat 524288) context) := by
  dsimp only
  obtain ⟨state, hprojected, hplanned⟩ := h.plannedFrom hloaded
  have hcoherent := h.coherent
  obtain ⟨ha, hc⟩ := h.chronicled
  have hstate : store.index.state = some state :=
    hcoherent.journal.projection.symm.trans hprojected
  obtain rfl := hplanned.projection
  have houtputs := buildPlanningToolOutputs_loaded hcoherent ha hc h.counted hstate hplanned
  have hordered := presentedOutputs_ordered hc hstate hplanned
  obtain ⟨hrefused, hbuilt⟩ := @buildContextOrdered_within D spell _ registry
    snapshot.planningStepOrder hD _ _ _ frontier _ budget hlimits hplanned.steps houtputs
  have hmaximum : maximumContextSize budget = min budget.maxContextBytes.toNat 524288 := rfl
  rw [hmaximum] at hrefused hbuilt
  rcases Nat.lt_or_ge (min budget.maxContextBytes.toNat 524288)
    (byteLen ((mandatoryPayload D snapshot.state (presentedOutputs snapshot) frontier registry
      planningConstraints).toJson.write spell)) with hlarge | hfits
  · have hfail := hrefused hlarge
    refine ⟨?_, ⟨fun _ => hlarge, fun _ => hfail⟩, fun hfits => absurd hlarge (Nat.not_lt.mpr hfits)⟩
    rw [hfail]
    simp [Outcome.fail]
  · obtain ⟨context, hok, hpacked⟩ := hbuilt hfits
    refine ⟨?_, ⟨fun hfail => ?_, fun hlarge => absurd hlarge (Nat.not_lt.mpr hfits)⟩,
      fun _ => ⟨context, hok, ?_⟩⟩
    · rw [hok]
      simp [Outcome.fail]
    · rw [hok] at hfail
      simp [Outcome.fail] at hfail
    · exact hpacked.contextOf hplanned hordered

/-- An encoder that knows the documents of the sample run and writes those of a context. -/
def contextDigests : Digests := (tableDigests checkedTable).withContexts spellWhole

/-- The store of the sample run over this encoder. -/
def contextStore : MemoryRunStore :=
  (runCalls contextDigests checkedProtocol (checkedCalls.take 10)).1

/-- The two steps of the sample run and one capability fit into 4096 bytes. -/
theorem planning_context_packed_sample : ∃ snapshot context,
    contextStore.loadPlanningSnapshot contextDigests contextStore.index.head 0 =
        .ok (some snapshot) ∧
      buildContextOrdered contextDigests snapshot.state snapshot.completedToolOutputs
        snapshot.planningStepOrder snapshot.completedToolOutputOrder planSampleFrontier readRegistry
        [] ⟨1, 8, 8, 4096⟩ = .ok context ∧
      ContextOf contextDigests spellWhole contextStore.toRunData snapshot readRegistry 4096
        context := by
  have hfields : contextStore.projection.any (fun state =>
      contextStore.completedOutputBytes state = 0 ∧
      planningContextPreflight state readRegistry = true ∧
      (∀ definition ∈ BTreeMap.vals readRegistry.definitions,
        (validatePlanningDefinitionShape definition).value? = some () ∧
          documentSize contextDigests (.capabilityDefinition definition) ≤
            maxPlanningDefinitionBytes) ∧
      (∀ step ∈ BTreeMap.vals state.steps, ((validatePlanningStepShape step).value? = some () ∧
        documentSize contextDigests (.planningStepSummary (stepSummary step)) ≤
          maxPlanningStepBytes) ∧ ¬ step.OutputBound) ∧
      ((BTreeMap.vals readRegistry.definitions).map fun item =>
        documentSize contextDigests (.capabilityDefinition item)).sum +
        ((BTreeMap.vals state.steps).map fun item =>
          documentSize contextDigests (.planningStepSummary (stepSummary item))).sum ≤
        maxPlanningSourceBytes ∧
      byteLen ((mandatoryPayload contextDigests state [] planSampleFrontier readRegistry
        []).toJson.write spellWhole) ≤ 4096) = true := by
    decide +kernel
  obtain ⟨state, hprojected, hstate⟩ := (Option.any_eq_true _ _).mp hfields
  obtain ⟨hzero, hpreflight, hdefinitions, hsteps, htotal, hsize⟩ := of_decide_eq_true hstate
  have hreached : ReachedStore contextDigests checkedProtocol contextStore := .runCalls _
  have hfits : contextStore.completedOutputBytes state ≤ (0 : UInt64).toNat := by
    rw [hzero]
    exact Nat.zero_le _
  obtain ⟨_, hlaw⟩ := planning_snapshot_exact hreached 0
  obtain ⟨snapshot, hloaded, hplanned⟩ := (hlaw state hprojected).2 hfits
  obtain rfl := hplanned.projection
  -- no step of the sample run has an output
  have hnone : presentedOutputs snapshot = [] := by
    rw [presentedOutputs, List.filterMap_eq_nil_iff]
    intro id hid
    obtain ⟨step, hstep, hbound⟩ := (hplanned.bound id).mp
      (Std.ExtTreeMap.mem_keys.mp (hplanned.order.mem_iff.mp hid))
    exact absurd hbound (hsteps step (BTreeMap.mem_vals_iff.mpr ⟨id, hstep⟩)).2
  have hlimits : WithinInputLimits contextDigests snapshot.state
      (presentedOutputs snapshot) readRegistry [] := by
    refine ⟨hpreflight, fun definition hdefinition => ?_, fun step hstep => ?_, ?_⟩
    · obtain ⟨hshape, hlimit⟩ := hdefinitions definition hdefinition
      exact ⟨Outcome.value?_eq_some.mp hshape, hlimit⟩
    · obtain ⟨⟨hshape, hlimit⟩, _⟩ := hsteps step hstep
      exact ⟨Outcome.value?_eq_some.mp hshape, hlimit⟩
    · simpa [hnone] using htotal
  have hwrites : WritesPlanning contextDigests spellWhole :=
    Digests.withContexts_writes _ fun _ => rfl
  obtain ⟨_, _, hbuilt⟩ := @planning_context_packed _ _ _ hwrites _ hreached _ _ hloaded
    planSampleFrontier _ _ ⟨1, 8, 8, 4096⟩ hlimits
  rw [hnone] at hbuilt
  obtain ⟨context, hok, hcontext⟩ := hbuilt hsize
  exact ⟨snapshot, context, hloaded, hok, hcontext⟩

end Xgeny
