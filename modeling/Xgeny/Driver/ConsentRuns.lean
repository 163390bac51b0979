import Xgeny.AgentLoop.PlannerCalls
import Xgeny.Cli.Approval
import Xgeny.Driver.Consent
import Xgeny.Verification.Agreement

set_option autoImplicit false

/-!
# Consent across invocations

A run is driven by one invocation of the command line after the other, each with the flags and
catalogs that its user has given, and each may be cut short at any moment. What one invocation admits
another may execute. Meanwhile others append to the journal, but they commit no intents.

* `Invocation`, `consentSystem`: the invocations, and the world in which approvals are answered by the
  flags and catalogs;
* `Accounted`: every committed intent was consented to; **`accounted_kept`**: the invariant;
* **`executed_effects_are_consented`**: what is executed in any invocation was consented to before.
-/

namespace Xgeny

/-- One invocation: the platform, the driver, its inputs, and what the user has approved. -/
structure Invocation where
  host : Host
  driver : RunDriver
  inputs : DriverInputs
  approval : ExplicitLocalApproval

/-- What an invocation runs. -/
def Invocation.program (D : Digests) (P : Protocol) (J : Schemas) (self : Invocation) :
    Routine RunDriverError DriverOutcome :=
  self.driver.driveUntilPauseWithModelEgressObserved D P J self.host self.inputs

/-- An accepted append of an event that commits no intent. -/
def MemoryRunStore.AcceptsOther (D : Digests) (P : Protocol) (store : MemoryRunStore) (commit : Commit)
    (store' : MemoryRunStore) : Prop :=
  store.Accepts D P commit store' ∧ commit.record.event.body.isIntent = false

/-- The answers of an operation, where requests are decided by an approval. -/
def ConsentAnswers (D : Digests) (P : Protocol) (sha256 : List UInt8 → Sha256Hex)
    (approval : ExplicitLocalApproval) (store store' : MemoryRunStore) :
    (op : RuntimeOp) → op.Response → Prop
  | .decide request, answer => store' = store ∧ answer = Except.ok (approval.decide request sha256)
  | .verifyStep _, _ =>
    Relation.ReflTransGen (fun s s' => ∃ commit, s.AcceptsOther D P commit s') store store'
  | op, answer => StoreAnswers D P store store' op answer

/-- The store and the user, as an invocation sees them. -/
def consentSystem (D : Digests) (P : Protocol) (sha256 : List UInt8 → Sha256Hex)
    (approval : ExplicitLocalApproval) :
    System RuntimeOp RuntimeOp.Response MemoryRunStore Commit where
  step store op answer store' := ConsentAnswers D P sha256 approval store store' op answer
  other store commit store' := store.AcceptsOther D P commit store'

/-- What the invocations did, one after the other. -/
abbrev ConsentRounds := List (Round Invocation RuntimeOp RuntimeOp.Response Commit RunDriverError
  DriverOutcome)

/-- Some moves first ask for an approval of a request and get it, then commit an intent. -/
def ApprovedThenCommitted (moves : List (Invocation × RuntimeMove)) (invocation : Invocation)
    (request : ResolvedPermissionRequest) (id : String) (intent : EffectIntent) : Prop :=
  ∃ inputs call, ∃ answer : (RuntimeOp.append call).Response, ∃ before between after,
    moves = before ++ (invocation, ⟨.decide request, Except.ok (.approved inputs)⟩) ::
      (between ++ (invocation, ⟨.append call, answer⟩) :: after) ∧
    call.event.body = .effectIntentCommitted id intent

/-- The user of some invocation has consented to a request before the intent was committed for it. -/
structure ConsentedIntent (D : Digests) (moves : List (Invocation × RuntimeMove))
    (invocation : Invocation) (request : ResolvedPermissionRequest) (arguments : Json) (id : String)
    (intent : EffectIntent) : Prop where
  order : ApprovedThenCommitted moves invocation request id intent
  consents : invocation.approval.Consents request
  intentFor : IntentFor D invocation.inputs.tick.capabilities invocation.inputs.tick.resolver request
    arguments id intent

/-- Every committed intent was consented to. -/
structure Accounted (D : Digests) (P : Protocol) (moves : List (Invocation × RuntimeMove))
    (store : MemoryRunStore) : Prop where
  sound : store.Sound D P
  intents : ∀ record ∈ store.records, ∀ id intent, record.Commits id intent →
    ∃ invocation request arguments,
      ConsentedIntent D moves invocation request arguments id intent

variable {D : Digests} {P : Protocol} {J : Schemas} {sha256 : List UInt8 → Sha256Hex}
  {store store' : MemoryRunStore} {history : RuntimeHistory}

/-! ## The system -/

theorem consentSystem_step {approval : ExplicitLocalApproval} {op : RuntimeOp}
    {answer : op.Response} (h : (consentSystem D P sha256 approval).step store op answer store') :
    (runtimeSystem D P).step store op answer store' := by
  cases op with
  | decide request => exact h.1
  | verifyStep stepId =>
    have hmoves : Relation.ReflTransGen (fun s s' => ∃ commit, s.AcceptsOther D P commit s') store
        store' := h
    exact hmoves.lift id fun s s' ⟨commit, hcommit⟩ => ⟨commit, hcommit.1⟩
  | _ => exact h

theorem consentSystem_trace {approval : ExplicitLocalApproval}
    (ht : Trace (consentSystem D P sha256 approval) store history store') :
    Trace (runtimeSystem D P) store history store' :=
  ht.mono (fun _ _ _ _ => consentSystem_step) fun _ _ _ h => h.1

theorem verification_answers {events : RunState → Except EventFactoryError EventMetadata}
    {lease : RunLease} {capabilities : CapabilityRegistry} {verifiers : EffectVerifierRegistry}
    {stepId : String} {report : DriveReport} {approval : ExplicitLocalApproval}
    (hsound : store.Sound D P)
    (h : VerificationRunner.driveStep D P store events lease capabilities verifiers stepId =
      .ok (report, store')) :
    (consentSystem D P sha256 approval).step store (.verifyStep stepId) (Except.ok ()) store' := by
  obtain ⟨decision, hdecision, h⟩ := Outcome.bind_eq_ok.mp h
  cases decision with
  | noAction state =>
    obtain ⟨-, rfl⟩ := Prod.mk.inj (Except.ok.inj h)
    exact .refl
  | finalize state event receipt disposition =>
    obtain ⟨⟨commit, after⟩, happend, h⟩ := Outcome.bind_eq_ok.mp h
    obtain ⟨-, rfl⟩ := Prod.mk.inj (Except.ok.inj h)
    have hcall : store.call D P (.withExecutionReceipt (.fromState state) event receipt) =
        .ok (commit, after) := Outcome.mapErr_eq_ok.mp happend
    refine .single ⟨commit, ⟨_, hcall⟩, ?_⟩
    rw [(hsound.move hcall).event]
    obtain ⟨step, verified, metadata, startedAt, -, rfl, -⟩ := decide_eq_finalize hdecision
    rfl

/-! ## Where intents come from -/

/-- Where an intent in the journal comes from: it was there before, or a routine has appended it. -/
inductive IntentOrigin (store : MemoryRunStore) (history : RuntimeHistory) (record : EventRecord) :
    Prop
  | kept (hmem : record ∈ store.records)
  | own {call : AppendCall} {answer : (RuntimeOp.append call).Response}
      (hmove : (⟨.append call, answer⟩ : RuntimeMove) ∈ Happening.own history)
      (hevent : record.event = call.event)

theorem IntentOrigin.later {entry : Happening RuntimeOp RuntimeOp.Response Commit}
    {record : EventRecord} (h : IntentOrigin store' history record)
    (hkept : record ∈ store'.records → IntentOrigin store (entry :: history) record) :
    IntentOrigin store (entry :: history) record := by
  cases h with
  | kept hmem => exact hkept hmem
  | own hmove hevent =>
    have hown : Happening.own (entry :: history) = Happening.own [entry] ++ Happening.own history := by
      rw [← Happening.own_append, List.singleton_append]
    exact .own (hown ▸ List.mem_append_right _ hmove) hevent

theorem MemoryRunStore.AcceptsOther.kept {commit : Commit} {record : EventRecord}
    (hsound : store.Sound D P) (h : store.AcceptsOther D P commit store')
    (hintent : record.event.body.isIntent = true) (hmem : record ∈ store'.records) :
    record ∈ store.records := by
  obtain ⟨⟨call, hcall⟩, hother⟩ := h
  rcases (hsound.move hcall).mem hmem with hkept | rfl
  · exact hkept
  · rw [hother] at hintent
    cases hintent

theorem otherAppends_kept {record : EventRecord} (hsound : store.Sound D P)
    (h : Relation.ReflTransGen (fun s s' => ∃ commit, s.AcceptsOther D P commit s') store store')
    (hintent : record.event.body.isIntent = true) :
    store'.Sound D P ∧ (record ∈ store'.records → record ∈ store.records) := by
  induction h with
  | refl => exact ⟨hsound, fun hmem => hmem⟩
  | tail _ hlast ih =>
    obtain ⟨commit, hother⟩ := hlast
    exact ⟨(ih.1.accepts hother.1).sound, fun hmem => ih.2 (hother.kept ih.1 hintent hmem)⟩

/-- **Every intent in the journal has an origin.** -/
theorem intentOrigin_of_trace {approval : ExplicitLocalApproval} {record : EventRecord}
    (hsound : store.Sound D P) (ht : Trace (consentSystem D P sha256 approval) store history store')
    (hintent : record.event.body.isIntent = true) (hmem : record ∈ store'.records) :
    IntentOrigin store history record := by
  induction ht with
  | nil => exact .kept hmem
  | @did op answer w w' w'' history hstep hrest ih =>
    refine (ih (hsound.answers (consentSystem_step hstep)).sound hmem).later fun hmem => ?_
    cases op with
    | loadCurrent | loadPlannedInvocation | loadInvocationMaterial | decide =>
      obtain ⟨rfl, -⟩ := hstep
      exact .kept hmem
    | append call =>
      have happended : ∀ commit, w.call D P call = .ok (commit, w') →
          IntentOrigin w (.did (.append call) answer :: history) record := by
        intro commit hcall
        have hmove : StoreMove D P w call commit w' := hsound.move hcall
        rcases hmove.mem hmem with hkept | rfl
        · exact .kept hkept
        · exact .own List.mem_cons_self hmove.event
      cases answer with
      | ok commit => exact happended commit hstep
      | error error =>
        rcases hstep with ⟨-, rfl⟩ | ⟨-, rfl | ⟨commit, hcall⟩⟩
        · exact .kept hmem
        · exact .kept hmem
        · exact happended commit hcall
    | verifyStep stepId =>
      exact .kept ((otherAppends_kept hsound hstep hintent).2 hmem)
    | _ =>
      obtain rfl : w' = w := hstep
      exact .kept hmem
  | @other commit w w' w'' history hother hrest ih =>
    refine (ih (hsound.accepts hother.1).sound hmem).later fun hmem => ?_
    exact .kept (hother.kept hsound hintent hmem)

/-! ## Every intent is consented to -/

theorem ConsentedIntent.append {moves now : List (Invocation × RuntimeMove)} {invocation : Invocation}
    {request : ResolvedPermissionRequest} {arguments : Json} {id : String} {intent : EffectIntent}
    (h : ConsentedIntent D moves invocation request arguments id intent) :
    ConsentedIntent D (moves ++ now) invocation request arguments id intent := by
  obtain ⟨inputs, call, answer, before, between, after, rfl, hbody⟩ := h.order
  refine { h with order := ⟨inputs, call, answer, before, between, after ++ now, ?_, hbody⟩ }
  simp

theorem Round.tag_own {before after : List RuntimeMove} {move : RuntimeMove} {i : Invocation}
    (hsplit : Happening.own history = before ++ move :: after) :
    Round.tag i history = before.map (fun move => (i, move)) ++
      (i, move) :: after.map fun move => (i, move) := by
  rw [Round.tag, hsplit, List.map_append, List.map_cons]

theorem consents_of_approved {approval : ExplicitLocalApproval} {request : ResolvedPermissionRequest}
    {inputs : PolicyInputs} (ht : Trace (consentSystem D P sha256 approval) store history store')
    (hmem : (⟨.decide request, Except.ok (.approved inputs)⟩ : RuntimeMove) ∈ Happening.own history) :
    approval.Consents request := by
  obtain ⟨before, after, hsplit⟩ := List.append_of_mem hmem
  obtain ⟨earlier, later, rfl, -⟩ := Happening.own_split hsplit
  obtain ⟨m, m', -, ⟨-, hanswer⟩, -⟩ := ht.split_did
  exact decide_approved_iff.mp ⟨inputs, (Except.ok.inj hanswer).symm⟩

/-- **Every invocation keeps the intents accounted.** -/
theorem accounted_kept : Rounds.Kept (fun i : Invocation => consentSystem D P sha256 i.approval)
    (fun i => Consented D i.inputs.tick.capabilities i.inputs.tick.resolver) (Accounted D P) := by
  intro i moves history w w' h ht hobeys
  have hsound := (extends_of_trace h.sound (consentSystem_trace ht)).sound
  refine ⟨hsound, fun record hmem id intent hcommits => ?_⟩
  have hintent : record.event.body.isIntent = true :=
    RunEventBody.isIntent_iff.mpr ⟨id, intent, hcommits⟩
  cases intentOrigin_of_trace h.sound ht hintent hmem with
  | kept hmem =>
    obtain ⟨invocation, request, arguments, hconsented⟩ := h.intents record hmem id intent hcommits
    exact ⟨invocation, request, arguments, hconsented.append⟩
  | @own call answer hmove hevent =>
    obtain ⟨before, after, hsplit⟩ := List.append_of_mem hmove
    have hbody : call.event.body = .effectIntentCommitted id intent := hevent ▸ hcommits
    obtain ⟨request, arguments, inputs, happroved, hfor⟩ := hobeys _ _ _ hsplit id intent hbody
    obtain ⟨first, between, rfl⟩ := List.append_of_mem happroved
    refine ⟨i, request, arguments, ?_, ?_, hfor⟩
    · refine ⟨inputs, call, answer, moves ++ first.map fun move => (i, move),
        between.map fun move => (i, move), after.map fun move => (i, move), ?_, hbody⟩
      rw [Round.tag_own hsplit]
      simp
    · have hmem : (⟨.decide request, Except.ok (.approved inputs)⟩ : RuntimeMove) ∈
          Happening.own history := by
        rw [hsplit]
        simp
      exact consents_of_approved ht hmem

/-! ## What is executed -/

/-- What is executed was consented to: an intent was committed for it after an approval, and the
adapter of an instance of the approved capability has prepared it, with arguments of the same digest
as the approved ones. -/
structure ConsentedEffect (D : Digests) (moves : List (Invocation × RuntimeMove))
    (executing consenting : Invocation) (prepared : CorePreparedEffect)
    (request : ResolvedPermissionRequest) (approved arguments : Json) (intent : EffectIntent)
    (instance_ : CapabilityInstanceBody) : Prop where
  intended : ConsentedIntent D moves consenting request approved prepared.binding.stepId intent
  stepId : prepared.binding.stepId = request.stepId
  effectId : prepared.binding.effectId = intent.effectId
  capability : instance_.definition = request.capability
  adapter : AdapterBindingKey.fromBinding instance_.binding = .ok prepared.adapterKey
  asked : (executing, (⟨.prepare prepared.adapterKey ⟨intent, instance_, arguments⟩,
    Except.ok prepared.invocation⟩ : RuntimeMove)) ∈ moves
  arguments : invocationMaterialDigest D arguments = invocationMaterialDigest D approved

theorem IntentFor.capability {registry : CapabilityRegistry} {resolver : ResourceResolver}
    {request : ResolvedPermissionRequest} {arguments : Json} {id : String} {intent : EffectIntent}
    (h : IntentFor D registry resolver request arguments id intent) (hregistry : registry.WellFormed) :
    request.capability = intent.invocation.capability := by
  obtain ⟨definition, given, hdefinition, hresolved⟩ := h.resolved
  simp only [resolveInvocation, Outcome.bind_eq_ok, Outcome.exists_unit, Outcome.pure_eq_ok]
    at hresolved
  obtain ⟨-, _, -, _, -, hfields⟩ := hresolved
  have hrequest := congrArg ResolvedInvocationRequest.permissionRequest hfields
  have hcapability := congrArg ResolvedPermissionRequest.capability hrequest
  exact hcapability.symm.trans (hregistry.reference _ _ hdefinition)

/-- **What is executed in any invocation was consented to before**: by the user of the same or of an
earlier invocation, who was asked for it before its intent was committed. -/
theorem executed_effects_are_consented {start : MemoryRunStore} {rounds : ConsentRounds}
    (hstart : start.Sound D P)
    (hfresh : ∀ record ∈ start.records, record.event.body.isIntent = false)
    (hregistries : ∀ i : Invocation, i ∈ rounds.map Round.index →
      i.inputs.tick.capabilities.WellFormed)
    (hrounds : Rounds (fun i => consentSystem D P sha256 i.approval)
      (fun i => i.program D P J) start rounds store)
    {past future : ConsentRounds}
    {round : Round Invocation RuntimeOp RuntimeOp.Response Commit RunDriverError DriverOutcome}
    {earlier later : List RuntimeMove} {prepared : CorePreparedEffect}
    {answer : (RuntimeOp.execute prepared).Response} (hsplit : rounds = past ++ round :: future)
    (hexecutes : Happening.own round.history = earlier ++ ⟨.execute prepared, answer⟩ :: later) :
    ∃ consenting ∈ round.index :: past.map Round.index,
      ∃ request approved arguments intent instance_,
        ConsentedEffect D (Round.moves past ++ earlier.map fun move => (round.index, move))
          round.index consenting prepared request approved arguments intent instance_ := by
  have hempty : Accounted D P [] start := by
    refine ⟨hstart, fun record hmem id intent hcommits => ?_⟩
    have hintent : record.event.body.isIntent = true :=
      RunEventBody.isIntent_iff.mpr ⟨id, intent, hcommits⟩
    rw [hfresh record hmem] at hintent
    cases hintent
  obtain ⟨hallowed, history, m, m', hown, htrace, hbefore, hnow⟩ :=
    hrounds.moment (fun i => drive_consented []) hempty accounted_kept hsplit hexecutes
  obtain ⟨state, step, intent, instance_, arguments, heffect⟩ := hallowed
  -- the intent of the loaded step stands in the journal
  obtain ⟨records, hprefix, hreplay⟩ :=
    seen_of_loaded hbefore.sound (consentSystem_trace htrace) (hown ▸ heffect.loaded)
  obtain ⟨_, record, hat, hcommits, -⟩ := (stepHistory_of_replay hreplay _).committed step intent
    heffect.found heffect.committed
  have hmem : record ∈ m'.records := hprefix.subset (List.mem_of_getElem? hat)
  obtain ⟨consenting, request, approved, hintended⟩ := hnow.intents record hmem _ _ hcommits
  have htag : Round.tag round.index history = earlier.map fun move => (round.index, move) := by
    rw [Round.tag, hown]
  rw [htag] at hintended
  have hconsenting : consenting ∈ round.index :: past.map Round.index := by
    obtain ⟨inputs, call, answer, before, between, after, hmoves, -⟩ := hintended.order
    have hdecided : (consenting, (⟨.decide request, Except.ok (.approved inputs)⟩ : RuntimeMove)) ∈
        Round.moves past ++ earlier.map fun move => (round.index, move) := by
      rw [hmoves]
      exact List.mem_append_right _ List.mem_cons_self
    rcases List.mem_append.mp hdecided with hmem | hmem
    · exact List.mem_cons_of_mem _ (Round.index_of_mem hmem)
    · obtain ⟨_, -, hpair⟩ := List.mem_map.mp hmem
      exact (Prod.mk.inj hpair).1 ▸ List.mem_cons_self
  have hregistry : consenting.inputs.tick.capabilities.WellFormed := by
    refine hregistries consenting ?_
    rw [hsplit, List.map_append, List.map_cons]
    rcases List.mem_cons.mp hconsenting with rfl | hmem
    · exact List.mem_append_right _ List.mem_cons_self
    · exact List.mem_append_left _ hmem
  exact ⟨consenting, hconsenting, request, approved, arguments, intent, instance_,
    { intended := hintended
      stepId := hintended.intentFor.stepId.symm
      effectId := heffect.effectId
      capability := heffect.definition.trans (hintended.intentFor.capability hregistry).symm
      adapter := heffect.adapter
      asked := List.mem_append_right _ (List.mem_map_of_mem heffect.asked)
      arguments := heffect.material.trans hintended.intentFor.material.symm }⟩

/-! ## Two invocations -/

/-- The capability of executing a catalogued executable. -/
def executeDefinition : CapabilityDefinitionBody where
  apiVersion := apiVersionV1alpha1
  extensions := ∅
  requiredExtensions := []
  metadata := ⟨processExecuteCapability.capabilityId, processExecuteCapability.contractVersion,
    "Execute", ∅⟩
  spec :=
    { summary := "execute"
      inputSchema := .bool true
      outputSchema := .bool true
      effect := ⟨.nonIdempotent, [⟨processExecuteScope, "/executable"⟩], []⟩
      requiredCapabilities := []
      execution := ⟨[.sync], false, true, false, 1000, 1000⟩
      verification := [⟨.receipt, true, none⟩]
      discovery := none }

def executeInstance : CapabilityInstanceBody :=
  { gateInstance .available with definition := executeDefinition.reference }

def executeRegistry : CapabilityRegistry where
  definitions := (∅ : BTreeMap DefinitionKey CapabilityDefinitionBody).insert
    executeDefinition.reference.key executeDefinition
  instances := (∅ : BTreeMap String CapabilityInstanceBody).insert "instance-1" executeInstance

theorem executeRegistry_wellFormed : executeRegistry.WellFormed := by
  have hdefinition : CapabilityRegistry.new.registerSchemaValidatedDefinition executeDefinition =
      .ok { executeRegistry with instances := ∅ } := rfl
  have hinstance : ({ executeRegistry with instances := ∅ } :
      CapabilityRegistry).registerSchemaValidatedInstance executeInstance = .ok executeRegistry := by
    simp only [CapabilityRegistry.registerSchemaValidatedInstance, Outcome.bind_eq_ok,
      Outcome.exists_unit, Outcome.failIf_eq_ok, Outcome.okOr_eq_ok, Outcome.pure_eq_ok]
    exact ⟨not_not.mpr rfl, Std.ExtTreeMap.not_mem_empty, executeDefinition,
      Std.ExtTreeMap.getElem?_insert_self, rfl, rfl⟩
  exact (CapabilityRegistry.WellFormed.new.registerDefinition hdefinition).registerInstance hinstance

/-- The arguments that name the one catalogued executable. -/
def executeArguments : Json := .object [("executable", .string "process:main/executables/tool")]

/-- Ports of a host whose planner proposes to execute the executable. -/
def executePorts (allowExecute : Bool) (store : MemoryRunStore) : (op : RuntimeOp) → op.Response
  | .plan _ => Except.ok (.plan [⟨"a", "run it", [], processExecuteCapability, executeArguments⟩])
  | .materialize _ => Except.ok ⟨"recipes", "a", "1"⟩
  | .reconstruct _ _ _ => Except.ok executeArguments
  | .routeFor _ _ => Except.ok { gateRequest.route with capability := processExecuteCapability }
  | .decide request => Except.ok ((executeApproval allowExecute).decide request flatSha256)
  | .prepare _ _ => Except.ok ⟨1⟩
  | op => timeoutPorts store op

/-- An invocation of four ticks. -/
def executeInvocation (allowExecute : Bool) : Invocation where
  host := ⟨"linux", "x86_64"⟩
  driver := ⟨sampleLoop, .default, 4, by decide +kernel⟩
  inputs :=
    { tick := { sampleTickInputs with capabilities := executeRegistry }
      providers := ⟨["recipes"]⟩
      adapters := ⟨[⟨"fs", none, none⟩]⟩
      modelEgressAllowed := true }
  approval := executeApproval allowExecute

/-- What an invocation does to a store. -/
def executeRun (allowExecute : Bool) (store : MemoryRunStore) :
    RuntimeHistory × MemoryRunStore × Outcome RunDriverError DriverOutcome :=
  ((executeInvocation allowExecute).program flatDigests flatProtocol openSchemas).run
    (sampleHost flatDigests (executePorts allowExecute)) noOthers store

theorem executeRun_exec (allowExecute : Bool) (store : MemoryRunStore) :
    Exec (consentSystem flatDigests flatProtocol flatSha256 (executeApproval allowExecute))
      ((executeInvocation allowExecute).program flatDigests flatProtocol openSchemas) store
      (executeRun allowExecute store).1 (executeRun allowExecute store).2.1
      (some (executeRun allowExecute store).2.2) := by
  refine Prog.exec_run (fun w op => ?_) (fun w op label m h => ?_) _ store
  · have hanswers := memoryHost_step (P := flatProtocol) (D := flatDigests)
      (executePorts allowExecute) w op
    cases op with
    | decide request => exact ⟨rfl, rfl⟩
    | verifyStep stepId => exact .refl
    | _ => exact hanswers
  · simp [noOthers] at h

/-- The first invocation has the execution allowed and admits it; the second one executes it without
the flag, on the consent given in the first. -/
theorem executed_effects_are_consented_sample : ∃ rounds store past round earlier prepared later,
    ∃ answer : (RuntimeOp.execute prepared).Response,
      Rounds (fun i => consentSystem flatDigests flatProtocol flatSha256 i.approval)
        (fun i => i.program flatDigests flatProtocol openSchemas) (createdStore flatDigests) rounds
        store ∧
      rounds = past ++ [round] ∧ round.index.approval.allowExecute = false ∧
      Happening.own round.history = earlier ++ ⟨.execute prepared, answer⟩ :: later ∧
      ∃ consenting ∈ round.index :: past.map Round.index,
        ∃ request approved arguments intent instance_,
          ConsentedEffect flatDigests (Round.moves past ++
            earlier.map fun move => (round.index, move)) round.index consenting prepared request
            approved arguments intent instance_ := by
  let first := executeRun true (createdStore flatDigests)
  let second := executeRun false first.2.1
  let past : ConsentRounds := [⟨executeInvocation true, first.1, some first.2.2⟩]
  let round : Round Invocation RuntimeOp RuntimeOp.Response Commit RunDriverError DriverOutcome :=
    ⟨executeInvocation false, second.1, some second.2.2⟩
  have hfirst : Rounds (fun i : Invocation => consentSystem flatDigests flatProtocol flatSha256
      i.approval) (fun i => i.program flatDigests flatProtocol openSchemas)
      (createdStore flatDigests) ([] ++ past) first.2.1 :=
    .snoc .nil (executeRun_exec true (createdStore flatDigests))
  have hrounds : Rounds (fun i : Invocation => consentSystem flatDigests flatProtocol flatSha256
      i.approval) (fun i => i.program flatDigests flatProtocol openSchemas)
      (createdStore flatDigests) (past ++ [round]) second.2.1 :=
    .snoc hfirst (executeRun_exec false first.2.1)
  have hexecutes : (Happening.own second.1).any (fun move => (executed? move).isSome) = true := by
    decide +kernel
  obtain ⟨⟨op, answer⟩, hmem, hexecuted⟩ := List.any_eq_true.mp hexecutes
  obtain ⟨prepared, hprepared⟩ := Option.isSome_iff_exists.mp hexecuted
  obtain ⟨answer, hmove⟩ := executed?_eq_some hprepared
  rw [hmove] at hmem
  obtain ⟨earlier, later, hown⟩ := List.append_of_mem hmem
  have hfresh : ∀ record ∈ (createdStore flatDigests).records,
      record.event.body.isIntent = false := by
    decide +kernel
  have hregistries : ∀ i : Invocation, i ∈ (past ++ [round]).map Round.index →
      i.inputs.tick.capabilities.WellFormed := by
    intro i hi
    simp only [past, round, List.map_append, List.map_cons, List.map_nil, List.mem_append,
      List.mem_singleton] at hi
    rcases hi with rfl | rfl <;> exact executeRegistry_wellFormed
  exact ⟨_, _, past, round, earlier, prepared, later, answer, hrounds, rfl, rfl, hown,
    executed_effects_are_consented (createdStore_sound _) hfresh hregistries hrounds rfl hown⟩

end Xgeny
