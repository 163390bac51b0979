import Xgeny.AgentLoop.PlannerCalls
import Xgeny.Driver.Calls
import Xgeny.Runtime.Executions

set_option autoImplicit false

/-!
# No model egress without consent

The gate and the tick decide separately whether the model is called. Whenever a tick calls the
planner, the gate would have let it through; so a driver that is the only writer, and whose gate is
closed, never calls the planner, and an open gate asks the observer before every call.

* `PlansOn.mayCall`: the tick plans only where the gate is open;
* `TickPlans`: what a tick has loaded when it plans; `tick_plans`;
* `DriverAllows`: when the driver may plan; **`drive_allows`**: it does only that;
* **`no_egress_without_consent`**.
-/

namespace Xgeny

open Prog (Only Sat only_bind only_lift only_mapErr only_pure sat_attempt sat_bind sat_lift sat_mapErr
  sat_pure)

/-! ## The gate and the tick -/

theorem PlansOn.mayCall {inputs : TickInputs} {state : RunState} {loopState : AgentLoopState}
    {modelCalls : ModelCallLifecycleState} {frontier : WorkFrontier}
    (h : PlansOn inputs state loopState modelCalls frontier) :
    stateMayCallModel (some state) = .ok true := by
  have hgoing := h.going
  simp only [planningQuiescence] at hgoing
  split at hgoing
  · simp at hgoing
  · rename_i hterminal
    have hfailed : frontier.failedStepIds = [] := by
      by_contra hne
      simp [terminalQuiescence, hne] at hterminal
      split at hterminal <;> simp at hterminal
    have hmanual : frontier.manualRequiredStepIds = [] := by
      by_contra hne
      simp [terminalQuiescence, hne] at hterminal
    have hturns : ¬ loopState.acceptedModelTurns ≥ loopState.budget.maxModelTurns := by
      intro hge
      simp [hge] at hgoing
    have hcalls : ¬ modelCalls.reservedCalls ≥ modelCalls.budget.maxModelCalls := by
      intro hge
      rw [if_neg hturns, if_pos hge] at hgoing
      cases hgoing
    simp [stateMayCallModel, h.loop, h.calls, loopMayCallModel, h.closed, h.undecided, h.derived,
      h.idle, hfailed, hmanual, hturns, hcalls]

/-- When a tick plans, it plans for the first time, and on the state that it has loaded. -/
def TickPlans (moves : List RuntimeMove) (op : RuntimeOp) : Prop :=
  op.isPlan = true → (∀ move ∈ moves, move.1.isPlan = false) ∧
    ∃ state, moves.head? = some ⟨.loadCurrent, Except.ok (some state)⟩ ∧
      stateMayCallModel (some state) = .ok true

section Tick

variable {D : Digests} {P : Protocol} {J : Schemas} {host : Host} {self : AgentLoop}
  {inputs : TickInputs} {moves : List RuntimeMove} {state : RunState}

theorem TickPlans.of_quiet {op : RuntimeOp} (h : op.Quiet) : TickPlans moves op := by
  intro hplan
  cases op with
  | plan => exact h.elim
  | _ => simp [RuntimeOp.isPlan] at hplan

theorem callPlanner_plans {loopState : AgentLoopState} {modelCalls : ModelCallLifecycleState}
    {frontier : WorkFrontier} {toolCalls : UInt32} {context : PlanningContext}
    (hloaded : moves.head? = some ⟨.loadCurrent, Except.ok (some state)⟩)
    (hfirst : ∀ move ∈ moves, move.1.isPlan = false)
    (hready : PlansOn inputs state loopState modelCalls frontier) :
    Sat TickPlans Move.push
      (callPlanner D P J host self inputs state frontier modelCalls toolCalls context) moves
      fun _ _ => True := by
  simp only [callPlanner, appendLoopEvent, createLoopEvent, createEvent, sat_bind, sat_lift,
    sat_mapErr]
  split
  · refine ⟨.of_quiet trivial, fun given => ?_⟩
    cases given with
    | error error => trivial
    | ok metadata =>
      simp only [Routine.answered, Sat, Outcome.mapErr]
      split
      · simp only [sat_pure, sat_attempt]
        refine ⟨.of_quiet rfl, fun given => ?_⟩
        cases given with
        | error error => trivial
        | ok commit =>
          simp only [Routine.answered, Sat]
          refine ⟨fun _ => ⟨Move.forall_push (Move.forall_push hfirst rfl) rfl, state,
            Move.head?_push (Move.head?_push hloaded), hready.mayCall⟩, fun answer => ?_⟩
          cases answer with
          | error failure =>
            exact recordPlannerFailure_quiet.sat fun _ _ hquiet => .of_quiet hquiet
          | ok proposal =>
            refine handleProposal_settles.sat fun _ op hsettles hplan => ?_
            rw [hsettles.isPlan] at hplan
            cases hplan
      · trivial
  · trivial

/-- **A tick plans only on a loaded state on which the gate is open.** -/
theorem tick_plans : (self.tick D P J host inputs).Follows TickPlans fun _ _ => True := by
  refine tick_rule (Φ := fun moves p => Sat TickPlans Move.push p moves fun _ _ => True)
    ⟨fun moves p hquiet => hquiet.sat fun _ _ hop => .of_quiet hop,
      fun moves op k hquiet hrest => ⟨.of_quiet hquiet, hrest⟩⟩ ?_
  intro moves state loopState modelCalls frontier toolCalls context hloaded hfirst hready
  exact callPlanner_plans hloaded hfirst hready

end Tick

/-! ## The driver -/

/-- The observer was told that a model call starts and let it go on, and none has started since. -/
def Announced (moves : List RuntimeMove) : Prop :=
  ∃ earlier later, moves = earlier ++
      ⟨.observe .modelCallStarting, DriverProgressControl.continue_⟩ :: later ∧
    ∀ move ∈ later, move.1.isPlan = false

/-- The tick has found another state than the gate before it. -/
def Overtaken (moves : List RuntimeMove) : Prop :=
  ∃ earlier current next later, moves = earlier ++ ⟨.loadCurrent, Except.ok current⟩ ::
      ⟨.loadCurrent, Except.ok next⟩ :: later ∧
    stateMayCallModel current = .ok false ∧ stateMayCallModel next = .ok true

/-- When the driver may plan: with egress and an announcement of its own, or on a state that changed
behind the gate. -/
def DriverAllows (modelEgressAllowed : Bool) (moves : List RuntimeMove) (op : RuntimeOp) : Prop :=
  op.isPlan = true → (modelEgressAllowed = true ∧ Announced moves) ∨ Overtaken moves

section Driver

variable {D : Digests} {P : Protocol} {J : Schemas} {H : Host} {self : RunDriver}
  {inputs : DriverInputs} {moves : List RuntimeMove} {modelEgressAllowed : Bool} {stepId : String}

/-- The routine does what the driver may do, after any moves, and satisfies `Q` when it returns. -/
def Drives {α : Type} (modelEgressAllowed : Bool) (p : Routine RunDriverError α) : Prop :=
  ∀ moves, p.Sat (DriverAllows modelEgressAllowed) Move.push moves fun _ _ => True

theorem DriverAllows.of_not_plan {op : RuntimeOp} (h : op.isPlan = false) :
    DriverAllows modelEgressAllowed moves op := by
  intro hplan
  rw [h] at hplan
  cases hplan

theorem Drives.of_only {α : Type} {p : Routine RunDriverError α} {Q : α → Prop}
    (h : Only (fun op => op.isPlan = false) p Q) : Drives modelEgressAllowed p :=
  fun _ => h.sat fun _ _ hop => .of_not_plan hop

theorem Drives.bind {α β : Type} {p : Routine RunDriverError α}
    {f : α → Routine RunDriverError β} (hp : Drives modelEgressAllowed p)
    (hf : ∀ a, Drives modelEgressAllowed (f a)) : Drives modelEgressAllowed (p >>= f) := by
  intro moves
  refine sat_bind.mpr ((hp moves).mono fun moves outcome _ => ?_)
  cases outcome with
  | ok a => exact hf a moves
  | error fault => trivial

theorem driveStep_drives {material : Option InvocationMaterial} :
    Drives modelEgressAllowed ((DirectExecutor.driveStep D P J H self.executor inputs.tick.lease
      inputs.tick.capabilities inputs.adapters stepId material).mapErr .executor) := by
  intro moves
  have hobeys : Obeys self.executor stepId (DirectExecutor.driveStep D P J H self.executor
      inputs.tick.lease inputs.tick.capabilities inputs.adapters stepId material) [] :=
    driveStep_obeys
  have hnever : ∀ now op, ExecutorAllows self.executor stepId now op →
      DriverAllows modelEgressAllowed (moves ++ now) op := by
    intro now op hallowed
    refine .of_not_plan ?_
    cases op with
    | plan => exact hallowed.elim
    | _ => rfl
  have hsat := hobeys.after hnever
  rw [List.append_nil] at hsat
  exact sat_mapErr.mpr (hsat.mono fun _ _ _ => trivial)

theorem observeOrCancel_drives {progress : DriverProgress} :
    Drives modelEgressAllowed (observeOrCancel progress) := by
  refine .of_only (Q := fun _ => True) ⟨rfl, fun answer => ?_⟩
  cases answer <;> trivial

theorem loadDriven_drives : Drives modelEgressAllowed loadDriven := by
  refine .of_only (Q := fun _ => True) ?_
  simp only [loadDriven, only_bind, only_mapErr, only_lift]
  refine ⟨rfl, fun answer => ?_⟩
  cases answer with
  | error error => trivial
  | ok current => exact fun _ _ => trivial

theorem routeFor_drives {state : RunState} :
    Drives modelEgressAllowed ((Routine.routeFor state stepId).mapErr .route) := by
  refine .of_only (Q := fun _ => True) (only_mapErr.mpr ⟨rfl, fun answer => ?_⟩)
  cases answer <;> trivial

theorem decide_drives {request : ResolvedPermissionRequest} :
    Drives modelEgressAllowed ((Routine.decide request).mapErr .approval) := by
  refine .of_only (Q := fun _ => True) (only_mapErr.mpr ⟨rfl, fun answer => ?_⟩)
  cases answer <;> trivial

theorem verifyStep_drives :
    Drives modelEgressAllowed ((Routine.verifyStep stepId).mapErr .verification) := by
  refine .of_only (Q := fun _ => True) (only_mapErr.mpr ⟨rfl, fun answer => ?_⟩)
  cases answer <;> trivial

theorem RuntimeOp.Reads.not_plan {op : RuntimeOp} (h : op.Reads) : op.isPlan = false := by
  cases op with
  | plan => exact h.elim
  | _ => rfl

theorem admitApproved_drives {pending : PendingInvocation} {policyInputs : PolicyInputs} :
    Drives modelEgressAllowed (admitApproved D P J H inputs stepId pending policyInputs) := by
  refine Drives.bind (.of_only (only_mapErr.mpr (authorizeAndCommit_calls.weaken fun op hop => ?_)))
    fun outcome => ?_
  · cases op with
    | plan => exact hop.elim
    | _ => rfl
  · cases outcome with
    | authorized effect => exact observeOrCancel_drives
    | notAuthorized outcome => exact fun _ => trivial

theorem admitAction_drives :
    Drives modelEgressAllowed (admitAction D P J H inputs stepId) := by
  refine loadDriven_drives.bind fun state => ?_
  refine routeFor_drives.bind fun route => ?_
  refine Drives.bind (.of_only (only_mapErr.mpr (preparePlannedAdmission_reads.weaken
    fun _ => RuntimeOp.Reads.not_plan))) fun pending => ?_
  refine decide_drives.bind fun decision => ?_
  cases decision with
  | approved policyInputs => exact admitApproved_drives
  | denied => exact fun _ => trivial
  | pending => exact .of_only (Q := fun _ => True) ⟨rfl, fun _ => trivial⟩

theorem driveFound_drives {status : StepStatus} :
    Drives modelEgressAllowed (driveFound D P J H self inputs stepId status) := by
  unfold driveFound
  split
  · refine Drives.bind (.of_only (only_mapErr.mpr (recover_reads.weaken
      fun _ => RuntimeOp.Reads.not_plan))) fun material => ?_
    exact driveStep_drives.bind fun _ _ => trivial
  · exact driveStep_drives.bind fun _ _ => trivial

theorem driveEffectAction_drives :
    Drives modelEgressAllowed (driveEffectAction D P J H self inputs stepId) := by
  refine loadDriven_drives.bind fun state => ?_
  refine Drives.bind (.of_only (Q := fun _ => True) (only_lift.mpr fun _ _ => trivial)) fun found => ?_
  refine observeOrCancel_drives.bind fun outcome => ?_
  cases outcome with
  | some outcome => exact fun _ => trivial
  | none => exact driveFound_drives.bind fun _ => observeOrCancel_drives

theorem verifyAction_drives : Drives modelEgressAllowed (verifyAction stepId) := by
  refine observeOrCancel_drives.bind fun outcome => ?_
  cases outcome with
  | some outcome => exact fun _ => trivial
  | none => exact verifyStep_drives.bind fun _ => observeOrCancel_drives

theorem afterTick_drives {tick : AgentLoopTick} :
    Drives modelEgressAllowed (afterTick D P J H self inputs tick) := by
  cases tick with
  | planAccepted => exact observeOrCancel_drives
  | actionRequired action head =>
    simp only [afterTick]
    split
    · exact admitAction_drives
    · exact driveEffectAction_drives
    · exact verifyAction_drives
  | completionCandidate => exact .of_only (Q := fun _ => True) ⟨rfl, fun _ => trivial⟩
  | _ => exact fun _ => trivial

theorem tick_announced {agentLoop : AgentLoop} {tickInputs : TickInputs}
    (hannounced : ∃ earlier, moves = earlier ++
      [⟨.observe .modelCallStarting, DriverProgressControl.continue_⟩]) :
    Sat (DriverAllows true) Move.push (agentLoop.tick D P J H tickInputs) moves fun _ _ => True := by
  obtain ⟨earlier, rfl⟩ := hannounced
  have hallowed : ∀ now op, TickPlans now op → DriverAllows true (earlier ++
      [⟨.observe .modelCallStarting, DriverProgressControl.continue_⟩] ++ now) op := by
    intro now op hplans hplan
    refine Or.inl ⟨rfl, earlier, now, ?_, (hplans hplan).1⟩
    rw [List.append_assoc]
    rfl
  have hplans : (agentLoop.tick D P J H tickInputs).Follows TickPlans fun _ _ => True := tick_plans
  have hsat := hplans.after hallowed
  rw [List.append_nil] at hsat
  exact hsat.mono fun _ _ _ => trivial

theorem tick_overtaken {agentLoop : AgentLoop} {tickInputs : TickInputs}
    {current : Option RunState} (hclosed : stateMayCallModel current = .ok false)
    (hloaded : ∃ earlier, moves = earlier ++ [⟨.loadCurrent, Except.ok current⟩]) :
    Sat (DriverAllows modelEgressAllowed) Move.push (agentLoop.tick D P J H tickInputs) moves
      fun _ _ => True := by
  obtain ⟨earlier, rfl⟩ := hloaded
  have hallowed : ∀ now op, TickPlans now op → DriverAllows modelEgressAllowed
      (earlier ++ [⟨.loadCurrent, Except.ok current⟩] ++ now) op := by
    intro now op hplans hplan
    obtain ⟨_, state, hhead, hopen⟩ := hplans hplan
    obtain ⟨later, rfl⟩ := List.head?_eq_some_iff.mp hhead
    refine Or.inr ⟨earlier, current, some state, later, ?_, hclosed, hopen⟩
    rw [List.append_assoc]
    rfl
  have hplans : (agentLoop.tick D P J H tickInputs).Follows TickPlans fun _ _ => True := tick_plans
  have hsat := hplans.after hallowed
  rw [List.append_nil] at hsat
  exact hsat.mono fun _ _ _ => trivial

theorem tick_bind {agentLoop : AgentLoop} {tickInputs : TickInputs}
    {f : AgentLoopTick → Routine RunDriverError DriverOutcome}
    (htick : Sat (DriverAllows modelEgressAllowed) Move.push
      (agentLoop.tick D P J H tickInputs) moves fun _ _ => True)
    (hf : ∀ tick, Drives modelEgressAllowed (f tick)) :
    Sat (DriverAllows modelEgressAllowed) Move.push
      ((agentLoop.tick D P J H tickInputs).mapErr .agentLoop >>= f) moves fun _ _ => True := by
  refine sat_bind.mpr (sat_mapErr.mpr (htick.mono fun moves outcome _ => ?_))
  cases outcome with
  | ok tick => exact hf tick moves
  | error fault => cases fault <;> trivial

/-- **The driver plans only when it is allowed**, by induction on the ticks that are left. -/
theorem drive_allows (count : ℕ) :
    Drives inputs.modelEgressAllowed (driveTicks D P J H self inputs count) := by
  induction count with
  | zero => exact fun _ => trivial
  | succ count ih =>
    intro moves
    simp only [driveTicks, consentToModelCall, modelCallMayBeNext, Routine.loadCurrent, sat_bind,
      sat_lift, sat_mapErr]
    refine ⟨.of_not_plan rfl, fun answer => ?_⟩
    cases answer with
    | error error => trivial
    | ok current =>
      simp only [Routine.answered, Sat, Outcome.mapErr]
      split
      · rename_i mayCall hgate
        cases mayCall with
        | true =>
          -- an open gate: no egress, or an announcement
          cases hegress : inputs.modelEgressAllowed with
          | false => trivial
          | true =>
            refine ⟨.of_not_plan rfl, fun control => ?_⟩
            cases control with
            | cancel => trivial
            | continue_ =>
              refine tick_bind (tick_announced ⟨_, rfl⟩) fun tick => ?_
              refine afterTick_drives.bind fun outcome => ?_
              cases outcome with
              | some outcome => exact fun _ => trivial
              | none => exact hegress ▸ ih
        | false =>
          refine tick_bind (tick_overtaken hgate ⟨_, rfl⟩) fun tick => ?_
          refine afterTick_drives.bind fun outcome => ?_
          cases outcome with
          | some outcome => exact fun _ => trivial
          | none => exact ih
      · trivial

/-! ## Single writers -/

variable {store store' : MemoryRunStore} {history : RuntimeHistory}

theorem not_overtaken {before after : List RuntimeMove}
    (ht : Trace (runtimeSystem D P) store history store') (hsingle : SingleWriter history)
    (hsplit : Happening.own history = before ++ after) : ¬ Overtaken before := by
  rintro ⟨earlier, current, next, later, rfl, hclosed, hopen⟩
  rw [List.append_assoc] at hsplit
  have hsame := loads_agree ht hsingle hsplit
  rw [hsame, hopen] at hclosed
  cases hclosed

theorem gate_of_exec {mayCall : Bool}
    (hexec : Exec (runtimeSystem D P) modelCallMayBeNext store history store' (some (.ok mayCall)))
    (hsingle : SingleWriter history) : stateMayCallModel store.projection = .ok mayCall := by
  have hsat : modelCallMayBeNext.Follows (fun _ _ => True) fun moves outcome =>
      ∀ mayCall, outcome = .ok mayCall → ∃ current,
        moves.head? = some ⟨.loadCurrent, Except.ok current⟩ ∧
          stateMayCallModel current = .ok mayCall := by
    simp only [Prog.Follows, modelCallMayBeNext, Routine.loadCurrent, sat_bind, sat_lift, sat_mapErr]
    refine ⟨trivial, fun answer => ?_⟩
    cases answer with
    | error error =>
      intro mayCall h
      cases h
    | ok current => exact fun mayCall h => ⟨current, rfl, h⟩
  obtain ⟨current, hhead, hcurrent⟩ := (hexec.follows hsat).2 _ rfl mayCall rfl
  rw [List.nil_append] at hhead
  rw [← first_load hexec.trace hsingle hhead]
  exact hcurrent

theorem gate_of_plan {agentLoop : AgentLoop} {tickInputs : TickInputs}
    {outcome : Option (Outcome AgentLoopError AgentLoopTick)} {move : RuntimeMove}
    (hexec : Exec (runtimeSystem D P) (agentLoop.tick D P J H tickInputs) store history store'
      outcome)
    (hsingle : SingleWriter history) (hmem : move ∈ Happening.own history)
    (hplan : move.1.isPlan = true) : stateMayCallModel store.projection = .ok true := by
  obtain ⟨before, after, hsplit⟩ := List.append_of_mem hmem
  obtain ⟨_, state, hhead, hopen⟩ := hexec.follows_own tick_plans hsplit hplan
  have hfirst : (Happening.own history).head? = some ⟨.loadCurrent, Except.ok (some state)⟩ := by
    rw [hsplit, List.head?_append, hhead]
    rfl
  rw [← first_load hexec.trace hsingle hfirst]
  exact hopen

/-- **No model egress without consent.** If a tick that is started on a store calls the planner, then
the gate lets a model call through on that store. So a driver that is the only writer calls the
planner only with egress, after an announcement of that call to the observer that lets it go on;
without egress it never does. -/
theorem no_egress_without_consent :
    (∀ agentLoop tickInputs store history store' outcome,
      Exec (runtimeSystem D P) (AgentLoop.tick D P J H agentLoop tickInputs) store history store'
        outcome →
      SingleWriter history → ∀ move ∈ Happening.own history, move.1.isPlan = true →
        stateMayCallModel store.projection = .ok true ∧
        ∀ history' store'' mayCall,
          Exec (runtimeSystem D P) modelCallMayBeNext store history' store''
            (some (.ok mayCall)) →
          SingleWriter history' → mayCall = true) ∧
    ∀ self inputs store history store' outcome,
      Exec (runtimeSystem D P)
        (RunDriver.driveUntilPauseWithModelEgressObserved D P J H self inputs) store history store'
        outcome →
      SingleWriter history →
      (inputs.modelEgressAllowed = false →
        ∀ move ∈ Happening.own history, move.1.isPlan = false) ∧
      ∀ before request answer after,
        Happening.own history = before ++ (⟨.plan request, answer⟩ : RuntimeMove) :: after →
        inputs.modelEgressAllowed = true ∧ Announced before := by
  constructor
  · intro agentLoop tickInputs store history store' outcome hexec hsingle move hmem hplan
    have hopen := gate_of_plan hexec hsingle hmem hplan
    refine ⟨hopen, fun history' store'' mayCall hgate hsingle' => ?_⟩
    have hcall := gate_of_exec hgate hsingle'
    rw [hopen] at hcall
    exact (Except.ok.inj hcall).symm
  · intro self inputs store history store' outcome hexec hsingle
    have hplans : ∀ before move after, Happening.own history = before ++ move :: after →
        move.1.isPlan = true → inputs.modelEgressAllowed = true ∧ Announced before := by
      intro before move after hsplit hplan
      have hallowed := hexec.follows_own (drive_allows self.maxTicks.toNat []) hsplit hplan
      exact hallowed.resolve_right (not_overtaken hexec.trace hsingle hsplit)
    refine ⟨fun hdenied move hmem => ?_, fun before request answer after hsplit =>
      hplans before _ after hsplit rfl⟩
    obtain ⟨before, after, hsplit⟩ := List.append_of_mem hmem
    by_contra hplan
    have hallowed := (hplans before move after hsplit (Bool.not_eq_false _ ▸ hplan)).1
    rw [hdenied] at hallowed
    cases hallowed

end Driver

/-! ## A run with consent -/

/-- A driver of the sample loop. -/
def sampleDriver : RunDriver where
  agentLoop := sampleLoop
  executor := .default
  maxTicks := 8
  nonzero := by decide +kernel

def sampleDriverInputs (modelEgressAllowed : Bool) : DriverInputs where
  tick := sampleTickInputs
  providers := ⟨[]⟩
  adapters := ⟨[]⟩
  modelEgressAllowed := modelEgressAllowed

/-- What the driver does on a created run. -/
def sampleDrive (modelEgressAllowed : Bool) :
    RuntimeHistory × MemoryRunStore × Outcome RunDriverError DriverOutcome :=
  (sampleDriver.driveUntilPauseWithModelEgressObserved flatDigests flatProtocol flatSchemas
    ⟨"linux", "x86_64"⟩ (sampleDriverInputs modelEgressAllowed)).run
    (sampleHost flatDigests timeoutPorts) noOthers (createdStore flatDigests)

/-- With consent the sample run calls the planner once, after an announcement. -/
theorem no_egress_without_consent_sample : ∃ history store' outcome before request answer after,
    Exec (runtimeSystem flatDigests flatProtocol)
      (sampleDriver.driveUntilPauseWithModelEgressObserved flatDigests flatProtocol flatSchemas
        ⟨"linux", "x86_64"⟩ (sampleDriverInputs true)) (createdStore flatDigests) history store'
      outcome ∧
    SingleWriter history ∧
    Happening.own history = before ++ (⟨.plan request, answer⟩ : RuntimeMove) :: after ∧
    Announced before := by
  have hexec := (sampleDriver.driveUntilPauseWithModelEgressObserved flatDigests flatProtocol
    flatSchemas ⟨"linux", "x86_64"⟩ (sampleDriverInputs true)).exec_run
      (memoryHost_step timeoutPorts) (noOthers_accepts flatDigests) (createdStore flatDigests)
  have hsingle := noOthers_single (sampleHost flatDigests timeoutPorts)
    (sampleDriver.driveUntilPauseWithModelEgressObserved flatDigests flatProtocol flatSchemas
      ⟨"linux", "x86_64"⟩ (sampleDriverInputs true)) (createdStore flatDigests)
  have hplans : (Happening.own (sampleDrive true).1).any (fun move => move.1.isPlan) = true := by
    decide
  obtain ⟨⟨op, answer⟩, hmem, hplan⟩ := List.any_eq_true.mp hplans
  obtain ⟨before, after, hsplit⟩ := List.append_of_mem hmem
  cases op with
  | plan request =>
    exact ⟨_, _, _, before, request, answer, after, hexec, hsingle, hsplit,
      (((no_egress_without_consent.2 _ _ _ _ _ _ hexec hsingle).2 before request answer after
        hsplit).2)⟩
  | _ => simp [RuntimeOp.isPlan] at hplan

end Xgeny
