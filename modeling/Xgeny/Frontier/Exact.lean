import Xgeny.Frontier.Graph

set_option autoImplicit false

/-!
# When a frontier exists

`deriveFrontier` succeeds exactly on the schedulable states, and never panics on its way: the
visiting loop lists the steps in a topological order, it finds every dependency already
classified, and its fuel suffices.

* `Schedulable`: a well-formed, acyclic graph whose active steps have released dependencies;
* `Classified`, `Visiting`: the invariants of the assembly and of the loop;
* **`exists_deriveFrontier_iff`**: a frontier exists exactly for schedulable states;
* **`allStepsReceiptCompleted_iff`**: what a frontier of completed steps says.
-/

namespace Xgeny

/-- A step that left `planned` has only released dependencies. -/
def ActiveReleased (state : RunState) (step : StepState) : Prop :=
  step.status ≠ .planned → ∀ d ∈ step.dependsOn,
    ∃ dependency, state.steps[d]? = some dependency ∧ receiptReleasesDependency dependency = true

/-- The states for which a frontier exists. -/
structure Schedulable (state : RunState) : Prop extends WellFormedGraph state where
  acyclic : Acyclic (DependsOn state)
  released : ∀ {id : String} {step : StepState}, state.steps[id]? = some step →
    ActiveReleased state step

/-- The step at `id` releases its dependents. -/
def releasesAt (state : RunState) (id : String) : Bool :=
  (state.steps[id]?).any receiptReleasesDependency

theorem releasesAt_eq {state : RunState} {id : String} {step : StepState}
    (h : state.steps[id]? = some step) : releasesAt state id = receiptReleasesDependency step := by
  rw [releasesAt, h, Option.any_some]

theorem activeReleased_iff {state : RunState} {step : StepState} :
    ActiveReleased state step ↔
      (step.status ≠ .planned → ∀ d ∈ step.dependsOn, releasesAt state d = true) := by
  simp only [ActiveReleased, releasesAt, Option.any_eq_true]

/-! ## Classifying one step -/

section

variable {state : RunState}

/-- What the assembly holds after the steps `order` were visited. -/
structure Classified (state : RunState) (order : List String) (assembly : FrontierAssembly) :
    Prop where
  outcome : ∀ id ∈ order, ∃ step o, state.steps[id]? = some step ∧
    assembly.outcomes[id]? = some o ∧ (o = .satisfied ↔ releasesAt state id = true)
  released : ∀ id ∈ order, ∀ step, state.steps[id]? = some step → ActiveReleased state step
  processed : assembly.processed = order.length
  verified : assembly.verifiedCompletedStepIds = order.filter (releasesAt state)

theorem dedup_eq_nil {α : Type} [DecidableEq α] : ∀ {l : List α}, dedup l = [] ↔ l = []
  | [] => by simp [dedup]
  | [a] => by simp [dedup]
  | a :: b :: rest => by
    rw [dedup]
    split
    · simp [dedup_eq_nil (l := b :: rest)]
    · simp

theorem insertionSort_eq_nil {α : Type} {r : α → α → Prop} [DecidableRel r] {l : List α} :
    l.insertionSort r = [] ↔ l = [] := by
  rw [← List.length_eq_zero_iff, List.length_insertionSort, List.length_eq_zero_iff]

/-- Both lists stay empty exactly while the dependencies seen all release. -/
def Partitioned (state : RunState) (seen : List String)
    (acc : List String × List DependencyBlocker) : Prop :=
  (acc.1 = [] ∧ acc.2 = []) ↔ ∀ d ∈ seen, releasesAt state d = true

variable {order : List String} {assembly : FrontierAssembly}

theorem partitionStep_spec (hC : Classified state order assembly) {d : String} (hd : d ∈ order)
    {seen : List String} {acc : List String × List DependencyBlocker}
    (hacc : Partitioned state seen acc) :
    ∃ acc', assembly.partitionStep state acc d = .ok acc' ∧ Partitioned state (seen ++ [d]) acc' := by
  obtain ⟨step, o, hstep, ho, hsat⟩ := hC.outcome d hd
  have hsplit : (∀ x ∈ seen ++ [d], releasesAt state x = true) ↔
      (∀ x ∈ seen, releasesAt state x = true) ∧ releasesAt state d = true := by
    simp [or_imp, forall_and]
  unfold Partitioned at hacc ⊢
  rw [hsplit, ← hacc, ← hsat]
  unfold FrontierAssembly.partitionStep
  rw [ho]
  cases o with
  | satisfied => exact ⟨acc, rfl, by simp⟩
  | pending => exact ⟨(acc.1 ++ [d], acc.2), rfl, by simp⟩
  | blocked =>
    rw [hstep]
    exact ⟨(acc.1, acc.2 ++ [⟨d, blockerReason step⟩]), rfl, by simp⟩

theorem partitionDependencies_spec (hC : Classified state order assembly) {step : StepState}
    (hdeps : ∀ d ∈ step.dependsOn, d ∈ order) :
    ∃ pending blockers, assembly.partitionDependencies state step = .ok (pending, blockers) ∧
      ((blockers = [] ∧ pending = []) ↔ ∀ d ∈ step.dependsOn, releasesAt state d = true) := by
  have hnil : Partitioned state [] ([], []) := by simp [Partitioned]
  have hstep : ∀ seen acc d acc', (∃ rest, step.dependsOn = seen ++ d :: rest) →
      Partitioned state seen acc → assembly.partitionStep state acc d = .ok acc' →
      Partitioned state (seen ++ [d]) acc' := by
    rintro seen acc d acc' ⟨rest, hrest⟩ hacc hok
    have hd : d ∈ order := hdeps d (by simp [hrest])
    obtain ⟨acc'', hok', hacc'⟩ := partitionStep_spec hC hd hacc
    rw [hok, Except.ok.injEq] at hok'
    rwa [hok']
  have htotal : ∀ seen acc d, (∃ rest, step.dependsOn = seen ++ d :: rest) →
      Partitioned state seen acc → ∃ acc', assembly.partitionStep state acc d = .ok acc' := by
    rintro seen acc d ⟨rest, hrest⟩ hacc
    have hd : d ∈ order := hdeps d (by simp [hrest])
    exact (partitionStep_spec hC hd hacc).imp fun _ h => h.1
  obtain ⟨acc, hacc⟩ := Outcome.foldl_total hnil hstep htotal
  have hfinal := Outcome.foldl_induction hnil hstep hacc
  refine ⟨_, _, by simp only [FrontierAssembly.partitionDependencies, hacc]; rfl, ?_⟩
  rw [dedup_eq_nil, insertionSort_eq_nil, insertionSort_eq_nil, and_comm]
  exact hfinal

theorem recordStatus_spec (assembly : FrontierAssembly) (id : String) (step : StepState)
    (pending : List String) (blockers : List DependencyBlocker) :
    (assembly.recordStatus id step pending blockers).1.outcomes = assembly.outcomes ∧
      ((assembly.recordStatus id step pending blockers).2 = .satisfied ↔
        receiptReleasesDependency step = true) ∧
      (assembly.recordStatus id step pending blockers).1.verifiedCompletedStepIds =
        assembly.verifiedCompletedStepIds ++
          if receiptReleasesDependency step = true then [id] else [] := by
  by_cases hrel : receiptReleasesDependency step = true
  · simp [FrontierAssembly.recordStatus, completed_of_releases hrel, hrel]
  · unfold FrontierAssembly.recordStatus
    cases step.status with
    | planned =>
      by_cases hb : blockers = []
      · by_cases hp : pending = [] <;> simp [hb, hp, hrel]
      · simp [hb, hrel]
    | _ => simp [hrel]

theorem requireReleased_eq_ok {id : String} {step : StepState} {pending : List String}
    {blockers : List DependencyBlocker} {u : Unit} :
    FrontierAssembly.requireReleased id step pending blockers = .ok u ↔
      (step.status ≠ .planned → blockers = [] ∧ pending = []) := by
  unfold FrontierAssembly.requireReleased
  split
  · rename_i h
    simp only [Outcome.bind_eq_ok, Outcome.fail_eq_ok, and_false, exists_false, false_iff]
    exact fun hall => h.2 (hall h.1)
  · rename_i h
    simp only [Outcome.pure_eq_ok, true_iff]
    tauto

theorem recordStep_spec (hC : Classified state order assembly) {id : String} {step : StepState}
    (hid : state.steps[id]? = some step) (hdeps : ∀ d ∈ step.dependsOn, d ∈ order)
    (hnew : id ∉ order) :
    (∀ assembly', assembly.recordStep state id = .ok assembly' →
      Classified state (order ++ [id]) assembly') ∧
      (ActiveReleased state step → ∃ assembly', assembly.recordStep state id = .ok assembly') := by
  obtain ⟨pending, blockers, hpart, hrel⟩ := partitionDependencies_spec hC hdeps
  obtain ⟨houtcomes, hsat, hverified⟩ := recordStatus_spec assembly id step pending blockers
  have hactive : ActiveReleased state step ↔
      FrontierAssembly.requireReleased id step pending blockers = .ok () := by
    rw [activeReleased_iff, requireReleased_eq_ok, hrel]
  simp only [FrontierAssembly.recordStep, Outcome.bind_eq_ok, Outcome.expect_eq_ok, hid, hpart,
    Option.some.injEq, Except.ok.injEq, exists_eq_left', Outcome.exists_unit, Outcome.pure_eq_ok,
    ← hactive]
  constructor
  · rintro assembly' ⟨hact, rfl⟩
    constructor
    · intro x hx
      rcases List.mem_append.mp hx with hx | hx
      · obtain ⟨s, o, hs, ho, hso⟩ := hC.outcome x hx
        have hne : id ≠ x := fun h => hnew (h ▸ hx)
        exact ⟨s, o, hs, by rw [BTreeMap.get_insert_ne _ _ hne, houtcomes, ho], hso⟩
      · rw [List.mem_singleton.mp hx]
        exact ⟨step, _, hid, Std.ExtTreeMap.getElem?_insert_self, by rw [releasesAt_eq hid, hsat]⟩
    · intro x hx s hs
      rcases List.mem_append.mp hx with hx | hx
      · exact hC.released x hx s hs
      · rw [List.mem_singleton.mp hx, hid] at hs
        rwa [← Option.some.inj hs]
    · simp [hC.processed]
    · simp only [hverified, hC.verified, List.filter_append, ← releasesAt_eq hid]
      simp [List.filter_cons]
  · intro hact
    exact ⟨_, hact, rfl⟩

/-! ## Releasing the dependents of a visited step -/

/-- After the children `seen`: each counts one dependency fewer and is ready when it was the last. -/
structure Released (remaining : BTreeMap String ℕ) (ready : BTreeSet String) (seen : List String)
    (acc : BTreeMap String ℕ × BTreeSet String) : Prop where
  counts : ∀ c : String, acc.1[c]? = if c ∈ seen then remaining[c]?.map (· - 1) else remaining[c]?
  ready : ∀ c, c ∈ acc.2 ↔ c ∈ ready ∨ c ∈ seen ∧ remaining[c]? = some 1

theorem releaseChild_eq_ok {acc acc' : BTreeMap String ℕ × BTreeSet String} {child : String} :
    releaseChild acc child = .ok acc' ↔ ∃ n, acc.1[child]? = some (n + 1) ∧
      (acc.1.insert child n, if n = 0 then acc.2.insert child else acc.2) = acc' := by
  unfold releaseChild
  simp only [Outcome.bind_eq_ok, Outcome.expect_eq_ok]
  constructor
  · rintro ⟨count, hcount, hok⟩
    cases count with
    | zero => simp at hok
    | succ n => exact ⟨n, hcount, by simpa using hok⟩
  · rintro ⟨n, hn, rfl⟩
    exact ⟨n + 1, hn, rfl⟩

theorem Released.snoc {remaining : BTreeMap String ℕ} {ready : BTreeSet String}
    {seen : List String} {acc acc' : BTreeMap String ℕ × BTreeSet String} {child : String}
    (h : Released remaining ready seen acc) (hnew : child ∉ seen)
    (hok : releaseChild acc child = .ok acc') :
    Released remaining ready (seen ++ [child]) acc' := by
  obtain ⟨n, hn, rfl⟩ := releaseChild_eq_ok.mp hok
  rw [h.counts, if_neg hnew] at hn
  constructor
  · intro c
    rw [BTreeMap.get_insert]
    by_cases hc : child = c
    · subst hc
      simp [hn]
    · rw [if_neg hc, h.counts]
      simp [Ne.symm hc]
  · intro c
    have hmem : c ∈ (if n = 0 then acc.2.insert child else acc.2) ↔
        c ∈ acc.2 ∨ (child = c ∧ n = 0) := by
      split
      · rename_i h0
        rw [BTreeSet.mem_insert_iff]
        tauto
      · tauto
    rw [hmem, h.ready, List.mem_append, List.mem_singleton]
    by_cases hc : child = c
    · subst hc
      simp [hn, hnew]
    · simp [hc, Ne.symm hc]

theorem releaseChildren_spec {remaining : BTreeMap String ℕ} {ready : BTreeSet String}
    {children : List String} (hnodup : children.Nodup)
    (hpos : ∀ c ∈ children, ∃ n, remaining[c]? = some (n + 1)) :
    ∃ acc, Outcome.foldl releaseChild (remaining, ready) children = .ok acc ∧
      Released remaining ready children acc := by
  have hnil : Released remaining ready [] (remaining, ready) := ⟨by simp, by simp⟩
  have hfresh : ∀ {seen child rest}, children = seen ++ child :: rest → child ∉ seen := by
    intro seen child rest hrest hmem
    rw [hrest] at hnodup
    exact (List.nodup_append.mp hnodup).2.2 child hmem child List.mem_cons_self rfl
  have hstep : ∀ seen acc child acc', (∃ rest, children = seen ++ child :: rest) →
      Released remaining ready seen acc → releaseChild acc child = .ok acc' →
      Released remaining ready (seen ++ [child]) acc' := fun _ _ _ _ ⟨_, hrest⟩ hI hok =>
    hI.snoc (hfresh hrest) hok
  obtain ⟨acc, hacc⟩ := Outcome.foldl_total hnil hstep fun seen acc child ⟨rest, hrest⟩ hI => by
    obtain ⟨n, hn⟩ := hpos child (by rw [hrest]; simp)
    refine ⟨_, releaseChild_eq_ok.mpr ⟨n, ?_, rfl⟩⟩
    rw [hI.counts, if_neg (hfresh hrest), hn]
  exact ⟨acc, hacc, Outcome.foldl_induction hnil hstep hacc⟩

/-! ## The visiting loop -/

theorem countP_unvisited {deps order : List String} {id : String} (hnodup : deps.Nodup)
    (hid : id ∉ order) : deps.countP (fun d => decide (d ∉ order)) =
      deps.countP (fun d => decide (d ∉ order ++ [id])) + if id ∈ deps then 1 else 0 := by
  induction deps with
  | nil => simp
  | cons d deps ih =>
    have ih := ih (List.nodup_cons.mp hnodup).2
    have hd := (List.nodup_cons.mp hnodup).1
    rw [List.countP_cons, List.countP_cons, ih]
    by_cases hdid : d = id
    · subst hdid
      simp [hd, hid]
    · simp [hdid, Ne.symm hdid]
      omega

theorem countP_unvisited_eq_zero {deps order : List String} :
    deps.countP (fun d => decide (d ∉ order)) = 0 ↔ ∀ d ∈ deps, d ∈ order := by
  rw [List.countP_eq_zero]
  simp only [decide_eq_true_eq, Decidable.not_not]

/-- The invariant of the loop after the steps `order` were visited. -/
structure Visiting (state : RunState) (order : List String) (remaining : BTreeMap String ℕ)
    (ready : BTreeSet String) (assembly : FrontierAssembly) : Prop where
  nodup : order.Nodup
  known : ∀ id ∈ order, id ∈ state.steps
  topo : TopoOrder (DependsOn state) order
  counts : ∀ {id : String} {step : StepState}, state.steps[id]? = some step →
    remaining[id]? = some (step.dependsOn.countP fun d => decide (d ∉ order))
  ready : ∀ id, id ∈ ready ↔ id ∉ order ∧
    ∃ step, state.steps[id]? = some step ∧ ∀ d ∈ step.dependsOn, d ∈ order
  classified : Classified state order assembly

theorem Visiting.length_le {remaining : BTreeMap String ℕ} {ready : BTreeSet String}
    (h : Visiting state order remaining ready assembly) : order.length ≤ state.steps.size := by
  have hsub : order ⊆ state.steps.keys := fun id hid => Std.ExtTreeMap.mem_keys.mpr (h.known id hid)
  calc order.length ≤ state.steps.keys.length := (List.subperm_of_subset h.nodup hsub).length_le
    _ = state.steps.size := Std.ExtTreeMap.length_keys

theorem visiting_start {graph : ValidatedFrontierGraph} (hG : GraphIndex state graph) :
    Visiting state [] graph.remainingDependencies graph.zeroIndegree {} where
  nodup := List.nodup_nil
  known := by simp
  topo := TopoOrder.nil
  counts := by
    intro id step hstep
    rw [hG.remaining, hstep]
    simp
  ready := by
    intro id
    simp [hG.ready, List.eq_nil_iff_forall_not_mem]
  classified := ⟨by simp, by simp, rfl, rfl⟩

theorem Visiting.snoc {remaining : BTreeMap String ℕ} {ready : BTreeSet String}
    {assembly' : FrontierAssembly} {acc : BTreeMap String ℕ × BTreeSet String} {id : String}
    {children : List String} (hg : WellFormedGraph state)
    (h : Visiting state order remaining ready assembly) (hid : id ∈ ready)
    (hchildren : ∀ c, c ∈ children ↔ DependsOn state c id)
    (hC : Classified state (order ++ [id]) assembly')
    (hacc : Released remaining (ready.erase id) children acc) :
    Visiting state (order ++ [id]) acc.1 acc.2 assembly' := by
  obtain ⟨hnew, step, hstep, hdeps⟩ := (h.ready id).mp hid
  have hcount : ∀ {c : String} {s : StepState}, state.steps[c]? = some s →
      remaining[c]? = some (s.dependsOn.countP (fun d => decide (d ∉ order ++ [id])) +
        if id ∈ s.dependsOn then 1 else 0) := fun hs => by
    rw [h.counts hs, countP_unvisited (hg.nodup hs) hnew]
  have hchild : ∀ {c : String} {s : StepState}, state.steps[c]? = some s →
      (c ∈ children ↔ id ∈ s.dependsOn) := fun hs => by
    rw [hchildren]
    exact ⟨fun ⟨s', hs', hm⟩ => by rw [hs] at hs'; rwa [Option.some.inj hs'], fun hm => ⟨_, hs, hm⟩⟩
  refine ⟨?_, ?_, ?_, ?_, ?_, hC⟩
  · exact List.nodup_append.mpr ⟨h.nodup, List.nodup_singleton id, by
      rintro a ha b hb rfl
      exact hnew (by simpa [List.mem_singleton.mp hb] using ha)⟩
  · intro x hx
    rcases List.mem_append.mp hx with hx | hx
    · exact h.known x hx
    · rw [List.mem_singleton.mp hx]
      exact BTreeMap.mem_iff_exists.mpr ⟨step, hstep⟩
  · refine h.topo.snoc hnew ?_
    rintro b ⟨s, hs, hb⟩
    rw [hstep] at hs
    exact hdeps b (Option.some.inj hs ▸ hb)
  · intro c s hs
    rw [hacc.counts, hcount hs]
    by_cases hc : id ∈ s.dependsOn
    · simp [(hchild hs).mpr hc, hc]
    · simp [mt (hchild hs).mp hc, hc]
  · intro c
    rw [hacc.ready, BTreeSet.mem_erase_iff, h.ready]
    constructor
    · rintro (⟨hne, hco, s, hs, hsd⟩ | ⟨hcc, hone⟩)
      · refine ⟨by simp [hco, Ne.symm hne], s, hs, fun d hd => List.mem_append_left _ (hsd d hd)⟩
      · obtain ⟨s, hs, hcid⟩ := (hchildren c).mp hcc
        have hco : c ∉ order := fun hco => hnew (h.topo c hco id ⟨s, hs, hcid⟩).1
        have hne : c ≠ id := by
          rintro rfl
          exact hg.irreflexive hs hcid
        rw [hcount hs, if_pos hcid, Option.some.injEq, Nat.add_eq_right,
          countP_unvisited_eq_zero] at hone
        exact ⟨by simp [hco, hne], s, hs, hone⟩
    · rintro ⟨hco, s, hs, hsd⟩
      obtain ⟨hco, hne⟩ : c ∉ order ∧ c ≠ id := by simpa [not_or] using hco
      by_cases hcid : id ∈ s.dependsOn
      · refine Or.inr ⟨(hchild hs).mpr hcid, ?_⟩
        rw [hcount hs, if_pos hcid, Option.some.injEq, Nat.add_eq_right, countP_unvisited_eq_zero]
        exact hsd
      · refine Or.inl ⟨Ne.symm hne, hco, s, hs, fun d hd => ?_⟩
        have := hsd d hd
        rw [List.mem_append, List.mem_singleton] at this
        rcases this with hd' | rfl
        · exact hd'
        · exact absurd hd hcid

theorem visitReady_done {dependents : BTreeMap String (List String)} {fuel : ℕ}
    {remaining : BTreeMap String ℕ} {ready : BTreeSet String} (h : BTreeSet.first? ready = none) :
    visitReady state dependents fuel remaining ready assembly = .ok assembly := by
  unfold visitReady
  rw [h]

theorem visitReady_next {dependents : BTreeMap String (List String)} {fuel : ℕ}
    {remaining : BTreeMap String ℕ} {ready : BTreeSet String} {id : String}
    (h : BTreeSet.first? ready = some id) :
    visitReady state dependents (fuel + 1) remaining ready assembly = (do
      let assembly ← assembly.recordStep state id
      let children ← Outcome.expect dependents[id]? "no entry found for key"
      let (remaining, ready) ← Outcome.foldl releaseChild (remaining, ready.erase id) children
      visitReady state dependents fuel remaining ready assembly) := by
  conv_lhs => unfold visitReady
  rw [h]

/-- One round of the loop: the children of the step are known and released, the invariant is kept when
the step is filed, and filing only fails at a step that is active too early. -/
theorem Visiting.round {graph : ValidatedFrontierGraph} {remaining : BTreeMap String ℕ}
    {ready : BTreeSet String} {id : String} (hg : WellFormedGraph state) (hG : GraphIndex state graph)
    (hV : Visiting state order remaining ready assembly) (hid : id ∈ ready) :
    ∃ children acc, graph.dependents[id]? = some children ∧
      Outcome.foldl releaseChild (remaining, ready.erase id) children = .ok acc ∧
      (∀ assembly', assembly.recordStep state id = .ok assembly' →
        Visiting state (order ++ [id]) acc.1 acc.2 assembly') ∧
      ((∀ {id : String} {step : StepState}, state.steps[id]? = some step →
        ActiveReleased state step) → ∃ assembly', assembly.recordStep state id = .ok assembly') := by
  obtain ⟨hnew, step, hstep, hdeps⟩ := (hV.ready id).mp hid
  obtain ⟨children, hchildren, hnodup, hmem⟩ :=
    hG.dependents id (BTreeMap.mem_iff_exists.mpr ⟨step, hstep⟩)
  obtain ⟨hsound, htotal⟩ := recordStep_spec hV.classified hstep hdeps hnew
  -- every child still counts the step that is being visited
  have hpos : ∀ c ∈ children, ∃ n, remaining[c]? = some (n + 1) := by
    intro c hc
    obtain ⟨s, hs, hcid⟩ := (hmem c).mp hc
    rw [hV.counts hs, countP_unvisited (hg.nodup hs) hnew, if_pos hcid]
    exact ⟨_, rfl⟩
  obtain ⟨acc, hacc, hreleased⟩ :=
    @releaseChildren_spec remaining (ready.erase id) children hnodup hpos
  exact ⟨children, acc, hchildren, hacc,
    fun assembly' hrec => hV.snoc hg hid hmem (hsound _ hrec) hreleased,
    fun hall => htotal (hall hstep)⟩

/-- **Loop rule.** What every filed step keeps holds at the end, when no step is ready any more. -/
theorem visitReady_induction {graph : ValidatedFrontierGraph} (hg : WellFormedGraph state)
    (hG : GraphIndex state graph) {J : List String → FrontierAssembly → Prop}
    (hJ : ∀ {order remaining ready assembly id assembly'},
      Visiting state order remaining ready assembly → id ∈ ready → J order assembly →
      assembly.recordStep state id = .ok assembly' → J (order ++ [id]) assembly') (fuel : ℕ) :
    ∀ {order remaining ready assembly result}, Visiting state order remaining ready assembly →
      J order assembly →
      visitReady state graph.dependents fuel remaining ready assembly = .ok result →
      ∃ order' remaining', Visiting state order' remaining' ∅ result ∧ J order' result := by
  induction fuel with
  | zero =>
    intro order remaining ready assembly result hV hfiled hresult
    cases hmin : BTreeSet.first? ready with
    | none =>
      rw [visitReady_done hmin, Except.ok.injEq] at hresult
      rw [← hresult, ← BTreeSet.first?_eq_none_iff.mp hmin]
      exact ⟨order, remaining, hV, hfiled⟩
    | some id =>
      unfold visitReady at hresult
      rw [hmin] at hresult
      simp at hresult
  | succ fuel ih =>
    intro order remaining ready assembly result hV hfiled hresult
    cases hmin : BTreeSet.first? ready with
    | none =>
      rw [visitReady_done hmin, Except.ok.injEq] at hresult
      rw [← hresult, ← BTreeSet.first?_eq_none_iff.mp hmin]
      exact ⟨order, remaining, hV, hfiled⟩
    | some id =>
      have hid := BTreeSet.mem_of_first?_eq_some hmin
      obtain ⟨children, acc, hchildren, hacc, hsound, _⟩ := hV.round hg hG hid
      rw [visitReady_next hmin] at hresult
      simp only [Outcome.bind_eq_ok, Outcome.expect_eq_ok, hchildren, Option.some.injEq,
        exists_eq_left', hacc, Except.ok.injEq] at hresult
      obtain ⟨assembly', hrec, hresult⟩ := hresult
      exact ih (hsound _ hrec) (hJ hV hid hfiled hrec) hresult

/-- **The loop ends.** Started with enough fuel, it only fails at a step that is active too early. -/
theorem exists_visitReady {graph : ValidatedFrontierGraph} (hg : WellFormedGraph state)
    (hG : GraphIndex state graph)
    (hall : ∀ {id : String} {step : StepState}, state.steps[id]? = some step →
      ActiveReleased state step) (fuel : ℕ) :
    ∀ {order remaining ready assembly}, Visiting state order remaining ready assembly →
      state.steps.size < order.length + fuel →
      ∃ result, visitReady state graph.dependents fuel remaining ready assembly = .ok result := by
  induction fuel with
  | zero =>
    intro order remaining ready assembly hV hfuel
    exact absurd hV.length_le (by omega)
  | succ fuel ih =>
    intro order remaining ready assembly hV hfuel
    cases hmin : BTreeSet.first? ready with
    | none =>
      rw [visitReady_done hmin]
      exact ⟨assembly, rfl⟩
    | some id =>
      obtain ⟨children, acc, hchildren, hacc, hsound, htotal⟩ :=
        hV.round hg hG (BTreeSet.mem_of_first?_eq_some hmin)
      obtain ⟨assembly', hrec⟩ := htotal hall
      have hlen : state.steps.size < (order ++ [id]).length + fuel := by
        rw [List.length_append, List.length_singleton]
        omega
      obtain ⟨result, hresult⟩ := ih (hsound _ hrec) hlen
      refine ⟨result, ?_⟩
      rw [visitReady_next hmin]
      simp only [Outcome.bind_eq_ok, Outcome.expect_eq_ok, hchildren, Option.some.injEq,
        exists_eq_left', hacc, Except.ok.injEq]
      exact ⟨assembly', hrec, hresult⟩

theorem Visiting.complete {remaining : BTreeMap String ℕ} (hg : WellFormedGraph state)
    (hacyclic : Acyclic (DependsOn state)) (h : Visiting state order remaining ∅ assembly) :
    ∀ id ∈ state.steps, id ∈ order := by
  intro id hid
  by_contra hnot
  have hmem : ∀ {x}, x ∈ state.steps.keys.toFinset ↔ x ∈ state.steps := by simp
  obtain ⟨x, hx, hxo, hdeps⟩ := exists_ready hacyclic state.steps.keys.toFinset
    (fun a _ b ⟨step, hstep, hb⟩ => hmem.mpr (hg.known hstep hb)) (hmem.mpr hid) hnot
  obtain ⟨step, hstep⟩ := BTreeMap.mem_iff_exists.mp (hmem.mp hx)
  have hready := (h.ready x).mpr ⟨hxo, step, hstep, fun d hd => hdeps d ⟨step, hstep, hd⟩⟩
  simp at hready

theorem Visiting.complete_iff {remaining : BTreeMap String ℕ} {ready : BTreeSet String}
    (h : Visiting state order remaining ready assembly) :
    assembly.processed = state.steps.size ↔ ∀ id ∈ state.steps, id ∈ order := by
  rw [h.classified.processed]
  have hkeys : state.steps.keys.Nodup := Std.ExtTreeMap.nodup_keys
  constructor
  · intro hlen id hid
    have hsub : order ⊆ state.steps.keys := fun x hx =>
      Std.ExtTreeMap.mem_keys.mpr (h.known x hx)
    have hperm := (List.subperm_of_subset h.nodup hsub).perm_of_length_le
      (by rw [hlen, Std.ExtTreeMap.length_keys])
    exact hperm.mem_iff.mpr (Std.ExtTreeMap.mem_keys.mpr hid)
  · intro hall
    refine le_antisymm h.length_le ?_
    have hsub : state.steps.keys ⊆ order := fun x hx => hall x (Std.ExtTreeMap.mem_keys.mp hx)
    have := (List.subperm_of_subset hkeys hsub).length_le
    rwa [Std.ExtTreeMap.length_keys] at this

/-! ## The frontier -/

theorem deriveFrontier_eq_ok {frontier : WorkFrontier} (h : deriveFrontier state = .ok frontier) :
    Schedulable state ∧ frontier.totalSteps = state.steps.size ∧
      ∃ order : List String, order.length = state.steps.size ∧
        (∀ id, id ∈ order ↔ id ∈ state.steps) ∧
        frontier.verifiedCompletedStepIds.length = (order.filter (releasesAt state)).length := by
  simp only [deriveFrontier, Outcome.bind_eq_ok, Outcome.exists_unit, Outcome.failIf_eq_ok,
    Outcome.pure_eq_ok, ne_eq, Decidable.not_not] at h
  obtain ⟨graph, hgraph, assembly, hassembly, hprocessed, rfl⟩ := h
  obtain ⟨hg, hG⟩ := validateFrontierGraph_eq_ok hgraph
  obtain ⟨order, remaining, hV, _⟩ := visitReady_induction hg hG (J := fun _ _ => True)
    (fun _ _ _ _ => trivial) _ (visiting_start hG) trivial hassembly
  have hall := hV.complete_iff.mp hprocessed
  have hmem : ∀ id, id ∈ order ↔ id ∈ state.steps := fun id => ⟨hV.known id, hall id⟩
  refine ⟨⟨hg, ?_, ?_⟩, rfl, order, ?_, hmem, ?_⟩
  · refine hV.topo.acyclic ?_
    rintro a b ⟨step, hstep, _⟩
    exact hall a (BTreeMap.mem_iff_exists.mpr ⟨step, hstep⟩)
  · intro id step hstep
    exact hV.classified.released id (hall id (BTreeMap.mem_iff_exists.mpr ⟨step, hstep⟩)) step hstep
  · rw [← hV.classified.processed, hprocessed]
  · simp only [FrontierAssembly.finish, List.length_insertionSort, hV.classified.verified]

/-- **A frontier exists exactly for schedulable states.** -/
theorem exists_deriveFrontier_iff :
    (∃ frontier, deriveFrontier state = .ok frontier) ↔ Schedulable state := by
  constructor
  · rintro ⟨frontier, h⟩
    exact (deriveFrontier_eq_ok h).1
  · intro hS
    obtain ⟨graph, hgraph⟩ := exists_validateFrontierGraph hS.toWellFormedGraph
    obtain ⟨hg, hG⟩ := validateFrontierGraph_eq_ok hgraph
    obtain ⟨assembly, hassembly⟩ := exists_visitReady hg hG hS.released (state.steps.size + 1)
      (visiting_start hG) (by simp)
    obtain ⟨order, remaining, hV, _⟩ := visitReady_induction hg hG (J := fun _ _ => True)
      (fun _ _ _ _ => trivial) _ (visiting_start hG) trivial hassembly
    have hprocessed := hV.complete_iff.mpr (hV.complete hg hS.acyclic)
    refine ⟨assembly.finish state, ?_⟩
    simp only [deriveFrontier, Outcome.bind_eq_ok, Outcome.exists_unit, Outcome.failIf_eq_ok,
      Outcome.pure_eq_ok, ne_eq, Decidable.not_not]
    exact ⟨graph, hgraph, assembly, hassembly, hprocessed, rfl⟩

/-- **All steps completed.** The plan has a step, and every step releases its dependents. -/
theorem allStepsReceiptCompleted_iff {frontier : WorkFrontier}
    (h : deriveFrontier state = .ok frontier) : frontier.allStepsReceiptCompleted = true ↔
      0 < state.steps.size ∧ ∀ (id : String) (step : StepState), state.steps[id]? = some step →
        receiptReleasesDependency step = true := by
  obtain ⟨_, htotal, order, hlen, hmem, hverified⟩ := deriveFrontier_eq_ok h
  simp only [WorkFrontier.allStepsReceiptCompleted, Bool.and_eq_true, decide_eq_true_eq,
    beq_iff_eq, htotal, hverified]
  rw [← hlen, List.length_filter_eq_length_iff]
  refine and_congr_right fun _ => ⟨fun hall id step hstep => ?_, fun hall id hid => ?_⟩
  · rw [← releasesAt_eq hstep]
    exact hall id ((hmem id).mpr (BTreeMap.mem_iff_exists.mpr ⟨step, hstep⟩))
  · obtain ⟨step, hstep⟩ := BTreeMap.mem_iff_exists.mp ((hmem id).mp hid)
    rw [releasesAt_eq hstep]
    exact hall id step hstep

end

end Xgeny
