import Xgeny.Runs.CallProgress
import Xgeny.Runtime.Operations
import Xgeny.Store.Refinement

set_option autoImplicit false

/-!
# The world of the runtime

The runtime works on a store that other components use at the same time. A call of the store answers
as the store does, or it fails: a fault may be reported before anything was written, or after. The
ports answer whatever they like.

* `runtimeSystem`: the store, its answers, and the appends of others;
* `StoreMove`: what an accepted append of anyone does to the store;
* `extends_of_trace`, `committed_of_trace`: along every history the store stays coherent, its journal
  only grows, and the records that a routine committed stand in it in their order;
* `material_of_trace`: along every history the materials are kept;
* `Seen`: a state that was the projection at some moment; **`Seen.current`**: if a seen state has the
  head of the store, it is its projection.
-/

namespace Xgeny

/-- An error that a damaged or unavailable database can cause; the others are verdicts of
`prepare_commit` on the event. -/
def StoreError.mayBeFault : StoreError → Bool
  | .headConflict _ _ => false
  | .transition _ => false
  | .duplicateEventId _ => false
  | _ => true

section

variable (D : Digests) (P : Protocol)

/-- An accepted append of some component. -/
def MemoryRunStore.Accepts (store : MemoryRunStore) (commit : Commit) (store' : MemoryRunStore) :
    Prop :=
  ∃ call, store.call D P call = .ok (commit, store')

/-- The answers of an operation, with the store after it. -/
def StoreAnswers (store store' : MemoryRunStore) : (op : RuntimeOp) → op.Response → Prop
  | .loadCurrent, answer =>
    store' = store ∧ ∀ current, answer = Except.ok current → current = store.projection
  | .loadPlannedInvocation stepId, answer =>
    store' = store ∧ ∀ found, answer = Except.ok found → found = store.planInputs[stepId]?
  | .loadInvocationMaterial effectId, answer =>
    store' = store ∧ ∀ found, answer = Except.ok found → found = store.materials[effectId]?
  | .append call, Except.ok commit => store.call D P call = .ok (commit, store')
  | .append call, Except.error error =>
    (store.call D P call = .error (.err error) ∧ store' = store) ∨
      (error.mayBeFault = true ∧
        (store' = store ∨ ∃ commit, store.call D P call = .ok (commit, store')))
  | .verifyStep _, _ =>
    Relation.ReflTransGen (fun s s' => ∃ commit, s.Accepts D P commit s') store store'
  | _, _ => store' = store

/-- The store as the runtime sees it. -/
def runtimeSystem : System RuntimeOp RuntimeOp.Response MemoryRunStore Commit where
  step store op answer store' := StoreAnswers D P store store' op answer
  other store commit store' := store.Accepts D P commit store'

/-- What happens around a routine. -/
abbrev RuntimeHistory := List (Happening RuntimeOp RuntimeOp.Response Commit)

/-- The store is coherent. -/
abbrev MemoryRunStore.Sound (store : MemoryRunStore) : Prop :=
  Coherent D P store.toRunData store.index

/-- What an accepted append does to the store. -/
structure StoreMove (store : MemoryRunStore) (call : AppendCall) (commit : Commit)
    (store' : MemoryRunStore) : Prop where
  expected : call.expected = store.index.head
  event : commit.record.event = call.event
  sound : store'.Sound D P
  records : store'.records = store.records ++ [commit.record]
  projection : store'.projection = some commit.state

end

variable {D : Digests} {P : Protocol} {store store' : MemoryRunStore} {call : AppendCall}
  {commit : Commit} {state : RunState}

/-! ## One append -/

/-- **What an accepted append does.** -/
theorem MemoryRunStore.Sound.move (h : store.Sound D P)
    (hcall : store.call D P call = .ok (commit, store')) : StoreMove D P store call commit store' := by
  obtain ⟨hhead, hp⟩ := prepareCommit_eq_ok (MemoryRunStore.call_prepared hcall)
  obtain ⟨anchors, hcommitted⟩ := MemoryRunStore.call_eq_ok h hcall
  exact ⟨hhead, hp.carries, hcommitted.coherent h, by rw [hcommitted.data]; rfl,
    by rw [hcommitted.data]; rfl⟩

theorem MemoryRunStore.Sound.replay (h : store.Sound D P) (hstate : store.projection = some state) :
    replay D store.records = .ok state := by
  refine replay_eq_ok.mpr ?_
  rw [h.journal.replayed, ← h.journal.projection, hstate]

theorem MemoryRunStore.Sound.head (h : store.Sound D P) (hstate : store.projection = some state) :
    store.index.head = .fromState state := by
  obtain ⟨last, hlast, hsequence, hdigest⟩ := replay_getLast (h.replay hstate)
  rw [VerifiedRunIndex.head, h.journal.last, hlast]
  show last.head = .fromState state
  rw [EventRecord.head, hsequence, hdigest, ExpectedHead.fromState]

theorem MemoryRunStore.Sound.records_empty (h : store.Sound D P)
    (hstate : store.projection = none) : store.records = [] := by
  have hreplayed := h.journal.replayed
  rw [← h.journal.projection, hstate] at hreplayed
  exact EventLog.run_eq_none hreplayed

theorem MemoryRunStore.Sound.head_empty (h : store.Sound D P) (hstate : store.projection = none) :
    store.index.head = .empty := by
  rw [VerifiedRunIndex.head, h.journal.last, h.records_empty hstate]
  rfl

theorem MemoryRunStore.sound_new : MemoryRunStore.new.Sound D P := Coherent.empty

/-! ## Along a history -/

/-- The store stays sound and its journal only grows. -/
structure Extends (D : Digests) (P : Protocol) (store store' : MemoryRunStore) : Prop where
  sound : store'.Sound D P
  records : store.records <+: store'.records

theorem Extends.refl (h : store.Sound D P) : Extends D P store store := ⟨h, List.prefix_rfl⟩

theorem Extends.trans {store'' : MemoryRunStore} (h : Extends D P store store')
    (h' : Extends D P store' store'') : Extends D P store store'' :=
  ⟨h'.sound, h.records.trans h'.records⟩

theorem Extends.at {i : ℕ} {record : EventRecord} (h : Extends D P store store')
    (hi : EventLog.At store.records i record) : EventLog.At store'.records i record := by
  obtain ⟨more, hmore⟩ := h.records
  rw [EventLog.At, ← hmore, List.getElem?_append_left hi.lt_length]
  exact hi

theorem StoreMove.extends (h : StoreMove D P store call commit store') : Extends D P store store' :=
  ⟨h.sound, h.records ▸ List.prefix_append _ _⟩

theorem MemoryRunStore.Sound.accepts (h : store.Sound D P)
    (haccepts : store.Accepts D P commit store') : Extends D P store store' := by
  obtain ⟨call, hcall⟩ := haccepts
  exact (h.move hcall).extends

/-- **One answer.** -/
theorem MemoryRunStore.Sound.answers (h : store.Sound D P) {op : RuntimeOp} {answer : op.Response}
    (hstep : StoreAnswers D P store store' op answer) : Extends D P store store' := by
  cases op with
  | loadCurrent | loadPlannedInvocation | loadInvocationMaterial =>
    obtain ⟨rfl, -⟩ := hstep
    exact .refl h
  | append call =>
    cases answer with
    | ok commit => exact (h.move hstep).extends
    | error error =>
      rcases hstep with ⟨-, rfl⟩ | ⟨-, rfl | ⟨commit, hcall⟩⟩
      · exact .refl h
      · exact .refl h
      · exact (h.move hcall).extends
  | verifyStep =>
    induction hstep with
    | refl => exact .refl h
    | tail _ hlast ih =>
      obtain ⟨commit, haccepts⟩ := hlast
      exact ih.trans (ih.sound.accepts haccepts)
  | _ =>
    obtain rfl : store' = store := hstep
    exact .refl h

variable {history : RuntimeHistory}

/-- **Along every history the store stays sound and its journal only grows.** -/
theorem extends_of_trace (h : store.Sound D P)
    (ht : Trace (runtimeSystem D P) store history store') : Extends D P store store' := by
  refine ht.invariant (.refl h) ?_ ?_
  · intro w op answer w' hw hstep
    exact hw.trans (hw.sound.answers hstep)
  · intro w commit w' hw hother
    exact hw.trans (hw.sound.accepts hother)

/-- The record that a move has committed. -/
def committed? : RuntimeMove → Option EventRecord
  | ⟨.append _, Except.ok commit⟩ => some commit.record
  | _ => none

/-- The records that some moves have committed. -/
def committed (moves : List RuntimeMove) : List EventRecord := moves.filterMap committed?

/-- **The records that a routine has committed stand in the journal, in their order.** -/
theorem committed_of_trace (h : store.Sound D P)
    (ht : Trace (runtimeSystem D P) store history store') :
    ∃ added, store'.records = store.records ++ added ∧
      (committed (Happening.own history)).Sublist added := by
  induction ht with
  | nil => exact ⟨[], by simp, List.nil_sublist _⟩
  | @did op answer w w' w'' history hstep hrest ih =>
    obtain ⟨added, hadded, hsub⟩ := ih (h.answers hstep).sound
    obtain ⟨first, hfirst⟩ := (h.answers hstep).records
    refine ⟨first ++ added, by rw [hadded, ← hfirst, List.append_assoc], ?_⟩
    rw [Happening.own_did, committed, List.filterMap_cons]
    cases hc : committed? ⟨op, answer⟩ with
    | none => exact hsub.trans (List.sublist_append_right _ _)
    | some record =>
      -- only a successful append commits a record
      obtain ⟨call, commit, rfl, hanswer, rfl⟩ : ∃ call commit, ∃ hop : op = .append call,
          hop ▸ answer = Except.ok commit ∧ commit.record = record := by
        cases op with
        | append call =>
          cases answer with
          | ok commit => exact ⟨call, commit, rfl, rfl, Option.some.inj hc⟩
          | error error => simp [committed?] at hc
        | _ => simp [committed?] at hc
      obtain rfl : answer = Except.ok commit := hanswer
      have hmove := (h.move hstep).records
      rw [hmove, List.append_cancel_left_eq] at hfirst
      subst hfirst
      exact hsub.cons_cons _
  | @other commit w w' w'' history hother hrest ih =>
    obtain ⟨added, hadded, hsub⟩ := ih (h.accepts hother).sound
    obtain ⟨first, hfirst⟩ := (h.accepts hother).records
    exact ⟨first ++ added, by rw [hadded, ← hfirst, List.append_assoc],
      hsub.trans (List.sublist_append_right _ _)⟩

/-! ## Materials -/

theorem MemoryRunStore.Sound.keepsMaterial (h : store.Sound D P)
    (hcall : store.call D P call = .ok (commit, store')) {effectId : String}
    {record : InvocationMaterialRecord} (hrecord : store.materials[effectId]? = some record) :
    store'.materials[effectId]? = some record := by
  obtain ⟨anchors, hcommitted⟩ := MemoryRunStore.call_eq_ok h hcall
  have hdata : store'.materials = (store.toRunData.commit commit call.sidecars).materials :=
    congrArg RunData.materials hcommitted.data
  rw [hdata, RunData.commit]
  cases hmaterial : call.sidecars.material with
  | none => exact hrecord
  | some material =>
    -- a material comes under a new key
    have hnew := hcommitted.accepted.material material hmaterial
    have hne : material.effectId ≠ effectId := by
      rintro rfl
      exact hnew ((h.material.keys _).mp (BTreeMap.mem_iff_exists.mpr ⟨record, hrecord⟩))
    rwa [BTreeMap.get_insert_ne _ _ hne]

theorem withInvocationMaterial_stored {expected : ExpectedHead} {event : RunEvent}
    {record : InvocationMaterialRecord}
    (h : store.call D P (.withInvocationMaterial expected event record) = .ok (commit, store')) :
    store'.materials[record.effectId]? = some record := by
  simp only [MemoryRunStore.call, MemoryRunStore.appendWithInvocationMaterial, Outcome.bind_eq_ok,
    Outcome.exists_unit] at h
  obtain ⟨-, -, prepared, -, -, h⟩ := h
  split at h
  · simp only [Outcome.bind_eq_ok, Outcome.pure_eq_ok, Prod.mk.injEq] at h
    obtain ⟨_, -, _, -, _, -, -, rfl⟩ := h
    exact Std.ExtTreeMap.getElem?_insert_self
  · simp at h

/-- **Materials are kept along every history.** -/
theorem material_of_trace (h : store.Sound D P)
    (ht : Trace (runtimeSystem D P) store history store') {effectId : String}
    {record : InvocationMaterialRecord} (hrecord : store.materials[effectId]? = some record) :
    store'.materials[effectId]? = some record := by
  have hkept : ∀ w w' : MemoryRunStore, (∃ commit, w.Accepts D P commit w') →
      w.Sound D P ∧ w.materials[effectId]? = some record →
      w'.Sound D P ∧ w'.materials[effectId]? = some record := by
    rintro w w' ⟨commit, call, hcall⟩ ⟨hsound, hw⟩
    exact ⟨(hsound.move hcall).sound, hsound.keepsMaterial hcall hw⟩
  refine (ht.invariant (I := fun w => w.Sound D P ∧ w.materials[effectId]? = some record)
    ⟨h, hrecord⟩ ?_ fun w commit w' hw hother => hkept w w' ⟨commit, hother⟩ hw).2
  intro w op answer w' hw hstep
  cases op with
  | loadCurrent | loadPlannedInvocation | loadInvocationMaterial =>
    obtain ⟨rfl, -⟩ := hstep
    exact hw
  | append call =>
    cases answer with
    | ok commit => exact hkept w w' ⟨commit, call, hstep⟩ hw
    | error error =>
      rcases hstep with ⟨-, rfl⟩ | ⟨-, rfl | ⟨commit, hcall⟩⟩
      · exact hw
      · exact hw
      · exact hkept w w' ⟨commit, call, hcall⟩ hw
  | verifyStep =>
    induction hstep with
    | refl => exact hw
    | tail _ hlast ih => exact hkept _ _ hlast ih
  | _ =>
    obtain rfl : w' = w := hstep
    exact hw

/-! ## States seen -/

/-- The state was the projection of the store at some moment. -/
def Seen (D : Digests) (store : MemoryRunStore) (state : RunState) : Prop :=
  ∃ records, records <+: store.records ∧ replay D records = .ok state

theorem MemoryRunStore.Sound.seen (h : store.Sound D P) (hstate : store.projection = some state) :
    Seen D store state := ⟨_, List.prefix_rfl, h.replay hstate⟩

theorem Seen.extends (h : Seen D store state) (hext : Extends D P store store') :
    Seen D store' state := by
  obtain ⟨records, hprefix, hreplay⟩ := h
  exact ⟨records, hprefix.trans hext.records, hreplay⟩

/-- **A seen state with the head of the store is its projection.** -/
theorem Seen.current (h : Seen D store state) (hsound : store.Sound D P)
    (hhead : store.index.head = .fromState state) :
    store.projection = some state ∧ replay D store.records = .ok state := by
  obtain ⟨records, hprefix, hreplay⟩ := h
  cases hprojection : store.projection with
  | none =>
    rw [hsound.head_empty hprojection] at hhead
    simp [ExpectedHead.fromState] at hhead
  | some current =>
    rw [hsound.head hprojection] at hhead
    obtain ⟨hsequence, _⟩ := ExpectedHead.exact.inj hhead
    have hcurrent := hsound.replay hprojection
    have hlength : records.length = store.records.length := by
      rw [← (replay_journal hreplay).length, ← (replay_journal hcurrent).length, hsequence]
    obtain rfl := hprefix.eq_of_length hlength
    rw [hreplay] at hcurrent
    obtain rfl := Except.ok.inj hcurrent
    exact ⟨rfl, hreplay⟩

/-! ## Own moves in a history -/

theorem call_of_append (h : store.Sound D P) (ht : Trace (runtimeSystem D P) store history store')
    {before after : List RuntimeMove}
    (hsplit : Happening.own history = before ++ ⟨.append call, Except.ok commit⟩ :: after) :
    ∃ earlier later m m', Trace (runtimeSystem D P) store earlier m ∧
      Happening.own earlier = before ∧ m.Sound D P ∧ m.call D P call = .ok (commit, m') ∧
      Trace (runtimeSystem D P) m' later store' := by
  obtain ⟨earlier, later, rfl, hbefore, _⟩ := Happening.own_split hsplit
  obtain ⟨m, m', hleft, hstep, hright⟩ := ht.split_did
  exact ⟨earlier, later, m, m', hleft, hbefore, (extends_of_trace h hleft).sound, hstep, hright⟩

theorem move_of_append (h : store.Sound D P) (ht : Trace (runtimeSystem D P) store history store')
    {before after : List RuntimeMove}
    (hsplit : Happening.own history = before ++ ⟨.append call, Except.ok commit⟩ :: after) :
    ∃ earlier m m', Trace (runtimeSystem D P) store earlier m ∧ Happening.own earlier = before ∧
      m.Sound D P ∧ StoreMove D P m call commit m' ∧ Extends D P m' store' := by
  obtain ⟨earlier, later, m, m', hleft, hbefore, hm, hcall, hright⟩ := call_of_append h ht hsplit
  have hmove : StoreMove D P m call commit m' := hm.move hcall
  exact ⟨earlier, m, m', hleft, hbefore, hm, hmove, extends_of_trace hmove.sound hright⟩

theorem seen_of_loaded (h : store.Sound D P) (ht : Trace (runtimeSystem D P) store history store')
    (hloaded : (⟨.loadCurrent, Except.ok (some state)⟩ : RuntimeMove) ∈ Happening.own history) :
    Seen D store' state := by
  obtain ⟨before, after, hsplit⟩ := List.append_of_mem hloaded
  obtain ⟨earlier, later, rfl, _⟩ := Happening.own_split hsplit
  obtain ⟨m, m', hleft, hstep, hright⟩ := ht.split_did
  have hm := (extends_of_trace h hleft).sound
  obtain ⟨rfl, hanswer⟩ := hstep
  exact (hm.seen (hanswer _ rfl).symm).extends (extends_of_trace hm hright)

/-- Where a record of the journal comes from: it was there before, a routine has appended its event,
whatever the answer was, or someone else has committed it. -/
inductive Origin (store : MemoryRunStore) (history : RuntimeHistory) (record : EventRecord) : Prop
  | kept (hmem : record ∈ store.records)
  | own {call : AppendCall} {answer : (RuntimeOp.append call).Response}
      (hmove : (⟨.append call, answer⟩ : RuntimeMove) ∈ Happening.own history)
      (hevent : record.event = call.event)
  | other {commit : Commit} (hmove : Happening.other commit ∈ history)
      (hrecord : record = commit.record)
  | verified {stepId : String} {answer : (RuntimeOp.verifyStep stepId).Response}
      (hmove : (⟨.verifyStep stepId, answer⟩ : RuntimeMove) ∈ Happening.own history)

theorem Origin.later {entry : Happening RuntimeOp RuntimeOp.Response Commit} {record : EventRecord}
    (h : Origin store' history record) (hkept : record ∈ store'.records →
      Origin store (entry :: history) record) : Origin store (entry :: history) record := by
  have hown : ∀ move ∈ Happening.own history, move ∈ Happening.own (entry :: history) := by
    intro move hmove
    rw [← List.singleton_append, Happening.own_append]
    exact List.mem_append_right _ hmove
  cases h with
  | kept hmem => exact hkept hmem
  | own hmove hevent => exact .own (hown _ hmove) hevent
  | other hmove hrecord => exact .other (List.mem_cons_of_mem _ hmove) hrecord
  | verified hmove => exact .verified (hown _ hmove)

theorem StoreMove.mem {record : EventRecord} (h : StoreMove D P store call commit store')
    (hmem : record ∈ store'.records) : record ∈ store.records ∨ record = commit.record := by
  rw [h.records] at hmem
  rcases List.mem_append.mp hmem with hmem | hmem
  · exact Or.inl hmem
  · exact Or.inr (List.mem_singleton.mp hmem)

/-- **Every record of the journal has an origin.** -/
theorem origin_of_trace (h : store.Sound D P) (ht : Trace (runtimeSystem D P) store history store')
    {record : EventRecord} (hmem : record ∈ store'.records) : Origin store history record := by
  induction ht with
  | nil => exact .kept hmem
  | @did op answer w w' w'' history hstep hrest ih =>
    refine (ih (h.answers hstep).sound hmem).later fun hmem => ?_
    cases op with
    | loadCurrent | loadPlannedInvocation | loadInvocationMaterial =>
      obtain ⟨rfl, -⟩ := hstep
      exact .kept hmem
    | append call =>
      have happended : ∀ commit, w.call D P call = .ok (commit, w') →
          Origin w (.did (.append call) answer :: history) record := by
        intro commit hcall
        have hmove : StoreMove D P w call commit w' := h.move hcall
        rcases hmove.mem hmem with hkept | rfl
        · exact .kept hkept
        · exact .own List.mem_cons_self hmove.event
      cases answer with
      | ok commit => exact happended commit hstep
      | error error =>
        rcases hstep with ⟨-, rfl⟩ | ⟨-, rfl | ⟨commit, hcall⟩⟩
        · exact .kept hmem
        · exact .kept hmem
        · exact happended commit hcall
    | verifyStep stepId => exact .verified List.mem_cons_self
    | _ =>
      obtain rfl : w' = w := hstep
      exact .kept hmem
  | @other commit w w' w'' history hother hrest ih =>
    obtain ⟨call, hcall⟩ := hother
    have hmove : StoreMove D P w call commit w' := h.move hcall
    refine (ih hmove.sound hmem).later fun hmem => ?_
    rcases hmove.mem hmem with hkept | rfl
    · exact .kept hkept
    · exact .other List.mem_cons_self rfl

/-- No one else moves. -/
def SingleWriter (history : RuntimeHistory) : Prop := ∀ commit, Happening.other commit ∉ history

theorem loads_agree {before after : List RuntimeMove} {current next : Option RunState}
    (ht : Trace (runtimeSystem D P) store history store') (hsingle : SingleWriter history)
    (hsplit : Happening.own history = before ++ ⟨.loadCurrent, Except.ok current⟩ ::
      ⟨.loadCurrent, Except.ok next⟩ :: after) : current = next := by
  obtain ⟨earlier, later, rfl, _, hlater⟩ := Happening.own_split hsplit
  have hnext : Happening.own later = [] ++ ⟨.loadCurrent, Except.ok next⟩ :: after := hlater
  obtain ⟨between, rest, rfl, hbetween, _⟩ := Happening.own_split hnext
  obtain ⟨m, m', _, hfirst, hright⟩ := ht.split_did
  obtain ⟨rfl, hcurrent⟩ := hfirst
  cases between with
  | nil =>
    cases hright with
    | did hsecond _ =>
      obtain ⟨rfl, hnext⟩ := hsecond
      rw [hcurrent _ rfl, hnext _ rfl]
  | cons entry between =>
    cases entry with
    | did op answer => simp at hbetween
    | other commit => exact absurd (by simp) (hsingle commit)

theorem first_load (ht : Trace (runtimeSystem D P) store history store')
    (hsingle : SingleWriter history) {current : Option RunState}
    (hfirst : (Happening.own history).head? = some ⟨.loadCurrent, Except.ok current⟩) :
    current = store.projection := by
  obtain ⟨after, hsplit⟩ := List.head?_eq_some_iff.mp hfirst
  have hload : Happening.own history = [] ++ ⟨.loadCurrent, Except.ok current⟩ :: after := hsplit
  obtain ⟨between, rest, rfl, hbetween, _⟩ := Happening.own_split hload
  cases between with
  | nil =>
    cases ht with
    | did hload _ => exact hload.2 _ rfl
  | cons entry between =>
    cases entry with
    | did op answer => simp at hbetween
    | other commit => exact absurd (by simp) (hsingle commit)

/-! ## A host without faults -/

/-- A host whose store works and whose ports answer what is given. -/
def memoryHost (D : Digests) (P : Protocol)
    (ports : MemoryRunStore → (op : RuntimeOp) → op.Response) (store : MemoryRunStore) :
    (op : RuntimeOp) → op.Response × MemoryRunStore
  | .loadCurrent => (Except.ok store.projection, store)
  | .loadPlannedInvocation stepId => (Except.ok store.planInputs[stepId]?, store)
  | .loadInvocationMaterial effectId => (Except.ok store.materials[effectId]?, store)
  | .append call =>
    match store.call D P call with
    | .ok (commit, store') => (Except.ok commit, store')
    | .error (.err error) => (Except.error error, store)
    | .error (.panic _) => (Except.error (.corrupt "store stopped"), store)
  | op => (ports store op, store)

theorem memoryHost_step (ports : MemoryRunStore → (op : RuntimeOp) → op.Response)
    (store : MemoryRunStore) (op : RuntimeOp) :
    (runtimeSystem D P).step store op (memoryHost D P ports store op).1
      (memoryHost D P ports store op).2 := by
  cases op with
  | loadCurrent | loadPlannedInvocation | loadInvocationMaterial =>
    exact ⟨rfl, fun _ h => (Except.ok.inj h).symm⟩
  | append call =>
    cases hcall : store.call D P call with
    | ok result =>
      simp only [memoryHost, hcall]
      exact hcall
    | error fault =>
      cases fault with
      | err error =>
        simp only [memoryHost, hcall]
        exact Or.inl ⟨hcall, rfl⟩
      | panic message =>
        simp only [memoryHost, hcall]
        exact Or.inr ⟨rfl, Or.inl rfl⟩
  | verifyStep => exact .refl
  | _ => rfl

end Xgeny
