import Xgeny.Sqlite.Appends

set_option autoImplicit false

/-!
# One handle on a sound database

What a call does on a database that backs a store which appends have filled, when the cached index of
the handle is right for the version that it was taken at: the cache is kept or rebuilt to the same
index, an append extends the store or leaves the database alone, and a load answers as the store does.

* `Backs`: a database that mirrors a reached store; `SqliteRunStore.Fits`: the cache of the handle;
* `ensureVerifiedCache_eq`: the cache after a refresh;
* `AppendResult`, **`SqliteRunStore.call_result`**: an append;
* `ReadResult`, **`SqliteRunStore.read_result`**: a load.
-/

namespace Xgeny

open Mutation

/-- A database that mirrors a store which appends have filled. -/
structure Backs (C : StoreCodecs) (D : Digests) (P : Protocol) (db : Database)
    (store : MemoryRunStore) : Prop where
  reached : ReachedStore D P store
  mirrors : Mirrors C store.toRunData store.index db

/-- The cached index is right, if it was taken at this version. -/
def SqliteRunStore.Fits (self : SqliteRunStore) (dataVersion : ℤ) (index : VerifiedRunIndex) : Prop :=
  ∀ cached, self.cache = some cached → cached.dataVersion = dataVersion → cached.index = index

/-- The handle with the index cached. -/
def SqliteRunStore.refreshed (self : SqliteRunStore) (dataVersion : ℤ) (index : VerifiedRunIndex) :
    SqliteRunStore :=
  { self with cache := some { dataVersion := dataVersion, index := index } }

variable {C : StoreCodecs} {D : Digests} {P : Protocol} {E : Engine} {db : Database}
  {self : SqliteRunStore} {store : MemoryRunStore}

/-! ## The cache -/

/-- **What the audit rebuilds.** -/
theorem Backs.loadVerifiedStoreData (h : Backs C D P db store) :
    Xgeny.loadVerifiedStoreData C D P db = .ok (store.snapshot, store.receipts, store.index) := by
  have hcoherent := h.reached.coherent
  exact h.mirrors.loadVerifiedStoreData hcoherent (fun _ => hcoherent.plan.mem_planned)
    h.reached.chronicled.2

theorem Backs.auditAtHead (h : Backs C D P db store) :
    Xgeny.auditAtHead C D P db = .ok (store.snapshot, store.receipts, store.index) := by
  simp only [Xgeny.auditAtHead, h.mirrors.loadDurableHead h.reached.coherent.journal,
    h.loadVerifiedStoreData, Outcome.bind_eq_ok, Outcome.exists_unit, Outcome.failIf_eq_ok,
    Outcome.pure_eq_ok, Except.ok.injEq, exists_eq_left', ne_eq, not_true_eq_false,
    not_false_eq_true, true_and]

theorem ensureVerifiedCache_eq (h : Backs C D P self.database store)
    (hfits : self.Fits E.dataVersion store.index) :
    SqliteRunStore.ensureVerifiedCache C D P E self =
      (.ok (), self.refreshed E.dataVersion store.index) := by
  have hhead := h.mirrors.loadDurableHead h.reached.coherent.journal
  simp only [SqliteRunStore.ensureVerifiedCache, Mutation.bind_eq_ok, reads_eq_ok, hhead]
  refine ⟨_, self, ⟨rfl, rfl⟩, _, self, ⟨rfl, rfl⟩, ?_⟩
  split
  · -- the kept index is the right one
    rename_i hkept
    obtain ⟨database, cache⟩ := self
    cases cache with
    | none => simp at hkept
    | some cached =>
      obtain ⟨hversion, -⟩ : cached.dataVersion = E.dataVersion ∧ cached.index.head = _ := by
        simpa [VerifiedSqliteCache.isCurrent] using hkept
      have hindex := hfits cached rfl hversion
      simp [SqliteRunStore.refreshed, ← hversion, ← hindex]
  · simp only [Mutation.bind_eq_ok, writes_eq_ok, reads_eq_ok]
    exact ⟨(), _, rfl, _, _, ⟨h.auditAtHead, rfl⟩, rfl⟩

/-! ## Appends -/

theorem cachedIndex_refreshed {dataVersion : ℤ} {index : VerifiedRunIndex} :
    SqliteRunStore.cachedIndex (self.refreshed dataVersion index) =
      (.ok index, self.refreshed dataVersion index) := rfl

/-- What an append returns, and what it leaves behind. -/
inductive AppendResult (C : StoreCodecs) (D : Digests) (P : Protocol) (E : Engine)
    (store : MemoryRunStore) (self : SqliteRunStore) (call : AppendCall) :
    Outcome StoreError Commit × SqliteRunStore → Prop where
  /-- The memory store refuses the call in the same way. -/
  | refused {fault : Fault StoreError} {self' : SqliteRunStore}
      (hmemory : store.call D P call = .error fault)
      (hself : self' = self ∨ self' = self.refreshed E.dataVersion store.index) :
      AppendResult C D P E store self call (.error fault, self')
  /-- The transaction does not begin. -/
  | notBegun {message : String} (hbegin : E.beginFault = some message) :
      AppendResult C D P E store self call (.error (.err (.sqlite message)), self)
  /-- The memory store accepts the call, and the transaction stops before its commit. -/
  | notWritten {commit : Commit} {store' : MemoryRunStore} {e : StoreError}
      (hmemory : store.call D P call = .ok (commit, store'))
      (hwrite : writeCommit C E self.database commit call.sidecars = .error (.err e)) :
      AppendResult C D P E store self call (.error (.err e), { self with cache := none })
  /-- The memory store accepts the call, and its commit is written. -/
  | appended {commit : Commit} {store' : MemoryRunStore} {self' : SqliteRunStore}
      (hmemory : store.call D P call = .ok (commit, store')) (hbegin : E.beginFault = none)
      (hwrite : writeCommit C E self.database commit call.sidecars = .ok self'.database)
      (hbacks : Backs C D P self'.database store')
      (hcache : self'.cache = some { dataVersion := E.dataVersion, index := store'.index }) :
      AppendResult C D P E store self call (.ok commit, self')

@[simp] theorem JsonCodec.encode_calm {α : Type} {codec : JsonCodec α} {a : α} :
    Outcome.Calm (codec.encode a) := by
  unfold JsonCodec.encode
  split <;> simp

@[simp] theorem Engine.raise_calm {error : Option StoreError} :
    Outcome.Calm (Engine.raise error) := by
  cases error <;> simp [Engine.raise]

@[simp] theorem executeInsert_calm {ρ : Type} {constraints : List (Table.Constraint ρ)}
    {rows : List ρ} {row : ρ} : Outcome.Calm (executeInsert constraints rows row) := by
  unfold executeInsert Table.insertRow
  split
  · exact Outcome.calm_fail
  · exact Outcome.calm_ok

/-- **A write that fails returns an error.** -/
theorem writeCommit_calm {commit : Commit} {sidecars : CommitSidecars}
    (hnames : NamesStep commit sidecars) :
    Outcome.Calm (writeCommit C E db commit sidecars) := by
  have hevent : ∀ db, Outcome.Calm (insertEvent C db commit.record) := fun db => by
    simp [insertEvent, i64TryFrom]
  have hintent : ∀ db, Outcome.Calm (insertEffectIntentIndex C db commit.record) := fun db => by
    unfold insertEffectIntentIndex
    split <;> simp [i64TryFrom]
  have hauthorization : ∀ db, Outcome.Calm (insertAuthorizationConsumption db commit.record) :=
    fun db => by
      unfold insertAuthorizationConsumption
      split <;> simp
  have hplan : ∀ db, Outcome.Calm
      (insertPlannedInvocations C db commit.record sidecars.planInputs) := fun db => by
    unfold insertPlannedInvocations
    split
    · simp
    · simp only [i64TryFrom, Outcome.calm_bind, Outcome.calm_okOr, true_and]
      intro sequence _
      refine Outcome.calm_foldl (I := fun _ _ => True) trivial (fun _ _ _ _ _ _ _ => trivial) ?_
      intros
      simp [insertPlannedInvocation]
  have hmaterial : ∀ db, Outcome.Calm (insertInvocationMaterial C db sidecars.material) :=
    fun db => by
      unfold insertInvocationMaterial
      split <;> simp
  have houtput : ∀ db, Outcome.Calm (insertToolOutput C db commit.record sidecars.output) :=
    fun db => by
      cases hgiven : sidecars.output with
      | none => simp [insertToolOutput]
      | some output =>
        obtain ⟨_, _, _, hbody⟩ := hnames.output output hgiven
        simp [insertToolOutput, hbody, i64TryFrom]
  have hcompletion : ∀ db, Outcome.Calm
      (insertCompletionOutput C db commit.record sidecars.completionOutput) := fun db => by
    unfold insertCompletionOutput
    split <;> simp [i64TryFrom]
  have hreceipt : ∀ db, Outcome.Calm
      (insertExecutionReceipt C db commit.record sidecars.receipt) := fun db => by
    cases hgiven : sidecars.receipt with
    | none => simp [insertExecutionReceipt]
    | some receipt =>
      obtain ⟨_, _, _, _, hbody⟩ := hnames.receipt receipt hgiven
      simp [insertExecutionReceipt, hbody, i64TryFrom]
  have hprojection : ∀ db, Outcome.Calm (writeProjection C db commit.state) := fun db => by
    simp [writeProjection]
  simp [writeCommit, Engine.checkpoint, Engine.commit, hevent, hintent, hauthorization, hplan,
    hmaterial, houtput, hcompletion, hreceipt, hprojection]

theorem Engine.begin_eq_ok {u : Unit} : E.begin = .ok u ↔ E.beginFault = none := by
  rw [Engine.begin, Engine.raise_eq_ok, Option.map_eq_none_iff]

theorem Engine.begin_eq_error {fault : Fault StoreError} (h : E.begin = .error fault) :
    ∃ message, E.beginFault = some message ∧ fault = .err (.sqlite message) := by
  cases hbegin : E.beginFault with
  | none => simp [Engine.begin, Engine.raise, hbegin, pure, Except.pure] at h
  | some message =>
    simp only [Engine.begin, Engine.raise, hbegin, Option.map_some] at h
    exact ⟨message, rfl, (Except.error.inj h).symm⟩

/-- **An append** extends the store that the database backs, or it leaves the database alone. -/
theorem SqliteRunStore.call_result (hreturns : C.RoundTrip) (h : Backs C D P self.database store)
    (hfits : self.Fits E.dataVersion store.index) (call : AppendCall)
    (houtput : ∀ output, call.sidecars.output = some output → C.toolOutput.Returns output) :
    AppendResult C D P E store self call (SqliteRunStore.call C D P E call self) := by
  have hcoherent := h.reached.coherent
  have hmemory := MemoryRunStore.call_eq hcoherent call
  rw [MemoryRunStore.appendInternal] at hmemory
  rw [SqliteRunStore.call, appendInternal]
  obtain ⟨bundle, hbundle⟩ : ∃ bundle, verifyCommitSidecars D P call.event call.sidecars = bundle :=
    ⟨_, rfl⟩
  cases bundle with
  | error fault =>
    rw [hbundle] at hmemory
    rw [reads_bind_of_error (f := fun _ => verifyCommitSidecars D P call.event call.sidecars) hbundle]
    exact .refused hmemory (.inl rfl)
  | ok _ =>
  rw [hbundle] at hmemory
  rw [reads_bind_of_ok (f := fun _ => verifyCommitSidecars D P call.event call.sidecars) hbundle]
  obtain ⟨begun, hbegin⟩ : ∃ begun, E.begin = begun := ⟨_, rfl⟩
  cases begun with
  | error fault =>
    obtain ⟨message, hfault, rfl⟩ := Engine.begin_eq_error hbegin
    rw [reads_bind_of_error (f := fun _ => E.begin) hbegin]
    exact .notBegun hfault
  | ok _ =>
  rw [reads_bind_of_ok (f := fun _ => E.begin) hbegin]
  have hcache : orDropCache (ensureVerifiedCache C D P E) self =
      (.ok (), self.refreshed E.dataVersion store.index) := by
    rw [orDropCache, ensureVerifiedCache_eq h hfits]
  rw [bind_of_ok hcache, bind_of_ok cachedIndex_refreshed]
  let checks := fun self : SqliteRunStore => Xgeny.verifyCandidate C D P self.database store.index
    call.expected call.event call.sidecars
  have hsame : checks (self.refreshed E.dataVersion store.index) =
      store.verifyCandidate D P call.expected call.event call.sidecars := h.mirrors.verifyCandidate
  obtain ⟨candidate, hcandidate⟩ : ∃ candidate,
    store.verifyCandidate D P call.expected call.event call.sidecars = candidate := ⟨_, rfl⟩
  cases candidate with
  | error fault =>
    rw [hcandidate] at hmemory hsame
    rw [reads_bind_of_error (f := checks) hsame]
    exact .refused hmemory (.inr rfl)
  | ok accepted =>
  obtain ⟨commit, anchors⟩ := accepted
  rw [hcandidate] at hmemory hsame
  rw [reads_bind_of_ok (f := checks) hsame]
  dsimp only
  have haccepted := Accepted.of_candidate hbundle hcandidate
  obtain ⟨index', hindex, -⟩ := haccepted.step store.toRunData
  have hcall : store.call D P call = .ok (commit,
      { toRunData := store.toRunData.commit commit call.sidecars, index := index' }) := by
    rw [hmemory]
    refine Outcome.bind_eq_ok.mpr ⟨(), rfl, Outcome.bind_eq_ok.mpr ⟨(commit, anchors), rfl, ?_⟩⟩
    exact Outcome.bind_eq_ok.mpr ⟨index', hindex, rfl⟩
  have hnames := haccepted.namesStep hcoherent
  obtain ⟨written, hwrite⟩ : ∃ written,
    writeCommit C E self.database commit call.sidecars = written := ⟨_, rfl⟩
  rcases written with (e | message) | db'
  · have hdrop : orDropCache (reads fun self => writeCommit C E self.database commit call.sidecars)
        (self.refreshed E.dataVersion store.index) =
        (.error (.err e), { self with cache := none }) := by
      rw [orDropCache, reads, SqliteRunStore.refreshed, hwrite]
    rw [bind_of_error hdrop]
    exact .notWritten hcall hwrite
  · exact absurd hwrite (writeCommit_calm hnames message)
  · have hdone : orDropCache (reads fun self => writeCommit C E self.database commit call.sidecars)
        (self.refreshed E.dataVersion store.index) =
        (.ok db', self.refreshed E.dataVersion store.index) := by
      rw [orDropCache, reads, SqliteRunStore.refreshed, hwrite]
    rw [bind_of_ok hdone, bind_of_ok (m := writes _) rfl,
      reads_bind_of_ok (f := fun _ => store.index.applyCommitted commit call.sidecars anchors) hindex]
    obtain ⟨⟨-, hw⟩, rfl⟩ := (writeCommit_eq_ok h.mirrors.projection hnames).mp hwrite
    refine .appended hcall (Engine.begin_eq_ok.mp hbegin) hwrite ⟨?_, ?_⟩ rfl
    · exact h.reached.call (perform_eq_ok_iff.mpr hcall) (by simp)
    · have hcommitted : Committed D P store call.sidecars anchors commit
          { toRunData := store.toRunData.commit commit call.sidecars, index := index' } :=
        ⟨haccepted, rfl, hindex⟩
      exact h.mirrors.written hcommitted hcoherent hw hreturns houtput

/-! ## Loads -/

/-- What a load returns when it is to give some answer, and what it leaves behind. -/
inductive ReadResult {α : Type} (E : Engine) (self refreshed : SqliteRunStore)
    (answer : Outcome StoreError α) : Outcome StoreError α × SqliteRunStore → Prop where
  /-- The transaction does not begin, or it does not end. -/
  | faulted {message : String} {self' : SqliteRunStore}
      (hfault : E.beginFault = some message ∨ E.commitFault = some message)
      (hself : self' = self ∨ self' = refreshed) :
      ReadResult E self refreshed answer (.error (.err (.sqlite message)), self')
  | answered : ReadResult E self refreshed answer (answer, refreshed)

theorem Engine.commit_eq_error {fault : Fault StoreError} (h : E.commit = .error fault) :
    ∃ message, E.commitFault = some message ∧ fault = .err (.sqlite message) := by
  cases hcommit : E.commitFault with
  | none => simp [Engine.commit, Engine.raise, hcommit, pure, Except.pure] at h
  | some message =>
    simp only [Engine.commit, Engine.raise, hcommit, Option.map_some] at h
    exact ⟨message, rfl, (Except.error.inj h).symm⟩

theorem SqliteRunStore.loadOver_result {α : Type}
    {body : Database → VerifiedRunIndex → Outcome StoreError α} {answer : Outcome StoreError α}
    (h : Backs C D P self.database store) (hfits : self.Fits E.dataVersion store.index)
    (hbody : body self.database store.index = answer) :
    ReadResult E self (self.refreshed E.dataVersion store.index) answer
      (loadOver C D P E body self) := by
  rw [loadOver]
  obtain ⟨begun, hbegin⟩ : ∃ begun, E.begin = begun := ⟨_, rfl⟩
  cases begun with
  | error fault =>
    obtain ⟨message, hfault, rfl⟩ := Engine.begin_eq_error hbegin
    rw [reads_bind_of_error (f := fun _ => E.begin) hbegin]
    exact .faulted (.inl hfault) (.inl rfl)
  | ok _ =>
  rw [reads_bind_of_ok (f := fun _ => E.begin) hbegin, bind_of_ok (ensureVerifiedCache_eq h hfits),
    bind_of_ok cachedIndex_refreshed]
  let body' := fun self : SqliteRunStore => body self.database store.index
  have hanswer : body' (self.refreshed E.dataVersion store.index) = answer := hbody
  cases answer with
  | error fault =>
    rw [reads_bind_of_error (f := body') hanswer]
    exact .answered
  | ok a =>
  rw [reads_bind_of_ok (f := body') hanswer]
  obtain ⟨committed, hcommit⟩ : ∃ committed, E.commit = committed := ⟨_, rfl⟩
  cases committed with
  | error fault =>
    obtain ⟨message, hfault, rfl⟩ := Engine.commit_eq_error hcommit
    rw [reads_bind_of_error (f := fun _ => E.commit) hcommit]
    exact .faulted (.inr hfault) (.inr rfl)
  | ok _ =>
    rw [reads_bind_of_ok (f := fun _ => E.commit) hcommit]
    exact .answered

theorem SqliteRunStore.loadAudited_result {α : Type}
    {f : Option RunSnapshot × List StoredExecutionReceipt → α} (h : Backs C D P self.database store) :
    ReadResult E self (self.refreshed E.dataVersion store.index)
      (.ok (f (store.snapshot, store.receipts)))
      ((do let found ← loadAudited C D P E
           pure (f found) : Mutation SqliteRunStore StoreError α) self) := by
  let audits := fun self : SqliteRunStore => Xgeny.auditAtHead C D P self.database
  obtain ⟨begun, hbegin⟩ : ∃ begun, E.begin = begun := ⟨_, rfl⟩
  cases begun with
  | error fault =>
    obtain ⟨message, hfault, rfl⟩ := Engine.begin_eq_error hbegin
    have hrun : loadAudited C D P E self = (.error (.err (.sqlite message)), self) := by
      rw [loadAudited, reads_bind_of_error (f := fun _ => E.begin) hbegin]
    rw [bind_of_error hrun]
    exact .faulted (.inl hfault) (.inl rfl)
  | ok _ =>
  obtain ⟨committed, hcommit⟩ : ∃ committed, E.commit = committed := ⟨_, rfl⟩
  cases committed with
  | error fault =>
    obtain ⟨message, hfault, rfl⟩ := Engine.commit_eq_error hcommit
    have hrun : loadAudited C D P E self = (.error (.err (.sqlite message)), self) := by
      rw [loadAudited, reads_bind_of_ok (f := fun _ => E.begin) hbegin,
        reads_bind_of_ok (f := audits) h.auditAtHead]
      exact reads_bind_of_error (f := fun _ => E.commit) hcommit
    rw [bind_of_error hrun]
    exact .faulted (.inr hfault) (.inl rfl)
  | ok _ =>
    have hrun : loadAudited C D P E self =
        (.ok (store.snapshot, store.receipts), self.refreshed E.dataVersion store.index) := by
      rw [loadAudited, reads_bind_of_ok (f := fun _ => E.begin) hbegin,
        reads_bind_of_ok (f := audits) h.auditAtHead]
      exact (reads_bind_of_ok (f := fun _ => E.commit) hcommit).trans rfl
    rw [bind_of_ok hrun]
    exact .answered

/-- **A load** answers as the store does that the database backs. -/
theorem SqliteRunStore.read_result (h : Backs C D P self.database store)
    (hfits : self.Fits E.dataVersion store.index) (call : LoadCall) :
    ReadResult E self (self.refreshed E.dataVersion store.index) (store.read D P call)
      (SqliteRunStore.read C D P E call self) := by
  have hcoherent := h.reached.coherent
  have hload := hcoherent.load
  cases call with
  | load =>
    rw [MemoryRunStore.read, hload]
    exact loadAudited_result (f := Prod.fst) h
  | loadWithExecutionReceipts =>
    rw [MemoryRunStore.read, MemoryRunStore.loadWithExecutionReceipts, hload]
    exact loadAudited_result
      (f := fun found => (found.1, found.2.map StoredExecutionReceipt.receipt)) h
  | loadCurrent =>
    rw [MemoryRunStore.read, SqliteRunStore.read, SqliteRunStore.loadCurrent]
    refine loadOver_result h hfits ?_
    rw [MemoryRunStore.loadCurrent, hcoherent.journal.projection]
  | loadInvocationMaterial effectId =>
    rw [MemoryRunStore.read, SqliteRunStore.read, SqliteRunStore.loadInvocationMaterial]
    refine loadOver_result h hfits ?_
    rw [h.mirrors.loadInvocationMaterial]
    rfl
  | loadPlannedInvocation stepId =>
    rw [MemoryRunStore.read, SqliteRunStore.read, SqliteRunStore.loadPlannedInvocation]
    refine loadOver_result h hfits ?_
    rw [h.mirrors.loadPlannedInvocation]
    rfl
  | loadExecutionReceipts =>
    rw [MemoryRunStore.read, SqliteRunStore.read, SqliteRunStore.loadExecutionReceipts]
    refine loadOver_result h hfits ?_
    rw [h.mirrors.loadExecutionReceipts hcoherent.receipt h.reached.chronicled.2]
    rfl
  | loadToolOutput effectId =>
    rw [MemoryRunStore.read, SqliteRunStore.read, SqliteRunStore.loadToolOutput]
    refine loadOver_result h hfits ?_
    rw [h.mirrors.loadToolOutput]
    rfl
  | loadCompletionOutput expected candidateId =>
    rw [MemoryRunStore.read, SqliteRunStore.read, SqliteRunStore.loadCompletionOutput]
    refine loadOver_result h hfits ?_
    rw [h.mirrors.loadCompletionOutputRow]
    rfl
  | loadVerificationSnapshot stepId =>
    rw [MemoryRunStore.read, SqliteRunStore.read, SqliteRunStore.loadVerificationSnapshot]
    refine loadOver_result h hfits ?_
    simp only [h.mirrors.loadToolOutput]
    rfl
  | loadPlanningSnapshot expected maxOutputBytes =>
    rw [MemoryRunStore.read, SqliteRunStore.read, SqliteRunStore.loadPlanningSnapshot]
    refine loadOver_result h hfits ?_
    have hloader : Xgeny.loadToolOutput C self.database =
        fun effectId => pure store.outputs[effectId]? :=
      funext fun effectId => h.mirrors.loadToolOutput effectId
    rw [hloader]
    rfl

end Xgeny
