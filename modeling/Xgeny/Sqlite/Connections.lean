import Xgeny.Lib.VersionedCache
import Xgeny.Sqlite.Handles

set_option autoImplicit false

/-!
# Handles over one database

Any number of handles, opened and closed at any time, each on its own connection. Transactions do not
overlap: a commit of one connection changes the version that every other one sees, and a transaction
that does not commit changes nothing. Calls come in any order, and SQLite may fail at every stage.

* `Faults`, `Action`, `Cluster.step`, `Cluster.run`: the handles and what is done with them;
* `Cluster.Sound`, **`Cluster.Sound.step`**: the invariant, and one step;
* `Coherence`, **`sqlite_connections_coherent`**: no cache is stale and no update is lost;
* **`sqlite_answers_as_memory`**: every call of every handle does what the memory store does.
-/

namespace Xgeny

open VersionedCache

/-! ## Actions -/

/-- What SQLite fails at during one call. -/
structure Faults where
  begins : Option String := none
  checkpoint : CommitStage → Option StoreError := fun _ => none
  commits : Option String := none

/-- The engine that a call sees. -/
def Faults.engine (self : Faults) (dataVersion : ℤ) : Engine where
  dataVersion := dataVersion
  beginFault := self.begins
  checkpointFault := self.checkpoint
  commitFault := self.commits

/-- A connection with the cache of its handle. -/
abbrev SqliteSession := Session VerifiedSqliteCache

/-- The handle of a connection. -/
def SqliteRunStore.over (database : Database) (session : SqliteSession) : SqliteRunStore where
  database := database
  cache := session.cached

inductive Action where
  | openHandle (k : ℕ) (versions : Versions) (faults : Faults)
  | closeHandle (k : ℕ)
  | append (k : ℕ) (call : AppendCall) (faults : Faults)
  | load (k : ℕ) (call : LoadCall) (faults : Faults)

/-- One database, its handles, and the appends that returned a commit. -/
structure Cluster extends Shared ℕ Database VerifiedSqliteCache where
  log : List (AppendCall × Commit)

/-- An empty database without a handle. -/
def Cluster.new : Cluster where
  contents := {}
  sessions := fun _ => none
  log := []

section

variable (C : StoreCodecs) (D : Digests) (P : Protocol)

/-- A transaction ends without a commit. -/
def Cluster.settled (self : Cluster) (k : ℕ) (session : SqliteSession) (after : SqliteRunStore) :
    Cluster where
  contents := after.database
  sessions := (self.toShared.settle k (some (session.keeping after.cache))).sessions
  log := self.log

def Cluster.step (self : Cluster) : Action → Cluster
  | .openHandle k versions faults =>
    match buildVerifiedCache C D P (faults.engine (versions.val 0)) self.contents with
    | .ok cached => { self with
        toShared := self.settle k (some { versions := versions, foreign := 0, cached := some cached }) }
    | .error _ => self
  | .closeHandle k => { self with toShared := self.settle k none }
  | .append k call faults =>
    match self.sessions k with
    | none => self
    | some session =>
      match SqliteRunStore.call C D P (faults.engine session.now) call
        (.over self.contents session) with
      | (.ok commit, after) =>
        { toShared := self.commit k after.database (session.keeping after.cache)
          log := self.log ++ [(call, commit)] }
      | (.error _, after) => self.settled k session after
  | .load k call faults =>
    match self.sessions k with
    | none => self
    | some session =>
      self.settled k session (SqliteRunStore.read C D P (faults.engine session.now) call
        (.over self.contents session)).2

def Cluster.run (actions : List Action) : Cluster := actions.foldl (Cluster.step C D P) .new

/-! ## The invariant -/

/-- The last record of a log. -/
def lastLogged (log : List (AppendCall × Commit)) : Option EventRecord :=
  log.getLast?.map fun entry => entry.2.record

/-- The head of the journal after some appends. -/
def headAfter (log : List (AppendCall × Commit)) : ExpectedHead :=
  match lastLogged log with
  | none => .empty
  | some record => .exact record.sequence record.digest

/-- Every append extended the head that it expected, by the record that follows the one before. -/
def ExtendsHead (log : List (AppendCall × Commit)) : Prop :=
  ∀ i entry, log[i]? = some entry → entry.1.expected = headAfter (log.take i) ∧
    EventRecord.next D (lastLogged (log.take i)) entry.1.event = .ok entry.2.record

/-- A cached index is what the audit of the database rebuilds. -/
def Rebuilds (db : Database) (cached : VerifiedSqliteCache) : Prop :=
  ∃ snapshot receipts, loadVerifiedStoreData C D P db = .ok (snapshot, receipts, cached.index)

/-- The database backs the memory store after the same appends, and the caches are sound. -/
structure Cluster.Sound (cluster : Cluster) (store : MemoryRunStore) : Prop where
  logged : runCalls D P (cluster.log.map Prod.fst) = (store, cluster.log.map Prod.snd)
  chained : ExtendsHead D cluster.log
  backs : Backs C D P cluster.contents store
  caches : cluster.toShared.Sound VerifiedSqliteCache.dataVersion (Rebuilds C D P)

end

variable {C : StoreCodecs} {D : Digests} {P : Protocol} {self : Cluster} {store : MemoryRunStore}

theorem Backs.rebuilds_iff {db : Database} (h : Backs C D P db store) {cached : VerifiedSqliteCache} :
    Rebuilds C D P db cached ↔ cached.index = store.index := by
  rw [Rebuilds, h.loadVerifiedStoreData]
  constructor
  · rintro ⟨_, _, heq⟩
    simp only [Except.ok.injEq, Prod.mk.injEq] at heq
    exact heq.2.2.symm
  · intro heq
    exact ⟨_, _, by rw [heq]⟩

theorem Backs.new : Backs C D P {} .new := ⟨.new, Mirrors.empty⟩

theorem Cluster.sound_new : Cluster.Sound C D P .new .new where
  logged := rfl
  chained := by simp [ExtendsHead, Cluster.new]
  backs := Backs.new
  caches := by simp [Shared.Sound, Cluster.new]

theorem Cluster.Sound.last (h : self.Sound C D P store) :
    store.index.lastRecord = lastLogged self.log := by
  have hrun := coherent_runCalls (D := D) (P := P) (self.log.map Prod.fst)
  rw [h.logged] at hrun
  rw [hrun.1.journal.last, hrun.2.records, lastLogged, List.map_map, List.getLast?_map]
  rfl

theorem Cluster.Sound.head (h : self.Sound C D P store) : store.index.head = headAfter self.log := by
  rw [VerifiedRunIndex.head, h.last, headAfter]
  cases lastLogged self.log <;> rfl

theorem Cluster.Sound.fits (h : self.Sound C D P store) {k : ℕ} {session : SqliteSession}
    (hsession : self.sessions k = some session) (faults : Faults) :
    (SqliteRunStore.over self.contents session).Fits (faults.engine session.now).dataVersion
      store.index :=
  fun _ hcached hversion =>
    h.backs.rebuilds_iff.mp ((h.caches k session hsession).current hcached hversion)

theorem ExtendsHead.append {log : List (AppendCall × Commit)} (h : ExtendsHead D log)
    {entry : AppendCall × Commit} (hexpected : entry.1.expected = headAfter log)
    (hnext : EventRecord.next D (lastLogged log) entry.1.event = .ok entry.2.record) :
    ExtendsHead D (log ++ [entry]) := by
  intro i other hother
  rcases Nat.lt_or_ge i log.length with hi | hi
  · rw [List.getElem?_append_left hi] at hother
    rw [List.take_append_of_le_length (Nat.le_of_lt hi)]
    exact h i other hother
  · obtain ⟨hlt, -⟩ := List.getElem?_eq_some_iff.mp hother
    obtain rfl : i = log.length := by
      rw [List.length_append, List.length_singleton] at hlt
      omega
    rw [List.getElem?_concat_length] at hother
    obtain rfl := Option.some.inj hother
    rw [List.take_left]
    exact ⟨hexpected, hnext⟩

/-! ## Steps -/

theorem Backs.buildVerifiedCache {E : Engine} {db : Database} (h : Backs C D P db store)
    {cached : VerifiedSqliteCache} (hbuilt : Xgeny.buildVerifiedCache C D P E db = .ok cached) :
    cached = { dataVersion := E.dataVersion, index := store.index } := by
  simp only [Xgeny.buildVerifiedCache, h.auditAtHead, Outcome.bind_eq_ok, Outcome.exists_unit,
    Outcome.pure_eq_ok, Except.ok.injEq, exists_eq_left'] at hbuilt
  exact hbuilt.2.2.symm

theorem Cluster.Sound.settled (h : self.Sound C D P store) {k : ℕ} {session : SqliteSession}
    (hsession : self.sessions k = some session) {after : SqliteRunStore}
    (hdatabase : after.database = self.contents)
    (hcache : after.cache = session.cached ∨ after.cache = none ∨
      after.cache = some { dataVersion := session.now, index := store.index }) :
    (self.settled k session after).Sound C D P store := by
  have hsettled : self.settled k session after =
      { self with toShared := self.settle k (some (session.keeping after.cache)) } := by
    rw [Cluster.settled, hdatabase]
    rfl
  rw [hsettled]
  refine ⟨h.logged, h.chained, h.backs, h.caches.settle fun other hother => ?_⟩
  obtain rfl := Option.some.inj hother
  refine (h.caches k session hsession).keeping fun cached hcached => ?_
  rcases hcache with hold | hnone | hnew
  · exact .inl (hold ▸ hcached)
  · rw [hnone] at hcached
    cases hcached
  · rw [hnew] at hcached
    obtain rfl := Option.some.inj hcached
    exact .inr ⟨rfl, h.backs.rebuilds_iff.mpr rfl⟩

theorem Cluster.Sound.committed (h : self.Sound C D P store) {k : ℕ} {session : SqliteSession}
    {call : AppendCall} {commit : Commit} {store' : MemoryRunStore} {after : SqliteRunStore}
    (hmemory : store.call D P call = .ok (commit, store'))
    (hbacks : Backs C D P after.database store')
    (hcache : after.cache = some { dataVersion := session.now, index := store'.index }) :
    Cluster.Sound C D P
      { toShared := self.commit k after.database (session.keeping after.cache)
        log := self.log ++ [(call, commit)] } store' where
  logged := by
    rw [List.map_append, List.map_append, runCalls, List.foldl_append, ← runCalls, h.logged]
    simp only [List.map_cons, List.map_nil, List.foldl_cons, List.foldl_nil,
      MemoryRunStore.afterCall, hmemory]
  chained := by
    obtain ⟨hexpected, hp⟩ := prepareCommit_eq_ok (MemoryRunStore.call_prepared hmemory)
    exact h.chained.append (hexpected.trans h.head) (h.last ▸ hp.next)
  backs := hbacks
  caches := by
    refine h.caches.commit (Session.sound_of_now ?_ ?_) <;> intro cached hcached
    · obtain rfl := Option.some.inj (hcache.symm.trans hcached)
      rfl
    · obtain rfl := Option.some.inj (hcache.symm.trans hcached)
      exact hbacks.rebuilds_iff.mpr rfl

/-- The tool outputs of an action are read back as they are written. -/
def Action.Legible (C : StoreCodecs) : Action → Prop
  | .append _ call _ => ∀ output, call.sidecars.output = some output → C.toolOutput.Returns output
  | _ => True

/-- **Step lemma.** Every action keeps the cluster sound. -/
theorem Cluster.Sound.step (hreturns : C.RoundTrip) (h : self.Sound C D P store) (action : Action)
    (hlegible : action.Legible C) : ∃ store', (self.step C D P action).Sound C D P store' := by
  cases action with
  | openHandle k versions faults =>
    rw [Cluster.step]
    split
    · rename_i cached hbuilt
      have hcached := h.backs.buildVerifiedCache hbuilt
      refine ⟨store, h.logged, h.chained, h.backs, h.caches.settle fun session hsession => ?_⟩
      obtain rfl := Option.some.inj hsession
      refine Session.sound_of_now ?_ ?_ <;> rintro _ ⟨⟩
      · rw [hcached]
        rfl
      · exact h.backs.rebuilds_iff.mpr (by rw [hcached])
    · exact ⟨store, h⟩
  | closeHandle k =>
    exact ⟨store, h.logged, h.chained, h.backs, h.caches.settle fun _ hsession => by cases hsession⟩
  | append k call faults =>
    rw [Cluster.step]
    split
    · exact ⟨store, h⟩
    · rename_i session hsession
      have hresult : AppendResult C D P (faults.engine session.now) store
          (.over self.contents session) call _ :=
        SqliteRunStore.call_result hreturns h.backs (h.fits hsession faults) call hlegible
      generalize SqliteRunStore.call C D P (faults.engine session.now) call
        (.over self.contents session) = outcome at hresult ⊢
      cases hresult with
      | refused hmemory hself =>
        rcases hself with rfl | rfl
        · exact ⟨store, h.settled hsession rfl (.inl rfl)⟩
        · exact ⟨store, h.settled hsession rfl (.inr (.inr rfl))⟩
      | notBegun hbegin => exact ⟨store, h.settled hsession rfl (.inl rfl)⟩
      | notWritten hmemory hwrite => exact ⟨store, h.settled hsession rfl (.inr (.inl rfl))⟩
      | appended hmemory hbegin hwrite hbacks hcache => exact ⟨_, h.committed hmemory hbacks hcache⟩
  | load k call faults =>
    rw [Cluster.step]
    split
    · exact ⟨store, h⟩
    · rename_i session hsession
      have hresult : ReadResult (faults.engine session.now) (.over self.contents session) _ _ _ :=
        SqliteRunStore.read_result h.backs (h.fits hsession faults) call
      generalize SqliteRunStore.read C D P (faults.engine session.now) call
        (.over self.contents session) = outcome at hresult ⊢
      cases hresult with
      | faulted hfault hself =>
        rcases hself with rfl | rfl
        · exact ⟨store, h.settled hsession rfl (.inl rfl)⟩
        · exact ⟨store, h.settled hsession rfl (.inr (.inr rfl))⟩
      | answered => exact ⟨store, h.settled hsession rfl (.inr (.inr rfl))⟩

/-- **Run lemma.** After any actions the cluster is sound. -/
theorem Cluster.sound_run (hreturns : C.RoundTrip) (actions : List Action)
    (hlegible : ∀ action ∈ actions, action.Legible C) :
    ∃ store, (Cluster.run C D P actions).Sound C D P store := by
  induction actions using List.reverseRecOn with
  | nil => exact ⟨.new, Cluster.sound_new⟩
  | append_singleton actions action ih =>
    obtain ⟨store, h⟩ := ih fun a ha => hlegible a (List.mem_append_left _ ha)
    rw [Cluster.run, List.foldl_append, ← Cluster.run, List.foldl_cons, List.foldl_nil]
    exact h.step hreturns action (hlegible action (by simp))

/-! ## A sample -/

/-- A codec with one value. -/
def JsonCodec.only {α : Type} [DecidableEq α] (value : α) (blob : Blob) : JsonCodec α where
  toVec a := if a = value then .ok blob else .error "unknown value"
  fromSlice bytes := if bytes = blob then .ok value else .error "unknown text"

theorem JsonCodec.only_returns {α : Type} [DecidableEq α] {value : α} {blob : Blob} (a : α) :
    (JsonCodec.only value blob).Returns a := by
  intro bytes hbytes
  simp only [JsonCodec.only] at hbytes ⊢
  split at hbytes
  · rename_i heq
    obtain rfl := Except.ok.inj hbytes
    rw [if_pos rfl, heq]
  · cases hbytes

theorem JsonCodec.only_encodes {α : Type} [DecidableEq α] {value : α} {blob : Blob} :
    (JsonCodec.only value blob).Encodes value := by
  simp [JsonCodec.Encodes, JsonCodec.bytes, JsonCodec.only]

/-- A codec that knows no value. -/
def JsonCodec.unused {α : Type} : JsonCodec α where
  toVec _ := .error "unknown value"
  fromSlice _ := .error "unknown text"

theorem JsonCodec.unused_returns {α : Type} (a : α) : (JsonCodec.unused : JsonCodec α).Returns a :=
  fun _ hbytes => by cases hbytes

/-- The state after the sample run is created. -/
def createdState : RunState where
  runId := "run-1"
  authority := "local"
  authorityEpoch := 1
  goal := "write two files"
  revision := 1
  journalSequence := 1
  journalHeadDigest := "sha256:1a2ff360e22efc4f653a7fef280060d32e13b82543efb6174078446500f29a1b"
  steps := ∅
  authorizationConsumption := ∅
  agentLoop := none

/-- The texts of the first event of the sample run and of the state after it. -/
def sampleCodecs : StoreCodecs where
  runEvent := .only (sampleEvent 1 (.runCreated "write two files"))
    (Utf8.encode ("\x7b\"eventId\":\"event-1\",\"runId\":\"run-1\",\"authority\":\"local\"," ++
      "\"authorityEpoch\":1,\"recordedAt\":\"2026-01-01T00:00:00Z\",\"body\":" ++
      "\x7b\"type\":\"run_created\",\"goal\":\"write two files\"\x7d\x7d").toList)
  effectIntent := .unused
  plannedInvocation := .unused
  invocationMaterial := .unused
  toolOutput := .unused
  completionOutput := .unused
  protocolDocument := .unused
  runState := .only createdState
    (Utf8.encode ("\x7b\"runId\":\"run-1\",\"authority\":\"local\",\"authorityEpoch\":1," ++
      "\"goal\":\"write two files\",\"revision\":1,\"journalSequence\":1,\"journalHeadDigest\":" ++
      "\"sha256:1a2ff360e22efc4f653a7fef280060d32e13b82543efb6174078446500f29a1b\"," ++
      "\"steps\":\x7b\x7d,\"authorizationConsumption\":\x7b\x7d\x7d").toList)

theorem sampleCodecs_roundTrip : sampleCodecs.RoundTrip where
  runEvent := JsonCodec.only_returns
  effectIntent := JsonCodec.unused_returns
  plannedInvocation := JsonCodec.unused_returns
  invocationMaterial := JsonCodec.unused_returns
  completionOutput := JsonCodec.unused_returns
  executionReceipt _ := JsonCodec.unused_returns _
  runState := JsonCodec.only_returns

/-- Versions that count the commits. -/
def countingVersions : Versions := ⟨fun n => n, fun _ _ h => Int.ofNat.inj h⟩

/-- Two handles are opened. One creates the run; the other one reads it, and may not create it again. -/
def sampleActions : List Action :=
  [.openHandle 0 countingVersions {}, .openHandle 1 countingVersions {}, .append 0 createSample {},
    .load 1 .loadCurrent {}, .append 1 createSample {}]

/-- The sample cluster. -/
def sampleCluster : Cluster :=
  Cluster.run sampleCodecs (tableDigests sampleTable) timelessProtocol sampleActions

theorem sampleActions_legible : ∀ action ∈ sampleActions, action.Legible sampleCodecs := by
  intro action haction
  simp only [sampleActions, List.mem_cons, List.not_mem_nil, or_false] at haction
  rcases haction with rfl | rfl | rfl | rfl | rfl <;> try trivial
  all_goals
    intro output houtput
    cases houtput

/-! ## Coherence -/

/-- What holds of a database and its handles, whatever they have done. -/
structure Coherence (C : StoreCodecs) (D : Digests) (P : Protocol) (cluster : Cluster) : Prop where
  /-- No update is lost, and none is made from an old head. -/
  chained : ExtendsHead D cluster.log
  records : loadRecords C cluster.contents = .ok (cluster.log.map fun entry => entry.2.record)
  audited : ∃ verified, auditAtHead C D P cluster.contents = .ok verified
  /-- A handle that keeps its cache could as well have rebuilt it. -/
  current : ∀ k session faults cached head, cluster.sessions k = some session →
    session.cached = some cached → loadDurableHead cluster.contents = .ok head →
    cached.isCurrent (Faults.engine faults session.now) head = true →
    Rebuilds C D P cluster.contents cached

theorem Cluster.Sound.coherence (h : self.Sound C D P store) : Coherence C D P self where
  chained := h.chained
  records := by
    have hcoherent := h.backs.reached.coherent
    have hrun := coherent_runCalls (D := D) (P := P) (self.log.map Prod.fst)
    rw [h.logged] at hrun
    rw [h.backs.mirrors.loadRecords hcoherent.journal, hrun.2.records, List.map_map]
    rfl
  audited := ⟨_, h.backs.auditAtHead⟩
  current := by
    intro k session faults cached head hsession hcached _ hcurrent
    obtain ⟨hversion, -⟩ : cached.dataVersion = session.now ∧ cached.index.head = head :=
      of_decide_eq_true hcurrent
    exact (h.caches k session hsession).current hcached hversion

/-- **No cache is stale and no update is lost**, in whatever order handles are opened and closed,
append and read, and wherever SQLite fails. -/
theorem sqlite_connections_coherent (hreturns : C.RoundTrip) (actions : List Action)
    (hlegible : ∀ action ∈ actions, action.Legible C) :
    Coherence C D P (Cluster.run C D P actions) := by
  obtain ⟨store, h⟩ := Cluster.sound_run (D := D) (P := P) hreturns actions hlegible
  exact h.coherence

theorem sampleCluster_runs :
    (sampleCluster.log.map fun entry => entry.2.record.event.eventId) = ["event-1"] ∧
      (sampleCluster.sessions 1).isSome = true := by
  decide +kernel

theorem sqlite_connections_coherent_sample :
    (sampleCluster.log.map fun entry => entry.2.record.event.eventId) = ["event-1"] ∧
      Coherence sampleCodecs (tableDigests sampleTable) timelessProtocol sampleCluster :=
  ⟨sampleCluster_runs.1,
    sqlite_connections_coherent sampleCodecs_roundTrip sampleActions sampleActions_legible⟩

/-! ## Answers -/

/-- Every call of a handle does what it does on the memory store, or SQLite fails. -/
structure AnswersAs (C : StoreCodecs) (D : Digests) (P : Protocol) (E : Engine)
    (self : SqliteRunStore) (store : MemoryRunStore) : Prop where
  loads : ∀ call, ReadResult E self (self.refreshed E.dataVersion store.index)
    (store.read D P call) (SqliteRunStore.read C D P E call self)
  appends : ∀ call : AppendCall,
    (∀ output, call.sidecars.output = some output → C.toolOutput.Returns output) →
      AppendResult C D P E store self call (SqliteRunStore.call C D P E call self)

/-- **Every handle answers as one memory store**: the one that the committed appends have filled,
which returns the same commits. -/
theorem sqlite_answers_as_memory (hreturns : C.RoundTrip) (actions : List Action)
    (hlegible : ∀ action ∈ actions, action.Legible C) :
    ∃ store, runCalls D P ((Cluster.run C D P actions).log.map Prod.fst) =
        (store, (Cluster.run C D P actions).log.map Prod.snd) ∧
      ∀ k session, (Cluster.run C D P actions).sessions k = some session → ∀ faults : Faults,
        AnswersAs C D P (faults.engine session.now)
          (.over (Cluster.run C D P actions).contents session) store := by
  obtain ⟨store, h⟩ := Cluster.sound_run (D := D) (P := P) hreturns actions hlegible
  refine ⟨store, h.logged, fun k session hsession faults => ⟨fun call => ?_, fun call houtput => ?_⟩⟩
  · exact SqliteRunStore.read_result h.backs (h.fits hsession faults) call
  · exact SqliteRunStore.call_result hreturns h.backs (h.fits hsession faults) call houtput

theorem sqlite_answers_as_memory_sample : ∃ session store,
    sampleCluster.sessions 1 = some session ∧
      runCalls (tableDigests sampleTable) timelessProtocol (sampleCluster.log.map Prod.fst) =
        (store, sampleCluster.log.map Prod.snd) ∧
      sampleCluster.log.length = 1 ∧
      AnswersAs sampleCodecs (tableDigests sampleTable) timelessProtocol
        (Faults.engine {} session.now) (.over sampleCluster.contents session) store := by
  obtain ⟨hevents, hopen⟩ := sampleCluster_runs
  have hlength : sampleCluster.log.length = 1 := by
    rw [← List.length_map, hevents, List.length_singleton]
  obtain ⟨session, hsession⟩ := Option.isSome_iff_exists.mp hopen
  obtain ⟨store, hlogged, hanswers⟩ := sqlite_answers_as_memory (D := tableDigests sampleTable)
    (P := timelessProtocol) sampleCodecs_roundTrip sampleActions sampleActions_legible
  rw [← sampleCluster] at hlogged hanswers
  exact ⟨session, store, hsession, hlogged, hlength, hanswers 1 session hsession {}⟩

end Xgeny
