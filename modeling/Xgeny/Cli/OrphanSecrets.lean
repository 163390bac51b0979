import Xgeny.Cli.CredentialReferences
import Xgeny.Cli.ProfileRoundTrip

set_option autoImplicit false

/-!
# Secrets without a profile

After each command every secret in the credential store belongs to a profile in the file, when a setup
that stores a secret finds room for its profile.

* `tryUse_keeps`, `logout_keeps`, `remove_keeps`: the commands that store no secret;
* `SecretPrepared`, **`commitSetup_keeps`**: a setup;
* `Command.HasRoom`, `CommandRun`, **`no_orphaned_secrets`**: the commands of a user, one after the
  other;
* **`secret_orphaned`**: a full collection leaves a secret behind.
-/

namespace Xgeny

open Mutation ModelCommand

/-! ## The three commands without a new secret -/

section

variable {lib : ProviderCrates} {codec : ProfileCodec} {sha256 : List UInt8 → Sha256Hex}
  {generated : String → Prop} {m m' : Stores} {profiles : ModelProfiles}

theorem keeps_pure {α : Type} {a : α} (h : m.NoOrphans codec generated) :
    KeepsReferenced lib codec sha256 generated (pure a) m := h

theorem tryUse_keeps (hcodec : codec.RoundTrips) (h : m.NoOrphans codec generated) {name : String} :
    KeepsReferenced lib codec sha256 generated (tryUse name) m := by
  refine keeps_ask h (by trivial) fun _ _ => keeps_ask h (by trivial) fun _ _ => keeps_load h
    fun profiles hloaded => keeps_applied h fun _ active hactive => keeps_lift h fun selected _ => ?_
  have hcovers : Covers generated active m := by
    intro r hr hsecret
    obtain ⟨profile, hprofile, hreference⟩ := (Stores.referenced_iff hloaded).mp (h r hr hsecret)
    refine ⟨profile, ?_, hreference⟩
    rwa [setActive_profiles hactive]
  exact (keeps_save hcodec h hcovers).bind fun _ _ hkept => keeps_pure hkept

/-- Once the secret of a profile is deleted, a collection that keeps the other profiles covers the
others. -/
theorem withdrawn (h : m.NoOrphans codec generated) (hloaded : m.loaded lib codec sha256 = .ok profiles)
    {name : String} {profile : ModelProfile} (hfound : profiles.get name = some profile)
    (hwithout : m.Without profile.credentialRef m') {profiles' : ModelProfiles}
    (hkept : ∀ other ∈ profiles.profiles, other.name ≠ name → other ∈ profiles'.profiles) :
    m'.NoOrphans codec generated ∧ Covers generated profiles' m' := by
  refine ⟨h.of_file hwithout.file fun r hr => (hwithout.secrets r hr).1, fun r hr hsecret => ?_⟩
  obtain ⟨hbefore, hold⟩ := hwithout.secrets r hsecret
  refine covers_without h hloaded hr hbefore ?_ hkept
  rwa [hfound]

theorem logout_keeps (hcodec : codec.RoundTrips) (h : m.NoOrphans codec generated)
    {name : Option String} : KeepsReferenced lib codec sha256 generated (ModelCommand.logout name) m := by
  refine keeps_ask h (by trivial) fun _ _ => keeps_ask h (by trivial) fun _ _ => keeps_load h
    fun profiles hloaded => keeps_lift h fun selected _ => keeps_lift h fun profile hprofile =>
      keeps_deleteSecret h fun m' hwithout => ?_
  have hfound := Outcome.okOr_eq_ok.mp hprofile
  have h' := h.of_file hwithout.file fun r hr => (hwithout.secrets r hr).1
  refine keeps_applied h' fun _ cleared hclear => ?_
  obtain ⟨hkept, hcovers⟩ := withdrawn h hloaded hfound hwithout (clearCredential_mem hclear)
  exact (keeps_save hcodec hkept hcovers).bind fun _ _ hlast => keeps_pure hlast

theorem remove_keeps (hcodec : codec.RoundTrips) (h : m.NoOrphans codec generated) {name : String} :
    KeepsReferenced lib codec sha256 generated (ModelCommand.remove name) m := by
  refine keeps_ask h (by trivial) fun _ _ => keeps_ask h (by trivial) fun _ _ => keeps_load h
    fun profiles hloaded => keeps_lift h fun profile hprofile =>
      keeps_deleteSecret h fun m' hwithout => ?_
  have hfound := Outcome.okOr_eq_ok.mp hprofile
  have h' := h.of_file hwithout.file fun r hr => (hwithout.secrets r hr).1
  refine keeps_applied h' fun _ removed hremove => ?_
  obtain ⟨hkept, hcovers⟩ := withdrawn h hloaded hfound hwithout (remove_mem hremove)
  exact keeps_save hcodec hkept hcovers

/-! ## A setup -/

/-- A lower-case hexadecimal digit. -/
def isHexByte (byte : UInt8) : Bool :=
  decide (0x30 ≤ byte ∧ byte ≤ 0x39) || decide (0x61 ≤ byte ∧ byte ≤ 0x66)

theorem encode_hexByte (byte : UInt8) : (Utf8.encode (AtomicCommit.hexByte byte)).length = 2 ∧
    (Utf8.encode (AtomicCommit.hexByte byte)).all isHexByte = true := by
  have hall : ∀ n < 256, (Utf8.encode (AtomicCommit.hexByte (UInt8.ofNat n))).length = 2 ∧
      (Utf8.encode (AtomicCommit.hexByte (UInt8.ofNat n))).all isHexByte = true := by
    decide +kernel
  have hbyte := hall byte.toNat byte.toNat_lt
  rwa [UInt8.ofNat_toNat] at hbyte

theorem encode_hexBytes (random : List UInt8) :
    (Utf8.encode (random.flatMap AtomicCommit.hexByte)).length = 2 * random.length ∧
      (Utf8.encode (random.flatMap AtomicCommit.hexByte)).all isHexByte = true := by
  induction random with
  | nil => exact ⟨rfl, rfl⟩
  | cons byte rest ih =>
    obtain ⟨hlength, hhex⟩ := encode_hexByte byte
    rw [List.flatMap_cons, Utf8.encode_append, List.length_append, List.all_append, hlength, ih.1,
      hhex, ih.2, List.length_cons]
    exact ⟨by omega, rfl⟩

theorem validCredentialRef_credentialReference (random : Vector UInt8 16) :
    validCredentialRef (credentialReference random) = true := by
  obtain ⟨hlength, hhex⟩ := encode_hexBytes random.toList
  rw [Vector.length_toList] at hlength
  have hbytes : bytes (credentialReference random) =
      bytes "cred-" ++ Utf8.encode (random.toList.flatMap AtomicCommit.hexByte) := by
    rw [credentialReference, bytes_append]
    congr 1
    rw [bytes_eq_encode, String.toList_ofList]
  have hfront : (bytes "cred-").length = 5 := by decide
  have hdrop : (bytes (credentialReference random)).drop 5 =
      Utf8.encode (random.toList.flatMap AtomicCommit.hexByte) := by
    rw [hbytes, List.drop_append, hfront, List.drop_of_length_le hfront.le]
    rfl
  unfold validCredentialRef
  refine decide_eq_true ⟨?_, ?_, ?_⟩
  · rw [byteLen_eq_length, hbytes, List.length_append, hfront, hlength]
  · rw [credentialReference, String.toList_append]
    exact List.prefix_append _ _
  · rw [hdrop]
    exact hhex

theorem validate_reference {profile : ModelProfile} {reference : Option String}
    (h : profile.validate lib = .ok ()) (hreference : validReference reference = true) :
    { profile with credentialRef := reference }.validate lib = .ok () := by
  rw [ModelProfile.validate_eq_ok] at h ⊢
  exact ⟨⟨h.1.1, hreference⟩, h.2⟩

theorem setCredentialReference_eq_ok {profile profile' : ModelProfile} {reference : Option String}
    {u : Unit} : ModelProfile.setCredentialReference reference profile = (.ok u, profile') ↔
      validReference reference = true ∧ profile' = { profile with credentialRef := reference } := by
  simp only [ModelProfile.setCredentialReference, bind_eq_ok, reads_eq_ok, writes_eq_ok,
    Outcome.failIf_eq_ok, Bool.not_eq_false]
  constructor
  · rintro ⟨_, _, ⟨hvalid, rfl⟩, rfl⟩
    exact ⟨hvalid, rfl⟩
  · rintro ⟨hvalid, rfl⟩
    exact ⟨(), profile, ⟨hvalid, rfl⟩, rfl⟩

theorem keeps_setupProfile (h : m.NoOrphans codec generated) {args : SetupArgs} {inputs : SetupInputs}
    {β : Type} {f : ModelProfile → CommandRoutine β}
    (hf : ∀ profile, profile.validate lib = .ok () → profile.name = args.name →
      KeepsReferenced lib codec sha256 generated (f profile) m) :
    KeepsReferenced lib codec sha256 generated (setupProfile lib args inputs >>= f) m := by
  rw [setupProfile, Prog.bind_assoc]
  refine keeps_lift h fun profile hprofile => ?_
  obtain ⟨_, -, hname⟩ := Outcome.bind_eq_ok.mp (Outcome.mapErr_eq_ok.mp hprofile)
  obtain rfl := Outcome.pure_eq_ok.mp hname
  rw [Prog.bind_assoc]
  refine keeps_applied h fun _ limited hlimited => ?_
  rw [Prog.bind_assoc]
  refine keeps_applied h fun _ optioned hoptioned => ?_
  simp only [ModelProfile.setInferenceLimits, ModelProfile.setRequestOptions, bind_eq_ok,
    reads_eq_ok, writes_eq_ok] at hlimited hoptioned
  obtain ⟨_, _, rfl, -, rfl⟩ := hlimited
  obtain ⟨_, _, ⟨hvalid, rfl⟩, rfl⟩ := hoptioned
  exact hf _ hvalid rfl

/-- What the decision about the secret leaves. -/
structure SecretPrepared (lib : ProviderCrates) (m : Stores) (oldReference : Option String)
    (profile : ModelProfile) (stores : Prop) (m' : Stores) (prepared : ModelProfile × Option String) :
    Prop where
  valid : prepared.1.validate lib = .ok ()
  name : prepared.1.name = profile.name
  file : m'.file = m.file
  /-- A secret that is left belongs to this profile, or to another one. -/
  secrets : ∀ r, (m'.secrets r).isSome →
    prepared.1.credentialRef = some r ∨ (m.secrets r).isSome ∧ oldReference ≠ some r
  /-- A secret that was not there is the one just stored. -/
  fresh : ∀ r, (m'.secrets r).isSome → prepared.2 ≠ some r → (m.secrets r).isSome
  stores : prepared.2.isSome → stores

/-- **The decision about the secret.** -/
theorem setupCredential_ends (h : m.NoOrphans codec generated) {args : SetupArgs}
    {inputs : SetupInputs} {oldReference : Option String} {profile : ModelProfile}
    (hvalid : profile.validate lib = .ok ()) {β : Type}
    {f : ModelProfile × Option String → CommandRoutine β}
    (hf : ∀ prepared m',
      SecretPrepared lib m oldReference profile (inputs.storesSecret args = true) m' prepared →
        KeepsReferenced lib codec sha256 generated (f prepared) m') :
    KeepsReferenced lib codec sha256 generated (setupCredential args inputs oldReference profile >>= f) m := by
  unfold setupCredential
  by_cases hretain : inputs.source = .secureStore
  · rw [if_pos hretain, Prog.bind_assoc]
    refine keeps_applied h fun _ retained hretained => ?_
    obtain ⟨hreference, rfl⟩ := setCredentialReference_eq_ok.mp hretained
    refine hf _ m ⟨validate_reference hvalid hreference, rfl, rfl, fun r hr => ?_,
      fun r hr _ => hr, fun hnone => by cases hnone⟩
    by_cases hold : oldReference = some r
    · exact Or.inl hold
    · exact Or.inr ⟨hr, hold⟩
  rw [if_neg hretain]
  by_cases hstore : args.storeToken = true ∨ inputs.source = .interactive
  swap
  · rw [if_neg hstore, Prog.bind_assoc]
    refine keeps_deleteSecret h fun m' hwithout => ?_
    exact hf _ m' ⟨hvalid, rfl, hwithout.file, fun r hr => Or.inr (hwithout.secrets r hr),
      fun r hr _ => (hwithout.secrets r hr).1, fun hnone => by cases hnone⟩
  rw [if_pos hstore, Prog.bind_assoc]
  refine keeps_deleteSecret h fun m₁ hwithout => ?_
  have h₁ := h.of_file hwithout.file fun r hr => (hwithout.secrets r hr).1
  rw [Prog.bind_assoc]
  refine keeps_ask h₁ (by trivial) fun random _ => ?_
  rw [Prog.bind_assoc]
  refine keeps_lift h₁ fun secret _ => ?_
  rw [Prog.bind_assoc]
  rintro answer m₂ ⟨hstep, -⟩
  cases answer with
  | error error =>
    obtain rfl : m₂ = m₁ := hstep
    exact h₁
  | ok value =>
    obtain rfl : m₂ = m₁.put (credentialReference random) secret := hstep
    have hreference : validReference (some (credentialReference random)) = true :=
      validCredentialRef_credentialReference random
    have hset := @setCredentialReference_eq_ok profile _ _ () |>.mpr ⟨hreference, rfl⟩
    show KeepsReferenced lib codec sha256 generated ((applied (ModelProfile.setCredentialReference
      (some (credentialReference random))) profile >>= fun stored =>
        pure (stored.2, some (credentialReference random))) >>= f) _
    rw [applied_bind hset]
    refine hf _ _ ⟨validate_reference hvalid hreference, rfl,
      hwithout.file, fun r hr => ?_, fun r hr hne => ?_, fun _ => ?_⟩
    · rcases isSome_put hr with rfl | hr
      · exact Or.inl rfl
      · exact Or.inr (hwithout.secrets r hr)
    · rcases isSome_put hr with rfl | hr
      · exact absurd rfl hne
      · exact (hwithout.secrets r hr).1
    · exact decide_eq_true ⟨hretain, hstore⟩

/-- **The save of a setup**, with a collection that covers the secrets. -/
theorem saveSetup_keeps (hcodec : codec.RoundTrips) (h : m.NoOrphans codec generated)
    (hfile : m'.file = m.file) {newReference : Option String}
    (hfresh : ∀ r, (m'.secrets r).isSome → newReference ≠ some r → (m.secrets r).isSome)
    (hcovers : Covers generated profiles m') :
    KeepsReferenced lib codec sha256 generated (saveSetup profiles newReference) m' := by
  rintro answer m₁ ⟨hstep, -⟩
  cases answer with
  | ok value =>
    obtain ⟨text, htext, rfl⟩ := hstep
    exact hcovers.saved hcodec htext
  | error error =>
    cases newReference with
    | none =>
      rcases hstep with rfl | ⟨-, text, htext, rfl⟩
      · exact h.of_file hfile fun r hr => hfresh r hr (by simp)
      · exact hcovers.saved hcodec htext
    | some reference =>
      rintro answer m₂ ⟨hundo, hcompensates⟩
      cases answer with
      | error error => exact hcompensates.elim
      | ok value =>
        obtain rfl : m₂ = m₁.delete reference := hundo
        rcases hstep with rfl | ⟨-, text, htext, rfl⟩
        · refine h.of_file hfile fun r hr => ?_
          obtain ⟨hsecret, hne⟩ := isSome_delete hr
          exact hfresh r hsecret fun heq => hne (Option.some.inj heq).symm
        · exact (hcovers.saved hcodec htext).of_file rfl fun r hr => (isSome_delete hr).1

/-- **The part of a setup that changes the stores.** -/
theorem commitSetup_keeps (hcodec : codec.RoundTrips) (h : m.NoOrphans codec generated)
    (hloaded : m.loaded lib codec sha256 = .ok profiles) {args : SetupArgs} {inputs : SetupInputs}
    {profile : ModelProfile} (hvalid : profile.validate lib = .ok ())
    (hname : profile.name = args.name)
    (hroom : inputs.storesSecret args = true →
      (profiles.get args.name).isSome ∨ profiles.profiles.length < maxProfiles) :
    KeepsReferenced lib codec sha256 generated (commitSetup lib args inputs profiles profile) m := by
  refine setupCredential_ends h hvalid fun prepared m' hprepared => ?_
  have hsame : prepared.1.name = args.name := hprepared.name.trans hname
  have hcovers : ∀ previous inserted activated u,
      ModelProfiles.upsert lib prepared.1 profiles = (.ok previous, inserted) →
        ModelProfiles.setActive prepared.1.name inserted = (.ok u, activated) →
          Covers generated activated m' := by
    intro previous inserted activated u hinsert hactive r hr hsecret
    obtain ⟨hself, hothers⟩ := upsert_mem hinsert
    unfold ModelProfiles.References
    rw [setActive_profiles hactive]
    rcases hprepared.secrets r hsecret with hreference | ⟨hbefore, hold⟩
    · exact ⟨prepared.1, hself, hreference⟩
    · rw [hsame] at hothers
      exact covers_without h hloaded hr hbefore hold hothers
  have hsave : ∀ activated, Covers generated activated m' →
      KeepsReferenced lib codec sha256 generated (do
        saveSetup activated prepared.2
        pure (prepared.1, prepared.1.credentialRef.isSome)) m' := fun activated hactivated =>
    (saveSetup_keeps hcodec h hprepared.file hprepared.fresh hactivated).bind
      fun _ _ hlast => keeps_pure hlast
  cases hnew : prepared.2 with
  | none =>
    have h' := h.of_file hprepared.file fun r hr => hprepared.fresh r hr (by simp [hnew])
    refine keeps_applied h' fun previous inserted hinsert => ?_
    refine keeps_applied h' fun u activated hactive => ?_
    exact hsave activated (hcovers previous inserted activated u hinsert hactive)
  | some reference =>
    -- A secret was stored, and nothing may fail before the save.
    have hspace := hroom (hprepared.stores (by simp [hnew]))
    rw [← hsame] at hspace
    obtain ⟨previous, inserted, hinsert⟩ := upsert_total hprepared.valid hspace
    have hself := List.mem_map_of_mem (f := ModelProfile.name) (upsert_mem hinsert).1
    obtain ⟨activated, hactive⟩ := setActive_total hself
    show KeepsReferenced lib codec sha256 generated (applied (ModelProfiles.upsert lib prepared.1) profiles >>= _) m'
    rw [applied_bind hinsert]
    show KeepsReferenced lib codec sha256 generated
      (applied (ModelProfiles.setActive prepared.1.name) inserted >>= _) m'
    rw [applied_bind hactive]
    exact hsave activated (hcovers previous inserted activated () hinsert hactive)

theorem trySetup_keeps (hcodec : codec.RoundTrips) (h : m.NoOrphans codec generated)
    {args : SetupArgs} {inputs : SetupInputs}
    (hroom : inputs.storesSecret args = true → ∀ profiles, m.loaded lib codec sha256 = .ok profiles →
      (profiles.get args.name).isSome ∨ profiles.profiles.length < maxProfiles) :
    KeepsReferenced lib codec sha256 generated (trySetup lib args inputs) m := by
  refine keeps_ask h (by trivial) fun _ _ => keeps_load h fun profiles hloaded =>
    keeps_ask h (by trivial) fun _ _ => keeps_lift h fun _ _ => keeps_ask h (by trivial) fun _ _ =>
      keeps_ask h (by trivial) fun _ _ => keeps_load h fun _ _ => keeps_lift h fun _ _ =>
        keeps_setupProfile h fun profile hvalid hname => ?_
  exact commitSetup_keeps hcodec h hloaded hvalid hname fun hstores => hroom hstores profiles hloaded

end

/-! ## The commands of a user -/

/-- A setup that stores a secret finds its profile in the file, or room for it. -/
def Command.HasRoom (lib : ProviderCrates) (codec : ProfileCodec) (sha256 : List UInt8 → Sha256Hex) :
    Command → Stores → Prop
  | .setup args inputs, m => inputs.storesSecret args = true →
    ∀ profiles, m.loaded lib codec sha256 = .ok profiles →
      (profiles.get args.name).isSome ∨ profiles.profiles.length < maxProfiles
  | _, _ => True

/-- The stores that complete commands lead to, each of which meets a condition. -/
inductive CommandRun (lib : ProviderCrates) (codec : ProfileCodec) (sha256 : List UInt8 → Sha256Hex)
    (meets : Command → Stores → Prop) (start : Stores) : Stores → Prop
  | start : CommandRun lib codec sha256 meets start start
  | command {m m' : Stores} {command : Command}
      {history : List (Happening CommandOp CommandOp.Response Unit)}
      {outcome : Outcome ModelCliError Unit} (hbefore : CommandRun lib codec sha256 meets start m)
      (hmeets : meets command m)
      (hexec : Exec (modelStores lib codec sha256) (command.run lib) m history m' (some outcome)) :
      CommandRun lib codec sha256 meets start m'

/-- **A command that has room leaves no orphan.** -/
theorem Command.keeps {lib : ProviderCrates} {codec : ProfileCodec} {sha256 : List UInt8 → Sha256Hex}
    {generated : String → Prop} {m : Stores} (hcodec : codec.RoundTrips)
    (h : m.NoOrphans codec generated) {command : Command}
    (hroom : command.HasRoom lib codec sha256 m) :
    KeepsReferenced lib codec sha256 generated (command.run lib) m := by
  cases command with
  | setup args inputs => exact (trySetup_keeps hcodec h hroom).bind fun _ _ hlast => keeps_pure hlast
  | use name => exact (tryUse_keeps hcodec h).bind fun _ _ hlast => keeps_pure hlast
  | logout name => exact (logout_keeps hcodec h).bind fun _ _ hlast => keeps_pure hlast
  | remove name => exact remove_keeps hcodec h

/-- **No secret is orphaned**, when every setup that stores one has room for its profile. -/
theorem no_orphaned_secrets (lib : ProviderCrates) (codec : ProfileCodec)
    (sha256 : List UInt8 → Sha256Hex) (generated : String → Prop) (start final : Stores)
    (hcodec : codec.RoundTrips) (hstart : start.NoOrphans codec generated)
    (hrun : CommandRun lib codec sha256 (Command.HasRoom lib codec sha256) start final) :
    final.NoOrphans codec generated := by
  induction hrun with
  | start => exact hstart
  | command _ hroom hexec ih => exact (Command.keeps hcodec ih hroom).exec hexec

/-! ## A setup without room -/

section

open ProfileStore (profileCrates profileCrates_checks namedProfile namedProfile_valid)

/-- A setup of one more profile, with a secret to store. -/
def extraArgs : SetupArgs := ⟨"extra", true⟩

def extraInputs : SetupInputs where
  baseUrl := "https://models.example/v1"
  secret := some "key"
  source := .standardInput
  model := "m"
  tokenizer := "t"
  inferenceLimits := .default
  requestOptions := ⟨.jsonSchema, .default⟩

/-- The reference of its secret. -/
def extraReference : String := credentialReference (Vector.replicate 16 0)

theorem extraReference_valid : validReference (some extraReference) = true :=
  validCredentialRef_credentialReference (Vector.replicate 16 0)

/-- The profile with the reference. -/
def extraProfile : ModelProfile := { namedProfile "extra" with credentialRef := some extraReference }

theorem extraProfile_valid : extraProfile.validate profileCrates = .ok () :=
  validate_reference (namedProfile_valid (by decide)) extraReference_valid

variable {codec : ProfileCodec} {sha256 : List UInt8 → Sha256Hex} {m m' : Stores}
  {profiles : ModelProfiles} {result : Option (Outcome ModelCliError (ModelProfile × Bool))}
  {after : List (Happening CommandOp CommandOp.Response Unit)}

theorem step_exec {op : CommandOp} {value : op.Value} {α : Type} {f : op.Value → CommandRoutine α}
    {m₁ : Stores} {result : Option (Outcome ModelCliError α)}
    (hstep : m.Step profileCrates codec sha256 op (.ok value) m₁)
    (hrest : Exec (modelStores profileCrates codec sha256) (f value) m₁ after m' result) :
    Exec (modelStores profileCrates codec sha256) (ask op >>= f) m (.did op (.ok value) :: after) m'
      result := by
  have hcompensates : Compensates op (.ok value) := by
    cases op <;> trivial
  exact .call ⟨hstep, hcompensates⟩ hrest

theorem extra_commit_exec (hnew : profiles.get "extra" = none)
    (hrest : Exec (modelStores profileCrates codec sha256) (do
      let inserted ← applied (ModelProfiles.upsert profileCrates extraProfile) profiles
      let activated ← applied (ModelProfiles.setActive "extra") inserted.2
      saveSetup activated.2 (some extraReference)
      pure (extraProfile, true)) (m.put extraReference "key") after m' result) :
    ∃ history, Exec (modelStores profileCrates codec sha256)
      (commitSetup profileCrates extraArgs extraInputs profiles (namedProfile "extra")) m history m'
        result := by
  have hrandom : m.Step profileCrates codec sha256 .fillRandom (.ok (Vector.replicate 16 0)) m := rfl
  have hput : m.Step profileCrates codec sha256 (.put extraReference "key") (.ok ())
    (m.put extraReference "key") := rfl
  have hset := @setCredentialReference_eq_ok (namedProfile "extra") _ _ () |>.mpr
    ⟨extraReference_valid, rfl⟩
  have hcredential : setupCredential extraArgs extraInputs none (namedProfile "extra") = (do
      let random ← ask .fillRandom
      let secret ← Prog.lift (Outcome.okOr (some "key") .invalidCredential)
      ask (.put (credentialReference random) secret)
      let stored ← applied (ModelProfile.setCredentialReference
        (some (credentialReference random))) (namedProfile "extra")
      pure (stored.2, some (credentialReference random))) := rfl
  have hname : profiles.get extraArgs.name = none := hnew
  refine ⟨[.did .fillRandom (.ok (Vector.replicate 16 0)), .did (.put extraReference "key") (.ok ())] ++
    after, ?_⟩
  unfold commitSetup
  rw [hname]
  show Exec _ (setupCredential extraArgs extraInputs none (namedProfile "extra") >>= _) m _ m' result
  rw [hcredential, Prog.bind_assoc]
  refine step_exec hrandom ?_
  rw [Prog.bind_assoc]
  refine Prog.lift_bind_exec rfl ?_
  rw [Prog.bind_assoc]
  refine step_exec hput ?_
  have hreference : credentialReference (Vector.replicate 16 0) = extraReference := rfl
  rw [Prog.bind_assoc, hreference, applied_bind hset]
  exact hrest

theorem extra_exec (hloaded : m.loaded profileCrates codec sha256 = .ok profiles)
    (hnew : profiles.get "extra" = none)
    (hrest : Exec (modelStores profileCrates codec sha256) (do
      let inserted ← applied (ModelProfiles.upsert profileCrates extraProfile) profiles
      let activated ← applied (ModelProfiles.setActive "extra") inserted.2
      saveSetup activated.2 (some extraReference)
      pure (extraProfile, true)) (m.put extraReference "key") after m' result) :
    ∃ history, Exec (modelStores profileCrates codec sha256)
      (trySetup profileCrates extraArgs extraInputs) m history m' result := by
  have hvalid := namedProfile_valid (show validProfileName "extra" = true by decide)
  have hprofile : (ModelProfile.new profileCrates "extra" "https://models.example/v1" "m" "t").mapErr
      ModelCliError.profile = .ok (namedProfile "extra") :=
    Outcome.mapErr_eq_ok.mpr (Outcome.bind_eq_ok.mpr ⟨(), hvalid, rfl⟩)
  have hlimits : ModelProfile.setInferenceLimits profileCrates extraInputs.inferenceLimits
      (namedProfile "extra") =
      (.ok (), namedProfile "extra") := congrArg (·, namedProfile "extra") hvalid
  have hoptions : ModelProfile.setRequestOptions profileCrates extraInputs.requestOptions
      (namedProfile "extra") = (.ok (), namedProfile "extra") :=
    bind_eq_ok.mpr ⟨(), _, reads_eq_ok.mpr ⟨hvalid, rfl⟩, rfl⟩
  have hload : m.Step profileCrates codec sha256 .load (.ok profiles) m := ⟨rfl, hloaded⟩
  have hidle : ∀ op : CommandOp, op = .discover ∨ op = .resolveSecret ∨ op = .checkProvider ∨
      op = .tryLock → ∃ value, m.Step profileCrates codec sha256 op (.ok value) m := by
    rintro op (rfl | rfl | rfl | rfl) <;> exact ⟨(), rfl⟩
  obtain ⟨history, hcommit⟩ := extra_commit_exec hnew hrest
  have hprepared : Exec (modelStores profileCrates codec sha256)
      (setupProfile profileCrates extraArgs extraInputs >>= fun profile =>
        commitSetup profileCrates extraArgs extraInputs profiles profile) m history m' result := by
    rw [setupProfile, Prog.bind_assoc]
    refine Prog.lift_bind_exec hprofile ?_
    rw [Prog.bind_assoc, applied_bind hlimits, Prog.bind_assoc, applied_bind hoptions]
    exact hcommit
  have hsame : Outcome.failIf (profiles ≠ profiles)
      (ModelCliError.profile .concurrentModification) = .ok () := if_neg (fun h => h rfl)
  have hsecret : Outcome.failIf (extraArgs.storeToken = true ∧ extraInputs.secret = none)
      ModelCliError.invalidCredential = .ok () := rfl
  obtain ⟨_, hdiscover⟩ := hidle .discover (by simp)
  obtain ⟨_, hresolve⟩ := hidle .resolveSecret (by simp)
  obtain ⟨_, hcheck⟩ := hidle .checkProvider (by simp)
  obtain ⟨_, hlock⟩ := hidle .tryLock (by simp)
  exact ⟨_, step_exec hdiscover (step_exec hload (step_exec hresolve (Prog.lift_bind_exec hsecret
    (step_exec hcheck (step_exec hlock (step_exec hload (Prog.lift_bind_exec hsame hprepared)))))))⟩

theorem extra_run {outcome : Outcome ModelCliError (ModelProfile × Bool)}
    (h : ∃ history, Exec (modelStores profileCrates codec sha256)
      (trySetup profileCrates extraArgs extraInputs) m history m' (some outcome)) :
    ∃ history last, Exec (modelStores profileCrates codec sha256)
      ((Command.setup extraArgs extraInputs).run profileCrates) m history m' (some last) := by
  obtain ⟨history, hexec⟩ := h
  cases outcome with
  | ok value => exact ⟨_, .ok (), Prog.bind_exec_ok hexec .ret⟩
  | error fault => exact ⟨history, .error fault, Prog.bind_exec_error hexec⟩

end

open ProfileStore (profileCrates profileCrates_checks decode_same_iff namedProfile namedProfile_valid
  profileText profilesText oneDocument oneDocument_roundTrips oneDocument_encodes)

/-- The collection after the first setup, and its file. -/
def firstProfiles : ModelProfiles := ⟨some "extra", [extraProfile], none⟩

def firstText : List UInt8 :=
  profilesText "\"extra\"" [profileText "extra" ("\"" ++ extraReference ++ "\"")]

def firstCodec : ProfileCodec := oneDocument (.fromProfiles firstProfiles) firstText

/-- The first setup of a user keeps its secret. -/
theorem no_orphaned_secrets_sample : ∃ final : Stores, (final.secrets extraReference).isSome ∧
    final.NoOrphans firstCodec fun _ => True := by
  have hlength : firstText.length ≤ maxProfileFileBytes := by decide +kernel
  have hinsert : ModelProfiles.upsert profileCrates extraProfile .empty =
      (.ok none, ⟨none, [extraProfile], none⟩) :=
    bind_eq_ok.mpr ⟨(), .empty, reads_eq_ok.mpr ⟨extraProfile_valid, rfl⟩, rfl⟩
  have hactive : ModelProfiles.setActive "extra" ⟨none, [extraProfile], none⟩ =
      (.ok (), firstProfiles) := rfl
  have hsave : Exec (modelStores profileCrates firstCodec fun _ => zeroHash) (do
      let inserted ← applied (ModelProfiles.upsert profileCrates extraProfile) .empty
      let activated ← applied (ModelProfiles.setActive "extra") inserted.2
      saveSetup activated.2 (some extraReference)
      pure (extraProfile, true)) (Stores.put ⟨none, fun _ => none⟩ extraReference "key")
      [.did (.save firstProfiles) (.ok ())]
      { Stores.put ⟨none, fun _ => none⟩ extraReference "key" with file := some firstText }
      (some (.ok (extraProfile, true))) := by
    rw [applied_bind hinsert]
    show Exec _ (applied (ModelProfiles.setActive "extra") ⟨none, [extraProfile], none⟩ >>= _) _ _ _ _
    rw [applied_bind hactive]
    exact .call ⟨⟨firstText, oneDocument_encodes hlength, rfl⟩, trivial⟩ .ret
  obtain ⟨history, last, hexec⟩ := extra_run (extra_exec (m := ⟨none, fun _ => none⟩) rfl rfl hsave)
  refine ⟨_, rfl, no_orphaned_secrets profileCrates firstCodec (fun _ => zeroHash) (fun _ => True)
    ⟨none, fun _ => none⟩ _ (oneDocument_roundTrips _ _) (fun _ _ h => by cases h)
    (.command .start ?_ hexec)⟩
  rintro - profiles hloaded
  obtain rfl := Except.ok.inj hloaded
  exact Or.inr (by decide)

/-- The names of a full collection. -/
def fullNames : List String :=
  (List.range maxProfiles).map fun n =>
    String.ofList [Nat.digitChar (n / 10), Nat.digitChar (n % 10)]

/-- A collection without room, and its file. -/
def fullProfiles : ModelProfiles := ⟨none, fullNames.map namedProfile, none⟩

def fullText : List UInt8 := profilesText "null" (fullNames.map fun name => profileText name "null")

def fullCodec : ProfileCodec := oneDocument (.fromProfiles fullProfiles) fullText

theorem fullProfiles_names : profileNames fullProfiles.profiles = fullNames := by
  show (fullNames.map namedProfile).map ModelProfile.name = fullNames
  rw [List.map_map]
  exact List.map_id _

theorem fullProfiles_wellFormed : fullProfiles.WellFormed profileCrates where
  sorted := by
    rw [fullProfiles_names]
    decide
  active := fun _ h => by cases h
  valid := by
    have hvalid : ∀ name ∈ fullNames, validProfileName name = true := by decide
    intro profile hprofile
    obtain ⟨name, hname, rfl⟩ := List.mem_map.mp hprofile
    exact namedProfile_valid (hvalid name hname)
  bounded := by decide

theorem fullText_loaded : ∃ loaded, Stores.loaded profileCrates fullCodec (fun _ => zeroHash)
    ⟨some fullText, fun _ => none⟩ = .ok loaded ∧ loaded.profiles = fullProfiles.profiles := by
  have hlength : fullText.length ≤ maxProfileFileBytes := by decide +kernel
  have hwhole : ∀ profile ∈ fullProfiles.profiles, profile.WholeSeconds := by
    intro profile hprofile
    obtain ⟨name, -, rfl⟩ := List.mem_map.mp hprofile
    show InferenceLimits.default.timeout.subsecNanos = 0
    decide
  have hcodec : fullCodec.RoundTrips := oneDocument_roundTrips _ _
  have hencoded : encodeProfiles fullCodec fullProfiles = .ok fullText := oneDocument_encodes hlength
  have hdecoded : ∃ loaded, decodeProfiles profileCrates fullCodec (fun _ => zeroHash) fullText =
      .ok loaded ∧ loaded.active = fullProfiles.active ∧ loaded.profiles = fullProfiles.profiles :=
    (decode_same_iff profileCrates_checks hcodec fullProfiles_wellFormed hencoded).mpr hwhole
  obtain ⟨loaded, hloaded, -, hprofiles⟩ := hdecoded
  exact ⟨loaded, hloaded, hprofiles⟩

theorem upsert_full {lib : ProviderCrates} {self : ModelProfiles} {profile : ModelProfile}
    (hvalid : profile.validate lib = .ok ()) (hnew : self.get profile.name = none)
    (hfull : maxProfiles ≤ self.profiles.length) :
    ModelProfiles.upsert lib profile self = (Outcome.fail .tooManyProfiles, self) := by
  have hplace : ModelProfiles.place profile none self = (Outcome.fail .tooManyProfiles, self) :=
    bind_eq_error.mpr (Or.inl (congrArg (·, self) (if_pos hfull)))
  exact bind_eq_error.mpr (Or.inr ⟨(), self, reads_eq_ok.mpr ⟨hvalid, rfl⟩,
    bind_eq_error.mpr (Or.inr ⟨none, self, reads_eq_ok.mpr ⟨congrArg Except.ok hnew, rfl⟩,
      bind_eq_error.mpr (Or.inl hplace)⟩)⟩)

/-- **A secret is orphaned** when a setup finds a full collection after it has stored the secret. -/
theorem secret_orphaned : ¬ ∀ (lib : ProviderCrates) (codec : ProfileCodec)
    (sha256 : List UInt8 → Sha256Hex) (generated : String → Prop) (start final : Stores),
    codec.RoundTrips → start.NoOrphans codec generated →
      CommandRun lib codec sha256 (fun _ _ => True) start final → final.NoOrphans codec generated := by
  intro hall
  obtain ⟨loaded, hloaded, hprofiles⟩ := fullText_loaded
  have hnew : loaded.get "extra" = none := by
    rw [ModelProfiles.get, hprofiles]
    decide
  have hfull : maxProfiles ≤ loaded.profiles.length := by
    rw [hprofiles]
    decide
  have hexec : (ModelProfiles.upsert profileCrates extraProfile).exec loaded =
      Outcome.fail .tooManyProfiles := by
    rw [exec, upsert_full extraProfile_valid hnew hfull]
    rfl
  have hstop : ((ModelProfiles.upsert profileCrates extraProfile).exec loaded).mapErr
      ModelCliError.profile = .error (.err (.profile .tooManyProfiles)) := by
    rw [hexec]
    rfl
  obtain ⟨history, last, hrun⟩ := extra_run (extra_exec hloaded hnew (Prog.lift_stop_exec hstop))
  have hkept := hall profileCrates fullCodec (fun _ => zeroHash) (fun _ => True)
    ⟨some fullText, fun _ => none⟩ _ (oneDocument_roundTrips _ _) (fun _ _ h => by cases h)
    (.command .start trivial hrun) extraReference trivial rfl
  -- The file is as it was, and none of its profiles has a reference.
  obtain ⟨profile, hprofile, hreference⟩ :=
    (Stores.referenced_iff (m := Stores.put ⟨some fullText, fun _ => none⟩ extraReference "key")
      hloaded).mp hkept
  rw [hprofiles] at hprofile
  obtain ⟨name, -, rfl⟩ := List.mem_map.mp hprofile
  cases hreference

end Xgeny
