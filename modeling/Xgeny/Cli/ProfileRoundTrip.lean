import Xgeny.Cli.ProfileSaves

set_option autoImplicit false

/-!
# Saved profiles and loaded profiles

A save that succeeds is followed by a load. The document holds a timeout as a number of seconds, while
the limits of a profile hold any duration.

* `saved_content`: after a save that succeeds the file holds the document;
* **`load_alone`**: what a load returns, when the file stays as it is;
* `ProfileLaws`, **`profiles_survive`**: a collection comes back when its timeouts are whole seconds;
* **`timeout_lost`**: the limits of half a second make the file unreadable.
-/

namespace Xgeny.ProfileStore

open AtomicCommit (Directory FileMetadata IoError)

section

variable {lib : ProviderCrates} {codec : ProfileCodec} {sha256 : List UInt8 → Sha256Hex}
  {platform : AtomicCommit.Platform} {profiles : ModelProfiles} {start m final : Machine}
  {history : Entries} {text : List UInt8}

/-! ## After a save -/

/-- **After a success the file holds the document**, when nothing else has moved since it was read. -/
theorem saved_content (hrun : Exec profileStore (save lib codec sha256 platform profiles) start history
      final (some (.ok ())))
    (hencoded : encodeProfiles codec profiles = .ok text)
    (hcollision : ∀ other, sha256 other = sha256 text → other = text)
    (hquiet : QuietSinceReading history) :
    final.content = some text ∧ text.length ≤ maxProfileFileBytes := by
  have h := disciplined hrun
  obtain ⟨-, bytes, content, hbytes, hseen, hlength, hcontent, -⟩ := (hrun.ghost save_sat).2 _ rfl
  obtain rfl : bytes = text := by
    rw [hencoded] at hbytes
    exact (Except.ok.inj hbytes).symm
  obtain rfl := hcollision content hcontent
  obtain ⟨earlier, op, reading, since, rfl, hreading, hsince⟩ := hquiet
  have hshows := h.shows hrun.trace hreading hsince
  rw [ledger, hseen] at hshows
  refine ⟨content_of_shows hshows fun bytes hbytes => ?_, hlength⟩
  rwa [← Option.some.inj hbytes]

/-! ## A load -/

variable {moves : Entries} {outcome : Outcome ModelProfileError ModelProfiles}

theorem complete_stop {α : Type} {error : ModelProfileError} {result : Outcome ModelProfileError α}
    (h : Exec profileStore.alone (Prog.stop (.err error) : Routine α) m moves final (some result)) :
    result = Outcome.fail error :=
  (Exec.complete_lift (x := .error (.err error)) h).2.2

theorem complete_ask {α : Type} {op : StoreOp} {error : ModelProfileError} {f : op.Value → Routine α}
    {result : Outcome ModelProfileError α}
    (h : Exec profileStore.alone (ask op error >>= f) m moves final (some result)) :
    result = Outcome.fail error ∨ ∃ value m' after, m.Step op (.ok value) m' ∧
      Exec profileStore.alone (f value) m' after final (some result) := by
  obtain ⟨answer, m', after, -, hstep, hrest⟩ := Exec.complete_call h
  cases answer with
  | ok value => exact Or.inr ⟨value, m', after, hstep, hrest⟩
  | error e => exact Or.inl (complete_stop hrest)

theorem complete_failIf {α : Type} {c : Prop} [Decidable c] {error : ModelProfileError}
    {f : Unit → Routine α} {result : Outcome ModelProfileError α}
    (h : Exec profileStore.alone (Prog.lift (Outcome.failIf c error) >>= f) m moves final
      (some result)) :
    result = Outcome.fail error ∨ Exec profileStore.alone (f ()) m moves final (some result) := by
  unfold Outcome.failIf at h
  by_cases hc : c
  · rw [if_pos hc] at h
    exact Or.inl (complete_stop h)
  · rw [if_neg hc] at h
    exact Or.inr h

theorem complete_verifyPrivateFile {α : Type} {f : Unit → Routine α}
    {result : Outcome ModelProfileError α}
    (h : Exec profileStore.alone (verifyPrivateFile platform >>= f) m moves final (some result)) :
    result = Outcome.fail .profileStoreUnavailable ∨
      ∃ after, Exec profileStore.alone (f ()) m after final (some result) := by
  cases platform with
  | windows | other => exact Or.inr ⟨moves, h⟩
  | unix =>
    rw [verifyPrivateFile, Prog.bind_assoc] at h
    rcases complete_ask h with hfail | ⟨metadata, m', after, hstep, hrest⟩
    · exact Or.inl hfail
    rw [step_unchanged hstep id] at hrest
    rcases complete_failIf hrest with hfail | hrest
    · exact Or.inl hfail
    · exact Or.inr ⟨after, hrest⟩

theorem loadFile_alone {metadata : FileMetadata} (hcontent : m.content = some text)
    (hlength : text.length ≤ maxProfileFileBytes)
    (h : Exec profileStore.alone (loadFile lib codec sha256 platform metadata) m moves final
      (some outcome)) :
    outcome = Outcome.fail .profileStoreUnavailable ∨
      outcome = decodeProfiles lib codec sha256 text := by
  rw [loadFile] at h
  rcases complete_failIf h with hfail | h
  · exact Or.inl hfail
  rcases complete_verifyPrivateFile h with hfail | ⟨after, h⟩
  · exact Or.inl hfail
  rcases complete_ask h with hfail | ⟨bytes, m', rest, hstep, h⟩
  · exact Or.inl hfail
  have hread := content_of_read hstep
  have htake : text.take (maxProfileFileBytes + 1) = text :=
    List.take_of_length_le (hlength.trans (Nat.le_succ _))
  rw [hcontent, Option.map_some, htake] at hread
  obtain rfl := Option.some.inj hread
  exact Or.inr (Exec.complete_lift h).2.2

/-- **A load decodes the file**, or it could not be read. -/
theorem load_alone (hcontent : m.content = some text) (hlength : text.length ≤ maxProfileFileBytes)
    (h : Exec profileStore.alone (load lib codec sha256 platform) m moves final (some outcome)) :
    outcome = Outcome.fail .profileStoreUnavailable ∨
      outcome = decodeProfiles lib codec sha256 text := by
  obtain ⟨answer, m', after, -, hstep, h⟩ := Exec.complete_call h
  have hroot : answer ≠ .error .notFound := by
    rintro rfl
    rcases hstep with ⟨_, hserve⟩ | ⟨hanswer, -⟩
    · cases (Prod.mk.inj hserve).1
    · cases hanswer
  rw [step_unchanged hstep id] at h
  rcases answer with (_ | _ | _) | _
  · exact absurd rfl hroot
  · exact Or.inl (complete_stop h)
  · exact Or.inl (complete_stop h)
  · obtain ⟨answer, m', after, -, hstep, h⟩ := Exec.complete_call h
    have hfile : answer ≠ .error .notFound := by
      rintro rfl
      rw [absent_of_metadata hstep] at hcontent
      cases hcontent
    rw [step_unchanged hstep id] at h
    rcases answer with (_ | _ | _) | metadata
    · exact absurd rfl hfile
    · exact Or.inl (complete_stop h)
    · exact Or.inl (complete_stop h)
    · exact loadFile_alone hcontent hlength h

theorem decodeProfiles_ne :
    decodeProfiles lib codec sha256 text ≠ Outcome.fail .profileStoreUnavailable := by
  have hread : ∀ stored : StoredProfile, Outcome.Avoids (· = ModelProfileError.profileStoreUnavailable)
      (stored.intoProfile lib) := by
    intro stored
    unfold StoredProfile.intoProfile
    refine Outcome.avoids_bind.mpr ⟨Outcome.avoids_mapErr fun _ => by decide, fun _ _ => ?_⟩
    exact Outcome.avoids_bind.mpr ⟨Outcome.avoids_mapErr fun _ => by decide, fun _ _ =>
      Outcome.avoids_pure⟩
  have hnext : ∀ names profile, Outcome.Avoids (· = ModelProfileError.profileStoreUnavailable)
      (ModelProfiles.validateNext lib names profile) := by
    intro names profile
    unfold ModelProfiles.validateNext
    refine Outcome.avoids_bind.mpr ⟨Outcome.avoids_mapErr fun _ => by decide, fun _ _ => ?_⟩
    exact Outcome.avoids_bind.mpr ⟨Outcome.avoids_failIf.mpr fun _ => by decide, fun _ _ =>
      Outcome.avoids_pure⟩
  have hall : Outcome.Avoids (· = ModelProfileError.profileStoreUnavailable)
      (decodeProfiles lib codec sha256 text) := by
    unfold decodeProfiles StoredProfiles.intoProfiles ModelProfiles.validate
    simp only [Outcome.avoids_bind, Outcome.avoids_failIf, Outcome.avoids_okOr, Outcome.avoids_pure,
      Outcome.avoids_mapM hread, Outcome.avoids_foldl hnext, reduceCtorEq, not_false_eq_true,
      implies_true, and_self]
  exact fun h => hall _ h rfl

theorem decode_same_iff (hlib : lib.ChecksLimits) (hcodec : codec.RoundTrips)
    (h : profiles.WellFormed lib) (hencoded : encodeProfiles codec profiles = .ok text) :
    (∃ loaded, decodeProfiles lib codec sha256 text = .ok loaded ∧ loaded.active = profiles.active ∧
      loaded.profiles = profiles.profiles) ↔ ∀ profile ∈ profiles.profiles, profile.WholeSeconds := by
  simp only [encodeProfiles, Outcome.bind_eq_ok, Outcome.exists_unit, Outcome.okOr_eq_ok,
    Outcome.failIf_eq_ok, Outcome.pure_eq_ok] at hencoded
  obtain ⟨_, hdocument, hlength, rfl⟩ := hencoded
  have hparsed := hcodec _ _ hdocument
  rw [← document_same_iff hlib h]
  simp only [decodeProfiles, Outcome.bind_eq_ok, Outcome.exists_unit, Outcome.okOr_eq_ok,
    Outcome.failIf_eq_ok, Outcome.pure_eq_ok]
  constructor
  · rintro ⟨_, ⟨-, document, hdocument', loaded, hloaded, rfl⟩, hactive, hprofiles⟩
    rw [hparsed] at hdocument'
    obtain rfl := Option.some.inj hdocument'
    exact ⟨loaded, hloaded, hactive, hprofiles⟩
  · rintro ⟨loaded, hloaded, hactive, hprofiles⟩
    exact ⟨_, ⟨hlength, _, hparsed, loaded, hloaded, rfl⟩, hactive, hprofiles⟩

end

/-- What holds of a collection that calls lead to. -/
structure ProfileLaws (lib : ProviderCrates) (codec : ProfileCodec) (sha256 : List UInt8 → Sha256Hex)
    (platform : AtomicCommit.Platform) (profiles : ModelProfiles) : Prop where
  sorted : (profileNames profiles.profiles).Pairwise (· < ·)
  active : ∀ name ∈ profiles.active, name ∈ profileNames profiles.profiles
  /-- A call that fails leaves it as it is. -/
  unchanged : ∀ (call : ProfileCall) error profiles',
    call.perform lib profiles = (.error (.err error), profiles') → profiles' = profiles
  /-- After a save that succeeds, a load that can read the file returns the same profiles exactly when
  their timeouts are numbers of seconds. -/
  survives : ∀ text, encodeProfiles codec profiles = .ok text →
    (∀ other, sha256 other = sha256 text → other = text) →
      ∀ directory history saved, Exec profileStore (save lib codec sha256 platform profiles)
        ⟨directory, profiles.sourceDigest⟩ history saved (some (.ok ())) → QuietSinceReading history →
          ∀ moves final outcome, Exec profileStore.alone (load lib codec sha256 platform) saved moves
            final (some outcome) → outcome ≠ Outcome.fail .profileStoreUnavailable →
              ((∃ loaded, outcome = .ok loaded ∧ loaded.active = profiles.active ∧
                loaded.profiles = profiles.profiles) ↔
                  ∀ profile ∈ profiles.profiles, profile.WholeSeconds)

/-- **Profiles survive when their timeouts are numbers of seconds.** -/
theorem profiles_survive (lib : ProviderCrates) (codec : ProfileCodec)
    (sha256 : List UInt8 → Sha256Hex) (platform : AtomicCommit.Platform) (profiles : ModelProfiles)
    (hlib : lib.ChecksLimits) (hcodec : codec.RoundTrips) (hreached : Reached lib profiles) :
    ProfileLaws lib codec sha256 platform profiles := by
  have h := hreached.wellFormed
  refine ⟨h.sorted, h.active, fun call error profiles' hrun => ?_, ?_⟩
  · exact call.perform_atomic profiles error profiles' hrun
  · intro text hencoded hcollision directory history saved hrun hquiet moves final outcome hload hread
    obtain ⟨hcontent, hlength⟩ := saved_content hrun hencoded hcollision hquiet
    obtain rfl := (load_alone hcontent hlength hload).resolve_left hread
    exact decode_same_iff hlib hcodec h hencoded

/-! ## A timeout of half a second -/

/-- Two addresses. -/
def profileUrls : UrlLibrary where
  Url := String
  parse s := if s = "https://limits.invalid/v1" ∨ s = "https://models.example/v1" then some s else none
  scheme _ := "https"
  hostStr url := if url = "https://limits.invalid/v1" then some "limits.invalid" else some "models.example"
  username _ := ""
  password _ := none
  query _ := none
  fragment _ := none
  path _ := "/v1"
  setPath url path := (if url = "https://limits.invalid/v1" then "https://limits.invalid"
    else "https://models.example") ++ path

/-- Crates that know these addresses. -/
def profileCrates : ProviderCrates := { sampleCrates with url := profileUrls }

theorem profileCrates_checks : profileCrates.ChecksLimits where
  address := ⟨("https://limits.invalid/v1/chat/completions", "https://limits.invalid/v1/models"), by cbv⟩
  canonical _ := ⟨_, rfl⟩

/-- Half a second. -/
def halfSecond : InferenceLimits := ⟨⟨500000000⟩, 1024⟩

/-- A profile with some limits. -/
def fastProfile (limits : InferenceLimits) : ModelProfile where
  name := "fast"
  baseUrl := "https://models.example/v1"
  model := "m"
  tokenizer := "t"
  credentialRef := none
  inferenceLimits := limits
  requestOptions := ⟨.jsonSchema, .default⟩

theorem fastProfile_valid {limits : InferenceLimits} (h : limits.InBounds) :
    (fastProfile limits).validate profileCrates = .ok () := by
  have haddress : apiEndpoints profileCrates.url "https://models.example/v1" =
      .ok ("https://models.example/v1/chat/completions", "https://models.example/v1/models") := by
    cbv
  obtain ⟨first, hfirst, hnone⟩ : ∃ config, OpenAiPlannerConfig.new profileCrates
      "https://models.example/v1" profileValidationPlannerId "m" "t" = .ok config ∧
        config.artifactValidator = none := by
    unfold OpenAiPlannerConfig.new
    rw [haddress]
    exact ⟨_, rfl, rfl⟩
  obtain ⟨digest, hlimits⟩ := withLimits profileCrates_checks h first
  obtain ⟨_, htimeout, htokens⟩ := Outcome.bind_eq_ok.mp hlimits
  obtain ⟨last, hlast⟩ : ∃ last, (OpenAiPlannerConfig.withResponseFormat
      { first with
        timeout := limits.timeout
        maxOutputTokens := limits.maxOutputTokens
        requestProfileDigest := digest } .jsonSchema >>= fun config => config.withThinking .default) =
          .ok last := by
    unfold OpenAiPlannerConfig.withResponseFormat
    rw [hnone]
    exact ⟨_, rfl⟩
  have hname : validProfileName "fast" = true := by decide
  refine ModelProfile.validate_eq_ok.mpr ⟨⟨hname, rfl⟩, last, ?_⟩
  exact Outcome.bind_eq_ok.mpr ⟨first, hfirst, Outcome.bind_eq_ok.mpr ⟨_, htimeout,
    Outcome.bind_eq_ok.mpr ⟨_, htokens, hlast⟩⟩⟩

theorem halfSecond_inBounds : halfSecond.InBounds := by
  unfold InferenceLimits.InBounds
  decide

theorem default_inBounds : InferenceLimits.default.InBounds := by
  unfold InferenceLimits.InBounds
  decide

/-- A profile with a name, whose limits are the default ones. -/
def namedProfile (name : String) : ModelProfile := { fastProfile .default with name }

theorem namedProfile_valid {name : String} (h : validProfileName name = true) :
    (namedProfile name).validate profileCrates = .ok () := by
  have hfast := fastProfile_valid default_inBounds
  rw [ModelProfile.validate_eq_ok] at hfast ⊢
  exact ⟨⟨h, rfl⟩, hfast.2⟩

theorem namedProfile_constructible {name : String} (h : validProfileName name = true) :
    ModelProfile.Constructible profileCrates (namedProfile name) :=
  .new (Outcome.bind_eq_ok.mpr ⟨(), namedProfile_valid h, rfl⟩)

theorem fastProfile_constructible :
    ModelProfile.Constructible profileCrates (fastProfile halfSecond) := by
  have hnew : ModelProfile.new profileCrates "fast" "https://models.example/v1" "m" "t" =
      .ok (fastProfile .default) :=
    Outcome.bind_eq_ok.mpr ⟨(), fastProfile_valid default_inBounds, rfl⟩
  exact .setInferenceLimits (.new hnew) (limits_new profileCrates_checks halfSecond_inBounds) rfl

/-- The collection of this profile. -/
def fastProfiles : ModelProfiles := ⟨none, [fastProfile halfSecond], none⟩

theorem fastProfiles_reached : Reached profileCrates fastProfiles := by
  have hrun : (ProfileCall.upsert (fastProfile halfSecond)).perform profileCrates .empty =
      (.ok (), fastProfiles) := by
    simp only [ProfileCall.perform, ModelProfiles.upsert, Mutation.bind_eq_ok, Mutation.reads_eq_ok,
      Mutation.writes_eq_ok, Mutation.pure_eq_ok]
    exact ⟨none, fastProfiles, ⟨(), .empty, ⟨fastProfile_valid halfSecond_inBounds, rfl⟩, none, .empty,
      ⟨rfl, rfl⟩, (), fastProfiles, rfl, (), fastProfiles, rfl, rfl, rfl⟩, trivial, rfl⟩
  refine .returned .empty (fun profile hprofile => ?_) hrun
  cases hprofile
  exact fastProfile_constructible

/-- The document of this collection, as it is printed. -/
def fastDocument : List UInt8 :=
  bytes ("\x7b\n  \"formatVersion\": 1,\n  \"activeProfile\": null,\n  \"profiles\": [\n    \x7b\n" ++
    "      \"name\": \"fast\",\n      \"baseUrl\": \"https://models.example/v1\",\n" ++
    "      \"model\": \"m\",\n      \"tokenizer\": \"t\",\n      \"credentialRef\": null,\n" ++
    "      \"inferenceTimeoutSeconds\": 0,\n      \"maxOutputTokens\": 1024,\n" ++
    "      \"responseFormat\": \"json_schema\",\n      \"thinking\": \"default\"\n    \x7d\n  ]\n\x7d")

/-- A codec that knows one document. -/
def oneDocument (document : StoredProfiles) (text : List UInt8) : ProfileCodec where
  toVecPretty other := if other = document then some text else none
  fromSlice other := if other = text then some document else none

theorem oneDocument_roundTrips (document : StoredProfiles) (text : List UInt8) :
    (oneDocument document text).RoundTrips := by
  intro other bytes h
  obtain ⟨rfl, htext⟩ := Option.ite_none_right_eq_some.mp h
  exact Option.ite_none_right_eq_some.mpr ⟨(Option.some.inj htext).symm, rfl⟩

theorem oneDocument_encodes {profiles : ModelProfiles} {text : List UInt8}
    (hlength : text.length ≤ maxProfileFileBytes) :
    encodeProfiles (oneDocument (.fromProfiles profiles) text) profiles = .ok text :=
  Outcome.bind_eq_ok.mpr ⟨text, Outcome.okOr_eq_ok.mpr (if_pos rfl), Outcome.bind_eq_ok.mpr
    ⟨(), Outcome.failIf_eq_ok.mpr (not_lt.mpr hlength), rfl⟩⟩

/-- A second hash. -/
def oneHash : Sha256Hex :=
  ⟨"1111111111111111111111111111111111111111111111111111111111111111", by decide +kernel⟩

/-- A hash that tells one document from any other text. -/
def hashOf (document text : List UInt8) : Sha256Hex :=
  if text = document then oneHash else zeroHash

theorem hashOf_inj {document text : List UInt8} (h : hashOf document text = hashOf document document) :
    text = document := by
  by_contra hne
  have hhash : hashOf document text = oneHash := h.trans (if_pos rfl)
  have hhash' : hashOf document text = zeroHash := if_neg hne
  exact absurd (hhash.symm.trans hhash') (by decide)

theorem exec_ask {α : Type} {m m' final : Machine} {op : StoreOp} {error : ModelProfileError}
    {f : op.Value → Routine α} {value : op.Value} {after : Entries}
    {result : Outcome ModelProfileError α} (hstep : m.Step op (.ok value) m')
    (hrest : Exec profileStore.alone (f value) m' after final (some result)) :
    Exec profileStore.alone (ask op error >>= f) m (.did op (.ok value) :: after) final
      (some result) := .call hstep hrest

theorem load_exec {lib : ProviderCrates} {codec : ProfileCodec} {sha256 : List UInt8 → Sha256Hex}
    {m : Machine} {file : AtomicCommit.FileId} {text : List UInt8}
    (hname : m.directory.names profileFile = some file)
    (hfile : m.directory.files file = ⟨text, ⟨true, 0, 0⟩⟩)
    (hlength : text.length ≤ maxProfileFileBytes) :
    ∃ moves, Exec profileStore.alone (load lib codec sha256 .unix) m moves m
      (some (decodeProfiles lib codec sha256 text)) := by
  have hmetadata : m.metadata = .ok (⟨true, 0, 0⟩, text.length) := by
    unfold Machine.metadata
    rw [hname]
    simp only [hfile]
  have hroot : m.Step .inspectPrivateRoot (.ok ()) m := Or.inl ⟨AtomicCommit.noRandom, rfl⟩
  have hfound : m.Step .symlinkMetadata (.ok (⟨true, 0, 0⟩, text.length)) m :=
    Or.inl ⟨AtomicCommit.noRandom, congrArg (·, m) hmetadata⟩
  have hprivate : m.Step .privateMetadata (.ok (⟨true, 0, 0⟩, text.length)) m :=
    Or.inl ⟨AtomicCommit.noRandom, congrArg (·, m) hmetadata⟩
  have hread : m.Step (.readToEnd (maxProfileFileBytes + 1)) (.ok text) m := by
    refine Or.inl ⟨AtomicCommit.noRandom, ?_⟩
    simp only [Machine.serve, hname, hfile]
    rw [List.take_of_length_le (hlength.trans (Nat.le_succ _))]
  have hdecode : Exec profileStore.alone (Prog.lift (decodeProfiles lib codec sha256 text) : Routine _)
      m [] m (some (decodeProfiles lib codec sha256 text)) := by
    cases decodeProfiles lib codec sha256 text with
    | ok loaded => exact .ret
    | error fault => exact .stop
  have hopen : Outcome.failIf ((0 : ℕ) &&& 0o077 ≠ 0) ModelProfileError.profileStoreUnavailable =
      .ok () := if_neg (by decide)
  have hverified : Exec profileStore.alone (verifyPrivateFile .unix >>= fun _ =>
      ask (.readToEnd (maxProfileFileBytes + 1)) .profileStoreUnavailable >>= fun bytes =>
        Prog.lift (decodeProfiles lib codec sha256 bytes)) m
      [.did .privateMetadata (.ok (⟨true, 0, 0⟩, text.length)),
        .did (.readToEnd (maxProfileFileBytes + 1)) (.ok text)] m
      (some (decodeProfiles lib codec sha256 text)) := by
    rw [verifyPrivateFile, Prog.bind_assoc]
    refine exec_ask hprivate ?_
    rw [hopen]
    exact exec_ask hread hdecode
  exact ⟨_, .call hroot (.call hfound hverified)⟩

theorem quietSinceReading {history : Entries} (hquiet : Happening.Quiet history)
    (hread : ∃ move ∈ Happening.own history, isReading move = true) : QuietSinceReading history := by
  obtain ⟨⟨op, answer⟩, hmove, hreading⟩ := hread
  obtain ⟨before, after, hmoves⟩ := List.append_of_mem hmove
  obtain ⟨earlier, since, rfl, -, -⟩ := Happening.own_split hmoves
  refine ⟨earlier, op, answer, since, rfl, hreading, fun label hlabel => hquiet label ?_⟩
  exact List.mem_append_right _ (List.mem_cons_of_mem _ hlabel)

/-- The save of a collection that no file was read for. -/
def firstSave (active : Option String) (profiles : List ModelProfile) (document : List UInt8) :
    Routine Unit := do
  ask .ensurePrivateRoot .profileStoreUnavailable
  let bytes ← Prog.lift (encodeProfiles
    (oneDocument (.fromProfiles ⟨active, profiles, none⟩) document) ⟨active, profiles, none⟩)
  let desiredDigest := sha256Digest (hashOf document bytes)
  let current ← currentFileDigest (hashOf document) .unix
  if current = some desiredDigest then assignSourceDigest desiredDigest
  else do
    let current ← currentFileDigest (hashOf document) .unix
    Prog.lift (Outcome.failIf (current ≠ none) .concurrentModification)
    let created ← createTemporary
    writeTemporary (hashOf document) .unix created.1 created.2 bytes none

section

variable {active : Option String} {profiles : List ModelProfile} {document : List UInt8}

theorem save_eq_firstSave (hreached : Reached profileCrates ⟨active, profiles, none⟩) :
    save profileCrates (oneDocument (.fromProfiles ⟨active, profiles, none⟩) document)
      (hashOf document) .unix ⟨active, profiles, none⟩ = firstSave active profiles document := by
  unfold save firstSave
  rw [validate_of_wellFormed hreached.wellFormed]
  rfl

/-- The save succeeds, reads the root, and leaves the document in the file. -/
def savesDocument (active : Option String) (profiles : List ModelProfile) (document : List UInt8) :
    Bool :=
  let run := (firstSave active profiles document).run reliable nobody ⟨emptyRoot, none⟩
  decide (run.2.2 = .ok ()) && (Happening.own run.1).any isReading &&
    decide (run.2.1.directory.names profileFile = some 0) &&
    decide (run.2.1.directory.files 0 = ⟨document, ⟨true, 0, 0⟩⟩)

theorem exists_saved (document : List UInt8)
    (hreached : Reached profileCrates ⟨active, profiles, none⟩)
    (hsaves : savesDocument active profiles document = true) : ∃ history saved,
    Exec profileStore (save profileCrates
      (oneDocument (.fromProfiles ⟨active, profiles, none⟩) document) (hashOf document) .unix
        ⟨active, profiles, none⟩) ⟨emptyRoot, none⟩ history saved
        (some (.ok ())) ∧
      QuietSinceReading history ∧ saved.directory.names profileFile = some 0 ∧
      saved.directory.files 0 = ⟨document, ⟨true, 0, 0⟩⟩ := by
  rw [save_eq_firstSave hreached]
  have halone := @Prog.exec_run _ _ _ _ _ _ profileStore.alone reliable nobody reliable_step
    (fun _ _ _ _ h => by cases h) (firstSave active profiles document) ⟨emptyRoot, none⟩
  have hrun := exec_alone reliable_step (firstSave active profiles document) ⟨emptyRoot, none⟩
  simp only [savesDocument, Bool.and_eq_true, decide_eq_true_eq, List.any_eq_true] at hsaves
  obtain ⟨⟨⟨hdone, hread⟩, hname⟩, hfile⟩ := hsaves
  rw [hdone] at hrun
  exact ⟨_, _, hrun, quietSinceReading halone.trace.quiet hread, hname, hfile⟩

end

/-- Two profiles, of which one is active. -/
def namedProfiles : List ModelProfile := [namedProfile "fast", namedProfile "slow"]

theorem reached_upsert {self : ModelProfiles} {name : String} (hbefore : Reached profileCrates self)
    (hname : validProfileName name = true) (hnew : self.get name = none)
    (hroom : self.profiles.length < maxProfiles) : Reached profileCrates
      { self with profiles := sortByName (self.profiles ++ [namedProfile name]) } := by
  have hplaced : ModelProfiles.place (namedProfile name) none self =
      (.ok (), { self with profiles := self.profiles ++ [namedProfile name] }) :=
    Mutation.bind_eq_ok.mpr ⟨(), self, Mutation.reads_eq_ok.mpr
      ⟨if_neg (Nat.not_le.mpr hroom), rfl⟩, rfl⟩
  have hrun : (ProfileCall.upsert (namedProfile name)).perform profileCrates self =
      (.ok (), { self with profiles := sortByName (self.profiles ++ [namedProfile name]) }) := by
    simp only [ProfileCall.perform, ModelProfiles.upsert, Mutation.bind_eq_ok, Mutation.reads_eq_ok,
      Mutation.writes_eq_ok, Mutation.pure_eq_ok]
    exact ⟨none, _, ⟨(), self, ⟨namedProfile_valid hname, rfl⟩, none, self,
      ⟨congrArg Except.ok hnew, rfl⟩, (), _, hplaced, (), _, rfl, rfl, rfl⟩, trivial, rfl⟩
  refine .returned hbefore (fun profile hprofile => ?_) hrun
  cases hprofile
  exact namedProfile_constructible hname

theorem namedProfiles_reached : Reached profileCrates ⟨some "fast", namedProfiles, none⟩ := by
  have hfast : Reached profileCrates ⟨none, [namedProfile "fast"], none⟩ :=
    reached_upsert .empty (by decide) rfl (by decide)
  have hsorted : sortByName ([namedProfile "fast"] ++ [namedProfile "slow"]) = namedProfiles := by
    decide
  have hslow : Reached profileCrates ⟨none, namedProfiles, none⟩ := by
    rw [← hsorted]
    exact reached_upsert hfast (by decide) (by decide) (by decide)
  exact @Reached.returned _ _ _ (.setActive "fast") hslow (fun _ hprofile => by cases hprofile)
    (Mutation.bind_eq_ok.mpr ⟨(), _, Mutation.reads_eq_ok.mpr ⟨by decide, rfl⟩, rfl⟩)

/-- The text of a profile in the file. -/
def profileText (name credential : String) : List UInt8 :=
  bytes ("    \x7b\n      \"name\": \"" ++ name ++
    "\",\n      \"baseUrl\": \"https://models.example/v1\",\n      \"model\": \"m\",\n" ++
    "      \"tokenizer\": \"t\",\n      \"credentialRef\": " ++ credential ++
    ",\n      \"inferenceTimeoutSeconds\": 300,\n      \"maxOutputTokens\": 1024,\n" ++
    "      \"responseFormat\": \"json_schema\",\n      \"thinking\": \"default\"\n    \x7d")

/-- The text of a file. -/
def profilesText (active : String) (texts : List (List UInt8)) : List UInt8 :=
  bytes ("\x7b\n  \"formatVersion\": 1,\n  \"activeProfile\": " ++ active ++ ",\n  \"profiles\": [\n") ++
    (texts.intersperse (bytes ",\n")).flatten ++ bytes "\n  ]\n\x7d"

/-- The file of this collection. -/
def namedProfilesText : List UInt8 :=
  profilesText "\"fast\"" [profileText "fast" "null", profileText "slow" "null"]

/-- A codec that knows this document. -/
def namedCodec : ProfileCodec :=
  oneDocument (.fromProfiles ⟨some "fast", namedProfiles, none⟩) namedProfilesText

/-- Two profiles with timeouts of whole seconds, and the active name, come back from their file. -/
theorem profiles_survive_sample : ∃ history saved moves loaded,
    Exec profileStore (save profileCrates namedCodec (hashOf namedProfilesText) .unix
      ⟨some "fast", namedProfiles, none⟩) ⟨emptyRoot, none⟩ history saved (some (.ok ())) ∧
    Exec profileStore.alone (load profileCrates namedCodec (hashOf namedProfilesText) .unix)
      saved moves saved (some (.ok loaded)) ∧
    loaded.active = some "fast" ∧ loaded.profiles = namedProfiles := by
  have hlength : namedProfilesText.length ≤ maxProfileFileBytes := by decide +kernel
  have hencoded : encodeProfiles namedCodec ⟨some "fast", namedProfiles, none⟩ =
      .ok namedProfilesText := oneDocument_encodes hlength
  obtain ⟨history, saved, hrun, hquiet, hname, hfile⟩ :=
    exists_saved namedProfilesText namedProfiles_reached (by decide +kernel)
  obtain ⟨moves, hload⟩ := load_exec hname hfile hlength
  have hlaws := profiles_survive profileCrates namedCodec (hashOf namedProfilesText) .unix
    ⟨some "fast", namedProfiles, none⟩ profileCrates_checks (oneDocument_roundTrips _ _)
    namedProfiles_reached
  obtain ⟨loaded, hloaded, hactive, hprofiles⟩ := (hlaws.survives namedProfilesText hencoded
    (fun _ => hashOf_inj) emptyRoot history saved hrun hquiet moves saved _ hload
    decodeProfiles_ne).mpr (by decide)
  exact ⟨history, saved, moves, loaded, hrun, hloaded ▸ hload, hactive, hprofiles⟩

/-- **A timeout of half a second is lost**: the document that is saved cannot be loaded. -/
theorem timeout_lost : ¬ ∀ (lib : ProviderCrates) (codec : ProfileCodec)
    (sha256 : List UInt8 → Sha256Hex) (platform : AtomicCommit.Platform) (profiles : ModelProfiles),
    lib.ChecksLimits → codec.RoundTrips → Reached lib profiles →
      ∀ text, encodeProfiles codec profiles = .ok text →
        (∀ other, sha256 other = sha256 text → other = text) →
          ∀ directory history saved, Exec profileStore (save lib codec sha256 platform profiles)
            ⟨directory, profiles.sourceDigest⟩ history saved (some (.ok ())) →
              QuietSinceReading history → ∀ moves final outcome,
                Exec profileStore.alone (load lib codec sha256 platform) saved moves final
                  (some outcome) → outcome ≠ Outcome.fail .profileStoreUnavailable →
                    ∃ loaded, outcome = .ok loaded ∧ loaded.active = profiles.active ∧
                      loaded.profiles = profiles.profiles := by
  intro hall
  have hlength : fastDocument.length ≤ maxProfileFileBytes := by decide +kernel
  have hencoded : encodeProfiles (oneDocument (.fromProfiles fastProfiles) fastDocument)
      fastProfiles = .ok fastDocument := oneDocument_encodes hlength
  obtain ⟨history, saved, hrun, hquiet, hname, hfile⟩ :=
    exists_saved fastDocument fastProfiles_reached (by decide +kernel)
  obtain ⟨moves, hload⟩ := load_exec hname hfile hlength
  obtain ⟨loaded, hloaded⟩ := hall profileCrates (oneDocument (.fromProfiles fastProfiles) fastDocument)
    (hashOf fastDocument) .unix fastProfiles profileCrates_checks
    (oneDocument_roundTrips _ _) fastProfiles_reached fastDocument hencoded
    (fun _ => hashOf_inj) emptyRoot history saved hrun hquiet moves _ _ hload decodeProfiles_ne
  have hwhole := (decode_same_iff profileCrates_checks (oneDocument_roundTrips _ _)
    fastProfiles_reached.wellFormed hencoded).mp ⟨loaded, hloaded⟩
  exact absurd (hwhole (fastProfile halfSecond) List.mem_cons_self) (by decide)

end Xgeny.ProfileStore
