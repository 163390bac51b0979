import Xgeny.Lib.Mutation
import Xgeny.Provider.Config
import Mathlib.Data.List.Sort

set_option autoImplicit false

/-!
# Model profiles

A profile names a provider, a model and the limits of a request. The profiles of a user are kept sorted
by name in a collection that is written as one document, in which a timeout is a number of seconds.

* `InferenceLimits`, `ModelProfile`, `ModelProfile.validate`: a profile;
* `ModelProfiles.upsert`, `setActive`, `clearCredential`, `remove`: the methods of a collection;
* `StoredProfiles`, `encodeProfiles`, `decodeProfiles`: the document;
* `ModelProfiles.WellFormed`, **`Reached.wellFormed`**: what the methods keep;
* `ProfileCall.perform_atomic`: a method that fails changes nothing;
* **`document_same_iff`**: when the document gives back what was written.
-/

namespace Xgeny

open Mutation

inductive ModelProfileError where
  | invalidProfile
  | invalidProfileFile
  | profileNotFound
  | tooManyProfiles
  | profileStoreUnavailable
  | concurrentModification
  | profileCommitUnknown
  | credentialStoreUnavailable
  | credentialNotFound
  deriving DecidableEq

/-- `MAX_PROFILE_FILE_BYTES`. -/
def maxProfileFileBytes : ℕ := 256 * 1024

/-- `MAX_PROFILES`. -/
def maxProfiles : ℕ := 64

/-- `MAX_PROFILE_NAME_BYTES`. -/
def maxProfileNameBytes : ℕ := 64

/-- `PROFILE_FORMAT_VERSION`. -/
def profileFormatVersion : ℕ := 1

/-- `PROFILE_VALIDATION_PLANNER_ID`. -/
def profileValidationPlannerId : String := "xgeny.cli.openai"

/-! ## A profile -/

structure InferenceLimits where
  timeout : Duration
  maxOutputTokens : ℕ
  deriving DecidableEq

structure RequestOptions where
  responseFormat : ResponseFormat
  thinking : ThinkingMode
  deriving DecidableEq

structure ModelProfile where
  name : String
  baseUrl : String
  model : String
  tokenizer : String
  credentialRef : Option String
  inferenceLimits : InferenceLimits
  requestOptions : RequestOptions
  deriving DecidableEq

/-- `valid_profile_name`. -/
def validProfileName (value : String) : Bool :=
  value ≠ "" ∧ byteLen value ≤ maxProfileNameBytes ∧
    (bytes value).zipIdx.all (fun (byte, index) => isAsciiAlphanumeric byte ||
      decide (0 < index) && (byte == 0x2e || byte == 0x5f || byte == 0x2d)) = true

/-- `valid_credential_ref`. -/
def validCredentialRef (value : String) : Bool :=
  byteLen value = 37 ∧ "cred-".toList <+: value.toList ∧
    ((bytes value).drop 5).all (fun byte =>
      decide (0x30 ≤ byte ∧ byte ≤ 0x39) || decide (0x61 ≤ byte ∧ byte ≤ 0x66)) = true

/-- The reference, if there is one, is valid. -/
def validReference (reference : Option String) : Bool := reference.all validCredentialRef

section

variable (lib : ProviderCrates)

/-- `InferenceLimits::new`. -/
def InferenceLimits.new (timeout : Duration) (maxOutputTokens : ℕ) :
    Outcome ModelProfileError InferenceLimits := do
  let checked : Outcome OpenAiPlannerConfigError (OpenAiPlannerConfig lib) := do
    let config ← OpenAiPlannerConfig.new lib "https://limits.invalid/v1" profileValidationPlannerId
      "limits-validation" "limits-validation"
    let config ← config.withTimeout timeout
    config.withMaxOutputTokens maxOutputTokens
  let _ ← checked.mapErr fun _ => .invalidProfile
  pure { timeout, maxOutputTokens }

/-- `InferenceLimits::default`. -/
def InferenceLimits.default : InferenceLimits := ⟨.fromSecs 300, 1024⟩

namespace ModelProfile

variable (self : ModelProfile)

/-- The configuration of a profile. -/
def config : Outcome OpenAiPlannerConfigError (OpenAiPlannerConfig lib) := do
  let config ← OpenAiPlannerConfig.new lib self.baseUrl profileValidationPlannerId self.model
    self.tokenizer
  let config ← config.withTimeout self.inferenceLimits.timeout
  let config ← config.withMaxOutputTokens self.inferenceLimits.maxOutputTokens
  let config ← config.withResponseFormat self.requestOptions.responseFormat
  config.withThinking self.requestOptions.thinking

/-- `validate`. -/
def validate : Outcome ModelProfileError Unit := do
  Outcome.failIf (validProfileName self.name = false ∨ validReference self.credentialRef = false)
    .invalidProfile
  let _ ← (self.config lib).mapErr fun _ => .invalidProfile
  pure ()

/-- `new`. -/
def new (name baseUrl model tokenizer : String) : Outcome ModelProfileError ModelProfile := do
  let profile : ModelProfile :=
    { name, baseUrl, model, tokenizer
      credentialRef := none
      inferenceLimits := .default
      requestOptions := ⟨.jsonSchema, .default⟩ }
  profile.validate lib
  pure profile

/-- `set_request_options`. -/
def setRequestOptions (options : RequestOptions) : Mutation ModelProfile ModelProfileError Unit := do
  reads fun self => ({ self with requestOptions := options } : ModelProfile).validate lib
  writes fun self => { self with requestOptions := options }

/-- `set_inference_limits`. -/
def setInferenceLimits (limits : InferenceLimits) :
    Mutation ModelProfile ModelProfileError Unit := do
  writes fun self => { self with inferenceLimits := limits }
  reads fun self => self.validate lib

/-- `set_credential_reference`. -/
def setCredentialReference (reference : Option String) :
    Mutation ModelProfile ModelProfileError Unit := do
  reads fun _ => Outcome.failIf (validReference reference = false) .invalidProfile
  writes fun self => { self with credentialRef := reference }

/-- The profiles that the constructors make; a method that fails may have changed its profile. -/
inductive Constructible : ModelProfile → Prop
  | new {name baseUrl model tokenizer : String} {profile : ModelProfile}
      (h : ModelProfile.new lib name baseUrl model tokenizer = .ok profile) : Constructible profile
  | setInferenceLimits {profile profile' : ModelProfile} {timeout : Duration} {tokens : ℕ}
      {limits : InferenceLimits} {outcome : Outcome ModelProfileError Unit}
      (hprofile : Constructible profile) (hlimits : InferenceLimits.new lib timeout tokens = .ok limits)
      (h : ModelProfile.setInferenceLimits lib limits profile = (outcome, profile')) :
      Constructible profile'
  | setRequestOptions {profile profile' : ModelProfile} {options : RequestOptions}
      {outcome : Outcome ModelProfileError Unit} (hprofile : Constructible profile)
      (h : ModelProfile.setRequestOptions lib options profile = (outcome, profile')) :
      Constructible profile'
  | setCredentialReference {profile profile' : ModelProfile} {reference : Option String}
      {outcome : Outcome ModelProfileError Unit} (hprofile : Constructible profile)
      (h : ModelProfile.setCredentialReference reference profile = (outcome, profile')) :
      Constructible profile'

end ModelProfile

end

/-! ## A collection -/

structure ModelProfiles where
  active : Option String
  profiles : List ModelProfile
  sourceDigest : Option String
  deriving DecidableEq

/-- Change the first profile with a name. -/
def updateProfile (name : String) (f : ModelProfile → ModelProfile) :
    List ModelProfile → List ModelProfile
  | [] => []
  | profile :: rest =>
    if profile.name = name then f profile :: rest else profile :: updateProfile name f rest

/-- `sort_by` the names. -/
def sortByName (profiles : List ModelProfile) : List ModelProfile :=
  profiles.insertionSort fun left right => left.name ≤ right.name

/-- A method of a collection. -/
abbrev ProfilesMethod := Mutation ModelProfiles ModelProfileError

namespace ModelProfiles

/-- `empty`. -/
def empty : ModelProfiles := ⟨none, [], none⟩

/-- `get`. -/
def get (self : ModelProfiles) (name : String) : Option ModelProfile :=
  self.profiles.find? fun profile => profile.name = name

/-- Replace the profile of this name, or add it. -/
def place (profile : ModelProfile) : Option ModelProfile → ProfilesMethod Unit
  | some _ => writes fun self =>
    { self with profiles := updateProfile profile.name (fun _ => profile) self.profiles }
  | none => do
    reads fun self => Outcome.failIf (maxProfiles ≤ self.profiles.length) .tooManyProfiles
    writes fun self => { self with profiles := self.profiles ++ [profile] }

/-- `upsert`. -/
def upsert (lib : ProviderCrates) (profile : ModelProfile) :
    ProfilesMethod (Option ModelProfile) := do
  reads fun _ => profile.validate lib
  let previous ← reads fun self => .ok (self.get profile.name)
  place profile previous
  writes fun self => { self with profiles := sortByName self.profiles }
  pure previous

/-- `set_active`. -/
def setActive (name : String) : ProfilesMethod Unit := do
  reads fun self => Outcome.failIf (self.get name = none) .profileNotFound
  writes fun self => { self with active := some name }

/-- `clear_credential`. -/
def clearCredential (name : String) : ProfilesMethod (Option String) := do
  let profile ← reads fun self => Outcome.okOr (self.get name) .profileNotFound
  writes fun self => { self with
    profiles := updateProfile name (fun profile => { profile with credentialRef := none })
      self.profiles }
  pure profile.credentialRef

/-- `remove`. -/
def remove (name : String) : ProfilesMethod ModelProfile := do
  let removed ← reads fun self => Outcome.okOr (self.get name) .profileNotFound
  writes fun self => { self with
    profiles := self.profiles.eraseP fun profile => profile.name = name }
  writes fun self => if self.active = some name then
    { self with active := self.profiles.head?.map ModelProfile.name } else self
  pure removed

/-- One round of the loop of `validate`, with the names before it. -/
def validateNext (lib : ProviderCrates) (names : List String) (profile : ModelProfile) :
    Outcome ModelProfileError (List String) := do
  (profile.validate lib).mapErr fun _ => .invalidProfileFile
  Outcome.failIf (profile.name ∈ names) .invalidProfileFile
  pure (profile.name :: names)

/-- `validate`. -/
def validate (lib : ProviderCrates) (self : ModelProfiles) : Outcome ModelProfileError Unit := do
  Outcome.failIf (maxProfiles < self.profiles.length ∨
    self.active.any (fun active => (self.get active).isNone) = true) .invalidProfileFile
  let _ ← Outcome.foldl (validateNext lib) [] self.profiles
  pure ()

end ModelProfiles

/-! ## The document -/

structure StoredProfile where
  name : String
  baseUrl : String
  model : String
  tokenizer : String
  credentialRef : Option String
  inferenceTimeoutSeconds : ℕ
  maxOutputTokens : ℕ
  responseFormat : ResponseFormat
  thinking : ThinkingMode
  deriving DecidableEq

structure StoredProfiles where
  formatVersion : ℕ
  activeProfile : Option String
  profiles : List StoredProfile
  deriving DecidableEq

/-- How `serde_json` writes and reads the document. -/
structure ProfileCodec where
  toVecPretty : StoredProfiles → Option (List UInt8)
  fromSlice : List UInt8 → Option StoredProfiles

/-- What was written is read back. -/
def ProfileCodec.RoundTrips (codec : ProfileCodec) : Prop :=
  ∀ document text, codec.toVecPretty document = some text → codec.fromSlice text = some document

/-- `from_profile`. -/
def StoredProfile.fromProfile (profile : ModelProfile) : StoredProfile where
  name := profile.name
  baseUrl := profile.baseUrl
  model := profile.model
  tokenizer := profile.tokenizer
  credentialRef := profile.credentialRef
  inferenceTimeoutSeconds := profile.inferenceLimits.timeout.asSecs
  maxOutputTokens := profile.inferenceLimits.maxOutputTokens
  responseFormat := profile.requestOptions.responseFormat
  thinking := profile.requestOptions.thinking

/-- `into_profile`. -/
def StoredProfile.intoProfile (lib : ProviderCrates) (self : StoredProfile) :
    Outcome ModelProfileError ModelProfile := do
  let inferenceLimits ← (InferenceLimits.new lib (.fromSecs self.inferenceTimeoutSeconds)
    self.maxOutputTokens).mapErr fun _ => .invalidProfileFile
  let profile : ModelProfile :=
    { name := self.name
      baseUrl := self.baseUrl
      model := self.model
      tokenizer := self.tokenizer
      credentialRef := self.credentialRef
      inferenceLimits
      requestOptions := ⟨self.responseFormat, self.thinking⟩ }
  (profile.validate lib).mapErr fun _ => .invalidProfileFile
  pure profile

/-- `from_profiles`. -/
def StoredProfiles.fromProfiles (profiles : ModelProfiles) : StoredProfiles where
  formatVersion := profileFormatVersion
  activeProfile := profiles.active
  profiles := profiles.profiles.map StoredProfile.fromProfile

/-- `into_profiles`. -/
def StoredProfiles.intoProfiles (lib : ProviderCrates) (self : StoredProfiles) :
    Outcome ModelProfileError ModelProfiles := do
  Outcome.failIf (self.formatVersion ≠ profileFormatVersion) .invalidProfileFile
  let profiles ← self.profiles.mapM (StoredProfile.intoProfile lib)
  let collection : ModelProfiles :=
    { active := self.activeProfile
      profiles := sortByName profiles
      sourceDigest := none }
  collection.validate lib
  pure collection

/-- The bytes that `save` writes. -/
def encodeProfiles (codec : ProfileCodec) (profiles : ModelProfiles) :
    Outcome ModelProfileError (List UInt8) := do
  let text ← Outcome.okOr (codec.toVecPretty (.fromProfiles profiles)) .invalidProfileFile
  Outcome.failIf (maxProfileFileBytes < text.length) .invalidProfileFile
  pure text

/-- What `load` makes of the bytes of a file. -/
def decodeProfiles (lib : ProviderCrates) (codec : ProfileCodec) (sha256 : List UInt8 → Sha256Hex)
    (text : List UInt8) : Outcome ModelProfileError ModelProfiles := do
  Outcome.failIf (maxProfileFileBytes < text.length) .invalidProfileFile
  let document ← Outcome.okOr (codec.fromSlice text) .invalidProfileFile
  let profiles ← document.intoProfiles lib
  pure { profiles with sourceDigest := some (sha256Digest (sha256 text)) }

/-! ## Names in order -/

/-- The names of profiles. -/
def profileNames (profiles : List ModelProfile) : List String := profiles.map ModelProfile.name

section

variable {profiles : List ModelProfile} {profile : ModelProfile} {name : String}
  {f : ModelProfile → ModelProfile}

theorem find_name (h : profiles.find? (fun profile => decide (profile.name = name)) = some profile) :
    profile ∈ profiles ∧ profile.name = name :=
  ⟨List.mem_of_find?_eq_some h, by simpa using List.find?_some h⟩

theorem exists_of_mem_names (h : name ∈ profileNames profiles) :
    (profiles.find? fun profile => decide (profile.name = name)).isSome := by
  obtain ⟨profile, hprofile, rfl⟩ := List.mem_map.mp h
  rw [List.find?_isSome]
  exact ⟨profile, hprofile, by simp⟩

theorem mem_names_of_isSome
    (h : (profiles.find? fun profile => decide (profile.name = name)).isSome) :
    name ∈ profileNames profiles := by
  obtain ⟨profile, hprofile⟩ := Option.isSome_iff_exists.mp h
  obtain ⟨hmem, rfl⟩ := find_name hprofile
  exact List.mem_map_of_mem hmem

theorem names_updateProfile (h : ∀ profile : ModelProfile, profile.name = name → (f profile).name = name) :
    profileNames (updateProfile name f profiles) = profileNames profiles := by
  induction profiles with
  | nil => rfl
  | cons first rest ih =>
    unfold updateProfile
    by_cases hname : first.name = name
    · rw [if_pos hname]
      show (f first).name :: _ = first.name :: _
      rw [h first hname, hname]
    · rw [if_neg hname]
      show first.name :: _ = first.name :: _
      exact congrArg (List.cons first.name) ih

theorem mem_updateProfile (h : profile ∈ updateProfile name f profiles) :
    profile ∈ profiles ∨ ∃ previous ∈ profiles, profile = f previous := by
  induction profiles with
  | nil => exact Or.inl h
  | cons first rest ih =>
    unfold updateProfile at h
    by_cases hname : first.name = name
    · rw [if_pos hname] at h
      rcases List.mem_cons.mp h with rfl | hrest
      · exact Or.inr ⟨first, List.mem_cons_self, rfl⟩
      · exact Or.inl (List.mem_cons_of_mem _ hrest)
    · rw [if_neg hname] at h
      rcases List.mem_cons.mp h with rfl | hrest
      · exact Or.inl List.mem_cons_self
      · rcases ih hrest with hmem | ⟨previous, hprevious, rfl⟩
        · exact Or.inl (List.mem_cons_of_mem _ hmem)
        · exact Or.inr ⟨previous, List.mem_cons_of_mem _ hprevious, rfl⟩

theorem sortByName_perm : (sortByName profiles).Perm profiles := List.perm_insertionSort _ _

theorem sortByName_sorted (h : (profileNames profiles).Nodup) :
    (profileNames (sortByName profiles)).Pairwise (· < ·) := by
  have htotal : Std.Total fun left right : ModelProfile => left.name ≤ right.name :=
    ⟨fun left right => le_total left.name right.name⟩
  have htrans : IsTrans _ fun left right : ModelProfile => left.name ≤ right.name :=
    ⟨fun _ _ _ => le_trans⟩
  have hsorted : (profileNames (sortByName profiles)).Pairwise (· ≤ ·) :=
    List.pairwise_map.mpr (List.pairwise_insertionSort _ profiles)
  have hnodup : (profileNames (sortByName profiles)).Nodup :=
    (sortByName_perm.map ModelProfile.name).nodup_iff.mpr h
  exact (hsorted.and hnodup).imp fun hpair => lt_of_le_of_ne hpair.1 hpair.2

theorem sortByName_of_sorted (h : (profileNames profiles).Pairwise (· < ·)) :
    sortByName profiles = profiles :=
  List.Pairwise.insertionSort_eq ((List.pairwise_map.mp h).imp le_of_lt)

end

/-! ## What the methods keep -/

section

variable {lib : ProviderCrates} {profile : ModelProfile}

theorem ModelProfile.validate_eq_ok {u : Unit} : profile.validate lib = .ok u ↔
    (validProfileName profile.name = true ∧ validReference profile.credentialRef = true) ∧
      ∃ config, profile.config lib = .ok config := by
  simp only [ModelProfile.validate, Outcome.bind_eq_ok, Outcome.exists_unit, Outcome.failIf_eq_ok,
    Outcome.mapErr_eq_ok, Outcome.pure_eq_ok, not_or, Bool.not_eq_false]
  tauto

theorem validate_clear (h : profile.validate lib = .ok ()) :
    { profile with credentialRef := none }.validate lib = .ok () := by
  rw [ModelProfile.validate_eq_ok] at h ⊢
  exact ⟨⟨h.1.1, rfl⟩, h.2⟩

end

namespace ModelProfiles

/-- The names are sorted and distinct, the active one is among them, and every profile is valid. -/
structure WellFormed (lib : ProviderCrates) (collection : ModelProfiles) : Prop where
  sorted : (profileNames collection.profiles).Pairwise (· < ·)
  active : ∀ name ∈ collection.active, name ∈ profileNames collection.profiles
  valid : ∀ profile ∈ collection.profiles, profile.validate lib = .ok ()
  bounded : collection.profiles.length ≤ maxProfiles

section

variable {lib : ProviderCrates} {self self' : ModelProfiles} {name : String}

theorem WellFormed.nodup (h : self.WellFormed lib) : (profileNames self.profiles).Nodup :=
  h.sorted.imp ne_of_lt

theorem WellFormed.empty : ModelProfiles.empty.WellFormed lib where
  sorted := .nil
  active name hname := by cases hname
  valid profile hprofile := by cases hprofile
  bounded := Nat.zero_le _

theorem WellFormed.stamp (h : self.WellFormed lib) (digest : Option String) :
    { self with sourceDigest := digest }.WellFormed lib := ⟨h.sorted, h.active, h.valid, h.bounded⟩

theorem WellFormed.upsert {profile : ModelProfile} {previous : Option ModelProfile}
    (h : self.WellFormed lib) (hrun : ModelProfiles.upsert lib profile self = (.ok previous, self')) :
    self'.WellFormed lib := by
  simp only [ModelProfiles.upsert, bind_eq_ok, reads_eq_ok, writes_eq_ok, pure_eq_ok] at hrun
  obtain ⟨_, _, ⟨hvalid, rfl⟩, previous, _, ⟨hprevious, rfl⟩, _, middle, hplace, _, _, hsort, rfl, rfl⟩ :=
    hrun
  obtain rfl := hsort
  have hprevious : self.get profile.name = previous := Except.ok.inj hprevious
  cases previous with
  | some old =>
    simp only [place, writes_eq_ok] at hplace
    subst hplace
    have hnames : profileNames (updateProfile profile.name (fun _ => profile) self.profiles) =
        profileNames self.profiles := names_updateProfile fun _ _ => rfl
    have hsorted := h.sorted
    rw [← hnames] at hsorted
    have hsame := sortByName_of_sorted hsorted
    exact
      { sorted := by
          dsimp only
          rw [hsame]
          exact hsorted
        active := by
          dsimp only
          rw [hsame, hnames]
          exact h.active
        valid := fun other hother => by
          dsimp only at hother
          rw [hsame] at hother
          rcases mem_updateProfile hother with hmem | ⟨_, _, rfl⟩
          · exact h.valid other hmem
          · exact hvalid
        bounded := by
          dsimp only
          rw [hsame]
          have hlength := congrArg List.length hnames
          rw [profileNames, profileNames, List.length_map, List.length_map] at hlength
          rw [hlength]
          exact h.bounded }
  | none =>
    simp only [place, bind_eq_ok, reads_eq_ok, writes_eq_ok, Outcome.failIf_eq_ok, not_le] at hplace
    obtain ⟨_, _, ⟨hlength, rfl⟩, rfl⟩ := hplace
    have hnew : profile.name ∉ profileNames self.profiles := by
      intro hmem
      have hfound := exists_of_mem_names hmem
      rw [ModelProfiles.get] at hprevious
      rw [hprevious] at hfound
      cases hfound
    have hnames : profileNames (self.profiles ++ [profile]) =
        profileNames self.profiles ++ [profile.name] := List.map_append
    have hnodup : (profileNames (self.profiles ++ [profile])).Nodup := by
      rw [hnames, List.nodup_append]
      refine ⟨h.nodup, List.nodup_singleton _, ?_⟩
      rintro name hname _ hlast rfl
      rw [List.mem_singleton.mp hlast] at hname
      exact hnew hname
    exact
      { sorted := sortByName_sorted hnodup
        active := fun name hname => by
          have hperm := @sortByName_perm (self.profiles ++ [profile])
          refine (hperm.map ModelProfile.name).mem_iff.mpr ?_
          rw [List.map_append]
          exact List.mem_append_left _ (h.active name hname)
        valid := fun other hother => by
          rcases List.mem_append.mp (sortByName_perm.mem_iff.mp hother) with hmem | hlast
          · exact h.valid other hmem
          · rw [List.mem_singleton.mp hlast]
            exact hvalid
        bounded := by
          show (sortByName (self.profiles ++ [profile])).length ≤ maxProfiles
          rw [sortByName_perm.length_eq, List.length_append, List.length_singleton]
          exact hlength }

theorem WellFormed.setActive (h : self.WellFormed lib) {u : Unit}
    (hrun : ModelProfiles.setActive name self = (.ok u, self')) : self'.WellFormed lib := by
  simp only [ModelProfiles.setActive, bind_eq_ok, reads_eq_ok, writes_eq_ok,
    Outcome.failIf_eq_ok] at hrun
  obtain ⟨_, _, ⟨hname, rfl⟩, rfl⟩ := hrun
  refine ⟨h.sorted, ?_, h.valid, h.bounded⟩
  rintro _ ⟨⟩
  exact mem_names_of_isSome (Option.isSome_iff_ne_none.mpr hname)

theorem WellFormed.clearCredential {reference : Option String} (h : self.WellFormed lib)
    (hrun : ModelProfiles.clearCredential name self = (.ok reference, self')) :
    self'.WellFormed lib := by
  simp only [ModelProfiles.clearCredential, bind_eq_ok, reads_eq_ok, writes_eq_ok, pure_eq_ok,
    Outcome.okOr_eq_ok] at hrun
  obtain ⟨profile, _, ⟨-, rfl⟩, _, _, hwrite, -, rfl⟩ := hrun
  obtain rfl := hwrite
  have hnames : profileNames (updateProfile name
      (fun profile => { profile with credentialRef := none }) self.profiles) =
        profileNames self.profiles := names_updateProfile fun _ hname => hname
  exact
    { sorted := by
        dsimp only
        rw [hnames]
        exact h.sorted
      active := by
        dsimp only
        rw [hnames]
        exact h.active
      valid := fun other hother => by
        rcases mem_updateProfile hother with hmem | ⟨previous, hprevious, rfl⟩
        · exact h.valid other hmem
        · exact validate_clear (h.valid previous hprevious)
      bounded := by
        have hlength := congrArg List.length hnames
        rw [profileNames, profileNames, List.length_map, List.length_map] at hlength
        dsimp only
        rw [hlength]
        exact h.bounded }

theorem WellFormed.remove {removed : ModelProfile} (h : self.WellFormed lib)
    (hrun : ModelProfiles.remove name self = (.ok removed, self')) : self'.WellFormed lib := by
  simp only [ModelProfiles.remove, bind_eq_ok, reads_eq_ok, writes_eq_ok, pure_eq_ok,
    Outcome.okOr_eq_ok] at hrun
  obtain ⟨_, _, ⟨-, rfl⟩, _, _, hwrite, _, last, hactive, -, rfl⟩ := hrun
  have hsublist : (self.profiles.eraseP fun profile => decide (profile.name = name)).Sublist
      self.profiles := List.eraseP_sublist
  have hprofiles : last.profiles =
      self.profiles.eraseP fun profile => decide (profile.name = name) := by
    rw [← hactive, ← hwrite]
    split_ifs <;> rfl
  refine ⟨?_, ?_, ?_, ?_⟩
  · rw [hprofiles]
    exact h.sorted.sublist (hsublist.map ModelProfile.name)
  · intro other hother
    rw [← hactive, ← hwrite] at hother
    rw [hprofiles]
    by_cases hname : self.active = some name
    · rw [if_pos hname] at hother
      obtain ⟨first, hfirst, rfl⟩ := Option.map_eq_some_iff.mp hother
      exact List.mem_map_of_mem (List.mem_of_head? hfirst)
    · rw [if_neg hname] at hother
      obtain ⟨profile, hprofile, rfl⟩ := List.mem_map.mp (h.active other hother)
      refine List.mem_map_of_mem ((List.mem_eraseP_of_neg ?_).mpr hprofile)
      intro heq
      rw [decide_eq_true_eq] at heq
      exact hname (heq ▸ hother)
  · intro profile hprofile
    rw [hprofiles] at hprofile
    exact h.valid profile (hsublist.mem hprofile)
  · rw [hprofiles]
    exact hsublist.length_le.trans h.bounded

end

end ModelProfiles

/-! ### Runs -/

/-- A call of a method. -/
inductive ProfileCall where
  | upsert (profile : ModelProfile)
  | setActive (name : String)
  | clearCredential (name : String)
  | remove (name : String)

/-- The method, without what it returns. -/
def ProfileCall.perform (lib : ProviderCrates) : ProfileCall → ProfilesMethod Unit
  | .upsert profile => do
    let _ ← ModelProfiles.upsert lib profile
    pure ()
  | .setActive name => ModelProfiles.setActive name
  | .clearCredential name => do
    let _ ← ModelProfiles.clearCredential name
    pure ()
  | .remove name => do
    let _ ← ModelProfiles.remove name
    pure ()

/-- The collections that calls lead to, with profiles that can be constructed, and with the digest of
the file that was loaded or saved last. -/
inductive Reached (lib : ProviderCrates) : ModelProfiles → Prop
  | empty : Reached lib .empty
  | returned {self self' : ModelProfiles} {call : ProfileCall} (hbefore : Reached lib self)
      (hprofile : ∀ profile, call = .upsert profile → ModelProfile.Constructible lib profile)
      (hrun : call.perform lib self = (.ok (), self')) : Reached lib self'
  | failed {self self' : ModelProfiles} {call : ProfileCall} {error : ModelProfileError}
      (hbefore : Reached lib self)
      (hprofile : ∀ profile, call = .upsert profile → ModelProfile.Constructible lib profile)
      (hrun : call.perform lib self = (.error (.err error), self')) : Reached lib self'
  | stamp {self : ModelProfiles} (digest : Option String) (hbefore : Reached lib self) :
      Reached lib { self with sourceDigest := digest }

section

variable {lib : ProviderCrates} {self self' : ModelProfiles}

/-- **A method that fails changes nothing.** -/
theorem ProfileCall.perform_atomic (call : ProfileCall) : Atomic (call.perform lib) := by
  have hignore : ∀ {α : Type} {m : ProfilesMethod α}, Atomic m →
      Atomic (m >>= fun _ => (pure () : ProfilesMethod Unit)) :=
    fun hm => hm.bind fun _ => .pure
  cases call with
  | upsert profile =>
    refine hignore (.of_reads fun _ => .of_reads fun previous => Atomic.bind ?_ fun _ =>
      .bind .writes fun _ => .pure)
    cases previous with
    | some old => exact Infallible.writes.atomic
    | none => exact .of_reads fun _ => Infallible.writes.atomic
  | setActive name => exact .of_reads fun _ => Infallible.writes.atomic
  | clearCredential name =>
    exact hignore (.of_reads fun _ => (Infallible.writes.bind fun _ => .pure).atomic)
  | remove name =>
    exact hignore (.of_reads fun _ =>
      (Infallible.writes.bind fun _ => .bind .writes fun _ => .pure).atomic)

theorem ModelProfiles.WellFormed.perform {call : ProfileCall} (h : self.WellFormed lib)
    (hrun : call.perform lib self = (.ok (), self')) : self'.WellFormed lib := by
  cases call with
  | setActive name => exact h.setActive hrun
  | upsert profile =>
    simp only [ProfileCall.perform, bind_eq_ok, pure_eq_ok] at hrun
    obtain ⟨_, _, hcall, -, rfl⟩ := hrun
    exact h.upsert hcall
  | clearCredential name =>
    simp only [ProfileCall.perform, bind_eq_ok, pure_eq_ok] at hrun
    obtain ⟨_, _, hcall, -, rfl⟩ := hrun
    exact h.clearCredential hcall
  | remove name =>
    simp only [ProfileCall.perform, bind_eq_ok, pure_eq_ok] at hrun
    obtain ⟨_, _, hcall, -, rfl⟩ := hrun
    exact h.remove hcall

/-- **Every collection is well formed.** -/
theorem Reached.wellFormed (h : Reached lib self) : self.WellFormed lib := by
  induction h with
  | empty => exact .empty
  | returned _ _ hrun ih => exact ih.perform hrun
  | @failed self self' call error _ _ hrun ih =>
    rw [call.perform_atomic self error self' hrun]
    exact ih
  | stamp digest _ ih => exact ih.stamp digest

end

/-! ## What a document gives back -/

/-- What the checks of limits need of other crates: the address that they use, and canonical texts. -/
structure ProviderCrates.ChecksLimits (lib : ProviderCrates) : Prop where
  address : ∃ endpoints, apiEndpoints lib.url "https://limits.invalid/v1" = .ok endpoints
  canonical : ∀ value, ∃ text, lib.jcs value = some text

section

variable {lib : ProviderCrates} {profile : ModelProfile} {self loaded : ModelProfiles}

theorem refresh_total (hlib : lib.ChecksLimits) (config : OpenAiPlannerConfig lib) :
    ∃ digest, config.refreshProfileDigest =
      .ok { config with requestProfileDigest := digest } := by
  obtain ⟨schema, hschema⟩ := hlib.canonical config.proposalSchema
  obtain ⟨canonical, hcanonical⟩ := hlib.canonical
    (config.descriptor config.promptTemplateDigest (OpenAiPlannerConfig.digestOf lib schema))
  refine ⟨OpenAiPlannerConfig.digestOf lib canonical, ?_⟩
  unfold OpenAiPlannerConfig.refreshProfileDigest
  rw [hschema]
  show (do let canonical ← Outcome.okOr (lib.jcs _) _; _) = _
  rw [hcanonical]
  rfl

/-- Limits that a configuration takes. -/
def InferenceLimits.InBounds (limits : InferenceLimits) : Prop :=
  (limits.timeout.nanos ≠ 0 ∧ limits.timeout.nanos ≤ (Duration.fromSecs maxTimeoutSeconds).nanos) ∧
    limits.maxOutputTokens ≠ 0 ∧ limits.maxOutputTokens ≤ maxOutputTokensLimit

theorem inBounds_of_valid (h : profile.validate lib = .ok ()) : profile.inferenceLimits.InBounds := by
  obtain ⟨-, config, hconfig⟩ := ModelProfile.validate_eq_ok.mp h
  simp only [ModelProfile.config, OpenAiPlannerConfig.withTimeout,
    OpenAiPlannerConfig.withMaxOutputTokens, Outcome.bind_eq_ok, Outcome.exists_unit,
    Outcome.failIf_eq_ok, not_or, not_lt] at hconfig
  obtain ⟨_, -, _, ⟨⟨hzero, hlimit⟩, -⟩, _, ⟨⟨hnone, htokens⟩, -⟩, -⟩ := hconfig
  exact ⟨⟨hzero, hlimit⟩, hnone, htokens⟩

theorem withLimits (hlib : lib.ChecksLimits) {limits : InferenceLimits} (h : limits.InBounds)
    (config : OpenAiPlannerConfig lib) : ∃ digest,
      (config.withTimeout limits.timeout >>= fun config =>
        config.withMaxOutputTokens limits.maxOutputTokens) =
          .ok { config with
            timeout := limits.timeout
            maxOutputTokens := limits.maxOutputTokens
            requestProfileDigest := digest } := by
  obtain ⟨⟨hzero, hlimit⟩, hnone, htokens⟩ := h
  obtain ⟨digest, hdigest⟩ := refresh_total hlib { config with timeout := limits.timeout }
  obtain ⟨digest', hdigest'⟩ := refresh_total hlib { config with
    timeout := limits.timeout
    requestProfileDigest := digest
    maxOutputTokens := limits.maxOutputTokens }
  refine ⟨digest', Outcome.bind_eq_ok.mpr ⟨_, Outcome.bind_eq_ok.mpr ⟨(), ?_, hdigest⟩,
    Outcome.bind_eq_ok.mpr ⟨(), ?_, hdigest'⟩⟩⟩
  · exact Outcome.failIf_eq_ok.mpr (not_or.mpr ⟨hzero, not_lt.mpr hlimit⟩)
  · exact Outcome.failIf_eq_ok.mpr (not_or.mpr ⟨hnone, not_lt.mpr htokens⟩)

theorem limits_new (hlib : lib.ChecksLimits) {limits : InferenceLimits} (h : limits.InBounds) :
    InferenceLimits.new lib limits.timeout limits.maxOutputTokens = .ok limits := by
  obtain ⟨endpoints, haddress⟩ := hlib.address
  obtain ⟨config, hconfig⟩ : ∃ config, OpenAiPlannerConfig.new lib "https://limits.invalid/v1"
      profileValidationPlannerId "limits-validation" "limits-validation" = .ok config := by
    unfold OpenAiPlannerConfig.new
    rw [haddress]
    obtain ⟨digest, hdigest⟩ := refresh_total hlib _
    exact ⟨_, hdigest⟩
  obtain ⟨digest, hlimits⟩ := withLimits hlib h config
  unfold InferenceLimits.new
  exact Outcome.bind_eq_ok.mpr ⟨_, Outcome.mapErr_eq_ok.mpr
    (Outcome.bind_eq_ok.mpr ⟨config, hconfig, hlimits⟩), rfl⟩

/-- The timeout is a number of seconds. -/
def ModelProfile.WholeSeconds (profile : ModelProfile) : Prop :=
  profile.inferenceLimits.timeout.subsecNanos = 0

instance : DecidablePred ModelProfile.WholeSeconds :=
  fun profile => inferInstanceAs (Decidable (profile.inferenceLimits.timeout.subsecNanos = 0))

theorem wholeSeconds_of_intoProfile {stored : StoredProfile}
    (h : stored.intoProfile lib = .ok profile) : profile.WholeSeconds := by
  simp only [StoredProfile.intoProfile, InferenceLimits.new, Outcome.bind_eq_ok,
    Outcome.mapErr_eq_ok, Outcome.pure_eq_ok, Outcome.exists_unit] at h
  obtain ⟨limits, ⟨_, -, rfl⟩, -, rfl⟩ := h
  show stored.inferenceTimeoutSeconds * 1000000000 % 1000000000 = 0
  exact Nat.mul_mod_left _ _

theorem intoProfile_fromProfile (hlib : lib.ChecksLimits) (h : profile.validate lib = .ok ())
    (hwhole : profile.WholeSeconds) :
    (StoredProfile.fromProfile profile).intoProfile lib = .ok profile := by
  have htimeout : Duration.fromSecs profile.inferenceLimits.timeout.asSecs =
      profile.inferenceLimits.timeout := by
    have hnanos : profile.inferenceLimits.timeout.nanos % 1000000000 = 0 := hwhole
    have hequal : profile.inferenceLimits.timeout.nanos / 1000000000 * 1000000000 =
        profile.inferenceLimits.timeout.nanos := by omega
    exact congrArg Duration.mk hequal
  have hlimits := limits_new hlib (inBounds_of_valid h)
  unfold StoredProfile.intoProfile
  refine Outcome.bind_eq_ok.mpr ⟨profile.inferenceLimits, Outcome.mapErr_eq_ok.mpr ?_, ?_⟩
  · show InferenceLimits.new lib (.fromSecs profile.inferenceLimits.timeout.asSecs) _ = _
    rw [htimeout]
    exact hlimits
  · exact Outcome.bind_eq_ok.mpr ⟨(), Outcome.mapErr_eq_ok.mpr h, rfl⟩

theorem validateNames_ok {profiles : List ModelProfile} {names : List String}
    (hvalid : ∀ profile ∈ profiles, profile.validate lib = .ok ())
    (hnames : (profileNames profiles).Nodup)
    (hnew : ∀ profile ∈ profiles, profile.name ∉ names) :
    ∃ all, Outcome.foldl (ModelProfiles.validateNext lib) names profiles = .ok all := by
  induction profiles generalizing names with
  | nil => exact ⟨names, rfl⟩
  | cons profile rest ih =>
    obtain ⟨hname, hrest⟩ := List.nodup_cons.mp hnames
    have hnext : ModelProfiles.validateNext lib names profile = .ok (profile.name :: names) := by
      unfold ModelProfiles.validateNext
      rw [hvalid profile List.mem_cons_self]
      exact Outcome.bind_eq_ok.mpr ⟨(), rfl, Outcome.bind_eq_ok.mpr
        ⟨(), Outcome.failIf_eq_ok.mpr (hnew profile List.mem_cons_self), rfl⟩⟩
    have hother : ∀ other ∈ rest, other.name ∉ profile.name :: names := by
      intro other hother hmem
      rcases List.mem_cons.mp hmem with heq | hmem
      · exact hname (heq ▸ List.mem_map_of_mem hother)
      · exact hnew other (List.mem_cons_of_mem _ hother) hmem
    obtain ⟨all, hall⟩ :=
      ih (fun other hother => hvalid other (List.mem_cons_of_mem _ hother)) hrest hother
    exact ⟨all, Outcome.bind_eq_ok.mpr ⟨_, hnext, hall⟩⟩

theorem validate_of_wellFormed (h : self.WellFormed lib) : self.validate lib = .ok () := by
  have hnames : ∀ profile ∈ self.profiles, profile.name ∉ [] := fun _ _ => List.not_mem_nil
  obtain ⟨all, hall⟩ := validateNames_ok h.valid h.nodup hnames
  unfold ModelProfiles.validate
  refine Outcome.bind_eq_ok.mpr ⟨(), Outcome.failIf_eq_ok.mpr ?_,
    Outcome.bind_eq_ok.mpr ⟨all, hall, rfl⟩⟩
  refine not_or.mpr ⟨not_lt.mpr h.bounded, ?_⟩
  cases hactive : self.active with
  | none => simp
  | some name =>
    have hfound := exists_of_mem_names (h.active name hactive)
    rw [Option.any_some, Option.isNone_iff_eq_none]
    exact Option.isSome_iff_ne_none.mp hfound

/-- **A document gives back its collection when the timeouts are numbers of seconds.** -/
theorem document_same_iff (hlib : lib.ChecksLimits) (h : self.WellFormed lib) :
    (∃ loaded, (StoredProfiles.fromProfiles self).intoProfiles lib = .ok loaded ∧
      loaded.active = self.active ∧ loaded.profiles = self.profiles) ↔
        ∀ profile ∈ self.profiles, profile.WholeSeconds := by
  constructor
  · rintro ⟨loaded, hloaded, -, hprofiles⟩ profile hprofile
    simp only [StoredProfiles.intoProfiles, Outcome.bind_eq_ok, Outcome.exists_unit,
      Outcome.failIf_eq_ok, Outcome.pure_eq_ok] at hloaded
    obtain ⟨-, profiles, hread, -, rfl⟩ := hloaded
    rw [← hprofiles] at hprofile
    obtain ⟨stored, -, hstored⟩ := Outcome.exists_left_of_mem (Outcome.mapM_eq_ok.mp hread)
      (sortByName_perm.mem_iff.mp hprofile)
    exact wholeSeconds_of_intoProfile hstored
  · intro hwhole
    have hread : (StoredProfiles.fromProfiles self).profiles.mapM (StoredProfile.intoProfile lib) =
        .ok self.profiles := by
      refine Outcome.mapM_eq_ok.mpr ?_
      show List.Forall₂ _ (self.profiles.map StoredProfile.fromProfile) _
      rw [List.forall₂_map_left_iff, List.forall₂_same]
      exact fun profile hprofile =>
        intoProfile_fromProfile hlib (h.valid profile hprofile) (hwhole profile hprofile)
    refine ⟨{ self with sourceDigest := none }, ?_, rfl, rfl⟩
    unfold StoredProfiles.intoProfiles
    rw [hread]
    refine Outcome.bind_eq_ok.mpr ⟨(), Outcome.failIf_eq_ok.mpr (fun hne => hne rfl), ?_⟩
    refine Outcome.bind_eq_ok.mpr ⟨self.profiles, rfl, ?_⟩
    rw [sortByName_of_sorted h.sorted]
    exact Outcome.bind_eq_ok.mpr ⟨(), validate_of_wellFormed (h.stamp none), rfl⟩

end

end Xgeny
