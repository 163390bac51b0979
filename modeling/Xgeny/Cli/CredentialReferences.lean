import Xgeny.Cli.ModelCommands

set_option autoImplicit false

/-!
# References of profiles and secrets

A profile in the file holds the reference of its secret. Each call of a command either changes nothing,
or leaves every secret with a profile.

* `ModelProfiles.References`, `Stores.Referenced`, `Stores.NoOrphans`: references and secrets;
* **`Stores.referenced_iff`**, `Stores.referenced_saved`: the references of a loaded and of a saved file;
* `upsert_mem`, `clearCredential_mem`, `remove_mem`: the profiles that a method keeps;
* `KeepsReferenced` and its rules: a routine that leaves no orphan, however it ends;
* `Covers`, **`keeps_save`**: a collection that may be saved, whatever the save answers.
-/

namespace Xgeny

open Mutation ModelCommand
open Prog (ends_bind ends_lift_bind)

/-! ## References -/

/-- A profile of the collection has the reference. -/
def ModelProfiles.References (profiles : ModelProfiles) (reference : String) : Prop :=
  ∃ profile ∈ profiles.profiles, profile.credentialRef = some reference

/-- A profile in the file has the reference. -/
def Stores.Referenced (codec : ProfileCodec) (m : Stores) (reference : String) : Prop :=
  ∃ text ∈ m.file, ∃ document, codec.fromSlice text = some document ∧
    ∃ stored ∈ document.profiles, stored.credentialRef = some reference

/-- Every secret under a reference that a setup generated belongs to a profile in the file. -/
def Stores.NoOrphans (codec : ProfileCodec) (generated : String → Prop) (m : Stores) : Prop :=
  ∀ reference, generated reference → (m.secrets reference).isSome → m.Referenced codec reference

section

variable {lib : ProviderCrates} {codec : ProfileCodec} {sha256 : List UInt8 → Sha256Hex}
  {generated : String → Prop} {m m' : Stores} {profiles : ModelProfiles} {reference : String}
  {text : List UInt8}

theorem intoProfile_credentialRef {stored : StoredProfile} {profile : ModelProfile}
    (h : stored.intoProfile lib = .ok profile) : profile.credentialRef = stored.credentialRef := by
  simp only [StoredProfile.intoProfile, Outcome.bind_eq_ok, Outcome.pure_eq_ok] at h
  obtain ⟨limits, -, -, -, rfl⟩ := h
  rfl

theorem intoProfiles_references {document : StoredProfiles}
    (h : document.intoProfiles lib = .ok profiles) : profiles.References reference ↔
      ∃ stored ∈ document.profiles, stored.credentialRef = some reference := by
  simp only [StoredProfiles.intoProfiles, Outcome.bind_eq_ok, Outcome.exists_unit,
    Outcome.failIf_eq_ok, Outcome.pure_eq_ok] at h
  obtain ⟨-, read, hread, -, rfl⟩ := h
  have hpairs := Outcome.mapM_eq_ok.mp hread
  constructor
  · rintro ⟨profile, hprofile, hreference⟩
    obtain ⟨stored, hstored, hinto⟩ :=
      Outcome.exists_left_of_mem hpairs (sortByName_perm.mem_iff.mp hprofile)
    exact ⟨stored, hstored, (intoProfile_credentialRef hinto).symm.trans hreference⟩
  · rintro ⟨stored, hstored, hreference⟩
    obtain ⟨profile, hprofile, hinto⟩ := Outcome.exists_left_of_mem hpairs.flip hstored
    exact ⟨profile, sortByName_perm.mem_iff.mpr hprofile,
      (intoProfile_credentialRef hinto).trans hreference⟩

theorem Stores.referenced_iff (h : m.loaded lib codec sha256 = .ok profiles) :
    m.Referenced codec reference ↔ profiles.References reference := by
  unfold Stores.loaded at h
  unfold Stores.Referenced
  cases hfile : m.file with
  | none =>
    rw [hfile] at h
    obtain rfl := Except.ok.inj h
    exact iff_of_false (fun ⟨_, hnone, _⟩ => by cases hnone) fun ⟨_, hnone, _⟩ => by cases hnone
  | some text =>
    rw [hfile] at h
    simp only [decodeProfiles, Outcome.bind_eq_ok, Outcome.exists_unit, Outcome.okOr_eq_ok,
      Outcome.pure_eq_ok] at h
    obtain ⟨-, document, hdocument, read, hread, rfl⟩ := h
    have hsame : ModelProfiles.References { read with sourceDigest := some (sha256Digest (sha256 text)) }
        reference ↔ read.References reference := Iff.rfl
    rw [hsame, intoProfiles_references hread]
    constructor
    · rintro ⟨_, ⟨⟩, other, hother, hstored⟩
      rw [hdocument] at hother
      obtain rfl := Option.some.inj hother
      exact hstored
    · exact fun hstored => ⟨text, rfl, document, hdocument, hstored⟩

theorem Stores.referenced_saved (hcodec : codec.RoundTrips)
    (h : encodeProfiles codec profiles = .ok text) :
    { m with file := some text }.Referenced codec reference ↔ profiles.References reference := by
  simp only [encodeProfiles, Outcome.bind_eq_ok, Outcome.exists_unit, Outcome.okOr_eq_ok,
    Outcome.pure_eq_ok] at h
  obtain ⟨_, hdocument, -, rfl⟩ := h
  have hparsed := hcodec _ _ hdocument
  constructor
  · rintro ⟨_, ⟨⟩, document, hother, stored, hstored, hreference⟩
    rw [hparsed] at hother
    obtain rfl := Option.some.inj hother
    obtain ⟨profile, hprofile, rfl⟩ := List.mem_map.mp hstored
    exact ⟨profile, hprofile, hreference⟩
  · rintro ⟨profile, hprofile, hreference⟩
    exact ⟨_, rfl, _, hparsed, _, List.mem_map_of_mem hprofile, hreference⟩

theorem validateNames_nodup {list : List ModelProfile} {names all : List String}
    (h : Outcome.foldl (ModelProfiles.validateNext lib) names list = .ok all) :
    (profileNames list).Nodup ∧ ∀ profile ∈ list, profile.name ∉ names := by
  induction list generalizing names with
  | nil => exact ⟨List.nodup_nil, fun _ h => absurd h List.not_mem_nil⟩
  | cons first rest ih =>
    obtain ⟨next, hnext, hrest⟩ := Outcome.bind_eq_ok.mp h
    simp only [ModelProfiles.validateNext, Outcome.bind_eq_ok, Outcome.exists_unit,
      Outcome.failIf_eq_ok, Outcome.pure_eq_ok] at hnext
    obtain ⟨-, hnew, rfl⟩ := hnext
    obtain ⟨hnodup, hothers⟩ := ih hrest
    refine ⟨List.nodup_cons.mpr ⟨fun hmem => ?_, hnodup⟩, ?_⟩
    · obtain ⟨other, hother, hname⟩ := List.mem_map.mp hmem
      exact hothers other hother (hname ▸ List.mem_cons_self)
    · intro profile hprofile hname
      rcases List.mem_cons.mp hprofile with rfl | hprofile
      · exact hnew hname
      · exact hothers profile hprofile (List.mem_cons_of_mem _ hname)

theorem Stores.loaded_nodup (h : m.loaded lib codec sha256 = .ok profiles) :
    (profileNames profiles.profiles).Nodup := by
  unfold Stores.loaded at h
  cases hfile : m.file with
  | none =>
    rw [hfile] at h
    obtain rfl := Except.ok.inj h
    exact List.nodup_nil
  | some text =>
    rw [hfile] at h
    simp only [decodeProfiles, StoredProfiles.intoProfiles, Outcome.bind_eq_ok, Outcome.exists_unit,
      Outcome.pure_eq_ok] at h
    obtain ⟨-, document, -, collection, ⟨-, read, -, hvalid, rfl⟩, rfl⟩ := h
    obtain ⟨-, -, hnames⟩ := Outcome.bind_eq_ok.mp hvalid
    obtain ⟨all, hall, -⟩ := Outcome.bind_eq_ok.mp hnames
    exact (validateNames_nodup hall).1

theorem get_of_mem (h : (profileNames profiles.profiles).Nodup) {profile : ModelProfile}
    (hprofile : profile ∈ profiles.profiles) : profiles.get profile.name = some profile := by
  have hfound := exists_of_mem_names (List.mem_map_of_mem hprofile)
  obtain ⟨other, hother⟩ := Option.isSome_iff_exists.mp hfound
  obtain ⟨hmem, hname⟩ := find_name hother
  rw [ModelProfiles.get, hother, List.inj_on_of_nodup_map h hmem hprofile hname]

end

/-! ## What the methods keep of the other profiles -/

section

variable {lib : ProviderCrates} {self self' : ModelProfiles} {profile other : ModelProfile}
  {name : String} {f : ModelProfile → ModelProfile}

theorem mem_updateProfile_of_ne {list : List ModelProfile} (h : other ∈ list)
    (hname : other.name ≠ name) : other ∈ updateProfile name f list := by
  induction list with
  | nil => cases h
  | cons first rest ih =>
    unfold updateProfile
    rcases List.mem_cons.mp h with rfl | hrest
    · rw [if_neg hname]
      exact List.mem_cons_self
    · by_cases hfirst : first.name = name
      · rw [if_pos hfirst]
        exact List.mem_cons_of_mem _ hrest
      · rw [if_neg hfirst]
        exact List.mem_cons_of_mem _ (ih hrest)

theorem mem_updateProfile_self {list : List ModelProfile} (h : name ∈ profileNames list) :
    ∃ previous, f previous ∈ updateProfile name f list := by
  induction list with
  | nil => cases h
  | cons first rest ih =>
    unfold updateProfile
    by_cases hfirst : first.name = name
    · rw [if_pos hfirst]
      exact ⟨first, List.mem_cons_self⟩
    · rw [if_neg hfirst]
      obtain ⟨previous, hprevious⟩ :=
        ih ((List.mem_cons.mp h).resolve_left fun heq => hfirst heq.symm)
      exact ⟨previous, List.mem_cons_of_mem _ hprevious⟩

theorem upsert_mem {previous : Option ModelProfile}
    (h : ModelProfiles.upsert lib profile self = (.ok previous, self')) :
    profile ∈ self'.profiles ∧
      ∀ other ∈ self.profiles, other.name ≠ profile.name → other ∈ self'.profiles := by
  simp only [ModelProfiles.upsert, bind_eq_ok, reads_eq_ok, writes_eq_ok, pure_eq_ok] at h
  obtain ⟨_, _, ⟨-, rfl⟩, previous, _, ⟨hprevious, rfl⟩, _, middle, hplace, _, _, hsort, -, rfl⟩ := h
  obtain rfl := hsort
  have hmem : ∀ {profile : ModelProfile},
      profile ∈ sortByName middle.profiles ↔ profile ∈ middle.profiles := sortByName_perm.mem_iff
  show profile ∈ sortByName middle.profiles ∧ ∀ other ∈ self.profiles, _ → other ∈ sortByName _
  simp only [hmem]
  cases previous with
  | some old =>
    simp only [ModelProfiles.place, writes_eq_ok] at hplace
    subst hplace
    have hfound := mem_names_of_isSome (Option.isSome_iff_exists.mpr ⟨old, Except.ok.inj hprevious⟩)
    obtain ⟨_, hself⟩ := mem_updateProfile_self (f := fun _ => profile) hfound
    exact ⟨hself, fun other hother hname => mem_updateProfile_of_ne hother hname⟩
  | none =>
    simp only [ModelProfiles.place, bind_eq_ok, reads_eq_ok, writes_eq_ok] at hplace
    obtain ⟨_, _, ⟨-, rfl⟩, rfl⟩ := hplace
    exact ⟨List.mem_append_right _ List.mem_cons_self, fun other hother _ =>
      List.mem_append_left _ hother⟩

theorem upsert_total (hvalid : profile.validate lib = .ok ())
    (hroom : (self.get profile.name).isSome ∨ self.profiles.length < maxProfiles) :
    ∃ previous self', ModelProfiles.upsert lib profile self = (.ok previous, self') := by
  have hplace : ∃ middle, ModelProfiles.place profile (self.get profile.name) self =
      (.ok (), middle) := by
    cases hprevious : self.get profile.name with
    | some old =>
      exact ⟨{ self with profiles := updateProfile profile.name (fun _ => profile) self.profiles }, rfl⟩
    | none =>
      rw [hprevious] at hroom
      have hlength := hroom.resolve_left (by decide)
      exact ⟨_, bind_eq_ok.mpr ⟨(), self, reads_eq_ok.mpr
        ⟨Outcome.failIf_eq_ok.mpr (not_le.mpr hlength), rfl⟩, writes_eq_ok.mpr rfl⟩⟩
  obtain ⟨middle, hmiddle⟩ := hplace
  refine ⟨self.get profile.name, _, bind_eq_ok.mpr ⟨(), self, reads_eq_ok.mpr ⟨hvalid, rfl⟩,
    bind_eq_ok.mpr ⟨_, self, reads_eq_ok.mpr ⟨rfl, rfl⟩, bind_eq_ok.mpr ⟨(), middle, hmiddle,
      bind_eq_ok.mpr ⟨(), _, writes_eq_ok.mpr rfl, pure_eq_ok.mpr ⟨rfl, rfl⟩⟩⟩⟩⟩⟩

theorem setActive_profiles {u : Unit} (h : ModelProfiles.setActive name self = (.ok u, self')) :
    self'.profiles = self.profiles := by
  simp only [ModelProfiles.setActive, bind_eq_ok, reads_eq_ok, writes_eq_ok] at h
  obtain ⟨_, _, ⟨-, rfl⟩, rfl⟩ := h
  rfl

theorem setActive_total (h : name ∈ profileNames self.profiles) :
    ∃ self', ModelProfiles.setActive name self = (.ok (), self') := by
  have hfound : self.get name ≠ none := Option.isSome_iff_ne_none.mp (exists_of_mem_names h)
  exact ⟨_, bind_eq_ok.mpr ⟨(), self, reads_eq_ok.mpr ⟨Outcome.failIf_eq_ok.mpr hfound, rfl⟩,
    writes_eq_ok.mpr rfl⟩⟩

theorem clearCredential_mem {reference : Option String}
    (h : ModelProfiles.clearCredential name self = (.ok reference, self')) :
    ∀ other ∈ self.profiles, other.name ≠ name → other ∈ self'.profiles := by
  simp only [ModelProfiles.clearCredential, bind_eq_ok, reads_eq_ok, writes_eq_ok, pure_eq_ok] at h
  obtain ⟨_, _, ⟨-, rfl⟩, _, _, rfl, -, rfl⟩ := h
  exact fun other hother hname => mem_updateProfile_of_ne hother hname

theorem remove_mem (h : ModelProfiles.remove name self = (.ok profile, self')) :
    ∀ other ∈ self.profiles, other.name ≠ name → other ∈ self'.profiles := by
  simp only [ModelProfiles.remove, bind_eq_ok, reads_eq_ok, writes_eq_ok, pure_eq_ok] at h
  obtain ⟨_, _, ⟨-, rfl⟩, _, _, rfl, _, _, rfl, -, rfl⟩ := h
  intro other hother hname
  have hkept : other ∈ self.profiles.eraseP fun profile => decide (profile.name = name) :=
    (List.mem_eraseP_of_neg (by simpa using hname)).mpr hother
  split_ifs <;> exact hkept

end

/-! ## Calls -/

section

variable {lib : ProviderCrates} {codec : ProfileCodec} {sha256 : List UInt8 → Sha256Hex}
  {generated : String → Prop} {m m' : Stores} {profiles : ModelProfiles} {α β : Type}
  {f : α → CommandRoutine β}

/-- The routine leaves no orphan, however it ends. -/
def KeepsReferenced (lib : ProviderCrates) (codec : ProfileCodec) (sha256 : List UInt8 → Sha256Hex)
    (generated : String → Prop) (p : CommandRoutine α) (m : Stores) : Prop :=
  Prog.Ends (modelStores lib codec sha256) p m fun m' _ => m'.NoOrphans codec generated

theorem KeepsReferenced.bind {p : CommandRoutine α} (h : KeepsReferenced lib codec sha256 generated p m)
    (hf : ∀ a m', m'.NoOrphans codec generated → KeepsReferenced lib codec sha256 generated (f a) m') :
    KeepsReferenced lib codec sha256 generated (p >>= f) m := by
  refine ends_bind.mpr (Prog.Ends.mono h fun m' outcome hkept => ?_)
  cases outcome with
  | ok a => exact hf a m' hkept
  | error fault => exact hkept

theorem keeps_lift (h : m.NoOrphans codec generated) {x : Outcome ModelCliError α}
    (hf : ∀ a, x = .ok a → KeepsReferenced lib codec sha256 generated (f a) m) :
    KeepsReferenced lib codec sha256 generated (Prog.lift x >>= f) m :=
  ends_lift_bind hf fun _ _ => h

theorem keeps_applied {σ : Type} (h : m.NoOrphans codec generated)
    {method : Mutation σ ModelProfileError α} {self : σ} {f : α × σ → CommandRoutine β}
    (hf : ∀ a self', method self = (.ok a, self') →
      KeepsReferenced lib codec sha256 generated (f (a, self')) m) :
    KeepsReferenced lib codec sha256 generated (applied method self >>= f) m :=
  keeps_lift h fun result hresult => hf result.1 result.2
    (exec_eq_ok.mp (Outcome.mapErr_eq_ok.mp hresult))

theorem applied_bind {σ : Type} {method : Mutation σ ModelProfileError α} {self self' : σ} {a : α}
    {f : α × σ → CommandRoutine β} (h : method self = (.ok a, self')) :
    (applied method self >>= f) = f (a, self') := by
  have hexec : method.exec self = .ok (a, self') := exec_eq_ok.mpr h
  rw [applied, hexec]
  rfl

/-- The call changes nothing. -/
def CommandOp.Idle : CommandOp → Prop
  | .put _ _ | .delete _ | .undoPut _ | .save _ => False
  | _ => True

theorem step_idle {op : CommandOp} {answer : op.Response} (hop : op.Idle)
    (h : m.Step lib codec sha256 op answer m') : m' = m := by
  cases op with
  | put | delete | undoPut | save => exact hop.elim
  | load =>
    cases answer with
    | ok profiles => exact h.1
    | error error => exact h
  | _ => exact h

theorem keeps_ask (h : m.NoOrphans codec generated) {op : CommandOp} (hop : op.Idle)
    {f : op.Value → CommandRoutine β}
    (hf : ∀ value, m.Step lib codec sha256 op (.ok value) m →
      KeepsReferenced lib codec sha256 generated (f value) m) :
    KeepsReferenced lib codec sha256 generated (ask op >>= f) m := by
  rintro answer m' ⟨hstep, -⟩
  obtain rfl := step_idle hop hstep
  cases answer with
  | ok value => exact hf value hstep
  | error error => exact h

theorem keeps_load (h : m.NoOrphans codec generated) {f : ModelProfiles → CommandRoutine β}
    (hf : ∀ profiles, m.loaded lib codec sha256 = .ok profiles →
      KeepsReferenced lib codec sha256 generated (f profiles) m) :
    KeepsReferenced lib codec sha256 generated (ask .load >>= f) m := by
  have hidle : CommandOp.load.Idle := trivial
  exact keeps_ask h hidle fun profiles hstep => hf profiles hstep.2

/-- The file is the same, and no secret is left under the reference. -/
structure Stores.Without (m : Stores) (reference : Option String) (m' : Stores) : Prop where
  file : m'.file = m.file
  secrets : ∀ r, (m'.secrets r).isSome → (m.secrets r).isSome ∧ reference ≠ some r

theorem Stores.NoOrphans.of_file (h : m.NoOrphans codec generated) (hfile : m'.file = m.file)
    (hsecrets : ∀ r, (m'.secrets r).isSome → (m.secrets r).isSome) :
    m'.NoOrphans codec generated := by
  intro r hr hsecret
  unfold Stores.Referenced
  rw [hfile]
  exact h r hr (hsecrets r hsecret)

theorem isSome_delete {reference r : String} (h : ((m.delete reference).secrets r).isSome) :
    (m.secrets r).isSome ∧ r ≠ reference := by
  replace h : (if r = reference then none else m.secrets r).isSome := h
  by_cases hr : r = reference
  · rw [if_pos hr] at h
    cases h
  · rw [if_neg hr] at h
    exact ⟨h, hr⟩

theorem isSome_put {reference secret r : String}
    (h : ((m.put reference secret).secrets r).isSome) : r = reference ∨ (m.secrets r).isSome := by
  replace h : (if r = reference then some secret else m.secrets r).isSome := h
  by_cases hr : r = reference
  · exact Or.inl hr
  · rw [if_neg hr] at h
    exact Or.inr h

theorem keeps_deleteSecret (h : m.NoOrphans codec generated) {reference : Option String}
    {f : Unit → CommandRoutine β}
    (hf : ∀ m', m.Without reference m' → KeepsReferenced lib codec sha256 generated (f ()) m') :
    KeepsReferenced lib codec sha256 generated (deleteSecret reference >>= f) m := by
  cases reference with
  | none => exact hf m ⟨rfl, fun r hr => ⟨hr, by simp⟩⟩
  | some reference =>
    rintro answer m' ⟨hstep, -⟩
    cases answer with
    | error error =>
      obtain rfl : m' = m := hstep
      exact h
    | ok value =>
      obtain rfl : m' = m.delete reference := hstep
      refine hf _ ⟨rfl, fun r hr => ?_⟩
      obtain ⟨hsecret, hne⟩ := isSome_delete hr
      exact ⟨hsecret, fun heq => hne (Option.some.inj heq).symm⟩

/-- Every secret belongs to a profile of the collection. -/
def Covers (generated : String → Prop) (profiles : ModelProfiles) (m : Stores) : Prop :=
  ∀ r, generated r → (m.secrets r).isSome → profiles.References r

theorem Covers.saved {text : List UInt8} (hcodec : codec.RoundTrips)
    (h : Covers generated profiles m) (htext : encodeProfiles codec profiles = .ok text) :
    { m with file := some text }.NoOrphans codec generated :=
  fun r hr hsecret => (Stores.referenced_saved hcodec htext).mpr (h r hr hsecret)

/-- **A save of a collection that covers the secrets.** -/
theorem keeps_save (hcodec : codec.RoundTrips) (h : m.NoOrphans codec generated)
    (hcovers : Covers generated profiles m) :
    KeepsReferenced lib codec sha256 generated (ask (.save profiles)) m := by
  rintro answer m' ⟨hstep, -⟩
  cases answer with
  | ok value =>
    obtain ⟨text, htext, rfl⟩ := hstep
    exact hcovers.saved hcodec htext
  | error error =>
    rcases hstep with rfl | ⟨-, text, htext, rfl⟩
    · exact h
    · exact hcovers.saved hcodec htext

/-- **Once the secret of a profile is deleted, the others are covered by a collection that keeps
their profiles.** -/
theorem covers_without {profiles' : ModelProfiles} {name : String} (h : m.NoOrphans codec generated)
    (hloaded : m.loaded lib codec sha256 = .ok profiles) {r : String} (hr : generated r)
    (hsecret : (m.secrets r).isSome)
    (hold : (profiles.get name).bind ModelProfile.credentialRef ≠ some r)
    (hkept : ∀ other ∈ profiles.profiles, other.name ≠ name → other ∈ profiles'.profiles) :
    profiles'.References r := by
  obtain ⟨other, hother, hreference⟩ := (Stores.referenced_iff hloaded).mp (h r hr hsecret)
  refine ⟨other, hkept other hother fun hname => hold ?_, hreference⟩
  rw [← hname, get_of_mem (Stores.loaded_nodup hloaded) hother]
  exact hreference

end

end Xgeny
