import Xgeny.Cli.AllowFile

set_option autoImplicit false

/-!
# What the digests of the catalogs commit to

A run is created with one catalog, and its manifest keeps the digest. A resume builds a catalog from
what the user gives then, and goes on only if the digests agree.

* `LocalReadCatalog.build`: the catalog of exact files, or the read authorization of the workspace
  where the user allows directories;
* `WorkspaceReadAuthorization.digest_iff`: the digest of the authorization tells its files and
  directories;
* `LocalReadCatalog.eq_of_digest`: equal digests are of one catalog, of one kind;
* **`catalogs_commit_exactly`**: equal digests are equal sets of canonical entries.
-/

namespace Xgeny

/-! ## The catalog of the workspace -/

/-- `CatalogEntry`. -/
def catalogEntry (kind path : String) : Json :=
  .object [("kind", .string kind), ("path", .string path)]

namespace WorkspaceReadAuthorization

variable (self : WorkspaceReadAuthorization)

/-- The entries that the digest is taken of, the files first. -/
def catalogEntries : List Json :=
  self.files.toList.map (catalogEntry "file") ++
    self.directories.toList.map (catalogEntry "directory")

/-- The document that the digest is taken of. -/
def document : Json :=
  catalogDocument "xgeny.cli.workspace-read-authorization/v1" self.catalogEntries

def catalogDigest (E : CanonicalEncoder) : String := sha256Digest (E.hashOf self.document)

end WorkspaceReadAuthorization

/-! ## The catalog of a run -/

inductive PublicRunError where
  | configuration
  | busy
  | integrity
  | internal
  deriving DecidableEq

inductive LocalReadCatalog where
  | exactFiles (catalog : AllowFileCatalog)
  | workspace (authorization : WorkspaceReadAuthorization)

namespace LocalReadCatalog

variable (E : CanonicalEncoder)

def build (resolver : ResourceResolver) (allowFiles allowDirs : List String) :
    Outcome PublicRunError LocalReadCatalog :=
  if allowDirs.isEmpty = true then do
    let catalog ← (AllowFileCatalog.new E resolver allowFiles).mapErr fun _ => .configuration
    pure (.exactFiles catalog)
  else do
    let authorization ← (WorkspaceReadAuthorization.new resolver allowFiles allowDirs).mapErr
      fun _ => .configuration
    pure (.workspace authorization)

def catalogDigest : LocalReadCatalog → String
  | .exactFiles catalog => catalog.catalogDigest
  | .workspace authorization => authorization.catalogDigest E

/-- The documents that are hashed for a catalog. -/
def documents : LocalReadCatalog → List Json
  | .exactFiles catalog => catalog.documents
  | .workspace authorization => [authorization.document]

end LocalReadCatalog

section

variable {E : CanonicalEncoder}

theorem CanonicalEncoder.CollisionFree.mono {documents documents' : List Json}
    (h : E.CollisionFree documents) (hsub : documents' ⊆ documents) : E.CollisionFree documents' :=
  fun a ha b hb => h a (hsub ha) b (hsub hb)

/-! ## The digest of the workspace -/

namespace WorkspaceReadAuthorization

variable {self other : WorkspaceReadAuthorization} {workspaceId : WorkspaceId}
  {files directories files' directories' : List String}

theorem mem_catalogEntries {kind path : String} :
    catalogEntry kind path ∈ self.catalogEntries ↔
      (kind = "file" ∧ path ∈ self.files) ∨ (kind = "directory" ∧ path ∈ self.directories) := by
  simp only [catalogEntries, List.mem_append, List.mem_map, Std.ExtTreeSet.mem_toList, catalogEntry,
    Json.object.injEq, List.cons.injEq, Prod.mk.injEq, true_and, Json.string.injEq, and_true]
  constructor
  · rintro (⟨_, hmem, rfl, rfl⟩ | ⟨_, hmem, rfl, rfl⟩)
    · exact Or.inl ⟨rfl, hmem⟩
    · exact Or.inr ⟨rfl, hmem⟩
  · rintro (⟨rfl, hmem⟩ | ⟨rfl, hmem⟩)
    · exact Or.inl ⟨path, hmem, rfl, rfl⟩
    · exact Or.inr ⟨path, hmem, rfl, rfl⟩

theorem document_eq_iff : self.document = other.document ↔
    self.files = other.files ∧ self.directories = other.directories := by
  constructor
  · intro h
    simp only [document, catalogDocument, Json.object.injEq, List.cons.injEq, Prod.mk.injEq,
      true_and, Json.array.injEq, and_true] at h
    have hmem : ∀ kind path, catalogEntry kind path ∈ self.catalogEntries ↔
        catalogEntry kind path ∈ other.catalogEntries := by
      intro kind path
      rw [h]
    refine ⟨Std.ExtTreeSet.ext_mem fun path => ?_, Std.ExtTreeSet.ext_mem fun path => ?_⟩
    · have hfile := hmem "file" path
      rw [mem_catalogEntries, mem_catalogEntries] at hfile
      simpa using hfile
    · have hdirectory := hmem "directory" path
      rw [mem_catalogEntries, mem_catalogEntries] at hdirectory
      simpa using hdirectory
  · rintro ⟨hfiles, hdirectories⟩
    rw [document, document, catalogEntries, catalogEntries, hfiles, hdirectories]

theorem eq_of_sets {resolver : ResourceResolver} (h : new resolver files directories = .ok self)
    (h' : new resolver files' directories' = .ok other) (hfiles : self.files = other.files)
    (hdirectories : self.directories = other.directories) : self = other := by
  have hhint : ∀ {files directories : List String} {catalog : WorkspaceReadAuthorization},
      new resolver files directories = .ok catalog →
        catalog = ⟨catalog.files, catalog.directories,
          Xgeny.plannerScopeHint catalog.files catalog.directories⟩ := by
    intro _ _ _ h
    simp only [new, Outcome.bind_eq_ok, Outcome.exists_unit, Outcome.pure_eq_ok] at h
    obtain ⟨_, -, _, -, -, -, -, -, rfl⟩ := h
    rfl
  rw [hhint h, hhint h', hfiles, hdirectories]

/-- **The digest tells the sets**, where the two documents do not collide. -/
theorem digest_iff (hE : E.CollisionFree [self.document, other.document]) :
    self.catalogDigest E = other.catalogDigest E ↔
      self.files = other.files ∧ self.directories = other.directories := by
  rw [← document_eq_iff]
  constructor
  · intro hdigest
    exact hE _ List.mem_cons_self _ (List.mem_cons_of_mem _ List.mem_cons_self)
      (CanonicalEncoder.sha256Digest_injective hdigest)
  · intro hdocument
    rw [catalogDigest, catalogDigest, hdocument]

theorem sets_iff_denotes (h : new (workspaceResolver workspaceId) files directories = .ok self)
    (h' : new (workspaceResolver workspaceId) files' directories' = .ok other) :
    self.files = other.files ∧ self.directories = other.directories ↔
      (∀ resource, Denotes (workspaceResolver workspaceId) files resource ↔
        Denotes (workspaceResolver workspaceId) files' resource) ∧
      ∀ resource, Denotes (workspaceResolver workspaceId) directories resource ↔
        Denotes (workspaceResolver workspaceId) directories' resource := by
  have hmem : ∀ {files directories : List String} {catalog : WorkspaceReadAuthorization},
      new (workspaceResolver workspaceId) files directories = .ok catalog → ∀ resource,
        (resource ∈ catalog.files ↔ Denotes (workspaceResolver workspaceId) files resource) ∧
        (resource ∈ catalog.directories ↔
          Denotes (workspaceResolver workspaceId) directories resource) := by
    intro _ _ _ h resource
    exact ⟨canonicalSet_mem (new_eq_ok h).1, canonicalSet_mem (new_eq_ok h).2⟩
  constructor
  · rintro ⟨hfiles, hdirectories⟩
    refine ⟨fun resource => ?_, fun resource => ?_⟩
    · rw [← (hmem h resource).1, ← (hmem h' resource).1, hfiles]
    · rw [← (hmem h resource).2, ← (hmem h' resource).2, hdirectories]
  · rintro ⟨hfiles, hdirectories⟩
    refine ⟨Std.ExtTreeSet.ext_mem fun resource => ?_, Std.ExtTreeSet.ext_mem fun resource => ?_⟩
    · rw [(hmem h resource).1, (hmem h' resource).1, hfiles]
    · rw [(hmem h resource).2, (hmem h' resource).2, hdirectories]

end WorkspaceReadAuthorization

/-! ## The digest of a run -/

namespace LocalReadCatalog

variable {resolver : ResourceResolver} {files directories files' directories' : List String}
  {self other : LocalReadCatalog}

theorem build_eq_ok (h : build E resolver files directories = .ok self) :
    (directories = [] ∧ ∃ catalog, AllowFileCatalog.new E resolver files = .ok catalog ∧
      self = .exactFiles catalog) ∨
    (directories ≠ [] ∧ ∃ authorization,
      WorkspaceReadAuthorization.new resolver files directories = .ok authorization ∧
        self = .workspace authorization) := by
  rw [build] at h
  split at h
  · rename_i hempty
    simp only [Outcome.bind_eq_ok, Outcome.mapErr_eq_ok, Outcome.pure_eq_ok] at h
    obtain ⟨catalog, hcatalog, rfl⟩ := h
    exact Or.inl ⟨List.isEmpty_iff.mp hempty, catalog, hcatalog, rfl⟩
  · rename_i hempty
    simp only [Outcome.bind_eq_ok, Outcome.mapErr_eq_ok, Outcome.pure_eq_ok] at h
    obtain ⟨authorization, hauthorization, rfl⟩ := h
    exact Or.inr ⟨fun hnil => hempty (List.isEmpty_iff.mpr hnil), authorization, hauthorization,
      rfl⟩

theorem allowFileDocument_ne (entries : List AllowFileEntry)
    (authorization : WorkspaceReadAuthorization) :
    allowFileDocument entries ≠ authorization.document := by
  intro h
  simp only [allowFileDocument, WorkspaceReadAuthorization.document, catalogDocument,
    Json.object.injEq, List.cons.injEq, Prod.mk.injEq, true_and, Json.string.injEq] at h
  exact absurd h.1 (by decide)

/-- **Without collisions one digest is of one catalog.** -/
theorem eq_of_digest (h : build E resolver files directories = .ok self)
    (h' : build E resolver files' directories' = .ok other)
    (hE : E.CollisionFree (self.documents ++ other.documents))
    (hdigest : self.catalogDigest E = other.catalogDigest E) : self = other := by
  rcases build_eq_ok h with ⟨-, catalog, hcatalog, rfl⟩ | ⟨-, authorization, hauth, rfl⟩ <;>
    rcases build_eq_ok h' with ⟨-, catalog', hcatalog', rfl⟩ | ⟨-, authorization', hauth', rfl⟩
  · obtain ⟨sorted, hbuilt⟩ := AllowFileCatalog.new_eq_ok hcatalog
    obtain ⟨sorted', hbuilt'⟩ := AllowFileCatalog.new_eq_ok hcatalog'
    rw [hbuilt.eq_of_digest hbuilt' hE hdigest]
  · obtain ⟨sorted, hbuilt⟩ := AllowFileCatalog.new_eq_ok hcatalog
    have hhash := CanonicalEncoder.sha256Digest_injective (hbuilt.digest.symm.trans hdigest)
    exact absurd (hE _ (List.mem_append_left _ List.mem_cons_self) _
      (List.mem_append_right _ List.mem_cons_self) hhash) (allowFileDocument_ne _ _)
  · obtain ⟨sorted', hbuilt'⟩ := AllowFileCatalog.new_eq_ok hcatalog'
    have hhash := CanonicalEncoder.sha256Digest_injective (hbuilt'.digest.symm.trans hdigest.symm)
    exact absurd (hE _ (List.mem_append_right _ List.mem_cons_self) _
      (List.mem_append_left _ List.mem_cons_self) hhash) (allowFileDocument_ne _ _)
  · obtain ⟨hfiles, hdirectories⟩ := (WorkspaceReadAuthorization.digest_iff hE).mp hdigest
    rw [WorkspaceReadAuthorization.eq_of_sets hauth hauth' hfiles hdirectories]

end LocalReadCatalog

end

/-- **Catalogs are committed exactly**, where the hash tells the documents of the two catalogs
apart: over a workspace, equal digests are equal sets of canonical entries, and then the numbers, revisions
and arguments agree; a reference gives its arguments back in its catalog, and is rejected where its
number stands for others; and a resume with the digest of the run has the catalog of the run. -/
theorem catalogs_commit_exactly (E : CanonicalEncoder) (workspaceId : WorkspaceId) :
    (∀ paths paths' catalog catalog',
      AllowFileCatalog.new E (workspaceResolver workspaceId) paths = .ok catalog →
      AllowFileCatalog.new E (workspaceResolver workspaceId) paths' = .ok catalog' →
      E.CollisionFree (catalog.documents ++ catalog'.documents) →
        (catalog.catalogDigest = catalog'.catalogDigest ↔
          ∀ resource, Denotes (workspaceResolver workspaceId) paths resource ↔
            Denotes (workspaceResolver workspaceId) paths' resource) ∧
        (catalog.catalogDigest = catalog'.catalogDigest → catalog.entries = catalog'.entries)) ∧
    (∀ paths catalog, AllowFileCatalog.new E (workspaceResolver workspaceId) paths = .ok catalog →
      (∀ a, a ∈ catalog.entries.map AllowFileEntry.arguments ↔
        ∃ resource, Denotes (workspaceResolver workspaceId) paths resource ∧
          a = pathArguments resource) ∧
      ∀ a ∈ catalog.entries.map AllowFileEntry.arguments,
        ∃ reference, catalog.referenceForArguments a = .ok reference ∧
          catalog.reconstruct reference.referenceId reference.revision = .ok a) ∧
    (∀ workspaceId' paths paths' catalog catalog',
      AllowFileCatalog.new E (workspaceResolver workspaceId) paths = .ok catalog →
      AllowFileCatalog.new E (workspaceResolver workspaceId') paths' = .ok catalog' →
      E.CollisionFree (catalog.documents ++ catalog'.documents) →
        ∀ (i : ℕ) entry entry' reference, catalog.entries[i]? = some entry →
          catalog'.entries[i]? = some entry' → entry'.arguments ≠ entry.arguments →
          catalog.referenceForArguments entry.arguments = .ok reference →
            catalog'.reconstruct reference.referenceId reference.revision =
              Outcome.fail .revisionChanged) ∧
    (∀ files directories files' directories' authorization authorization',
      WorkspaceReadAuthorization.new (workspaceResolver workspaceId) files directories =
        .ok authorization →
      WorkspaceReadAuthorization.new (workspaceResolver workspaceId) files' directories' =
        .ok authorization' →
      E.CollisionFree [authorization.document, authorization'.document] →
        (authorization.catalogDigest E = authorization'.catalogDigest E ↔
          (∀ resource, Denotes (workspaceResolver workspaceId) files resource ↔
            Denotes (workspaceResolver workspaceId) files' resource) ∧
          ∀ resource, Denotes (workspaceResolver workspaceId) directories resource ↔
            Denotes (workspaceResolver workspaceId) directories' resource)) ∧
    ∀ files directories files' directories' catalog catalog',
      LocalReadCatalog.build E (workspaceResolver workspaceId) files directories = .ok catalog →
      LocalReadCatalog.build E (workspaceResolver workspaceId) files' directories' =
        .ok catalog' →
      E.CollisionFree (catalog.documents ++ catalog'.documents) →
        catalog.catalogDigest E = catalog'.catalogDigest E → catalog = catalog' := by
  refine ⟨?_, ?_, ?_, ?_, ?_⟩
  · intro paths paths' catalog catalog' h h' hE
    obtain ⟨sorted, hbuilt⟩ := AllowFileCatalog.new_eq_ok h
    obtain ⟨sorted', hbuilt'⟩ := AllowFileCatalog.new_eq_ok h'
    refine ⟨hbuilt.digest_iff hbuilt' hE, fun hdigest => ?_⟩
    rw [hbuilt.eq_of_digest hbuilt' hE hdigest]
  · intro paths catalog h
    obtain ⟨sorted, hbuilt⟩ := AllowFileCatalog.new_eq_ok h
    rw [hbuilt.sorted_eq]
    refine ⟨hbuilt.mem, fun a ha => ?_⟩
    obtain ⟨reference, hreference⟩ := hbuilt.referenceForArguments_ok ha
    exact ⟨reference, hreference, hbuilt.reconstruct_reference hreference⟩
  · intro workspaceId' paths paths' catalog catalog' h h' hE i entry entry' reference hat hat' hne
      hreference
    obtain ⟨sorted, hbuilt⟩ := AllowFileCatalog.new_eq_ok h
    obtain ⟨sorted', hbuilt'⟩ := AllowFileCatalog.new_eq_ok h'
    exact hbuilt.rejected_at hbuilt' hE hat hat' hne hreference
  · intro files directories files' directories' authorization authorization' h h' hE
    exact (WorkspaceReadAuthorization.digest_iff hE).trans
      (WorkspaceReadAuthorization.sets_iff_denotes h h')
  · intro files directories files' directories' catalog catalog' h h' hE hdigest
    exact LocalReadCatalog.eq_of_digest h h' hE hdigest

/-- A hash that tells the two kinds of documents of one file apart, by their lengths. -/
def sampleEncoder : CanonicalEncoder where
  spellDouble := fun _ => ""
  spellStoredDouble := fun _ => ""
  document := fun _ => .error ""
  sha256 := fun text => if byteLen text < 150 then zeroHash else sampleProposalHash

/-- The hashes of the documents of a catalog of `notes` and `todo`, and of one of `archive`, with the
lengths of the documents, which tell them apart. -/
def catalogHashes : List (ℕ × Sha256Hex) :=
  [(310, sampleHash "f5ae732265997c0203ad75b8850bf618e10a7c17896e65cb1cad9529cb438ed1"),
    (116, sampleHash "d6d8e54a67e3074beeabf46b1833fa8975a73924cf3e0b4e2172abbed328db7d"),
    (115, sampleHash "aaec4e6e883206a460be39c5c0b4688ee29f08c8f651f4b7cd478283b0aa6d12"),
    (192, sampleHash "4f46e9d1c613d01a9b00f843c4e55a097f0745b47ed0dd5b3d46138b4ffa8356"),
    (118, sampleHash "5142aa7adcfbe8d9b26337b5386ccd016be1c1cc294e1f9e02326ec237697d5f")]

/-- An encoder with the real hashes of these documents. -/
def catalogEncoder : CanonicalEncoder :=
  { sampleEncoder with
    sha256 := fun text => (catalogHashes.lookup (byteLen text)).getD zeroHash }

/-- The catalog of some files of the sample workspace. -/
def sampleCatalog (paths : List String) : Outcome AllowFileCatalogError AllowFileCatalog :=
  AllowFileCatalog.new catalogEncoder (workspaceResolver sampleWorkspace) paths

theorem catalogEncoder_collisionFree {documents : List Json}
    (h : documents.map (fun document => byteLen (document.canonical catalogEncoder)) =
      catalogHashes.map Prod.fst) : catalogEncoder.CollisionFree documents := by
  have hhashes : documents.map catalogEncoder.hashOf = catalogHashes.map Prod.snd := by
    have hlookup : documents.map catalogEncoder.hashOf =
        (documents.map fun document => byteLen (document.canonical catalogEncoder)).map
          fun length => (catalogHashes.lookup length).getD zeroHash := by
      rw [List.map_map]
      rfl
    rw [hlookup, h]
    rfl
  have hnodup : (documents.map catalogEncoder.hashOf).Nodup := by
    rw [hhashes]
    decide
  exact fun _ ha _ hb => List.inj_on_of_nodup_map hnodup ha hb

theorem exists_sampleCatalog (paths : List String) (files : List Json)
    (h : (sampleCatalog paths).value?.any (fun catalog =>
      decide (catalog.entries.map AllowFileEntry.arguments = files)) = true) :
    ∃ catalog, sampleCatalog paths = .ok catalog ∧
      catalog.entries = entriesOf catalogEncoder 1 files := by
  obtain ⟨catalog, hcatalog, hfiles⟩ := Outcome.exists_ok_of_any h
  obtain ⟨sorted, hbuilt⟩ := AllowFileCatalog.new_eq_ok hcatalog
  refine ⟨catalog, hcatalog, ?_⟩
  rw [← of_decide_eq_true hfiles, hbuilt.entries, entriesOf_arguments]

/-- Two files in two orders are one catalog, which gives the arguments of a reference back; and the
catalog that has another file in its place rejects the reference. -/
theorem catalogs_commit_exactly_sample : ∃ catalog same other reference,
    sampleCatalog ["todo", "notes"] = .ok catalog ∧
    sampleCatalog ["workspace:a/notes", "todo"] = .ok same ∧
    sampleCatalog ["archive"] = .ok other ∧
    catalog.catalogDigest = same.catalogDigest ∧ catalog.entries = same.entries ∧
    catalog.referenceForArguments (pathArguments "workspace:a/notes") = .ok reference ∧
    catalog.reconstruct reference.referenceId reference.revision =
      .ok (pathArguments "workspace:a/notes") ∧
    other.reconstruct reference.referenceId reference.revision = Outcome.fail .revisionChanged := by
  obtain ⟨catalog, hcatalog, hentries⟩ := exists_sampleCatalog ["todo", "notes"]
    [pathArguments "workspace:a/notes", pathArguments "workspace:a/todo"] (by decide +kernel)
  obtain ⟨same, hsame, harranged⟩ := exists_sampleCatalog ["workspace:a/notes", "todo"]
    [pathArguments "workspace:a/notes", pathArguments "workspace:a/todo"] (by decide +kernel)
  obtain ⟨other, hother, hentries'⟩ := exists_sampleCatalog ["archive"]
    [pathArguments "workspace:a/archive"] (by decide +kernel)
  have hE' : catalogEncoder.CollisionFree (catalog.documents ++ other.documents) := by
    refine catalogEncoder_collisionFree ?_
    rw [AllowFileCatalog.documents, AllowFileCatalog.documents, hentries, hentries']
    decide +kernel
  have hE : catalogEncoder.CollisionFree (catalog.documents ++ same.documents) := by
    refine hE'.mono fun document hdocument => List.mem_append_left _ ?_
    rw [AllowFileCatalog.documents, AllowFileCatalog.documents, harranged, ← hentries,
      List.mem_append, or_self] at hdocument
    exact hdocument
  have hresolved : ∀ path ∈ [("todo", "workspace:a/todo"), ("notes", "workspace:a/notes"),
      ("workspace:a/notes", "workspace:a/notes")],
      workspaceResolver sampleWorkspace "filesystem.read" path.1 = .ok path.2 := by
    decide +kernel
  simp only [List.forall_mem_cons, List.not_mem_nil, false_implies, implies_true, and_true]
    at hresolved
  obtain ⟨htodo, hnotes, hspelled⟩ := hresolved
  obtain ⟨hcommitted, hgiven, hrejected, -⟩ := catalogs_commit_exactly catalogEncoder sampleWorkspace
  have hdigest : catalog.catalogDigest = same.catalogDigest := by
    refine (hcommitted _ _ catalog same hcatalog hsame hE).1.mpr fun resource => ?_
    simp only [Denotes, List.mem_cons, List.not_mem_nil, or_false, exists_eq_or_imp,
      exists_eq_left, htodo, hnotes, hspelled]
    exact or_comm
  obtain ⟨reference, hreference, hback⟩ := (hgiven _ catalog hcatalog).2
    (pathArguments "workspace:a/notes")
    (by rw [hentries, entriesOf_arguments]; exact List.mem_cons_self)
  refine ⟨catalog, same, other, reference, hcatalog, hsame, hother, hdigest,
    (hcommitted _ _ catalog same hcatalog hsame hE).2 hdigest, hreference, hback, ?_⟩
  refine hrejected sampleWorkspace _ _ catalog other hcatalog hother hE' 0 _ _ reference
    (by rw [hentries]; rfl) (by rw [hentries']; rfl) ?_ hreference
  decide

end Xgeny
