import Xgeny.Workspace.Catalog
import Xgeny.Workspace.Grammar

set_option autoImplicit false

/-!
# Containment of resources

A catalog compares the texts of two resources. On canonical resources this is a comparison of their
lists of components.

* `containsResource_resourceOf`: the test on texts is the prefix order on components;
* `canonicalSet_mem`: the entries of a catalog are the canonical texts of what the user wrote;
* **`authorizes_by_components`**: which resources a catalog authorizes.
-/

namespace Xgeny

/-! ## Prefixes -/

theorem containsResource_iff {directory resource : String} :
    containsResource directory resource = true ↔
      resource = directory ∨ ∃ rest, resource = directory ++ "/" ++ rest := by
  have hslash : "/".toList = ['/'] := rfl
  rw [containsResource, Bool.or_eq_true, beq_iff_eq, Option.any_eq_true]
  apply or_congr_right
  constructor
  · rintro ⟨suffix, hstrip, hhead⟩
    obtain ⟨cs, hcs⟩ := List.head?_eq_some_iff.mp (beq_iff_eq.mp hhead)
    refine ⟨String.ofList cs, ?_⟩
    rw [stripText_eq_some.mp hstrip, String.append_assoc]
    congr 1
    apply String.toList_inj.mp
    rw [hcs, String.toList_append, hslash, String.toList_ofList, List.singleton_append]
  · rintro ⟨rest, rfl⟩
    refine ⟨"/" ++ rest, stripText_eq_some.mpr (String.append_assoc ..), ?_⟩
    rw [String.toList_append, hslash, List.singleton_append, List.head?_cons]
    rfl

theorem joined_append {components rest : List String} (hne : components ≠ []) (hrest : rest ≠ []) :
    joined (components ++ rest) = joined components ++ "/" ++ joined rest :=
  String.intercalate_append_of_ne_nil hne hrest

section

variable {workspaceId : WorkspaceId} {components rest : List String}

theorem resourceOf_append (hrest : rest ≠ []) : resourceOf workspaceId (components ++ rest) =
    resourceOf workspaceId components ++ "/" ++ joined rest := by
  by_cases hnil : components = []
  · rw [hnil, List.nil_append, resourceOf, if_neg hrest, resourceOf, if_pos rfl]
  · rw [resourceOf, if_neg (by simp [hnil]), resourceOf, if_neg hnil, joined_append hnil hrest]
    simp only [String.append_assoc]

/-- **Containment of canonical resources** is the prefix order on their components. -/
theorem containsResource_resourceOf {directory resource : List String} (hd : IsPath directory)
    (hr : IsPath resource) : containsResource (resourceOf workspaceId directory)
      (resourceOf workspaceId resource) = true ↔ directory <+: resource := by
  rw [containsResource_iff]
  constructor
  · rintro (heq | ⟨rest, heq⟩)
    · rw [(resourceOf_injective hr hd heq).2]
    · by_cases hnil : directory = []
      · rw [hnil]
        exact List.nil_prefix
      · have hparts : splitText '/' rest ≠ [] := by simp [splitText]
        -- the parts of the rest are the components that follow
        have hlonger : resourceOf workspaceId resource =
            resourceOf workspaceId (directory ++ splitText '/' rest) := by
          rw [resourceOf_append hparts, joined_splitText, heq]
        have hne : resource ≠ [] := by
          intro hempty
          rw [hempty, resourceOf, if_pos rfl, resourceOf, if_neg (by simp [hnil])] at hlonger
          exact root_ne_append hlonger.symm
        rw [resourceOf, if_neg hne, resourceOf, if_neg (by simp [hnil])] at hlonger
        have hjoined := (String.append_right_inj _).mp hlonger
        have hslash : ∀ c ∈ directory ++ splitText '/' rest, '/' ∉ c.toList := by
          intro c hc
          rcases List.mem_append.mp hc with hc | hc
          · exact hd.slash c hc
          · exact not_mem_of_mem_splitText hc
        rw [← splitText_joined hne hr.slash, hjoined, splitText_joined (by simp [hnil]) hslash]
        exact List.prefix_append _ _
  · rintro ⟨rest, rfl⟩
    by_cases hrest : rest = []
    · rw [hrest, List.append_nil]
      exact Or.inl rfl
    · exact Or.inr ⟨_, resourceOf_append hrest⟩

end

/-! ## Entries -/

section

variable {resolver : ResourceResolver} {allowRoot : Bool} {set result : BTreeSet String}
  {values : List String} {resource : String}

theorem insertCanonical_eq_ok {value : String}
    (h : insertCanonical resolver allowRoot set value = .ok result) :
    ∃ canonical, resolver "filesystem.read" value = .ok canonical ∧ result = set.insert canonical := by
  simp only [insertCanonical, Outcome.bind_eq_ok, Outcome.exists_unit] at h
  obtain ⟨-, h⟩ := h
  split at h
  · exact absurd h (by simp [Outcome.fail])
  · rename_i canonical hresolved
    simp only [Outcome.bind_eq_ok, Outcome.exists_unit, Outcome.pure_eq_ok] at h
    exact ⟨canonical, hresolved, h.2.2.symm⟩

theorem insertCanonicals_mem (h : Outcome.foldl (insertCanonical resolver allowRoot) set values =
    .ok result) : resource ∈ result ↔
      resource ∈ set ∨ ∃ value ∈ values, resolver "filesystem.read" value = .ok resource := by
  induction values generalizing set with
  | nil =>
    rw [Outcome.foldl, Except.ok.injEq] at h
    simp [h]
  | cons value rest ih =>
    rw [Outcome.foldl, Outcome.bind_eq_ok] at h
    obtain ⟨next, hnext, hrest⟩ := h
    obtain ⟨canonical, hresolved, rfl⟩ := insertCanonical_eq_ok hnext
    rw [ih hrest, BTreeSet.mem_insert_iff]
    simp only [List.mem_cons, exists_eq_or_imp, hresolved, Except.ok.injEq]
    tauto

theorem canonicalSet_mem (h : canonicalSet resolver values allowRoot = .ok result) :
    resource ∈ result ↔ ∃ value ∈ values, resolver "filesystem.read" value = .ok resource := by
  rw [insertCanonicals_mem h]
  simp

end

theorem workspaceResolver_read {workspaceId : WorkspaceId} {text resource : String} :
    workspaceResolver workspaceId "filesystem.read" text = .ok resource ↔
      canonicalResource workspaceId text = .ok resource := by
  rw [workspaceResolver, if_pos (Or.inl rfl)]
  split
  · rename_i canonical heq
    rw [heq, Except.ok.injEq, Except.ok.injEq]
  · rename_i heq
    simp [heq]
  · rename_i heq
    simp [heq]

/-! ## Catalogs -/

/-- The operations that an authorized file is enough for. -/
def FilesystemOperation.namesFiles : FilesystemOperation → Bool
  | .readText | .query .stat => true
  | .query .listDirectory | .query .searchText | .writeAtomic | .applyPatch => false

namespace WorkspaceReadAuthorization

/-- Some authorized directory is a prefix of the path. -/
def Covers (self : WorkspaceReadAuthorization) (workspaceId : WorkspaceId) (path : RelativePath) :
    Prop :=
  ∃ directory ∈ self.directories, ∃ root, parseCanonical workspaceId directory = .ok root ∧
    root.components <+: path.components

section

variable {workspaceId : WorkspaceId} {files directories : List String} {resource : String}
  {self other : WorkspaceReadAuthorization} {path : RelativePath}

theorem authorizesDirectory_iff : self.authorizesDirectoryOrDescendant resource = true ↔
    ∃ directory ∈ self.directories, containsResource directory resource = true := by
  simp only [authorizesDirectoryOrDescendant, List.any_eq_true, Std.ExtTreeSet.mem_toList]

theorem authorizesFile_iff : self.authorizesFileOrDescendant resource = true ↔
    resource ∈ self.files ∨ self.authorizesDirectoryOrDescendant resource = true := by
  rw [authorizesFileOrDescendant, Bool.or_eq_true, Std.ExtTreeSet.contains_iff_mem]

theorem authorizesResource_iff {operation : FilesystemOperation} :
    self.authorizesResource operation.capability resource = true ↔
      self.authorizesDirectoryOrDescendant resource = true ∨
        operation.namesFiles = true ∧ resource ∈ self.files := by
  rcases operation with _ | (_ | _ | _) | _ | _
  case readText => exact authorizesFile_iff.trans (by simp [FilesystemOperation.namesFiles, or_comm])
  case query.stat =>
    exact authorizesFile_iff.trans (by simp [FilesystemOperation.namesFiles, or_comm])
  all_goals
    change self.authorizesDirectoryOrDescendant resource = true ↔ _
    simp [FilesystemOperation.namesFiles]

theorem new_eq_ok {resolver : ResourceResolver} (h : new resolver files directories = .ok self) :
    canonicalSet resolver files false = .ok self.files ∧
      canonicalSet resolver directories true = .ok self.directories := by
  simp only [new, Outcome.bind_eq_ok, Outcome.exists_unit, Outcome.pure_eq_ok] at h
  obtain ⟨fileSet, hfiles, directorySet, hdirectories, -, -, -, -, rfl⟩ := h
  exact ⟨hfiles, hdirectories⟩

theorem new_directory_iff (h : new (workspaceResolver workspaceId) files directories = .ok self) :
    resource ∈ self.directories ↔
      ∃ text ∈ directories, canonicalResource workspaceId text = .ok resource := by
  simp only [canonicalSet_mem (new_eq_ok h).2, workspaceResolver_read]

theorem new_file_iff (h : new (workspaceResolver workspaceId) files directories = .ok self) :
    resource ∈ self.files ↔ ∃ text ∈ files, canonicalResource workspaceId text = .ok resource := by
  simp only [canonicalSet_mem (new_eq_ok h).1, workspaceResolver_read]

theorem authorizesDirectory_iff_covers
    (h : new (workspaceResolver workspaceId) files directories = .ok self)
    (hpath : parseCanonical workspaceId resource = .ok path) :
    self.authorizesDirectoryOrDescendant resource = true ↔ self.Covers workspaceId path := by
  obtain ⟨hresource, heq⟩ := parseCanonical_iff.mp hpath
  rw [authorizesDirectory_iff]
  apply exists_congr
  intro directory
  apply and_congr_right
  intro hmem
  obtain ⟨text, -, hcanonical⟩ := (new_directory_iff h).mp hmem
  obtain ⟨components, hcomponents, rfl, -⟩ := canonicalResource_iff.mp hcanonical
  rw [heq, containsResource_resourceOf hcomponents hresource]
  constructor
  · exact fun hprefix => ⟨⟨components⟩, parseCanonical_iff.mpr ⟨hcomponents, rfl⟩, hprefix⟩
  · rintro ⟨root, hroot, hprefix⟩
    obtain ⟨hcomponents', heq'⟩ := parseCanonical_iff.mp hroot
    rwa [(resourceOf_injective hcomponents hcomponents' heq').2]

theorem authorizesResource_mono {capability : CapabilityRef}
    (hfiles : ∀ file ∈ self.files, file ∈ other.files)
    (hdirectories : ∀ directory ∈ self.directories, directory ∈ other.directories)
    (h : self.authorizesResource capability resource = true) :
    other.authorizesResource capability resource = true := by
  have hdirectory : self.authorizesDirectoryOrDescendant resource = true →
      other.authorizesDirectoryOrDescendant resource = true := by
    rw [authorizesDirectory_iff, authorizesDirectory_iff]
    rintro ⟨directory, hmem, hcontains⟩
    exact ⟨directory, hdirectories directory hmem, hcontains⟩
  have hfile : self.authorizesFileOrDescendant resource = true →
      other.authorizesFileOrDescendant resource = true := by
    rw [authorizesFile_iff, authorizesFile_iff]
    exact Or.imp (hfiles resource) hdirectory
  unfold authorizesResource at h ⊢
  split at h
  · exact hfile h
  · exact hfile h
  · exact hdirectory h
  · exact hdirectory h
  · exact hdirectory h
  · exact hdirectory h
  · exact absurd h (by simp)

end

end WorkspaceReadAuthorization

/-- **A catalog authorizes by components**: the operations on directories on what has an authorized
directory as a prefix, reading and metadata also on the authorized files; beside the authorized
directories nothing is authorized; and further entries take nothing away. -/
theorem authorizes_by_components {workspaceId : WorkspaceId} {files directories : List String}
    {catalog : WorkspaceReadAuthorization} (h : WorkspaceReadAuthorization.new
      (workspaceResolver workspaceId) files directories = .ok catalog) :
    (∀ resource, resource ∈ catalog.directories ↔
      ∃ text ∈ directories, canonicalResource workspaceId text = .ok resource) ∧
    (∀ resource, resource ∈ catalog.files ↔
      ∃ text ∈ files, canonicalResource workspaceId text = .ok resource) ∧
    (∀ resource path, parseCanonical workspaceId resource = .ok path →
      ∀ operation : FilesystemOperation,
        catalog.authorizesResource operation.capability resource = true ↔
          catalog.Covers workspaceId path ∨
            operation.namesFiles = true ∧ resource ∈ catalog.files) ∧
    (∀ resource path, parseCanonical workspaceId resource = .ok path →
      (∀ directory ∈ catalog.directories, ∃ parent name sibling rest,
        parseCanonical workspaceId directory = .ok ⟨parent ++ [name]⟩ ∧
          path.components = parent ++ sibling :: rest ∧ name ≠ sibling) →
        resource ∉ catalog.files → ∀ operation : FilesystemOperation,
          catalog.authorizesResource operation.capability resource = false) ∧
    ∀ files' directories' catalog', WorkspaceReadAuthorization.new (workspaceResolver workspaceId)
        files' directories' = .ok catalog' → files ⊆ files' → directories ⊆ directories' →
      ∀ capability resource, catalog.authorizesResource capability resource = true →
        catalog'.authorizesResource capability resource = true := by
  have hdecides : ∀ resource path, parseCanonical workspaceId resource = .ok path →
      ∀ operation : FilesystemOperation,
        (catalog.authorizesResource operation.capability resource = true ↔
          catalog.Covers workspaceId path ∨
            operation.namesFiles = true ∧ resource ∈ catalog.files) := by
    intro resource path hpath operation
    rw [WorkspaceReadAuthorization.authorizesResource_iff,
      WorkspaceReadAuthorization.authorizesDirectory_iff_covers h hpath]
  refine ⟨fun resource => WorkspaceReadAuthorization.new_directory_iff h,
    fun resource => WorkspaceReadAuthorization.new_file_iff h, hdecides, ?_, ?_⟩
  · intro resource path hpath hbeside hfile operation
    rw [← Bool.not_eq_true, hdecides resource path hpath operation]
    rintro (⟨directory, hmem, root, hroot, hprefix⟩ | ⟨-, hin⟩)
    · obtain ⟨parent, name, sibling, rest, hparsed, hcomponents, hne⟩ := hbeside directory hmem
      obtain rfl : root = ⟨parent ++ [name]⟩ := Except.ok.inj (hroot.symm.trans hparsed)
      rw [hcomponents, List.prefix_append_right_inj, List.cons_prefix_cons] at hprefix
      exact hne hprefix.1
    · exact hfile hin
  · intro files' directories' catalog' h' hfiles hdirectories capability resource
    apply WorkspaceReadAuthorization.authorizesResource_mono
    · intro file hmem
      obtain ⟨text, htext, hcanonical⟩ := (WorkspaceReadAuthorization.new_file_iff h).mp hmem
      exact (WorkspaceReadAuthorization.new_file_iff h').mpr ⟨text, hfiles htext, hcanonical⟩
    · intro directory hmem
      obtain ⟨text, htext, hcanonical⟩ := (WorkspaceReadAuthorization.new_directory_iff h).mp hmem
      exact (WorkspaceReadAuthorization.new_directory_iff h').mpr
        ⟨text, hdirectories htext, hcanonical⟩

/-- A directory is allowed with what is in it, its sibling with the same first letters is not, and a
file is allowed for reading. -/
theorem authorizes_by_components_sample : ∃ catalog,
    WorkspaceReadAuthorization.new (workspaceResolver sampleWorkspace) ["notes.md"] ["src/core"] =
        .ok catalog ∧
      catalog.authorizesResource FilesystemOperation.writeAtomic.capability
        "workspace:a/src/core/deep/main" = true ∧
      catalog.authorizesResource FilesystemOperation.writeAtomic.capability
        "workspace:a/src/core-old/main" = false ∧
      catalog.authorizesResource FilesystemOperation.readText.capability "workspace:a/notes.md" =
        true ∧
      catalog.authorizesResource FilesystemOperation.writeAtomic.capability "workspace:a/notes.md" =
        false := by
  obtain ⟨catalog, hcatalog⟩ := Outcome.exists_ok_of_isSome
    (x := WorkspaceReadAuthorization.new (workspaceResolver sampleWorkspace) ["notes.md"] ["src/core"])
    (by decide +kernel)
  have hcore : canonicalResource sampleWorkspace "src/core" = .ok "workspace:a/src/core" := by
    decide +kernel
  have hnotes : canonicalResource sampleWorkspace "notes.md" = .ok "workspace:a/notes.md" := by
    decide +kernel
  have hdirectory : parseCanonical sampleWorkspace "workspace:a/src/core" =
      .ok ⟨["src"] ++ ["core"]⟩ := by decide +kernel
  have hinside : parseCanonical sampleWorkspace "workspace:a/src/core/deep/main" =
      .ok ⟨["src", "core", "deep", "main"]⟩ := by decide +kernel
  have hbeside : parseCanonical sampleWorkspace "workspace:a/src/core-old/main" =
      .ok ⟨["src", "core-old", "main"]⟩ := by decide +kernel
  have hfile : parseCanonical sampleWorkspace "workspace:a/notes.md" = .ok ⟨["notes.md"]⟩ := by
    decide +kernel
  obtain ⟨hdirectories, hfiles, hdecides, hrefuses, -⟩ := authorizes_by_components hcatalog
  have honly : ∀ directory ∈ catalog.directories, directory = "workspace:a/src/core" := by
    intro directory hmem
    obtain ⟨text, htext, hcanonical⟩ := (hdirectories directory).mp hmem
    obtain rfl := List.mem_singleton.mp htext
    exact Except.ok.inj (hcanonical.symm.trans hcore)
  have hmember := (hdirectories _).mpr ⟨"src/core", List.mem_singleton_self _, hcore⟩
  have hread := (hfiles _).mpr ⟨"notes.md", List.mem_singleton_self _, hnotes⟩
  refine ⟨catalog, hcatalog, ?_, ?_, ?_, ?_⟩
  · exact (hdecides _ _ hinside .writeAtomic).mpr
      (Or.inl ⟨_, hmember, _, hdirectory, by decide⟩)
  · refine hrefuses _ _ hbeside (fun directory hmem => ?_) (fun hmem => ?_) .writeAtomic
    · exact ⟨["src"], "core", "core-old", ["main"], honly directory hmem ▸ hdirectory, rfl, by decide⟩
    · obtain ⟨text, htext, hcanonical⟩ := (hfiles _).mp hmem
      obtain rfl := List.mem_singleton.mp htext
      exact absurd (Except.ok.inj (hnotes.symm.trans hcanonical)) (by decide)
  · exact (hdecides _ _ hfile .readText).mpr (Or.inr ⟨rfl, hread⟩)
  · rw [← Bool.not_eq_true, hdecides _ _ hfile .writeAtomic]
    rintro (⟨directory, hmem, root, hroot, hprefix⟩ | ⟨hnames, -⟩)
    · obtain rfl := honly directory hmem
      obtain rfl := Except.ok.inj (hroot.symm.trans hdirectory)
      revert hprefix
      decide
    · cases hnames

end Xgeny
