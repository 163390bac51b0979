import Xgeny.Workspace.Arguments

set_option autoImplicit false

/-!
# The catalog of authorized paths

The user allows files and directories of a workspace. Before a step is planned its normalized
arguments are compared with this catalog, whose grammar of arguments is written a second time, next
to the one of the adapters.

* `WorkspaceReadAuthorization`, `authorizesMaterial`: the catalog and its decision;
* `validPatchShape_iff`: the two grammars agree on texts, limits and digests;
* **`authorized_material_parses_iff`**: which authorized arguments the adapter accepts.
-/

namespace Xgeny

/-! ## The grammar of the catalog -/

/-- The resource is the directory or stands below it. -/
def containsResource (directory resource : String) : Bool :=
  resource == directory ||
    (stripText directory resource).any fun suffix => suffix.toList.head? == some '/'

def validQuery (query : String) : Bool :=
  query != "" && byteLen query ≤ maxSearchQueryBytes &&
    query.length ≤ maxSearchQueryUnicodeScalars && !query.toList.any isControl

def validDigestString (value : Json) : Bool := value.asStr.any isSha256Digest

def validExpectedDigest (value : Json) : Bool := value == .null || validDigestString value

/-- One edit of `valid_patch_shape`: the total of all texts so far, when it is accepted. -/
def validEdit (totalBytes : ℕ) (value : Json) : Option ℕ := do
  let edit ← value.asObject.filter fun edit => edit.length == 2
  let oldText ← ((edit.lookup "oldText").bind Json.asStr).filter fun text => text != ""
  let newText ← (edit.lookup "newText").bind Json.asStr
  if oldText = newText then none
  else
    let totalBytes := totalBytes + byteLen oldText + byteLen newText
    if totalBytes ≤ maxApplyPatchBytes then some totalBytes else none

def validPatchShape (object : List (String × Json)) : Bool :=
  object.length == 3 && (object.lookup "expectedDigest").any validDigestString &&
    (((object.lookup "edits").bind Json.asArray).filter fun edits =>
      edits != [] && edits.length ≤ maxApplyPatchEdits).any fun edits =>
        (edits.foldlM validEdit 0).isSome

/-! ## The catalog -/

/-- The files and directories that the user allows, and how they are told to the planner. -/
structure WorkspaceReadAuthorization where
  files : BTreeSet String
  directories : BTreeSet String
  plannerScopeHint : String

inductive WorkspaceReadAuthorizationError where
  | emptyDirectorySet
  | tooManyEntries
  | invalidEntry
  | duplicateEntry
  | plannerHintTooLarge
  deriving DecidableEq

def maxAllowPathEntries : ℕ := 64
def maxPlannerScopeHintBytes : ℕ := 16 * 1024

/-- One value of `canonical_set`. -/
def insertCanonical (resolver : ResourceResolver) (allowRoot : Bool) (set : BTreeSet String)
    (value : String) : Outcome WorkspaceReadAuthorizationError (BTreeSet String) := do
  Outcome.failIf (set.size = maxAllowPathEntries) .tooManyEntries
  match resolver "filesystem.read" value with
  | .error _ => Outcome.fail .invalidEntry
  | .ok canonical => do
    Outcome.failIf (allowRoot = false ∧ '/' ∉ canonical.toList) .invalidEntry
    Outcome.failIf (canonical ∈ set) .duplicateEntry
    pure (set.insert canonical)

def canonicalSet (resolver : ResourceResolver) (values : List String) (allowRoot : Bool) :
    Outcome WorkspaceReadAuthorizationError (BTreeSet String) :=
  Outcome.foldl (insertCanonical resolver allowRoot) ∅ values

/-- The part of a canonical resource after its root. -/
def workspaceRelativeDisplay (canonical : String) : String :=
  match canonical.toList.dropWhile (· != '/') with
  | [] => "."
  | _ :: relative => String.ofList relative

/-- One character of a JSON string, as `serde_json` writes it. -/
def escapeJsonChar (c : Char) : List Char :=
  match c.toNat with
  | 0x22 => ['\\', '"']
  | 0x5c => ['\\', '\\']
  | 0x08 => ['\\', 'b']
  | 0x09 => ['\\', 't']
  | 0x0a => ['\\', 'n']
  | 0x0c => ['\\', 'f']
  | 0x0d => ['\\', 'r']
  | n => if n < 0x20 then
      ['\\', 'u', '0', '0', Nat.digitChar (n / 16), Nat.digitChar (n % 16)]
    else [c]

/-- `serde_json::to_string` of a list of texts. -/
def jsonTexts (texts : List String) : String :=
  "[" ++ ",".intercalate (texts.map fun text =>
    "\"" ++ String.ofList (text.toList.flatMap escapeJsonChar) ++ "\"") ++ "]"

def plannerScopeHint (files directories : BTreeSet String) : String :=
  "Caller-authorized directory roots (list/search targets and descendant stat/read/write-atomic" ++
    "/apply-patch targets): " ++ jsonTexts (directories.toList.map workspaceRelativeDisplay) ++
    ". Additional exact files (stat/read only): " ++
    jsonTexts (files.toList.map workspaceRelativeDisplay) ++
    ". write-atomic requires expectedDigest=null for creation or the exact digest previously read " ++
    "for replacement. apply-patch requires the exact digest previously read and 1..=" ++
    toString maxApplyPatchEdits ++
    " non-overlapping edits; every oldText must occur exactly once."

namespace WorkspaceReadAuthorization

def new (resolver : ResourceResolver) (files directories : List String) :
    Outcome WorkspaceReadAuthorizationError WorkspaceReadAuthorization := do
  let files ← canonicalSet resolver files false
  let directories ← canonicalSet resolver directories true
  Outcome.failIf (directories.isEmpty = true) .emptyDirectorySet
  Outcome.failIf (maxAllowPathEntries < files.size + directories.size) .tooManyEntries
  Outcome.failIf (files.toList.any (fun path => directories.contains path) = true) .duplicateEntry
  let hint := Xgeny.plannerScopeHint files directories
  Outcome.failIf (maxPlannerScopeHintBytes < byteLen hint) .plannerHintTooLarge
  pure ⟨files, directories, hint⟩

variable (self : WorkspaceReadAuthorization)

def authorizesDirectoryOrDescendant (resource : String) : Bool :=
  self.directories.toList.any fun directory => containsResource directory resource

def authorizesFileOrDescendant (resource : String) : Bool :=
  self.files.contains resource || self.authorizesDirectoryOrDescendant resource

/-- The decision for one capability, on the members of the arguments and their path. -/
def authorizesObject (capability : CapabilityRef) (object : List (String × Json)) (path : String) :
    Bool :=
  match capability.capabilityId, capability.contractVersion with
  | "xgeny.fs/read-text", "1.0.0" | "xgeny.fs/stat", "1.0.0" =>
    object.length == 1 && self.authorizesFileOrDescendant path
  | "xgeny.fs/list-directory", "1.0.0" =>
    object.length == 1 && self.authorizesDirectoryOrDescendant path
  | "xgeny.fs/search-text", "1.0.0" =>
    object.length == 2 && ((object.lookup "query").bind Json.asStr).any validQuery &&
      self.authorizesDirectoryOrDescendant path
  | "xgeny.fs/write-atomic", "1.0.0" =>
    object.length == 3 &&
      ((object.lookup "content").bind Json.asStr).any (fun content =>
        decide (byteLen content ≤ maxWriteAtomicBytes)) &&
      (object.lookup "expectedDigest").any validExpectedDigest &&
      self.authorizesDirectoryOrDescendant path
  | "xgeny.fs/apply-patch", "1.0.0" =>
    validPatchShape object && self.authorizesDirectoryOrDescendant path
  | _, _ => false

def authorizesMaterial (capability : CapabilityRef) (arguments : Json) : Bool :=
  arguments.asObject.any fun object =>
    ((object.lookup "path").bind Json.asStr).any fun path =>
      self.authorizesObject capability object path

def authorizesResource (capability : CapabilityRef) (resource : String) : Bool :=
  match capability.capabilityId, capability.contractVersion with
  | "xgeny.fs/read-text", "1.0.0" | "xgeny.fs/stat", "1.0.0" =>
    self.authorizesFileOrDescendant resource
  | "xgeny.fs/list-directory", "1.0.0" | "xgeny.fs/search-text", "1.0.0"
  | "xgeny.fs/apply-patch", "1.0.0" | "xgeny.fs/write-atomic", "1.0.0" =>
    self.authorizesDirectoryOrDescendant resource
  | _, _ => false

end WorkspaceReadAuthorization

/-! ## The adapters -/

/-- The operations of the filesystem adapters. -/
inductive FilesystemOperation where
  | readText
  | query (operation : Query.QueryOperation)
  | writeAtomic
  | applyPatch
  deriving DecidableEq

namespace FilesystemOperation

def capabilityId : FilesystemOperation → String
  | .readText => "xgeny.fs/read-text"
  | .query .listDirectory => "xgeny.fs/list-directory"
  | .query .stat => "xgeny.fs/stat"
  | .query .searchText => "xgeny.fs/search-text"
  | .writeAtomic => "xgeny.fs/write-atomic"
  | .applyPatch => "xgeny.fs/apply-patch"

def capability (self : FilesystemOperation) : CapabilityRef := ⟨self.capabilityId, "1.0.0"⟩

/-- The operations that change a file. -/
def writes : FilesystemOperation → Bool
  | .writeAtomic | .applyPatch => true
  | .readText | .query _ => false

/-- The adapter's parser accepts the arguments. -/
def accepts (sha256 : List UInt8 → Sha256Hex) (workspaceId : WorkspaceId) (arguments : Json) :
    FilesystemOperation → Prop
  | .readText => ∃ parsed, ReadText.parseArguments workspaceId arguments = .ok parsed
  | .query operation => ∃ parsed, Query.parseArguments workspaceId operation arguments = .ok parsed
  | .writeAtomic => ∃ parsed, WriteAtomic.parseArguments sha256 workspaceId arguments = .ok parsed
  | .applyPatch => ∃ parsed, ApplyPatch.parseArguments workspaceId arguments = .ok parsed

end FilesystemOperation

/-! ## Agreement -/

theorem validDigestString_iff {value : Json} :
    validDigestString value = true ↔ ∃ digest, value = .string digest ∧ isSha256Digest digest = true := by
  simp [validDigestString, Option.any_eq_true, Json.asStr_eq_some]

theorem parseExpectedDigest_of_valid {object : List (String × Json)}
    (h : (object.lookup "expectedDigest").any validExpectedDigest = true) :
    ∃ digest, WriteAtomic.parseExpectedDigest object = .ok digest := by
  obtain ⟨value, hfound, hvalid⟩ := Option.any_eq_true _ _ |>.mp h
  rw [validExpectedDigest, Bool.or_eq_true, beq_iff_eq, validDigestString_iff] at hvalid
  rcases hvalid with rfl | ⟨digest, rfl, hdigest⟩
  · exact ⟨none, by simp [WriteAtomic.parseExpectedDigest, hfound]⟩
  · exact ⟨some digest, by simp [WriteAtomic.parseExpectedDigest, hfound, hdigest]⟩

theorem parseEdit_of_valid {total total' : ℕ} {value : Json} (h : validEdit total value = some total')
    (edits : List ApplyPatch.PatchEdit) :
    ∃ edits', ApplyPatch.parseEdit (total, edits) value = .ok (total', edits') := by
  simp only [validEdit, Option.bind_eq_bind, Option.bind_eq_some_iff, Option.filter_eq_some_iff,
    Json.asObject_eq_some, beq_iff_eq] at h
  obtain ⟨edit, ⟨rfl, hlen⟩, oldText, ⟨hold, hne⟩, newText, hnew, h⟩ := h
  split at h
  · exact absurd h (by simp)
  · rename_i hdifferent
    split at h
    · rename_i hbound
      obtain rfl := Option.some.inj h
      have hfilter : ((edit.lookup "oldText").bind Json.asStr).filter (fun text => text != "") =
          some oldText := Option.filter_eq_some_iff.mpr ⟨Option.bind_eq_some_iff.mpr hold, hne⟩
      have htext : textMember edit "newText" = .ok newText :=
        textMember_eq_ok.mpr (textMember?_eq_some.mp (Option.bind_eq_some_iff.mpr hnew))
      refine ⟨edits ++ [⟨oldText, newText⟩], ?_⟩
      rw [ApplyPatch.parseEdit, closedObject_object hlen]
      simp [hfilter, htext, hdifferent, Outcome.okOr, Outcome.failIf, Nat.not_lt.mpr hbound]
    · exact absurd h (by simp)

theorem parseEdits_of_valid {values : List Json} : ∀ {total : ℕ} (edits : List ApplyPatch.PatchEdit),
    (values.foldlM validEdit total).isSome = true →
      ∃ acc, Outcome.foldl ApplyPatch.parseEdit (total, edits) values = .ok acc := by
  induction values with
  | nil => exact fun edits _ => ⟨_, rfl⟩
  | cons value rest ih =>
    intro total edits h
    rw [List.foldlM_cons, Option.isSome_iff_exists] at h
    obtain ⟨final, hfinal⟩ := h
    obtain ⟨total', hvalid, hrest⟩ := Option.bind_eq_some_iff.mp hfinal
    obtain ⟨edits', hparse⟩ := parseEdit_of_valid hvalid edits
    obtain ⟨acc, hacc⟩ := ih edits' (Option.isSome_iff_exists.mpr ⟨final, hrest⟩)
    exact ⟨acc, by simp [Outcome.foldl, hparse, hacc]⟩

section

variable {sha256 : List UInt8 → Sha256Hex} {workspaceId : WorkspaceId}
  {catalog : WorkspaceReadAuthorization} {capability : CapabilityRef}
  {object : List (String × Json)} {path resource : String}

/-- An authorized object is for one of the operations, whose adapter accepts it unless it writes the
root of the workspace. -/
theorem accepts_of_authorizesObject (hpath : object.lookup "path" = some (.string path))
    (hcanonical : canonicalResource workspaceId resource = .ok path)
    (h : catalog.authorizesObject capability object path = true) :
    ∃ operation : FilesystemOperation, operation.capability = capability ∧
      (operation.accepts sha256 workspaceId (.object object) ↔
        operation.writes = false ∨ path ≠ canonicalRoot workspaceId) := by
  obtain ⟨id, version⟩ := capability
  unfold WorkspaceReadAuthorization.authorizesObject at h
  split at h
  · rename_i hid hversion
    obtain ⟨rfl, rfl⟩ : id = _ ∧ version = _ := ⟨hid, hversion⟩
    rw [Bool.and_eq_true, beq_iff_eq] at h
    exact ⟨.readText, rfl, fun _ => Or.inl rfl, fun _ => ReadText.parse_isOk h.1 hpath hcanonical⟩
  · rename_i hid hversion
    obtain ⟨rfl, rfl⟩ : id = _ ∧ version = _ := ⟨hid, hversion⟩
    rw [Bool.and_eq_true, beq_iff_eq] at h
    exact ⟨.query .stat, rfl, fun _ => Or.inl rfl,
      fun _ => Query.parse_isOk h.1 hpath hcanonical (by simp)⟩
  · rename_i hid hversion
    obtain ⟨rfl, rfl⟩ : id = _ ∧ version = _ := ⟨hid, hversion⟩
    rw [Bool.and_eq_true, beq_iff_eq] at h
    exact ⟨.query .listDirectory, rfl, fun _ => Or.inl rfl,
      fun _ => Query.parse_isOk h.1 hpath hcanonical (by simp)⟩
  · rename_i hid hversion
    obtain ⟨rfl, rfl⟩ : id = _ ∧ version = _ := ⟨hid, hversion⟩
    rw [Bool.and_eq_true, Bool.and_eq_true, beq_iff_eq] at h
    exact ⟨.query .searchText, rfl, fun _ => Or.inl rfl,
      fun _ => Query.parse_isOk h.1.1 hpath hcanonical fun _ => h.1.2⟩
  · rename_i hid hversion
    obtain ⟨rfl, rfl⟩ : id = _ ∧ version = _ := ⟨hid, hversion⟩
    rw [Bool.and_eq_true, Bool.and_eq_true, Bool.and_eq_true, beq_iff_eq] at h
    refine ⟨.writeAtomic, rfl, ?_⟩
    have hiff : (∃ parsed, WriteAtomic.parseArguments sha256 workspaceId (.object object) =
        .ok parsed) ↔ path ≠ canonicalRoot workspaceId :=
      WriteAtomic.parse_isOk_iff h.1.1.1 hpath hcanonical h.1.1.2 (parseExpectedDigest_of_valid h.1.2)
    simpa [FilesystemOperation.writes, FilesystemOperation.accepts] using hiff
  · rename_i hid hversion
    obtain ⟨rfl, rfl⟩ : id = _ ∧ version = _ := ⟨hid, hversion⟩
    rw [Bool.and_eq_true, validPatchShape, Bool.and_eq_true, Bool.and_eq_true, beq_iff_eq] at h
    obtain ⟨⟨⟨hlen, hdigest⟩, hedits⟩, _⟩ := h
    obtain ⟨values, hvalues, hvalid⟩ := Option.any_eq_true _ _ |>.mp hedits
    refine ⟨.applyPatch, rfl, ?_⟩
    have hiff := ApplyPatch.parse_isOk_iff hlen hpath hcanonical ?_ hvalues
      (parseEdits_of_valid [] hvalid)
    · simpa [FilesystemOperation.writes, FilesystemOperation.accepts] using hiff
    · rwa [Option.any_bind]
  · exact absurd h (by simp)

/-- **Which authorized material is executable.** Authorized arguments with a canonical path are for one
of the filesystem operations, and its adapter accepts them unless they write the root itself. -/
theorem authorized_material_parses_iff (sha256 : List UInt8 → Sha256Hex) {workspaceId : WorkspaceId}
    {catalog : WorkspaceReadAuthorization} {capability : CapabilityRef}
    {object : List (String × Json)} {path resource : String}
    (hpath : object.lookup "path" = some (.string path))
    (hcanonical : canonicalResource workspaceId resource = .ok path)
    (h : catalog.authorizesMaterial capability (.object object) = true) :
    ∃ operation : FilesystemOperation, operation.capability = capability ∧
      (operation.accepts sha256 workspaceId (.object object) ↔
        operation.writes = false ∨ path ≠ canonicalRoot workspaceId) := by
  simp only [WorkspaceReadAuthorization.authorizesMaterial, Json.asObject, Option.any_some, hpath,
    Option.bind_some, Json.asStr] at h
  exact accepts_of_authorizesObject hpath hcanonical h

end

/-! ## The root -/

/-- The catalog that allows the root of a workspace. -/
def rootCatalog : WorkspaceReadAuthorization where
  files := ∅
  directories := (∅ : BTreeSet String).insert (canonicalRoot sampleWorkspace)
  plannerScopeHint := plannerScopeHint ∅ ((∅ : BTreeSet String).insert (canonicalRoot sampleWorkspace))

/-- The arguments of a write to the root. -/
def rootWrite : List (String × Json) :=
  [("content", .string ""), ("expectedDigest", .null), ("path", .string "workspace:a")]

theorem canonicalResource_root : canonicalResource sampleWorkspace "." = .ok "workspace:a" := by
  rw [canonicalResource, if_pos (Or.inl rfl)]
  decide

theorem new_rootCatalog :
    WorkspaceReadAuthorization.new (workspaceResolver sampleWorkspace) [] ["."] = .ok rootCatalog := by
  have hresolved : workspaceResolver sampleWorkspace "filesystem.read" "." =
      .ok (canonicalRoot sampleWorkspace) := by
    rw [workspaceResolver, if_pos (Or.inl rfl), canonicalResource, if_pos (Or.inl rfl)]
    rfl
  have hdirectories : canonicalSet (workspaceResolver sampleWorkspace) ["."] true =
      .ok rootCatalog.directories := by
    simp [canonicalSet, Outcome.foldl, insertCanonical, hresolved, Outcome.failIf, rootCatalog,
      maxAllowPathEntries]
  have hhint : byteLen (plannerScopeHint ∅ rootCatalog.directories) ≤ maxPlannerScopeHintBytes := by
    decide +kernel
  have hsize : ¬ maxAllowPathEntries < rootCatalog.directories.size := by decide
  have hempty : rootCatalog.directories ≠ ∅ := Std.ExtTreeSet.insert_ne_empty
  rw [WorkspaceReadAuthorization.new, hdirectories]
  simp [canonicalSet, Outcome.foldl, Outcome.failIf, Nat.not_lt.mpr hhint, Nat.not_lt.mp hsize,
    hempty]
  rfl

/-- A hash, of whatever bytes. -/
def zeroHash : Sha256Hex :=
  ⟨"0000000000000000000000000000000000000000000000000000000000000000", by decide +kernel⟩

theorem operation_of_capability {operation operation' : FilesystemOperation}
    (h : operation.capability = operation'.capability) : operation = operation' := by
  revert h
  rcases operation with _ | (_ | _ | _) | _ | _ <;>
    rcases operation' with _ | (_ | _ | _) | _ | _ <;> decide

/-- The catalog authorizes a write to the root, which the adapter refuses. -/
theorem authorized_material_not_executable : ¬ ∀ (sha256 : List UInt8 → Sha256Hex)
    (workspaceId : WorkspaceId) (catalog : WorkspaceReadAuthorization) (capability : CapabilityRef)
    (object : List (String × Json)) (path resource : String),
    (∃ files directories, WorkspaceReadAuthorization.new (workspaceResolver workspaceId) files
      directories = .ok catalog) →
    object.lookup "path" = some (.string path) →
    canonicalResource workspaceId resource = .ok path →
    catalog.authorizesMaterial capability (.object object) = true →
    ∃ operation : FilesystemOperation, operation.capability = capability ∧
      operation.accepts sha256 workspaceId (.object object) := by
  intro hall
  obtain ⟨operation, hcapability, haccepts⟩ := hall (fun _ => zeroHash) sampleWorkspace rootCatalog
    FilesystemOperation.writeAtomic.capability rootWrite "workspace:a" "." ⟨_, _, new_rootCatalog⟩ rfl
    canonicalResource_root (by decide)
  obtain rfl := operation_of_capability hcapability
  have hrefused : (WriteAtomic.parseArguments (fun _ => zeroHash) sampleWorkspace
      (.object rootWrite)).value? = none := by
    decide
  obtain ⟨parsed, hparsed⟩ := haccepts
  simp [hparsed, Outcome.value?] at hrefused

/-- The metadata of the root may be read, and the adapter refuses the authorized write to it. -/
theorem authorized_material_parses_iff_sample :
    (FilesystemOperation.query .stat).accepts (fun _ => zeroHash) sampleWorkspace
        (.object [("path", .string "workspace:a")]) ∧
      ¬ FilesystemOperation.writeAtomic.accepts (fun _ => zeroHash) sampleWorkspace
        (.object rootWrite) := by
  constructor
  · obtain ⟨operation, hcapability, haccepts⟩ := @authorized_material_parses_iff (fun _ => zeroHash)
      sampleWorkspace rootCatalog (FilesystemOperation.query .stat).capability
      [("path", .string "workspace:a")] "workspace:a" "." rfl canonicalResource_root (by decide)
    obtain rfl := operation_of_capability hcapability
    exact haccepts.mpr (Or.inl rfl)
  · obtain ⟨operation, hcapability, haccepts⟩ := @authorized_material_parses_iff (fun _ => zeroHash)
      sampleWorkspace rootCatalog FilesystemOperation.writeAtomic.capability rootWrite "workspace:a"
      "." rfl canonicalResource_root (by decide)
    obtain rfl := operation_of_capability hcapability
    rw [haccepts]
    rintro (hreads | hbelow)
    · cases hreads
    · exact hbelow rfl

end Xgeny
