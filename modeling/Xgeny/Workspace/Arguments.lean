import Xgeny.Workspace.Paths
import Xgeny.Runtime.Operations

set_option autoImplicit false

/-!
# Arguments of the filesystem adapters

Before an adapter prepares an invocation it parses the normalized arguments: a closed object whose
path is a canonical resource of the workspace, with the texts, limits and digests of its operation.

* `ReadText.parseArguments`, `Query.parseArguments`, `WriteAtomic.parseArguments`,
  `ApplyPatch.parseArguments`: one grammar for each adapter;
* `parse_isOk_iff` of each: when the arguments are accepted, given a canonical path.
-/

namespace Xgeny

namespace Json

/-- `Value::as_object`. -/
def asObject : Json → Option (List (String × Json))
  | .object members => some members
  | _ => none

/-- `Value::as_array`. -/
def asArray : Json → Option (List Json)
  | .array values => some values
  | _ => none

end Json

/-! ## Limits -/

def maxAtomicTextBytes : ℕ := 64 * 1024
def maxWriteAtomicBytes : ℕ := maxAtomicTextBytes
def maxApplyPatchBytes : ℕ := maxAtomicTextBytes
def maxApplyPatchEdits : ℕ := 32
def maxSearchQueryBytes : ℕ := 256
def maxSearchQueryUnicodeScalars : ℕ := 64

/-- The text of a member. -/
def textMember (object : List (String × Json)) (name : String) :
    Outcome AdapterPrepareFailure String :=
  Outcome.okOr ((object.lookup name).bind Json.asStr) .invalidMaterial

/-- The members of arguments that have exactly `count` of them. -/
def closedObject (arguments : Json) (count : ℕ) :
    Outcome AdapterPrepareFailure (List (String × Json)) :=
  Outcome.okOr (arguments.asObject.filter fun object => object.length == count) .invalidMaterial

/-- The path member, read as a canonical resource. -/
def pathMember (workspaceId : WorkspaceId) (object : List (String × Json)) :
    Outcome AdapterPrepareFailure (String × RelativePath) := do
  let path ← textMember object "path"
  let relativePath ← (parseCanonical workspaceId path).mapErr fun _ =>
    AdapterPrepareFailure.invalidMaterial
  pure (path, relativePath)

/-! ## Reading -/

namespace ReadText

def parseArguments (workspaceId : WorkspaceId) (arguments : Json) :
    Outcome AdapterPrepareFailure RelativePath := do
  let object ← closedObject arguments 1
  let (_, relativePath) ← pathMember workspaceId object
  pure relativePath

end ReadText

namespace Query

inductive QueryOperation where
  | listDirectory
  | stat
  | searchText
  deriving DecidableEq

structure ParsedArguments where
  path : RelativePath
  query : Option String
  deriving DecidableEq

/-- The texts that may be searched for. -/
def acceptsQuery (query : String) : Bool :=
  query != "" && byteLen query ≤ maxSearchQueryBytes &&
    query.length ≤ maxSearchQueryUnicodeScalars && !query.toList.any isControl

def parseQuery (operation : QueryOperation) (object : List (String × Json)) :
    Outcome AdapterPrepareFailure (Option String) :=
  if operation = .searchText then do
    let query ← Outcome.okOr
      (((object.lookup "query").bind Json.asStr).filter acceptsQuery) .invalidMaterial
    pure (some query)
  else pure none

def parseArguments (workspaceId : WorkspaceId) (operation : QueryOperation) (arguments : Json) :
    Outcome AdapterPrepareFailure ParsedArguments := do
  let object ← closedObject arguments (if operation = .searchText then 2 else 1)
  let (_, path) ← pathMember workspaceId object
  let query ← parseQuery operation object
  pure ⟨path, query⟩

end Query

/-! ## Writing -/

/-- Only a path below the root can be written. -/
def requireBelowRoot (relativePath : RelativePath) : Outcome AdapterPrepareFailure Unit :=
  Outcome.failIf (relativePath.components = []) .invalidMaterial

namespace WriteAtomic

structure ParsedArguments where
  relativePath : RelativePath
  canonicalPath : String
  content : List UInt8
  expectedDigest : Option String
  desiredDigest : String
  deriving DecidableEq

/-- The expected digest of a replacement, or none for a creation. -/
def parseExpectedDigest (object : List (String × Json)) :
    Outcome AdapterPrepareFailure (Option String) :=
  match object.lookup "expectedDigest" with
  | some .null => pure none
  | some (.string value) =>
    if isSha256Digest value then pure (some value) else Outcome.fail .invalidMaterial
  | _ => Outcome.fail .invalidMaterial

def parseArguments (sha256 : List UInt8 → Sha256Hex) (workspaceId : WorkspaceId)
    (arguments : Json) : Outcome AdapterPrepareFailure ParsedArguments := do
  let object ← closedObject arguments 3
  let (canonicalPath, relativePath) ← pathMember workspaceId object
  requireBelowRoot relativePath
  let text ← textMember object "content"
  let content := bytes text
  Outcome.failIf (maxWriteAtomicBytes < content.length) .invalidMaterial
  let expectedDigest ← parseExpectedDigest object
  pure {
    relativePath := relativePath
    canonicalPath := canonicalPath
    content := content
    expectedDigest := expectedDigest
    desiredDigest := sha256Digest (sha256 content) }

end WriteAtomic

namespace ApplyPatch

structure PatchEdit where
  oldText : String
  newText : String
  deriving DecidableEq

structure ParsedArguments where
  relativePath : RelativePath
  canonicalPath : String
  expectedDigest : String
  edits : List PatchEdit
  deriving DecidableEq

/-- One edit; the sum of all texts so far is bounded. -/
def parseEdit (acc : ℕ × List PatchEdit) (value : Json) :
    Outcome AdapterPrepareFailure (ℕ × List PatchEdit) := do
  let edit ← closedObject value 2
  let oldText ← Outcome.okOr
    (((edit.lookup "oldText").bind Json.asStr).filter fun text => text != "") .invalidMaterial
  let newText ← textMember edit "newText"
  Outcome.failIf (oldText = newText) .invalidMaterial
  let totalBytes := acc.1 + byteLen oldText + byteLen newText
  Outcome.failIf (maxApplyPatchBytes < totalBytes) .invalidMaterial
  pure (totalBytes, acc.2 ++ [⟨oldText, newText⟩])

def parseArguments (workspaceId : WorkspaceId) (arguments : Json) :
    Outcome AdapterPrepareFailure ParsedArguments := do
  let object ← closedObject arguments 3
  let (canonicalPath, relativePath) ← pathMember workspaceId object
  requireBelowRoot relativePath
  let expectedDigest ← Outcome.okOr
    (((object.lookup "expectedDigest").bind Json.asStr).filter isSha256Digest) .invalidMaterial
  let values ← Outcome.okOr (((object.lookup "edits").bind Json.asArray).filter fun edits =>
    edits != [] && edits.length ≤ maxApplyPatchEdits) .invalidMaterial
  let (_, edits) ← Outcome.foldl parseEdit (0, []) values
  pure {
    relativePath := relativePath
    canonicalPath := canonicalPath
    expectedDigest := expectedDigest
    edits := edits }

end ApplyPatch

/-! ## Accepted arguments -/

theorem Json.asStr_eq_some {value : Json} {s : String} :
    value.asStr = some s ↔ value = .string s := by
  cases value <;> simp [Json.asStr]

theorem Json.asObject_eq_some {value : Json} {members : List (String × Json)} :
    value.asObject = some members ↔ value = .object members := by
  cases value <;> simp [Json.asObject]

theorem textMember?_eq_some {object : List (String × Json)} {name s : String} :
    (object.lookup name).bind Json.asStr = some s ↔ object.lookup name = some (.string s) := by
  simp [Option.bind_eq_some_iff, Json.asStr_eq_some]

theorem textMember_eq_ok {object : List (String × Json)} {name s : String} :
    textMember object name = .ok s ↔ object.lookup name = some (.string s) := by
  rw [textMember, Outcome.okOr_eq_ok, textMember?_eq_some]

theorem closedObject_object {object : List (String × Json)} {count : ℕ}
    (h : object.length = count) : closedObject (.object object) count = .ok object := by
  simp [closedObject, Json.asObject, h]

section

variable {workspaceId : WorkspaceId} {object : List (String × Json)} {path resource : String}

theorem pathMember_canonical (hpath : object.lookup "path" = some (.string path))
    (hcanonical : canonicalResource workspaceId resource = .ok path) :
    ∃ relativePath, pathMember workspaceId object = .ok (path, relativePath) ∧
      (relativePath.components = [] ↔ path = canonicalRoot workspaceId) := by
  obtain ⟨relativePath, hparse, hroot⟩ := parseCanonical_canonical hcanonical
  refine ⟨relativePath, ?_, hroot⟩
  rw [pathMember, textMember_eq_ok.mpr hpath]
  simp [hparse, Outcome.mapErr]

theorem ReadText.parse_isOk (hlen : object.length = 1)
    (hpath : object.lookup "path" = some (.string path))
    (hcanonical : canonicalResource workspaceId resource = .ok path) :
    ∃ parsed, ReadText.parseArguments workspaceId (.object object) = .ok parsed := by
  obtain ⟨relativePath, hmember, _⟩ := pathMember_canonical hpath hcanonical
  rw [ReadText.parseArguments, closedObject_object hlen]
  exact ⟨relativePath, by simp [hmember]⟩

theorem Query.parse_isOk {operation : QueryOperation}
    (hlen : object.length = if operation = .searchText then 2 else 1)
    (hpath : object.lookup "path" = some (.string path))
    (hcanonical : canonicalResource workspaceId resource = .ok path)
    (hquery : operation = .searchText →
      ((object.lookup "query").bind Json.asStr).any acceptsQuery = true) :
    ∃ parsed, Query.parseArguments workspaceId operation (.object object) = .ok parsed := by
  obtain ⟨relativePath, hmember, _⟩ := pathMember_canonical hpath hcanonical
  rw [Query.parseArguments, closedObject_object hlen]
  by_cases hsearch : operation = .searchText
  · obtain ⟨query, hfound, haccepted⟩ := Option.any_eq_true _ _ |>.mp (hquery hsearch)
    refine ⟨⟨relativePath, some query⟩, ?_⟩
    simp [hmember, parseQuery, hsearch, hfound, haccepted, Option.filter]
    rfl
  · exact ⟨⟨relativePath, none⟩, by simp [hmember, parseQuery, hsearch]⟩

theorem WriteAtomic.parse_isOk_iff {sha256 : List UInt8 → Sha256Hex} (hlen : object.length = 3)
    (hpath : object.lookup "path" = some (.string path))
    (hcanonical : canonicalResource workspaceId resource = .ok path)
    (hcontent : ((object.lookup "content").bind Json.asStr).any (fun content =>
      decide (byteLen content ≤ maxWriteAtomicBytes)) = true)
    (hdigest : ∃ digest, parseExpectedDigest object = .ok digest) :
    (∃ parsed, WriteAtomic.parseArguments sha256 workspaceId (.object object) = .ok parsed) ↔
      path ≠ canonicalRoot workspaceId := by
  obtain ⟨relativePath, hmember, hroot⟩ := pathMember_canonical hpath hcanonical
  obtain ⟨content, hfound, hshort⟩ := Option.any_eq_true _ _ |>.mp hcontent
  obtain ⟨digest, hdigest⟩ := hdigest
  have htext := textMember_eq_ok.mpr (textMember?_eq_some.mp hfound)
  have hbytes : (bytes content).length = byteLen content := Array.length_toList
  rw [WriteAtomic.parseArguments, closedObject_object hlen]
  simp only [Outcome.bind_eq_ok, Except.ok.injEq, exists_eq_left', hmember, requireBelowRoot,
    Outcome.exists_unit, Outcome.failIf_eq_ok, htext, hbytes, hdigest, Outcome.pure_eq_ok, hroot]
  rw [decide_eq_true_eq] at hshort
  constructor
  · rintro ⟨_, hbelow, _⟩
    exact hbelow
  · intro hbelow
    exact ⟨_, hbelow, Nat.not_lt.mpr hshort, rfl⟩

theorem ApplyPatch.parse_isOk_iff (hlen : object.length = 3)
    (hpath : object.lookup "path" = some (.string path))
    (hcanonical : canonicalResource workspaceId resource = .ok path)
    (hdigest : ((object.lookup "expectedDigest").bind Json.asStr).any isSha256Digest = true)
    {values : List Json}
    (hvalues : ((object.lookup "edits").bind Json.asArray).filter (fun edits =>
      edits != [] && edits.length ≤ maxApplyPatchEdits) = some values)
    (hedits : ∃ acc, Outcome.foldl parseEdit (0, []) values = .ok acc) :
    (∃ parsed, ApplyPatch.parseArguments workspaceId (.object object) = .ok parsed) ↔
      path ≠ canonicalRoot workspaceId := by
  obtain ⟨relativePath, hmember, hroot⟩ := pathMember_canonical hpath hcanonical
  obtain ⟨digest, hfound, hshape⟩ := Option.any_eq_true _ _ |>.mp hdigest
  obtain ⟨acc, hedits⟩ := hedits
  have hexpected : ((object.lookup "expectedDigest").bind Json.asStr).filter isSha256Digest =
      some digest := by
    rw [hfound, Option.filter_some_pos hshape]
  rw [ApplyPatch.parseArguments, closedObject_object hlen]
  simp only [Outcome.bind_eq_ok, Except.ok.injEq, exists_eq_left', hmember, requireBelowRoot,
    Outcome.exists_unit, Outcome.failIf_eq_ok, hexpected, hvalues, Outcome.okOr_eq_ok,
    Option.some.injEq, hedits, Outcome.pure_eq_ok, hroot]
  constructor
  · rintro ⟨_, hbelow, _⟩
    exact hbelow
  · intro hbelow
    exact ⟨_, hbelow, rfl⟩

end

end Xgeny
