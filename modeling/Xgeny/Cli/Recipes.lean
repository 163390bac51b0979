import Xgeny.Cli.AllowFile
import Xgeny.Sidecars.Limits

set_option autoImplicit false

/-!
# The material catalog of a run

The arguments of a planned invocation are kept beside the run as a recipe, in a row under the hash of
its canonical text. The rows may be edited by anyone between two calls.

* `RunMaterialCatalog`: the rows, `persistRecordWithProfile` and `reconstructRecordWithProfile`;
* `RecipeReader`: the JSON reader, with what is known of it;
* `persist_eq_ok`, `reconstruct_eq_ok`: what the two do;
* `metadata_of_canonical`: the canonical text tells the domain, the run and the arguments.
-/

namespace Xgeny

/-! ## Recipes -/

structure RecipeProfile where
  domain : String
  formatVersion : UInt32
  providerId : String

/-- `WORKSPACE_RECIPE_PROFILE`. -/
def workspaceRecipeProfile : RecipeProfile :=
  ⟨"xgeny.cli.workspace-read-recipe/v1", 1, "xgeny.cli.workspace-read-material.v1"⟩

/-- `PROCESS_RECIPE_PROFILE`. -/
def processRecipeProfile : RecipeProfile :=
  ⟨"xgeny.cli.process-recipe/v1", 1, "xgeny.cli.process-material.v1"⟩

structure RecipeRecord where
  domain : String
  formatVersion : UInt32
  runId : String
  stepId : String
  proposalDigest : String
  capability : CapabilityRef
  materialDigest : String
  arguments : Json

namespace RecipeRecord

variable (self : RecipeRecord)

/-- The members of a record after its arguments, in key order. -/
def metadata : List (String × Json) :=
  [("capability", .object
      [("capabilityId", .string self.capability.capabilityId),
        ("contractVersion", .string self.capability.contractVersion)]),
    ("domain", .string self.domain),
    ("formatVersion", .number (.posInt self.formatVersion.toUInt64)),
    ("materialDigest", .string self.materialDigest),
    ("proposalDigest", .string self.proposalDigest),
    ("runId", .string self.runId),
    ("stepId", .string self.stepId)]

/-- `serde_jcs::to_vec` of a record. -/
def canonical (E : CanonicalEncoder) : String :=
  (Json.object (("arguments", self.arguments) :: self.metadata)).canonical E

end RecipeRecord

def validRunId (value : String) : Bool :=
  byteLen value == 36 && (stripPrefix "run-" value).any fun encoded =>
    encoded.length == 32 && encoded.all isLowerHex

/-- `valid_identifier` of the catalog, where a colon is allowed. -/
def validRecipeIdentifier (value : String) (maxBytes : ℕ) : Bool :=
  value != "" && byteLen value ≤ maxBytes && (bytes value).all fun byte =>
    isAsciiAlphanumeric byte || byte == 0x2e || byte == 0x5f || byte == 0x3a || byte == 0x2d

def validCapabilityId (value : String) : Bool :=
  value != "" && byteLen value ≤ 256 && (bytes value).all fun byte =>
    isAsciiAlphanumeric byte || byte == 0x2e || byte == 0x5f || byte == 0x3a || byte == 0x2f ||
      byte == 0x2d

def recordShapeValid (record : RecipeRecord) (profile : RecipeProfile) : Bool :=
  record.domain == profile.domain && record.formatVersion == profile.formatVersion &&
    validRunId record.runId && validRecipeIdentifier record.stepId 256 &&
    isSha256Digest record.proposalDigest && isSha256Digest record.materialDigest &&
    validCapabilityId record.capability.capabilityId &&
    validRecipeIdentifier record.capability.contractVersion 64

/-! ## The reader -/

namespace Json

mutual

/-- The members of every object stand in key order, each key once. -/
def inKeyOrder : Json → Bool
  | .array values => inKeyOrderValues values
  | .object members =>
    (members.map Prod.fst).Pairwise (· < ·) && inKeyOrderMembers members
  | _ => true

def inKeyOrderValues : List Json → Bool
  | [] => true
  | value :: rest => inKeyOrder value && inKeyOrderValues rest

def inKeyOrderMembers : List (String × Json) → Bool
  | [] => true
  | (_, value) :: rest => inKeyOrder value && inKeyOrderMembers rest

end

end Json

/-- `serde_json::from_slice`, which is not in the program: what it reads from some bytes, and the
doubles that it reads back from their canonical spelling. -/
structure RecipeReader where
  fromSlice : List UInt8 → Option RecipeRecord
  readsBack : UInt64 → Bool

/-- The arguments that the reader can read inside a record: it opens at most 127 containers. -/
def maxReadableNesting : ℕ := 126

/-- A double that is not read back. -/
def RecipeReader.loses (reader : RecipeReader) : JsonNumber → Bool
  | .float bits => !reader.readsBack bits
  | _ => false

/-- The arguments of a record are read back. -/
structure RecipeRecord.Readable (reader : RecipeReader) (record : RecipeRecord) : Prop where
  inKeyOrder : record.arguments.inKeyOrder = true
  nesting : record.arguments.nesting ≤ maxReadableNesting
  doubles : record.arguments.countNumbers reader.loses = 0

/-- What the reader does with the text of a record. Numbers are read as their spelling says, so that
the arguments may come back as others of the same text. -/
structure RecipeReader.Follows (E : CanonicalEncoder) (reader : RecipeReader)
    (record : RecipeRecord) : Prop where
  reads : record.Readable reader → ∃ arguments,
    reader.fromSlice (bytes (record.canonical E)) = some { record with arguments := arguments } ∧
      arguments.canonical E = record.arguments.canonical E
  limited : maxReadableNesting < record.arguments.nesting →
    reader.fromSlice (bytes (record.canonical E)) = none

/-! ## The catalog -/

structure RecipeRow where
  revision : String
  record : List UInt8

structure RunMaterialCatalog where
  rows : BTreeMap String RecipeRow
  runId : String

def maxRecipeBytes : ℕ := 512 * 1024

/-- `INSERT OR IGNORE`. -/
def insertOrIgnore (rows : BTreeMap String RecipeRow) (referenceId : String) (row : RecipeRow) :
    BTreeMap String RecipeRow :=
  if referenceId ∈ rows then rows else rows.insert referenceId row

namespace RunMaterialCatalog

variable (E : CanonicalEncoder) (reader : RecipeReader) (self : RunMaterialCatalog)

/-- The reference and the catalog after the commit; on a failure the transaction is rolled back. -/
def persistRecordWithProfile (record : RecipeRecord) (profile : RecipeProfile) :
    Outcome PlanMaterializerFailure (ReconstructableMaterialReference × RunMaterialCatalog) := do
  Outcome.failIf (record.runId ≠ self.runId ∨ ¬ recordShapeValid record profile = true) .rejected
  let canonical := record.canonical E
  Outcome.failIf (maxRecipeBytes < byteLen canonical) .rejected
  let digest := E.sha256 canonical
  let referenceId := "recipe-" ++ digest.val
  let revision := "sha256-" ++ digest.val
  let rows := insertOrIgnore self.rows referenceId ⟨revision, bytes canonical⟩
  let existing ← Outcome.okOr rows[referenceId]? .persistenceFailed
  Outcome.failIf (existing.revision ≠ revision ∨ existing.record ≠ bytes canonical)
    .persistenceFailed
  let reference ← (ReconstructableMaterialReference.new profile.providerId referenceId
    revision).mapErr fun _ => .persistenceFailed
  pure (reference, { self with rows := rows })

def persistRequestWithProfile (request : PlanMaterializationRequest) (profile : RecipeProfile) :
    Outcome PlanMaterializerFailure (ReconstructableMaterialReference × RunMaterialCatalog) := do
  Outcome.failIf (request.runId ≠ self.runId) .rejected
  self.persistRecordWithProfile E
    { domain := profile.domain
      formatVersion := profile.formatVersion
      runId := request.runId
      stepId := request.stepId
      proposalDigest := request.proposalDigest
      capability := request.capability
      materialDigest := request.materialDigest
      arguments := request.normalizedArguments } profile

def reconstructRecordWithProfile (referenceId revision : String) (profile : RecipeProfile) :
    Outcome MaterialProviderFailure RecipeRecord := do
  let stored ← Outcome.okOr self.rows[referenceId]? .notFound
  Outcome.failIf (stored.revision ≠ revision) .revisionChanged
  Outcome.failIf (maxRecipeBytes < stored.record.length) .revisionChanged
  let record ← Outcome.okOr (reader.fromSlice stored.record) .revisionChanged
  let canonical := record.canonical E
  let digest := E.sha256 canonical
  Outcome.failIf (bytes canonical ≠ stored.record ∨ referenceId ≠ "recipe-" ++ digest.val ∨
    revision ≠ "sha256-" ++ digest.val ∨ record.runId ≠ self.runId ∨
    ¬ recordShapeValid record profile = true) .revisionChanged
  pure record

end RunMaterialCatalog

/-! ## Materializers and providers -/

/-- The materializers and providers of the two profiles: the catalog, and the test of the arguments
of a capability. -/
structure RecipeMaterials where
  accepts : CapabilityRef → Json → Bool
  catalog : RunMaterialCatalog
  profile : RecipeProfile

namespace RecipeMaterials

variable (E : CanonicalEncoder) (reader : RecipeReader) (self : RecipeMaterials)

def materialize (request : PlanMaterializationRequest) :
    Outcome PlanMaterializerFailure (ReconstructableMaterialReference × RunMaterialCatalog) := do
  Outcome.failIf (¬ self.accepts request.capability request.normalizedArguments = true) .rejected
  self.catalog.persistRequestWithProfile E request self.profile

def reconstruct (referenceId revision : String) : Outcome MaterialProviderFailure Json := do
  let record ← self.catalog.reconstructRecordWithProfile E reader referenceId revision self.profile
  Outcome.failIf (¬ self.accepts record.capability record.arguments = true) .revisionChanged
  pure record.arguments

end RecipeMaterials

/-- `WorkspaceReadMaterializer` and `WorkspaceReadMaterialProvider`. -/
def workspaceReadMaterials (authorization : WorkspaceReadAuthorization)
    (catalog : RunMaterialCatalog) : RecipeMaterials :=
  ⟨authorization.authorizesMaterial, catalog, workspaceRecipeProfile⟩

/-- `PROCESS_EXECUTE_CAPABILITY_ID` and `PROCESS_EXECUTE_CONTRACT_VERSION`. -/
def processExecuteCapability : CapabilityRef := ⟨"xgeny.process/execute", "1.0.0"⟩

/-- `ProcessMaterializer` and `ProcessMaterialProvider`; the process workspace looks at the files of
its executables. -/
def processMaterials (acceptsNormalizedMaterial : Json → Bool) (catalog : RunMaterialCatalog) :
    RecipeMaterials :=
  ⟨fun capability arguments =>
      capability == processExecuteCapability && acceptsNormalizedMaterial arguments,
    catalog, processRecipeProfile⟩

/-! ## What the text of a record tells -/

section

variable {E : CanonicalEncoder} {reader : RecipeReader}

/-- A byte that stands for itself in a JSON string. -/
def isPlainByte (b : UInt8) : Bool := 0x20 ≤ b && b < 0x80 && b != 0x22 && b != 0x5c

theorem isPlainByte_iff {b : UInt8} : isPlainByte b = true ↔
    32 ≤ b.toNat ∧ b.toNat < 128 ∧ b.toNat ≠ 34 ∧ b.toNat ≠ 92 := by
  simp [isPlainByte, UInt8.le_iff_toNat_le, UInt8.lt_iff_toNat_lt, ← UInt8.toNat_inj, and_assoc]

theorem plain_of_bytes {s : String} (h : (bytes s).all isPlainByte = true) :
    s.toList.all isPlain = true := by
  refine List.all_eq_true.mpr fun c hc => ?_
  have hplain : ∀ b ∈ String.utf8EncodeChar c, isPlainByte b = true := fun b hb =>
    List.all_eq_true.mp h b (bytes_toList_subset hc b hb)
  obtain ⟨hlt, hbyte⟩ := Utf8.encode_ascii fun b hb =>
    UInt8.lt_iff_toNat_lt.mpr (isPlainByte_iff.mp (hplain b hb)).2.1
  have hc := isPlainByte_iff.mp (hplain _ (by rw [hbyte]; exact List.mem_singleton_self _))
  rw [UInt8.toNat_ofNat', Nat.mod_eq_of_lt (by omega)] at hc
  obtain ⟨hlow, -, hquote, hslash⟩ := hc
  have hne : ∀ d : Char, d.toNat < 32 ∨ d.toNat = 34 ∨ d.toNat = 92 → c ≠ d := by
    rintro d hd rfl
    omega
  have hquotes : c ≠ '"' ∧ c ≠ '\\' := ⟨hne _ (by decide), hne _ (by decide)⟩
  rw [isPlain, decide_eq_true_eq, escapeChar, if_neg hquotes.1, if_neg hquotes.2,
    if_neg (hne _ (by decide)), if_neg (hne _ (by decide)), if_neg (hne _ (by decide)),
    if_neg (hne _ (by decide)), if_neg (hne _ (by decide)), if_neg (by omega)]

theorem isPlainByte_of_hex {b : UInt8} (h : isLowerHex b = true) : isPlainByte b = true := by
  rw [isPlainByte_iff]
  have hdigit := isLowerHex_iff.mp h
  omega

theorem plain_of_stripPrefix {pre s : String} {rest : List UInt8}
    (hpre : (bytes pre).all isPlainByte = true) (h : stripPrefix pre s = some rest)
    (hrest : rest.all isLowerHex = true) : s.toList.all isPlain = true := by
  obtain ⟨front, hfront, hbytes⟩ := List.dropPrefix?_eq_some_iff.mp h
  rw [beq_iff_eq] at hbytes
  apply plain_of_bytes
  rw [hfront, List.all_append, hbytes, hpre, Bool.true_and]
  exact List.all_eq_true.mpr fun b hb => isPlainByte_of_hex (List.all_eq_true.mp hrest b hb)

theorem plain_of_digest {s : String} (h : isSha256Digest s = true) :
    s.toList.all isPlain = true := by
  obtain ⟨rest, hstrip, hhex⟩ := (Option.any_eq_true _ _).mp h
  rw [isHex64, Bool.and_eq_true] at hhex
  exact plain_of_stripPrefix (by decide) hstrip hhex.2

theorem plain_of_runId {s : String} (h : validRunId s = true) : s.toList.all isPlain = true := by
  rw [validRunId, Bool.and_eq_true] at h
  obtain ⟨rest, hstrip, hhex⟩ := (Option.any_eq_true _ _).mp h.2
  rw [Bool.and_eq_true] at hhex
  exact plain_of_stripPrefix (by decide) hstrip hhex.2

theorem plain_of_identifier {s : String} {n : ℕ} (h : validRecipeIdentifier s n = true) :
    s.toList.all isPlain = true := by
  rw [validRecipeIdentifier, Bool.and_eq_true] at h
  refine plain_of_bytes (List.all_eq_true.mpr fun b hb => ?_)
  have hbyte := List.all_eq_true.mp h.2 b hb
  simp only [isAsciiAlphanumeric, isAsciiDigit, Bool.or_eq_true, Bool.and_eq_true,
    decide_eq_true_eq, UInt8.le_iff_toNat_le, beq_iff_eq, ← UInt8.toNat_inj,
    UInt8.reduceToNat] at hbyte
  rw [isPlainByte_iff]
  omega

theorem plain_of_capabilityId {s : String} (h : validCapabilityId s = true) :
    s.toList.all isPlain = true := by
  rw [validCapabilityId, Bool.and_eq_true] at h
  refine plain_of_bytes (List.all_eq_true.mpr fun b hb => ?_)
  have hbyte := List.all_eq_true.mp h.2 b hb
  simp only [isAsciiAlphanumeric, isAsciiDigit, Bool.or_eq_true, Bool.and_eq_true,
    decide_eq_true_eq, UInt8.le_iff_toNat_le, beq_iff_eq, ← UInt8.toNat_inj,
    UInt8.reduceToNat] at hbyte
  rw [isPlainByte_iff]
  omega

/-- The strings of a record of a valid shape stand for themselves in its text. -/
structure RecipeRecord.Shaped (record : RecipeRecord) (profile : RecipeProfile) : Prop where
  domain : record.domain = profile.domain
  formatVersion : record.formatVersion = profile.formatVersion
  runId : record.runId.toList.all isPlain = true
  stepId : record.stepId.toList.all isPlain = true
  proposalDigest : record.proposalDigest.toList.all isPlain = true
  materialDigest : record.materialDigest.toList.all isPlain = true
  capabilityId : record.capability.capabilityId.toList.all isPlain = true
  contractVersion : record.capability.contractVersion.toList.all isPlain = true

theorem shaped {record : RecipeRecord} {profile : RecipeProfile}
    (h : recordShapeValid record profile = true) : record.Shaped profile := by
  simp only [recordShapeValid, Bool.and_eq_true, beq_iff_eq] at h
  obtain ⟨⟨⟨⟨⟨⟨⟨hdomain, hversion⟩, hrun⟩, hstep⟩, hproposal⟩, hmaterial⟩, hid⟩, hcontract⟩ := h
  exact ⟨hdomain, hversion, plain_of_runId hrun, plain_of_identifier hstep,
    plain_of_digest hproposal, plain_of_digest hmaterial, plain_of_capabilityId hid,
    plain_of_identifier hcontract⟩

/-- The members of the text of a record before its domain. -/
def RecipeRecord.front (record : RecipeRecord) : List (String × Json) :=
  ("arguments", record.arguments) :: record.metadata.take 1

theorem RecipeRecord.front_ne_nil (record : RecipeRecord) : record.front ≠ [] :=
  List.cons_ne_nil _ _

theorem RecipeRecord.front_append (record : RecipeRecord) :
    ("arguments", record.arguments) :: record.metadata =
      record.front ++ [("domain", .string record.domain)] ++
        [("formatVersion", .number (.posInt record.formatVersion.toUInt64))] ++
        [("materialDigest", .string record.materialDigest)] ++
        [("proposalDigest", .string record.proposalDigest)] ++ [("runId", .string record.runId)] ++
        [("stepId", .string record.stepId)] := rfl

theorem RecipeRecord.write_front (record : RecipeRecord) :
    Json.writeMembers E.spellCanonical true record.front =
      quoted "arguments" ++ ":" ++ record.arguments.canonical E ++
        ("," ++ quoted "capability" ++ ":" ++ "\x7b" ++ quoted "capabilityId" ++ ":") ++
        quoted record.capability.capabilityId ++ ("," ++ quoted "contractVersion" ++ ":") ++
        quoted record.capability.contractVersion ++ "\x7d" := by
  simp only [front, metadata, List.take_succ_cons, List.take_zero, Json.writeMembers, Json.write,
    separator, if_true, Bool.false_eq_true, if_false, String.empty_append, String.append_empty,
    String.append_assoc, Json.canonical]

/-- **The canonical text tells the domain, the run and the text of the arguments.** -/
theorem metadata_of_canonical {record record' : RecipeRecord} {profile profile' : RecipeProfile}
    (h : record.Shaped profile) (h' : record'.Shaped profile')
    (hversion : profile.formatVersion = profile'.formatVersion)
    (hdomain : profile.domain.toList.all isPlain = true)
    (hdomain' : profile'.domain.toList.all isPlain = true)
    (hsame : record.canonical E = record'.canonical E) :
    record.domain = record'.domain ∧ record.runId = record'.runId ∧
      record.arguments.canonical E = record'.arguments.canonical E := by
  have hformat : record.formatVersion = record'.formatVersion := by
    rw [h.formatVersion, h'.formatVersion, hversion]
  simp only [RecipeRecord.canonical, Json.canonical, Json.write] at hsame
  have hmembers := (String.append_right_inj _).mp ((String.append_left_inj _).mp hsame)
  rw [record.front_append, record'.front_append, hformat] at hmembers
  have hne : ∀ (l : List (String × Json)) (x : String × Json), l ++ [x] ≠ [] := fun l x =>
    List.append_ne_nil_of_right_ne_nil l (List.cons_ne_nil x [])
  -- the members are read off the text from the last one
  obtain ⟨hrest, -⟩ := Json.last_string (hne _ _) (hne _ _) h.stepId h'.stepId hmembers
  obtain ⟨hrest, hrun⟩ := Json.last_string (hne _ _) (hne _ _) h.runId h'.runId hrest
  obtain ⟨hrest, -⟩ := Json.last_string (hne _ _) (hne _ _) h.proposalDigest h'.proposalDigest hrest
  obtain ⟨hrest, -⟩ := Json.last_string (hne _ _) (hne _ _) h.materialDigest h'.materialDigest hrest
  have hrest := Json.last_same (hne _ _) (hne _ _) hrest
  rw [← h.domain] at hdomain
  rw [← h'.domain] at hdomain'
  obtain ⟨hfront, hdomains⟩ := Json.last_string record.front_ne_nil record'.front_ne_nil
    hdomain hdomain' hrest
  rw [record.write_front, record'.write_front] at hfront
  have hcontract := (String.append_left_inj _).mp hfront
  obtain ⟨hfront, -⟩ := quoted_suffix h.contractVersion h'.contractVersion hcontract
  obtain ⟨hfront, -⟩ := quoted_suffix h.capabilityId h'.capabilityId
    ((String.append_left_inj _).mp hfront)
  have harguments := (String.append_left_inj _).mp hfront
  exact ⟨hdomains, hrun, (String.append_right_inj _).mp harguments⟩

/-! ## What the two operations do -/

/-- The row of a record. -/
def recipeRow (E : CanonicalEncoder) (record : RecipeRecord) : RecipeRow where
  revision := "sha256-" ++ (E.sha256 (record.canonical E)).val
  record := bytes (record.canonical E)

/-- The key of a record. -/
def recipeId (E : CanonicalEncoder) (record : RecipeRecord) : String :=
  "recipe-" ++ (E.sha256 (record.canonical E)).val

/-- The profiles of the program. -/
def IsRecipeProfile (profile : RecipeProfile) : Prop :=
  profile = workspaceRecipeProfile ∨ profile = processRecipeProfile

theorem IsRecipeProfile.provider {profile : RecipeProfile} (h : IsRecipeProfile profile) :
    validateReferenceComponent "provider_id" profile.providerId = .ok () := by
  have hvalue : (validateReferenceComponent "provider_id" profile.providerId).value? =
      some () := by
    rcases h with rfl | rfl <;> decide
  exact Outcome.value?_eq_some.mp hvalue

theorem IsRecipeProfile.plain {profile : RecipeProfile} (h : IsRecipeProfile profile) :
    profile.domain.toList.all isPlain = true := by
  rcases h with rfl | rfl <;> decide

theorem IsRecipeProfile.version {profile : RecipeProfile} (h : IsRecipeProfile profile) :
    profile.formatVersion = 1 := by
  rcases h with rfl | rfl <;> rfl

theorem IsRecipeProfile.domain_inj {profile profile' : RecipeProfile} (h : IsRecipeProfile profile)
    (h' : IsRecipeProfile profile') (hdomain : profile.domain = profile'.domain) :
    profile = profile' := by
  rcases h with rfl | rfl <;> rcases h' with rfl | rfl
  · rfl
  · exact absurd hdomain (by decide)
  · exact absurd hdomain (by decide)
  · rfl

theorem insertOrIgnore_get {rows : BTreeMap String RecipeRow} {referenceId : String}
    {row existing : RecipeRow} :
    (insertOrIgnore rows referenceId row)[referenceId]? = some existing ↔
      rows[referenceId]? = some existing ∨ rows[referenceId]? = none ∧ row = existing := by
  rw [insertOrIgnore]
  by_cases hmem : referenceId ∈ rows
  · rw [if_pos hmem]
    obtain ⟨value, hvalue⟩ := BTreeMap.mem_iff_exists.mp hmem
    simp [hvalue]
  · rw [if_neg hmem, BTreeMap.get_insert, if_pos rfl, BTreeMap.get_eq_none_iff.mpr hmem]
    simp

theorem insertOrIgnore_of_mem {rows : BTreeMap String RecipeRow} {referenceId : String}
    {row existing : RecipeRow} (h : rows[referenceId]? = some existing) :
    insertOrIgnore rows referenceId row = rows :=
  if_pos (BTreeMap.mem_iff_exists.mpr ⟨existing, h⟩)

namespace RunMaterialCatalog

variable {self next : RunMaterialCatalog} {record record' : RecipeRecord}
  {profile profile' : RecipeProfile} {reference : ReconstructableMaterialReference}
  {referenceId revision : String}

/-- **Persisting a record**: the record is of the run and of the shape of the profile and fits, and
there was no row of it or the one that is written. -/
theorem persist_eq_ok (hprofile : IsRecipeProfile profile) :
    self.persistRecordWithProfile E record profile = .ok (reference, next) ↔
      (record.runId = self.runId ∧ recordShapeValid record profile = true ∧
        byteLen (record.canonical E) ≤ maxRecipeBytes ∧
        (self.rows[recipeId E record]? = some (recipeRow E record) ∨
          self.rows[recipeId E record]? = none)) ∧
      reference = ⟨profile.providerId, recipeId E record, (recipeRow E record).revision⟩ ∧
      next = { self with rows := insertOrIgnore self.rows (recipeId E record) (recipeRow E record) }
    := by
  have hreference : ReconstructableMaterialReference.new profile.providerId
      ("recipe-" ++ (E.sha256 (record.canonical E)).val)
      ("sha256-" ++ (E.sha256 (record.canonical E)).val) =
      .ok ⟨profile.providerId, "recipe-" ++ (E.sha256 (record.canonical E)).val,
        "sha256-" ++ (E.sha256 (record.canonical E)).val⟩ := by
    simp only [ReconstructableMaterialReference.new, ReconstructableMaterialReference.validate,
      Outcome.bind_eq_ok, Outcome.exists_unit, Outcome.pure_eq_ok, and_true]
    exact ⟨hprofile.provider, validateReferenceComponent_hashed (by decide) (by decide) _,
      validateReferenceComponent_hashed (by decide) (by decide) _⟩
  simp only [persistRecordWithProfile, hreference, Outcome.bind_eq_ok, Outcome.exists_unit,
    Outcome.failIf_eq_ok, Outcome.okOr_eq_ok, Outcome.mapErr_eq_ok, Outcome.pure_eq_ok, not_or,
    not_not, Except.ok.injEq, insertOrIgnore_get, not_lt]
  constructor
  · rintro ⟨⟨hrun, hshape⟩, hsize, ⟨revision, stored⟩, hrow, ⟨rfl, rfl⟩, _, rfl, heq⟩
    obtain ⟨rfl, rfl⟩ := Prod.mk.inj heq
    exact ⟨⟨hrun, hshape, hsize, hrow.imp_right And.left⟩, rfl, rfl⟩
  · rintro ⟨⟨hrun, hshape, hsize, hrow⟩, rfl, rfl⟩
    exact ⟨⟨hrun, hshape⟩, hsize, recipeRow E record, hrow.imp_right fun hnone => ⟨hnone, rfl⟩,
      ⟨rfl, rfl⟩, _, rfl, rfl⟩

/-- **Reconstructing a record**: the row is the one of the record that is read from it. -/
theorem reconstruct_eq_ok :
    self.reconstructRecordWithProfile E reader referenceId revision profile = .ok record ↔
      self.rows[referenceId]? = some (recipeRow E record) ∧ referenceId = recipeId E record ∧
        revision = (recipeRow E record).revision ∧
        byteLen (record.canonical E) ≤ maxRecipeBytes ∧
        reader.fromSlice (bytes (record.canonical E)) = some record ∧
        record.runId = self.runId ∧ recordShapeValid record profile = true := by
  simp only [reconstructRecordWithProfile, Outcome.bind_eq_ok, Outcome.exists_unit,
    Outcome.failIf_eq_ok, Outcome.okOr_eq_ok, Outcome.pure_eq_ok, not_or, not_not, not_lt]
  constructor
  · rintro ⟨⟨revision', stored⟩, hrow, rfl, hsize, _, hread, ⟨rfl, rfl, rfl, hrun, hshape⟩, rfl⟩
    rw [← byteLen_eq_length] at hsize
    exact ⟨hrow, rfl, rfl, hsize, hread, hrun, hshape⟩
  · rintro ⟨hrow, rfl, rfl, hsize, hread, hrun, hshape⟩
    refine ⟨recipeRow E record, hrow, rfl, ?_, record, hread, ⟨rfl, rfl, rfl, hrun, hshape⟩, rfl⟩
    rwa [recipeRow, ← byteLen_eq_length]

end RunMaterialCatalog

end

end Xgeny
