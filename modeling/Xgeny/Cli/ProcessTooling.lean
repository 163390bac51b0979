import Xgeny.Cli.Commitment
import Xgeny.Policy.Coverage

set_option autoImplicit false

/-!
# The catalog of executables

The user catalogues executables under logical identifiers. The resolver of the process scope accepts
an identifier, or its canonical resource `process:<workspace>/executables/<id>`, and answers with the
canonical resource; the authorization holds the canonical resources of the catalogued identifiers.

* `ProcessResourceResolver`, `LocalResourceResolver`: the resolvers of the host;
* `ProcessExecutionAuthorization`: the catalog, `new`, `authorizesResource`;
* **`LocalResourceResolver.idempotent`**: a canonical resource is its own canonical resource;
* **`ProcessExecutionAuthorization.authorizesResource_iff`**: what a constructed catalog authorizes.
-/

namespace Xgeny

/-! ## Identifiers -/

/-- `PROCESS_EXECUTE_SCOPE`. -/
def processExecuteScope : String := "process.execute"

/-- `CANONICAL_EXECUTABLE_PREFIX`. -/
def canonicalExecutablePrefix : String := "process:"

/-- `MAX_EXECUTABLE_ID_BYTES`. -/
def maxExecutableIdBytes : ℕ := 128

/-- `ProcessWorkspaceId`: its grammar is that of `WorkspaceId`. -/
abbrev ProcessWorkspaceId := WorkspaceId

/-- `validate_executable_id`: the bytes allowed at an index. -/
def isExecutableByte (byte : UInt8) (index : ℕ) : Bool :=
  isAsciiLowercase byte || isAsciiDigit byte ||
    (0 < index && (byte == 0x2e || byte == 0x5f || byte == 0x2b || byte == 0x2d))

/-- `validate_executable_id`. -/
def validExecutableId (value : String) : Bool :=
  value != "" && byteLen value ≤ maxExecutableIdBytes &&
    (bytes value).zipIdx.all fun entry => isExecutableByte entry.1 entry.2

/-- What the canonical resources of a workspace start with. -/
def executableRoot (workspaceId : ProcessWorkspaceId) : String :=
  canonicalExecutablePrefix ++ workspaceId.value ++ "/executables/"

/-- `canonical_resource` of the process adapter. -/
def canonicalExecutable (workspaceId : ProcessWorkspaceId) (logicalId : String) : String :=
  executableRoot workspaceId ++ logicalId

/-- The identifier that a resource spells, before its check. -/
def spelledExecutable (workspaceId : ProcessWorkspaceId) (resource : String) :
    Except ResourceResolutionFailure String :=
  match stripText (executableRoot workspaceId) resource with
  | some logicalId => .ok logicalId
  | none =>
    if (stripText canonicalExecutablePrefix resource).isSome then .error .outsideHostBoundary
    else .ok resource

/-- `parse_resource` of the process adapter. -/
def parseExecutable (workspaceId : ProcessWorkspaceId) (resource : String) :
    Except ResourceResolutionFailure String :=
  (spelledExecutable workspaceId resource).bind fun logicalId =>
    if validExecutableId logicalId = true then .ok logicalId else .error .invalidResource

/-! ## Resolvers -/

structure ProcessResourceResolver where
  workspaceId : ProcessWorkspaceId
  logicalIds : BTreeSet String

def ProcessResourceResolver.resolve (self : ProcessResourceResolver) : ResourceResolver :=
  fun scope resource =>
    if scope ≠ processExecuteScope then .error .unsupportedScope
    else
      (parseExecutable self.workspaceId resource).bind fun logicalId =>
        if logicalId ∈ self.logicalIds then .ok (canonicalExecutable self.workspaceId logicalId)
        else .error .outsideHostBoundary

/-- `LocalResourceResolver`: the filesystem has the identity of its workspace. -/
structure LocalResourceResolver where
  filesystem : WorkspaceId
  process : Option ProcessResourceResolver

def LocalResourceResolver.resolve (self : LocalResourceResolver) : ResourceResolver :=
  fun scope resource =>
    if scope = processExecuteScope then
      match self.process with
      | none => .error .unsupportedScope
      | some process => process.resolve scope resource
    else workspaceResolver self.filesystem scope resource

/-! ## The catalog -/

structure ProcessToolingError where
  deriving DecidableEq

/-- `ProcessExecutionAuthorization`: the executables that the user allows, and how they are told to
the planner. -/
structure ProcessExecutionAuthorization where
  canonicalResources : BTreeSet String
  plannerScopeHint : String
  catalogDigest : String

/-- `PROCESS_EXECUTABLE_CATALOG_PROFILE`. -/
def processExecutableCatalogProfile : String := "xgeny.cli.explicit-executable-path-catalog/v1"

/-- `MAX_ALLOW_EXECUTABLES`. -/
def maxAllowExecutables : ℕ := 64

/-- `MAX_PLANNER_HINT_BYTES`. -/
def maxPlannerHintBytes : ℕ := 8 * 1024

/-- One identifier of the catalog: the identifiers and the resources so far. -/
def addExecutable (resolver : ResourceResolver) (acc : BTreeSet String × BTreeSet String)
    (logicalId : String) : Outcome ProcessToolingError (BTreeSet String × BTreeSet String) := do
  Outcome.failIf (logicalId ∈ acc.1) {}
  match resolver processExecuteScope logicalId with
  | .error _ => Outcome.fail {}
  | .ok canonical => do
    Outcome.failIf (canonical ∈ acc.2) {}
    pure (acc.1.insert logicalId, acc.2.insert canonical)

def executableScopeHint (ids : BTreeSet String) : String :=
  "Caller-catalogued process executable logical IDs: " ++ jsonTexts ids.toList ++
    ". process.execute must select one listed ID, pass a literal argv array without shell syntax, " ++
    "use a workspace-relative cwd, and choose bounded timeoutMs and maxOutputBytes."

/-- `CatalogDigestInput` of the executables. -/
def executableDocument (ids : BTreeSet String) : Json :=
  .object
    [("domain", .string processExecutableCatalogProfile),
      ("logicalIds", .array (ids.toList.map .string))]

namespace ProcessExecutionAuthorization

def new (E : CanonicalEncoder) (resolver : ProcessResourceResolver) (logicalIds : List String) :
    Outcome ProcessToolingError ProcessExecutionAuthorization := do
  let (ids, canonicalResources) ← Outcome.foldl (addExecutable resolver.resolve) (∅, ∅) logicalIds
  Outcome.failIf (ids.isEmpty = true ∨ maxAllowExecutables < ids.size) {}
  let hint := executableScopeHint ids
  Outcome.failIf (maxPlannerHintBytes < byteLen hint) {}
  pure
    { canonicalResources := canonicalResources
      plannerScopeHint := hint
      catalogDigest := sha256Digest (E.hashOf (executableDocument ids)) }

def authorizesResource (self : ProcessExecutionAuthorization) (resource : String) : Bool :=
  self.canonicalResources.contains resource

end ProcessExecutionAuthorization

/-! ## Resolving -/

section

variable {workspaceId : ProcessWorkspaceId} {resource logicalId canonical scope : String}

theorem parseExecutable_eq_ok : parseExecutable workspaceId resource = .ok logicalId ↔
    spelledExecutable workspaceId resource = .ok logicalId ∧ validExecutableId logicalId = true := by
  rw [parseExecutable]
  cases spelledExecutable workspaceId resource with
  | error failure => simp [Except.bind]
  | ok spelled =>
    simp only [Except.bind, Except.ok.injEq]
    by_cases hvalid : validExecutableId spelled = true
    · rw [if_pos hvalid]
      constructor
      · rintro ⟨⟩
        exact ⟨rfl, hvalid⟩
      · rintro ⟨rfl, -⟩
        rfl
    · rw [if_neg hvalid]
      constructor
      · intro h
        cases h
      · rintro ⟨rfl, hid⟩
        exact absurd hid hvalid

/-- **The canonical resource of an identifier spells it.** -/
theorem parseExecutable_canonical (hvalid : validExecutableId logicalId = true) :
    parseExecutable workspaceId (canonicalExecutable workspaceId logicalId) = .ok logicalId := by
  refine parseExecutable_eq_ok.mpr ⟨?_, hvalid⟩
  rw [spelledExecutable, canonicalExecutable, stripText_append]

theorem ProcessResourceResolver.resolve_eq_ok {self : ProcessResourceResolver} :
    self.resolve scope resource = .ok canonical ↔ scope = processExecuteScope ∧
      ∃ logicalId ∈ self.logicalIds, parseExecutable self.workspaceId resource = .ok logicalId ∧
        canonicalExecutable self.workspaceId logicalId = canonical := by
  rw [resolve]
  by_cases hscope : scope = processExecuteScope
  · rw [if_neg (not_not.mpr hscope)]
    cases hparse : parseExecutable self.workspaceId resource with
    | error failure => simp [Except.bind]
    | ok logicalId =>
      simp only [Except.bind, Except.ok.injEq]
      by_cases hid : logicalId ∈ self.logicalIds
      · rw [if_pos hid, Except.ok.injEq]
        constructor
        · exact fun h => ⟨hscope, logicalId, hid, rfl, h⟩
        · rintro ⟨-, _, -, rfl, h⟩
          exact h
      · rw [if_neg hid]
        constructor
        · intro h
          cases h
        · rintro ⟨-, _, hmem, rfl, -⟩
          exact absurd hmem hid
  · rw [if_pos hscope]
    constructor
    · intro h
      cases h
    · rintro ⟨rfl, -⟩
      exact absurd rfl hscope

theorem ProcessResourceResolver.idempotent (self : ProcessResourceResolver) :
    Idempotent self.resolve := by
  intro scope raw canonical h
  obtain ⟨hscope, logicalId, hid, hparse, rfl⟩ := resolve_eq_ok.mp h
  exact resolve_eq_ok.mpr ⟨hscope, logicalId, hid,
    parseExecutable_canonical (parseExecutable_eq_ok.mp hparse).2, rfl⟩

/-- **The host's resolver keeps what it has made canonical.** -/
theorem LocalResourceResolver.idempotent (self : LocalResourceResolver) : Idempotent self.resolve := by
  intro scope raw canonical h
  unfold resolve at h ⊢
  by_cases hscope : scope = processExecuteScope
  · rw [if_pos hscope] at h ⊢
    cases hprocess : self.process with
    | none => simp [hprocess] at h
    | some process =>
      rw [hprocess] at h
      exact process.idempotent scope raw canonical h
  · rw [if_neg hscope] at h ⊢
    unfold workspaceResolver at h ⊢
    by_cases hfile : scope = "filesystem.read" ∨ scope = "filesystem.write"
    · rw [if_pos hfile] at h ⊢
      split at h
      · rename_i resolved hresolved
        obtain rfl := Except.ok.inj h
        rw [canonicalResource_canonical hresolved]
      · cases h
      · cases h
    · rw [if_neg hfile] at h
      cases h

end

/-! ## What is authorized -/

section

variable {E : CanonicalEncoder} {resolver : ResourceResolver} {logicalIds : List String}
  {logicalId : String} {acc acc' : BTreeSet String × BTreeSet String}

theorem addExecutable_eq_ok : addExecutable resolver acc logicalId = .ok acc' ↔
    logicalId ∉ acc.1 ∧ ∃ canonical, resolver processExecuteScope logicalId = .ok canonical ∧
      canonical ∉ acc.2 ∧ acc' = (acc.1.insert logicalId, acc.2.insert canonical) := by
  simp only [addExecutable, Outcome.bind_eq_ok, Outcome.exists_unit, Outcome.failIf_eq_ok]
  refine and_congr_right fun _ => ?_
  cases hresolved : resolver processExecuteScope logicalId with
  | error failure => simp
  | ok canonical =>
    simp only [Outcome.bind_eq_ok, Outcome.exists_unit, Outcome.failIf_eq_ok, Outcome.pure_eq_ok,
      Except.ok.injEq, exists_eq_left']
    exact and_congr_right fun _ => eq_comm

theorem addExecutables_resources (h : Outcome.foldl (addExecutable resolver) acc logicalIds = .ok acc')
    (resource : String) : resource ∈ acc'.2 ↔ resource ∈ acc.2 ∨
      ∃ logicalId ∈ logicalIds, resolver processExecuteScope logicalId = .ok resource := by
  induction logicalIds generalizing acc with
  | nil =>
    obtain rfl := Except.ok.inj h
    simp
  | cons first rest ih =>
    rw [Outcome.foldl, Outcome.bind_eq_ok] at h
    obtain ⟨next, hfirst, hrest⟩ := h
    obtain ⟨_, canonical, hresolved, _, rfl⟩ := addExecutable_eq_ok.mp hfirst
    rw [ih hrest, Std.ExtTreeSet.mem_insert]
    simp only [Std.LawfulEqCmp.compare_eq_iff_eq, List.mem_cons, exists_eq_or_imp, hresolved,
      Except.ok.injEq]
    tauto

/-- **What a constructed catalog authorizes**: the canonical resources of its identifiers, and no
others. -/
theorem ProcessExecutionAuthorization.authorizesResource_iff {process : ProcessResourceResolver}
    {authorization : ProcessExecutionAuthorization}
    (h : new E process logicalIds = .ok authorization)
    (resource : String) : authorization.authorizesResource resource = true ↔
      ∃ logicalId ∈ logicalIds, process.resolve processExecuteScope logicalId = .ok resource := by
  simp only [new, Outcome.bind_eq_ok, Outcome.exists_unit, Outcome.pure_eq_ok] at h
  obtain ⟨⟨ids, resources⟩, hfold, _, _, rfl⟩ := h
  rw [authorizesResource, Std.ExtTreeSet.contains_iff_mem,
    addExecutables_resources hfold]
  simp

end

end Xgeny
