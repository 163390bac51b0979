import Xgeny.Admission.DecisionSchema

set_option autoImplicit false

/-!
# Workspace paths

A resource of a workspace is `workspace:<id>` for its root, or `workspace:<id>/<relative path>`. The
resolver accepts a relative path or a canonical resource and returns the canonical resource; the
adapters read the relative path back.

* `WorkspaceId`: identities that passed their check;
* `validateRelative`, `canonicalResource`, `parseCanonical`: the grammar of the source;
* **`canonicalResource_canonical`**: resolving a canonical resource changes nothing;
* **`parseCanonical_canonical`**: a canonical resource can be read back;
* **`resource_bound_iff`**: which canonical resources fit the wire format.
-/

namespace Xgeny

/-! ## Texts -/

/-- `str::strip_prefix`, with the rest as a text. -/
def stripText (pre s : String) : Option String :=
  (s.toList.dropPrefix? pre.toList).map String.ofList

/-- `str::split` at a character. -/
def splitText (separator : Char) (s : String) : List String :=
  (s.toList.splitOn separator).map String.ofList

/-- `char::to_uppercase`, as far as it yields ASCII letters. No other character has an upper case that
spells a device name. -/
def toUppercase (c : Char) : List Char :=
  if 'a' ≤ c ∧ c ≤ 'z' then [Char.ofNat (c.toNat - 32)]
  else match c.toNat with
    | 0x131 => ['I']
    | 0x17f => ['S']
    | 0xdf => ['S', 'S']
    | 0xfb00 => ['F', 'F']
    | 0xfb01 => ['F', 'I']
    | 0xfb02 => ['F', 'L']
    | 0xfb03 => ['F', 'F', 'I']
    | 0xfb04 => ['F', 'F', 'L']
    | 0xfb05 | 0xfb06 => ['S', 'T']
    | _ => [c]

/-! ## Workspaces -/

/-- `WorkspaceId::new`: the bytes allowed at an index. -/
def isWorkspaceByte (byte : UInt8) (index : ℕ) : Bool :=
  (0x61 ≤ byte && byte ≤ 0x7a) || isAsciiDigit byte ||
    (0 < index && (byte == 0x2e || byte == 0x5f || byte == 0x2d))

def isWorkspaceId (value : String) : Bool :=
  value != "" && byteLen value ≤ 64 &&
    (bytes value).zipIdx.all fun entry => isWorkspaceByte entry.1 entry.2

/-- The identity that the host gives a workspace root. -/
structure WorkspaceId where
  value : String
  valid : isWorkspaceId value = true

/-- A text as the identity of a workspace, when it is one. -/
def WorkspaceId.new? (value : String) : Option WorkspaceId :=
  if h : isWorkspaceId value = true then some ⟨value, h⟩ else none

inductive PathError where
  | invalid
  | outsideBoundary
  deriving DecidableEq

def PathError.resolution : PathError → ResourceResolutionFailure
  | .invalid => .invalidResource
  | .outsideBoundary => .outsideHostBoundary

/-- The components of a path below the root of a workspace. -/
structure RelativePath where
  components : List String
  deriving DecidableEq

def canonicalPrefix : String := "workspace:"
def maxRelativePathBytes : ℕ := 4096
def maxComponentBytes : ℕ := 255
def maxComponents : ℕ := 256

/-- `device_numbered`: a prefix followed by one digit or superscript digit. -/
def deviceNumbered (value pre : String) : Bool :=
  (stripText pre value).any fun suffix =>
    ["0", "1", "2", "3", "4", "5", "6", "7", "8", "9", "⁰", "¹", "²", "³"].contains suffix

def isWindowsDeviceName (component : String) : Bool :=
  let stem := ((splitText '.' component).headD component).toList
  let trimmed := (stem.reverse.dropWhile (· == ' ')).reverse
  let upper := String.ofList (trimmed.flatMap toUppercase)
  ["CON", "PRN", "AUX", "NUL", "CLOCK$", "CONIN$", "CONOUT$"].contains upper ||
    deviceNumbered upper "COM" || deviceNumbered upper "LPT"

/-- The characters that no component has. -/
def isForbidden (c : Char) : Bool :=
  isControl c || ['\\', ':', '<', '>', '"', '|', '?', '*'].contains c

def validateComponent (component : String) : Outcome PathError Unit := do
  Outcome.failIf (component = "" ∨ maxComponentBytes < byteLen component) .invalid
  Outcome.failIf (component = "..") .outsideBoundary
  Outcome.failIf (component = ".") .invalid
  Outcome.failIf (component.toList.head? = some ' ' ∨ component.toList.getLast? = some ' ' ∨
    component.toList.getLast? = some '.') .invalid
  Outcome.failIf (component.toList.any isForbidden = true) .outsideBoundary
  Outcome.failIf (isWindowsDeviceName component = true) .invalid

/-- One component of `validate_relative`. -/
def pushComponent (components : List String) (component : String) :
    Outcome PathError (List String) := do
  Outcome.failIf (components.length = maxComponents) .invalid
  validateComponent component
  pure (components ++ [component])

def validateRelative (relative : String) : Outcome PathError (List String) := do
  Outcome.failIf (relative = "" ∨ maxRelativePathBytes < byteLen relative) .invalid
  Outcome.failIf (relative.toList.head? = some '/' ∨ relative.toList.head? = some '\\')
    .outsideBoundary
  Outcome.foldl pushComponent [] (splitText '/' relative)

def canonicalRoot (workspaceId : WorkspaceId) : String := canonicalPrefix ++ workspaceId.value

/-- The relative part of a resource, which is the resource itself when it is not canonical. -/
def relativePart (workspaceId : WorkspaceId) (resource : String) : String :=
  (stripText (canonicalRoot workspaceId ++ "/") resource).getD resource

def canonicalResource (workspaceId : WorkspaceId) (resource : String) : Outcome PathError String :=
  if resource = "." ∨ resource = canonicalRoot workspaceId then pure (canonicalRoot workspaceId)
  else do
    Outcome.failIf ((stripText (canonicalRoot workspaceId ++ "/") resource).isNone ∧
      (stripText canonicalPrefix resource).isSome) .outsideBoundary
    let _ ← validateRelative (relativePart workspaceId resource)
    pure (canonicalRoot workspaceId ++ "/" ++ relativePart workspaceId resource)

def parseCanonical (workspaceId : WorkspaceId) (resource : String) :
    Outcome PathError RelativePath :=
  if resource = canonicalRoot workspaceId then pure ⟨[]⟩
  else do
    let relative ← Outcome.okOr (stripText (canonicalRoot workspaceId ++ "/") resource)
      .outsideBoundary
    let components ← validateRelative relative
    pure ⟨components⟩

namespace RelativePath

def join (self : RelativePath) (component : String) : Outcome PathError RelativePath := do
  validateComponent component
  Outcome.failIf (self.components.length = maxComponents) .invalid
  let components := self.components ++ [component]
  Outcome.failIf (maxRelativePathBytes < (components.map byteLen).sum + (components.length - 1))
    .invalid
  pure ⟨components⟩

def display (self : RelativePath) : String :=
  if self.components = [] then "." else "/".intercalate self.components

end RelativePath

/-- `WorkspaceResourceResolver::resolve`; the path grammar does not panic. -/
def workspaceResolver (workspaceId : WorkspaceId) : ResourceResolver := fun scope resource =>
  if scope = "filesystem.read" ∨ scope = "filesystem.write" then
    match canonicalResource workspaceId resource with
    | .ok canonical => .ok canonical
    | .error (.err e) => .error e.resolution
    | .error (.panic _) => .error .resolverUnavailable
  else .error .unsupportedScope

/-! ## The grammar -/

theorem stripText_append (pre s : String) : stripText pre (pre ++ s) = some s := by
  have hdrop : (pre ++ s).toList.dropPrefix? pre.toList = some s.toList :=
    List.dropPrefix?_eq_some_iff.mpr ⟨pre.toList, by simp, beq_self_eq_true _⟩
  rw [stripText, hdrop, Option.map_some, String.ofList_toList]

theorem stripText_eq_some {pre s rest : String} : stripText pre s = some rest ↔ s = pre ++ rest := by
  constructor
  · intro h
    obtain ⟨l, hl, rfl⟩ := Option.map_eq_some_iff.mp h
    obtain ⟨p, hp, heq⟩ := List.dropPrefix?_eq_some_iff.mp hl
    obtain rfl : p = pre.toList := by simpa using heq
    rw [← String.ofList_toList (s := s), hp, String.ofList_append, String.ofList_toList]
  · rintro rfl
    exact stripText_append pre rest

theorem pushComponent_eq_ok {seen result : List String} {component : String} :
    pushComponent seen component = .ok result ↔ seen.length ≠ maxComponents ∧
      validateComponent component = .ok () ∧ result = seen ++ [component] := by
  simp only [pushComponent, Outcome.bind_eq_ok, Outcome.exists_unit, Outcome.failIf_eq_ok,
    Outcome.pure_eq_ok, ne_eq, eq_comm (a := result)]

theorem pushComponents_eq_ok {result components : List String} : ∀ {seen : List String},
    seen.length ≤ maxComponents →
      (Outcome.foldl pushComponent seen components = .ok result ↔ result = seen ++ components ∧
        result.length ≤ maxComponents ∧ ∀ c ∈ components, validateComponent c = .ok ()) := by
  induction components with
  | nil =>
    intro seen hseen
    simp only [Outcome.foldl, Except.ok.injEq, List.append_nil, List.not_mem_nil,
      IsEmpty.forall_iff, implies_true, and_true]
    constructor
    · rintro rfl
      exact ⟨rfl, hseen⟩
    · exact fun h => h.1.symm
  | cons component rest ih =>
    intro seen hseen
    simp only [Outcome.foldl, Outcome.bind_eq_ok, pushComponent_eq_ok, List.forall_mem_cons]
    constructor
    · rintro ⟨_, ⟨hfull, hvalid, rfl⟩, hrest⟩
      have hlen : (seen ++ [component]).length ≤ maxComponents := by
        rw [List.length_append, List.length_singleton]
        omega
      obtain ⟨rfl, hbound, hall⟩ := (ih hlen).mp hrest
      exact ⟨List.append_cons .. ▸ rfl, hbound, hvalid, hall⟩
    · rintro ⟨rfl, hbound, hvalid, hall⟩
      have hlen : (seen ++ [component]).length ≤ maxComponents := by
        rw [List.append_cons, List.length_append] at hbound
        omega
      refine ⟨_, ⟨?_, hvalid, rfl⟩, (ih hlen).mpr ⟨List.append_cons .., hbound, hall⟩⟩
      rw [List.length_append, List.length_singleton] at hlen
      omega

theorem validateRelative_eq_ok {relative : String} {components : List String} :
    validateRelative relative = .ok components ↔
      (relative ≠ "" ∧ byteLen relative ≤ maxRelativePathBytes) ∧
        (relative.toList.head? ≠ some '/' ∧ relative.toList.head? ≠ some '\\') ∧
        components = splitText '/' relative ∧ components.length ≤ maxComponents ∧
        ∀ c ∈ splitText '/' relative, validateComponent c = .ok () := by
  simp only [validateRelative, Outcome.bind_eq_ok, Outcome.exists_unit, Outcome.failIf_eq_ok,
    not_or, not_lt, ne_eq, pushComponents_eq_ok (List.length_nil.trans_le (Nat.zero_le maxComponents)), List.nil_append]

section

variable {workspaceId : WorkspaceId} {resource canonical : String}

theorem relativePart_append (relative : String) :
    relativePart workspaceId (canonicalRoot workspaceId ++ "/" ++ relative) = relative := by
  rw [relativePart, stripText_append, Option.getD_some]

theorem canonicalResource_eq_ok (h : canonicalResource workspaceId resource = .ok canonical) :
    ((resource = "." ∨ resource = canonicalRoot workspaceId) ∧
        canonical = canonicalRoot workspaceId) ∨
      ((resource ≠ "." ∧ resource ≠ canonicalRoot workspaceId) ∧
        (∃ components, validateRelative (relativePart workspaceId resource) = .ok components) ∧
        canonical = canonicalRoot workspaceId ++ "/" ++ relativePart workspaceId resource) := by
  unfold canonicalResource at h
  split at h
  · rename_i hroot
    exact Or.inl ⟨hroot, (Outcome.pure_eq_ok.mp h).symm⟩
  · rename_i hroot
    simp only [Outcome.bind_eq_ok, Outcome.pure_eq_ok] at h
    obtain ⟨_, _, components, hvalid, rfl⟩ := h
    exact Or.inr ⟨not_or.mp hroot, ⟨components, hvalid⟩, rfl⟩

theorem root_ne_append {relative : String} :
    canonicalRoot workspaceId ++ "/" ++ relative ≠ canonicalRoot workspaceId := by
  intro heq
  have hlen := congrArg String.length heq
  rw [String.length_append, String.length_append] at hlen
  have hslash : "/".length = 1 := by decide
  omega

theorem canonical_ne_dot {tail : String} : canonicalRoot workspaceId ++ tail ≠ "." := by
  intro heq
  have hlen := congrArg String.length heq
  rw [canonicalRoot, String.length_append, String.length_append] at hlen
  have hprefix : canonicalPrefix.length = 10 := by decide
  have hdot : ".".length = 1 := by decide
  omega

/-- **Resolving is idempotent.** -/
theorem canonicalResource_canonical (h : canonicalResource workspaceId resource = .ok canonical) :
    canonicalResource workspaceId canonical = .ok canonical := by
  rcases canonicalResource_eq_ok h with ⟨_, rfl⟩ | ⟨_, ⟨components, hvalid⟩, rfl⟩
  · rw [canonicalResource, if_pos (Or.inr rfl)]
    rfl
  · rw [canonicalResource, if_neg, relativePart_append, stripText_append]
    · simp [hvalid, Outcome.failIf]
    · rw [not_or, String.append_assoc]
      exact ⟨canonical_ne_dot, String.append_assoc .. ▸ root_ne_append⟩

/-- **A canonical resource can be read back**, and only the root has no components. -/
theorem parseCanonical_canonical (h : canonicalResource workspaceId resource = .ok canonical) :
    ∃ path, parseCanonical workspaceId canonical = .ok path ∧
      (path.components = [] ↔ canonical = canonicalRoot workspaceId) := by
  rcases canonicalResource_eq_ok h with ⟨_, rfl⟩ | ⟨_, ⟨components, hvalid⟩, rfl⟩
  · exact ⟨⟨[]⟩, by rw [parseCanonical, if_pos rfl]; rfl, by simp⟩
  · refine ⟨⟨components⟩, ?_, ?_⟩
    · rw [parseCanonical, if_neg root_ne_append, stripText_append]
      simp [Outcome.okOr, hvalid]
    · obtain ⟨_, _, rfl, _⟩ := validateRelative_eq_ok.mp hvalid
      simp [root_ne_append, splitText]

/-! ## The wire format -/

theorem length_canonicalRoot : (canonicalRoot workspaceId).length = 10 + workspaceId.value.length := by
  rw [canonicalRoot, String.length_append]
  rfl

theorem WorkspaceId.length_le (self : WorkspaceId) : self.value.length ≤ 64 := by
  have hvalid := self.valid
  simp only [isWorkspaceId, Bool.and_eq_true, decide_eq_true_eq] at hvalid
  exact (length_le_byteLen self.value).trans hvalid.1.2

theorem fitsWire_canonical (h : canonicalResource workspaceId resource = .ok canonical) :
    FitsWire canonical ↔ resource = "." ∨ resource = canonicalRoot workspaceId ∨
      workspaceId.value.length + (relativePart workspaceId resource).length ≤ 4085 := by
  have hid := workspaceId.length_le
  rcases canonicalResource_eq_ok h with ⟨hroot, rfl⟩ | ⟨⟨hdot, hroot⟩, _, rfl⟩
  · rw [FitsWire, length_canonicalRoot]
    refine ⟨fun _ => hroot.imp_right Or.inl, fun _ => by omega⟩
  · have hslash : "/".length = 1 := by decide
    rw [FitsWire, String.length_append, String.length_append, length_canonicalRoot]
    simp only [hdot, hroot, false_or]
    omega

/-- **Which canonical resources fit the wire format.** The grammar bounds the relative part alone, in
bytes; the wire format bounds the whole resource, in characters. A prepared request that the layers
allow is refused by the schema of its decision exactly for a resource beyond the bound. -/
theorem resource_bound_iff (h : canonicalResource workspaceId resource = .ok canonical) :
    (FitsWire canonical ↔ resource = "." ∨ resource = canonicalRoot workspaceId ∨
        workspaceId.value.length + (relativePart workspaceId resource).length ≤ 4085) ∧
      ∀ (D : Digests) (build : Json → Option Validator) (F : Formats) (registry : CapabilityRegistry)
        (resolver : ResourceResolver) (request : ResolvedPermissionRequest)
        (authorization : ProvisionalAuthorization) (sources : List PolicySource)
        (evidenceDigest decidedAt : String),
        registry.ScopesValidated →
        AllowedRequest D (.bundled build F) registry resolver request authorization sources
          evidenceDigest →
        F.dateTime decidedAt = true →
        (policyDecisionCommitment D (.bundled build F) request authorization sources evidenceDigest
            decidedAt = Outcome.fail .policyDecisionInvalid ↔
          ∃ r ∈ request.resources, ¬ FitsWire r.canonicalResource) ∧
        ((∀ r ∈ request.resources, r.canonicalResource = canonical) →
          (policyDecisionCommitment D (.bundled build F) request authorization sources evidenceDigest
              decidedAt = Outcome.fail .policyDecisionInvalid ↔
            ¬ (resource = "." ∨ resource = canonicalRoot workspaceId ∨
              workspaceId.value.length + (relativePart workspaceId resource).length ≤ 4085))) := by
  refine ⟨fitsWire_canonical h, fun D build F registry resolver request authorization sources
    evidenceDigest decidedAt hregistry hrequest hdecided => ?_⟩
  have hrefuses := policyDecisionCommitment_refuses_iff hregistry hrequest hdecided
  refine ⟨hrefuses, fun hsame => ?_⟩
  rw [hrefuses, ← fitsWire_canonical h]
  constructor
  · rintro ⟨r, hr, hlong⟩
    exact hsame r hr ▸ hlong
  · intro hlong
    obtain ⟨r, hr⟩ := List.exists_mem_of_ne_nil _ (hrequest.grantable hregistry).resources
    exact ⟨r, hr, (hsame r hr).symm ▸ hlong⟩

end

/-- A component of 255 letters. -/
def longComponent : List Char := List.replicate 255 'a'

/-- Sixteen of them. -/
def longPath : String := String.ofList (['/'].intercalate (List.replicate 16 longComponent))

theorem length_longComponent : longComponent.length = 255 := List.length_replicate

theorem not_mem_longComponent {c : Char} (h : c ≠ 'a') : c ∉ longComponent := fun hc =>
  h (List.eq_of_mem_replicate hc)

theorem toUppercase_replicate (n : ℕ) :
    (List.replicate n 'a').flatMap toUppercase = List.replicate n 'A' := by
  have hletter : toUppercase 'a' = ['A'] := by decide
  rw [List.flatMap_replicate, hletter, List.flatten_replicate_singleton]

theorem isWindowsDeviceName_letters {n : ℕ} (h : 7 < n) :
    isWindowsDeviceName (String.ofList (List.replicate n 'a')) = false := by
  have hdot : '.' ∉ List.replicate n 'a' := fun hc =>
    absurd (List.eq_of_mem_replicate hc) (by decide)
  have htrim : (List.replicate n 'a').dropWhile (· == ' ') = List.replicate n 'a' := by
    rw [List.dropWhile_replicate, if_neg (by decide)]
  have hstrip : ∀ pre : String, pre.toList.head? ≠ some 'A' → pre ≠ "" →
      deviceNumbered (String.ofList (List.replicate n 'A')) pre = false := by
    intro pre hpre hne
    have hnone : stripText pre (String.ofList (List.replicate n 'A')) = none := by
      rw [Option.eq_none_iff_forall_ne_some]
      intro rest hrest
      have hlist := congrArg (List.head? ∘ String.toList) (stripText_eq_some.mp hrest)
      simp only [Function.comp_apply, String.toList_ofList, String.toList_append,
        List.head?_append, List.head?_replicate, if_neg (show n ≠ 0 by omega)] at hlist
      rcases hp : pre.toList with _ | ⟨c, cs⟩
      · exact hne (String.toList_eq_nil_iff.mp hp)
      · rw [hp] at hlist hpre
        exact hpre (by simpa using hlist.symm)
    rw [deviceNumbered, hnone, Option.any_none]
  have hnames : ["CON", "PRN", "AUX", "NUL", "CLOCK$", "CONIN$", "CONOUT$"].contains
      (String.ofList (List.replicate n 'A')) = false := by
    rw [Bool.eq_false_iff, ne_eq, List.contains_iff_mem]
    intro hmem
    have hshort : ∀ name ∈ ["CON", "PRN", "AUX", "NUL", "CLOCK$", "CONIN$", "CONOUT$"],
        name.length ≤ 7 := by decide
    have hle := hshort _ hmem
    rw [String.length_ofList, List.length_replicate] at hle
    omega
  simp only [isWindowsDeviceName, splitText, String.toList_ofList,
    List.splitOn_eq_singleton hdot, List.map_cons, List.map_nil, List.headD_cons,
    List.reverse_replicate, htrim, toUppercase_replicate, hnames,
    hstrip "COM" (by decide) (by decide), hstrip "LPT" (by decide) (by decide), Bool.or_self]

theorem validateComponent_longComponent :
    validateComponent (String.ofList longComponent) = .ok () := by
  have hne : ∀ {s : String}, s.length ≠ 255 → String.ofList longComponent ≠ s := by
    rintro s hs rfl
    rw [String.length_ofList, length_longComponent] at hs
    exact hs rfl
  have hbytes : byteLen (String.ofList longComponent) = 255 := by
    rw [byteLen_ofList, longComponent, List.map_replicate, List.sum_replicate]
    decide
  have hdevice : isWindowsDeviceName (String.ofList longComponent) = false :=
    isWindowsDeviceName_letters (by decide)
  simp only [validateComponent, Outcome.bind_eq_ok, Outcome.exists_unit, Outcome.failIf_eq_ok,
    hbytes, hdevice, String.toList_ofList]
  refine ⟨?_, hne (by decide), hne (by decide), by decide +kernel, by decide +kernel, by simp⟩
  rw [not_or]
  exact ⟨hne (by decide), by decide⟩

theorem length_longPath : longPath.length = 4095 := by
  rw [longPath, String.length_ofList]
  decide +kernel

theorem splitText_longPath :
    splitText '/' longPath = List.replicate 16 (String.ofList longComponent) := by
  have hslash : ∀ l ∈ List.replicate 16 longComponent, '/' ∉ l := fun l hl =>
    List.eq_of_mem_replicate hl ▸ not_mem_longComponent (by decide)
  rw [splitText, longPath, String.toList_ofList, List.splitOn_intercalate _ hslash (by simp),
    List.map_replicate]

/-- A workspace identity of one letter. -/
def sampleWorkspace : WorkspaceId := ⟨"a", by decide +kernel⟩

theorem head_longPath : longPath.toList.head? = some 'a' := by
  rw [longPath, String.toList_ofList]
  decide

theorem stripText_longPath {pre : String} (hpre : pre.toList.head? = some 'w') :
    stripText pre longPath = none := by
  rw [Option.eq_none_iff_forall_ne_some]
  intro rest hrest
  have hstart := head_longPath
  rw [stripText_eq_some.mp hrest, String.toList_append, List.head?_append, hpre] at hstart
  simp at hstart

theorem relativePart_longPath : relativePart sampleWorkspace longPath = longPath := by
  rw [relativePart, stripText_longPath (by decide)]
  rfl

theorem longPath_ne_root : longPath ≠ "." ∧ longPath ≠ canonicalRoot sampleWorkspace := by
  have hlen := length_longPath
  constructor <;> intro heq <;> rw [heq] at hlen <;> revert hlen <;> decide

theorem canonicalResource_longPath : canonicalResource sampleWorkspace longPath =
    .ok (canonicalRoot sampleWorkspace ++ "/" ++ longPath) := by
  have hstart := head_longPath
  have hbytes : byteLen longPath ≤ maxRelativePathBytes := by
    rw [longPath, byteLen_ofList]
    decide +kernel
  have hvalid : validateRelative longPath = .ok (splitText '/' longPath) := by
    refine validateRelative_eq_ok.mpr ⟨⟨?_, hbytes⟩, by simp [hstart], rfl, ?_, ?_⟩
    · rintro hempty
      simp [hempty] at hstart
    · rw [splitText_longPath, List.length_replicate]
      decide
    · intro c hc
      rw [splitText_longPath] at hc
      rw [List.eq_of_mem_replicate hc]
      exact validateComponent_longComponent
  rw [canonicalResource, if_neg (not_or.mpr longPath_ne_root), relativePart_longPath, hvalid,
    stripText_longPath (by decide), stripText_longPath (by decide)]
  simp [Outcome.failIf]

/-- A canonical resource may be too long for the wire format. -/
theorem oversized_resource : ¬ ∀ (workspaceId : WorkspaceId) (resource canonical : String),
    canonicalResource workspaceId resource = .ok canonical → FitsWire canonical := by
  intro hall
  have hfits := (hall _ _ _ canonicalResource_longPath).2
  rw [String.length_append, String.length_append, length_canonicalRoot, length_longPath] at hfits
  omega

/-- The canonical form of the long path. -/
def longCanonical : String := canonicalRoot sampleWorkspace ++ "/" ++ longPath

/-- A definition that reads one resource of the workspace. -/
def statDefinition : CapabilityDefinitionBody :=
  { pathDefinition with
    metadata := ⟨"xgeny.fs/stat", "1.0.0", "Stat", ∅⟩
    spec := { pathDefinition.spec with
      effect := ⟨.readOnly, [⟨"filesystem.read", "/path"⟩], []⟩ } }

def statRegistry : CapabilityRegistry where
  definitions := (∅ : BTreeMap DefinitionKey CapabilityDefinitionBody).insert
    statDefinition.reference.key statDefinition
  instances := ∅

/-- The workspace resolver on the root and on the long path. -/
def longResolver : ResourceResolver := fun _ raw =>
  if raw = "." then .ok (canonicalRoot sampleWorkspace)
  else if raw = longPath then .ok longCanonical else .error .invalidResource

theorem longResolver_canonical {scope raw canonical : String}
    (h : longResolver scope raw = .ok canonical) :
    canonicalResource sampleWorkspace raw = .ok canonical := by
  unfold longResolver at h
  split at h
  · rename_i hdot
    rw [← Except.ok.inj h, canonicalResource, if_pos (Or.inl hdot)]
    rfl
  · split at h
    · rename_i hlong
      rw [← Except.ok.inj h, hlong]
      exact canonicalResource_longPath
    · cases h

def statHash : Sha256Hex :=
  ⟨"bbbbbbbbbbbbbbbbbbbbbbbbbbbbbbbbbbbbbbbbbbbbbbbbbbbbbbbbbbbbbbbb", by decide +kernel⟩

/-- An encoder that writes every document alike. -/
def statDigests : Digests where
  canonicalize _ := .ok ⟨64, statHash⟩

def statFormats : Formats where
  dateTime value := value == "2026-01-01T00:00:00Z"
  uri _ := true

/-- The policy layers allow what is asked of them. -/
def statInputs (request : ResolvedPermissionRequest) : PolicyInputs where
  request := request
  layers :=
    let allowance : PolicyAllowance :=
      { scopes := Std.ExtTreeSet.ofList request.requestedScopes compare
        resources := Std.ExtTreeSet.ofList (request.resources.map ConcreteResource.key) compare
        criticalActions := []
        lifetimes := [.once] }
    .localHost ⟨⟨.host, "host", sha256Digest statHash⟩, .allow allowance⟩
      ⟨⟨.userProfile, "user", sha256Digest statHash⟩, .allow allowance⟩

/-- The schemas of the sample: a definition accepts every value. -/
def statSchemas : Schemas := .bundled (fun _ => some ⟨fun _ => []⟩) statFormats

/-- The facts of one path. -/
def statFacts (raw : String) : Outcome AdmissionError PreparedInvocationFacts :=
  prepareInvocationFacts statDigests statSchemas "run-1" "step-1" statDefinition.reference
    (.object [("path", .string raw)]) statRegistry longResolver

theorem statSelected {raw canonical : String} (hraw : raw ≠ "") (hcanonical : canonical ≠ "")
    (hresolves : longResolver "filesystem.read" raw = .ok canonical) :
    resolveSelectedResource longResolver (.object [("path", .string raw)])
      ⟨"filesystem.read", "/path"⟩ = .ok canonical := by
  have hpointer : (Json.object [("path", .string raw)]).pointer "/path" = some (.string raw) := rfl
  simp [resolveSelectedResource, hpointer, Outcome.okOr, Json.asStr, hraw, hcanonical, hresolves,
    Outcome.failIf, bind, Except.bind, pure, Except.pure]

theorem statDerived {raw canonical : String} (hraw : raw ≠ "") (hcanonical : canonical ≠ "")
    (hresolves : longResolver "filesystem.read" raw = .ok canonical) :
    deriveInvocationResources longResolver statDefinition (.object [("path", .string raw)]) =
      .ok ⟨.object [("path", .string canonical)], ["filesystem.read"],
        [⟨"filesystem.read", canonical⟩]⟩ := by
  have hstep : resolveSelector longResolver (.object [("path", .string raw)]) {}
      ⟨"filesystem.read", "/path"⟩ = .ok ⟨(∅ : BTreeSet String).insert "filesystem.read",
        (∅ : BTreeSet (String ×ₗ String)).insert (toLex ("filesystem.read", canonical)),
        (∅ : BTreeMap String String).insert "/path" canonical⟩ := by
    rw [resolveSelector, statSelected hraw hcanonical hresolves]
    rfl
  refine deriveInvocationResources_eq_ok.mpr ⟨⟨(∅ : BTreeSet String).insert "filesystem.read",
    (∅ : BTreeSet (String ×ₗ String)).insert (toLex ("filesystem.read", canonical)),
    (∅ : BTreeMap String String).insert "/path" canonical⟩, ?_, ?_, rfl, rfl⟩
  · show Outcome.foldl (resolveSelector longResolver (.object [("path", .string raw)])) {}
      [⟨"filesystem.read", "/path"⟩] = _
    rw [Outcome.foldl, hstep]
    rfl
  · have hset : (Json.object [("path", .string raw)]).setPointer "/path" (.string canonical) =
        some (.object [("path", .string canonical)]) := rfl
    show Outcome.foldl normalizeResourceArgument (.object [("path", .string raw)])
      [("/path", canonical)] = _
    rw [Outcome.foldl, normalizeResourceArgument, hset]
    rfl

/-- The request of one path. -/
def statRequest (canonical : String) : ResolvedPermissionRequest where
  apiVersion := apiVersionV1alpha1
  requestId := contentId "permission" (sha256Digest statHash)
  runId := "run-1"
  stepId := "step-1"
  capability := statDefinition.reference
  effectClass := .readOnly
  requestedScopes := ["filesystem.read"]
  resources := [⟨"filesystem.read", canonical⟩]
  criticalActions := []
  requestedLifetime := .once

theorem statFacts_eq {raw canonical : String} (hraw : raw ≠ "") (hcanonical : canonical ≠ "")
    (hresolves : longResolver "filesystem.read" raw = .ok canonical) :
    ∃ facts, statFacts raw = .ok facts ∧ facts.permissionRequest = statRequest canonical := by
  have hresolved : resolveInvocation longResolver (contentId "permission" (sha256Digest statHash))
      "run-1" "step-1" statDefinition (.object [("path", .string raw)]) .once =
        .ok ⟨statRequest canonical, .object [("path", .string canonical)]⟩ := by
    rw [resolveInvocation, statDerived hraw hcanonical hresolves]
    rfl
  refine ⟨⟨.object [("path", .string canonical)], statRequest canonical, sha256Digest statHash,
    sha256Digest statHash, sha256Digest statHash⟩, ?_, rfl⟩
  simp only [statFacts, prepareInvocationFacts, Outcome.bind_eq_ok, Outcome.exists_unit,
    Outcome.mapErr_eq_ok, Outcome.okOr_eq_ok, Outcome.failIf_eq_ok, Outcome.pure_eq_ok]
  exact ⟨statDefinition, rfl, _, rfl, by decide, rfl, _, rfl, _, hresolved, rfl, _, rfl, _, rfl, _,
    rfl, rfl⟩

theorem statRequest_evaluates (canonical : String) :
    evaluate (statRequest canonical) (statInputs (statRequest canonical)) =
      .ok (.allow ⟨.once, ["filesystem.read"], [⟨"filesystem.read", canonical⟩], []⟩
        [⟨.host, "host", sha256Digest statHash⟩, ⟨.userProfile, "user", sha256Digest statHash⟩]) := by
  have hlayer : ∀ kind id allowance, id = "host" ∨ id = "user" → validateContribution kind
      ⟨⟨kind, id, sha256Digest statHash⟩, .allow allowance⟩ = .ok () := by
    rintro kind _ allowance (rfl | rfl) <;>
      simp [validateContribution, isSha256Digest_sha256Digest, ContributionVerdict.reason] <;> decide
  have hvalid : Outcome.forEach (statInputs (statRequest canonical)).ordered
      (fun layer => validateContribution layer.1 layer.2) = .ok () := by
    simp [PolicyInputs.ordered, statInputs, hlayer]
  have hdenials : (statInputs (statRequest canonical)).ordered.flatMap
      (denyReasons (statRequest canonical)) = [] := by
    simp [PolicyInputs.ordered, statInputs, denyReasons, coverageDenials, statRequest]
  have hquestions : (statInputs (statRequest canonical)).ordered.flatMap askReasons ++
      criticalReasons (statRequest canonical) = [] := rfl
  have hrequest : (statInputs (statRequest canonical)).request = statRequest canonical := rfl
  have hfits : Outcome.failIf (statRequest canonical ≠ statRequest canonical)
      BrokerError.policyRequestMismatch = .ok () := if_neg (not_not.mpr rfl)
  simp only [evaluate, hrequest, hfits, hvalid, hdenials, hquestions]
  rfl

theorem statRequest_allowed {raw canonical : String} (hraw : raw ≠ "") (hcanonical : canonical ≠ "")
    (hresolves : longResolver "filesystem.read" raw = .ok canonical) :
    AllowedRequest statDigests statSchemas statRegistry longResolver (statRequest canonical)
      ⟨.once, ["filesystem.read"], [⟨"filesystem.read", canonical⟩], []⟩
      [⟨.host, "host", sha256Digest statHash⟩, ⟨.userProfile, "user", sha256Digest statHash⟩]
      (sha256Digest statHash) := by
  obtain ⟨facts, hfacts, hrequest⟩ := statFacts_eq hraw hcanonical hresolves
  refine ⟨⟨_, _, _, _, facts, hfacts, hrequest⟩, ⟨_, statRequest_evaluates canonical⟩, ?_⟩
  simp only [policyEvidenceDigest, Outcome.bind_eq_ok, Outcome.exists_unit, Outcome.failIf_eq_ok]
  exact ⟨by simp [statRequest], rfl⟩

theorem statRegistry_scopes : statRegistry.ScopesValidated := by
  intro capability definition hdefinition selector hselector
  have hstat : definition = statDefinition := by
    rw [CapabilityRegistry.definition, statRegistry, BTreeMap.get_insert] at hdefinition
    split at hdefinition
    · exact (Option.some.inj hdefinition).symm
    · simp at hdefinition
  rw [hstat] at hselector
  obtain rfl := List.mem_singleton.mp hselector
  decide

/-- The decision of the sample on one canonical resource. -/
def statCommitment (canonical : String) : Outcome AdmissionError (String × String) :=
  policyDecisionCommitment statDigests statSchemas (statRequest canonical)
    ⟨.once, ["filesystem.read"], [⟨"filesystem.read", canonical⟩], []⟩
    [⟨.host, "host", sha256Digest statHash⟩, ⟨.userProfile, "user", sha256Digest statHash⟩]
    (sha256Digest statHash) "2026-01-01T00:00:00Z"

/-- The long path is canonical, does not fit, and its decision is refused; the decision on the root
is not. -/
theorem resource_bound_iff_sample : ¬ FitsWire longCanonical ∧
    statCommitment longCanonical = Outcome.fail .policyDecisionInvalid ∧
      statCommitment (canonicalRoot sampleWorkspace) ≠ Outcome.fail .policyDecisionInvalid := by
  have hlong : ¬ (longPath = "." ∨ longPath = canonicalRoot sampleWorkspace ∨
      sampleWorkspace.value.length + (relativePart sampleWorkspace longPath).length ≤ 4085) := by
    rw [relativePart_longPath, length_longPath]
    rintro (heq | heq | hle)
    · exact longPath_ne_root.1 heq
    · exact longPath_ne_root.2 heq
    · omega
  have hempty : longPath ≠ "" := fun heq => absurd (heq ▸ length_longPath) (by decide)
  have hcanonical : longCanonical ≠ "" := by simp [longCanonical, hempty]
  have hresolves : longResolver "filesystem.read" longPath = .ok longCanonical := by
    rw [longResolver, if_neg longPath_ne_root.1, if_pos rfl]
  have hroot : canonicalResource sampleWorkspace "." = .ok (canonicalRoot sampleWorkspace) :=
    @longResolver_canonical "filesystem.read" _ _ rfl
  refine ⟨(resource_bound_iff canonicalResource_longPath).1.not.mpr hlong, ?_, fun hrefused => ?_⟩
  · refine (((resource_bound_iff canonicalResource_longPath).2 _ _ _ _ _ _ _ _ _ _
      statRegistry_scopes (statRequest_allowed hempty hcanonical hresolves) rfl).2 ?_).mpr hlong
    simp [statRequest, longCanonical]
  · refine (((resource_bound_iff hroot).2 _ _ _ _ _ _ _ _ _ _ statRegistry_scopes
      (@statRequest_allowed "." _ (by decide) (by decide) rfl) rfl).2 ?_).mp hrefused
        (Or.inl rfl)
    simp [statRequest]

end Xgeny
