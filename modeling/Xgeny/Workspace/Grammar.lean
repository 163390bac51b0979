import Mathlib.Data.List.TakeWhile
import Xgeny.Runtime.Operations
import Xgeny.Workspace.Paths

set_option autoImplicit false

/-!
# The grammar of resources

A canonical resource stands for a list of components. The functions of the source read texts; here each
of them is given by the lists that it accepts.

* `IsPath`, `resourceOf`: the lists of components, and the canonical text of one;
* `validateRelative_iff`, `parseCanonical_iff`, `canonicalResource_iff`: the three readers;
* `resourceOf_injective`: a text stands for one workspace and one list;
* `ProcessPath.parseRelative`: the grammar of the process adapter;
* **`path_round_trip`**: the readers agree.
-/

namespace Xgeny

/-! ## Joined components -/

/-- Components with `/` between them. -/
def joined (components : List String) : String := "/".intercalate components

theorem toList_joined (components : List String) :
    (joined components).toList = ['/'].intercalate (components.map String.toList) := by
  induction components with
  | nil => rfl
  | cons component rest ih =>
    cases rest with
    | nil => simp [joined]
    | cons next rest =>
      rw [joined, String.intercalate_cons_cons]
      rw [joined] at ih
      simp only [String.toList_append, ih, List.map_cons, List.intercalate_cons_cons]
      rfl

theorem joined_splitText (s : String) : joined (splitText '/' s) = s := by
  apply String.toList_inj.mp
  rw [toList_joined, splitText, List.map_map]
  have hid : String.toList ∘ String.ofList = id := funext fun l => String.toList_ofList
  rw [hid, List.map_id, List.intercalate_splitOn]

theorem splitText_joined {components : List String} (hne : components ≠ [])
    (hslash : ∀ c ∈ components, '/' ∉ c.toList) : splitText '/' (joined components) = components := by
  have hlists : ∀ l ∈ components.map String.toList, '/' ∉ l := by
    intro l hl
    obtain ⟨c, hc, rfl⟩ := List.mem_map.mp hl
    exact hslash c hc
  rw [splitText, toList_joined, List.splitOn_intercalate '/' hlists (by simpa using hne),
    List.map_map]
  have hid : String.ofList ∘ String.toList = id := funext fun s => String.ofList_toList
  rw [hid, List.map_id]

theorem not_mem_of_mem_splitText {separator : Char} {s component : String}
    (h : component ∈ splitText separator s) : separator ∉ component.toList := by
  obtain ⟨l, hl, rfl⟩ := List.mem_map.mp h
  rw [String.toList_ofList]
  clear h
  generalize s.toList = cs at hl
  induction cs generalizing l with
  | nil =>
    rw [List.splitOn_nil, List.mem_singleton] at hl
    rw [hl]
    exact List.not_mem_nil
  | cons c cs ih =>
    rw [List.splitOn_cons_eq_if_modifyHead] at hl
    split at hl
    · rcases List.mem_cons.mp hl with rfl | hl
      · exact List.not_mem_nil
      · exact ih l hl
    · rename_i hne
      obtain ⟨first, rest, hsplit⟩ := List.exists_cons_of_ne_nil (List.splitOn_ne_nil separator cs)
      rw [hsplit, List.modifyHead_cons] at hl
      rw [hsplit] at ih
      rcases List.mem_cons.mp hl with rfl | hl
      · rw [List.mem_cons, not_or]
        exact ⟨fun heq => hne (by simp [heq]), ih first List.mem_cons_self⟩
      · exact ih l (List.mem_cons_of_mem _ hl)

theorem byteLen_joined (components : List String) : byteLen (joined components) =
    (components.map byteLen).sum + (components.length - 1) := by
  induction components with
  | nil => rfl
  | cons component rest ih =>
    cases rest with
    | nil => simp [joined]
    | cons next rest =>
      have hslash : byteLen "/" = 1 := rfl
      rw [joined, String.intercalate_cons_cons, byteLen_append, byteLen_append, hslash]
      rw [joined] at ih
      rw [ih]
      simp only [List.map_cons, List.sum_cons, List.length_cons]
      omega

/-! ## Paths -/

/-- The components of a path. -/
structure IsPath (components : List String) : Prop where
  valid : ∀ c ∈ components, validateComponent c = .ok ()
  slash : ∀ c ∈ components, '/' ∉ c.toList
  count : components.length ≤ maxComponents
  size : byteLen (joined components) ≤ maxRelativePathBytes

theorem IsPath.nil : IsPath [] where
  valid := by simp
  slash := by simp
  count := Nat.zero_le _
  size := Nat.zero_le _

/-- The canonical resource of a list of components. -/
def resourceOf (workspaceId : WorkspaceId) (components : List String) : String :=
  if components = [] then canonicalRoot workspaceId
  else canonicalRoot workspaceId ++ "/" ++ joined components

/-- What the check of a component leaves out. -/
structure ValidName (component : String) : Prop where
  accepted : validateComponent component = .ok ()
  nonempty : component ≠ ""
  notDot : component ≠ "."
  notDots : component ≠ ".."
  device : isWindowsDeviceName component = false
  slash : '/' ∉ component.toList
  backslash : '\\' ∉ component.toList
  colon : ':' ∉ component.toList
  control : ∀ c ∈ component.toList, isControl c = false

theorem validName_of_validate {component : String} (h : validateComponent component = .ok ())
    (hslash : '/' ∉ component.toList) : ValidName component := by
  have haccepted := h
  simp only [validateComponent, Outcome.bind_eq_ok, Outcome.exists_unit, Outcome.failIf_eq_ok,
    not_or, Bool.not_eq_true, List.any_eq_false] at h
  obtain ⟨⟨hempty, -⟩, hdots, hdot, -, hforbidden, hdevice⟩ := h
  have hlisted : ∀ {c}, ['\\', ':', '<', '>', '"', '|', '?', '*'].contains c = true →
      c ∉ component.toList := by
    intro c hc hmem
    have hfree := hforbidden c hmem
    rw [isForbidden, hc, Bool.or_true] at hfree
    simp at hfree
  refine ⟨haccepted, hempty, hdot, hdots, hdevice, hslash, hlisted rfl, hlisted rfl, ?_⟩
  intro c hc
  have hfree := hforbidden c hc
  rw [isForbidden, Bool.or_eq_false_iff] at hfree
  exact hfree.1

section

variable {components components' : List String} {c : Char}

theorem mem_joined (h : c ∈ (joined components).toList) :
    c = '/' ∨ ∃ component ∈ components, c ∈ component.toList := by
  induction components with
  | nil => simp [joined] at h
  | cons component rest ih =>
    cases rest with
    | nil =>
      rw [joined, String.intercalate_singleton] at h
      exact Or.inr ⟨component, List.mem_singleton_self _, h⟩
    | cons next rest =>
      rw [joined, String.intercalate_cons_cons, String.toList_append, String.toList_append,
        List.mem_append, List.mem_append] at h
      rcases h with (h | h) | h
      · exact Or.inr ⟨component, List.mem_cons_self, h⟩
      · exact Or.inl (by simpa using h)
      · rcases ih h with hc | ⟨other, hother, hc⟩
        · exact Or.inl hc
        · exact Or.inr ⟨other, List.mem_cons_of_mem _ hother, hc⟩

theorem IsPath.name (h : IsPath components) {component : String} (hc : component ∈ components) :
    ValidName component := validName_of_validate (h.valid component hc) (h.slash component hc)

theorem IsPath.colon (h : IsPath components) : ':' ∉ (joined components).toList := by
  intro hmem
  rcases mem_joined hmem with heq | ⟨component, hc, hcolon⟩
  · exact absurd heq (by decide)
  · exact (h.name hc).colon hcolon

theorem IsPath.joined_injective (h : IsPath components) (h' : IsPath components')
    (hne : components ≠ []) (heq : joined components = joined components') :
    components = components' := by
  by_cases hne' : components' = []
  · -- no component is empty, so that the joined text is not
    exfalso
    obtain ⟨first, rest, rfl⟩ := List.exists_cons_of_ne_nil hne
    have hsplit := splitText_joined hne h.slash
    rw [heq, hne'] at hsplit
    have hfirst : first = "" := by
      have hempty : splitText '/' (joined []) = [""] := rfl
      rw [hempty] at hsplit
      exact (List.cons.inj hsplit).1.symm
    exact (h.name List.mem_cons_self).nonempty hfirst
  · rw [← splitText_joined hne h.slash, heq, splitText_joined hne' h'.slash]

theorem IsPath.head (h : IsPath components) (hne : components ≠ []) :
    joined components ≠ "" ∧ (joined components).toList.head? ≠ some '/' ∧
      (joined components).toList.head? ≠ some '\\' := by
  obtain ⟨first, rest, rfl⟩ := List.exists_cons_of_ne_nil hne
  have hname : ValidName first := h.name List.mem_cons_self
  obtain ⟨c, cs, hcs⟩ := List.exists_cons_of_ne_nil (mt String.toList_eq_nil_iff.mp hname.nonempty)
  have hhead : (joined (first :: rest)).toList.head? = some c := by
    cases rest with
    | nil => rw [joined, String.intercalate_singleton, hcs, List.head?_cons]
    | cons next rest =>
      rw [joined, String.intercalate_cons_cons, String.toList_append, String.toList_append, hcs,
        List.append_assoc, List.cons_append, List.head?_cons]
  have hc : c ∈ first.toList := by
    rw [hcs]
    exact List.mem_cons_self
  refine ⟨?_, ?_, ?_⟩
  · intro hempty
    rw [hempty] at hhead
    simp at hhead
  · rintro hslash
    rw [hhead, Option.some.injEq] at hslash
    exact hname.slash (hslash ▸ hc)
  · rintro hslash
    rw [hhead, Option.some.injEq] at hslash
    exact hname.backslash (hslash ▸ hc)

/-- **The accepted relative paths** are the joined lists. -/
theorem validateRelative_iff {relative : String} : validateRelative relative = .ok components ↔
    IsPath components ∧ components ≠ [] ∧ relative = joined components := by
  rw [validateRelative_eq_ok]
  constructor
  · rintro ⟨⟨-, hsize⟩, -, rfl, hcount, hvalid⟩
    have hjoined := joined_splitText relative
    refine ⟨⟨hvalid, fun c hc => not_mem_of_mem_splitText hc, hcount, ?_⟩, ?_, hjoined.symm⟩
    · rwa [hjoined]
    · simp [splitText]
  · rintro ⟨hpath, hne, rfl⟩
    obtain ⟨hempty, hslash, hbackslash⟩ := hpath.head hne
    rw [splitText_joined hne hpath.slash]
    exact ⟨⟨hempty, hpath.size⟩, ⟨hslash, hbackslash⟩, rfl, hpath.count, hpath.valid⟩

end

/-! ## Resources -/

section

variable {workspaceId workspaceId' : WorkspaceId} {components components' : List String}
  {resource canonical : String} {path : RelativePath}

theorem slash_not_mem_root : '/' ∉ (canonicalRoot workspaceId).toList := by
  rw [canonicalRoot, String.toList_append, List.mem_append, not_or]
  constructor
  · decide
  · intro hmem
    have hbyte : (0x2f : UInt8) ∈ bytes workspaceId.value :=
      bytes_toList_subset hmem _ (by decide)
    have hvalid := workspaceId.valid
    simp only [isWorkspaceId, Bool.and_eq_true, List.all_eq_true] at hvalid
    obtain ⟨index, hindex⟩ := List.mem_iff_getElem?.mp hbyte
    have hallowed := hvalid.2 (0x2f, index) (List.mk_mem_zipIdx_iff_getElem?.mpr hindex)
    have hrefused : ∀ allowed : Bool, ((0x61 ≤ (0x2f : UInt8) && (0x2f : UInt8) ≤ 0x7a) ||
        isAsciiDigit 0x2f || (allowed && ((0x2f : UInt8) == 0x2e || (0x2f : UInt8) == 0x5f ||
          (0x2f : UInt8) == 0x2d))) = false := by
      decide
    rw [isWorkspaceByte, hrefused] at hallowed
    simp at hallowed

theorem colon_mem_root : ':' ∈ (canonicalRoot workspaceId).toList := by
  rw [canonicalRoot, String.toList_append, List.mem_append]
  exact Or.inl (by decide)

theorem takeWhile_resourceOf : (resourceOf workspaceId components).toList.takeWhile (· != '/') =
    (canonicalRoot workspaceId).toList := by
  have hroot : ∀ c ∈ (canonicalRoot workspaceId).toList, (c != '/') = true := by
    intro c hc
    simpa using fun heq : c = '/' => slash_not_mem_root (heq ▸ hc)
  unfold resourceOf
  split
  · exact List.takeWhile_eq_self_iff.mpr hroot
  · rw [String.append_assoc, String.toList_append, List.takeWhile_append_of_pos hroot,
      String.toList_append]
    have hslash : "/".toList = ['/'] := rfl
    rw [hslash, List.singleton_append, List.takeWhile_cons_of_neg (by decide), List.append_nil]

/-- **A text stands for one workspace and one list** of components. -/
theorem resourceOf_injective (h : IsPath components) (h' : IsPath components')
    (heq : resourceOf workspaceId components = resourceOf workspaceId' components') :
    workspaceId = workspaceId' ∧ components = components' := by
  have hroots : canonicalRoot workspaceId = canonicalRoot workspaceId' := by
    apply String.toList_inj.mp
    have htext := congrArg (fun text => text.toList.takeWhile (· != '/')) heq
    simpa only [takeWhile_resourceOf] using htext
  have hids : workspaceId.value = workspaceId'.value := by
    rw [canonicalRoot, canonicalRoot] at hroots
    exact String.append_right_inj _ |>.mp hroots
  obtain ⟨value, hvalue⟩ := workspaceId
  obtain ⟨value', hvalue'⟩ := workspaceId'
  obtain rfl : value = value' := hids
  refine ⟨rfl, ?_⟩
  unfold resourceOf at heq
  split at heq
  · split at heq
    · simp_all
    · exact absurd heq.symm root_ne_append
  · rename_i hne
    split at heq
    · exact absurd heq root_ne_append
    · exact h.joined_injective h' hne ((String.append_right_inj _).mp heq)

theorem parseCanonical_iff : parseCanonical workspaceId resource = .ok path ↔
    IsPath path.components ∧ resource = resourceOf workspaceId path.components := by
  unfold parseCanonical resourceOf
  split
  · rename_i hroot
    subst hroot
    rw [Outcome.pure_eq_ok]
    constructor
    · rintro rfl
      exact ⟨.nil, by simp⟩
    · rintro ⟨-, heq⟩
      split at heq
      · rename_i hnil
        exact congrArg RelativePath.mk hnil.symm
      · exact absurd heq.symm root_ne_append
  · rename_i hroot
    simp only [Outcome.bind_eq_ok, Outcome.okOr_eq_ok, stripText_eq_some, Outcome.pure_eq_ok,
      validateRelative_iff]
    constructor
    · rintro ⟨relative, rfl, components, ⟨hpath, hne, rfl⟩, rfl⟩
      exact ⟨hpath, (if_neg hne).symm⟩
    · rintro ⟨hpath, heq⟩
      split at heq
      · exact absurd heq hroot
      · rename_i hne
        exact ⟨_, heq, _, ⟨hpath, hne, rfl⟩, rfl⟩

theorem display_nil : RelativePath.display ⟨[]⟩ = "." := rfl

theorem display_of_ne_nil (hne : components ≠ []) :
    RelativePath.display ⟨components⟩ = joined components := if_neg hne

theorem stripText_of_colon {pre s : String} (hpre : ':' ∈ pre.toList) (hs : ':' ∉ s.toList) :
    stripText pre s = none := by
  rw [Option.eq_none_iff_forall_ne_some]
  intro rest hrest
  rw [stripText_eq_some] at hrest
  apply hs
  rw [hrest, String.toList_append]
  exact List.mem_append_left _ hpre

theorem IsPath.ne_dot (h : IsPath components) (hne : components ≠ []) : joined components ≠ "." := by
  intro heq
  have hsplit := splitText_joined hne h.slash
  rw [heq] at hsplit
  have hdot : splitText '/' "." = ["."] := by decide
  rw [hdot] at hsplit
  exact (h.name (hsplit ▸ List.mem_singleton_self ".")).notDot rfl

theorem canonicalResource_joined (workspaceId : WorkspaceId) (h : IsPath components)
    (hne : components ≠ []) : canonicalResource workspaceId (joined components) =
      .ok (resourceOf workspaceId components) := by
  have hroot : ':' ∈ (canonicalRoot workspaceId ++ "/").toList := by
    rw [String.toList_append]
    exact List.mem_append_left _ colon_mem_root
  have hprefix : ':' ∈ canonicalPrefix.toList := by decide
  have hnot : ¬ (joined components = "." ∨ joined components = canonicalRoot workspaceId) := by
    rintro (hdot | heq)
    · exact h.ne_dot hne hdot
    · exact h.colon (heq ▸ colon_mem_root)
  have hvalid := validateRelative_iff.mpr ⟨h, hne, rfl⟩
  rw [canonicalResource, if_neg hnot, relativePart, stripText_of_colon hroot h.colon,
    stripText_of_colon hprefix h.colon, Option.getD_none, hvalid, resourceOf, if_neg hne]
  simp [Outcome.failIf]

/-- **Resolving** maps a canonical text to itself, and the display of a path to its canonical text. -/
theorem canonicalResource_iff : canonicalResource workspaceId resource = .ok canonical ↔
    ∃ components, IsPath components ∧ canonical = resourceOf workspaceId components ∧
      (resource = canonical ∨ resource = RelativePath.display ⟨components⟩) := by
  constructor
  · intro h
    rcases canonicalResource_eq_ok h with ⟨hroot, rfl⟩ | ⟨-, ⟨components, hvalid⟩, rfl⟩
    · exact ⟨[], .nil, rfl, hroot.symm⟩
    · obtain ⟨hpath, hne, hrelative⟩ := validateRelative_iff.mp hvalid
      rw [hrelative]
      refine ⟨components, hpath, (if_neg hne).symm, ?_⟩
      rw [display_of_ne_nil hne, ← hrelative, relativePart]
      cases hstrip : stripText (canonicalRoot workspaceId ++ "/") resource with
      | none => exact Or.inr rfl
      | some rest => exact Or.inl (stripText_eq_some.mp hstrip)
  · rintro ⟨components, hpath, rfl, heq⟩
    by_cases hnil : components = []
    · subst hnil
      have hroot : resource = "." ∨ resource = canonicalRoot workspaceId := heq.symm
      rw [canonicalResource, if_pos hroot]
      rfl
    · have hjoined := canonicalResource_joined workspaceId hpath hnil
      rcases heq with rfl | rfl
      · exact canonicalResource_canonical hjoined
      · rwa [display_of_ne_nil hnil]

/-! ## One more component -/

theorem IsPath.snoc_iff {component : String} (h : IsPath components)
    (hslash : '/' ∉ component.toList) : IsPath (components ++ [component]) ↔
      validateComponent component = .ok () ∧ components.length ≠ maxComponents ∧
        ((components ++ [component]).map byteLen).sum + ((components ++ [component]).length - 1) ≤
          maxRelativePathBytes := by
  rw [← byteLen_joined]
  constructor
  · intro hpath
    have hcount := hpath.count
    rw [List.length_append, List.length_singleton] at hcount
    exact ⟨hpath.valid component (by simp), by omega, hpath.size⟩
  · rintro ⟨hvalid, hcount, hsize⟩
    have hle := h.count
    refine ⟨?_, ?_, ?_, hsize⟩
    · intro c hc
      rcases List.mem_append.mp hc with hc | hc
      · exact h.valid c hc
      · rwa [List.mem_singleton.mp hc]
    · intro c hc
      rcases List.mem_append.mp hc with hc | hc
      · exact h.slash c hc
      · rwa [List.mem_singleton.mp hc]
    · rw [List.length_append, List.length_singleton]
      omega

theorem join_iff {component : String} {result : RelativePath} (h : IsPath path.components)
    (hslash : '/' ∉ component.toList) : path.join component = .ok result ↔
      IsPath (path.components ++ [component]) ∧ result = ⟨path.components ++ [component]⟩ := by
  rw [h.snoc_iff hslash]
  simp only [RelativePath.join, Outcome.bind_eq_ok, Outcome.exists_unit, Outcome.failIf_eq_ok,
    Outcome.pure_eq_ok, not_lt, and_assoc, eq_comm (a := result)]

theorem canonicalResource_display {component : String} (h : IsPath components)
    (hvalid : validateComponent component = .ok ()) (hslash : '/' ∉ component.toList) :
    canonicalResource workspaceId (RelativePath.display ⟨components ++ [component]⟩) =
      .ok canonical ↔ IsPath (components ++ [component]) ∧
        canonical = resourceOf workspaceId (components ++ [component]) := by
  have hne : components ++ [component] ≠ [] := by simp
  have hnames : ∀ c ∈ components ++ [component], ValidName c := by
    intro c hc
    rcases List.mem_append.mp hc with hc | hc
    · exact h.name hc
    · rw [List.mem_singleton.mp hc]
      exact validName_of_validate hvalid hslash
  rw [canonicalResource_iff, display_of_ne_nil hne]
  constructor
  · rintro ⟨found, hfound, rfl, heq | heq⟩
    · -- a canonical text has a colon
      exfalso
      have hcolon : ':' ∈ (joined (components ++ [component])).toList := by
        rw [heq, resourceOf]
        split
        · exact colon_mem_root
        · rw [String.append_assoc, String.toList_append]
          exact List.mem_append_left _ colon_mem_root
      rcases mem_joined hcolon with hbad | ⟨c, hc, hin⟩
      · exact absurd hbad (by decide)
      · exact (hnames c hc).colon hin
    · have hsplit := splitText_joined hne fun c hc => (hnames c hc).slash
      have hsame : found = components ++ [component] := by
        by_cases hnil : found = []
        · rw [hnil, display_nil] at heq
          have hdot : splitText '/' "." = ["."] := by decide
          rw [heq, hdot] at hsplit
          exact absurd rfl (hnames "." (hsplit ▸ List.mem_singleton_self ".")).notDot
        · rw [display_of_ne_nil hnil] at heq
          rw [← hsplit, heq, splitText_joined hnil hfound.slash]
      rw [← hsame]
      exact ⟨hfound, rfl⟩
  · rintro ⟨hpath, rfl⟩
    exact ⟨_, hpath, rfl, Or.inr (display_of_ne_nil hne).symm⟩

end

/-! ## The process adapter -/

namespace ProcessPath

/-- The process adapter has its own copy of this check. -/
def isWindowsDeviceName (component : String) : Bool := Xgeny.isWindowsDeviceName component

def validateComponent (component : String) : Outcome AdapterPrepareFailure Unit :=
  Outcome.failIf (component = "" ∨ maxComponentBytes < byteLen component ∨ component = "." ∨
    component = ".." ∨ component.toList.head? = some ' ' ∨ component.toList.getLast? = some ' ' ∨
    component.toList.getLast? = some '.' ∨ component.toList.any isForbidden = true ∨
    isWindowsDeviceName component = true) .invalidMaterial

/-- One component of `parse_relative`. -/
def pushComponent (components : List String) (component : String) :
    Outcome AdapterPrepareFailure (List String) := do
  Outcome.failIf (components.length = maxComponents) .invalidMaterial
  validateComponent component
  pure (components ++ [component])

def parseRelative (value : String) : Outcome AdapterPrepareFailure (List String) :=
  if value = "." then pure []
  else do
    Outcome.failIf (value = "" ∨ maxRelativePathBytes < byteLen value ∨
      value.toList.head? = some '/' ∨ value.toList.head? = some '\\') .invalidMaterial
    Outcome.foldl pushComponent [] (splitText '/' value)

theorem validateComponent_iff {component : String} :
    validateComponent component = .ok () ↔ Xgeny.validateComponent component = .ok () := by
  simp only [validateComponent, Xgeny.validateComponent, Outcome.bind_eq_ok, Outcome.exists_unit,
    Outcome.failIf_eq_ok, not_or, and_assoc]
  rw [isWindowsDeviceName]
  -- the two functions compare with the dots in another order
  exact and_congr_right fun _ => and_congr_right fun _ => and_left_comm

theorem pushComponents_iff {components seen result : List String} :
    Outcome.foldl pushComponent seen components = .ok result ↔
      Outcome.foldl Xgeny.pushComponent seen components = .ok result := by
  induction components generalizing seen with
  | nil => simp [Outcome.foldl]
  | cons component rest ih =>
    simp only [Outcome.foldl, pushComponent, Xgeny.pushComponent, Outcome.bind_eq_ok,
      Outcome.exists_unit, Outcome.failIf_eq_ok, Outcome.pure_eq_ok, validateComponent_iff, ih]

/-- **The process adapter** accepts the root and the relative paths of the filesystem adapters. -/
theorem parseRelative_iff {value : String} {components : List String} :
    parseRelative value = .ok components ↔
      (value = "." ∧ components = []) ∨ validateRelative value = .ok components := by
  unfold parseRelative
  split
  · rename_i hdot
    subst hdot
    rw [Outcome.pure_eq_ok]
    have hrefused : validateRelative "." ≠ .ok components := by
      rw [ne_eq, validateRelative_iff]
      rintro ⟨hpath, hne, heq⟩
      exact hpath.ne_dot hne heq.symm
    simp [hrefused, eq_comm]
  · rename_i hdot
    simp only [hdot, false_and, false_or, validateRelative, Outcome.bind_eq_ok, Outcome.exists_unit,
      Outcome.failIf_eq_ok, pushComponents_iff, not_or, and_assoc]

end ProcessPath

/-! ## The round trip -/

/-- **The readers of paths agree**: resolving gives the texts that are read back, each of which stands
for one workspace and one list of names; a name without `/` is joined when the longer list is
resolved; and the process adapter accepts the same relative paths. -/
theorem path_round_trip (workspaceId : WorkspaceId) :
    (∀ text canonical, canonicalResource workspaceId text = .ok canonical →
      canonicalResource workspaceId canonical = .ok canonical ∧
        ∃ path, parseCanonical workspaceId canonical = .ok path ∧
          (∀ component ∈ path.components, ValidName component) ∧
            canonicalResource workspaceId path.display = .ok canonical) ∧
    (∀ resource resource' path, parseCanonical workspaceId resource = .ok path →
      parseCanonical workspaceId resource' = .ok path → resource = resource') ∧
    (∀ other resource resource' path path', workspaceId ≠ other →
      parseCanonical workspaceId resource = .ok path →
        parseCanonical other resource' = .ok path' → resource ≠ resource') ∧
    (∀ resource, (∃ path, parseCanonical workspaceId resource = .ok path) ↔
      ∃ text, canonicalResource workspaceId text = .ok resource) ∧
    (∀ path resource name result, parseCanonical workspaceId resource = .ok path →
      '/' ∉ name.toList → (path.join name = .ok result ↔ validateComponent name = .ok () ∧
        ∃ canonical, canonicalResource workspaceId
            (RelativePath.display ⟨path.components ++ [name]⟩) = .ok canonical ∧
          parseCanonical workspaceId canonical = .ok result)) ∧
    ∀ value components, ProcessPath.parseRelative value = .ok components ↔
      (value = "." ∧ components = []) ∨ validateRelative value = .ok components := by
  refine ⟨?_, ?_, ?_, ?_, ?_, fun _ _ => ProcessPath.parseRelative_iff⟩
  · intro text canonical h
    obtain ⟨components, hpath, rfl, -⟩ := canonicalResource_iff.mp h
    refine ⟨canonicalResource_canonical h, ⟨components⟩, parseCanonical_iff.mpr ⟨hpath, rfl⟩,
      fun _ => hpath.name, ?_⟩
    exact canonicalResource_iff.mpr ⟨components, hpath, rfl, Or.inr rfl⟩
  · intro resource resource' path h h'
    rw [(parseCanonical_iff.mp h).2, (parseCanonical_iff.mp h').2]
  · rintro other resource resource' path path' hne h h' rfl
    obtain ⟨hpath, heq⟩ := parseCanonical_iff.mp h
    obtain ⟨hpath', heq'⟩ := parseCanonical_iff.mp h'
    exact hne (resourceOf_injective hpath hpath' (heq.symm.trans heq')).1
  · intro resource
    constructor
    · rintro ⟨path, h⟩
      obtain ⟨hpath, heq⟩ := parseCanonical_iff.mp h
      exact ⟨resource, canonicalResource_iff.mpr ⟨_, hpath, heq, Or.inl rfl⟩⟩
    · rintro ⟨text, h⟩
      obtain ⟨components, hpath, heq, -⟩ := canonicalResource_iff.mp h
      exact ⟨⟨components⟩, parseCanonical_iff.mpr ⟨hpath, heq⟩⟩
  · intro path resource name result h hslash
    have hpath := (parseCanonical_iff.mp h).1
    rw [join_iff hpath hslash]
    constructor
    · rintro ⟨hlonger, rfl⟩
      have hvalid := ((hpath.snoc_iff hslash).mp hlonger).1
      exact ⟨hvalid, _, (canonicalResource_display hpath hvalid hslash).mpr ⟨hlonger, rfl⟩,
        parseCanonical_iff.mpr ⟨hlonger, rfl⟩⟩
    · rintro ⟨hvalid, canonical, hcanonical, hparsed⟩
      obtain ⟨hlonger, rfl⟩ := (canonicalResource_display hpath hvalid hslash).mp hcanonical
      obtain ⟨hresult, heq⟩ := parseCanonical_iff.mp hparsed
      have hsame := (resourceOf_injective hlonger hresult heq).2
      exact ⟨hlonger, by rw [hsame]⟩

/-- **A name with a slash** is joined as one component, and read back as two. -/
theorem join_takes_a_slash : ¬ ∀ (workspaceId : WorkspaceId) (path : RelativePath)
    (resource name : String) (result : RelativePath),
      parseCanonical workspaceId resource = .ok path →
        (path.join name = .ok result ↔ validateComponent name = .ok () ∧
          ∃ canonical, canonicalResource workspaceId
              (RelativePath.display ⟨path.components ++ [name]⟩) = .ok canonical ∧
            parseCanonical workspaceId canonical = .ok result) := by
  intro h
  let workspaceId : WorkspaceId := ⟨"primary", by decide⟩
  have hroot : parseCanonical workspaceId (canonicalRoot workspaceId) = .ok ⟨[]⟩ := by
    rw [parseCanonical, if_pos rfl]
    rfl
  have hjoin : RelativePath.join ⟨[]⟩ "a/b" = .ok ⟨["a/b"]⟩ := by decide
  obtain ⟨-, canonical, -, hparsed⟩ := (h workspaceId _ _ "a/b" ⟨["a/b"]⟩ hroot).mp hjoin
  have hname := (parseCanonical_iff.mp hparsed).1.slash "a/b" (List.mem_singleton_self _)
  exact hname (by decide)

end Xgeny
