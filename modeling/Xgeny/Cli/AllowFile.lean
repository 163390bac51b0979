import Xgeny.Runtime.Operations
import Xgeny.Sidecars.Binding
import Xgeny.Workspace.Containment

set_option autoImplicit false

/-!
# The catalog of exact files

The user allows some files of a workspace. The catalog holds their canonical arguments in the order
of their canonical texts, with a number and a revision for each, and one digest over all of them; it
issues references to arguments, and reads them back.

* `AllowFileCatalog`: the catalog, `new`, `referenceForArguments`, `reconstruct`, `materialize`;
* `new_eq_ok`: what a constructed catalog is made of;
* **`reconstruct_reference`**: a reference of a catalog gives its arguments back;
* `rejected_elsewhere`: where its number stands for other arguments, it is rejected.
-/

namespace Xgeny

/-! ## Documents -/

/-- `json!({"path": canonical})`. -/
def pathArguments (resource : String) : Json := .object [("path", .string resource)]

/-- `CATALOG_FORMAT_VERSION`. -/
def catalogFormatVersion : Json := .number (.posInt 1)

/-- `RevisionDigestInput`. -/
def revisionDocument (ordinal : UInt32) (arguments : Json) : Json :=
  .object
    [("arguments", arguments), ("domain", .string "xgeny.cli.allow-file-revision/v1"),
      ("formatVersion", catalogFormatVersion), ("ordinal", .number (.posInt ordinal.toUInt64))]

/-- `CatalogCommitment`. -/
def commitmentDocument (referenceId revision : String) : Json :=
  .object [("referenceId", .string referenceId), ("revision", .string revision)]

/-- `CatalogDigestInput`, of either catalog. -/
def catalogDocument (domain : String) (entries : List Json) : Json :=
  .object
    [("domain", .string domain), ("entries", .array entries),
      ("formatVersion", catalogFormatVersion)]

/-- `sha256_hex` of a canonical document. -/
def CanonicalEncoder.hashOf (E : CanonicalEncoder) (document : Json) : Sha256Hex :=
  E.sha256 (document.canonical E)

/-- The hash tells the documents apart. -/
def CanonicalEncoder.CollisionFree (E : CanonicalEncoder) (documents : List Json) : Prop :=
  ∀ a ∈ documents, ∀ b ∈ documents, E.hashOf a = E.hashOf b → a = b

/-! ## The catalog -/

structure AllowFileEntry where
  referenceId : String
  revision : String
  arguments : Json

structure AllowFileCatalog where
  entries : List AllowFileEntry
  catalogDigest : String

inductive AllowFileCatalogError where
  | empty
  | tooManyEntries
  | invalidEntry
  | duplicateEntry
  deriving DecidableEq

def allowFileProviderId : String := "xgeny.cli.allow-file.v1"
def maxAllowFileEntries : ℕ := 64

/-- `format!("entry-{ordinal:08}")`. -/
def entryReferenceId (ordinal : UInt32) : String :=
  "entry-" ++ String.ofList (List.leftpad 8 '0' (toString ordinal).toList)

/-- `ReconstructableMaterialReference::new`. -/
def ReconstructableMaterialReference.new (providerId referenceId revision : String) :
    Outcome InvocationMaterialError ReconstructableMaterialReference := do
  let reference : ReconstructableMaterialReference := ⟨providerId, referenceId, revision⟩
  reference.validate
  pure reference

/-- One path of the user. -/
def collectArguments (resolver : ResourceResolver) (arguments : List Json) (path : String) :
    Outcome AllowFileCatalogError (List Json) := do
  Outcome.failIf (arguments.length = maxAllowFileEntries) .tooManyEntries
  match resolver "filesystem.read" path with
  | .error _ => Outcome.fail .invalidEntry
  | .ok canonical => do
    Outcome.failIf ('/' ∉ canonical.toList) .invalidEntry
    pure (arguments ++ [pathArguments canonical])

section

variable (E : CanonicalEncoder)

/-- The order of two canonical texts. -/
def canonicalLe (left right : Json) : Prop := left.canonical E ≤ right.canonical E

instance decidableCanonicalLe : DecidableRel (canonicalLe E) := fun left right =>
  inferInstanceAs (Decidable (left.canonical E ≤ right.canonical E))

/-- One numbered entry. -/
def numberedEntry (entries : List AllowFileEntry) (arguments : Json) :
    Outcome AllowFileCatalogError (List AllowFileEntry) := do
  let ordinal ← Outcome.okOr (UInt32.tryFrom (entries.length + 1)) .tooManyEntries
  pure (entries ++
    [{ referenceId := entryReferenceId ordinal
       revision := "sha256-" ++ (E.hashOf (revisionDocument ordinal arguments)).val
       arguments := arguments }])

/-- The document that the digest of the catalog is taken of. -/
def allowFileDocument (entries : List AllowFileEntry) : Json :=
  catalogDocument "xgeny.cli.allow-file-catalog/v1"
    (entries.map fun entry => commitmentDocument entry.referenceId entry.revision)

namespace AllowFileCatalog

def new (resolver : ResourceResolver) (paths : List String) :
    Outcome AllowFileCatalogError AllowFileCatalog := do
  let arguments ← Outcome.foldl (collectArguments resolver) [] paths
  Outcome.failIf (arguments = []) .empty
  let sorted := arguments.insertionSort (canonicalLe E)
  let unique : BTreeSet String :=
    Std.ExtTreeSet.ofList (sorted.map fun arguments => arguments.canonical E) compare
  Outcome.failIf (unique.size ≠ sorted.length) .duplicateEntry
  let entries ← Outcome.foldl (numberedEntry E) [] sorted
  pure
    { entries := entries
      catalogDigest := sha256Digest (E.hashOf (allowFileDocument entries)) }

end AllowFileCatalog

end

namespace AllowFileCatalog

variable (self : AllowFileCatalog)

def containsCanonicalResource (resource : String) : Bool :=
  self.entries.any fun entry =>
    (entry.arguments.asObject.bind fun object => (object.lookup "path").bind Json.asStr) ==
      some resource

def referenceForArguments (arguments : Json) :
    Outcome PlanMaterializerFailure ReconstructableMaterialReference := do
  let entry ← Outcome.okOr (self.entries.find? fun entry => entry.arguments == arguments) .rejected
  (ReconstructableMaterialReference.new allowFileProviderId entry.referenceId
    entry.revision).mapErr fun _ => .rejected

def materialize (request : PlanMaterializationRequest) :
    Outcome PlanMaterializerFailure ReconstructableMaterialReference := do
  Outcome.failIf (request.capability ≠ FilesystemOperation.readText.capability) .rejected
  self.referenceForArguments request.normalizedArguments

def reconstruct (referenceId revision : String) : Outcome MaterialProviderFailure Json := do
  let entry ← Outcome.okOr (self.entries.find? fun entry => entry.referenceId == referenceId)
    .notFound
  Outcome.failIf (entry.revision ≠ revision) .revisionChanged
  pure entry.arguments

end AllowFileCatalog

/-! ## What a catalog is made of -/

/-- The canonical resources of some paths. -/
def Denotes (resolver : ResourceResolver) (paths : List String) (resource : String) : Prop :=
  ∃ path ∈ paths, resolver "filesystem.read" path = .ok resource

/-- The entry of a number. -/
def entryOf (E : CanonicalEncoder) (ordinal : UInt32) (arguments : Json) : AllowFileEntry where
  referenceId := entryReferenceId ordinal
  revision := "sha256-" ++ (E.hashOf (revisionDocument ordinal arguments)).val
  arguments := arguments

/-- The entries of some arguments, from a number on. -/
def entriesOf (E : CanonicalEncoder) (first : ℕ) (arguments : List Json) : List AllowFileEntry :=
  (arguments.zipIdx first).map fun numbered => entryOf E (UInt32.ofNat numbered.2) numbered.1

section

variable {E : CanonicalEncoder} {resolver : ResourceResolver} {paths paths' : List String}
  {arguments : List Json} {result : List Json}

theorem collectArguments_eq_ok {path : String}
    (h : collectArguments resolver arguments path = .ok result) :
    ∃ canonical, resolver "filesystem.read" path = .ok canonical ∧
      result = arguments ++ [pathArguments canonical] ∧ arguments.length ≠ maxAllowFileEntries := by
  simp only [collectArguments, Outcome.bind_eq_ok, Outcome.exists_unit, Outcome.failIf_eq_ok] at h
  obtain ⟨hsize, h⟩ := h
  split at h
  · exact absurd h (by simp [Outcome.fail])
  · rename_i canonical hresolved
    simp only [Outcome.bind_eq_ok, Outcome.exists_unit, Outcome.pure_eq_ok] at h
    exact ⟨canonical, hresolved, h.2.symm, hsize⟩

/-- The arguments that are collected are those of the canonical resources, at most as many as a
catalog may have. -/
theorem collected (h : Outcome.foldl (collectArguments resolver) arguments paths = .ok result)
    (hsize : arguments.length ≤ maxAllowFileEntries) :
    result.length ≤ maxAllowFileEntries ∧ ∀ a, a ∈ result ↔
      a ∈ arguments ∨ ∃ resource, Denotes resolver paths resource ∧ a = pathArguments resource := by
  induction paths generalizing arguments with
  | nil =>
    rw [Outcome.foldl, Except.ok.injEq] at h
    subst h
    exact ⟨hsize, fun a => by simp [Denotes]⟩
  | cons path rest ih =>
    rw [Outcome.foldl, Outcome.bind_eq_ok] at h
    obtain ⟨next, hnext, hrest⟩ := h
    obtain ⟨canonical, hresolved, rfl, hne⟩ := collectArguments_eq_ok hnext
    have hlength : (arguments ++ [pathArguments canonical]).length ≤ maxAllowFileEntries := by
      rw [List.length_append, List.length_singleton]
      omega
    obtain ⟨hresult, hmem⟩ := ih hrest hlength
    refine ⟨hresult, fun a => ?_⟩
    rw [hmem a, List.mem_append, List.mem_singleton, or_assoc]
    apply or_congr_right
    constructor
    · rintro (rfl | ⟨resource, ⟨path', hpath', hread⟩, rfl⟩)
      · exact ⟨canonical, ⟨path, List.mem_cons_self, hresolved⟩, rfl⟩
      · exact ⟨resource, ⟨path', List.mem_cons_of_mem _ hpath', hread⟩, rfl⟩
    · rintro ⟨resource, ⟨path', hpath', hread⟩, rfl⟩
      rcases List.mem_cons.mp hpath' with rfl | htail
      · rw [hresolved, Except.ok.injEq] at hread
        rw [hread]
        exact Or.inl rfl
      · exact Or.inr ⟨resource, ⟨path', htail, hread⟩, rfl⟩

theorem numberedEntries {entries entries' : List AllowFileEntry}
    (h : Outcome.foldl (numberedEntry E) entries arguments = .ok entries') :
    entries' = entries ++ entriesOf E (entries.length + 1) arguments := by
  induction arguments generalizing entries with
  | nil =>
    rw [Outcome.foldl, Except.ok.injEq] at h
    rw [← h, entriesOf, List.zipIdx_nil, List.map_nil, List.append_nil]
  | cons a rest ih =>
    rw [Outcome.foldl, Outcome.bind_eq_ok] at h
    obtain ⟨next, hnext, hrest⟩ := h
    simp only [numberedEntry, Outcome.bind_eq_ok, Outcome.okOr_eq_ok, Outcome.pure_eq_ok] at hnext
    obtain ⟨ordinal, hordinal, rfl⟩ := hnext
    have hvalue : UInt32.ofNat (entries.length + 1) = ordinal := by
      rw [← UInt32.tryFrom_eq_some.mp hordinal, UInt32.ofNat_toNat]
    rw [ih hrest, entriesOf, entriesOf, List.zipIdx_cons, List.map_cons, hvalue, List.append_assoc,
      List.length_append]
    rfl

theorem nodup_of_size_ofList {l : List String}
    (h : (Std.ExtTreeSet.ofList l compare : BTreeSet String).size = l.length) : l.Nodup := by
  have hperm : (Std.ExtTreeSet.ofList l compare : BTreeSet String).toList.Perm l.dedup := by
    refine (List.perm_ext_iff_of_nodup ?_ l.nodup_dedup).mpr fun a => ?_
    · exact BTreeSet.nodup_toList _
    · rw [Std.ExtTreeSet.mem_toList, BTreeSet.mem_ofList_iff, List.mem_dedup]
  have hlength : l.dedup.length = l.length := by
    rw [← hperm.length_eq, Std.ExtTreeSet.length_toList, h]
  rw [← l.dedup_sublist.eq_of_length hlength]
  exact l.nodup_dedup

/-- **What a catalog is made of**: numbered entries of arguments in the order of their texts, which
are those of the canonical resources of the paths. -/
structure AllowFileCatalog.Built (E : CanonicalEncoder) (resolver : ResourceResolver)
    (paths : List String) (catalog : AllowFileCatalog) (sorted : List Json) : Prop where
  entries : catalog.entries = entriesOf E 1 sorted
  digest : catalog.catalogDigest = sha256Digest (E.hashOf (allowFileDocument catalog.entries))
  ordered : sorted.Pairwise (canonicalLe E)
  distinct : (sorted.map fun arguments => arguments.canonical E).Nodup
  size : sorted.length ≤ maxAllowFileEntries
  mem : ∀ a, a ∈ sorted ↔ ∃ resource, Denotes resolver paths resource ∧ a = pathArguments resource

theorem canonicalLe_total (a b : Json) : canonicalLe E a b ∨ canonicalLe E b a :=
  String.le_total _ _

theorem AllowFileCatalog.new_eq_ok {catalog : AllowFileCatalog}
    (h : AllowFileCatalog.new E resolver paths = .ok catalog) :
    ∃ sorted, catalog.Built E resolver paths sorted := by
  simp only [new, Outcome.bind_eq_ok, Outcome.exists_unit, Outcome.failIf_eq_ok, Outcome.pure_eq_ok,
    ne_eq, not_not] at h
  obtain ⟨arguments, hcollected, -, hunique, entries, hentries, rfl⟩ := h
  obtain ⟨hsize, hmem⟩ := collected hcollected (Nat.zero_le _)
  refine ⟨arguments.insertionSort (canonicalLe E), numberedEntries hentries, rfl, ?_, ?_, ?_, ?_⟩
  · have htotal : Std.Total (canonicalLe E) := ⟨canonicalLe_total⟩
    have htrans : IsTrans Json (canonicalLe E) := ⟨fun _ _ _ => String.le_trans⟩
    exact List.pairwise_insertionSort _ arguments
  · rw [← List.length_map (fun arguments => Json.canonical E arguments)] at hunique
    exact nodup_of_size_ofList hunique
  · rwa [List.length_insertionSort]
  · intro a
    rw [List.mem_insertionSort, hmem a]
    simp

/-! ## Numbers -/

theorem entryReferenceIds_nodup : ((List.range' 1 maxAllowFileEntries).map fun n =>
    entryReferenceId (UInt32.ofNat n)).Nodup := by
  decide +kernel

theorem entriesOf_referenceIds (first : ℕ) (arguments : List Json) :
    (entriesOf E first arguments).map AllowFileEntry.referenceId =
      (List.range' first arguments.length).map fun n => entryReferenceId (UInt32.ofNat n) := by
  rw [entriesOf, List.map_map, ← List.zipIdx_map_snd first arguments, List.map_map]
  rfl

theorem entriesOf_arguments (first : ℕ) (arguments : List Json) :
    (entriesOf E first arguments).map AllowFileEntry.arguments = arguments := by
  rw [entriesOf, List.map_map]
  exact List.zipIdx_map_fst first arguments

theorem validateReferenceComponent_hashed {field pre : String}
    (hpre : (bytes pre).all isIdentifierByte = true) (hsize : byteLen pre ≤ 64) (hash : Sha256Hex) :
    validateReferenceComponent field (pre ++ hash.val) = .ok () := by
  have hbytes : (bytes (pre ++ hash.val)).all isIdentifierByte = true := by
    have hhex := hash.property
    rw [isHex64, Bool.and_eq_true] at hhex
    rw [bytes_append, List.all_append, Bool.and_eq_true]
    refine ⟨hpre, List.all_eq_true.mpr fun b hb => ?_⟩
    have hdigit := List.all_eq_true.mp hhex.2 b hb
    rw [isLowerHex, Bool.or_eq_true, Bool.and_eq_true, decide_eq_true_eq, decide_eq_true_eq,
      UInt8.le_iff_toNat_le, UInt8.le_iff_toNat_le] at hdigit
    rcases hdigit with hdigit | ⟨hlow, hhigh⟩
    · simp [isIdentifierByte, isAsciiAlphanumeric, hdigit]
    · have hletter : (0x61 ≤ b && b ≤ 0x7a) = true := by
        rw [Bool.and_eq_true, decide_eq_true_eq, decide_eq_true_eq, UInt8.le_iff_toNat_le,
          UInt8.le_iff_toNat_le]
        exact ⟨hlow, hhigh.trans (by decide)⟩
      simp [isIdentifierByte, isAsciiAlphanumeric, hletter]
  have hlength : byteLen (pre ++ hash.val) = byteLen pre + 64 := by
    rw [byteLen_append, hash.byteLen_val]
  have hne : ∀ other : String, byteLen other < 64 → pre ++ hash.val ≠ other := by
    rintro other hother rfl
    omega
  simp only [validateReferenceComponent, Outcome.bind_eq_ok, Outcome.exists_unit,
    Outcome.failIf_eq_ok, not_or, not_not]
  exact ⟨hne _ (by decide), hne _ (by decide), hne _ (by decide), by omega, hbytes⟩

/-- The documents that are hashed for a catalog. -/
def AllowFileCatalog.documents (self : AllowFileCatalog) : List Json :=
  allowFileDocument self.entries ::
    (self.entries.zipIdx 1).map fun numbered =>
      revisionDocument (UInt32.ofNat numbered.2) numbered.1.arguments

namespace AllowFileCatalog.Built

variable {catalog catalog' : AllowFileCatalog} {sorted sorted' : List Json}
  {entry entry' : AllowFileEntry} {resolver' : ResourceResolver}

theorem referenceIds_nodup (h : catalog.Built E resolver paths sorted) :
    (catalog.entries.map AllowFileEntry.referenceId).Nodup := by
  rw [h.entries, entriesOf_referenceIds]
  exact entryReferenceIds_nodup.sublist ((List.range'_sublist_right.mpr h.size).map _)

theorem numbered (h : catalog.Built E resolver paths sorted) (hentry : entry ∈ catalog.entries) :
    ∃ ordinal, entry = entryOf E ordinal entry.arguments ∧
      revisionDocument ordinal entry.arguments ∈ catalog.documents ∧
      ∃ n ∈ List.range' 1 maxAllowFileEntries, ordinal = UInt32.ofNat n := by
  obtain ⟨i, hi⟩ := List.mem_iff_getElem?.mp hentry
  have hat := hi
  rw [h.entries, entriesOf, List.getElem?_map, Option.map_eq_some_iff] at hat
  obtain ⟨⟨a, n⟩, hat, rfl⟩ := hat
  rw [List.getElem?_zipIdx, Option.map_eq_some_iff] at hat
  obtain ⟨_, hat, heq⟩ := hat
  obtain ⟨rfl, rfl⟩ := Prod.mk.inj heq
  refine ⟨_, rfl, ?_, _, ?_, rfl⟩
  · refine List.mem_cons_of_mem _ (List.mem_map.mpr ⟨(entryOf E _ _, 1 + i), ?_, rfl⟩)
    rw [List.mem_iff_getElem?]
    exact ⟨i, by rw [List.getElem?_zipIdx, hi]; rfl⟩
  · have hlt := (List.getElem?_eq_some_iff.mp hat).1
    rw [List.mem_range'_1]
    have hsize := h.size
    omega

theorem referenceId_at (h : catalog.Built E resolver paths sorted) {i : ℕ}
    (hat : catalog.entries[i]? = some entry) :
    entry.referenceId = entryReferenceId (UInt32.ofNat (1 + i)) := by
  rw [h.entries, entriesOf, List.getElem?_map, List.getElem?_zipIdx, Option.map_map,
    Option.map_eq_some_iff] at hat
  obtain ⟨a, -, rfl⟩ := hat
  rfl

/-- **Without collisions a revision tells the arguments**, and the number. -/
theorem revision_inj (h : catalog.Built E resolver paths sorted)
    (h' : catalog'.Built E resolver' paths' sorted') (hentry : entry ∈ catalog.entries)
    (hentry' : entry' ∈ catalog'.entries)
    (hE : E.CollisionFree (catalog.documents ++ catalog'.documents))
    (hrevision : entry.revision = entry'.revision) : entry = entry' := by
  obtain ⟨ordinal, hnumber, hdocument, -⟩ := h.numbered hentry
  obtain ⟨ordinal', hnumber', hdocument', -⟩ := h'.numbered hentry'
  rw [hnumber, hnumber'] at hrevision
  have hhash : E.hashOf (revisionDocument ordinal entry.arguments) =
      E.hashOf (revisionDocument ordinal' entry'.arguments) :=
    Subtype.ext ((String.append_right_inj _).mp hrevision)
  have hsame := hE _ (List.mem_append_left _ hdocument) _ (List.mem_append_right _ hdocument') hhash
  simp only [revisionDocument, Json.object.injEq, List.cons.injEq, Prod.mk.injEq, true_and,
    Json.number.injEq, JsonNumber.posInt.injEq, UInt32.toUInt64_inj, and_true] at hsame
  rw [hnumber, hnumber', hsame.1, hsame.2]

theorem find_referenceId (h : catalog.Built E resolver paths sorted)
    (hentry : entry ∈ catalog.entries) :
    catalog.entries.find? (fun other => other.referenceId == entry.referenceId) = some entry := by
  cases hfound : catalog.entries.find? fun other => other.referenceId == entry.referenceId with
  | none =>
    have hnone := List.find?_eq_none.mp hfound entry hentry
    exact absurd (beq_self_eq_true _) hnone
  | some other =>
    have hid : other.referenceId = entry.referenceId := by
      have htest := List.find?_some hfound
      exact beq_iff_eq.mp htest
    rw [List.inj_on_of_nodup_map h.referenceIds_nodup (List.mem_of_find?_eq_some hfound) hentry hid]

theorem reconstruct_eq (h : catalog.Built E resolver paths sorted)
    (hentry : entry ∈ catalog.entries) (revision : String) :
    catalog.reconstruct entry.referenceId revision =
      if entry.revision = revision then .ok entry.arguments
      else Outcome.fail .revisionChanged := by
  rw [reconstruct, h.find_referenceId hentry]
  show (Outcome.failIf (entry.revision ≠ revision) MaterialProviderFailure.revisionChanged >>=
    fun _ => pure entry.arguments) = _
  by_cases hrevision : entry.revision = revision
  · rw [if_pos hrevision, Outcome.failIf, if_neg (not_not.mpr hrevision)]
    rfl
  · rw [if_neg hrevision, Outcome.failIf, if_pos hrevision]
    rfl

theorem validate_referenceId {n : ℕ} (h : n ∈ List.range' 1 maxAllowFileEntries) :
    validateReferenceComponent "reference_id" (entryReferenceId (UInt32.ofNat n)) = .ok () := by
  have hall : ∀ n ∈ List.range' 1 maxAllowFileEntries, (validateReferenceComponent "reference_id"
      (entryReferenceId (UInt32.ofNat n))).value? = some () := by
    decide +kernel
  exact Outcome.value?_eq_some.mp (hall n h)

theorem reference_ok (h : catalog.Built E resolver paths sorted)
    (hentry : entry ∈ catalog.entries) :
    ReconstructableMaterialReference.new allowFileProviderId entry.referenceId entry.revision =
      .ok ⟨allowFileProviderId, entry.referenceId, entry.revision⟩ := by
  obtain ⟨_, hnumber, -, n, hn, rfl⟩ := h.numbered hentry
  have hprovider : validateReferenceComponent "provider_id" allowFileProviderId = .ok () := by
    have hvalue : (validateReferenceComponent "provider_id" allowFileProviderId).value? =
        some () := by
      decide +kernel
    exact Outcome.value?_eq_some.mp hvalue
  rw [hnumber]
  simp only [ReconstructableMaterialReference.new, ReconstructableMaterialReference.validate,
    Outcome.bind_eq_ok, Outcome.exists_unit, Outcome.pure_eq_ok, and_true]
  exact ⟨hprovider, validate_referenceId hn,
    validateReferenceComponent_hashed (by decide) (by decide) _⟩

theorem referenceForArguments_eq_ok (h : catalog.Built E resolver paths sorted) {a : Json}
    {reference : ReconstructableMaterialReference}
    (hfound : catalog.referenceForArguments a = .ok reference) :
    ∃ entry ∈ catalog.entries, entry.arguments = a ∧
      reference = ⟨allowFileProviderId, entry.referenceId, entry.revision⟩ := by
  simp only [referenceForArguments, Outcome.bind_eq_ok, Outcome.okOr_eq_ok,
    Outcome.mapErr_eq_ok] at hfound
  obtain ⟨entry, hfind, hreference⟩ := hfound
  have hentry := List.mem_of_find?_eq_some hfind
  have harguments : entry.arguments = a := by
    have htest := List.find?_some hfind
    exact beq_iff_eq.mp htest
  rw [h.reference_ok hentry, Except.ok.injEq] at hreference
  exact ⟨entry, hentry, harguments, hreference.symm⟩

theorem referenceForArguments_ok (h : catalog.Built E resolver paths sorted) {a : Json}
    (ha : a ∈ sorted) : ∃ reference, catalog.referenceForArguments a = .ok reference := by
  have hmem : a ∈ catalog.entries.map AllowFileEntry.arguments := by
    rwa [h.entries, entriesOf_arguments]
  obtain ⟨entry, hentry, rfl⟩ := List.mem_map.mp hmem
  cases hfind : catalog.entries.find? fun other => other.arguments == entry.arguments with
  | none =>
    have hnone := List.find?_eq_none.mp hfind entry hentry
    exact absurd (beq_self_eq_true _) hnone
  | some found =>
    refine ⟨⟨allowFileProviderId, found.referenceId, found.revision⟩, ?_⟩
    rw [referenceForArguments, hfind]
    simp only [Outcome.bind_eq_ok, Outcome.okOr_eq_ok, Outcome.mapErr_eq_ok]
    exact ⟨found, rfl, h.reference_ok (List.mem_of_find?_eq_some hfind)⟩

/-- **A reference of a catalog gives its arguments back.** -/
theorem reconstruct_reference (h : catalog.Built E resolver paths sorted) {a : Json}
    {reference : ReconstructableMaterialReference}
    (hfound : catalog.referenceForArguments a = .ok reference) :
    catalog.reconstruct reference.referenceId reference.revision = .ok a := by
  obtain ⟨entry, hentry, harguments, rfl⟩ := h.referenceForArguments_eq_ok hfound
  rw [h.reconstruct_eq hentry, if_pos rfl, harguments]

/-- **Where its number stands for other arguments, a reference is rejected.** -/
theorem rejected_elsewhere (h : catalog.Built E resolver paths sorted)
    (h' : catalog'.Built E resolver' paths' sorted')
    (hE : E.CollisionFree (catalog.documents ++ catalog'.documents)) {a : Json}
    {reference : ReconstructableMaterialReference}
    (hfound : catalog.referenceForArguments a = .ok reference) (hentry' : entry' ∈ catalog'.entries)
    (hid : entry'.referenceId = reference.referenceId) (hne : entry'.arguments ≠ a) :
    catalog'.reconstruct reference.referenceId reference.revision =
      Outcome.fail .revisionChanged := by
  obtain ⟨entry, hentry, harguments, rfl⟩ := h.referenceForArguments_eq_ok hfound
  have hrevision : entry'.revision ≠ entry.revision := by
    intro heq
    apply hne
    rw [← harguments, h.revision_inj h' hentry hentry' hE heq.symm]
  have hread := h'.reconstruct_eq hentry' entry.revision
  rw [if_neg hrevision, hid] at hread
  exact hread

theorem arguments_inj (h : catalog.Built E resolver paths sorted) (hentry : entry ∈ catalog.entries)
    (hentry' : entry' ∈ catalog.entries) (heq : entry.arguments = entry'.arguments) :
    entry = entry' := by
  have hnodup : (catalog.entries.map AllowFileEntry.arguments).Nodup := by
    rw [h.entries, entriesOf_arguments]
    exact h.distinct.of_map
  exact List.inj_on_of_nodup_map hnodup hentry hentry' heq

theorem rejected_at (h : catalog.Built E resolver paths sorted)
    (h' : catalog'.Built E resolver' paths' sorted')
    (hE : E.CollisionFree (catalog.documents ++ catalog'.documents)) {i : ℕ}
    {reference : ReconstructableMaterialReference} (hat : catalog.entries[i]? = some entry)
    (hat' : catalog'.entries[i]? = some entry') (hne : entry'.arguments ≠ entry.arguments)
    (hfound : catalog.referenceForArguments entry.arguments = .ok reference) :
    catalog'.reconstruct reference.referenceId reference.revision =
      Outcome.fail .revisionChanged := by
  refine h.rejected_elsewhere h' hE hfound (List.mem_of_getElem? hat') ?_ hne
  obtain ⟨found, hmem, harguments, rfl⟩ := h.referenceForArguments_eq_ok hfound
  obtain rfl := h.arguments_inj hmem (List.mem_of_getElem? hat) harguments
  rw [h.referenceId_at hat, h'.referenceId_at hat']

/-! ## One digest, one catalog -/

theorem sorted_eq (h : catalog.Built E resolver paths sorted) :
    catalog.entries.map AllowFileEntry.arguments = sorted := by
  rw [h.entries, entriesOf_arguments]

theorem eq_of_sorted (h : catalog.Built E resolver paths sorted)
    (h' : catalog'.Built E resolver paths' sorted) : catalog = catalog' := by
  have hentries : catalog.entries = catalog'.entries := h.entries.trans h'.entries.symm
  have hdigest : catalog.catalogDigest = catalog'.catalogDigest := by
    rw [h.digest, h'.digest, hentries]
  obtain ⟨_, _⟩ := catalog
  obtain ⟨_, _⟩ := catalog'
  obtain rfl : _ = _ := hentries
  obtain rfl : _ = _ := hdigest
  rfl

theorem mem_iff_denotes (h : catalog.Built E resolver paths sorted) {resource : String} :
    pathArguments resource ∈ sorted ↔ Denotes resolver paths resource := by
  rw [h.mem]
  constructor
  · rintro ⟨other, hother, heq⟩
    simp only [pathArguments, Json.object.injEq, List.cons.injEq, Prod.mk.injEq, true_and,
      Json.string.injEq, and_true] at heq
    rwa [heq]
  · exact fun hresource => ⟨resource, hresource, rfl⟩

/-- **The same resources make the same arguments**, in the same order. -/
theorem sorted_of_denotes (h : catalog.Built E resolver paths sorted)
    (h' : catalog'.Built E resolver paths' sorted')
    (hsame : ∀ resource, Denotes resolver paths resource ↔ Denotes resolver paths' resource) :
    sorted = sorted' := by
  have hmem : ∀ a, a ∈ sorted ↔ a ∈ sorted' := by
    intro a
    rw [h.mem, h'.mem]
    simp only [hsame]
  have hperm : sorted.Perm sorted' :=
    (List.perm_ext_iff_of_nodup h.distinct.of_map h'.distinct.of_map).mpr hmem
  refine hperm.eq_of_pairwise (fun a b ha hb hab hba => ?_) h.ordered h'.ordered
  exact List.inj_on_of_nodup_map h.distinct ha ((hmem b).mpr hb) (String.le_antisymm hab hba)

/-- **Without collisions one digest is of one catalog.** -/
theorem eq_of_digest (h : catalog.Built E resolver paths sorted)
    (h' : catalog'.Built E resolver paths' sorted')
    (hE : E.CollisionFree (catalog.documents ++ catalog'.documents))
    (hdigest : catalog.catalogDigest = catalog'.catalogDigest) : catalog = catalog' := by
  have hdocument : allowFileDocument catalog.entries = allowFileDocument catalog'.entries := by
    rw [h.digest, h'.digest] at hdigest
    exact hE _ (List.mem_append_left _ List.mem_cons_self) _
      (List.mem_append_right _ List.mem_cons_self) (CanonicalEncoder.sha256Digest_injective hdigest)
  have hentries : catalog.entries = catalog'.entries := by
    simp only [allowFileDocument, catalogDocument, Json.object.injEq, List.cons.injEq,
      Prod.mk.injEq, true_and, Json.array.injEq, and_true] at hdocument
    apply List.ext_getElem?
    intro i
    have hat := congrArg (fun documents => documents[i]?) hdocument
    simp only [List.getElem?_map] at hat
    cases hleft : catalog.entries[i]? with
    | none =>
      rw [hleft, Option.map_none, eq_comm, Option.map_eq_none_iff] at hat
      exact hat.symm
    | some entry =>
      rw [hleft, Option.map_some, eq_comm, Option.map_eq_some_iff] at hat
      obtain ⟨entry', hright, hcommitment⟩ := hat
      simp only [commitmentDocument, Json.object.injEq, List.cons.injEq, Prod.mk.injEq, true_and,
        Json.string.injEq, and_true] at hcommitment
      rw [hright, h.revision_inj h' (List.mem_of_getElem? hleft) (List.mem_of_getElem? hright) hE
        hcommitment.2.symm]
  have hsorted : sorted = sorted' := by rw [← h.sorted_eq, ← h'.sorted_eq, hentries]
  subst hsorted
  exact h.eq_of_sorted h'

/-- **The digest tells the resources**, where the documents do not collide. -/
theorem digest_iff (h : catalog.Built E resolver paths sorted)
    (h' : catalog'.Built E resolver paths' sorted')
    (hE : E.CollisionFree (catalog.documents ++ catalog'.documents)) :
    catalog.catalogDigest = catalog'.catalogDigest ↔
      ∀ resource, Denotes resolver paths resource ↔ Denotes resolver paths' resource := by
  constructor
  · intro hdigest resource
    obtain rfl := h.eq_of_digest h' hE hdigest
    have hsorted : sorted = sorted' := h.sorted_eq.symm.trans h'.sorted_eq
    rw [← h.mem_iff_denotes, ← h'.mem_iff_denotes, hsorted]
  · intro hsame
    obtain rfl := h.sorted_of_denotes h' hsame
    rw [h.eq_of_sorted h']

end AllowFileCatalog.Built

end

end Xgeny
