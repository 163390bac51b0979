import Xgeny.Lib.AsciiCase
import Xgeny.Policy.Coverage
import Xgeny.Workspace.Arguments

set_option autoImplicit false

/-!
# The environment of a process

The host freezes an environment, and a model may add entries to it for one process.

* `ProcessEnvironment.new`: what the host may freeze;
* `mergeModelEnvironment`: the entries that a model adds, one after the other;
* `HostEntries`, **`ProcessEnvironment.new_hostEntries`**: what a frozen environment satisfies;
* `ModelEntries`, **`mergeModelEnvironment_eq_ok`**: when entries are added, and what is then there;
* **`model_environment_keeps_host`**, **`mergeModelEnvironment_perm`**: the host's entries stay, the
  keys stay distinct in any case, and the order of the model's entries does not matter.
-/

namespace Xgeny

/-! ## One entry -/

/-- `MAX_ENVIRONMENT_KEY_BYTES`. -/
def maxEnvironmentKeyBytes : ℕ := 64

/-- `MAX_ENVIRONMENT_VALUE_BYTES`. -/
def maxEnvironmentValueBytes : ℕ := 4096

def validateEnvironmentPair (key value : String) : Outcome Unit Unit :=
  Outcome.failIf (key = "" ∨ maxEnvironmentKeyBytes < byteLen key ∨
    maxEnvironmentValueBytes < byteLen value ∨ '\x00' ∈ value.toList ∨
    ¬ (bytes key).zipIdx.all (fun (byte, index) =>
      byte == 0x5f || isAsciiAlphanumeric byte && (0 < index || !isAsciiDigit byte)) = true) ()

/-- `usize::checked_add`. -/
def usizeCheckedAdd (a b : ℕ) : Option ℕ := if a + b < 2 ^ 64 then some (a + b) else none

/-- The running total of the bytes of the entries. -/
def addEnvironmentBytes (total : ℕ) (key value : String) : Option ℕ :=
  (usizeCheckedAdd total (byteLen key)).bind (usizeCheckedAdd · (byteLen value))

/-! ## The host's environment -/

/-- `MAX_HOST_ENVIRONMENT_ENTRIES`. -/
def maxHostEnvironmentEntries : ℕ := 256

/-- `MAX_HOST_ENVIRONMENT_BYTES`. -/
def maxHostEnvironmentBytes : ℕ := 128 * 1024

structure ProcessEnvironmentError where
  deriving DecidableEq

structure ProcessEnvironment where
  values : BTreeMap String String
  digest : String

/-- One entry of the host: the keys seen so far in upper case, and the bytes. -/
def checkHostEntry (acc : BTreeSet String × ℕ) (entry : String × String) :
    Outcome ProcessEnvironmentError (BTreeSet String × ℕ) := do
  Outcome.mapErr (fun _ => ⟨⟩) (validateEnvironmentPair entry.1 entry.2)
  let foldedKeys ← BTreeSet.insertNew acc.1 (toAsciiUppercase entry.1) ⟨⟩
  let total ← Outcome.okOr (addEnvironmentBytes acc.2 entry.1 entry.2) ⟨⟩
  Outcome.failIf (maxHostEnvironmentBytes < total) ⟨⟩
  pure (foldedKeys, total)

/-- The digest of the entries is a parameter. -/
def ProcessEnvironment.new (digestMap : BTreeMap String String → Option String)
    (values : BTreeMap String String) : Outcome ProcessEnvironmentError ProcessEnvironment := do
  Outcome.failIf (maxHostEnvironmentEntries < values.size) ⟨⟩
  let _ ← Outcome.foldl checkHostEntry (∅, 0) values.toList
  let digest ← Outcome.okOr (digestMap values) ⟨⟩
  pure ⟨values, digest⟩

/-! ## The model's entries -/

/-- `MAX_MODEL_ENV_ENTRIES`. -/
def maxModelEnvEntries : ℕ := 64

/-- `MAX_MODEL_ENV_BYTES`. -/
def maxModelEnvBytes : ℕ := 32 * 1024

def protectedEnvironmentNames : List String :=
  ["PATH", "PATHEXT", "HOME", "USERPROFILE", "SYSTEMROOT", "WINDIR", "COMSPEC", "TMP", "TEMP",
    "TMPDIR", "CARGO_HOME", "RUSTUP_HOME"]

def protectedEnvironmentKey (key : String) : Bool :=
  let upper := toAsciiUppercase key
  protectedEnvironmentNames.contains upper || "LD_".toList.isPrefixOf upper.toList ||
    "DYLD_".toList.isPrefixOf upper.toList

/-- One entry of the model: the environment so far, and the bytes of the model's entries. -/
def mergeModelEntry (acc : BTreeMap String String × ℕ) (member : String × Json) :
    Outcome AdapterPrepareFailure (BTreeMap String String × ℕ) := do
  let key := member.1
  let value ← Outcome.okOr member.2.asStr .invalidMaterial
  Outcome.mapErr (fun _ => .invalidMaterial) (validateEnvironmentPair key value)
  let total ← Outcome.okOr (addEnvironmentBytes acc.2 key value) .invalidMaterial
  Outcome.failIf (maxModelEnvBytes < total ∨
    acc.1.keys.any (fun existing => eqIgnoreAsciiCase existing key) = true ∨
    protectedEnvironmentKey key = true) .invalidMaterial
  pure (acc.1.insert key value, total)

def mergeModelEnvironment (environment : BTreeMap String String) (value : Option Json) :
    Outcome AdapterPrepareFailure (BTreeMap String String) := do
  let model ← Outcome.okOr ((value.bind Json.asObject).filter fun model =>
    decide (model.length ≤ maxModelEnvEntries)) .invalidMaterial
  let merged ← Outcome.foldl mergeModelEntry (environment, 0) model
  pure merged.1

/-! ## What an entry satisfies -/

/-- A letter or `_`, and then letters, digits and `_`. -/
def IsEnvironmentKey (key : String) : Prop :=
  ∃ first rest, bytes key = first :: rest ∧
    (first = 0x5f ∨ isAsciiAlphanumeric first = true ∧ isAsciiDigit first = false) ∧
    ∀ byte ∈ rest, byte = 0x5f ∨ isAsciiAlphanumeric byte = true

structure EnvironmentPair (key value : String) : Prop where
  shape : IsEnvironmentKey key
  keyBytes : byteLen key ≤ maxEnvironmentKeyBytes
  valueBytes : byteLen value ≤ maxEnvironmentValueBytes
  text : '\x00' ∉ value.toList

theorem isEnvironmentKey_iff (key : String) : IsEnvironmentKey key ↔ key ≠ "" ∧
    (bytes key).zipIdx.all (fun (byte, index) =>
      byte == 0x5f || isAsciiAlphanumeric byte && (0 < index || !isAsciiDigit byte)) = true := by
  unfold IsEnvironmentKey
  rw [ne_eq, ← bytes_eq_nil]
  cases bytes key with
  | nil => simp
  | cons first rest =>
    have hrest : ((rest.zipIdx 1).all fun (byte, index) =>
        byte == 0x5f || isAsciiAlphanumeric byte && (0 < index || !isAsciiDigit byte)) = true ↔
        ∀ byte ∈ rest, byte = 0x5f ∨ isAsciiAlphanumeric byte = true := by
      rw [List.all_eq_true]
      constructor
      · intro hall byte hbyte
        obtain ⟨i, hi, rfl⟩ := List.mem_iff_getElem.mp hbyte
        have hone := hall (rest[i], 1 + i) (List.mk_mem_zipIdx_iff_le_and_getElem?_sub.mpr (by simp [hi]))
        simpa using hone
      · rintro hall ⟨byte, index⟩ hentry
        obtain ⟨hle, hindex, hbyte⟩ := List.mem_zipIdx hentry
        have hpos : 0 < index := by omega
        have hone := hall byte (by rw [hbyte]; exact List.getElem_mem _)
        simpa [hpos] using hone
    simp only [List.cons.injEq, reduceCtorEq, not_false_eq_true, true_and, List.zipIdx_cons,
      List.all_cons, Bool.and_eq_true, Nat.zero_add, hrest]
    constructor
    · rintro ⟨_, _, ⟨rfl, rfl⟩, hfirst, hall⟩
      exact ⟨by simpa using hfirst, hall⟩
    · rintro ⟨hfirst, hall⟩
      exact ⟨first, rest, ⟨rfl, rfl⟩, by simpa using hfirst, hall⟩

theorem validateEnvironmentPair_eq_ok {key value : String} :
    validateEnvironmentPair key value = .ok () ↔ EnvironmentPair key value := by
  have hkey := isEnvironmentKey_iff key
  unfold validateEnvironmentPair
  rw [Outcome.failIf_eq_ok]
  push Not
  constructor
  · rintro ⟨hne, hkeyBytes, hvalueBytes, htext, hall⟩
    exact ⟨hkey.mpr ⟨hne, hall⟩, hkeyBytes, hvalueBytes, htext⟩
  · rintro ⟨hshape, hkeyBytes, hvalueBytes, htext⟩
    obtain ⟨hne, hall⟩ := hkey.mp hshape
    exact ⟨hne, hkeyBytes, hvalueBytes, htext, hall⟩

/-- A listed name, or a name with a listed beginning, in any case. -/
def ProtectedKey (key : String) : Prop :=
  (∃ name ∈ protectedEnvironmentNames, eqIgnoreAsciiCase key name = true) ∨
    ∃ first rest, key = first ++ rest ∧
      (eqIgnoreAsciiCase first "LD_" = true ∨ eqIgnoreAsciiCase first "DYLD_" = true)

theorem isPrefixOf_toAsciiUppercase {start key : String} (hupper : toAsciiUppercase start = start) :
    start.toList.isPrefixOf (toAsciiUppercase key).toList = true ↔
      ∃ first rest, key = first ++ rest ∧ eqIgnoreAsciiCase first start = true := by
  rw [List.isPrefixOf_iff_prefix, toAsciiUppercase, String.toList_ofList]
  constructor
  · rintro ⟨rest, hrest⟩
    obtain ⟨first, rest', hkey, hfirst, -⟩ := List.map_eq_append_iff.mp hrest.symm
    refine ⟨String.ofList first, String.ofList rest', ?_, ?_⟩
    · rw [← String.ofList_append, ← hkey, String.ofList_toList]
    · rw [← toAsciiUppercase_eq_iff, hupper, toAsciiUppercase, String.toList_ofList, hfirst,
        String.ofList_toList]
  · rintro ⟨first, rest, rfl, hfirst⟩
    rw [← toAsciiUppercase_eq_iff, hupper] at hfirst
    rw [← hfirst, toAsciiUppercase, String.toList_ofList, String.toList_append, List.map_append]
    exact List.prefix_append _ _

theorem protectedEnvironmentKey_iff (key : String) :
    protectedEnvironmentKey key = true ↔ ProtectedKey key := by
  have hnames : ∀ name ∈ protectedEnvironmentNames, toAsciiUppercase name = name := by decide
  have hlisted : protectedEnvironmentNames.contains (toAsciiUppercase key) = true ↔
      ∃ name ∈ protectedEnvironmentNames, eqIgnoreAsciiCase key name = true := by
    rw [List.contains_iff_mem]
    constructor
    · intro hmem
      exact ⟨_, hmem, toAsciiUppercase_eq_iff.mp (hnames _ hmem).symm⟩
    · rintro ⟨name, hmem, hname⟩
      rwa [toAsciiUppercase_eq_iff.mpr hname, hnames name hmem]
  unfold protectedEnvironmentKey ProtectedKey
  rw [Bool.or_eq_true, Bool.or_eq_true, hlisted, isPrefixOf_toAsciiUppercase (by decide),
    isPrefixOf_toAsciiUppercase (by decide), or_assoc]
  simp only [and_or_left, exists_or]

/-! ## The host's loop -/

theorem usizeCheckedAdd_eq_some {a b c : ℕ} :
    usizeCheckedAdd a b = some c ↔ a + b = c ∧ c < 2 ^ 64 := by
  unfold usizeCheckedAdd
  by_cases h : a + b < 2 ^ 64
  · simp only [if_pos h, Option.some.injEq]
    omega
  · simp only [if_neg h, reduceCtorEq, false_iff]
    omega

theorem addEnvironmentBytes_eq_some {total total' : ℕ} {key value : String} :
    addEnvironmentBytes total key value = some total' ↔
      total + (byteLen key + byteLen value) = total' ∧ total' < 2 ^ 64 := by
  simp only [addEnvironmentBytes, Option.bind_eq_some_iff, usizeCheckedAdd_eq_some]
  constructor
  · rintro ⟨_, ⟨rfl, _⟩, rfl, hlt⟩
    exact ⟨by omega, hlt⟩
  · rintro ⟨rfl, hlt⟩
    exact ⟨_, ⟨rfl, by omega⟩, by omega, hlt⟩

/-- Keys that differ, whatever the case. -/
def DifferInAnyCase (a b : String) : Prop := eqIgnoreAsciiCase a b = false

/-- What the host may freeze. -/
structure HostEntries (values : BTreeMap String String) : Prop where
  count : values.size ≤ maxHostEnvironmentEntries
  pairs : ∀ entry ∈ values.toList, EnvironmentPair entry.1 entry.2
  distinct : (values.toList.map Prod.fst).Pairwise DifferInAnyCase
  total : (values.toList.map fun entry => byteLen entry.1 + byteLen entry.2).sum ≤
    maxHostEnvironmentBytes

/-- After the entries `seen`. -/
structure HostChecked (seen : List (String × String)) (acc : BTreeSet String × ℕ) : Prop where
  pairs : ∀ entry ∈ seen, EnvironmentPair entry.1 entry.2
  folded : ∀ key, key ∈ acc.1 ↔ ∃ entry ∈ seen, toAsciiUppercase entry.1 = key
  distinct : (seen.map Prod.fst).Pairwise DifferInAnyCase
  total : acc.2 = (seen.map fun entry => byteLen entry.1 + byteLen entry.2).sum
  within : acc.2 ≤ maxHostEnvironmentBytes

theorem checkHostEntry_eq_ok {acc acc' : BTreeSet String × ℕ} {entry : String × String} :
    checkHostEntry acc entry = .ok acc' ↔ EnvironmentPair entry.1 entry.2 ∧
      toAsciiUppercase entry.1 ∉ acc.1 ∧
      acc.2 + (byteLen entry.1 + byteLen entry.2) ≤ maxHostEnvironmentBytes ∧
      (acc.1.insert (toAsciiUppercase entry.1), acc.2 + (byteLen entry.1 + byteLen entry.2)) =
        acc' := by
  simp only [checkHostEntry, Outcome.bind_eq_ok, Outcome.exists_unit, Outcome.mapErr_eq_ok,
    validateEnvironmentPair_eq_ok, BTreeSet.insertNew_eq_ok, Outcome.okOr_eq_ok,
    addEnvironmentBytes_eq_some, Outcome.failIf_eq_ok, Outcome.pure_eq_ok, not_lt]
  constructor
  · rintro ⟨hpair, _, ⟨hnew, rfl⟩, _, ⟨rfl, -⟩, hle, rfl⟩
    exact ⟨hpair, hnew, hle, rfl⟩
  · rintro ⟨hpair, hnew, hle, rfl⟩
    refine ⟨hpair, _, ⟨hnew, rfl⟩, _, ⟨rfl, ?_⟩, hle, rfl⟩
    unfold maxHostEnvironmentBytes at hle
    omega

theorem hostChecked_nil : HostChecked [] (∅, 0) where
  pairs := by simp
  folded := by simp
  distinct := List.Pairwise.nil
  total := rfl
  within := Nat.zero_le _

theorem HostChecked.snoc {seen : List (String × String)} {acc acc' : BTreeSet String × ℕ}
    {entry : String × String} (h : HostChecked seen acc) (hok : checkHostEntry acc entry = .ok acc') :
    HostChecked (seen ++ [entry]) acc' := by
  obtain ⟨hpair, hnew, hle, rfl⟩ := checkHostEntry_eq_ok.mp hok
  constructor
  · intro other hother
    rcases List.mem_append.mp hother with hother | hother
    · exact h.pairs other hother
    · rwa [List.mem_singleton.mp hother]
  · intro key
    rw [BTreeSet.mem_insert_iff, h.folded]
    simp only [List.mem_append, List.mem_singleton, or_and_right, exists_or, exists_eq_left]
    exact or_comm
  · rw [List.map_append, List.map_singleton, List.pairwise_append]
    refine ⟨h.distinct, List.pairwise_singleton _ _, ?_⟩
    intro key hkey other hother
    obtain ⟨before, hbefore, rfl⟩ := List.mem_map.mp hkey
    rw [List.mem_singleton.mp hother]
    by_contra hsame
    have hsame : eqIgnoreAsciiCase before.1 entry.1 = true := by simpa [DifferInAnyCase] using hsame
    exact hnew ((h.folded _).mpr ⟨before, hbefore, toAsciiUppercase_eq_iff.mpr hsame⟩)
  · show acc.2 + _ = _
    rw [List.map_append, List.sum_append, h.total, List.map_singleton, List.sum_singleton]
  · exact hle

/-- **What a frozen environment satisfies.** -/
theorem ProcessEnvironment.new_hostEntries {digestMap : BTreeMap String String → Option String}
    {values : BTreeMap String String} {environment : ProcessEnvironment}
    (h : ProcessEnvironment.new digestMap values = .ok environment) :
    environment.values = values ∧ HostEntries values := by
  simp only [ProcessEnvironment.new, Outcome.bind_eq_ok, Outcome.exists_unit, Outcome.failIf_eq_ok,
    Outcome.okOr_eq_ok, Outcome.pure_eq_ok, not_lt] at h
  obtain ⟨hcount, acc, hacc, digest, -, rfl⟩ := h
  have hI := Outcome.foldl_induction hostChecked_nil (fun _ _ _ _ _ hI hok => hI.snoc hok) hacc
  exact ⟨rfl, hcount, hI.pairs, hI.distinct, hI.total ▸ hI.within⟩

/-! ## The model's loop -/

/-- The bytes of one entry. -/
def modelEntryBytes (member : String × Json) : ℕ :=
  byteLen member.1 + byteLen (member.2.asStr.getD "")

/-- What a model may add to an environment. -/
structure ModelEntries (host : BTreeMap String String) (members : List (String × Json)) : Prop where
  strings : ∀ member ∈ members, ∃ value, member.2 = .string value ∧ EnvironmentPair member.1 value
  fresh : ∀ member ∈ members, ∀ existing ∈ host, DifferInAnyCase existing member.1
  distinct : (members.map Prod.fst).Pairwise DifferInAnyCase
  unprotected : ∀ member ∈ members, ¬ ProtectedKey member.1
  total : (members.map modelEntryBytes).sum ≤ maxModelEnvBytes

/-- The environment with the entries added. -/
def addModelEntries (host : BTreeMap String String) (members : List (String × Json)) :
    BTreeMap String String :=
  BTreeMap.insertAll Prod.fst (fun member => member.2.asStr.getD "") host members

theorem addModelEntries_snoc (host : BTreeMap String String) (seen : List (String × Json))
    (member : String × Json) : addModelEntries host (seen ++ [member]) =
      (addModelEntries host seen).insert member.1 (member.2.asStr.getD "") := by
  unfold addModelEntries BTreeMap.insertAll
  rw [List.foldl_append]
  rfl

theorem mem_addModelEntries {host : BTreeMap String String} {seen : List (String × Json)}
    {key : String} : key ∈ addModelEntries host seen ↔ key ∈ host ∨ key ∈ seen.map Prod.fst := by
  rw [addModelEntries, BTreeMap.mem_insertAll, List.mem_map]

/-- What one more entry must satisfy. -/
structure ModelEntry (environment : BTreeMap String String) (total : ℕ) (member : String × Json) :
    Prop where
  string : ∃ value, member.2 = .string value ∧ EnvironmentPair member.1 value
  fresh : ∀ existing ∈ environment, DifferInAnyCase existing member.1
  unprotected : ¬ ProtectedKey member.1
  total : total + modelEntryBytes member ≤ maxModelEnvBytes

theorem mergeModelEntry_eq_ok {acc acc' : BTreeMap String String × ℕ} {member : String × Json} :
    mergeModelEntry acc member = .ok acc' ↔ ModelEntry acc.1 acc.2 member ∧
      (acc.1.insert member.1 (member.2.asStr.getD ""), acc.2 + modelEntryBytes member) = acc' := by
  have hfresh : acc.1.keys.any (fun existing => eqIgnoreAsciiCase existing member.1) = false ↔
      ∀ existing ∈ acc.1, DifferInAnyCase existing member.1 := by
    simp only [List.any_eq_false, Std.ExtTreeMap.mem_keys, DifferInAnyCase, Bool.not_eq_true]
  simp only [mergeModelEntry, Outcome.bind_eq_ok, Outcome.exists_unit, Outcome.mapErr_eq_ok,
    validateEnvironmentPair_eq_ok, Outcome.okOr_eq_ok, addEnvironmentBytes_eq_some,
    Outcome.failIf_eq_ok, Outcome.pure_eq_ok, not_or, not_lt, Bool.not_eq_true, hfresh,
    Json.asStr_eq_string]
  constructor
  · rintro ⟨value, hvalue, hpair, _, ⟨rfl, -⟩, ⟨hle, hnew, hkey⟩, rfl⟩
    have hbytes : modelEntryBytes member = byteLen member.1 + byteLen value := by
      rw [modelEntryBytes, hvalue]
      rfl
    refine ⟨⟨⟨value, hvalue, hpair⟩, hnew, ?_, hbytes ▸ hle⟩, by rw [hbytes, hvalue]; rfl⟩
    rw [← protectedEnvironmentKey_iff, hkey]
    exact Bool.false_ne_true
  · rintro ⟨⟨⟨value, hvalue, hpair⟩, hnew, hkey, hle⟩, rfl⟩
    have hbytes : modelEntryBytes member = byteLen member.1 + byteLen value := by
      rw [modelEntryBytes, hvalue]
      rfl
    rw [hbytes] at hle
    refine ⟨value, hvalue, hpair, _, ⟨rfl, ?_⟩, ⟨hle, hnew, ?_⟩, by rw [hbytes, hvalue]; rfl⟩
    · unfold maxModelEnvBytes at hle
      omega
    · rw [← protectedEnvironmentKey_iff] at hkey
      exact Bool.eq_false_iff.mpr hkey

theorem modelEntries_snoc {host : BTreeMap String String} {seen : List (String × Json)}
    {member : String × Json} : ModelEntries host (seen ++ [member]) ↔ ModelEntries host seen ∧
      ModelEntry (addModelEntries host seen) (seen.map modelEntryBytes).sum member := by
  constructor
  · intro h
    have hin : member ∈ seen ++ [member] := by simp
    have hseen : ∀ other ∈ seen, other ∈ seen ++ [member] := fun other hother =>
      List.mem_append_left _ hother
    have hdistinct := h.distinct
    rw [List.map_append, List.pairwise_append] at hdistinct
    have htotal := h.total
    rw [List.map_append, List.sum_append, List.map_singleton, List.sum_singleton] at htotal
    refine ⟨⟨fun other hother => h.strings other (hseen other hother),
      fun other hother => h.fresh other (hseen other hother), hdistinct.1,
      fun other hother => h.unprotected other (hseen other hother), by omega⟩,
      h.strings member hin, ?_, h.unprotected member hin, htotal⟩
    intro existing hexisting
    rcases mem_addModelEntries.mp hexisting with hhost | hkey
    · exact h.fresh member hin existing hhost
    · exact hdistinct.2.2 existing hkey member.1 (by simp)
  · rintro ⟨h, hmember⟩
    constructor
    · intro other hother
      rcases List.mem_append.mp hother with hother | hother
      · exact h.strings other hother
      · rw [List.mem_singleton.mp hother]
        exact hmember.string
    · intro other hother existing hexisting
      rcases List.mem_append.mp hother with hother | hother
      · exact h.fresh other hother existing hexisting
      · rw [List.mem_singleton.mp hother]
        exact hmember.fresh existing (mem_addModelEntries.mpr (Or.inl hexisting))
    · rw [List.map_append, List.pairwise_append]
      refine ⟨h.distinct, List.pairwise_singleton _ _, fun key hkey other hother => ?_⟩
      rw [List.map_singleton, List.mem_singleton] at hother
      rw [hother]
      exact hmember.fresh key (mem_addModelEntries.mpr (Or.inr hkey))
    · intro other hother
      rcases List.mem_append.mp hother with hother | hother
      · exact h.unprotected other hother
      · rw [List.mem_singleton.mp hother]
        exact hmember.unprotected
    · rw [List.map_append, List.sum_append, List.map_singleton, List.sum_singleton]
      exact hmember.total

/-- **The loop**, by induction on the entries from the last one. -/
theorem mergeModelEntries_eq_ok {host : BTreeMap String String} {members : List (String × Json)}
    {acc : BTreeMap String String × ℕ} :
    Outcome.foldl mergeModelEntry (host, 0) members = .ok acc ↔ ModelEntries host members ∧
      (addModelEntries host members, (members.map modelEntryBytes).sum) = acc := by
  induction members using List.reverseRecOn generalizing acc with
  | nil =>
    have hnil : ModelEntries host [] := ⟨by simp, by simp, List.Pairwise.nil, by simp, by simp⟩
    simp [Outcome.foldl, hnil, addModelEntries]
  | append_singleton seen member ih =>
    rw [Outcome.foldl_append, Outcome.bind_eq_ok, modelEntries_snoc, addModelEntries_snoc,
      List.map_append, List.sum_append, List.map_singleton, List.sum_singleton]
    simp only [Outcome.foldl, Outcome.bind_eq_ok, ih, mergeModelEntry_eq_ok, Except.ok.injEq]
    constructor
    · rintro ⟨_, ⟨hseen, rfl⟩, _, ⟨hmember, rfl⟩, rfl⟩
      exact ⟨⟨hseen, hmember⟩, rfl⟩
    · rintro ⟨⟨hseen, hmember⟩, rfl⟩
      exact ⟨_, ⟨hseen, rfl⟩, _, ⟨hmember, rfl⟩, rfl⟩

/-- **When a model's entries are added**, and what is then there. -/
theorem mergeModelEnvironment_eq_ok {host result : BTreeMap String String} {value : Option Json} :
    mergeModelEnvironment host value = .ok result ↔ ∃ members, value = some (.object members) ∧
      members.length ≤ maxModelEnvEntries ∧ ModelEntries host members ∧
      addModelEntries host members = result := by
  have hobject : ∀ members, value.bind Json.asObject = some members ↔
      value = some (.object members) := by
    intro members
    rw [Option.bind_eq_some_iff]
    constructor
    · rintro ⟨json, rfl, hjson⟩
      cases json <;> simp_all [Json.asObject]
    · rintro rfl
      exact ⟨_, rfl, rfl⟩
  simp only [mergeModelEnvironment, Outcome.bind_eq_ok, Outcome.okOr_eq_ok,
    Option.filter_eq_some_iff, hobject, mergeModelEntries_eq_ok, Outcome.pure_eq_ok,
    decide_eq_true_eq]
  constructor
  · rintro ⟨members, ⟨hvalue, hcount⟩, _, ⟨hentries, rfl⟩, rfl⟩
    exact ⟨members, hvalue, hcount, hentries, rfl⟩
  · rintro ⟨members, hvalue, hcount, hentries, rfl⟩
    exact ⟨members, ⟨hvalue, hcount⟩, _, ⟨hentries, rfl⟩, rfl⟩

/-! ## The order of the entries -/

theorem DifferInAnyCase.symm {a b : String} (h : DifferInAnyCase a b) : DifferInAnyCase b a := by
  unfold DifferInAnyCase at h ⊢
  rwa [eqIgnoreAsciiCase_comm]

instance : Std.Symm DifferInAnyCase := ⟨fun _ _ h => h.symm⟩

theorem DifferInAnyCase.ne {a b : String} (h : DifferInAnyCase a b) : a ≠ b := by
  rintro rfl
  rw [DifferInAnyCase, eqIgnoreAsciiCase_refl] at h
  exact absurd h (by decide)

theorem HostEntries.differ {values : BTreeMap String String} (h : HostEntries values) {a b : String}
    (ha : a ∈ values) (hb : b ∈ values) (hne : a ≠ b) : DifferInAnyCase a b := by
  have hkeys := h.distinct
  rw [Std.ExtTreeMap.map_fst_toList_eq_keys] at hkeys
  exact hkeys.forall (Std.ExtTreeMap.mem_keys.mpr ha)
    (Std.ExtTreeMap.mem_keys.mpr hb) hne

theorem ModelEntries.nodup {host : BTreeMap String String} {members : List (String × Json)}
    (h : ModelEntries host members) : (members.map Prod.fst).Nodup :=
  h.distinct.imp fun hab => hab.ne

theorem ModelEntries.differ {host : BTreeMap String String} {members : List (String × Json)}
    (h : ModelEntries host members) (hhost : HostEntries host) {a b : String}
    (ha : a ∈ addModelEntries host members) (hb : b ∈ addModelEntries host members) (hne : a ≠ b) :
    DifferInAnyCase a b := by
  rcases mem_addModelEntries.mp ha with ha | ha <;> rcases mem_addModelEntries.mp hb with hb | hb
  · exact hhost.differ ha hb hne
  · obtain ⟨member, hmember, rfl⟩ := List.mem_map.mp hb
    exact h.fresh member hmember a ha
  · obtain ⟨member, hmember, rfl⟩ := List.mem_map.mp ha
    exact (h.fresh member hmember b hb).symm
  · exact h.distinct.forall ha hb hne

theorem ModelEntries.perm {host : BTreeMap String String} {members members' : List (String × Json)}
    (hperm : members.Perm members') (h : ModelEntries host members) : ModelEntries host members' where
  strings := fun member hmember => h.strings member (hperm.mem_iff.mpr hmember)
  fresh := fun member hmember => h.fresh member (hperm.mem_iff.mpr hmember)
  distinct := ((hperm.map Prod.fst).pairwise_iff fun hab => hab.symm).mp h.distinct
  unprotected := fun member hmember => h.unprotected member (hperm.mem_iff.mpr hmember)
  total := (hperm.map modelEntryBytes).sum_eq ▸ h.total

theorem ModelEntries.get {host : BTreeMap String String} {members : List (String × Json)}
    (h : ModelEntries host members) (key value : String) :
    (addModelEntries host members)[key]? = some value ↔
      host[key]? = some value ∨ (key, Json.string value) ∈ members := by
  have hfree : ∀ member ∈ members, member.1 ∉ host := fun member hmember hhost =>
    (h.fresh member hmember member.1 hhost).ne rfl
  rw [addModelEntries, (BTreeMap.Adds.insertAll h.nodup hfree).lookup, List.mem_map]
  refine or_congr_right ?_
  constructor
  · rintro ⟨member, hmember, heq⟩
    obtain ⟨rfl, rfl⟩ := Prod.mk.inj heq
    obtain ⟨text, htext, -⟩ := h.strings member hmember
    rw [htext]
    show (member.1, Json.string text) ∈ members
    rw [← htext]
    exact hmember
  · intro hmember
    exact ⟨_, hmember, rfl⟩

theorem addModelEntries_perm {host : BTreeMap String String}
    {members members' : List (String × Json)} (hperm : members.Perm members')
    (h : ModelEntries host members) :
    addModelEntries host members = addModelEntries host members' := by
  ext key value
  rw [h.get, (h.perm hperm).get, hperm.mem_iff]

theorem refusal_mapErr {key value : String} :
    Outcome.Avoids (· ≠ AdapterPrepareFailure.invalidMaterial)
        (Outcome.mapErr (fun _ => .invalidMaterial) (validateEnvironmentPair key value)) ∧
      Outcome.Calm (Outcome.mapErr (fun _ => AdapterPrepareFailure.invalidMaterial)
        (validateEnvironmentPair key value)) := by
  refine ⟨Outcome.avoids_mapErr fun _ => by simp, ?_⟩
  unfold validateEnvironmentPair Outcome.failIf
  split <;> simp [Outcome.mapErr, Outcome.fail, Outcome.Calm]

theorem mergeModelEnvironment_eq_error {host : BTreeMap String String} {value : Option Json}
    {fault : Fault AdapterPrepareFailure} (h : mergeModelEnvironment host value = .error fault) :
    fault = .err .invalidMaterial := by
  have havoids : Outcome.Avoids (· ≠ AdapterPrepareFailure.invalidMaterial)
      (mergeModelEnvironment host value) := by
    have hloop : ∀ model, Outcome.Avoids (· ≠ AdapterPrepareFailure.invalidMaterial)
        (Outcome.foldl mergeModelEntry (host, 0) model) :=
      Outcome.avoids_foldl (by simp [mergeModelEntry, refusal_mapErr.1]) (host, 0)
    simp [mergeModelEnvironment, hloop]
  have hcalm : Outcome.Calm (mergeModelEnvironment host value) := by
    have hloop : ∀ model, Outcome.Calm (Outcome.foldl mergeModelEntry (host, 0) model) :=
      fun model => Outcome.calm_foldl (I := fun _ _ => True) trivial (fun _ _ _ _ _ _ _ => trivial)
        fun _ _ _ _ _ => by simp [mergeModelEntry, refusal_mapErr.2]
    simp [mergeModelEnvironment, hloop]
  cases fault with
  | err e => rw [not_not.mp (havoids e h)]
  | panic message => exact absurd h (hcalm message)

/-- **The order of the entries does not matter.** -/
theorem mergeModelEnvironment_perm {host : BTreeMap String String}
    {members members' : List (String × Json)} (hperm : members.Perm members') :
    mergeModelEnvironment host (some (.object members)) =
      mergeModelEnvironment host (some (.object members')) := by
  have hok : ∀ {xs ys : List (String × Json)} {result : BTreeMap String String}, xs.Perm ys →
      mergeModelEnvironment host (some (.object xs)) = .ok result →
      mergeModelEnvironment host (some (.object ys)) = .ok result := by
    intro xs ys result hperm hxs
    obtain ⟨_, hvalue, hcount, hentries, rfl⟩ := mergeModelEnvironment_eq_ok.mp hxs
    obtain rfl : xs = _ := Json.object.inj (Option.some.inj hvalue)
    exact mergeModelEnvironment_eq_ok.mpr ⟨ys, rfl, hperm.length_eq ▸ hcount, hentries.perm hperm,
      (addModelEntries_perm hperm hentries).symm⟩
  cases hleft : mergeModelEnvironment host (some (.object members)) with
  | ok result => exact (hok hperm hleft).symm
  | error fault =>
    cases hright : mergeModelEnvironment host (some (.object members')) with
    | ok result =>
      rw [hok hperm.symm hright] at hleft
      cases hleft
    | error fault' =>
      rw [mergeModelEnvironment_eq_error hleft, mergeModelEnvironment_eq_error hright]

/-! ## Both environments -/

/-- **The host's entries stay.** The entries of the model are added to them, none under a protected
name or under a key that is there in any case, and in any order. -/
theorem model_environment_keeps_host {digestMap : BTreeMap String String → Option String}
    {values : BTreeMap String String} {environment : ProcessEnvironment} (env : Option Json)
    (hnew : ProcessEnvironment.new digestMap values = .ok environment) :
    (∀ result, mergeModelEnvironment environment.values env = .ok result →
      ∃ members, env = some (.object members) ∧
        (∀ key value : String, values[key]? = some value → result[key]? = some value) ∧
        (∀ member ∈ members, member.1 ∉ values ∧ ∃ value, member.2 = .string value) ∧
        (∀ key value : String, result[key]? = some value ↔
          values[key]? = some value ∨ (key, Json.string value) ∈ members) ∧
        (∀ a ∈ result, ∀ b ∈ result, eqIgnoreAsciiCase a b = true → a = b) ∧
        (∀ member ∈ members, ¬ ProtectedKey member.1) ∧
        ∀ key value : String, result[key]? = some value → IsEnvironmentKey key ∧ '\x00' ∉ value.toList) ∧
    ∀ members members', members.Perm members' →
      mergeModelEnvironment environment.values (some (.object members)) =
        mergeModelEnvironment environment.values (some (.object members')) := by
  obtain ⟨rfl, hhost⟩ := ProcessEnvironment.new_hostEntries hnew
  refine ⟨?_, fun members members' hperm => mergeModelEnvironment_perm hperm⟩
  intro result hresult
  obtain ⟨members, rfl, -, hentries, rfl⟩ := mergeModelEnvironment_eq_ok.mp hresult
  refine ⟨members, rfl, ?_, ?_, hentries.get, ?_, hentries.unprotected, ?_⟩
  · exact fun key value hvalue => (hentries.get key value).mpr (Or.inl hvalue)
  · intro member hmember
    obtain ⟨value, hvalue, -⟩ := hentries.strings member hmember
    exact ⟨fun hin => (hentries.fresh member hmember member.1 hin).ne rfl, value, hvalue⟩
  · intro a ha b hb hsame
    by_contra hne
    exact Bool.eq_false_iff.mp (hentries.differ hhost ha hb hne) hsame
  · intro key value hvalue
    rcases (hentries.get key value).mp hvalue with hold | hadded
    · have hpair := hhost.pairs (key, value) (Std.ExtTreeMap.mem_toList_iff_getElem?_eq_some.mpr hold)
      exact ⟨hpair.shape, hpair.text⟩
    · obtain ⟨text, htext, hpair⟩ := hentries.strings _ hadded
      obtain rfl : value = text := Json.string.inj htext
      exact ⟨hpair.shape, hpair.text⟩

/-- The host's entries of the sample. -/
def sampleEnvironment : BTreeMap String String := .ofList [("Lang", "C"), ("Term", "dumb")] compare

theorem model_environment_keeps_host_sample : ∃ result,
    mergeModelEnvironment sampleEnvironment
      (some (.object [("CI", .string "1"), ("_trace", .string "")])) = .ok result ∧
    (result["Lang"]? : Option String) = some "C" ∧ (result["CI"]? : Option String) = some "1" := by
  obtain ⟨result, hresult⟩ := Outcome.exists_ok_of_isSome (ε := AdapterPrepareFailure)
    (x := mergeModelEnvironment sampleEnvironment
      (some (.object [("CI", .string "1"), ("_trace", .string "")]))) (by decide)
  obtain ⟨environment, henvironment⟩ := Outcome.exists_ok_of_isSome (ε := ProcessEnvironmentError)
    (x := ProcessEnvironment.new (fun _ => some "digest") sampleEnvironment) (by decide)
  have hvalues := (ProcessEnvironment.new_hostEntries henvironment).1
  obtain ⟨members, hmembers, hkept, -, hadded, -⟩ :=
    (model_environment_keeps_host _ henvironment).1 result (by rw [hvalues]; exact hresult)
  obtain rfl := Json.object.inj (Option.some.inj hmembers)
  exact ⟨result, hresult, hkept "Lang" "C" (by decide),
    (hadded "CI" "1").mpr (Or.inr (by decide))⟩

end Xgeny
