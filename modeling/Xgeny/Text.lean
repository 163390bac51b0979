import Xgeny.Lib.Outcome
import Xgeny.Lib.Utf8

set_option autoImplicit false

/-!
# Text shapes

The identifiers and digests of a run are strings whose shape is checked on entry. Lengths and most
tests are about UTF-8 bytes; the tests for control characters are about Unicode characters.

* `bytes`, `byteLen`, `splitAtByte`: the bytes of a text, and the texts before and after an offset;
* **`occursAt_bytes`**: a text occurs in another between characters only;
* `isSha256Digest`: the shape `sha256:` and 64 lowercase hexadecimal digits;
* `Sha256Hex`: 64 lowercase hexadecimal digits, and `sha256Digest`, the text built from them.
-/

namespace Xgeny

/-- The UTF-8 bytes of a text. -/
def bytes (s : String) : List UInt8 := s.toByteArray.data.toList

/-- The length in UTF-8 bytes. -/
def byteLen (s : String) : ℕ := s.utf8ByteSize

/-- The bytes after a prefix, as `str::strip_prefix` finds them. -/
def stripPrefix (pre s : String) : Option (List UInt8) := (bytes s).dropPrefix? (bytes pre)

/-- `char::is_control`: the general category `Cc`. -/
def isControl (c : Char) : Bool := c.toNat ≤ 0x1f || (0x7f ≤ c.toNat && c.toNat ≤ 0x9f)

/-- `char::is_whitespace`: the property `White_Space`. -/
def isWhitespace (c : Char) : Bool :=
  (0x09 ≤ c.toNat && c.toNat ≤ 0x0d) || c.toNat == 0x20 || c.toNat == 0x85 || c.toNat == 0xa0 ||
    c.toNat == 0x1680 || (0x2000 ≤ c.toNat && c.toNat ≤ 0x200a) || c.toNat == 0x2028 ||
    c.toNat == 0x2029 || c.toNat == 0x202f || c.toNat == 0x205f || c.toNat == 0x3000

/-- `str::trim`. -/
def trimmed (s : String) : String :=
  String.ofList ((s.toList.dropWhile isWhitespace).reverse.dropWhile isWhitespace).reverse

/-- `u8::is_ascii_digit`. -/
def isAsciiDigit (b : UInt8) : Bool := 0x30 ≤ b && b ≤ 0x39

/-- `u8::is_ascii_alphanumeric`. -/
def isAsciiAlphanumeric (b : UInt8) : Bool :=
  isAsciiDigit b || (0x61 ≤ b && b ≤ 0x7a) || (0x41 ≤ b && b ≤ 0x5a)

/-- A lowercase hexadecimal digit. -/
def isLowerHex (b : UInt8) : Bool := isAsciiDigit b || (0x61 ≤ b && b ≤ 0x66)

/-- Exactly 64 lowercase hexadecimal digits. -/
def isHex64 (encoded : List UInt8) : Bool := encoded.length == 64 && encoded.all isLowerHex

/-- `is_sha256_digest`, and `is_canonical_sha256`, which is the same test. -/
def isSha256Digest (value : String) : Bool := (stripPrefix "sha256:" value).any isHex64

/-- A SHA-256 digest in lowercase hexadecimal. -/
def Sha256Hex : Type := {s : String // isHex64 (bytes s) = true}

instance : DecidableEq Sha256Hex :=
  inferInstanceAs (DecidableEq {s : String // isHex64 (bytes s) = true})

/-- The text of a digest. -/
def sha256Digest (h : Sha256Hex) : String := "sha256:" ++ h.val

/-! ## Bytes and characters -/

theorem bytes_append (a b : String) : bytes (a ++ b) = bytes a ++ bytes b := by
  rw [bytes, String.toByteArray_append, ByteArray.data_append, Array.toList_append]
  rfl

theorem bytes_eq_encode (s : String) : bytes s = Utf8.encode s.toList := by
  rw [bytes, ← String.utf8Encode_toList, ← Utf8.toByteArray_encode, List.data_toByteArray]

theorem byteLen_eq_length (s : String) : byteLen s = (bytes s).length := by
  rw [byteLen, ← String.size_toByteArray, bytes, Array.length_toList]
  rfl

@[simp] theorem byteLen_append (a b : String) : byteLen (a ++ b) = byteLen a + byteLen b :=
  String.utf8ByteSize_append

theorem byteLen_ofList (l : List Char) :
    byteLen (String.ofList l) = (l.map Char.utf8Size).sum := by
  induction l with
  | nil => rfl
  | cons c l ih =>
    rw [← List.singleton_append, String.ofList_append, byteLen, String.utf8ByteSize_append,
      ← String.singleton_eq_ofList, String.utf8ByteSize_singleton, List.map_append, List.sum_append,
      ← ih, List.map_singleton, List.sum_singleton, byteLen]

theorem length_le_byteLen (s : String) : s.length ≤ byteLen s := by
  have hsum : ∀ l : List Char, l.length ≤ (l.map Char.utf8Size).sum := by
    intro l
    induction l with
    | nil => exact Nat.le_refl 0
    | cons c l ih =>
      have hpos := Char.utf8Size_pos c
      simp only [List.length_cons, List.map_cons, List.sum_cons]
      omega
  have hlist := hsum s.toList
  rwa [← byteLen_ofList, String.ofList_toList, String.length_toList] at hlist

theorem bytes_injective {a b : String} (h : bytes a = bytes b) : a = b := by
  rw [bytes_eq_encode, bytes_eq_encode] at h
  exact String.toList_inj.mp (Utf8.encode_injective h)

theorem bytes_eq_nil {s : String} : bytes s = [] ↔ s = "" := by
  rw [bytes_eq_encode, Utf8.encode_eq_nil, String.toList_eq_nil_iff]

theorem toByteArray_bytes (text : String) : (bytes text).toByteArray = text.toByteArray := by
  ext1
  rw [List.data_toByteArray]
  rfl

theorem fromUTF8_eq_some {body : List UInt8} {text : String} :
    String.fromUTF8? body.toByteArray = some text ↔ bytes text = body := by
  have hbytes : ∀ h, bytes (String.fromUTF8 body.toByteArray h) = body := fun h => by
    show body.toByteArray.data.toList = body
    rw [List.data_toByteArray]
  unfold String.fromUTF8?
  by_cases hvalid : body.toByteArray.IsValidUTF8
  · rw [dif_pos hvalid, Option.some.injEq]
    constructor
    · rintro rfl
      exact hbytes hvalid
    · intro htext
      exact bytes_injective ((hbytes hvalid).trans htext.symm)
  · rw [dif_neg hvalid]
    refine iff_of_false (by simp) ?_
    rintro rfl
    rw [toByteArray_bytes] at hvalid
    exact hvalid text.isValidUTF8

/-- The texts before and after a byte offset, if it is a character boundary. -/
def splitAtByte (s : String) (offset : ℕ) : Option (String × String) :=
  (Utf8.splitAt s.toList offset).map fun parts => (String.ofList parts.1, String.ofList parts.2)

theorem splitAtByte_eq_some {s a b : String} {offset : ℕ} :
    splitAtByte s offset = some (a, b) ↔ s = a ++ b ∧ byteLen a = offset := by
  simp only [splitAtByte, Option.map_eq_some_iff, Prod.mk.injEq, Prod.exists,
    Utf8.splitAt_eq_some, byteLen_eq_length, bytes_eq_encode]
  constructor
  · rintro ⟨front, back, ⟨hs, hlength⟩, rfl, rfl⟩
    refine ⟨String.toList_inj.mp ?_, by rw [String.toList_ofList, hlength]⟩
    rw [hs, String.toList_append, String.toList_ofList, String.toList_ofList]
  · rintro ⟨rfl, hlength⟩
    exact ⟨a.toList, b.toList, ⟨String.toList_append, hlength⟩, String.ofList_toList,
      String.ofList_toList⟩

theorem occursAt_bytes {source needle : String} {k : ℕ} (hneedle : needle ≠ "") :
    OccursAt (bytes needle) (bytes source) k ↔
      ∃ a b, source = a ++ (needle ++ b) ∧ byteLen a = k := by
  rw [occursAt_iff]
  constructor
  · rintro ⟨front, rest, hsource, rfl⟩
    rw [bytes_eq_encode, bytes_eq_encode] at hsource
    have hchars : needle.toList ≠ [] := fun h => hneedle (String.toList_eq_nil_iff.mp h)
    obtain ⟨a, b, hlist, rfl, rfl⟩ := Utf8.encode_aligned hchars hsource
    refine ⟨String.ofList a, String.ofList b, String.toList_inj.mp ?_, ?_⟩
    · rw [hlist, String.toList_append, String.toList_append, String.toList_ofList,
        String.toList_ofList]
    · rw [byteLen_eq_length, bytes_eq_encode, String.toList_ofList]
  · rintro ⟨a, b, rfl, rfl⟩
    exact ⟨bytes a, bytes b, by rw [bytes_append, bytes_append], (byteLen_eq_length a).symm⟩

/-! ## Shapes -/

theorem stripPrefix_append (pre s : String) : stripPrefix pre (pre ++ s) = some (bytes s) := by
  rw [stripPrefix, bytes_append]
  exact List.dropPrefix?_eq_some_iff.mpr ⟨bytes pre, rfl, beq_self_eq_true _⟩

/-- **Every digest passes its own check.** -/
theorem isSha256Digest_sha256Digest (h : Sha256Hex) : isSha256Digest (sha256Digest h) = true := by
  rw [isSha256Digest, sha256Digest, stripPrefix_append]
  exact h.property

theorem bytes_toList_subset {s : String} {c : Char} (hc : c ∈ s.toList) :
    ∀ b ∈ String.utf8EncodeChar c, b ∈ bytes s := by
  intro b hb
  rw [bytes_eq_encode]
  exact List.mem_flatMap.mpr ⟨c, hc, hb⟩

theorem isLowerHex_iff {b : UInt8} : isLowerHex b = true ↔
    48 ≤ b.toNat ∧ b.toNat ≤ 57 ∨ 97 ≤ b.toNat ∧ b.toNat ≤ 102 := by
  simp [isLowerHex, isAsciiDigit, UInt8.le_iff_toNat_le]

theorem Sha256Hex.digit (h : Sha256Hex) {c : Char} (hc : c ∈ h.val.toList) :
    48 ≤ c.toNat ∧ c.toNat ≤ 57 ∨ 97 ≤ c.toNat ∧ c.toNat ≤ 102 := by
  have hall : ∀ b ∈ String.utf8EncodeChar c, isLowerHex b = true := by
    intro b hb
    have hhex := h.property
    simp only [isHex64, Bool.and_eq_true, List.all_eq_true] at hhex
    exact hhex.2 b (bytes_toList_subset hc b hb)
  obtain ⟨hlt, hbyte⟩ := Utf8.encode_ascii fun b hb => by
    have hb' := isLowerHex_iff.mp (hall b hb)
    rw [UInt8.lt_iff_toNat_lt]
    have h128 : (128 : UInt8).toNat = 128 := rfl
    omega
  have hdigit := isLowerHex_iff.mp (hall _ (by rw [hbyte]; exact List.mem_singleton_self _))
  rw [UInt8.toNat_ofNat', Nat.mod_eq_of_lt (by omega)] at hdigit
  exact hdigit

theorem Sha256Hex.byteLen_val (h : Sha256Hex) : byteLen h.val = 64 := by
  have hhex := h.property
  simp only [isHex64, Bool.and_eq_true, beq_iff_eq] at hhex
  rw [byteLen, ← String.size_toByteArray, ← hhex.1]
  rfl

end Xgeny
