import Xgeny.Lib.Search

set_option autoImplicit false

/-!
# Texts and their bytes

The UTF-8 bytes of a list of characters. An encoded text tells where its characters start, so that
the bytes of one text can only occur in those of another at a character.

* `encode`, `splitAt`: the bytes, and the characters before and after a byte offset;
* **`encode_aligned`**: an occurrence of encoded bytes lies between characters;
* `encode_ascii`: bytes below 128 encode themselves.
-/

namespace Utf8

/-- The UTF-8 bytes of a list of characters. -/
def encode (cs : List Char) : List UInt8 := cs.flatMap String.utf8EncodeChar

@[simp] theorem encode_nil : encode [] = [] := rfl

@[simp] theorem encode_cons (c : Char) (cs : List Char) :
    encode (c :: cs) = String.utf8EncodeChar c ++ encode cs := rfl

@[simp] theorem encode_append (a b : List Char) : encode (a ++ b) = encode a ++ encode b :=
  List.flatMap_append

theorem encode_eq_nil {cs : List Char} : encode cs = [] ↔ cs = [] := by
  cases cs with
  | nil => simp
  | cons c cs => simp

theorem toByteArray_encode (cs : List Char) : (encode cs).toByteArray = cs.utf8Encode := rfl

theorem prefix_of_encode {a cs : List Char} {rest : List UInt8}
    (h : encode a ++ rest = encode cs) : ∃ b, cs = a ++ b ∧ rest = encode b := by
  have hbytes : a.utf8Encode ++ rest.toByteArray = cs.utf8Encode := by
    rw [← toByteArray_encode, ← toByteArray_encode, ← List.toByteArray_append, h]
  obtain ⟨b, rfl⟩ := List.isPrefix_of_utf8Encode_append_eq_utf8Encode _ hbytes
  rw [encode_append] at h
  exact ⟨b, rfl, List.append_cancel_left h⟩

theorem encode_injective {a b : List Char} (h : encode a = encode b) : a = b := by
  have hprefix : encode a ++ [] = encode b := by rw [List.append_nil, h]
  obtain ⟨rest, hb, hrest⟩ := prefix_of_encode hprefix
  rw [hb, encode_eq_nil.mp hrest.symm, List.append_nil]

theorem first_byte {c d : Char} {i : ℕ} {b : UInt8}
    (hc : (String.utf8EncodeChar c)[i]? = some b)
    (hd : (String.utf8EncodeChar d)[0]? = some b) : i = 0 := by
  obtain ⟨hi, hci⟩ := List.getElem?_eq_some_iff.mp hc
  obtain ⟨h0, hd0⟩ := List.getElem?_eq_some_iff.mp hd
  have hfirst : ((String.utf8EncodeChar d)[0]).IsUTF8FirstByte :=
    UInt8.isUTF8FirstByte_getElem_utf8EncodeChar.mpr rfl
  rw [hd0, ← hci] at hfirst
  exact UInt8.isUTF8FirstByte_getElem_utf8EncodeChar.mp hfirst

/-- **Encoded bytes occur between characters only.** -/
theorem encode_aligned {needle cs : List Char} {front rest : List UInt8} (hneedle : needle ≠ [])
    (h : encode cs = front ++ (encode needle ++ rest)) :
    ∃ a b, cs = a ++ (needle ++ b) ∧ encode a = front ∧ encode b = rest := by
  induction cs generalizing front with
  | nil =>
    have hnil : encode needle = [] := by
      rw [encode_nil] at h
      simp_all
    exact absurd (encode_eq_nil.mp hnil) hneedle
  | cons c cs ih =>
    cases hfront : front with
    | nil =>
      rw [hfront, List.nil_append] at h
      obtain ⟨b, hcs, hrest⟩ := prefix_of_encode h.symm
      exact ⟨[], b, hcs, rfl, hrest.symm⟩
    | cons byte tail =>
      rw [encode_cons] at h
      rcases List.append_eq_append_iff.mp h with ⟨front', rfl, hcs⟩ | ⟨inside, hc, hinside⟩
      · obtain ⟨a, b, rfl, rfl, hrest⟩ := ih hcs
        exact ⟨c :: a, b, rfl, by rw [← hfront, encode_cons], hrest⟩
      · obtain ⟨d, ds, rfl⟩ := List.exists_cons_of_ne_nil hneedle
        cases inside with
        | nil =>
          -- the occurrence starts right after the first character
          obtain ⟨b, rfl, hrest⟩ := prefix_of_encode hinside
          refine ⟨[c], b, rfl, ?_, hrest.symm⟩
          rw [encode_cons, encode_nil, List.append_nil, hc, List.append_nil, ← hfront]
        | cons byte' inside =>
          -- the occurrence starts inside the first character
          have hbyte : (String.utf8EncodeChar c)[front.length]? = some byte' := by
            rw [hc]
            simp
          have hfirst : (String.utf8EncodeChar d)[0]? = some byte' := by
            have hhead := congrArg List.head? hinside
            rw [encode_cons, List.append_assoc, List.head?_append_of_ne_nil _ (by simp)] at hhead
            rw [← List.head?_eq_getElem?, hhead]
            rfl
          have hzero := first_byte hbyte hfirst
          rw [hfront] at hzero
          cases hzero

theorem encodeChar_cases (c : Char) :
    c.toNat < 128 ∧ String.utf8EncodeChar c = [UInt8.ofNat c.toNat] ∨
      128 ≤ c.toNat ∧ ∀ b ∈ String.utf8EncodeChar c, 128 ≤ b.toNat := by
  have hval : c.toNat = c.val.toNat := rfl
  unfold String.utf8EncodeChar
  rw [hval]
  dsimp only
  split
  · exact .inl ⟨by omega, rfl⟩
  · refine .inr ⟨by omega, ?_⟩
    split
    · intro b hb
      simp only [List.mem_cons, List.not_mem_nil, or_false] at hb
      rcases hb with rfl | rfl <;> rw [UInt8.toNat_ofNat'] <;> omega
    · split
      · intro b hb
        simp only [List.mem_cons, List.not_mem_nil, or_false] at hb
        rcases hb with rfl | rfl | rfl <;> rw [UInt8.toNat_ofNat'] <;> omega
      · intro b hb
        simp only [List.mem_cons, List.not_mem_nil, or_false] at hb
        rcases hb with rfl | rfl | rfl | rfl <;> rw [UInt8.toNat_ofNat'] <;> omega
theorem encode_ascii {c : Char} (h : ∀ b ∈ String.utf8EncodeChar c, b < 128) :
    c.toNat < 128 ∧ String.utf8EncodeChar c = [UInt8.ofNat c.toNat] := by
  rcases encodeChar_cases c with hascii | ⟨-, hwide⟩
  · exact hascii
  · obtain ⟨b, hb⟩ := List.exists_mem_of_ne_nil _ (String.utf8EncodeChar_ne_nil (c := c))
    have hlow : b.toNat < 128 := UInt8.lt_iff_toNat_lt.mp (h b hb)
    have hhigh := hwide b hb
    omega

/-- The characters before and after a byte offset, if it lies between two characters. -/
def splitAt : List Char → ℕ → Option (List Char × List Char)
  | cs, 0 => some ([], cs)
  | [], _ + 1 => none
  | c :: cs, offset + 1 =>
    if c.utf8Size ≤ offset + 1 then
      (splitAt cs (offset + 1 - c.utf8Size)).map fun parts => (c :: parts.1, parts.2)
    else none

theorem splitAt_eq_some {cs a b : List Char} {k : ℕ} :
    splitAt cs k = some (a, b) ↔ cs = a ++ b ∧ (encode a).length = k := by
  induction cs generalizing k a b with
  | nil =>
    cases k with
    | zero =>
      simp only [splitAt, Option.some.injEq, Prod.mk.injEq, List.length_eq_zero_iff, encode_eq_nil]
      constructor
      · rintro ⟨rfl, rfl⟩
        exact ⟨rfl, rfl⟩
      · rintro ⟨h, rfl⟩
        exact ⟨rfl, h⟩
    | succ k =>
      simp only [splitAt, reduceCtorEq, false_iff, not_and]
      intro h
      obtain ⟨rfl, rfl⟩ := List.append_eq_nil_iff.mp h.symm
      simp
  | cons c cs ih =>
    cases k with
    | zero =>
      simp only [splitAt, Option.some.injEq, Prod.mk.injEq, List.length_eq_zero_iff, encode_eq_nil]
      constructor
      · rintro ⟨rfl, rfl⟩
        exact ⟨rfl, rfl⟩
      · rintro ⟨h, rfl⟩
        exact ⟨rfl, h⟩
    | succ k =>
      have hpos := c.utf8Size_pos
      rw [splitAt]
      split
      · rename_i hfits
        simp only [Option.map_eq_some_iff, Prod.mk.injEq, Prod.exists, ih]
        constructor
        · rintro ⟨front, back, ⟨rfl, hlength⟩, rfl, rfl⟩
          refine ⟨rfl, ?_⟩
          rw [encode_cons, List.length_append, String.length_utf8EncodeChar, hlength]
          omega
        · rintro ⟨hcs, hlength⟩
          cases a with
          | nil => simp at hlength
          | cons d front =>
            rw [List.cons_append, List.cons.injEq] at hcs
            obtain ⟨rfl, rfl⟩ := hcs
            rw [encode_cons, List.length_append, String.length_utf8EncodeChar] at hlength
            exact ⟨front, b, ⟨rfl, by omega⟩, rfl, rfl⟩
      · rename_i hfits
        simp only [reduceCtorEq, false_iff, not_and]
        intro hcs hlength
        cases a with
        | nil => simp at hlength
        | cons d front =>
          rw [List.cons_append, List.cons.injEq] at hcs
          obtain ⟨rfl, rfl⟩ := hcs
          rw [encode_cons, List.length_append, String.length_utf8EncodeChar] at hlength
          omega

end Utf8
