import Xgeny.Text

set_option autoImplicit false

/-!
# Slices of texts

Offsets into a text count bytes, and a text can only be cut between two characters.

* `isCharBoundary`, `slice`: the offsets between characters, and the text between two of them;
* `retreat`: the search for such an offset to the left;
* `exists_boundary_near`, `retreat_near`: it is at most three bytes away;
* **`slice_between`**: the text between two boundaries.
-/

namespace Xgeny

/-- `str::is_char_boundary`. -/
def isCharBoundary (s : String) (offset : ℕ) : Bool := (splitAtByte s offset).isSome

/-- `s[start..stop]`; there is no slice where the source panics. -/
def slice (s : String) (start stop : ℕ) : Option String :=
  if start ≤ stop then
    (splitAtByte s start).bind fun parts => (splitAtByte parts.2 (stop - start)).map Prod.fst
  else none

/-- `while floor < offset && !s.is_char_boundary(offset) { offset -= 1 }`. -/
def retreat (s : String) (floor : ℕ) : ℕ → ℕ
  | 0 => 0
  | offset + 1 =>
    if floor < offset + 1 ∧ isCharBoundary s (offset + 1) = false then retreat s floor offset
    else offset + 1

/-! ## Boundaries -/

variable {s : String} {floor start stop k : ℕ}

theorem isCharBoundary_iff :
    isCharBoundary s k = true ↔ ∃ a b, s = a ++ b ∧ byteLen a = k := by
  simp only [isCharBoundary, Option.isSome_iff_exists, Prod.exists, splitAtByte_eq_some]

theorem isCharBoundary_zero : isCharBoundary s 0 = true :=
  isCharBoundary_iff.mpr ⟨"", s, String.empty_append.symm, rfl⟩

theorem isCharBoundary_append (a b : String) : isCharBoundary (a ++ b) (byteLen a) = true :=
  isCharBoundary_iff.mpr ⟨a, b, rfl, rfl⟩

theorem exists_boundary_near (h : k ≤ byteLen s) :
    ∃ j, j ≤ k ∧ k ≤ j + 3 ∧ isCharBoundary s j = true := by
  obtain ⟨cs, rfl⟩ : ∃ cs, s = String.ofList cs := ⟨s.toList, String.ofList_toList.symm⟩
  induction cs generalizing k with
  | nil => exact ⟨0, by omega, by simp [byteLen] at h; omega, isCharBoundary_zero⟩
  | cons c cs ih =>
    have hwidth := c.utf8Size_le_four
    by_cases hinside : k < c.utf8Size
    · exact ⟨0, by omega, by omega, isCharBoundary_zero⟩
    · have hlength : byteLen (String.ofList (c :: cs)) =
          c.utf8Size + byteLen (String.ofList cs) := by
        rw [byteLen_ofList, byteLen_ofList, List.map_cons, List.sum_cons]
      obtain ⟨j, hle, hnear, hboundary⟩ := @ih (k - c.utf8Size) (by omega)
      refine ⟨c.utf8Size + j, by omega, by omega, ?_⟩
      obtain ⟨a, b, hab, ha⟩ := isCharBoundary_iff.mp hboundary
      refine isCharBoundary_iff.mpr ⟨String.singleton c ++ a, b, ?_, ?_⟩
      · rw [String.append_assoc, ← hab, String.singleton_eq_ofList, ← String.ofList_append]
        rfl
      · rw [byteLen_append, ha, byteLen, String.utf8ByteSize_singleton]

theorem retreat_le : retreat s floor k ≤ k := by
  induction k with
  | zero => exact le_rfl
  | succ k ih =>
    unfold retreat
    split
    · omega
    · exact le_rfl

theorem le_retreat {j : ℕ} (hle : j ≤ k) (hj : isCharBoundary s j = true) :
    j ≤ retreat s floor k := by
  induction k with
  | zero => exact hle
  | succ k ih =>
    unfold retreat
    split
    · rename_i hskip
      have hne : j ≠ k + 1 := by
        rintro rfl
        exact Bool.false_ne_true (hskip.2.symm.trans hj)
      exact ih (by omega)
    · exact hle

theorem retreat_near (h : k ≤ byteLen s) : k ≤ retreat s floor k + 3 := by
  obtain ⟨j, hle, hnear, hboundary⟩ := exists_boundary_near h
  have := @le_retreat s floor k j hle hboundary
  omega

theorem retreat_boundary (hle : floor ≤ k) (hfloor : isCharBoundary s floor = true) :
    isCharBoundary s (retreat s floor k) = true := by
  induction k with
  | zero => exact isCharBoundary_zero
  | succ k ih =>
    unfold retreat
    split
    · rename_i hskip
      exact ih (by omega)
    · rename_i hstop
      by_cases heq : floor = k + 1
      · rw [← heq]
        exact hfloor
      · have hpassed : ¬ isCharBoundary s (k + 1) = false := fun h => hstop ⟨by omega, h⟩
        exact Bool.eq_true_of_not_eq_false hpassed

/-! ## Slices -/

theorem eq_empty_of_byteLen {t : String} (h : byteLen t = 0) : t = "" := by
  rw [byteLen_eq_length, List.length_eq_zero_iff] at h
  exact bytes_eq_nil.mp h

theorem append_split {a b c d : String} (h : a ++ b = c ++ d) (hle : byteLen a ≤ byteLen c) :
    ∃ m, c = a ++ m ∧ b = m ++ d := by
  have hlists : a.toList ++ b.toList = c.toList ++ d.toList := by
    rw [← String.toList_append, ← String.toList_append, h]
  have hback : ∀ {t u v : String}, t.toList = u.toList ++ v.toList → t = u ++ v := by
    intro t u v htuv
    rw [← String.toList_append] at htuv
    exact String.toList_inj.mp htuv
  rcases List.append_eq_append_iff.mp hlists with ⟨m, hc, hb⟩ | ⟨m, ha, hd⟩
  · rw [← String.toList_ofList (l := m)] at hc hb
    exact ⟨String.ofList m, hback hc, hback hb⟩
  · rw [← String.toList_ofList (l := m)] at ha hd
    have ha' := hback ha
    have hlength := congrArg byteLen ha'
    rw [byteLen_append] at hlength
    have hempty := eq_empty_of_byteLen (t := String.ofList m) (by omega)
    rw [hempty, String.append_empty] at ha'
    have hd' := hback hd
    rw [hempty, String.empty_append] at hd'
    exact ⟨"", by rw [ha', String.append_empty], by rw [hd', String.empty_append]⟩

/-- **Between two boundaries there is a slice**, and it is a part of the text. -/
theorem slice_between (hle : start ≤ stop) (hstart : isCharBoundary s start = true)
    (hstop : isCharBoundary s stop = true) :
    ∃ a t b, slice s start stop = some t ∧ s = a ++ (t ++ b) ∧ byteLen a = start ∧
      byteLen a + byteLen t = stop := by
  obtain ⟨a, rest, hs, rfl⟩ := isCharBoundary_iff.mp hstart
  obtain ⟨front, b, hs', rfl⟩ := isCharBoundary_iff.mp hstop
  obtain ⟨t, rfl, rfl⟩ := append_split (hs.symm.trans hs') hle
  refine ⟨a, t, b, ?_, hs, rfl, (byteLen_append a t).symm⟩
  have hfirst : splitAtByte s (byteLen a) = some (a, t ++ b) :=
    splitAtByte_eq_some.mpr ⟨hs, rfl⟩
  have hsecond : splitAtByte (t ++ b) (byteLen (a ++ t) - byteLen a) = some (t, b) :=
    splitAtByte_eq_some.mpr ⟨rfl, by rw [byteLen_append]; omega⟩
  rw [slice, if_pos hle, hfirst, Option.bind_some, hsecond, Option.map_some]

theorem slice_front (a b : String) : slice (a ++ b) 0 (byteLen a) = some a := by
  have hfront : splitAtByte (a ++ b) 0 = some ("", a ++ b) :=
    splitAtByte_eq_some.mpr ⟨String.empty_append.symm, rfl⟩
  have hcut : splitAtByte (a ++ b) (byteLen a) = some (a, b) := splitAtByte_eq_some.mpr ⟨rfl, rfl⟩
  rw [slice, if_pos (Nat.zero_le _), hfront, Option.bind_some, Nat.sub_zero, hcut, Option.map_some]

end Xgeny
