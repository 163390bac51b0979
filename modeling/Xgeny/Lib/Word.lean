import Mathlib.Tactic

set_option autoImplicit false

/-!
# Checked arithmetic on machine words

`checkedAdd` on 32- and 64-bit unsigned words, the checked sum of a list, and the conversion of a
length to 32 bits. Each has
one specification in terms of `toNat`, where `omega` takes over.
-/

namespace UInt32

/-- Addition that fails on overflow. -/
def checkedAdd (a b : UInt32) : Option UInt32 :=
  if a.toNat + b.toNat < 2 ^ 32 then some (a + b) else none

theorem checkedAdd_eq_some {a b c : UInt32} :
    checkedAdd a b = some c ↔ c.toNat = a.toNat + b.toNat := by
  unfold checkedAdd
  split
  · rename_i h
    have hab : (a + b).toNat = a.toNat + b.toNat := by
      rw [UInt32.toNat_add]
      exact Nat.mod_eq_of_lt h
    rw [Option.some.injEq, ← UInt32.toNat_inj, hab, eq_comm]
  · rename_i h
    have hc := c.toNat_lt
    simp only [reduceCtorEq, false_iff]
    omega

theorem checkedAdd_eq_none {a b : UInt32} :
    checkedAdd a b = none ↔ 2 ^ 32 ≤ a.toNat + b.toNat := by
  unfold checkedAdd
  split
  · simp; omega
  · simp; omega

/-- Addition that stops at the largest word. -/
def saturatingAdd (a b : UInt32) : UInt32 :=
  if a.toNat + b.toNat < 2 ^ 32 then a + b else UInt32.ofNat (2 ^ 32 - 1)

/-- Conversion of a length, failing when it does not fit. -/
def tryFrom (n : ℕ) : Option UInt32 := if n < 2 ^ 32 then some (UInt32.ofNat n) else none

theorem tryFrom_eq_some {n : ℕ} {w : UInt32} : tryFrom n = some w ↔ w.toNat = n := by
  unfold tryFrom
  split
  · rename_i h
    have hn : (UInt32.ofNat n).toNat = n := UInt32.toNat_ofNat_of_lt h
    rw [Option.some.injEq, ← UInt32.toNat_inj, hn, eq_comm]
  · rename_i h
    have hw := w.toNat_lt
    simp only [reduceCtorEq, false_iff]
    omega

/-- The sum of a list, failing on overflow. -/
def checkedSum (words : List UInt32) : Option UInt32 := words.foldlM checkedAdd 0

theorem foldlM_checkedAdd_eq_some {words : List UInt32} {start total : UInt32} :
    words.foldlM checkedAdd start = some total ↔
      total.toNat = start.toNat + (words.map UInt32.toNat).sum := by
  induction words generalizing start with
  | nil => simp [List.foldlM_nil, ← UInt32.toNat_inj, eq_comm]
  | cons w words ih =>
    rw [List.foldlM_cons, Option.bind_eq_bind, Option.bind_eq_some_iff]
    constructor
    · rintro ⟨mid, hmid, hrest⟩
      rw [checkedAdd_eq_some] at hmid
      rw [ih.mp hrest, hmid, List.map_cons, List.sum_cons]
      omega
    · intro htotal
      rw [List.map_cons, List.sum_cons] at htotal
      have hlt := total.toNat_lt
      have hbound : start.toNat + w.toNat < 2 ^ 32 := by omega
      have hmid : (UInt32.ofNat (start.toNat + w.toNat)).toNat = start.toNat + w.toNat :=
        UInt32.toNat_ofNat_of_lt hbound
      exact ⟨_, checkedAdd_eq_some.mpr hmid, ih.mpr (by rw [hmid]; omega)⟩

/-- **A checked sum is the sum.** -/
theorem checkedSum_eq_some {words : List UInt32} {total : UInt32} :
    checkedSum words = some total ↔ total.toNat = (words.map UInt32.toNat).sum := by
  rw [checkedSum, foldlM_checkedAdd_eq_some, UInt32.toNat_zero, Nat.zero_add]

end UInt32

namespace UInt64

/-- Addition that fails on overflow. -/
def checkedAdd (a b : UInt64) : Option UInt64 :=
  if a.toNat + b.toNat < 2 ^ 64 then some (a + b) else none

theorem checkedAdd_eq_some {a b c : UInt64} :
    checkedAdd a b = some c ↔ c.toNat = a.toNat + b.toNat := by
  unfold checkedAdd
  split
  · rename_i h
    have hab : (a + b).toNat = a.toNat + b.toNat := by
      rw [UInt64.toNat_add]
      exact Nat.mod_eq_of_lt h
    rw [Option.some.injEq, ← UInt64.toNat_inj, hab, eq_comm]
  · rename_i h
    have hc := c.toNat_lt
    simp only [reduceCtorEq, false_iff]
    omega

theorem checkedAdd_eq_none {a b : UInt64} :
    checkedAdd a b = none ↔ 2 ^ 64 ≤ a.toNat + b.toNat := by
  unfold checkedAdd
  split
  · simp; omega
  · simp; omega

end UInt64
