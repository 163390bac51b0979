import Mathlib.Order.Basic
import Mathlib.Tactic.Common

set_option autoImplicit false

/-!
# ASCII case

Letters of the ASCII alphabet change their case, and every other character is left alone.

* `toAsciiUppercase`, `toAsciiLowercase`: a text in one case;
* `eqIgnoreAsciiCase`: equality of two texts in lower case;
* **`toAsciiUppercase_eq_iff`**: which is their equality in upper case.
-/

/-- `str::to_ascii_uppercase`. -/
def toAsciiUppercase (s : String) : String := String.ofList (s.toList.map Char.toUpper)

/-- `str::to_ascii_lowercase`. -/
def toAsciiLowercase (s : String) : String := String.ofList (s.toList.map Char.toLower)

/-- `str::eq_ignore_ascii_case`. -/
def eqIgnoreAsciiCase (a b : String) : Bool := toAsciiLowercase a == toAsciiLowercase b

theorem toNat_toUpper (c : Char) :
    c.toUpper.toNat = if 97 ≤ c.toNat ∧ c.toNat ≤ 122 then c.toNat - 32 else c.toNat := by
  have hcond : ('a'.val ≤ c.val ∧ c.val ≤ 'z'.val) ↔ 97 ≤ c.toNat ∧ c.toNat ≤ 122 := by
    rw [UInt32.le_iff_toNat_le, UInt32.le_iff_toNat_le]
    rfl
  unfold Char.toUpper
  by_cases h : 'a'.val ≤ c.val ∧ c.val ≤ 'z'.val
  · rw [dif_pos h, if_pos (hcond.mp h)]
    show (c.val + ('A'.val - 'a'.val)).toNat = c.val.toNat - 32
    have hval : ('A'.val - 'a'.val).toNat = 2 ^ 32 - 32 := by decide
    have hlow : 97 ≤ c.val.toNat ∧ c.val.toNat ≤ 122 := hcond.mp h
    rw [UInt32.toNat_add, hval]
    omega
  · rw [dif_neg h, if_neg (mt hcond.mpr h)]

theorem toNat_toLower (c : Char) :
    c.toLower.toNat = if 65 ≤ c.toNat ∧ c.toNat ≤ 90 then c.toNat + 32 else c.toNat := by
  have hcond : (c.val ≥ 'A'.val ∧ c.val ≤ 'Z'.val) ↔ 65 ≤ c.toNat ∧ c.toNat ≤ 90 := by
    rw [ge_iff_le, UInt32.le_iff_toNat_le, UInt32.le_iff_toNat_le]
    rfl
  unfold Char.toLower
  by_cases h : c.val ≥ 'A'.val ∧ c.val ≤ 'Z'.val
  · rw [dif_pos h, if_pos (hcond.mp h)]
    show (c.val + ('a'.val - 'A'.val)).toNat = c.val.toNat + 32
    have hval : ('a'.val - 'A'.val).toNat = 32 := by decide
    have hlow : 65 ≤ c.val.toNat ∧ c.val.toNat ≤ 90 := hcond.mp h
    rw [UInt32.toNat_add, hval]
    omega
  · rw [dif_neg h, if_neg (mt hcond.mpr h)]

theorem toUpper_eq_iff {c d : Char} : c.toUpper = d.toUpper ↔ c.toLower = d.toLower := by
  rw [← Char.toNat_inj, ← Char.toNat_inj, toNat_toUpper, toNat_toUpper, toNat_toLower, toNat_toLower]
  split <;> split <;> split <;> split <;> omega

theorem map_toUpper_eq_iff {l m : List Char} :
    l.map Char.toUpper = m.map Char.toUpper ↔ l.map Char.toLower = m.map Char.toLower := by
  induction l generalizing m with
  | nil => cases m <;> simp
  | cons c l ih =>
    cases m with
    | nil => simp
    | cons d m => rw [List.map_cons, List.map_cons, List.map_cons, List.map_cons, List.cons.injEq,
        List.cons.injEq, toUpper_eq_iff, ih]

@[simp] theorem eqIgnoreAsciiCase_iff {a b : String} :
    eqIgnoreAsciiCase a b = true ↔ a.toList.map Char.toLower = b.toList.map Char.toLower := by
  rw [eqIgnoreAsciiCase, beq_iff_eq, toAsciiLowercase, toAsciiLowercase, String.ofList_inj]

theorem toAsciiUppercase_eq_iff {a b : String} :
    toAsciiUppercase a = toAsciiUppercase b ↔ eqIgnoreAsciiCase a b = true := by
  rw [eqIgnoreAsciiCase_iff, toAsciiUppercase, toAsciiUppercase, String.ofList_inj,
    map_toUpper_eq_iff]

theorem eqIgnoreAsciiCase_refl (a : String) : eqIgnoreAsciiCase a a = true :=
  eqIgnoreAsciiCase_iff.mpr rfl

theorem eqIgnoreAsciiCase_comm (a b : String) : eqIgnoreAsciiCase a b = eqIgnoreAsciiCase b a := by
  unfold eqIgnoreAsciiCase
  exact Bool.beq_comm
