import Mathlib.Data.List.Basic
import Mathlib.Data.List.Induction

set_option autoImplicit false

/-!
# Hash chains

A list of records in which each record names the digest of the one before it. When digests do not
collide, the last digest determines the whole list.

* `IsChain digest previous records`: the records are chained;
* **`IsChain.eq_of_head`**: two chains with the same last digest are the same list.
-/

namespace HashChain

variable {ρ δ : Type} (digest : ρ → δ) (previous : ρ → Option δ)

/-- The digest of the last record. -/
def head (records : List ρ) : Option δ := records.getLast?.map digest

/-- Each record names the digest of the one before it, and the first record names none. -/
inductive IsChain : List ρ → Prop where
  | nil : IsChain []
  | snoc {records : List ρ} {r : ρ} (h : IsChain records) (hr : previous r = head digest records) :
      IsChain (records ++ [r])

variable {digest previous}

@[simp] theorem head_snoc {records : List ρ} {r : ρ} :
    head digest (records ++ [r]) = some (digest r) := by
  simp [head]

@[simp] theorem head_eq_none {records : List ρ} : head digest records = none ↔ records = [] := by
  simp [head]

/-- **The head commits to the whole chain**, when digests do not collide. -/
theorem IsChain.eq_of_head {xs ys : List ρ} (hx : IsChain digest previous xs)
    (hy : IsChain digest previous ys)
    (hinj : ∀ r ∈ xs, ∀ q ∈ ys, digest r = digest q → r = q)
    (hhead : head digest xs = head digest ys) : xs = ys := by
  -- backwards from the end, along the links of the first chain
  induction hx generalizing ys with
  | nil =>
    have hnone : head digest ys = none := hhead.symm
    exact (head_eq_none.mp hnone).symm
  | @snoc xs r hxs hr ih =>
    cases hy with
    | nil => simp [head] at hhead
    | @snoc ys q hys hq =>
      rw [head_snoc, head_snoc, Option.some.injEq] at hhead
      obtain rfl : r = q := hinj r (by simp) q (by simp) hhead
      have hrest : xs = ys := by
        refine ih hys (fun a ha b hb => ?_) (hr.symm.trans hq)
        exact hinj a (List.mem_append_left _ ha) b (List.mem_append_left _ hb)
      rw [hrest]

end HashChain
