import Mathlib.Logic.Relation
import Mathlib.Data.List.Nodup
import Mathlib.Data.Finite.Defs
import Mathlib.Order.RelIso.Set
import Mathlib.Tactic

set_option autoImplicit false

/-!
# Topological orders

A relation `r a b` reads "`a` depends on `b`". A list is a topological order when everything an
entry depends on stands before it.

* `TopoOrder.snoc`: a new entry whose dependencies are all present may be appended;
* **`TopoOrder.acyclic`**: a topological order of all dependents excludes cycles;
* **`exists_ready`**: without cycles, an incomplete closed set has an entry that is ready.
-/

variable {α : Type}

/-- No element depends on itself, directly or not. -/
def Acyclic (r : α → α → Prop) : Prop := ∀ a, ¬ Relation.TransGen r a a

/-- Everything an entry depends on stands before it. -/
def TopoOrder [DecidableEq α] (r : α → α → Prop) (order : List α) : Prop :=
  ∀ a ∈ order, ∀ b, r a b → b ∈ order ∧ order.idxOf b < order.idxOf a

section

variable [DecidableEq α] {r : α → α → Prop} {order : List α}

theorem TopoOrder.nil : TopoOrder r ([] : List α) := by simp [TopoOrder]

theorem TopoOrder.snoc {a : α} (h : TopoOrder r order) (ha : a ∉ order)
    (hdeps : ∀ b, r a b → b ∈ order) : TopoOrder r (order ++ [a]) := by
  intro x hx b hb
  by_cases hxo : x ∈ order
  · obtain ⟨hbo, hlt⟩ := h x hxo b hb
    rw [List.idxOf_append_of_mem hbo, List.idxOf_append_of_mem hxo]
    exact ⟨List.mem_append_left _ hbo, hlt⟩
  · obtain rfl : x = a := by
      simpa [hxo] using hx
    have hbo := hdeps b hb
    rw [List.idxOf_append_of_mem hbo, List.idxOf_append_of_notMem ha]
    have hlt := List.idxOf_lt_length_of_mem hbo
    exact ⟨List.mem_append_left _ hbo, by omega⟩

theorem TopoOrder.idxOf_lt (h : TopoOrder r order) {a b : α} (ha : a ∈ order)
    (hab : Relation.TransGen r a b) : b ∈ order ∧ order.idxOf b < order.idxOf a := by
  induction hab with
  | single hb => exact h a ha _ hb
  | tail _ hbc ih =>
    obtain ⟨hmem, hlt⟩ := ih
    obtain ⟨hmem', hlt'⟩ := h _ hmem _ hbc
    exact ⟨hmem', hlt'.trans hlt⟩

/-- **A topological order of all dependents excludes cycles.** -/
theorem TopoOrder.acyclic (h : TopoOrder r order) (hall : ∀ a b, r a b → a ∈ order) :
    Acyclic r := by
  intro a ha
  obtain ⟨b, hab, _⟩ := Relation.TransGen.head'_iff.mp ha
  exact lt_irrefl _ (h.idxOf_lt (hall a b hab) ha).2

end

/-- **Progress.** When `r` has no cycles, every list that does not cover a finite set closed under
dependencies leaves an entry out whose dependencies it all contains. -/
theorem exists_ready {r : α → α → Prop} (hr : Acyclic r) (S : Finset α)
    (hclosed : ∀ a ∈ S, ∀ b, r a b → b ∈ S) {seen : List α} {a : α} (ha : a ∈ S)
    (haseen : a ∉ seen) : ∃ x ∈ S, x ∉ seen ∧ ∀ b, r x b → b ∈ seen := by
  -- the elements of `S`, ordered by reachability, are well founded because `S` is finite
  let below : S → S → Prop := fun x y => Relation.TransGen r y.val x.val
  have : IsTrans S below := ⟨fun _ _ _ hxy hyz => hyz.trans hxy⟩
  have : Std.Irrefl below := ⟨fun x => hr x.val⟩
  have hwf : WellFounded below := Finite.wellFounded_of_trans_of_irrefl below
  obtain ⟨x, hx, hmin⟩ := hwf.has_min {x : S | x.val ∉ seen} ⟨⟨a, ha⟩, haseen⟩
  refine ⟨x.val, x.property, hx, fun b hb => ?_⟩
  by_contra hbseen
  exact hmin ⟨b, hclosed x.val x.property b hb⟩ hbseen (Relation.TransGen.single hb)
