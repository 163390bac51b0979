import Mathlib.Data.List.Infix
import Mathlib.Tactic

set_option autoImplicit false

/-!
# Occurrences and replacements

A needle occurs in a list at an offset. Occurrences may overlap; the search returns the first one.

* `OccursAt`, **`findFirst_eq_some`**, `findFirst_eq_none`: the search;
* `Leftmost`: the offsets found one after another, each behind the occurrence before it;
* `Spliced`: two lists that have the same gaps, between old parts in one and new parts in the other;
* `Spliced.old_length_le`: lengths; `Spliced.flatMap`: letters written out in another alphabet.
-/

variable {α β ε : Type}

/-- The needle stands at an offset of the list. -/
def OccursAt (needle s : List α) (k : ℕ) : Prop := k ≤ s.length ∧ needle <+: s.drop k

section Occurrences

variable {needle s a b : List α} {k : ℕ}

theorem occursAt_iff : OccursAt needle s k ↔ ∃ a b, s = a ++ (needle ++ b) ∧ a.length = k := by
  constructor
  · rintro ⟨hk, b, hb⟩
    exact ⟨s.take k, b, by rw [hb, List.take_append_drop], List.length_take_of_le hk⟩
  · rintro ⟨a, b, rfl, rfl⟩
    refine ⟨by simp, ?_⟩
    rw [List.drop_left]
    exact List.prefix_append _ _

@[simp] theorem occursAt_zero : OccursAt needle s 0 ↔ needle <+: s := by simp [OccursAt]

@[simp] theorem occursAt_succ {x : α} : OccursAt needle (x :: s) (k + 1) ↔ OccursAt needle s k := by
  simp [OccursAt]

theorem occursAt_append : OccursAt needle (a ++ s) (a.length + k) ↔ OccursAt needle s k := by
  induction a with
  | nil => simp
  | cons x a ih =>
    rw [List.cons_append, List.length_cons, Nat.add_right_comm, occursAt_succ]
    exact ih

theorem OccursAt.lt_length (h : OccursAt needle s k) (hneedle : needle ≠ []) : k < s.length := by
  obtain ⟨a, b, rfl, rfl⟩ := occursAt_iff.mp h
  have hpos := List.length_pos_iff.mpr hneedle
  simp only [List.length_append]
  omega

instance [DecidableEq α] : Decidable (OccursAt needle s k) :=
  inferInstanceAs (Decidable (k ≤ s.length ∧ needle <+: s.drop k))

/-- The first offset at which the needle stands. -/
def findFirst [DecidableEq α] (needle : List α) : List α → Option ℕ
  | [] => if needle <+: [] then some 0 else none
  | x :: rest => if needle <+: x :: rest then some 0 else (findFirst needle rest).map (· + 1)

variable [DecidableEq α]

theorem findFirst_eq_none : findFirst needle s = none ↔ ∀ k, ¬ OccursAt needle s k := by
  induction s with
  | nil =>
    rw [findFirst]
    split
    · rename_i h
      simpa using ⟨0, occursAt_zero.mpr h⟩
    · rename_i h
      simp only [true_iff]
      rintro k ⟨hk, hstands⟩
      obtain rfl : k = 0 := by simpa using hk
      exact h hstands
  | cons x rest ih =>
    rw [findFirst]
    split
    · rename_i h
      simpa using ⟨0, occursAt_zero.mpr h⟩
    · rename_i h
      rw [Option.map_eq_none_iff, ih]
      constructor
      · intro hrest k
        cases k with
        | zero => exact fun hzero => h (occursAt_zero.mp hzero)
        | succ k => exact fun hsucc => hrest k (occursAt_succ.mp hsucc)
      · exact fun hall k hk => hall (k + 1) (occursAt_succ.mpr hk)

/-- **The search finds the first occurrence.** -/
theorem findFirst_eq_some : findFirst needle s = some k ↔
    OccursAt needle s k ∧ ∀ j, j < k → ¬ OccursAt needle s j := by
  induction s generalizing k with
  | nil =>
    rw [findFirst]
    split
    · rename_i h
      constructor
      · intro hk
        obtain rfl := Option.some.inj hk
        exact ⟨occursAt_zero.mpr h, by simp⟩
      · rintro ⟨⟨hk, -⟩, -⟩
        obtain rfl : k = 0 := by simpa using hk
        rfl
    · rename_i h
      simp only [reduceCtorEq, false_iff]
      rintro ⟨⟨hk, hstands⟩, -⟩
      obtain rfl : k = 0 := by simpa using hk
      exact h hstands
  | cons x rest ih =>
    rw [findFirst]
    split
    · rename_i h
      constructor
      · intro hk
        obtain rfl := Option.some.inj hk
        exact ⟨occursAt_zero.mpr h, by simp⟩
      · rintro ⟨-, hfirst⟩
        cases k with
        | zero => rfl
        | succ k => exact absurd (occursAt_zero.mpr h) (hfirst 0 (Nat.succ_pos k))
    · rename_i h
      cases k with
      | zero =>
        simp only [Option.map_eq_some_iff, Nat.succ_ne_zero, and_false, exists_false, false_iff]
        exact fun hzero => h (occursAt_zero.mp hzero.1)
      | succ k =>
        simp only [Option.map_eq_some_iff, Nat.add_right_cancel_iff, exists_eq_right, ih,
          occursAt_succ]
        refine and_congr_right fun _ => ⟨fun hfirst j hj => ?_, fun hfirst j hj => ?_⟩
        · cases j with
          | zero => exact fun hzero => h (occursAt_zero.mp hzero)
          | succ j => exact fun hsucc => hfirst j (by omega) (occursAt_succ.mp hsucc)
        · exact fun hrest => hfirst (j + 1) (by omega) (occursAt_succ.mpr hrest)

end Occurrences

/-! ## One occurrence after another -/

/-- The offsets from `start` on that are found from left to right: each is the first one behind the
occurrence before it. -/
inductive Leftmost (needle s : List α) : ℕ → List ℕ → Prop
  | done {start : ℕ} (hnone : ∀ k, start ≤ k → ¬ OccursAt needle s k) : Leftmost needle s start []
  | next {start k : ℕ} {rest : List ℕ} (hk : start ≤ k) (hoccurs : OccursAt needle s k)
      (hfirst : ∀ j, start ≤ j → j < k → ¬ OccursAt needle s j)
      (hrest : Leftmost needle s (k + needle.length) rest) : Leftmost needle s start (k :: rest)

namespace Leftmost

variable {needle s : List α} {start k : ℕ} {offsets offsets' : List ℕ}

theorem occursAt (h : Leftmost needle s start offsets) (hk : k ∈ offsets) : OccursAt needle s k := by
  induction h with
  | done => exact absurd hk List.not_mem_nil
  | next _ hoccurs _ _ ih =>
    rcases List.mem_cons.mp hk with rfl | hk
    · exact hoccurs
    · exact ih hk

theorem le_of_mem (h : Leftmost needle s start offsets) (hk : k ∈ offsets) : start ≤ k := by
  induction h with
  | done => exact absurd hk List.not_mem_nil
  | next hle _ _ _ ih =>
    rcases List.mem_cons.mp hk with rfl | hk
    · exact hle
    · have := ih hk
      omega

/-- **The occurrences do not overlap.** -/
theorem pairwise (h : Leftmost needle s start offsets) :
    offsets.Pairwise fun a b => a + needle.length ≤ b := by
  induction h with
  | done => exact .nil
  | next _ _ _ hrest ih => exact List.pairwise_cons.mpr ⟨fun b hb => hrest.le_of_mem hb, ih⟩

/-- **There is one such list.** -/
theorem unique (h : Leftmost needle s start offsets) (h' : Leftmost needle s start offsets') :
    offsets = offsets' := by
  induction h generalizing offsets' with
  | done hnone =>
    cases h' with
    | done => rfl
    | next hk hoccurs => exact absurd hoccurs (hnone _ hk)
  | @next start k rest hk hoccurs hfirst hrest ih =>
    cases h' with
    | done hnone => exact absurd hoccurs (hnone k hk)
    | @next _ k' rest' hk' hoccurs' hfirst' hrest' =>
      have hle : ¬ k < k' := fun hlt => hfirst' k hk hlt hoccurs
      have hge : ¬ k' < k := fun hlt => hfirst k' hk' hlt hoccurs'
      obtain rfl : k = k' := by omega
      rw [ih hrest']

theorem cons {x : α} (h : Leftmost needle s start offsets) :
    Leftmost needle (x :: s) (start + 1) (offsets.map (· + 1)) := by
  induction h with
  | done hnone =>
    refine .done fun k hk => ?_
    obtain ⟨k, rfl⟩ := Nat.exists_eq_add_one_of_ne_zero (Nat.ne_zero_of_lt hk)
    rw [occursAt_succ]
    exact hnone k (Nat.le_of_succ_le_succ hk)
  | @next start k rest hk hoccurs hfirst hrest ih =>
    rw [List.map_cons]
    refine .next (Nat.succ_le_succ hk) (occursAt_succ.mpr hoccurs) (fun j hj hlt => ?_) ?_
    · obtain ⟨j, rfl⟩ := Nat.exists_eq_add_one_of_ne_zero (Nat.ne_zero_of_lt hj)
      rw [occursAt_succ]
      exact hfirst j (Nat.le_of_succ_le_succ hj) (Nat.lt_of_succ_lt_succ hlt)
    · rw [Nat.add_right_comm]
      exact ih

theorem back (h : Leftmost needle s (start + 1) offsets) (hnot : ¬ OccursAt needle s start) :
    Leftmost needle s start offsets := by
  have hskip : ∀ {k}, start ≤ k → OccursAt needle s k → start + 1 ≤ k := by
    intro k hk hoccurs
    rcases Nat.eq_or_lt_of_le hk with rfl | hlt
    · exact absurd hoccurs hnot
    · exact hlt
  cases h with
  | done hnone => exact .done fun k hk hoccurs => hnone k (hskip hk hoccurs) hoccurs
  | next hk hoccurs hfirst hrest =>
    exact .next (Nat.le_of_succ_le hk) hoccurs
      (fun j hj hlt hstands => hfirst j (hskip hj hstands) hlt hstands) hrest

end Leftmost

/-! ## Simultaneous replacements -/

/-- The second list is the first one with the old parts of the edits, in order, replaced by the new
ones; what stands between them is the same. -/
inductive Spliced (old new : ε → List α) : List ε → List α → List α → Prop
  | nil (gap : List α) : Spliced old new [] gap gap
  | cons (gap : List α) (edit : ε) {edits : List ε} {s r : List α} :
      Spliced old new edits s r →
      Spliced old new (edit :: edits) (gap ++ (old edit ++ s)) (gap ++ (new edit ++ r))

namespace Spliced

variable {old new : ε → List α} {edits : List ε} {s r : List α}

theorem old_length_le (h : Spliced old new edits s r) :
    (edits.map fun e => (old e).length).sum ≤ s.length := by
  induction h with
  | nil gap => simp
  | cons gap edit _ ih =>
    simp only [List.length_append, List.map_cons, List.sum_cons]
    omega

theorem map {δ : Type} {g : δ → ε} {entries : List δ}
    (h : Spliced (fun x => old (g x)) (fun x => new (g x)) entries s r) :
    Spliced old new (entries.map g) s r := by
  induction h with
  | nil gap => exact .nil gap
  | cons gap entry _ ih => exact .cons gap (g entry) ih

theorem flatMap (f : α → List β) (h : Spliced old new edits s r) :
    Spliced (fun e => (old e).flatMap f) (fun e => (new e).flatMap f) edits (s.flatMap f)
      (r.flatMap f) := by
  induction h with
  | nil gap => exact .nil _
  | cons gap edit _ ih =>
    simp only [List.flatMap_append]
    exact .cons _ edit ih

end Spliced
