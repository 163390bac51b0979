import Mathlib.Data.Prod.Lex
import Xgeny.Lib.Outcome

set_option autoImplicit false
set_option linter.unusedSectionVars false

/-!
# Ordered maps

`BTreeMap κ β` is the extensional ordered map of the standard library, iterated in key order, and
`BTreeSet κ` the matching set. What is added here is about totals over the values and about
insertions that must be new.

* `vals`, `mem_vals_iff`: the values are exactly what the keys look up;
* `total f m`: the sum of `f` over the values; **`total_insert_new`**, **`total_insert_old`** say
  how it changes when a key is added or overwritten;
* `insertNew`: an insertion that fails when the key is present;
* `insertAll`: the entries of a list, in order; **`foldl_insertNew_eq_ok`**: a loop of new insertions
  succeeds exactly when all keys are new, and then it inserts them all.
-/

/-- Pairs in lexicographic order are equal when they compare as equal. -/
instance lawfulEqOrdLex {α β : Type} [Ord α] [Ord β] [Std.LawfulEqOrd α]
    [Std.LawfulEqOrd β] : Std.LawfulEqOrd (α ×ₗ β) where
  compare_self := by
    intro a
    rw [Prod.Lex.compare_def]
    simp [compareLex, compareOn]
  eq_of_compare := by
    intro a b h
    rw [Prod.Lex.compare_def] at h
    simp only [compareLex, compareOn, Ordering.then_eq_eq, Std.compare_eq_iff_eq] at h
    exact ofLex.injective (Prod.ext h.1 h.2)

/-- An ordered map. -/
abbrev BTreeMap (κ β : Type) [Ord κ] := Std.ExtTreeMap κ β compare

/-- An ordered set. -/
abbrev BTreeSet (κ : Type) [Ord κ] := Std.ExtTreeSet κ compare

namespace BTreeMap

open Std

variable {κ β γ : Type} [Ord κ] [TransOrd κ] [LawfulEqOrd κ]

theorem get_insert (m : BTreeMap κ β) (k a : κ) (v : β) [Decidable (k = a)] :
    (m.insert k v)[a]? = if k = a then some v else m[a]? := by
  rw [ExtTreeMap.getElem?_insert]
  simp only [Std.compare_eq_iff_eq]

theorem get_insert_ne (m : BTreeMap κ β) {k a : κ} (v : β) (h : k ≠ a) :
    (m.insert k v)[a]? = m[a]? := by
  classical rw [get_insert, if_neg h]

theorem mem_iff_exists {m : BTreeMap κ β} {k : κ} : k ∈ m ↔ ∃ v, m[k]? = some v := by
  rw [ExtTreeMap.mem_iff_isSome_getElem?, Option.isSome_iff_exists]

theorem get_eq_none_iff {m : BTreeMap κ β} {k : κ} : (m[k]? : Option β) = none ↔ k ∉ m := by
  rw [mem_iff_exists, Option.eq_none_iff_forall_ne_some]
  simp only [ne_eq, not_exists]

theorem mem_insert_iff {m : BTreeMap κ β} {k a : κ} {v : β} : a ∈ m.insert k v ↔ k = a ∨ a ∈ m := by
  rw [ExtTreeMap.mem_insert, Std.compare_eq_iff_eq]

/-- The values of a map, in key order. -/
def vals (m : BTreeMap κ β) : List β := m.toList.map Prod.snd

theorem mem_vals_iff {m : BTreeMap κ β} {v : β} : v ∈ vals m ↔ ∃ k : κ, m[k]? = some v := by
  rw [vals, List.mem_map]
  constructor
  · rintro ⟨⟨k, w⟩, hm, rfl⟩
    exact ⟨k, ExtTreeMap.mem_toList_iff_getElem?_eq_some.mp hm⟩
  · rintro ⟨k, hk⟩
    exact ⟨(k, v), ExtTreeMap.mem_toList_iff_getElem?_eq_some.mpr hk, rfl⟩

theorem nodup_toList (m : BTreeMap κ β) : m.toList.Nodup := by
  refine ExtTreeMap.distinct_keys_toList.imp fun {a b} h hab => h ?_
  rw [hab]
  exact ReflCmp.compare_self

theorem toList_perm {m : BTreeMap κ β} {k : κ} {v : β} (h : m[k]? = some v) :
    m.toList.Perm ((k, v) :: (m.erase k).toList) := by
  have hk : (k, v) ∉ (m.erase k).toList := by
    rw [ExtTreeMap.mem_toList_iff_getElem?_eq_some, ExtTreeMap.getElem?_erase_self]
    simp
  rw [List.perm_ext_iff_of_nodup (nodup_toList m) (List.nodup_cons.mpr ⟨hk, nodup_toList _⟩)]
  rintro ⟨a, w⟩
  rw [List.mem_cons, ExtTreeMap.mem_toList_iff_getElem?_eq_some,
    ExtTreeMap.mem_toList_iff_getElem?_eq_some, ExtTreeMap.getElem?_erase, Prod.mk.injEq]
  by_cases hka : k = a
  · subst hka
    simp [h, eq_comm]
  · simp [hka, Ne.symm hka]

theorem erase_insert_self (m : BTreeMap κ β) (k : κ) (v : β) : (m.insert k v).erase k = m.erase k := by
  refine ExtTreeMap.ext_getElem? fun a => ?_
  rw [ExtTreeMap.getElem?_erase, ExtTreeMap.getElem?_erase, ExtTreeMap.getElem?_insert]
  split <;> rfl

theorem erase_of_not_mem {m : BTreeMap κ β} {k : κ} (h : k ∉ m) : m.erase k = m := by
  refine ExtTreeMap.ext_getElem? fun a => ?_
  rw [ExtTreeMap.getElem?_erase]
  split
  · rename_i hka
    rw [Std.compare_eq_iff_eq] at hka
    rw [← hka, get_eq_none_iff.mpr h]
  · rfl

theorem vals_insert_perm {m : BTreeMap κ β} {k : κ} (v : β) (h : k ∉ m) :
    (vals (m.insert k v)).Perm (v :: vals m) := by
  have hperm := (toList_perm (ExtTreeMap.getElem?_insert_self (t := m) (k := k) (v := v))).map
    Prod.snd
  rwa [erase_insert_self, erase_of_not_mem h] at hperm

/-- The sum of `f` over the values of a map. -/
def total (f : β → ℕ) (m : BTreeMap κ β) : ℕ := ((vals m).map f).sum

theorem total_eq (f : β → ℕ) (m : BTreeMap κ β) :
    total f m = (m.toList.map fun p => f p.2).sum := by
  rw [total, vals, List.map_map]
  rfl

theorem total_eq_add {f : β → ℕ} {m : BTreeMap κ β} {k : κ} {v : β} (h : m[k]? = some v) :
    total f m = f v + total f (m.erase k) := by
  rw [total_eq, total_eq, ((toList_perm h).map _).sum_eq, List.map_cons, List.sum_cons]

theorem total_insert (f : β → ℕ) (m : BTreeMap κ β) (k : κ) (v : β) :
    total f (m.insert k v) = f v + total f (m.erase k) := by
  rw [total_eq_add (ExtTreeMap.getElem?_insert_self), erase_insert_self]

/-- **A new key adds its value.** -/
theorem total_insert_new {f : β → ℕ} {m : BTreeMap κ β} {k : κ} (v : β) (h : k ∉ m) :
    total f (m.insert k v) = f v + total f m := by
  rw [total_insert, erase_of_not_mem h]

/-- **Overwriting a key exchanges its value.** -/
theorem total_insert_old {f : β → ℕ} {m : BTreeMap κ β} {k : κ} {w : β} (v : β) (h : m[k]? = some w) :
    total f (m.insert k v) + f w = total f m + f v := by
  rw [total_insert, total_eq_add h]
  omega

@[simp] theorem total_empty (f : β → ℕ) : total f (∅ : BTreeMap κ β) = 0 := by
  rw [total_eq, ExtTreeMap.toList_eq_nil_iff.mpr rfl]
  rfl

theorem size_insert_new {m : BTreeMap κ β} {k : κ} (v : β) (h : k ∉ m) :
    (m.insert k v).size = m.size + 1 := by
  rw [ExtTreeMap.size_insert, if_neg]
  rwa [ExtTreeMap.contains_iff_mem]

theorem size_insert_old {m : BTreeMap κ β} {k : κ} {w : β} (v : β) (h : m[k]? = some w) :
    (m.insert k v).size = m.size := by
  rw [ExtTreeMap.size_insert, if_pos]
  rw [ExtTreeMap.contains_iff_mem, mem_iff_exists]
  exact ⟨w, h⟩

theorem mem_of_size_eq {m : BTreeMap κ β} {m' : BTreeMap κ γ} (hsub : ∀ k, k ∈ m → k ∈ m')
    (hsize : m'.size = m.size) {k : κ} (hk : k ∈ m') : k ∈ m := by
  have hkeys : m.keys ⊆ m'.keys := fun other hother =>
    ExtTreeMap.mem_keys.mpr (hsub other (ExtTreeMap.mem_keys.mp hother))
  have hperm := (List.subperm_of_subset ExtTreeMap.nodup_keys hkeys).perm_of_length_le (by
    rw [ExtTreeMap.length_keys, ExtTreeMap.length_keys, hsize])
  exact ExtTreeMap.mem_keys.mp (hperm.mem_iff.mpr (ExtTreeMap.mem_keys.mpr hk))

/-- Insert a key that must not be present, as `insert(k, v).is_some()` guards do. -/
def insertNew {ε : Type} (m : BTreeMap κ β) (k : κ) (v : β) (e : ε) : Outcome ε (BTreeMap κ β) := do
  Outcome.failIf (k ∈ m) e
  pure (m.insert k v)

@[simp] theorem insertNew_eq_ok {ε : Type} {m m' : BTreeMap κ β} {k : κ} {v : β} {e : ε} :
    insertNew m k v e = .ok m' ↔ k ∉ m ∧ m.insert k v = m' := by
  simp only [insertNew, Outcome.bind_eq_ok, Outcome.exists_unit, Outcome.failIf_eq_ok,
    Outcome.pure_eq_ok]

/-! ### Entries of a list -/

section insertAll

variable {α : Type} {key : α → κ} {val : α → β}

/-- Insert an entry for every element of a list. -/
def insertAll (key : α → κ) (val : α → β) (m : BTreeMap κ β) (xs : List α) : BTreeMap κ β :=
  xs.foldl (fun m x => m.insert (key x) (val x)) m

@[simp] theorem insertAll_nil (m : BTreeMap κ β) : insertAll key val m [] = m := rfl

@[simp] theorem insertAll_cons (m : BTreeMap κ β) (x : α) (xs : List α) :
    insertAll key val m (x :: xs) = insertAll key val (m.insert (key x) (val x)) xs := rfl

theorem mem_insertAll {m : BTreeMap κ β} {xs : List α} {k : κ} :
    k ∈ insertAll key val m xs ↔ k ∈ m ∨ ∃ x ∈ xs, key x = k := by
  induction xs generalizing m with
  | nil => simp
  | cons x xs ih =>
    rw [insertAll_cons, ih, mem_insert_iff]
    simp only [List.mem_cons, exists_eq_or_imp]
    tauto

theorem get_insertAll_of_ne {m : BTreeMap κ β} {xs : List α} {k : κ} (h : ∀ x ∈ xs, key x ≠ k) :
    (insertAll key val m xs)[k]? = m[k]? := by
  induction xs generalizing m with
  | nil => rfl
  | cons x xs ih =>
    rw [insertAll_cons, ih fun y hy => h y (List.mem_cons_of_mem _ hy),
      get_insert_ne _ _ (h x List.mem_cons_self)]

theorem get_insertAll_of_mem {m : BTreeMap κ β} {xs : List α} {x : α} (h : (xs.map key).Nodup)
    (hx : x ∈ xs) : (insertAll key val m xs)[key x]? = some (val x) := by
  induction xs generalizing m with
  | nil => simp at hx
  | cons y xs ih =>
    obtain ⟨hy, hrest⟩ := List.nodup_cons.mp h
    rw [insertAll_cons]
    rcases List.mem_cons.mp hx with rfl | hx
    · rw [get_insertAll_of_ne, ExtTreeMap.getElem?_insert_self]
      exact fun z hz heq => hy (heq ▸ List.mem_map_of_mem hz)
    · exact ih hrest hx

theorem get_insertAll_eq_some {m : BTreeMap κ β} {xs : List α} {k : κ} {v : β}
    (h : (xs.map key).Nodup) (hk : (insertAll key val m xs)[k]? = some v) :
    (∃ x ∈ xs, key x = k ∧ val x = v) ∨ (∀ x ∈ xs, key x ≠ k) ∧ m[k]? = some v := by
  by_cases hin : ∃ x ∈ xs, key x = k
  · obtain ⟨x, hx, rfl⟩ := hin
    rw [get_insertAll_of_mem h hx] at hk
    exact Or.inl ⟨x, hx, rfl, Option.some.inj hk⟩
  · have hne : ∀ x ∈ xs, key x ≠ k := fun x hx heq => hin ⟨x, hx, heq⟩
    rw [get_insertAll_of_ne hne] at hk
    exact Or.inr ⟨hne, hk⟩

theorem size_insertAll {m : BTreeMap κ β} {xs : List α} (h : (xs.map key).Nodup)
    (hnew : ∀ x ∈ xs, key x ∉ m) : (insertAll key val m xs).size = m.size + xs.length := by
  induction xs generalizing m with
  | nil => rfl
  | cons x xs ih =>
    obtain ⟨hx, hrest⟩ := List.nodup_cons.mp h
    rw [insertAll_cons, ih hrest, size_insert_new _ (hnew x List.mem_cons_self), List.length_cons]
    · omega
    · intro y hy hin
      rcases mem_insert_iff.mp hin with heq | hold
      · exact hx (heq ▸ List.mem_map_of_mem hy)
      · exact hnew y (List.mem_cons_of_mem _ hy) hold

/-- A map that has exactly the listed entries more than before, each under a key that was free. -/
structure Adds (before after : BTreeMap κ β) (entries : List (κ × β)) : Prop where
  distinct : (entries.map Prod.fst).Nodup
  free : ∀ e ∈ entries, e.1 ∉ before
  lookup : ∀ k v, after[k]? = some v ↔ before[k]? = some v ∨ (k, v) ∈ entries

theorem Adds.insertAll {m : BTreeMap κ β} {xs : List α} (h : (xs.map key).Nodup)
    (hnew : ∀ x ∈ xs, key x ∉ m) :
    Adds m (BTreeMap.insertAll key val m xs) (xs.map fun x => (key x, val x)) where
  distinct := by
    rw [List.map_map]
    exact h
  free := by
    intro e he
    obtain ⟨x, hx, rfl⟩ := List.mem_map.mp he
    exact hnew x hx
  lookup := by
    intro k v
    simp only [List.mem_map, Prod.mk.injEq]
    constructor
    · intro hk
      rcases get_insertAll_eq_some h hk with hin | ⟨_, hold⟩
      · exact Or.inr hin
      · exact Or.inl hold
    · rintro (hold | ⟨x, hx, rfl, rfl⟩)
      · rw [get_insertAll_of_ne, hold]
        rintro x hx rfl
        exact hnew x hx (mem_iff_exists.mpr ⟨v, hold⟩)
      · exact get_insertAll_of_mem h hx

/-- **A loop of new insertions.** -/
theorem foldl_insertNew_eq_ok {ε : Type} {e : α → ε} {m m' : BTreeMap κ β} {xs : List α} :
    Outcome.foldl (fun m x => insertNew m (key x) (val x) (e x)) m xs = .ok m' ↔
      (∀ x ∈ xs, key x ∉ m) ∧ (xs.map key).Nodup ∧ insertAll key val m xs = m' := by
  induction xs generalizing m with
  | nil => simp [Outcome.foldl]
  | cons x xs ih =>
    simp only [Outcome.foldl, Outcome.bind_eq_ok, insertNew_eq_ok, ih, List.mem_cons,
      forall_eq_or_imp, List.map_cons, List.nodup_cons, List.mem_map, insertAll_cons]
    constructor
    · rintro ⟨_, ⟨hx, rfl⟩, hrest, hnodup, rfl⟩
      refine ⟨⟨hx, fun y hy hin => hrest y hy (mem_insert_iff.mpr (Or.inr hin))⟩, ⟨?_, hnodup⟩, rfl⟩
      rintro ⟨y, hy, heq⟩
      exact hrest y hy (mem_insert_iff.mpr (Or.inl heq.symm))
    · rintro ⟨⟨hx, hrest⟩, ⟨hnot, hnodup⟩, rfl⟩
      refine ⟨_, ⟨hx, rfl⟩, fun y hy hin => ?_, hnodup, rfl⟩
      rcases mem_insert_iff.mp hin with heq | hold
      · exact hnot ⟨y, hy, heq.symm⟩
      · exact hrest y hy hold

end insertAll

end BTreeMap

namespace BTreeSet

open Std

variable {κ : Type} [Ord κ] [TransOrd κ] [LawfulEqOrd κ]

theorem mem_insert_iff {s : BTreeSet κ} {k a : κ} : a ∈ s.insert k ↔ k = a ∨ a ∈ s := by
  rw [ExtTreeSet.mem_insert, Std.compare_eq_iff_eq]

theorem mem_erase_iff {s : BTreeSet κ} {k a : κ} : a ∈ s.erase k ↔ k ≠ a ∧ a ∈ s := by
  rw [ExtTreeSet.mem_erase, ne_eq, Std.compare_eq_iff_eq]

theorem mem_ofList_iff {l : List κ} {k : κ} : k ∈ (ExtTreeSet.ofList l compare : BTreeSet κ) ↔ k ∈ l := by
  classical
  rw [ExtTreeSet.mem_ofList, List.contains_iff_mem]

theorem nodup_toList (s : BTreeSet κ) : s.toList.Nodup :=
  ExtTreeSet.distinct_toList.imp fun hne => by
    rintro rfl
    exact hne ReflCmp.compare_self

/-- Insert an element that must not be present, as `!insert(k)` guards do. -/
def insertNew {ε : Type} (s : BTreeSet κ) (k : κ) (e : ε) : Outcome ε (BTreeSet κ) := do
  Outcome.failIf (k ∈ s) e
  pure (s.insert k)

@[simp] theorem insertNew_eq_ok {ε : Type} {s s' : BTreeSet κ} {k : κ} {e : ε} :
    insertNew s k e = .ok s' ↔ k ∉ s ∧ s.insert k = s' := by
  simp only [insertNew, Outcome.bind_eq_ok, Outcome.exists_unit, Outcome.failIf_eq_ok,
    Outcome.pure_eq_ok]

/-- Insert a key for every element of a list. -/
def insertAll {α : Type} (key : α → κ) (s : BTreeSet κ) (xs : List α) : BTreeSet κ :=
  xs.foldl (fun s x => s.insert (key x)) s

theorem mem_insertAll {α : Type} {key : α → κ} {s : BTreeSet κ} {xs : List α} {k : κ} :
    k ∈ insertAll key s xs ↔ k ∈ s ∨ ∃ x ∈ xs, key x = k := by
  induction xs generalizing s with
  | nil => simp [insertAll]
  | cons x xs ih =>
    rw [insertAll, List.foldl_cons, ← insertAll, ih, mem_insert_iff]
    simp only [List.mem_cons, exists_eq_or_imp]
    tauto

/-- The smallest element, first in the order of iteration. -/
def first? (s : BTreeSet κ) : Option κ := s.toList.head?

theorem first?_eq_none_iff {s : BTreeSet κ} : first? s = none ↔ s = ∅ := by
  rw [first?, ← ExtTreeSet.min?_eq_head?_toList, ExtTreeSet.min?_eq_none_iff]

theorem mem_of_first?_eq_some {s : BTreeSet κ} {k : κ} (h : first? s = some k) : k ∈ s :=
  ExtTreeSet.mem_toList.mp (List.mem_of_mem_head? h)

end BTreeSet
