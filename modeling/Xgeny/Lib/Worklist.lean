import Xgeny.Lib.KeyedMap
import Xgeny.Lib.Topological

set_option autoImplicit false
set_option linter.unusedSectionVars false

/-!
# Worklists over dependency counts

Every key counts the dependencies that are not visited yet. The smallest key without such a
dependency is visited next, and each key that depends on it counts one fewer.

* `release`, `visit`: one dependent of a visited key, and the loop, with the texts of its panics;
* `Graph`: what a checked graph satisfies; `Recorded`, **`graph_of_recorded`**: the dependents that a
  loop over all keys records;
* `Released`, **`exists_release`**: the dependents of one key;
* `Visit`, **`Visit.snoc`**: the invariant of the loop;
* **`exists_visit`**: the loop ends without a panic;
* **`Visit.complete_iff`**: it has then visited every key exactly for an acyclic graph.
-/

namespace Worklist

open Std

variable {κ ε : Type} [Ord κ] [TransOrd κ] [LawfulEqOrd κ] [DecidableEq κ]

/-! ## The loop -/

/-- One dependent of a visited key: one dependency fewer, and ready when none is left. -/
def release (missing underflow : String) (acc : BTreeMap κ ℕ × BTreeSet κ) (dependent : κ) :
    Outcome ε (BTreeMap κ ℕ × BTreeSet κ) := do
  let count ← Outcome.expect acc.1[dependent]? missing
  match count with
  | 0 => Outcome.abort underflow
  | remaining + 1 =>
    pure (acc.1.insert dependent remaining, if remaining = 0 then acc.2.insert dependent else acc.2)

/-- Visit the ready keys, the smallest first, until none is ready, and count them. The first number
bounds the visits that are left. -/
def visit (missing underflow : String) (dependents : BTreeMap κ (List κ)) :
    ℕ → BTreeMap κ ℕ → BTreeSet κ → ℕ → Outcome ε ℕ
  | fuel, remaining, ready, processed =>
    match BTreeSet.first? ready with
    | none => pure processed
    | some key =>
      match fuel with
      | 0 => Outcome.abort "more ready keys than keys"
      | fuel + 1 => do
        let children ← Outcome.expect dependents[key]? "no entry found for key"
        let (remaining, ready) ←
          Outcome.foldl (release missing underflow) (remaining, ready.erase key) children
        visit missing underflow dependents fuel remaining ready (processed + 1)

/-! ## Graphs -/

/-- A listed key depends on another. -/
def DependsOn (keys : List κ) (deps : κ → List κ) (a b : κ) : Prop := a ∈ keys ∧ b ∈ deps a

/-- Dependencies are listed keys, never the key itself, and listed once; the dependents of every key
are recorded. -/
structure Graph (keys : List κ) (deps : κ → List κ) (dependents : BTreeMap κ (List κ)) : Prop where
  once : ∀ key ∈ keys, (deps key).Nodup
  known : ∀ key ∈ keys, ∀ d ∈ deps key, d ∈ keys
  irreflexive : ∀ key ∈ keys, key ∉ deps key
  dependents : ∀ d ∈ keys, ∃ children, dependents[d]? = some children ∧ children.Nodup ∧
    ∀ c, c ∈ children ↔ DependsOn keys deps c d

section Recorded

variable {keys : List κ} {deps : κ → List κ} {dependents dependents' : BTreeMap κ (List κ)}
  {seen : List κ}

/-- After the keys `seen`, each stands under its dependencies. -/
def Recorded (keys : List κ) (deps : κ → List κ) (seen : List κ)
    (dependents : BTreeMap κ (List κ)) : Prop :=
  ∀ d, dependents[d]? = if d ∈ keys then some (seen.filter fun key => decide (d ∈ deps key)) else none

theorem get_record {d x key : κ} {children : List κ} (h : dependents[d]? = some children) :
    (dependents.insert d (children ++ [key]))[x]? =
      dependents[x]?.map fun cs => if x = d then cs ++ [key] else cs := by
  rw [BTreeMap.get_insert]
  by_cases hx : d = x
  · subst hx
    simp [h]
  · simp [hx, Ne.symm hx]

theorem Recorded.snoc {key : κ} (h : Recorded keys deps seen dependents)
    (hnew : ∀ d, dependents'[d]? =
      dependents[d]?.map fun cs => if d ∈ deps key then cs ++ [key] else cs) :
    Recorded keys deps (seen ++ [key]) dependents' := by
  intro d
  rw [hnew, h d]
  by_cases hd : d ∈ keys
  · by_cases hkey : d ∈ deps key <;> simp [hd, hkey]
  · simp [hd]

/-- **The recorded graph.** -/
theorem graph_of_recorded (hkeys : keys.Nodup) (hrecorded : Recorded keys deps keys dependents)
    (once : ∀ key ∈ keys, (deps key).Nodup) (known : ∀ key ∈ keys, ∀ d ∈ deps key, d ∈ keys)
    (irreflexive : ∀ key ∈ keys, key ∉ deps key) : Graph keys deps dependents where
  once := once
  known := known
  irreflexive := irreflexive
  dependents := by
    intro d hd
    refine ⟨_, (hrecorded d).trans (if_pos hd), hkeys.filter _, fun c => ?_⟩
    rw [List.mem_filter, decide_eq_true_eq]
    exact Iff.rfl

end Recorded

/-! ## The dependents of one key -/

section Release

variable {missing underflow : String} {remaining : BTreeMap κ ℕ} {ready : BTreeSet κ}
  {seen children : List κ} {acc acc' : BTreeMap κ ℕ × BTreeSet κ}

/-- After the dependents `seen`: each counts one dependency fewer and is ready when it was the
last. -/
structure Released (remaining : BTreeMap κ ℕ) (ready : BTreeSet κ) (seen : List κ)
    (acc : BTreeMap κ ℕ × BTreeSet κ) : Prop where
  counts : ∀ c : κ, acc.1[c]? = if c ∈ seen then remaining[c]?.map (· - 1) else remaining[c]?
  ready : ∀ c, c ∈ acc.2 ↔ c ∈ ready ∨ c ∈ seen ∧ remaining[c]? = some 1

theorem release_eq_ok {child : κ} :
    release (ε := ε) missing underflow acc child = .ok acc' ↔ ∃ n, acc.1[child]? = some (n + 1) ∧
      (acc.1.insert child n, if n = 0 then acc.2.insert child else acc.2) = acc' := by
  unfold release
  simp only [Outcome.bind_eq_ok, Outcome.expect_eq_ok]
  constructor
  · rintro ⟨count, hcount, hok⟩
    cases count with
    | zero => simp at hok
    | succ n => exact ⟨n, hcount, by simpa using hok⟩
  · rintro ⟨n, hn, rfl⟩
    exact ⟨n + 1, hn, rfl⟩

theorem Released.snoc {child : κ} (h : Released remaining ready seen acc) (hnew : child ∉ seen)
    (hok : release (ε := ε) missing underflow acc child = .ok acc') :
    Released remaining ready (seen ++ [child]) acc' := by
  obtain ⟨n, hn, rfl⟩ := release_eq_ok.mp hok
  rw [h.counts, if_neg hnew] at hn
  constructor
  · intro c
    rw [BTreeMap.get_insert]
    by_cases hc : child = c
    · subst hc
      simp [hn]
    · rw [if_neg hc, h.counts]
      simp [Ne.symm hc]
  · intro c
    have hmem : c ∈ (if n = 0 then acc.2.insert child else acc.2) ↔
        c ∈ acc.2 ∨ (child = c ∧ n = 0) := by
      split
      · rename_i h0
        rw [BTreeSet.mem_insert_iff]
        tauto
      · tauto
    rw [hmem, h.ready, List.mem_append, List.mem_singleton]
    by_cases hc : child = c
    · subst hc
      simp [hn, hnew]
    · simp [hc, Ne.symm hc]

/-- **All dependents of a key** are released, when each still counts it. -/
theorem exists_release (missing underflow : String) (ready : BTreeSet κ) (hnodup : children.Nodup)
    (hpos : ∀ c ∈ children, ∃ n, remaining[c]? = some (n + 1)) :
    ∃ acc, Outcome.foldl (release (ε := ε) missing underflow) (remaining, ready) children = .ok acc ∧
      Released remaining ready children acc := by
  have hnil : Released remaining ready [] (remaining, ready) := ⟨by simp, by simp⟩
  have hfresh : ∀ {seen child rest}, children = seen ++ child :: rest → child ∉ seen := by
    intro seen child rest hrest hmem
    rw [hrest] at hnodup
    exact (List.nodup_append.mp hnodup).2.2 child hmem child List.mem_cons_self rfl
  have hstep : ∀ seen acc child acc', (∃ rest, children = seen ++ child :: rest) →
      Released remaining ready seen acc → release (ε := ε) missing underflow acc child = .ok acc' →
      Released remaining ready (seen ++ [child]) acc' := fun _ _ _ _ ⟨_, hrest⟩ hI hok =>
    hI.snoc (hfresh hrest) hok
  obtain ⟨acc, hacc⟩ := Outcome.foldl_total hnil hstep fun seen acc child ⟨rest, hrest⟩ hI => by
    obtain ⟨n, hn⟩ := hpos child (by rw [hrest]; simp)
    refine ⟨_, release_eq_ok.mpr ⟨n, ?_, rfl⟩⟩
    rw [hI.counts, if_neg (hfresh hrest), hn]
  exact ⟨acc, hacc, Outcome.foldl_induction hnil hstep hacc⟩

end Release

/-! ## Visits -/

theorem countP_unvisited {deps order : List κ} {key : κ} (hnodup : deps.Nodup) (hkey : key ∉ order) :
    deps.countP (fun d => decide (d ∉ order)) =
      deps.countP (fun d => decide (d ∉ order ++ [key])) + if key ∈ deps then 1 else 0 := by
  induction deps with
  | nil => simp
  | cons d deps ih =>
    have ih := ih (List.nodup_cons.mp hnodup).2
    have hd := (List.nodup_cons.mp hnodup).1
    rw [List.countP_cons, List.countP_cons, ih]
    by_cases hdkey : d = key
    · subst hdkey
      simp [hd, hkey]
    · simp [hdkey, Ne.symm hdkey]
      omega

theorem countP_unvisited_eq_zero {deps order : List κ} :
    deps.countP (fun d => decide (d ∉ order)) = 0 ↔ ∀ d ∈ deps, d ∈ order := by
  rw [List.countP_eq_zero]
  simp only [decide_eq_true_eq, Decidable.not_not]

/-- The invariant of the loop after the keys `order` were visited. -/
structure Visit (keys : List κ) (deps : κ → List κ) (order : List κ) (remaining : BTreeMap κ ℕ)
    (ready : BTreeSet κ) : Prop where
  nodup : order.Nodup
  known : order ⊆ keys
  topo : TopoOrder (DependsOn keys deps) order
  counts : ∀ key ∈ keys,
    remaining[key]? = some ((deps key).countP fun d => decide (d ∉ order))
  ready : ∀ key, key ∈ ready ↔ key ∉ order ∧ key ∈ keys ∧ ∀ d ∈ deps key, d ∈ order

section Visit

variable {missing underflow : String} {keys order : List κ} {deps : κ → List κ}
  {dependents : BTreeMap κ (List κ)} {remaining : BTreeMap κ ℕ} {ready : BTreeSet κ}

theorem visit_start (hremaining : ∀ key ∈ keys, remaining[key]? = some (deps key).length)
    (hready : ∀ key, key ∈ ready ↔ key ∈ keys ∧ deps key = []) :
    Visit keys deps [] remaining ready where
  nodup := List.nodup_nil
  known := List.nil_subset _
  topo := TopoOrder.nil
  counts key hkey := by
    rw [hremaining key hkey]
    simp
  ready key := by
    rw [hready, List.eq_nil_iff_forall_not_mem]
    simp

theorem Visit.length_le (h : Visit keys deps order remaining ready) : order.length ≤ keys.length :=
  (List.subperm_of_subset h.nodup h.known).length_le

theorem Visit.pos (hG : Graph keys deps dependents) (h : Visit keys deps order remaining ready)
    {key c : κ} (hkey : key ∈ ready) (hc : DependsOn keys deps c key) :
    ∃ n, remaining[c]? = some (n + 1) := by
  rw [h.counts c hc.1, countP_unvisited (hG.once c hc.1) ((h.ready key).mp hkey).1, if_pos hc.2]
  exact ⟨_, rfl⟩

/-- **One visit.** -/
theorem Visit.snoc {acc : BTreeMap κ ℕ × BTreeSet κ} {key : κ} {children : List κ}
    (hG : Graph keys deps dependents) (h : Visit keys deps order remaining ready)
    (hkey : key ∈ ready) (hchildren : ∀ c, c ∈ children ↔ DependsOn keys deps c key)
    (hacc : Released remaining (ready.erase key) children acc) :
    Visit keys deps (order ++ [key]) acc.1 acc.2 := by
  obtain ⟨hnew, hknown, hdeps⟩ := (h.ready key).mp hkey
  have hcount : ∀ c ∈ keys, remaining[c]? =
      some ((deps c).countP (fun d => decide (d ∉ order ++ [key])) +
        if key ∈ deps c then 1 else 0) := fun c hc => by
    rw [h.counts c hc, countP_unvisited (hG.once c hc) hnew]
  constructor
  · exact List.nodup_append.mpr ⟨h.nodup, List.nodup_singleton key, by
      rintro a ha b hb rfl
      exact hnew (by simpa [List.mem_singleton.mp hb] using ha)⟩
  · intro x hx
    rcases List.mem_append.mp hx with hx | hx
    · exact h.known hx
    · rwa [List.mem_singleton.mp hx]
  · exact h.topo.snoc hnew fun b hb => hdeps b hb.2
  · intro c hc
    rw [hacc.counts, hcount c hc]
    by_cases hdep : key ∈ deps c
    · rw [if_pos ((hchildren c).mpr ⟨hc, hdep⟩), if_pos hdep]
      rfl
    · rw [if_neg fun hmem => hdep ((hchildren c).mp hmem).2, if_neg hdep]
      rfl
  · intro c
    rw [hacc.ready, BTreeSet.mem_erase_iff, h.ready, hchildren]
    constructor
    · rintro (⟨hne, hco, hck, hcd⟩ | ⟨⟨hck, hdep⟩, hone⟩)
      · exact ⟨by simp [hco, Ne.symm hne], hck, fun d hd => List.mem_append_left _ (hcd d hd)⟩
      · have hco : c ∉ order := fun hco => hnew (h.topo c hco key ⟨hck, hdep⟩).1
        have hne : c ≠ key := by
          rintro rfl
          exact hG.irreflexive c hck hdep
        rw [hcount c hck, if_pos hdep, Option.some.injEq, Nat.add_eq_right,
          countP_unvisited_eq_zero] at hone
        exact ⟨by simp [hco, hne], hck, hone⟩
    · rintro ⟨hco, hck, hcd⟩
      obtain ⟨hco, hne⟩ : c ∉ order ∧ c ≠ key := by simpa [not_or] using hco
      by_cases hdep : key ∈ deps c
      · refine Or.inr ⟨⟨hck, hdep⟩, ?_⟩
        rw [hcount c hck, if_pos hdep, Option.some.injEq, Nat.add_eq_right, countP_unvisited_eq_zero]
        exact hcd
      · refine Or.inl ⟨Ne.symm hne, hco, hck, fun d hd => ?_⟩
        have hmem := hcd d hd
        rw [List.mem_append, List.mem_singleton] at hmem
        rcases hmem with hmem | rfl
        · exact hmem
        · exact absurd hd hdep

/-- **The loop is complete.** When no key is ready any more, all keys have been visited exactly for an
acyclic graph. -/
theorem Visit.complete_iff (hkeys : keys.Nodup) (hG : Graph keys deps dependents)
    (h : Visit keys deps order remaining ∅) :
    order.length = keys.length ↔ Acyclic (DependsOn keys deps) := by
  constructor
  · intro hlen
    have hperm := (List.subperm_of_subset h.nodup h.known).perm_of_length_le hlen.ge
    exact h.topo.acyclic fun a b hab => hperm.mem_iff.mpr hab.1
  · intro hacyclic
    have hall : keys ⊆ order := by
      intro key hkey
      by_contra hnot
      obtain ⟨x, hx, hxo, hxd⟩ := exists_ready hacyclic keys.toFinset
        (fun a ha b hab => List.mem_toFinset.mpr (hG.known a hab.1 b hab.2))
        (List.mem_toFinset.mpr hkey) hnot
      have hxk := List.mem_toFinset.mp hx
      have hready := (h.ready x).mpr ⟨hxo, hxk, fun d hd => hxd d ⟨hxk, hd⟩⟩
      simp at hready
    exact Nat.le_antisymm h.length_le (List.subperm_of_subset hkeys hall).length_le

theorem visit_none {fuel processed : ℕ} (h : BTreeSet.first? ready = none) :
    visit (ε := ε) missing underflow dependents fuel remaining ready processed = .ok processed := by
  unfold visit
  rw [h]
  rfl

/-- **The loop ends**, without a panic, with the number of keys that it visited. -/
theorem exists_visit (missing underflow : String) (hG : Graph keys deps dependents) (fuel : ℕ) :
    ∀ {order remaining ready}, Visit keys deps order remaining ready →
      keys.length ≤ order.length + fuel → ∃ order' remaining',
        Visit keys deps order' remaining' ∅ ∧
        visit (ε := ε) missing underflow dependents fuel remaining ready order.length =
          .ok order'.length := by
  induction fuel with
  | zero =>
    intro order remaining ready hV hfuel
    cases hmin : BTreeSet.first? ready with
    | none =>
      refine ⟨order, remaining, ?_, visit_none hmin⟩
      rwa [BTreeSet.first?_eq_none_iff.mp hmin] at hV
    | some key =>
      -- another visit would list more keys than there are
      obtain ⟨hnew, hknown, _⟩ := (hV.ready key).mp (BTreeSet.mem_of_first?_eq_some hmin)
      have hle := (List.subperm_of_subset (List.nodup_cons.mpr ⟨hnew, hV.nodup⟩)
        (List.cons_subset.mpr ⟨hknown, hV.known⟩)).length_le
      rw [List.length_cons] at hle
      omega
  | succ fuel ih =>
    intro order remaining ready hV hfuel
    cases hmin : BTreeSet.first? ready with
    | none =>
      refine ⟨order, remaining, ?_, visit_none hmin⟩
      rwa [BTreeSet.first?_eq_none_iff.mp hmin] at hV
    | some key =>
      have hkey := BTreeSet.mem_of_first?_eq_some hmin
      obtain ⟨children, hchildren, hnodup, hmem⟩ :=
        hG.dependents key ((hV.ready key).mp hkey).2.1
      obtain ⟨acc, hacc, hreleased⟩ := exists_release (ε := ε) missing underflow (ready.erase key) hnodup
        fun c hc => hV.pos hG hkey ((hmem c).mp hc)
      have hlen : (order ++ [key]).length = order.length + 1 := by
        rw [List.length_append, List.length_singleton]
      obtain ⟨order', remaining', hV', hvisit⟩ := ih (hV.snoc hG hkey hmem hreleased) (by omega)
      refine ⟨order', remaining', hV', ?_⟩
      unfold visit
      rw [hmin]
      simp only [Outcome.bind_eq_ok, Outcome.expect_eq_ok, hchildren, Option.some.injEq,
        exists_eq_left', hacc, Except.ok.injEq]
      rwa [← hlen]

end Visit

end Worklist
