import Xgeny.Lib.Outcome

set_option autoImplicit false

/-!
# Event-sourced state

A state of type `σ` is rebuilt from a list of records by a partial step function that receives
`none` before the first record. Every fact about such a state is an invariant of the list: it
holds after the first record and one more record keeps it.

* `run step records`: the rebuilt state;
* `run_snoc`: appending a record is one more step;
* **`run_induction`**: the invariant rule, with the records seen so far in hand;
* `At`, `at_snoc`: the record at a position, and the positions of a list extended at its end.
-/

namespace EventLog

variable {σ ρ ε : Type} (step : Option σ → ρ → Outcome ε σ)

/-- Rebuild the state from a list of records. -/
def run (records : List ρ) : Outcome ε (Option σ) :=
  Outcome.foldl (fun state record => do let next ← step state record; pure (some next)) none records

@[simp] theorem run_nil : run step [] = .ok none := rfl

variable {step}

theorem run_snoc {records : List ρ} {r : ρ} {o : Option σ} :
    run step (records ++ [r]) = .ok o ↔
      ∃ state s, run step records = .ok state ∧ step state r = .ok s ∧ o = some s := by
  unfold run
  rw [Outcome.foldl_append]
  simp only [Outcome.foldl, Outcome.bind_eq_ok, Outcome.pure_eq_ok, Except.ok.injEq]
  constructor
  · rintro ⟨state, hrun, _, ⟨s, hs, rfl⟩, rfl⟩
    exact ⟨state, s, hrun, hs, rfl⟩
  · rintro ⟨state, s, hrun, hs, rfl⟩
    exact ⟨state, hrun, some s, ⟨s, hs, rfl⟩, rfl⟩

/-- **Invariant rule.** What the first record establishes and every further record keeps holds of
every rebuilt state, together with the records it was rebuilt from. -/
theorem run_induction {I : List ρ → σ → Prop}
    (first : ∀ r s, step none r = .ok s → I [r] s)
    (next : ∀ records s r s', run step records = .ok (some s) → I records s →
      step (some s) r = .ok s' → I (records ++ [r]) s')
    {records : List ρ} {s : σ} (h : run step records = .ok (some s)) : I records s := by
  induction records using List.reverseRecOn generalizing s with
  | nil => simp at h
  | append_singleton records r ih =>
    obtain ⟨state, s', hrun, hstep, hs⟩ := run_snoc.mp h
    obtain rfl : s = s' := by simpa using hs
    cases state with
    | some t => exact next records t r s hrun (ih hrun) hstep
    | none =>
      -- only the empty list rebuilds to no state
      cases records using List.reverseRecOn with
      | nil => exact first r s hstep
      | append_singleton records q =>
        obtain ⟨_, _, _, _, hq⟩ := run_snoc.mp hrun
        simp at hq

theorem run_eq_none {records : List ρ} (h : run step records = .ok none) : records = [] := by
  induction records using List.reverseRecOn with
  | nil => rfl
  | append_singleton records r _ =>
    obtain ⟨_, _, _, _, hq⟩ := run_snoc.mp h
    simp at hq

theorem run_prefix {records more : List ρ} {o : Option σ} (h : run step (records ++ more) = .ok o) :
    ∃ o', run step records = .ok o' := by
  induction more using List.reverseRecOn generalizing o with
  | nil => exact ⟨o, by simpa using h⟩
  | append_singleton more r ih =>
    rw [← List.append_assoc] at h
    obtain ⟨_, _, hrun, _⟩ := run_snoc.mp h
    exact ih hrun

/-! ## Positions -/

/-- The record at a position. -/
def At (records : List ρ) (i : ℕ) (r : ρ) : Prop := records[i]? = some r

theorem At.lt_length {records : List ρ} {i : ℕ} {r : ρ} (h : At records i r) :
    i < records.length := (List.getElem?_eq_some_iff.mp h).1

theorem At.mem {records : List ρ} {i : ℕ} {r : ρ} (h : At records i r) : r ∈ records :=
  List.mem_of_getElem? h

theorem At.unique {records : List ρ} {i : ℕ} {r q : ρ} (hr : At records i r) (hq : At records i q) :
    r = q := Option.some.inj (hr.symm.trans hq)

theorem at_snoc {records : List ρ} {r x : ρ} {i : ℕ} :
    At (records ++ [r]) i x ↔ At records i x ∨ i = records.length ∧ r = x := by
  unfold At
  rw [List.getElem?_append]
  split
  · rename_i hi
    constructor
    · exact Or.inl
    · rintro (h | ⟨rfl, _⟩)
      · exact h
      · omega
  · rename_i hi
    rw [List.getElem?_singleton, List.getElem?_eq_none (by omega)]
    split
    · simp
      omega
    · simp
      omega

theorem At.snoc {records : List ρ} {r x : ρ} {i : ℕ} (h : At records i x) :
    At (records ++ [r]) i x := at_snoc.mpr (Or.inl h)

theorem at_length {records : List ρ} {r : ρ} : At (records ++ [r]) records.length r :=
  at_snoc.mpr (Or.inr ⟨rfl, rfl⟩)

end EventLog
