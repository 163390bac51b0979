import Xgeny.Lib.Outcome

set_option autoImplicit false

/-!
# Methods that change a state

A method on a mutable value runs on a state and leaves a state behind, also when it fails: what it
wrote before an error stays written. A method is atomic when an error leaves the state as it was.

* `reads f`, `writes f`: the two primitive steps;
* the simp set `*_eq_ok` turns a run that returned a value into the steps it took;
* `Infallible m`: the method returns no error;
* **`Atomic.of_reads`**, **`Infallible.atomic`**: checks first and infallible writes after them make a
  method atomic.
-/

/-- A method on a state of type `σ`: its outcome, and the state it leaves. -/
def Mutation (σ ε α : Type) := σ → Outcome ε α × σ

namespace Mutation

variable {σ ε α β : Type}

instance instMonad : Monad (Mutation σ ε) where
  pure a := fun s => (.ok a, s)
  bind m f := fun s =>
    match m s with
    | (.ok a, s') => f a s'
    | (.error fault, s') => (.error fault, s')

/-- A computation on the state that writes nothing. -/
def reads (f : σ → Outcome ε α) : Mutation σ ε α := fun s => (f s, s)

/-- Replace the state. -/
def writes (f : σ → σ) : Mutation σ ε Unit := fun s => (.ok (), f s)

/-- The method as a computation, which drops the state that an error leaves. -/
def exec (m : Mutation σ ε α) (s : σ) : Outcome ε (α × σ) :=
  match m s with
  | (.ok a, s') => .ok (a, s')
  | (.error fault, _) => .error fault

/-! ## Runs that return a value -/

theorem exec_eq_ok {m : Mutation σ ε α} {s : σ} {result : α × σ} :
    m.exec s = .ok result ↔ m s = (.ok result.1, result.2) := by
  unfold exec
  rcases m s with ⟨_ | a, s'⟩
  · simp
  · simp [Prod.ext_iff]

@[simp] theorem bind_eq_ok {m : Mutation σ ε α} {f : α → Mutation σ ε β} {s s' : σ} {b : β} :
    (m >>= f) s = (.ok b, s') ↔ ∃ a s₁, m s = (.ok a, s₁) ∧ f a s₁ = (.ok b, s') := by
  change (match m s with
    | (.ok a, s') => f a s'
    | (.error fault, s') => (.error fault, s')) = (.ok b, s') ↔ _
  rcases m s with ⟨_ | a, s₁⟩ <;> simp

@[simp] theorem pure_eq_ok {s s' : σ} {a b : α} :
    (pure a : Mutation σ ε α) s = (.ok b, s') ↔ a = b ∧ s = s' := by
  change ((.ok a : Outcome ε α), s) = (.ok b, s') ↔ _
  simp

@[simp] theorem reads_eq_ok {f : σ → Outcome ε α} {s s' : σ} {a : α} :
    reads f s = (.ok a, s') ↔ f s = .ok a ∧ s = s' := by
  simp [reads]

@[simp] theorem writes_eq_ok {f : σ → σ} {s s' : σ} {u : Unit} :
    (writes f : Mutation σ ε Unit) s = (.ok u, s') ↔ f s = s' := by
  simp [writes]

theorem bind_of_ok {m : Mutation σ ε α} {f : α → Mutation σ ε β} {s s' : σ} {a : α}
    (h : m s = (.ok a, s')) : (m >>= f) s = f a s' := by
  change (match m s with
    | (.ok a, s') => f a s'
    | (.error fault, s') => (.error fault, s')) = _
  rw [h]

theorem bind_of_error {m : Mutation σ ε α} {f : α → Mutation σ ε β} {s s' : σ} {fault : Fault ε}
    (h : m s = (.error fault, s')) : (m >>= f) s = (.error fault, s') := by
  change (match m s with
    | (.ok a, s') => f a s'
    | (.error fault, s') => (.error fault, s')) = _
  rw [h]

theorem reads_bind_of_ok {f : σ → Outcome ε α} {k : α → Mutation σ ε β} {s : σ} {a : α}
    (h : f s = .ok a) : (reads f >>= k) s = k a s :=
  bind_of_ok (by rw [reads, h])

theorem reads_bind_of_error {f : σ → Outcome ε α} {k : α → Mutation σ ε β} {s : σ} {fault : Fault ε}
    (h : f s = .error fault) : (reads f >>= k) s = (.error fault, s) :=
  bind_of_error (by rw [reads, h])

theorem bind_eq_error {m : Mutation σ ε α} {f : α → Mutation σ ε β} {s s' : σ} {fault : Fault ε} :
    (m >>= f) s = (.error fault, s') ↔ m s = (.error fault, s') ∨
      ∃ a s₁, m s = (.ok a, s₁) ∧ f a s₁ = (.error fault, s') := by
  change (match m s with
    | (.ok a, s') => f a s'
    | (.error fault, s') => (.error fault, s')) = (.error fault, s') ↔ _
  rcases m s with ⟨_ | a, s₁⟩ <;> simp

/-! ## Atomic methods -/

/-- The method returns no error, on any state. -/
def Infallible (m : Mutation σ ε α) : Prop := ∀ s e s', m s ≠ (.error (.err e), s')

/-- An error leaves the state as it was. -/
def Atomic (m : Mutation σ ε α) : Prop := ∀ s e s', m s = (.error (.err e), s') → s' = s

theorem Infallible.pure {a : α} : Infallible (pure a : Mutation σ ε α) := by
  intro s e s' h
  cases h

theorem Infallible.writes {f : σ → σ} : Infallible (writes f : Mutation σ ε Unit) := by
  intro s e s' h
  cases h

theorem Infallible.reads {f : σ → Outcome ε α} (h : ∀ s e, f s ≠ .error (.err e)) :
    Infallible (reads f) := by
  intro s e s' hrun
  exact h s e (Prod.mk.inj hrun).1

theorem Infallible.bind {m : Mutation σ ε α} {f : α → Mutation σ ε β} (hm : Infallible m)
    (hf : ∀ a, Infallible (f a)) : Infallible (m >>= f) := by
  intro s e s' h
  rcases bind_eq_error.mp h with hfirst | ⟨a, s₁, _, hrest⟩
  · exact hm s e s' hfirst
  · exact hf a s₁ e s' hrest

/-- **Writes that cannot fail are atomic.** -/
theorem Infallible.atomic {m : Mutation σ ε α} (h : Infallible m) : Atomic m :=
  fun s e s' hrun => absurd hrun (h s e s')

/-- **Infallible writes after an atomic method.** -/
theorem Atomic.bind {m : Mutation σ ε α} {f : α → Mutation σ ε β} (hm : Atomic m)
    (hf : ∀ a, Infallible (f a)) : Atomic (m >>= f) := by
  intro s e s' h
  rcases bind_eq_error.mp h with hfirst | ⟨a, s₁, _, hrest⟩
  · exact hm s e s' hfirst
  · exact absurd hrest (hf a s₁ e s')

/-- **A check before an atomic method.** -/
theorem Atomic.of_reads {f : σ → Outcome ε α} {k : α → Mutation σ ε β} (hk : ∀ a, Atomic (k a)) :
    Atomic (reads f >>= k) := by
  intro s e s' h
  rcases bind_eq_error.mp h with hread | ⟨a, s₁, hread, hrest⟩
  · exact (Prod.mk.inj hread).2.symm
  · obtain ⟨-, rfl⟩ := reads_eq_ok.mp hread
    exact hk a s e s' hrest

end Mutation
