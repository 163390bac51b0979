import Mathlib.Tactic

set_option autoImplicit false

/-!
# Computations that return an error or panic

A fallible routine ends in one of three ways: it returns a value, it returns an error, or it
panics (a failed `expect`, an index out of range, an `unreachable!`). `Outcome ε α` keeps the
three apart, so that "this `expect` is never hit" is a statement about the routine.

* `failIf p e`: stop with the error `e` when `p` holds;
* `okOr`, `expect`: unwrap an option, with an error or with a panic; `whenSome`, `mapSome`: check its
  content, or compute from it;
* `mapErr`: change the error type, keeping values and panics;
* the simp set `*_eq_ok` turns "this sequence of guards succeeded" into the conjunction of the
  guards, and `bind_eq_error` locates the step that failed;
* `Avoids bad x`: the routine never returns an error in `bad`. The simp set `avoids_*` reduces it to
  the guards whose error is bad;
* `Calm x`: the routine does not panic.
-/

/-- Why a computation stopped without a value. -/
inductive Fault (ε : Type) where
  | err (e : ε)
  | panic (message : String)
  deriving DecidableEq

/-- A value, an error of type `ε`, or a panic. -/
abbrev Outcome (ε α : Type) := Except (Fault ε) α

namespace Outcome

variable {ε ε' α β : Type}

/-- Return the error `e`. -/
def fail (e : ε) : Outcome ε α := .error (.err e)

/-- Panic with a message. -/
def abort (message : String) : Outcome ε α := .error (.panic message)

/-- Return the error `e` when `p` holds, and go on otherwise. -/
def failIf (p : Prop) [Decidable p] (e : ε) : Outcome ε Unit := if p then fail e else .ok ()

/-- Unwrap an option, returning the error `e` when it is empty. -/
def okOr (o : Option α) (e : ε) : Outcome ε α :=
  match o with
  | some a => .ok a
  | none => fail e

/-- Unwrap an option, panicking when it is empty. -/
def expect (o : Option α) (message : String) : Outcome ε α :=
  match o with
  | some a => .ok a
  | none => abort message

/-- Run a check on the content of an option, when it has one. -/
def whenSome (o : Option α) (f : α → Outcome ε Unit) : Outcome ε Unit :=
  match o with
  | some a => f a
  | none => .ok ()

/-- Run a computation on the content of an option, when it has one, and keep the result. -/
def mapSome (o : Option α) (f : α → Outcome ε β) : Outcome ε (Option β) :=
  match o with
  | none => pure none
  | some a => some <$> f a

/-- Change the error, keeping values and panics. -/
def mapErr (f : ε → ε') : Outcome ε α → Outcome ε' α
  | .ok a => .ok a
  | .error (.err e) => .error (.err (f e))
  | .error (.panic m) => .error (.panic m)

/-- The value, when there is one. -/
def value? : Outcome ε α → Option α
  | .ok a => some a
  | .error _ => none

/-- The error, when there is one; a panic is none. -/
def error? : Outcome ε α → Option ε
  | .error (.err e) => some e
  | _ => none

example : (okOr none "missing" : Outcome String Bool).error? = some "missing" := by
  decide +kernel

/-! ## Success -/

@[simp] theorem bind_eq_ok {x : Outcome ε α} {f : α → Outcome ε β} {b : β} :
    (x >>= f) = .ok b ↔ ∃ a, x = .ok a ∧ f a = .ok b := by
  cases x <;> simp [bind, Except.bind]

@[simp] theorem pure_eq_ok {a b : α} : (pure a : Outcome ε α) = .ok b ↔ a = b := by
  simp [pure, Except.pure]

@[simp] theorem fail_eq_ok {e : ε} {a : α} : ¬ (fail e : Outcome ε α) = .ok a := by simp [fail]

@[simp] theorem abort_eq_ok {m : String} {a : α} : ¬ (abort m : Outcome ε α) = .ok a := by
  simp [abort]

@[simp] theorem failIf_eq_ok {p : Prop} [Decidable p] {e : ε} {u : Unit} :
    failIf p e = .ok u ↔ ¬ p := by
  unfold failIf
  split <;> simp_all

example : (failIf (2 < 1) "out of order" : Outcome String Unit).error? = none := by
  decide +kernel

@[simp] theorem okOr_eq_ok {o : Option α} {e : ε} {a : α} : okOr o e = .ok a ↔ o = some a := by
  cases o <;> simp [okOr]

@[simp] theorem expect_eq_ok {o : Option α} {m : String} {a : α} :
    (expect o m : Outcome ε α) = .ok a ↔ o = some a := by
  cases o <;> simp [expect]

@[simp] theorem whenSome_eq_ok {o : Option α} {f : α → Outcome ε Unit} {u : Unit} :
    whenSome o f = .ok u ↔ ∀ a, o = some a → f a = .ok () := by
  cases o <;> simp [whenSome]

@[simp] theorem mapSome_none {f : α → Outcome ε β} : mapSome none f = pure none := rfl

@[simp] theorem mapSome_some {a : α} {f : α → Outcome ε β} :
    mapSome (some a) f = some <$> f a := rfl

theorem mapSome_eq_ok {o : Option α} {f : α → Outcome ε β} {b : Option β}
    (h : mapSome o f = .ok b) {a : α} (ha : o = some a) : ∃ x, b = some x ∧ f a = .ok x := by
  subst ha
  rw [mapSome_some] at h
  cases hx : f a with
  | error e =>
    rw [hx] at h
    cases h
  | ok x =>
    rw [hx] at h
    exact ⟨x, (Except.ok.inj h).symm, rfl⟩

@[simp] theorem mapErr_eq_ok {f : ε → ε'} {x : Outcome ε α} {a : α} :
    mapErr f x = .ok a ↔ x = .ok a := by
  rcases x with (e | m) | a <;> simp [mapErr]

@[simp] theorem ite_fail_eq_ok {p : Prop} [Decidable p] {e : ε} {x : Outcome ε α} {a : α} :
    (if p then fail e else x) = .ok a ↔ ¬ p ∧ x = .ok a := by
  split <;> simp_all

@[simp] theorem exists_unit {p : Unit → Prop} : (∃ u, p u) ↔ p () :=
  ⟨fun ⟨_, h⟩ => h, fun h => ⟨(), h⟩⟩

theorem value?_eq_some {x : Outcome ε α} {a : α} : x.value? = some a ↔ x = .ok a := by
  cases x <;> simp [value?]

theorem exists_err_of_isSome {x : Outcome ε α} (h : x.error?.isSome = true) :
    ∃ e, x = .error (.err e) := by
  cases x with
  | ok => simp [error?] at h
  | error fault =>
    cases fault with
    | err e => exact ⟨e, rfl⟩
    | panic => simp [error?] at h

theorem exists_ok_of_isSome {x : Outcome ε α} (h : x.value?.isSome = true) : ∃ a, x = .ok a := by
  obtain ⟨a, ha⟩ := Option.isSome_iff_exists.mp h
  exact ⟨a, value?_eq_some.mp ha⟩

theorem exists_ok_of_any {x : Outcome ε α} {p : α → Bool} (h : x.value?.any p = true) :
    ∃ a, x = .ok a ∧ p a = true := by
  obtain ⟨a, ha, hp⟩ := Option.any_eq_true _ _ |>.mp h
  exact ⟨a, value?_eq_some.mp ha, hp⟩

protected theorem bind_congr {x : Outcome ε α} {f g : α → Outcome ε β}
    (h : ∀ a, x = .ok a → f a = g a) : (x >>= f) = (x >>= g) := by
  cases x with
  | error e => rfl
  | ok a => exact h a rfl

/-! ## Errors -/

theorem bind_eq_error {x : Outcome ε α} {f : α → Outcome ε β} {e : Fault ε} :
    (x >>= f) = .error e ↔ x = .error e ∨ ∃ a, x = .ok a ∧ f a = .error e := by
  cases x <;> simp [bind, Except.bind]

theorem failIf_eq_error {p : Prop} [Decidable p] {e : ε} {e' : Fault ε} :
    failIf p e = .error e' ↔ p ∧ e' = .err e := by
  unfold failIf fail
  split <;> simp_all [eq_comm]

theorem okOr_eq_error {o : Option α} {e : ε} {e' : Fault ε} :
    okOr o e = .error e' ↔ o = none ∧ e' = .err e := by
  cases o <;> simp [okOr, fail, eq_comm]

theorem mapErr_eq_err {f : ε → ε'} {x : Outcome ε α} {e : ε'} :
    x.mapErr f = .error (.err e) ↔ ∃ e', x = .error (.err e') ∧ f e' = e := by
  rcases x with (e' | message) | a <;> simp [mapErr]

/-! ## Traversals -/

/-- Run a check on every element of a list, in order. -/
def forEach (xs : List α) (f : α → Outcome ε Unit) : Outcome ε Unit :=
  match xs with
  | [] => .ok ()
  | x :: xs => do
    f x
    forEach xs f

@[simp] theorem forEach_eq_ok {xs : List α} {f : α → Outcome ε Unit} {u : Unit} :
    forEach xs f = .ok u ↔ ∀ x ∈ xs, f x = .ok () := by
  induction xs with
  | nil => simp [forEach]
  | cons x xs ih => simp [forEach, ih]

theorem forEach_failIf {xs : List α} {p : α → Prop} [DecidablePred p] {e : ε} :
    forEach xs (fun x => failIf (p x) e) = failIf (∃ x ∈ xs, p x) e := by
  induction xs with
  | nil => simp [forEach, failIf]
  | cons x xs ih =>
    rw [forEach, ih]
    by_cases hx : p x
    · simp only [failIf, hx, if_true, List.exists_mem_cons_iff, true_or]
      rfl
    · simp only [failIf, hx, if_false, List.exists_mem_cons_iff, false_or]
      rfl

theorem mapM_eq_ok {f : α → Outcome ε β} {xs : List α} {ys : List β} :
    xs.mapM f = .ok ys ↔ List.Forall₂ (fun x y => f x = .ok y) xs ys := by
  induction xs generalizing ys with
  | nil =>
    rw [List.mapM_nil, pure_eq_ok]
    cases ys <;> simp
  | cons x xs ih =>
    rw [List.mapM_cons]
    simp only [bind_eq_ok, pure_eq_ok, ih]
    constructor
    · rintro ⟨y, hy, ys, hys, rfl⟩
      exact .cons hy hys
    · rintro (_ | ⟨hy, hys⟩)
      exact ⟨_, hy, _, hys, rfl⟩

theorem exists_left_of_mem {R : α → β → Prop} {xs : List α} {ys : List β}
    (h : List.Forall₂ R xs ys) {y : β} (hy : y ∈ ys) : ∃ x ∈ xs, R x y := by
  induction h with
  | nil => exact absurd hy List.not_mem_nil
  | @cons x y' xs ys hR _ ih =>
    rcases List.mem_cons.mp hy with rfl | hy
    · exact ⟨x, List.mem_cons_self, hR⟩
    · obtain ⟨x', hx', hR'⟩ := ih hy
      exact ⟨x', List.mem_cons_of_mem _ hx', hR'⟩

/-- Thread an accumulator through a list, stopping at the first failure. -/
def foldl (f : β → α → Outcome ε β) : β → List α → Outcome ε β
  | b, [] => .ok b
  | b, x :: xs => do
    let b' ← f b x
    foldl f b' xs

theorem foldl_append (f : β → α → Outcome ε β) (b : β) (xs ys : List α) :
    foldl f b (xs ++ ys) = foldl f b xs >>= fun b' => foldl f b' ys := by
  induction xs generalizing b with
  | nil => rfl
  | cons x xs ih =>
    simp only [List.cons_append, foldl]
    cases h : f b x with
    | error e => rfl
    | ok b' => exact ih b'

/-- **Loop rule.** What holds of the accumulator and the elements seen so far is kept by every
iteration that succeeds. -/
theorem foldl_induction {f : β → α → Outcome ε β} {I : List α → β → Prop} {b b' : β} {xs : List α}
    (h0 : I [] b) (hstep : ∀ seen c x c', (∃ rest, xs = seen ++ x :: rest) → I seen c →
      f c x = .ok c' → I (seen ++ [x]) c')
    (h : foldl f b xs = .ok b') : I xs b' := by
  suffices H : ∀ (rest seen : List α) (c : β), xs = seen ++ rest → I seen c →
      foldl f c rest = .ok b' → I xs b' from H xs [] b rfl h0 h
  intro rest
  induction rest with
  | nil =>
    intro seen c hx hI hf
    simp only [foldl, Except.ok.injEq] at hf
    subst hf
    rwa [hx, List.append_nil]
  | cons x rest ih =>
    intro seen c hx hI hf
    simp only [foldl, bind_eq_ok] at hf
    obtain ⟨c', hc, hf⟩ := hf
    exact ih (seen ++ [x]) c' (by rw [hx, List.append_assoc]; rfl)
      (hstep seen c x c' ⟨rest, hx⟩ hI hc) hf

/-- **Progress of a loop.** A loop succeeds when every iteration can, as long as the invariant
holds of the elements seen so far. -/
theorem foldl_total {f : β → α → Outcome ε β} {I : List α → β → Prop} {b : β} {xs : List α}
    (h0 : I [] b) (hstep : ∀ seen c x c', (∃ rest, xs = seen ++ x :: rest) → I seen c →
      f c x = .ok c' → I (seen ++ [x]) c')
    (hok : ∀ seen c x, (∃ rest, xs = seen ++ x :: rest) → I seen c → ∃ c', f c x = .ok c') :
    ∃ b', foldl f b xs = .ok b' := by
  suffices H : ∀ (rest seen : List α) (c : β), xs = seen ++ rest → I seen c →
      ∃ b', foldl f c rest = .ok b' from H xs [] b rfl h0
  intro rest
  induction rest with
  | nil => exact fun _ c _ _ => ⟨c, rfl⟩
  | cons x rest ih =>
    intro seen c hx hI
    obtain ⟨c', hc⟩ := hok seen c x ⟨rest, hx⟩ hI
    obtain ⟨b', hb⟩ := ih (seen ++ [x]) c' (by rw [hx, List.append_assoc]; rfl)
      (hstep seen c x c' ⟨rest, hx⟩ hI hc)
    exact ⟨b', by simp only [foldl, bind_eq_ok]; exact ⟨c', hc, hb⟩⟩

/-- **Simulation of loops.** When every iteration of one loop is matched by an iteration of another,
a successful run of the first is matched by one of the second. -/
theorem foldl_simulates {γ : Type} {f : β → α → Outcome ε β} {g : γ → α → Outcome ε' γ}
    {R : β → γ → Prop} {xs : List α}
    (hstep : ∀ x ∈ xs, ∀ b c b', R b c → f b x = .ok b' → ∃ c', g c x = .ok c' ∧ R b' c')
    {b b' : β} {c : γ} (hR : R b c) (h : foldl f b xs = .ok b') :
    ∃ c', foldl g c xs = .ok c' ∧ R b' c' := by
  induction xs generalizing b c with
  | nil =>
    obtain rfl := Except.ok.inj h
    exact ⟨c, rfl, hR⟩
  | cons x xs ih =>
    simp only [foldl, bind_eq_ok] at h
    obtain ⟨b₁, hx, hrest⟩ := h
    obtain ⟨c₁, hc, hR₁⟩ := hstep x List.mem_cons_self b c b₁ hR hx
    obtain ⟨c', hfold, hR'⟩ :=
      ih (fun y hy => hstep y (List.mem_cons_of_mem _ hy)) hR₁ hrest
    exact ⟨c', by simp only [foldl, bind_eq_ok]; exact ⟨c₁, hc, hfold⟩, hR'⟩

/-! ## Errors that cannot occur -/

/-- The computation returns no error in `bad`; it may return another one, or panic. -/
def Avoids (bad : ε → Prop) (x : Outcome ε α) : Prop := ∀ e, x = .error (.err e) → ¬ bad e

section Avoids

variable {bad : ε → Prop}

@[simp] theorem avoids_bind {x : Outcome ε α} {f : α → Outcome ε β} :
    Avoids bad (x >>= f) ↔ Avoids bad x ∧ ∀ a, x = .ok a → Avoids bad (f a) := by
  simp only [Avoids, bind_eq_error]
  constructor
  · exact fun h => ⟨fun e he => h e (Or.inl he), fun a ha e he => h e (Or.inr ⟨a, ha, he⟩)⟩
  · rintro ⟨hx, hf⟩ e (he | ⟨a, ha, he⟩)
    · exact hx e he
    · exact hf a ha e he

@[simp] theorem avoids_ok {a : α} : Avoids bad (.ok a : Outcome ε α) := by
  simp [Avoids]

@[simp] theorem avoids_pure {a : α} : Avoids bad (pure a : Outcome ε α) := avoids_ok

@[simp] theorem avoids_map {f : α → β} {x : Outcome ε α} :
    Avoids bad (f <$> x) ↔ Avoids bad x := by
  cases x <;> simp [Avoids, Functor.map, Except.map]

@[simp] theorem avoids_fail {e : ε} : Avoids bad (fail e : Outcome ε α) ↔ ¬ bad e := by
  simp [Avoids, fail]

@[simp] theorem avoids_abort {message : String} : Avoids bad (abort message : Outcome ε α) := by
  simp [Avoids, abort]

@[simp] theorem avoids_failIf {p : Prop} [Decidable p] {e : ε} :
    Avoids bad (failIf p e) ↔ (p → ¬ bad e) := by
  simp only [Avoids, failIf_eq_error, Fault.err.injEq]
  exact ⟨fun h hp => h e ⟨hp, rfl⟩, fun h e' ⟨hp, he⟩ => he ▸ h hp⟩

@[simp] theorem avoids_okOr {o : Option α} {e : ε} :
    Avoids bad (okOr o e) ↔ (o = none → ¬ bad e) := by
  simp only [Avoids, okOr_eq_error, Fault.err.injEq]
  exact ⟨fun h ho => h e ⟨ho, rfl⟩, fun h e' ⟨ho, he⟩ => he ▸ h ho⟩

@[simp] theorem avoids_expect {o : Option α} {message : String} :
    Avoids bad (expect o message : Outcome ε α) := by
  cases o <;> simp [expect]

@[simp] theorem avoids_whenSome {o : Option α} {f : α → Outcome ε Unit} :
    Avoids bad (whenSome o f) ↔ ∀ a, o = some a → Avoids bad (f a) := by
  cases o <;> simp [whenSome]

theorem avoids_mapErr {f : ε' → ε} {x : Outcome ε' α} (h : ∀ e, ¬ bad (f e)) :
    Avoids bad (x.mapErr f) := by
  intro e he
  cases x with
  | ok a => simp [mapErr] at he
  | error fault =>
    cases fault with
    | panic m => simp [mapErr] at he
    | err e' =>
      simp only [mapErr, Except.error.injEq, Fault.err.injEq] at he
      exact he ▸ h e'

theorem avoids_forEach {xs : List α} {f : α → Outcome ε Unit} (h : ∀ x, Avoids bad (f x)) :
    Avoids bad (forEach xs f) := by
  induction xs with
  | nil => exact avoids_ok
  | cons x xs ih => exact avoids_bind.mpr ⟨h x, fun _ _ => ih⟩

theorem avoids_mapM {f : α → Outcome ε β} (h : ∀ x, Avoids bad (f x)) (xs : List α) :
    Avoids bad (xs.mapM f) := by
  induction xs with
  | nil => exact avoids_ok
  | cons x xs ih =>
    rw [List.mapM_cons]
    exact avoids_bind.mpr ⟨h x, fun _ _ => avoids_bind.mpr ⟨ih, fun _ _ => avoids_pure⟩⟩

theorem avoids_foldl {f : β → α → Outcome ε β} (h : ∀ b x, Avoids bad (f b x)) (b : β)
    (xs : List α) : Avoids bad (foldl f b xs) := by
  induction xs generalizing b with
  | nil => exact avoids_ok
  | cons x xs ih => exact avoids_bind.mpr ⟨h b x, fun b' _ => ih b'⟩

end Avoids

/-! ## Panics that cannot occur -/

/-- The computation does not panic. -/
def Calm (x : Outcome ε α) : Prop := ∀ message, x ≠ .error (.panic message)

section Calm

@[simp] theorem calm_bind {x : Outcome ε α} {f : α → Outcome ε β} :
    Calm (x >>= f) ↔ Calm x ∧ ∀ a, x = .ok a → Calm (f a) := by
  simp only [Calm, ne_eq, bind_eq_error, not_or, not_exists, not_and]
  exact ⟨fun h => ⟨fun message => (h message).1, fun a ha message => (h message).2 a ha⟩,
    fun h message => ⟨h.1 message, fun a ha => h.2 a ha message⟩⟩

@[simp] theorem calm_ok {a : α} : Calm (.ok a : Outcome ε α) := by
  simp [Calm]

@[simp] theorem calm_pure {a : α} : Calm (pure a : Outcome ε α) := calm_ok

@[simp] theorem calm_map {f : α → β} {x : Outcome ε α} : Calm (f <$> x) ↔ Calm x := by
  cases x <;> simp [Calm, Functor.map, Except.map]

@[simp] theorem calm_fail {e : ε} : Calm (fail e : Outcome ε α) := by
  simp [Calm, fail]

@[simp] theorem calm_failIf {p : Prop} [Decidable p] {e : ε} : Calm (failIf p e) := by
  simp [Calm, failIf_eq_error]

@[simp] theorem calm_okOr {o : Option α} {e : ε} : Calm (okOr o e) := by
  simp [Calm, okOr_eq_error]

@[simp] theorem calm_expect {o : Option α} {message : String} :
    Calm (expect o message : Outcome ε α) ↔ o.isSome = true := by
  cases o <;> simp [Calm, expect, abort]

/-- **A loop without a panic.** No iteration panics, as long as the invariant holds of the elements
seen so far. -/
theorem calm_foldl {f : β → α → Outcome ε β} {I : List α → β → Prop} {b : β} {xs : List α}
    (h0 : I [] b) (hstep : ∀ seen c x c', (∃ rest, xs = seen ++ x :: rest) → I seen c →
      f c x = .ok c' → I (seen ++ [x]) c')
    (hcalm : ∀ seen c x, (∃ rest, xs = seen ++ x :: rest) → I seen c → Calm (f c x)) :
    Calm (foldl f b xs) := by
  suffices H : ∀ (rest seen : List α) (c : β), xs = seen ++ rest → I seen c →
      Calm (foldl f c rest) from H xs [] b rfl h0
  intro rest
  induction rest with
  | nil => exact fun _ _ _ _ => calm_ok
  | cons x rest ih =>
    intro seen c hx hI
    refine calm_bind.mpr ⟨hcalm seen c x ⟨rest, hx⟩ hI, fun c' hc => ?_⟩
    exact ih (seen ++ [x]) c' (by rw [hx, List.append_assoc]; rfl)
      (hstep seen c x c' ⟨rest, hx⟩ hI hc)

theorem calm_forEach {xs : List α} {f : α → Outcome ε Unit} (h : ∀ x ∈ xs, Calm (f x)) :
    Calm (forEach xs f) := by
  induction xs with
  | nil => exact calm_ok
  | cons x xs ih =>
    exact calm_bind.mpr
      ⟨h x List.mem_cons_self, fun _ _ => ih fun y hy => h y (List.mem_cons_of_mem _ hy)⟩

end Calm

end Outcome
