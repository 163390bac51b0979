import Xgeny.Lib.Process

set_option autoImplicit false

/-!
# Programs alone with their system

A program that nobody disturbs runs from one world to another. `Ends` is what every complete run
leads to, along the answers that the system can give.

* `Prog.Ends S p w post`: every complete run of `p` from `w` ends as `post` says;
* `ends_ret`, `ends_call`, **`ends_bind`**, `ends_lift`: the rules along a program;
* `Ends.mono`, `Ends.and_then`: consequence, and a sequence from the rule of its first part;
* **`Ends.exec`**: what it says of the executions;
* `bind_exec_ok`, `bind_exec_error`, `lift_bind_exec`, `lift_stop_exec`: executions of sequences.
-/

namespace Prog

variable {Op : Type} {Res : Op → Type} {World Label ε α β : Type}

/-- Every complete run from the world ends as `post` says. -/
def Ends (S : System Op Res World Label) :
    Prog Op Res ε α → World → (World → Outcome ε α → Prop) → Prop
  | ret a, w, post => post w (.ok a)
  | stop fault, w, post => post w (.error fault)
  | call op k, w, post => ∀ answer w', S.step w op answer w' → Ends S (k answer) w' post

variable {S : System Op Res World Label} {w w' : World} {post post' : World → Outcome ε α → Prop}
  {p : Prog Op Res ε α}

@[simp] theorem ends_ret {a : α} :
    Ends S (ret a : Prog Op Res ε α) w post ↔ post w (.ok a) := Iff.rfl

@[simp] theorem ends_pure {a : α} :
    Ends S (pure a : Prog Op Res ε α) w post ↔ post w (.ok a) := Iff.rfl

@[simp] theorem ends_stop {fault : Fault ε} :
    Ends S (stop fault : Prog Op Res ε α) w post ↔ post w (.error fault) := Iff.rfl

@[simp] theorem ends_call {op : Op} {k : Res op → Prog Op Res ε α} :
    Ends S (call op k) w post ↔ ∀ answer w', S.step w op answer w' → Ends S (k answer) w' post :=
  Iff.rfl

theorem ends_lift {x : Outcome ε α} :
    Ends S (lift x : Prog Op Res ε α) w post ↔ post w x := by
  cases x <;> exact Iff.rfl

/-- **Consequence.** -/
theorem Ends.mono (h : Ends S p w post) (himp : ∀ w outcome, post w outcome → post' w outcome) :
    Ends S p w post' := by
  induction p generalizing w with
  | ret | stop => exact himp _ _ h
  | call op k ih => exact fun answer w' hstep => ih answer (h answer w' hstep)

/-- What a sequence leads to after its first part. -/
def Continues (S : System Op Res World Label) (f : β → Prog Op Res ε α)
    (post : World → Outcome ε α → Prop) (w : World) : Outcome ε β → Prop
  | .ok b => Ends S (f b) w post
  | .error fault => post w (.error fault)

/-- **Sequencing.** -/
theorem ends_bind {q : Prog Op Res ε β} {f : β → Prog Op Res ε α} :
    Ends S (q >>= f) w post ↔ Ends S q w (Continues S f post) := by
  show Ends S (q.bind f) w post ↔ _
  induction q generalizing w with
  | ret | stop => exact Iff.rfl
  | call op k ih => exact forall_congr' fun answer => forall_congr' fun w' =>
      imp_congr_right fun _ => ih answer

theorem ends_lift_bind {x : Outcome ε β} {f : β → Prog Op Res ε α}
    (hok : ∀ b, x = .ok b → Ends S (f b) w post)
    (herror : ∀ fault, x = .error fault → post w (.error fault)) : Ends S (lift x >>= f) w post := by
  rw [ends_bind, ends_lift]
  cases x with
  | ok b => exact hok b rfl
  | error fault => exact herror fault rfl

/-- **What the executions lead to.** -/
theorem Ends.exec {history : List (Happening Op Res Label)} {outcome : Outcome ε α}
    (h : Ends S p w post) (hexec : Exec S.alone p w history w' (some outcome)) : post w' outcome := by
  induction p generalizing w history with
  | ret a =>
    obtain ⟨-, rfl, rfl⟩ := Exec.complete_lift (x := .ok a) hexec
    exact h
  | stop fault =>
    obtain ⟨-, rfl, rfl⟩ := Exec.complete_lift (x := .error fault) hexec
    exact h
  | call op k ih =>
    obtain ⟨answer, m, after, -, hstep, hrest⟩ := Exec.complete_call hexec
    exact ih answer (h answer m hstep) hrest

theorem bind_exec_ok {p : Prog Op Res ε β} {m : World} {before after : List (Happening Op Res Label)}
    {b : β} {f : β → Prog Op Res ε α} {result : Option (Outcome ε α)}
    (hfirst : Exec S p w before m (some (.ok b))) (hrest : Exec S (f b) m after w' result) :
    Exec S (p >>= f) w (before ++ after) w' result := by
  generalize hresult : some (Except.ok b) = first at hfirst
  induction hfirst with
  | ret =>
    cases hresult
    exact hrest
  | stop | died => cases hresult
  | call hstep _ ih => exact .call hstep (ih hrest hresult)
  | other hother _ ih => exact .other hother (ih hrest hresult)

theorem bind_exec_error {p : Prog Op Res ε β} {history : List (Happening Op Res Label)}
    {fault : Fault ε} {f : β → Prog Op Res ε α}
    (hfirst : Exec S p w history w' (some (.error fault))) :
    Exec S (p >>= f) w history w' (some (.error fault)) := by
  generalize hresult : some (Except.error fault) = first at hfirst
  induction hfirst with
  | stop =>
    cases hresult
    exact .stop
  | ret | died => cases hresult
  | call hstep _ ih => exact .call hstep (ih hresult)
  | other hother _ ih => exact .other hother (ih hresult)

theorem lift_bind_exec {history : List (Happening Op Res Label)} {result : Option (Outcome ε α)}
    {x : Outcome ε β} {b : β} {f : β → Prog Op Res ε α} (hx : x = .ok b)
    (hexec : Exec S (f b) w history w' result) : Exec S (lift x >>= f) w history w' result := by
  rw [hx]
  exact hexec

theorem lift_stop_exec {x : Outcome ε β} {fault : Fault ε} {f : β → Prog Op Res ε α}
    (hx : x = .error fault) : Exec S (lift x >>= f) w [] w (some (.error fault)) := by
  rw [hx]
  exact .stop

end Prog
