import Xgeny.Lib.Process

set_option autoImplicit false

/-!
# Programs under a monitor

A monitor computes a ghost state from the operations and their answers. `Ensures` says that every
operation is allowed by the ghost state at that moment and what holds of the ghost state and the
value when the program returns; a program that stops early ensures nothing more.

* `ensures_ret`, `ensures_call`, **`ensures_bind`**: the rules along a program;
* `Ensures.mono`, `Ensures.and_then`: consequence, and a sequence from the rule of its first part;
* **`Ensures.allowed_own`**: every operation of an execution was allowed by the ghost state before it.
-/

namespace Prog

variable {Op : Type} {Res : Op → Type} {ε α β σ : Type}

/-- Every operation is allowed, and `post` holds when the program returns. -/
def Ensures (allowed : σ → Op → Prop) (next : σ → (op : Op) → Res op → σ) (p : Prog Op Res ε α)
    (s : σ) (post : σ → α → Prop) : Prop :=
  p.Sat allowed next s fun s outcome => ∀ a, outcome = .ok a → post s a

variable {allowed : σ → Op → Prop} {next : σ → (op : Op) → Res op → σ} {s : σ} {post : σ → α → Prop}

@[simp] theorem ensures_ret {a : α} :
    Ensures allowed next (ret a : Prog Op Res ε α) s post ↔ post s a := by
  constructor
  · exact fun h => h a rfl
  · intro h b hb
    rwa [← Except.ok.inj hb]

@[simp] theorem ensures_pure {a : α} :
    Ensures allowed next (pure a : Prog Op Res ε α) s post ↔ post s a := ensures_ret

@[simp] theorem ensures_stop {fault : Fault ε} :
    Ensures allowed next (stop fault : Prog Op Res ε α) s post := by
  intro a ha
  cases ha

@[simp] theorem ensures_call {op : Op} {k : Res op → Prog Op Res ε α} :
    Ensures allowed next (call op k) s post ↔
      allowed s op ∧ ∀ answer, Ensures allowed next (k answer) (next s op answer) post := Iff.rfl

/-- **Sequencing.** -/
@[simp] theorem ensures_bind {p : Prog Op Res ε β} {f : β → Prog Op Res ε α} :
    Ensures allowed next (p >>= f) s post ↔
      Ensures allowed next p s fun s b => Ensures allowed next (f b) s post := by
  unfold Ensures
  rw [sat_bind]
  constructor
  · intro h
    refine h.mono fun s outcome hout b hb => ?_
    rw [hb] at hout
    exact hout
  · intro h
    refine h.mono fun s outcome hout => ?_
    cases outcome with
    | ok b => exact hout b rfl
    | error fault =>
      intro a ha
      cases ha

@[simp] theorem ensures_lift {x : Outcome ε α} :
    Ensures allowed next (lift x : Prog Op Res ε α) s post ↔ ∀ a, x = .ok a → post s a := by
  unfold Ensures
  rw [sat_lift]

/-- **Consequence.** -/
theorem Ensures.mono {p : Prog Op Res ε α} {post' : σ → α → Prop}
    (h : Ensures allowed next p s post) (himp : ∀ s a, post s a → post' s a) :
    Ensures allowed next p s post' :=
  Sat.mono h fun s _ hpost a ha => himp s a (hpost a ha)

theorem Ensures.and_then {p : Prog Op Res ε β} {f : β → Prog Op Res ε α} {mid : σ → β → Prop}
    (h : Ensures allowed next p s mid)
    (hf : ∀ s b, mid s b → Ensures allowed next (f b) s post) :
    Ensures allowed next (p >>= f) s post :=
  ensures_bind.mpr (h.mono hf)

/-- **Every operation of an execution was allowed** by the ghost state of the own moves before it. -/
theorem Ensures.allowed_own {World Label : Type} {S : System Op Res World Label}
    {p : Prog Op Res ε α} {w w' : World} {history : List (Happening Op Res Label)}
    {outcome : Option (Outcome ε α)} (hexec : Exec S p w history w' outcome)
    (h : Ensures allowed next p s post) {before after : List (Move Op Res)} {move : Move Op Res}
    (hsplit : Happening.own history = before ++ move :: after) :
    allowed (Move.ghost next s before) move.1 := by
  obtain ⟨earlier, later, hhistory, rfl, _⟩ := Happening.own_split hsplit
  exact (hexec.ghost h).1 earlier move.1 move.2 later hhistory

end Prog
