import Xgeny.Lib.Outcome

set_option autoImplicit false

/-!
# Programs that call operations

A routine that talks to the outside world is a `Prog`: it returns, it stops with a fault, or it
calls an operation and goes on with the answer. The operations are data, so that what a routine asks
for, and in which order, can be spoken about without running it.

* `Prog`, its monad, `perform`, `lift`, `mapErr` and `attempt`, which returns an error as a value;
* `Sat allowed next p s post`: whatever the answers are, every operation that `p` calls is allowed by
  the ghost state at that moment, and `post` holds at the end. The simp set `sat_*` computes it along
  the program;
* `Only good p Q`: every operation that `p` can call is good, and what it returns satisfies `Q`;
* `System`: a world, what an operation may answer and do to it, and what others may do to it;
* `Trace`: the worlds along a history; `System.alone`, `Happening.Quiet`: nobody else moves;
* `Exec`: the executions of a program, in which others move at any moment and which may be cut short
  at any moment; **`Exec.follows`**: the moves of every execution are those that `Sat` allows;
* `Move.ghost`, **`Exec.ghost`**, **`Trace.ghost_invariant`**: executions along a ghost state that is
  computed from the own moves;
* `Exec.call_inv`: one call at a time; `Exec.complete_bind`: the parts of a complete execution in which
  nobody else moves;
* `Prog.First`, **`Exec.first`**: the program that is left after the first operation of a kind;
* `Session`: programs executed one after the other;
* `Rounds`: programs executed one after the other, each with its own system; **`Rounds.invariant`**,
  **`Rounds.moment`**: what every round keeps holds at every moment;
* `Prog.run`: a program run with a host that answers, among others; **`Prog.exec_run`**: that is an
  execution.
-/

/-- A program over the operations `Op`, where `op` is answered by a value of `Res op`. -/
inductive Prog (Op : Type) (Res : Op → Type) (ε α : Type) where
  | ret (a : α)
  | stop (fault : Fault ε)
  | call (op : Op) (k : Res op → Prog Op Res ε α)

namespace Prog

variable {Op : Type} {Res : Op → Type} {ε ε' α β : Type}

/-- Run `p`, then `f` on its result. -/
def bind : Prog Op Res ε α → (α → Prog Op Res ε β) → Prog Op Res ε β
  | ret a, f => f a
  | stop fault, _ => stop fault
  | call op k, f => call op fun answer => bind (k answer) f

instance : Monad (Prog Op Res ε) where
  pure := ret
  bind := bind

theorem bind_assoc {γ : Type} (p : Prog Op Res ε α) (f : α → Prog Op Res ε β)
    (g : β → Prog Op Res ε γ) : p >>= f >>= g = p >>= fun a => f a >>= g := by
  show (p.bind f).bind g = p.bind fun a => (f a).bind g
  induction p with
  | ret | stop => rfl
  | call op k ih =>
    simp only [bind]
    congr 1
    funext answer
    exact ih answer

/-- Call one operation. -/
def perform (op : Op) : Prog Op Res ε (Res op) := call op ret

/-- A computation that calls nothing. -/
def lift : Outcome ε α → Prog Op Res ε α
  | .ok a => ret a
  | .error fault => stop fault

/-- Change the error, keeping values and panics. -/
def mapErr (f : ε → ε') : Prog Op Res ε α → Prog Op Res ε' α
  | ret a => ret a
  | stop (.err e) => stop (.err (f e))
  | stop (.panic message) => stop (.panic message)
  | call op k => call op fun answer => mapErr f (k answer)

/-- Return an error as a value; a panic still stops. -/
def attempt : Prog Op Res ε α → Prog Op Res ε' (Except ε α)
  | ret a => ret (.ok a)
  | stop (.err e) => ret (.error e)
  | stop (.panic message) => stop (.panic message)
  | call op k => call op fun answer => attempt (k answer)

/-! ## What a program may call -/

section Sat

variable {σ : Type} (allowed : σ → Op → Prop) (next : σ → (op : Op) → Res op → σ)

/-- Every operation is allowed in the ghost state at that moment, whatever the answers are, and
`post` holds of the ghost state and the outcome at the end. -/
def Sat : Prog Op Res ε α → σ → (σ → Outcome ε α → Prop) → Prop
  | ret a, s, post => post s (.ok a)
  | stop fault, s, post => post s (.error fault)
  | call op k, s, post => allowed s op ∧ ∀ answer, Sat (k answer) (next s op answer) post

variable {allowed next} {s : σ}

@[simp] theorem sat_pure {a : α} {post : σ → Outcome ε α → Prop} :
    Sat allowed next (pure a : Prog Op Res ε α) s post ↔ post s (.ok a) := Iff.rfl

/-- **Sequencing.** -/
@[simp] theorem sat_bind {p : Prog Op Res ε α} {f : α → Prog Op Res ε β}
    {post : σ → Outcome ε β → Prop} :
    Sat allowed next (p >>= f) s post ↔ Sat allowed next p s fun s outcome =>
      match outcome with
      | .ok a => Sat allowed next (f a) s post
      | .error fault => post s (.error fault) := by
  show Sat allowed next (p.bind f) s post ↔ _
  induction p generalizing s with
  | ret | stop => rfl
  | call op k ih =>
    simp only [bind, Sat]
    exact and_congr_right fun _ => forall_congr' fun answer => ih answer

@[simp] theorem sat_perform {op : Op} {post : σ → Outcome ε (Res op) → Prop} :
    Sat allowed next (perform op : Prog Op Res ε (Res op)) s post ↔
      allowed s op ∧ ∀ answer, post (next s op answer) (.ok answer) := Iff.rfl

@[simp] theorem sat_lift {x : Outcome ε α} {post : σ → Outcome ε α → Prop} :
    Sat allowed next (lift x : Prog Op Res ε α) s post ↔ post s x := by
  cases x <;> rfl

@[simp] theorem sat_attempt {p : Prog Op Res ε α} {post : σ → Outcome ε' (Except ε α) → Prop} :
    Sat allowed next p.attempt s post ↔ Sat allowed next p s fun s outcome =>
      match outcome with
      | .ok a => post s (.ok (.ok a))
      | .error (.err e) => post s (.ok (.error e))
      | .error (.panic message) => post s (.error (.panic message)) := by
  induction p generalizing s with
  | ret => rfl
  | stop fault => cases fault <;> rfl
  | call op k ih =>
    simp only [attempt, Sat]
    exact and_congr_right fun _ => forall_congr' fun answer => ih answer

@[simp] theorem sat_mapErr {f : ε → ε'} {p : Prog Op Res ε α} {post : σ → Outcome ε' α → Prop} :
    Sat allowed next (p.mapErr f) s post ↔
      Sat allowed next p s fun s outcome => post s (outcome.mapErr f) := by
  induction p generalizing s with
  | ret => rfl
  | stop fault => cases fault <;> rfl
  | call op k ih =>
    simp only [mapErr, Sat]
    exact and_congr_right fun _ => forall_congr' fun answer => ih answer

theorem sat_call {op : Op} {f : Res op → Prog Op Res ε α} {post : σ → Outcome ε α → Prop}
    (hop : allowed s op) (h : ∀ answer, Sat allowed next (f answer) (next s op answer) post) :
    Sat allowed next (perform op >>= f) s post := by
  rw [sat_bind]
  exact ⟨hop, h⟩

theorem sat_failIf {c : Prop} [Decidable c] {e : ε} {p : Prog Op Res ε α}
    {post : σ → Outcome ε α → Prop} (hfail : c → post s (Outcome.fail e))
    (hpass : ¬ c → Sat allowed next p s post) :
    Sat allowed next (lift (Outcome.failIf c e) >>= fun _ => p) s post := by
  rw [sat_bind, sat_lift, Outcome.failIf]
  by_cases h : c
  · rw [if_pos h]
    exact hfail h
  · rw [if_neg h]
    exact hpass h

/-- **Consequence.** -/
theorem Sat.mono {p : Prog Op Res ε α} {post post' : σ → Outcome ε α → Prop}
    (h : Sat allowed next p s post) (himp : ∀ s outcome, post s outcome → post' s outcome) :
    Sat allowed next p s post' := by
  induction p generalizing s with
  | ret | stop => exact himp _ _ h
  | call op k ih => exact ⟨h.1, fun answer => ih answer (h.2 answer)⟩

end Sat

/-! ## Programs that call only some operations -/

section Only

variable {good : Op → Prop} {Q : α → Prop}

/-- Every operation that the program can call is good, and what it returns satisfies `Q`. -/
def Only (good : Op → Prop) : Prog Op Res ε α → (α → Prop) → Prop
  | ret a, Q => Q a
  | stop _, _ => True
  | call op k, Q => good op ∧ ∀ answer, Only good (k answer) Q

@[simp] theorem only_ret {a : α} : Only good (ret a : Prog Op Res ε α) Q ↔ Q a := Iff.rfl

@[simp] theorem only_pure {a : α} : Only good (pure a : Prog Op Res ε α) Q ↔ Q a := Iff.rfl

@[simp] theorem only_stop {fault : Fault ε} : Only good (stop fault : Prog Op Res ε α) Q := trivial

@[simp] theorem only_lift {x : Outcome ε α} :
    Only good (lift x : Prog Op Res ε α) Q ↔ ∀ a, x = .ok a → Q a := by
  cases x <;> simp [lift]

@[simp] theorem only_bind {p : Prog Op Res ε α} {f : α → Prog Op Res ε β} {Q : β → Prop} :
    Only good (p >>= f) Q ↔ Only good p fun a => Only good (f a) Q := by
  show Only good (p.bind f) Q ↔ _
  induction p with
  | ret | stop => rfl
  | call op k ih => exact and_congr_right fun _ => forall_congr' ih

@[simp] theorem only_mapErr {f : ε → ε'} {p : Prog Op Res ε α} :
    Only good (p.mapErr f) Q ↔ Only good p Q := by
  induction p with
  | ret => rfl
  | stop fault => cases fault <;> rfl
  | call op k ih => exact and_congr_right fun _ => forall_congr' ih

theorem Only.mono {p : Prog Op Res ε α} {Q' : α → Prop} (h : Only good p Q)
    (himp : ∀ a, Q a → Q' a) : Only good p Q' := by
  induction p with
  | ret a => exact himp a h
  | stop => trivial
  | call op k ih => exact ⟨h.1, fun answer => ih answer (h.2 answer)⟩

theorem Only.weaken {p : Prog Op Res ε α} {good' : Op → Prop} (h : Only good p Q)
    (himp : ∀ op, good op → good' op) : Only good' p Q := by
  induction p with
  | ret a => exact h
  | stop => trivial
  | call op k ih => exact ⟨himp op h.1, fun answer => ih answer (h.2 answer)⟩

theorem Only.attempt {p : Prog Op Res ε α} {Q : Except ε α → Prop}
    (h : Only good p fun a => Q (.ok a)) (herror : ∀ e, Q (.error e)) :
    Only good (p.attempt : Prog Op Res ε' (Except ε α)) Q := by
  induction p with
  | ret a => exact h
  | stop fault =>
    cases fault with
    | err e => exact herror e
    | panic message => trivial
  | call op k ih => exact ⟨h.1, fun answer => ih answer (h.2 answer)⟩

theorem Only.sat {σ : Type} {allowed : σ → Op → Prop} {next : σ → (op : Op) → Res op → σ}
    {p : Prog Op Res ε α} {s : σ} (h : Only good p Q) (hallowed : ∀ s op, good op → allowed s op) :
    Sat allowed next p s fun _ _ => True := by
  induction p generalizing s with
  | ret | stop => trivial
  | call op k ih => exact ⟨hallowed s op h.1, fun answer => ih answer (h.2 answer)⟩

end Only

end Prog

/-! ## Executions -/

/-- A world, the answers of the operations with what they do to it, and the moves of others, each
with a label. -/
structure System (Op : Type) (Res : Op → Type) (World Label : Type) where
  step : World → (op : Op) → Res op → World → Prop
  other : World → Label → World → Prop

/-- One entry of a history. -/
inductive Happening (Op : Type) (Res : Op → Type) (Label : Type) where
  | did (op : Op) (answer : Res op)
  | other (label : Label)

section Exec

variable {Op : Type} {Res : Op → Type} {World Label ε α : Type}

/-- An execution of a program, with its history, the world it leaves and its outcome; there is no
outcome when it was cut short. -/
inductive Exec (S : System Op Res World Label) :
    Prog Op Res ε α → World → List (Happening Op Res Label) → World → Option (Outcome ε α) → Prop
  | ret {a : α} {w : World} : Exec S (.ret a) w [] w (some (.ok a))
  | stop {fault : Fault ε} {w : World} : Exec S (.stop fault) w [] w (some (.error fault))
  | died {p : Prog Op Res ε α} {w : World} : Exec S p w [] w none
  | other {p : Prog Op Res ε α} {w w' w'' : World} {label : Label}
      {history : List (Happening Op Res Label)} {outcome : Option (Outcome ε α)}
      (hother : S.other w label w') (hrest : Exec S p w' history w'' outcome) :
      Exec S p w (.other label :: history) w'' outcome
  | call {op : Op} {k : Res op → Prog Op Res ε α} {answer : Res op} {w w' w'' : World}
      {history : List (Happening Op Res Label)} {outcome : Option (Outcome ε α)}
      (hstep : S.step w op answer w') (hrest : Exec S (k answer) w' history w'' outcome) :
      Exec S (.call op k) w (.did op answer :: history) w'' outcome

/-- The worlds along a history. -/
inductive Trace (S : System Op Res World Label) :
    World → List (Happening Op Res Label) → World → Prop
  | nil {w : World} : Trace S w [] w
  | did {op : Op} {answer : Res op} {w w' w'' : World} {history : List (Happening Op Res Label)}
      (hstep : S.step w op answer w') (hrest : Trace S w' history w'') :
      Trace S w (.did op answer :: history) w''
  | other {label : Label} {w w' w'' : World} {history : List (Happening Op Res Label)}
      (hother : S.other w label w') (hrest : Trace S w' history w'') :
      Trace S w (.other label :: history) w''

variable {S : System Op Res World Label} {w w' : World}
  {h h' history : List (Happening Op Res Label)}

theorem Exec.trace {p : Prog Op Res ε α} {outcome : Option (Outcome ε α)}
    (h : Exec S p w history w' outcome) : Trace S w history w' := by
  induction h with
  | ret | stop | died => exact .nil
  | other hother _ ih => exact .other hother ih
  | call hstep _ ih => exact .did hstep ih

theorem Trace.append_iff : Trace S w (h ++ h') w' ↔ ∃ m, Trace S w h m ∧ Trace S m h' w' := by
  induction h generalizing w with
  | nil =>
    constructor
    · exact fun ht => ⟨w, .nil, ht⟩
    · rintro ⟨m, hnil, ht⟩
      cases hnil
      exact ht
  | cons first rest ih =>
    constructor
    · intro ht
      cases ht with
      | did hstep hrest =>
        obtain ⟨m, hleft, hright⟩ := ih.mp hrest
        exact ⟨m, .did hstep hleft, hright⟩
      | other hother hrest =>
        obtain ⟨m, hleft, hright⟩ := ih.mp hrest
        exact ⟨m, .other hother hleft, hright⟩
    · rintro ⟨m, hleft, hright⟩
      cases hleft with
      | did hstep hrest => exact .did hstep (ih.mpr ⟨m, hrest, hright⟩)
      | other hother hrest => exact .other hother (ih.mpr ⟨m, hrest, hright⟩)

theorem Trace.split_did {op : Op} {answer : Res op}
    (ht : Trace S w (h ++ .did op answer :: h') w') :
    ∃ m m', Trace S w h m ∧ S.step m op answer m' ∧ Trace S m' h' w' := by
  obtain ⟨m, hleft, hright⟩ := Trace.append_iff.mp ht
  cases hright with
  | did hstep hrest => exact ⟨m, _, hleft, hstep, hrest⟩

/-- The system without others. -/
def System.alone (S : System Op Res World Label) : System Op Res World Label where
  step := S.step
  other _ _ _ := False

/-- Nobody else moved. -/
def Happening.Quiet (history : List (Happening Op Res Label)) : Prop :=
  ∀ label, .other label ∉ history

theorem Trace.alone (ht : Trace S w history w') (hquiet : Happening.Quiet history) :
    Trace S.alone w history w' := by
  induction ht with
  | nil => exact .nil
  | did hstep _ ih => exact .did hstep (ih fun label h => hquiet label (List.mem_cons_of_mem _ h))
  | @other label _ _ _ _ _ _ _ => exact absurd List.mem_cons_self (hquiet label)

theorem Trace.quiet (ht : Trace S.alone w history w') : Happening.Quiet history := by
  induction ht with
  | nil => exact fun _ h => absurd h List.not_mem_nil
  | did _ _ ih =>
    intro label h
    rcases List.mem_cons.mp h with hhead | htail
    · cases hhead
    · exact ih label htail
  | other hother => exact hother.elim

theorem Trace.mono {S' : System Op Res World Label} (ht : Trace S w history w')
    (hstep : ∀ w op answer w', S.step w op answer w' → S'.step w op answer w')
    (hother : ∀ w label w', S.other w label w' → S'.other w label w') : Trace S' w history w' := by
  induction ht with
  | nil => exact .nil
  | did h _ ih => exact .did (hstep _ _ _ _ h) ih
  | other h _ ih => exact .other (hother _ _ _ h) ih

/-- **Invariant rule.** What every own move and every move of others keeps holds along a history. -/
theorem Trace.invariant {I : World → Prop} (ht : Trace S w history w') (h0 : I w)
    (hstep : ∀ w op answer w', I w → S.step w op answer w' → I w')
    (hother : ∀ w label w', I w → S.other w label w' → I w') : I w' := by
  induction ht with
  | nil => exact h0
  | did h _ ih => exact ih (hstep _ _ _ _ h0 h)
  | other h _ ih => exact ih (hother _ _ _ h0 h)

end Exec

/-! ## Own moves -/

section Own

variable {Op : Type} {Res : Op → Type} {World Label ε α : Type}

/-- An operation with its answer. -/
abbrev Move (Op : Type) (Res : Op → Type) := (op : Op) × Res op

/-- The ghost state that remembers all own moves. -/
abbrev Move.push (moves : List (Move Op Res)) (op : Op) (answer : Res op) : List (Move Op Res) :=
  moves ++ [⟨op, answer⟩]

theorem Move.head?_push {moves : List (Move Op Res)} {op : Op} {answer : Res op} {m : Move Op Res}
    (h : moves.head? = some m) : (Move.push moves op answer).head? = some m := by
  rw [List.head?_append, h]
  rfl

theorem Move.forall_push {moves : List (Move Op Res)} {op : Op} {answer : Res op}
    {I : Move Op Res → Prop} (h : ∀ m ∈ moves, I m) (hnew : I ⟨op, answer⟩) :
    ∀ m ∈ Move.push moves op answer, I m := by
  intro m hm
  rcases List.mem_append.mp hm with hm | hm
  · exact h m hm
  · rwa [List.mem_singleton.mp hm]

/-- The own move of an entry. -/
def Happening.move? : Happening Op Res Label → Option (Move Op Res)
  | .did op answer => some ⟨op, answer⟩
  | .other _ => none

/-- The own moves of a history. -/
def Happening.own (history : List (Happening Op Res Label)) : List (Move Op Res) :=
  history.filterMap Happening.move?

@[simp] theorem Happening.own_nil : own ([] : List (Happening Op Res Label)) = [] := rfl

@[simp] theorem Happening.own_did {op : Op} {answer : Res op}
    {history : List (Happening Op Res Label)} :
    own (.did op answer :: history) = ⟨op, answer⟩ :: own history := rfl

@[simp] theorem Happening.own_other {label : Label} {history : List (Happening Op Res Label)} :
    own (.other label :: history) = own history := rfl

@[simp] theorem Happening.own_append {h h' : List (Happening Op Res Label)} :
    own (h ++ h') = own h ++ own h' := List.filterMap_append

theorem Happening.own_split {history : List (Happening Op Res Label)} {before after : List (Move Op Res)}
    {move : Move Op Res} (h : own history = before ++ move :: after) :
    ∃ earlier later, history = earlier ++ .did move.1 move.2 :: later ∧ own earlier = before ∧
      own later = after := by
  obtain ⟨earlier, rest, rfl, hbefore, hrest⟩ := List.filterMap_eq_append_iff.mp h
  obtain ⟨others, entry, later, rfl, hothers, hentry, hlater⟩ := List.filterMap_eq_cons_iff.mp hrest
  have hnone : own others = [] := List.filterMap_eq_nil_iff.mpr hothers
  cases entry with
  | other label => simp [move?] at hentry
  | did op answer =>
    obtain rfl := Option.some.inj hentry
    exact ⟨earlier ++ others, later, by simp, by rw [own_append, hnone, List.append_nil]; exact hbefore,
      hlater⟩

/-- Every operation that `p` calls is allowed by its own moves so far, and `post` holds of all its
moves and its outcome. -/
abbrev Prog.Follows (allowed : List (Move Op Res) → Op → Prop) (p : Prog Op Res ε α)
    (post : List (Move Op Res) → Outcome ε α → Prop) : Prop :=
  p.Sat allowed Move.push [] post

theorem Prog.Sat.after {allowed allowed' : List (Move Op Res) → Op → Prop} {p : Prog Op Res ε α}
    {moves : List (Move Op Res)} {post : List (Move Op Res) → Outcome ε α → Prop}
    (h : p.Sat allowed Move.push moves post) {earlier : List (Move Op Res)}
    (himp : ∀ moves op, allowed moves op → allowed' (earlier ++ moves) op) :
    p.Sat allowed' Move.push (earlier ++ moves) fun all outcome =>
      ∃ moves, all = earlier ++ moves ∧ post moves outcome := by
  induction p generalizing moves with
  | ret | stop => exact ⟨moves, rfl, h⟩
  | call op k ih =>
    refine ⟨himp _ _ h.1, fun answer => ?_⟩
    rw [Move.push, List.append_assoc]
    exact ih answer (h.2 answer)

theorem Prog.Only.after {good : Op → Prop} {Q : α → Prop} {allowed : List (Move Op Res) → Op → Prop}
    {p : Prog Op Res ε α} {moves : List (Move Op Res)} (h : p.Only good Q)
    (hallowed : ∀ now op, good op → allowed (moves ++ now) op) :
    p.Sat allowed Move.push moves fun all outcome =>
      moves <+: all ∧ ∀ a, outcome = .ok a → Q a := by
  induction p generalizing moves with
  | ret a => exact ⟨List.prefix_rfl, fun b hb => Except.ok.inj hb ▸ h⟩
  | stop fault =>
    refine ⟨List.prefix_rfl, fun b hb => ?_⟩
    cases hb
  | call op k ih =>
    refine ⟨by simpa using hallowed [] op h.1, fun answer => ?_⟩
    refine (ih answer (h.2 answer) fun now op' hop => ?_).mono fun all outcome hend => ?_
    · rw [Move.push, List.append_assoc]
      exact hallowed _ op' hop
    · exact ⟨(List.prefix_append _ _).trans hend.1, hend.2⟩

/-- **An execution does what its program may do**: every operation was allowed by the own moves before
it, and the outcome is one that the program can have. -/
theorem Exec.follows {S : System Op Res World Label} {allowed : List (Move Op Res) → Op → Prop}
    {p : Prog Op Res ε α} {w w' : World} {history : List (Happening Op Res Label)}
    {outcome : Option (Outcome ε α)} {post : List (Move Op Res) → Outcome ε α → Prop}
    (h : Exec S p w history w' outcome) {moves : List (Move Op Res)}
    (hsat : p.Sat allowed Move.push moves post) :
    (∀ before op answer later, history = before ++ .did op answer :: later →
      allowed (moves ++ Happening.own before) op) ∧
      ∀ result, outcome = some result → post (moves ++ Happening.own history) result := by
  induction h generalizing moves with
  | ret | stop =>
    refine ⟨fun before op answer later hsplit => by simp at hsplit, fun result hresult => ?_⟩
    rw [← Option.some.inj hresult, Happening.own_nil, List.append_nil]
    exact hsat
  | died =>
    exact ⟨fun before op answer later hsplit => by simp at hsplit,
      fun result hresult => by simp at hresult⟩
  | other _ _ ih =>
    obtain ⟨hallowed, hpost⟩ := ih hsat
    refine ⟨fun before op answer later hsplit => ?_, hpost⟩
    cases before with
    | nil => simp at hsplit
    | cons first before =>
      obtain ⟨rfl, htail⟩ := List.cons.inj hsplit
      exact hallowed before op answer later htail
  | @call op k answer _ _ _ _ _ _ _ ih =>
    obtain ⟨hallowed, hpost⟩ := ih (hsat.2 answer)
    refine ⟨fun before op' answer' later hsplit => ?_, fun result hresult => ?_⟩
    · cases before with
      | nil =>
        simp only [List.nil_append, List.cons.injEq, Happening.did.injEq] at hsplit
        obtain ⟨⟨rfl, _⟩, _⟩ := hsplit
        rw [Happening.own_nil, List.append_nil]
        exact hsat.1
      | cons first before =>
        obtain ⟨rfl, htail⟩ := List.cons.inj hsplit
        have hnext := hallowed before op' answer' later htail
        rwa [List.append_assoc] at hnext
    · have hend := hpost result hresult
      rwa [List.append_assoc] at hend

/-- **Every own move was allowed by the own moves before it.** -/
theorem Exec.follows_own {S : System Op Res World Label} {allowed : List (Move Op Res) → Op → Prop}
    {p : Prog Op Res ε α} {w w' : World} {history : List (Happening Op Res Label)}
    {outcome : Option (Outcome ε α)} {post : List (Move Op Res) → Outcome ε α → Prop}
    (h : Exec S p w history w' outcome) (hsat : p.Follows allowed post)
    {before after : List (Move Op Res)} {move : Move Op Res}
    (hsplit : Happening.own history = before ++ move :: after) : allowed before move.1 := by
  obtain ⟨earlier, later, hhistory, rfl, _⟩ := Happening.own_split hsplit
  have hallowed := (h.follows hsat).1 earlier move.1 move.2 later hhistory
  rwa [List.nil_append] at hallowed

/-! ### Ghost states -/

section Ghost

variable {σ : Type} {next : σ → (op : Op) → Res op → σ} {allowed : σ → Op → Prop} {s : σ}

/-- The ghost state after some own moves. -/
def Move.ghost (next : σ → (op : Op) → Res op → σ) (s : σ) (moves : List (Move Op Res)) : σ :=
  moves.foldl (fun s move => next s move.1 move.2) s

@[simp] theorem Move.ghost_nil : Move.ghost next s ([] : List (Move Op Res)) = s := rfl

@[simp] theorem Move.ghost_cons {move : Move Op Res} {moves : List (Move Op Res)} :
    Move.ghost next s (move :: moves) = Move.ghost next (next s move.1 move.2) moves := rfl

@[simp] theorem Move.ghost_append {moves moves' : List (Move Op Res)} :
    Move.ghost next s (moves ++ moves') = Move.ghost next (Move.ghost next s moves) moves' :=
  List.foldl_append

@[simp] theorem Move.ghost_push {op : Op} {answer : Res op} {moves : List (Move Op Res)} :
    Move.ghost next s (Move.push moves op answer) = next (Move.ghost next s moves) op answer := by
  rw [Move.push, Move.ghost_append]
  rfl

theorem Move.ghost_flag {flag : σ → Bool} {test : Move Op Res → Bool}
    (h : ∀ s op answer, flag (next s op answer) = (flag s || test ⟨op, answer⟩))
    (moves : List (Move Op Res)) :
    flag (Move.ghost next s moves) = (flag s || moves.any test) := by
  induction moves generalizing s with
  | nil => simp
  | cons move moves ih => rw [Move.ghost_cons, ih, h, List.any_cons, Bool.or_assoc]

theorem Prog.Sat.of_moves {p : Prog Op Res ε α} {s₀ : σ} {post : σ → Outcome ε α → Prop}
    {moves : List (Move Op Res)} (h : p.Sat allowed next (Move.ghost next s₀ moves) post) :
    p.Sat (fun moves op => allowed (Move.ghost next s₀ moves) op) Move.push moves
      fun moves outcome => post (Move.ghost next s₀ moves) outcome := by
  induction p generalizing moves with
  | ret | stop => exact h
  | call op k ih =>
    refine ⟨h.1, fun answer => ih answer ?_⟩
    rw [Move.ghost_push]
    exact h.2 answer

/-- **An execution along a ghost state**: what it did was allowed, and its outcome is possible. -/
theorem Exec.ghost {S : System Op Res World Label} {p : Prog Op Res ε α} {w w' : World}
    {history : List (Happening Op Res Label)} {outcome : Option (Outcome ε α)}
    {post : σ → Outcome ε α → Prop} (h : Exec S p w history w' outcome)
    (hsat : p.Sat allowed next s post) :
    (∀ before op answer later, history = before ++ .did op answer :: later →
      allowed (Move.ghost next s (Happening.own before)) op) ∧
      ∀ result, outcome = some result →
        post (Move.ghost next s (Happening.own history)) result := by
  have hstart : p.Sat allowed next (Move.ghost next s []) post := hsat
  have hmoves := h.follows (Prog.Sat.of_moves hstart)
  simpa only [List.nil_append] using hmoves

/-- **Invariant rule with a ghost state.** -/
theorem Trace.ghost_invariant {S : System Op Res World Label} {I : σ → World → Prop}
    {w w' : World} {history : List (Happening Op Res Label)} {good : σ → (op : Op) → Res op → Prop}
    (ht : Trace S w history w')
    (hgood : ∀ before op answer later, history = before ++ .did op answer :: later →
      good (Move.ghost next s (Happening.own before)) op answer)
    (h0 : I s w)
    (hstep : ∀ s m op answer m', I s m → good s op answer → S.step m op answer m' →
      I (next s op answer) m')
    (hother : ∀ s m label m', I s m → S.other m label m' → I s m') :
    I (Move.ghost next s (Happening.own history)) w' := by
  induction ht generalizing s with
  | nil => exact h0
  | did h _ ih =>
    rw [Happening.own_did, Move.ghost_cons]
    refine ih (fun before op answer later hsplit => ?_)
      (hstep _ _ _ _ _ h0 (hgood [] _ _ _ rfl) h)
    have hnext := hgood (.did _ _ :: before) op answer later (by rw [hsplit, List.cons_append])
    rwa [Happening.own_did, Move.ghost_cons] at hnext
  | other h _ ih =>
    rw [Happening.own_other]
    refine ih (fun before op answer later hsplit => ?_) (hother _ _ _ _ h0 h)
    have hnext := hgood (.other _ :: before) op answer later (by rw [hsplit, List.cons_append])
    rwa [Happening.own_other] at hnext

end Ghost

/-! ### Inversion -/

section Inversion

variable {S : System Op Res World Label} {w w' : World} {history : List (Happening Op Res Label)}
  {outcome : Option (Outcome ε α)}

theorem Exec.ret_inv {a : α} (h : Exec S (.ret a) w history w' outcome) :
    Happening.own history = [] ∧ (outcome = none ∨ outcome = some (.ok a)) := by
  generalize hp : (Prog.ret a : Prog Op Res ε α) = p at h
  induction h with
  | ret => exact ⟨rfl, Or.inr (by rw [Prog.ret.inj hp])⟩
  | died => exact ⟨rfl, Or.inl rfl⟩
  | other _ _ ih => exact ih hp
  | stop | call => cases hp

theorem Exec.stop_inv {fault : Fault ε} (h : Exec S (.stop fault) w history w' outcome) :
    Happening.own history = [] ∧ (outcome = none ∨ outcome = some (.error fault)) := by
  generalize hp : (Prog.stop fault : Prog Op Res ε α) = p at h
  induction h with
  | stop => exact ⟨rfl, Or.inr (by rw [Prog.stop.inj hp])⟩
  | died => exact ⟨rfl, Or.inl rfl⟩
  | other _ _ ih => exact ih hp
  | ret | call => cases hp

theorem Exec.returns {good : Op → Prop} {Q : α → Prop} {p : Prog Op Res ε α} {a : α}
    (h : Exec S p w history w' (some (.ok a))) (honly : p.Only good Q) : Q a := by
  generalize hend : (some (.ok a) : Option (Outcome ε α)) = outcome at h
  induction h with
  | ret => exact Except.ok.inj (Option.some.inj hend) ▸ honly
  | other _ _ ih => exact ih honly hend
  | call _ _ ih => exact ih (honly.2 _) hend
  | stop | died => simp at hend

theorem Exec.does {good : Op → Prop} {Q : α → Prop} {p : Prog Op Res ε α} {op : Op}
    {answer : Res op} (h : Exec S p w history w' outcome) (honly : p.Only good Q)
    (hmem : .did op answer ∈ history) : good op := by
  induction h with
  | ret | stop | died => cases hmem
  | other _ _ ih =>
    rcases List.mem_cons.mp hmem with hhead | htail
    · cases hhead
    · exact ih honly htail
  | call _ _ ih =>
    rcases List.mem_cons.mp hmem with hhead | htail
    · cases hhead
      exact honly.1
    · exact ih (honly.2 _) htail

/-- **An execution of a call**: it was cut short before, or the call was answered and the rest
executed. -/
theorem Exec.call_inv {op : Op} {k : Res op → Prog Op Res ε α}
    (h : Exec S (.call op k) w history w' outcome) :
    (Happening.own history = [] ∧ outcome = none) ∨
      ∃ answer before after m m', history = before ++ .did op answer :: after ∧
        Happening.own before = [] ∧ Trace S w before m ∧ S.step m op answer m' ∧
        Exec S (k answer) m' after w' outcome := by
  generalize hp : Prog.call op k = p at h
  induction h with
  | died => exact Or.inl ⟨rfl, rfl⟩
  | @other _ _ _ _ label _ _ hother _ ih =>
    rcases ih hp with hcut | ⟨answer, before, after, m, m', rfl, hbefore, htrace, hstep, hrest⟩
    · exact Or.inl hcut
    · exact Or.inr ⟨answer, .other label :: before, after, m, m', rfl, hbefore,
        .other hother htrace, hstep, hrest⟩
  | call hstep hrest =>
    obtain ⟨rfl, hk⟩ := Prog.call.inj hp
    obtain rfl := eq_of_heq hk
    exact Or.inr ⟨_, [], _, _, _, rfl, rfl, .nil, hstep, hrest⟩
  | ret | stop => cases hp

end Inversion

/-! ### Complete executions without others -/

section Complete

variable {S : System Op Res World Label} {w w' : World} {history : List (Happening Op Res Label)}
  {outcome : Outcome ε α} {ε' β : Type}

theorem Exec.complete_call {op : Op} {k : Res op → Prog Op Res ε α}
    (h : Exec S.alone (.call op k) w history w' (some outcome)) :
    ∃ answer m after, history = .did op answer :: after ∧ S.step w op answer m ∧
      Exec S.alone (k answer) m after w' (some outcome) := by
  cases h with
  | other hother => exact hother.elim
  | call hstep hrest => exact ⟨_, _, _, rfl, hstep, hrest⟩

theorem Exec.complete_lift {x : Outcome ε α}
    (h : Exec S.alone (Prog.lift x : Prog Op Res ε α) w history w' (some outcome)) :
    history = [] ∧ w' = w ∧ outcome = x := by
  cases x with
  | ok a =>
    cases h with
    | ret => exact ⟨rfl, rfl, rfl⟩
    | other hother => exact hother.elim
  | error fault =>
    cases h with
    | stop => exact ⟨rfl, rfl, rfl⟩
    | other hother => exact hother.elim

theorem Prog.lift_ok_bind {b : β} {f : β → Prog Op Res ε α} :
    (Prog.lift (.ok b) >>= f) = f b := rfl

/-- **A sequence** stops in its first part, or its second part goes on where the first one returned. -/
theorem Exec.complete_bind {p : Prog Op Res ε β} {f : β → Prog Op Res ε α}
    (h : Exec S.alone (p >>= f) w history w' (some outcome)) :
    (∃ fault, outcome = .error fault ∧ Exec S.alone p w history w' (some (.error fault))) ∨
      ∃ b m before after, history = before ++ after ∧ Exec S.alone p w before m (some (.ok b)) ∧
        Exec S.alone (f b) m after w' (some outcome) := by
  induction p generalizing w history with
  | ret b => exact Or.inr ⟨b, w, [], history, rfl, .ret, h⟩
  | stop fault =>
    obtain ⟨rfl, rfl, rfl⟩ := Exec.complete_lift (x := .error fault) h
    exact Or.inl ⟨fault, rfl, .stop⟩
  | call op k ih =>
    obtain ⟨answer, m, after, rfl, hstep, hrest⟩ := Exec.complete_call h
    rcases ih answer hrest with ⟨fault, hfault, hexec⟩ | ⟨b, m', before, later, rfl, hexec, hlast⟩
    · exact Or.inl ⟨fault, hfault, .call hstep hexec⟩
    · exact Or.inr ⟨b, m', .did op answer :: before, later, rfl, .call hstep hexec, hlast⟩

theorem Exec.complete_lift_bind {x : Outcome ε β} {f : β → Prog Op Res ε α}
    (h : Exec S.alone (Prog.lift x >>= f) w history w' (some outcome)) :
    history = [] ∨ ∃ b, x = .ok b ∧ Exec S.alone (f b) w history w' (some outcome) := by
  cases x with
  | ok b => exact Or.inr ⟨b, rfl, h⟩
  | error fault => exact Or.inl (Exec.complete_lift (x := .error fault) h).1

theorem Exec.complete_map {p : Prog Op Res ε β} {f : β → α}
    (h : Exec S.alone (p >>= fun b => .ret (f b)) w history w' (some outcome)) :
    ∃ inner, Exec S.alone p w history w' (some inner) ∧ outcome = inner.map f := by
  rcases Exec.complete_bind h with ⟨fault, rfl, hexec⟩ | ⟨b, m, before, after, rfl, hexec, hlast⟩
  · exact ⟨_, hexec, rfl⟩
  · obtain ⟨rfl, rfl, rfl⟩ := Exec.complete_lift (x := .ok (f b)) hlast
    exact ⟨_, by rwa [List.append_nil], rfl⟩

theorem Exec.complete_mapErr {f : ε' → ε} {p : Prog Op Res ε' α}
    (h : Exec S.alone (p.mapErr f) w history w' (some outcome)) :
    ∃ inner, Exec S.alone p w history w' (some inner) ∧ outcome = inner.mapErr f := by
  induction p generalizing w history with
  | ret a =>
    obtain ⟨rfl, rfl, rfl⟩ := Exec.complete_lift (x := .ok a) h
    exact ⟨.ok a, .ret, rfl⟩
  | stop fault =>
    cases fault with
    | err e =>
      obtain ⟨rfl, rfl, rfl⟩ := Exec.complete_lift (x := .error (.err (f e))) h
      exact ⟨.error (.err e), .stop, rfl⟩
    | panic message =>
      obtain ⟨rfl, rfl, rfl⟩ := Exec.complete_lift (x := .error (.panic message)) h
      exact ⟨.error (.panic message), .stop, rfl⟩
  | call op k ih =>
    obtain ⟨answer, m, after, rfl, hstep, hrest⟩ := Exec.complete_call h
    obtain ⟨inner, hexec, houtcome⟩ := ih answer hrest
    exact ⟨inner, .call hstep hexec, houtcome⟩

end Complete

/-! ### The first watched operation -/

section First

variable {β : Type} {watch : Op → Bool}
  {Q : List (Move Op Res) → (op : Op) → Res op → Prog Op Res ε α → Prop}
  {moves : List (Move Op Res)}

/-- `Q` holds of the first watched operation: of the own moves before it, of its answer, and of the
program that is left after it. -/
def Prog.First (watch : Op → Bool)
    (Q : List (Move Op Res) → (op : Op) → Res op → Prog Op Res ε α → Prop) :
    List (Move Op Res) → Prog Op Res ε α → Prop
  | _, .ret _ => True
  | _, .stop _ => True
  | moves, .call op k => ∀ answer,
    if watch op = true then Q moves op answer (k answer)
    else Prog.First watch Q (Move.push moves op answer) (k answer)

theorem Prog.Only.first {p : Prog Op Res ε α} {R : α → Prop}
    (h : Prog.Only (fun op => watch op = false) p R) : p.First watch Q moves := by
  induction p generalizing moves with
  | ret | stop => trivial
  | call op k ih =>
    intro answer
    have hop : ¬ watch op = true := by rw [h.1]; decide
    rw [if_neg hop]
    exact ih answer (h.2 answer)

theorem Prog.First.bind {p : Prog Op Res ε β} {f : β → Prog Op Res ε α}
    (h : Prog.Only (fun op => watch op = false) p
      fun b => ∀ moves, (f b).First watch Q moves) : (p >>= f).First watch Q moves := by
  induction p generalizing moves with
  | ret b => exact h moves
  | stop => trivial
  | call op k ih =>
    intro answer
    have hop : ¬ watch op = true := by rw [h.1]; decide
    rw [if_neg hop]
    exact ih answer (h.2 answer)

theorem Prog.first_lift_bind {x : Outcome ε β} {f : β → Prog Op Res ε α} :
    (Prog.lift x >>= f).First watch Q moves ↔ ∀ b, x = .ok b → (f b).First watch Q moves := by
  cases x with
  | ok b =>
    constructor
    · exact fun h b' hb => Except.ok.inj hb ▸ h
    · exact fun h => h b rfl
  | error fault =>
    constructor
    · intro _ b hb
      cases hb
    · exact fun _ => trivial

/-- **An execution reaches what is said of the first watched operation.** -/
theorem Exec.first {S : System Op Res World Label} {p : Prog Op Res ε α} {w w' : World}
    {history : List (Happening Op Res Label)} {outcome : Option (Outcome ε α)}
    {before after : List (Move Op Res)} {op : Op} {answer : Res op}
    (h : Exec S p w history w' outcome) (hfirst : p.First watch Q moves)
    (hsplit : Happening.own history = before ++ ⟨op, answer⟩ :: after)
    (hbefore : ∀ move ∈ before, watch move.1 = false) (hop : watch op = true) :
    ∃ rest earlier later m m', history = earlier ++ .did op answer :: later ∧
      Happening.own earlier = before ∧ Happening.own later = after ∧ Trace S w earlier m ∧
      S.step m op answer m' ∧ Exec S rest m' later w' outcome ∧
      Q (moves ++ before) op answer rest := by
  induction h generalizing moves before with
  | ret | stop | died => simp at hsplit
  | @other _ _ _ _ label _ _ hother hrest ih =>
    obtain ⟨rest, earlier, later, m, m', rfl, hearlier, hlater, htrace, hstep, hexec, hQ⟩ :=
      ih hfirst hsplit hbefore
    exact ⟨rest, .other label :: earlier, later, m, m', rfl, hearlier, hlater,
      .other hother htrace, hstep, hexec, hQ⟩
  | @call op' k answer' _ _ _ history _ hstep hrest ih =>
    cases before with
    | nil =>
      obtain ⟨hmove, htail⟩ := List.cons.inj hsplit
      obtain ⟨rfl, hanswer⟩ := Sigma.mk.inj hmove
      obtain rfl := eq_of_heq hanswer
      have hQ := hfirst answer'
      rw [if_pos hop] at hQ
      refine ⟨k answer', [], history, _, _, rfl, rfl, htail, .nil, hstep, hrest, ?_⟩
      rwa [List.append_nil]
    | cons first before =>
      obtain ⟨rfl, htail⟩ := List.cons.inj hsplit
      have hunwatched : ¬ watch op' = true := by
        rw [hbefore _ List.mem_cons_self]
        decide
      have hnext := hfirst answer'
      rw [if_neg hunwatched] at hnext
      obtain ⟨rest, earlier, later, m, m', rfl, hearlier, hlater, htrace, hstep', hexec, hQ⟩ :=
        ih hnext htail fun move hmove => hbefore move (List.mem_cons_of_mem _ hmove)
      refine ⟨rest, .did op' answer' :: earlier, later, m, m', rfl, by rw [← hearlier]; rfl, hlater,
        .did hstep htrace, hstep', hexec, ?_⟩
      rwa [List.append_assoc] at hQ

end First

end Own

/-! ## Sessions -/

section Session

variable {Op : Type} {Res : Op → Type} {World Label ε α : Type}

/-- One executed program of a session. -/
structure Segment (Op : Type) (Res : Op → Type) (Label ε α : Type) where
  program : Prog Op Res ε α
  history : List (Happening Op Res Label)
  outcome : Option (Outcome ε α)

/-- Programs of a kind executed one after the other. -/
inductive Session (S : System Op Res World Label) (kind : Prog Op Res ε α → Prop) (start : World) :
    List (Segment Op Res Label ε α) → World → Prop
  | nil : Session S kind start [] start
  | snoc {segments : List (Segment Op Res Label ε α)} {segment : Segment Op Res Label ε α}
      {w w' : World} (hbefore : Session S kind start segments w) (hkind : kind segment.program)
      (hexec : Exec S segment.program w segment.history w' segment.outcome) :
      Session S kind start (segments ++ [segment]) w'

variable {S : System Op Res World Label} {kind : Prog Op Res ε α → Prop} {start w : World}
  {segments : List (Segment Op Res Label ε α)}

/-- What happened in the executed programs, one after the other. -/
def Segment.histories (segments : List (Segment Op Res Label ε α)) :
    List (Happening Op Res Label) :=
  segments.flatMap Segment.history

theorem Session.trace (h : Session S kind start segments w) :
    Trace S start (Segment.histories segments) w := by
  induction h with
  | nil => exact .nil
  | snoc _ _ hexec ih =>
    rw [Segment.histories, List.flatMap_append, List.flatMap_singleton]
    exact Trace.append_iff.mpr ⟨_, ih, hexec.trace⟩

theorem Session.split {before after : List (Segment Op Res Label ε α)}
    {segment : Segment Op Res Label ε α} (h : Session S kind start segments w)
    (hsplit : segments = before ++ segment :: after) :
    ∃ m m', Session S kind start before m ∧ kind segment.program ∧
      Exec S segment.program m segment.history m' segment.outcome ∧
      Trace S m' (Segment.histories after) w := by
  induction h generalizing after with
  | nil => simp at hsplit
  | @snoc segments last m m' hbefore hkind hexec ih =>
    rcases List.eq_nil_or_concat after with rfl | ⟨init, final, rfl⟩
    · obtain ⟨rfl, hlast⟩ := List.append_inj' hsplit rfl
      obtain rfl := List.singleton_inj.mp hlast
      exact ⟨m, m', hbefore, hkind, hexec, .nil⟩
    · rw [List.concat_eq_append, ← List.cons_append, ← List.append_assoc] at hsplit
      obtain ⟨rfl, hlast⟩ := List.append_inj' hsplit rfl
      obtain rfl := List.singleton_inj.mp hlast
      obtain ⟨n, n', hsession, hsegment, hrun, hrest⟩ := ih rfl
      refine ⟨n, n', hsession, hsegment, hrun, ?_⟩
      rw [List.concat_eq_append, Segment.histories, List.flatMap_append, List.flatMap_singleton]
      exact Trace.append_iff.mpr ⟨_, hrest, hexec.trace⟩

theorem Session.own_split {before after : List (Move Op Res)} {move : Move Op Res}
    (h : Session S kind start segments w)
    (hsplit : Happening.own (Segment.histories segments) = before ++ move :: after) :
    ∃ segment ∈ segments, ∃ earlier now later m m', before = earlier ++ now ∧
      Happening.own segment.history = now ++ move :: later ∧ kind segment.program ∧
      Exec S segment.program m segment.history m' segment.outcome := by
  induction h generalizing after with
  | nil => simp [Segment.histories] at hsplit
  | @snoc segments segment m m' hbefore hkind hexec ih =>
    rw [Segment.histories, List.flatMap_append, List.flatMap_singleton,
      Happening.own_append] at hsplit
    rcases List.append_eq_append_iff.mp hsplit with ⟨now, hnow, hlast⟩ | ⟨rest, hrest, hcons⟩
    · exact ⟨segment, by simp, _, now, after, m, m', hnow, hlast, hkind, hexec⟩
    · cases rest with
      | nil =>
        rw [List.nil_append] at hcons
        rw [List.append_nil] at hrest
        exact ⟨segment, by simp, before, [], after, m, m', (List.append_nil _).symm, hcons.symm,
          hkind, hexec⟩
      | cons first rest =>
        obtain ⟨rfl, _⟩ := List.cons.inj hcons
        obtain ⟨found, hfound, hmove⟩ := ih hrest
        exact ⟨found, List.mem_append_left _ hfound, hmove⟩

end Session

/-! ## Rounds -/

section Rounds

variable {ι Op : Type} {Res : Op → Type} {World Label ε α : Type}

/-- One executed program of a sequence of rounds, by the index of its program and system. -/
structure Round (ι Op : Type) (Res : Op → Type) (Label ε α : Type) where
  index : ι
  history : List (Happening Op Res Label)
  outcome : Option (Outcome ε α)

/-- Programs executed one after the other, each with its own system. -/
inductive Rounds (S : ι → System Op Res World Label) (program : ι → Prog Op Res ε α) (start : World) :
    List (Round ι Op Res Label ε α) → World → Prop
  | nil : Rounds S program start [] start
  | snoc {rounds : List (Round ι Op Res Label ε α)} {round : Round ι Op Res Label ε α} {w w' : World}
      (hbefore : Rounds S program start rounds w)
      (hexec : Exec (S round.index) (program round.index) w round.history w' round.outcome) :
      Rounds S program start (rounds ++ [round]) w'

/-- The own moves of a history, each with the index of its round. -/
def Round.tag (i : ι) (history : List (Happening Op Res Label)) : List (ι × Move Op Res) :=
  (Happening.own history).map fun move => (i, move)

/-- The own moves of all rounds. -/
def Round.moves (rounds : List (Round ι Op Res Label ε α)) : List (ι × Move Op Res) :=
  rounds.flatMap fun round => Round.tag round.index round.history

@[simp] theorem Round.moves_nil : Round.moves ([] : List (Round ι Op Res Label ε α)) = [] := rfl

@[simp] theorem Round.moves_append {rounds rounds' : List (Round ι Op Res Label ε α)} :
    Round.moves (rounds ++ rounds') = Round.moves rounds ++ Round.moves rounds' :=
  List.flatMap_append

@[simp] theorem Round.moves_cons {round : Round ι Op Res Label ε α}
    {rounds : List (Round ι Op Res Label ε α)} :
    Round.moves (round :: rounds) = Round.tag round.index round.history ++ Round.moves rounds :=
  List.flatMap_cons

theorem Round.index_of_mem {rounds : List (Round ι Op Res Label ε α)} {i : ι} {move : Move Op Res}
    (h : (i, move) ∈ Round.moves rounds) : i ∈ rounds.map Round.index := by
  obtain ⟨round, hround, htag⟩ := List.mem_flatMap.mp h
  obtain ⟨_, -, hpair⟩ := List.mem_map.mp htag
  exact List.mem_map.mpr ⟨round, hround, (Prod.mk.inj hpair).1⟩

variable {S : ι → System Op Res World Label} {program : ι → Prog Op Res ε α} {start w : World}
  {rounds : List (Round ι Op Res Label ε α)}

theorem Rounds.split {before after : List (Round ι Op Res Label ε α)} {round : Round ι Op Res Label ε α}
    (h : Rounds S program start rounds w) (hsplit : rounds = before ++ round :: after) :
    ∃ m m', Rounds S program start before m ∧
      Exec (S round.index) (program round.index) m round.history m' round.outcome := by
  induction h generalizing after with
  | nil => simp at hsplit
  | @snoc rounds last m m' hbefore hexec ih =>
    rcases List.eq_nil_or_concat after with rfl | ⟨init, final, rfl⟩
    · obtain ⟨rfl, hlast⟩ := List.append_inj' hsplit rfl
      obtain rfl := List.singleton_inj.mp hlast
      exact ⟨m, m', hbefore, hexec⟩
    · rw [List.concat_eq_append, ← List.cons_append, ← List.append_assoc] at hsplit
      exact ih (List.append_inj' hsplit rfl).1

/-- Every own move of a history is allowed by the own moves before it. -/
def Happening.Obeys (allowed : List (Move Op Res) → Op → Prop)
    (history : List (Happening Op Res Label)) : Prop :=
  ∀ before move after, Happening.own history = before ++ move :: after → allowed before move.1

theorem Happening.Obeys.left {allowed : List (Move Op Res) → Op → Prop}
    {h h' : List (Happening Op Res Label)} (hobeys : Happening.Obeys allowed (h ++ h')) :
    Happening.Obeys allowed h := by
  intro before move after hsplit
  refine hobeys before move (after ++ Happening.own h') ?_
  rw [Happening.own_append, hsplit, List.append_assoc, List.cons_append]

/-- What a round keeps: from what holds before it to what holds after any part of its history. -/
def Rounds.Kept (S : ι → System Op Res World Label) (allowed : ι → List (Move Op Res) → Op → Prop)
    (I : List (ι × Move Op Res) → World → Prop) : Prop :=
  ∀ i moves history w w', I moves w → Trace (S i) w history w' → Happening.Obeys (allowed i) history →
    I (moves ++ Round.tag i history) w'

variable {allowed : ι → List (Move Op Res) → Op → Prop} {I : List (ι × Move Op Res) → World → Prop}
  {post : ι → List (Move Op Res) → Outcome ε α → Prop}

/-- **Invariant rule for rounds.** -/
theorem Rounds.invariant (h : Rounds S program start rounds w)
    (hfollows : ∀ i, (program i).Follows (allowed i) (post i)) (h0 : I [] start)
    (hkept : Rounds.Kept S allowed I) : I (Round.moves rounds) w := by
  induction h with
  | nil => exact h0
  | @snoc rounds round m m' _ hexec ih =>
    rw [Round.moves_append, Round.moves_cons, Round.moves_nil, List.append_nil]
    exact hkept _ _ _ _ _ ih hexec.trace fun before move after hsplit =>
      hexec.follows_own (hfollows round.index) hsplit

/-- **At a moment within a round** the invariant holds, and what is done then is allowed. -/
theorem Rounds.moment {before after : List (Round ι Op Res Label ε α)}
    {round : Round ι Op Res Label ε α} {earlier later : List (Move Op Res)} {move : Move Op Res}
    (h : Rounds S program start rounds w)
    (hfollows : ∀ i, (program i).Follows (allowed i) (post i)) (h0 : I [] start)
    (hkept : Rounds.Kept S allowed I) (hsplit : rounds = before ++ round :: after)
    (hown : Happening.own round.history = earlier ++ move :: later) :
    allowed round.index earlier move.1 ∧ ∃ history m m', Happening.own history = earlier ∧
      Trace (S round.index) m history m' ∧ I (Round.moves before) m ∧
      I (Round.moves before ++ Round.tag round.index history) m' := by
  obtain ⟨m, m', hbefore, hexec⟩ := h.split hsplit
  have hobeys : Happening.Obeys (allowed round.index) round.history := fun before move after hsplit =>
    hexec.follows_own (hfollows round.index) hsplit
  obtain ⟨first, rest, hhistory, hfirst, -⟩ := Happening.own_split hown
  have htrace := hexec.trace
  rw [hhistory] at hobeys htrace
  obtain ⟨n, hleft, -⟩ := Trace.append_iff.mp htrace
  have hm := hbefore.invariant hfollows h0 hkept
  exact ⟨hexec.follows_own (hfollows round.index) hown, first, m, n, hfirst, hleft, hm,
    hkept _ _ _ _ _ hm hleft hobeys.left⟩

end Rounds

/-! ## Running a program -/

section Run

variable {Op : Type} {Res : Op → Type} {World Label ε α : Type}

/-- What a program does with a host that answers and changes the world, while others may make one move
before each of its operations: the history, the world that is left, and the outcome. -/
def Prog.run (host : World → (op : Op) → Res op × World)
    (others : World → Op → Option (Label × World)) :
    Prog Op Res ε α → World → List (Happening Op Res Label) × World × Outcome ε α
  | .ret a, w => ([], w, .ok a)
  | .stop fault, w => ([], w, .error fault)
  | .call op k, w =>
    match others w op with
    | none =>
      let answer := host w op
      let rest := Prog.run host others (k answer.1) answer.2
      (.did op answer.1 :: rest.1, rest.2)
    | some (label, m) =>
      let answer := host m op
      let rest := Prog.run host others (k answer.1) answer.2
      (.other label :: .did op answer.1 :: rest.1, rest.2)

theorem Prog.run_bind {host : World → (op : Op) → Res op × World}
    {others : World → Op → Option (Label × World)} {p : Prog Op Res ε α} {β : Type}
    {f : α → Prog Op Res ε β} {w m : World} {a : α} (h : (p.run host others w).2 = (m, .ok a)) :
    ((p >>= f).run host others w).2 = ((f a).run host others m).2 := by
  show ((p.bind f).run host others w).2 = _
  induction p generalizing w with
  | ret =>
    obtain ⟨rfl, hvalue⟩ := Prod.mk.inj h
    rw [Except.ok.inj hvalue]
    rfl
  | stop => cases h
  | call op k ih =>
    rw [Prog.bind, Prog.run]
    rw [Prog.run] at h
    split at h <;> exact ih _ h

/-- **Running a program is an execution of it**, when the system allows the host and the others. -/
theorem Prog.exec_run {S : System Op Res World Label} {host : World → (op : Op) → Res op × World}
    {others : World → Op → Option (Label × World)}
    (hhost : ∀ w op, S.step w op (host w op).1 (host w op).2)
    (hothers : ∀ w op label m, others w op = some (label, m) → S.other w label m)
    (p : Prog Op Res ε α) (w : World) :
    Exec S p w (p.run host others w).1 (p.run host others w).2.1
      (some (p.run host others w).2.2) := by
  induction p generalizing w with
  | ret => exact .ret
  | stop => exact .stop
  | call op k ih =>
    unfold Prog.run
    split
    · exact .call (hhost w op) (ih _ _)
    · rename_i label m hmove
      exact .other (hothers w op label m hmove) (.call (hhost m op) (ih _ _))

theorem Session.run {S : System Op Res World Label} {kind : Prog Op Res ε α → Prop}
    {start w : World} {segments : List (Segment Op Res Label ε α)} {p : Prog Op Res ε α}
    {host : World → (op : Op) → Res op × World} {others : World → Op → Option (Label × World)}
    (hbefore : Session S kind start segments w) (hkind : kind p)
    (hhost : ∀ w op, S.step w op (host w op).1 (host w op).2)
    (hothers : ∀ w op label m, others w op = some (label, m) → S.other w label m) :
    Session S kind start
      (segments ++ [⟨p, (p.run host others w).1, some (p.run host others w).2.2⟩])
      (p.run host others w).2.1 :=
  .snoc hbefore hkind (p.exec_run hhost hothers w)

end Run
