import Mathlib.Data.Int.Notation
import Mathlib.Logic.Function.Basic
import Mathlib.Order.Basic

set_option autoImplicit false

/-!
# Caches stamped with versions

Several sessions share some contents. What a session computes from them it may keep, stamped with the
version of the contents that it saw. A session sees a new version exactly when another session has
committed, so that its own commits do not change the version: a kept value must then be right again
when it is kept.

* `Session`, `Session.Sound`: a kept value is right as long as no other session commits;
* `Shared`: sessions over the same contents; `Shared.commit`, `Shared.settle`: how a transaction ends;
* **`Shared.Sound.commit`**, **`Shared.Sound.settle`**: soundness is kept under any interleaving;
* **`Session.Sound.current`**: a value with the current stamp is right.
-/

namespace VersionedCache

/-- What a session sees after some number of commits of others. -/
abbrev Versions := {v : ℕ → ℤ // Function.Injective v}

/-- A session, with the number of commits that others have made since it began. -/
structure Session (γ : Type) where
  versions : Versions
  foreign : ℕ
  cached : Option γ

variable {κ σ γ : Type}

namespace Session

/-- The version that the session sees. -/
def now (self : Session γ) : ℤ := self.versions.val self.foreign

/-- Another session has committed. -/
def afterForeign (self : Session γ) : Session γ := { self with foreign := self.foreign + 1 }

/-- The session keeps something else. -/
def keeping (self : Session γ) (cached : Option γ) : Session γ := { self with cached := cached }

@[simp] theorem now_keeping {self : Session γ} {cached : Option γ} :
    (self.keeping cached).now = self.now := rfl

/-- The kept value was stamped at some time, and it is right if no other session has committed since. -/
def Sound (stamp : γ → ℤ) (right : γ → Prop) (self : Session γ) : Prop :=
  ∀ c, self.cached = some c →
    ∃ n ≤ self.foreign, self.versions.val n = stamp c ∧ (n = self.foreign → right c)

variable {self : Session γ} {stamp : γ → ℤ} {right : γ → Prop} {c : γ}

/-- **A value with the current stamp is right.** -/
theorem Sound.current (h : self.Sound stamp right) (hcached : self.cached = some c)
    (hstamp : stamp c = self.now) : right c := by
  obtain ⟨n, _, hversion, hright⟩ := h c hcached
  exact hright (self.versions.property (hversion.trans hstamp))

theorem Sound.afterForeign (h : self.Sound stamp right) (right' : γ → Prop) :
    self.afterForeign.Sound stamp right' := by
  intro c hcached
  obtain ⟨n, hn, hversion, _⟩ := h c hcached
  exact ⟨n, Nat.le_succ_of_le hn, hversion, fun heq => absurd (heq ▸ hn) (Nat.not_succ_le_self _)⟩

theorem Sound.keeping (h : self.Sound stamp right) {cached : Option γ}
    (hcached : ∀ c, cached = some c → self.cached = some c ∨ stamp c = self.now ∧ right c) :
    (self.keeping cached).Sound stamp right := by
  intro c hc
  rcases hcached c hc with hold | ⟨hstamp, hright⟩
  · exact h c hold
  · exact ⟨self.foreign, Nat.le_refl _, hstamp.symm, fun _ => hright⟩

theorem sound_of_now (hstamp : ∀ c, self.cached = some c → stamp c = self.now)
    (hright : ∀ c, self.cached = some c → right c) : self.Sound stamp right :=
  fun c hc => ⟨self.foreign, Nat.le_refl _, (hstamp c hc).symm, fun _ => hright c hc⟩

end Session

/-! ## Sharing -/

/-- The contents, and the sessions that are open over them. -/
structure Shared (κ σ γ : Type) where
  contents : σ
  sessions : κ → Option (Session γ)

namespace Shared

variable [DecidableEq κ]

/-- A session commits new contents. -/
def commit (self : Shared κ σ γ) (k : κ) (contents : σ) (session : Session γ) : Shared κ σ γ where
  contents := contents
  sessions i := if i = k then some session else (self.sessions i).map Session.afterForeign

/-- A session begins, ends, or ends a transaction without a commit. -/
def settle (self : Shared κ σ γ) (k : κ) (session : Option (Session γ)) : Shared κ σ γ where
  contents := self.contents
  sessions i := if i = k then session else self.sessions i

/-- Every session is sound for the contents. -/
def Sound (stamp : γ → ℤ) (right : σ → γ → Prop) (self : Shared κ σ γ) : Prop :=
  ∀ k session, self.sessions k = some session → session.Sound stamp (right self.contents)

variable {self : Shared κ σ γ} {stamp : γ → ℤ} {right : σ → γ → Prop} {k : κ}

/-- **A commit keeps the other sessions sound**, whatever it changes. -/
theorem Sound.commit (h : self.Sound stamp right) {contents : σ} {session : Session γ}
    (hsession : session.Sound stamp (right contents)) :
    (self.commit k contents session).Sound stamp right := by
  intro i other hother
  rw [Shared.commit] at hother
  dsimp only at hother
  split at hother
  · obtain rfl := Option.some.inj hother
    exact hsession
  · obtain ⟨before, hbefore, rfl⟩ := Option.map_eq_some_iff.mp hother
    exact (h i before hbefore).afterForeign _

/-- **What ends without a commit** leaves the other sessions alone. -/
theorem Sound.settle (h : self.Sound stamp right) {session : Option (Session γ)}
    (hsession : ∀ s, session = some s → s.Sound stamp (right self.contents)) :
    (self.settle k session).Sound stamp right := by
  intro i other hother
  rw [Shared.settle] at hother
  dsimp only at hother
  split at hother
  · exact hsession other hother
  · exact h i other hother

end Shared

end VersionedCache
