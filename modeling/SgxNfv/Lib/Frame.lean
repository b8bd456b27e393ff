import Mathlib.Tactic.Common

/-!
This module contains the rules for computations on a state that may stop early: what such a
computation does not change, however it ends, which errors it stops with, and which states it does
not leave.
-/

namespace Frame

variable {ε σ α β γ : Type}

def endState : EStateM.Result ε σ α → σ
  | .ok _ s => s
  | .error _ s => s

/--
The part `f` of the state is behind `x` what it was before.
-/
def Keeps (f : σ → γ) (x : EStateM ε σ α) : Prop := ∀ s, f (endState (x.run s)) = f s

variable {f : σ → γ}

theorem keeps_pure (a : α) : Keeps f (pure a : EStateM ε σ α) := fun _ => rfl

theorem keeps_throw (e : ε) : Keeps f (throw e : EStateM ε σ α) := fun _ => rfl

theorem keeps_get : Keeps f (get : EStateM ε σ σ) := fun _ => rfl

theorem keeps_modify {g : σ → σ} (h : ∀ s, f (g s) = f s)
    : Keeps f (modify g : EStateM ε σ PUnit) := h

theorem keeps_bind {x : EStateM ε σ α} {k : α → EStateM ε σ β} (hx : Keeps f x)
    (hk : ∀ a, Keeps f (k a))
    : Keeps f (x >>= k) := by
  intro s
  have hs := hx s
  rw [EStateM.run_bind]
  cases hrun : x.run s with
  | ok a s' =>
    rw [hrun] at hs
    exact (hk a s').trans hs
  | error e s' =>
    rw [hrun] at hs
    exact hs

theorem keeps_ite {p : Prop} [Decidable p] {x y : EStateM ε σ α} (hx : Keeps f x) (hy : Keeps f y)
    : Keeps f (if p then x else y) := by
  split
  . exact hx
  . exact hy

/--
Wherever `x` stops early, it does so with an error in `p`.
-/
def StopsWith (p : ε → Prop) (x : EStateM ε σ α) : Prop :=
  ∀ s e s', x.run s = .error e s' → p e

section

variable {p : ε → Prop}

theorem stopsWith_pure (a : α) : StopsWith p (pure a : EStateM ε σ α) := by
  intro s e s' h
  cases h

theorem stopsWith_throw {e : ε} (he : p e) : StopsWith p (throw e : EStateM ε σ α) := by
  intro s e' s' h
  cases h
  exact he

theorem stopsWith_get : StopsWith p (get : EStateM ε σ σ) := by
  intro s e s' h
  cases h

theorem stopsWith_modify (g : σ → σ) : StopsWith p (modify g : EStateM ε σ PUnit) := by
  intro s e s' h
  cases h

theorem stopsWith_bind {x : EStateM ε σ α} {k : α → EStateM ε σ β} (hx : StopsWith p x)
    (hk : ∀ a, StopsWith p (k a))
    : StopsWith p (x >>= k) := by
  intro s e s' h
  rw [EStateM.run_bind] at h
  cases hrun : x.run s with
  | ok a t =>
    rw [hrun] at h
    exact hk a t e s' h
  | error e' t =>
    rw [hrun] at h
    cases h
    exact hx s e s' hrun

theorem stopsWith_ite {c : Prop} [Decidable c] {x y : EStateM ε σ α} (hx : StopsWith p x)
    (hy : StopsWith p y) : StopsWith p (if c then x else y) := by
  split
  . exact hx
  . exact hy

end

/--
From a state in `I` on, `x` stays in `I`, and where it stops early it does so with an error in `p`.
-/
def Safe (I : σ → Prop) (p : ε → Prop) (x : EStateM ε σ α) : Prop :=
  ∀ s, I s → match x.run s with
    | .ok _ s' => I s'
    | .error e s' => p e ∧ I s'

section

variable {I : σ → Prop} {p : ε → Prop}

theorem Safe.endState {x : EStateM ε σ α} {s : σ} (hx : Safe I p x) (hs : I s)
    : I (endState (x.run s)) := by
  have hrun := hx s hs
  cases hres : x.run s with
  | ok a s' =>
    rw [hres] at hrun
    exact hrun
  | error e s' =>
    rw [hres] at hrun
    exact hrun.2

theorem Safe.stop {x : EStateM ε σ α} {s s' : σ} {e : ε} (hx : Safe I p x) (hs : I s)
    (hrun : x.run s = .error e s')
    : p e := by
  have hstop := hx s hs
  rw [hrun] at hstop
  exact hstop.1

theorem safe_pure (a : α) : Safe I p (pure a : EStateM ε σ α) := fun _ hs => hs

theorem safe_throw {e : ε} (he : p e) : Safe I p (throw e : EStateM ε σ α) := fun _ hs => ⟨he, hs⟩

theorem safe_modify {g : σ → σ} (h : ∀ s, I s → I (g s))
    : Safe I p (modify g : EStateM ε σ PUnit) :=
  h

theorem safe_bind {x : EStateM ε σ α} {k : α → EStateM ε σ β} (hx : Safe I p x)
    (hk : ∀ a, Safe I p (k a))
    : Safe I p (x >>= k) := by
  intro s hs
  have hrun := hx s hs
  rw [EStateM.run_bind]
  cases hres : x.run s with
  | ok a s' =>
    rw [hres] at hrun
    exact hk a s' hrun
  | error e s' =>
    rw [hres] at hrun
    exact hrun

/--
The state that is read is one in `I`.
-/
theorem safe_get_bind {k : σ → EStateM ε σ β} (hk : ∀ s, I s → Safe I p (k s))
    : Safe I p (get >>= k) :=
  fun s hs => hk s hs s hs

theorem safe_ite {c : Prop} [Decidable c] {x y : EStateM ε σ α} (hx : Safe I p x)
    (hy : Safe I p y) : Safe I p (if c then x else y) := by
  split
  . exact hx
  . exact hy

end

end Frame
