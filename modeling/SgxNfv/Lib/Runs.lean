import Mathlib.Tactic.Common

/-!
This module contains the runs of a step function, with their history.
-/

namespace Runs

variable {ε σ α ρ : Type}

structure Event (σ α ρ : Type) where
  before : σ
  call : α
  ret : ρ
  after : σ

/--
The runs from `init` to a state, with their history, the last event first. A call with an error ends
the run before it.
-/
inductive Run (step : σ → α → Except ε (ρ × σ)) (init : σ) : σ → List (Event σ α ρ) → Prop where
  | nil : Run step init init []
  | cons {s s' : σ} {c : α} {r : ρ} {h : List (Event σ α ρ)} (hrun : Run step init s h)
      (hstep : step s c = .ok (r, s')) : Run step init s' (⟨s, c, r, s'⟩ :: h)

def Always (P : Event σ α ρ → List (Event σ α ρ) → Prop) : List (Event σ α ρ) → Prop
  | [] => True
  | e :: h => P e h ∧ Always P h

instance {P : Event σ α ρ → List (Event σ α ρ) → Prop} [∀ e h, Decidable (P e h)]
    : (h : List (Event σ α ρ)) → Decidable (Always P h)
  | [] => .isTrue trivial
  | e :: h =>
    have : Decidable (Always P h) := instDecidableAlways h
    inferInstanceAs (Decidable (P e h ∧ Always P h))

def exec (step : σ → α → Except ε (ρ × σ))
    : σ → List (Event σ α ρ) → List α → Except ε (σ × List (Event σ α ρ))
  | s, h, [] => .ok (s, h)
  | s, h, c :: cs =>
    match step s c with
    | .error e => .error e
    | .ok (r, s') => exec step s' (⟨s, c, r, s'⟩ :: h) cs

variable {step : σ → α → Except ε (ρ × σ)} {init s : σ} {h : List (Event σ α ρ)}

theorem Run.exec {s' : σ} {h' : List (Event σ α ρ)} {cs : List α} (hrun : Run step init s h)
    (hexec : exec step s h cs = .ok (s', h'))
    : Run step init s' h' := by
  induction cs generalizing s h with
  | nil =>
    cases hexec
    exact hrun
  | cons c cs ih =>
    unfold Runs.exec at hexec
    split at hexec
    . simp at hexec
    . next r s1 hstep => exact ih (.cons hrun hstep) hexec

/--
When every event meets the condition `G`, and a step that does keeps the invariant `I` and
establishes `P`, then `P` holds of every event.
-/
theorem Run.always {I : σ → List (Event σ α ρ) → Prop}
    {G P : Event σ α ρ → List (Event σ α ρ) → Prop} (hrun : Run step init s h) (hinit : I init [])
    (hnext : ∀ {s s' : σ} {c : α} {r : ρ} {h : List (Event σ α ρ)}, I s h → step s c = .ok (r, s')
      → G ⟨s, c, r, s'⟩ h → P ⟨s, c, r, s'⟩ h ∧ I s' (⟨s, c, r, s'⟩ :: h))
    (hG : Always G h)
    : Always P h ∧ I s h := by
  induction hrun with
  | nil => exact ⟨trivial, hinit⟩
  | cons hrun hstep ih =>
    rcases ih hG.2 with ⟨hP, hI⟩
    rcases hnext hI hstep hG.1 with ⟨hevent, hI'⟩
    exact ⟨⟨hevent, hP⟩, hI'⟩

/--
As `Run.always`, with no condition on the events.
-/
theorem Run.always_of_invariant {I : σ → List (Event σ α ρ) → Prop}
    {P : Event σ α ρ → List (Event σ α ρ) → Prop} (hrun : Run step init s h) (hinit : I init [])
    (hnext : ∀ {s s' : σ} {c : α} {r : ρ} {h : List (Event σ α ρ)}, I s h → step s c = .ok (r, s')
      → P ⟨s, c, r, s'⟩ h ∧ I s' (⟨s, c, r, s'⟩ :: h))
    : Always P h ∧ I s h := by
  induction hrun with
  | nil => exact ⟨trivial, hinit⟩
  | cons hrun hstep ih =>
    rcases hnext ih.2 hstep with ⟨hevent, hI⟩
    exact ⟨⟨hevent, ih.1⟩, hI⟩

end Runs
