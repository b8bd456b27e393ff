import Mathlib.Data.Nat.Basic
import Mathlib.Tactic.Common

/-!
This module contains the semantics of `while` loops whose body can fail, together with the rules
used to reason about them: determinism, partial correctness, refinement and termination.
-/

namespace While

variable {σ ε ρ : Type}

/--
Run the loop `body` for at most `fuel` rounds. A round either goes on with a new state (`.inl`),
leaves the loop (`.inr`) or fails. `none` means that the rounds did not suffice.
-/
def exec (body : σ → Except ε (σ ⊕ ρ)) : Nat → σ → Option (Except ε ρ)
  | 0, _ => none
  | fuel + 1, s =>
    match body s with
    | .error e => some (.error e)
    | .ok (.inl s') => exec body fuel s'
    | .ok (.inr r) => some (.ok r)

def Ends (body : σ → Except ε (σ ⊕ ρ)) (s : σ) (res : Except ε ρ) : Prop :=
  ∃ fuel, exec body fuel s = some res

variable {body : σ → Except ε (σ ⊕ ρ)} {s s' : σ} {r : ρ} {e : ε} {res res' : Except ε ρ}

@[simp]
theorem exec_zero : exec body 0 s = none := rfl

theorem exec_next (h : body s = .ok (.inl s')) (fuel : Nat)
    : exec body (fuel + 1) s = exec body fuel s' := by
  simp [exec, h]

theorem exec_exit (h : body s = .ok (.inr r)) (fuel : Nat)
    : exec body (fuel + 1) s = some (.ok r) := by
  simp [exec, h]

theorem exec_fail (h : body s = .error e) (fuel : Nat)
    : exec body (fuel + 1) s = some (.error e) := by
  simp [exec, h]

theorem exec_succ {fuel : Nat} (h : exec body fuel s = some res)
    : exec body (fuel + 1) s = some res := by
  induction fuel generalizing s with
  | zero => simp at h
  | succ fuel ih =>
    cases hb : body s with
    | error e =>
      rw [exec_fail hb] at h ⊢
      exact h
    | ok next =>
      cases next with
      | inl s' =>
        rw [exec_next hb] at h ⊢
        exact ih h
      | inr r =>
        rw [exec_exit hb] at h ⊢
        exact h

theorem exec_mono {fuel fuel' : Nat} (hle : fuel ≤ fuel') (h : exec body fuel s = some res)
    : exec body fuel' s = some res := by
  induction hle with
  | refl => exact h
  | step _ ih => exact exec_succ ih

namespace Ends

theorem unique (h : Ends body s res) (h' : Ends body s res') : res = res' := by
  rcases h with ⟨fuel, hfuel⟩
  rcases h' with ⟨fuel', hfuel'⟩
  have hl := exec_mono (Nat.le_max_left fuel fuel') hfuel
  have hr := exec_mono (Nat.le_max_right fuel fuel') hfuel'
  rw [hl] at hr
  exact Option.some.inj hr

theorem next_iff (h : body s = .ok (.inl s')) : Ends body s res ↔ Ends body s' res := by
  constructor
  . rintro ⟨fuel, hfuel⟩
    cases fuel with
    | zero => simp at hfuel
    | succ fuel =>
      rw [exec_next h] at hfuel
      exact ⟨fuel, hfuel⟩
  . rintro ⟨fuel, hfuel⟩
    exact ⟨fuel + 1, by rw [exec_next h, hfuel]⟩

theorem exit_iff (h : body s = .ok (.inr r)) : Ends body s res ↔ res = .ok r := by
  have hends : Ends body s (.ok r) := ⟨1, exec_exit h 0⟩
  constructor
  . exact fun hres => hres.unique hends
  . rintro rfl
    exact hends

theorem fail_iff (h : body s = .error e) : Ends body s res ↔ res = .error e := by
  have hends : Ends body s (.error e) := ⟨1, exec_fail h 0⟩
  constructor
  . exact fun hres => hres.unique hends
  . rintro rfl
    exact hends

theorem invariant (inv : σ → Prop)
    (hnext : ∀ s s', inv s → body s = .ok (.inl s') → inv s')
    (hs : inv s) (hends : Ends body s res)
    : ∃ t, inv t ∧
        ((∃ r, body t = .ok (.inr r) ∧ res = .ok r) ∨ (∃ e, body t = .error e ∧ res = .error e)) := by
  rcases hends with ⟨fuel, hfuel⟩
  induction fuel generalizing s with
  | zero => simp at hfuel
  | succ fuel ih =>
    cases hb : body s with
    | error e =>
      rw [exec_fail hb] at hfuel
      exact ⟨s, hs, .inr ⟨e, hb, (Option.some.inj hfuel).symm⟩⟩
    | ok next =>
      cases next with
      | inl s' =>
        rw [exec_next hb] at hfuel
        exact ih (hnext s s' hs hb) hfuel
      | inr r =>
        rw [exec_exit hb] at hfuel
        exact ⟨s, hs, .inl ⟨r, hb, (Option.some.inj hfuel).symm⟩⟩

end Ends

/--
A loop whose rounds do at least what those of another one do has its results, too.
-/
theorem exec_refines {body' : σ → Except ε (σ ⊕ ρ)} {fuel : Nat}
    (href : ∀ s next, body s = .ok next → body' s = .ok next)
    (h : exec body fuel s = some (.ok r)) : exec body' fuel s = some (.ok r) := by
  induction fuel generalizing s with
  | zero => simp at h
  | succ fuel ih =>
    cases hb : body s with
    | error e =>
      rw [exec_fail hb] at h
      simp at h
    | ok next =>
      cases next with
      | inl s' =>
        rw [exec_next hb] at h
        rw [exec_next (href _ _ hb)]
        exact ih h
      | inr r' =>
        rw [exec_exit hb] at h
        rw [exec_exit (href _ _ hb)]
        exact h

/--
Two loops whose states correspond, round by round.
-/
theorem exec_map {τ : Type} {f : σ → τ} {body' : τ → Except ε (τ ⊕ ρ)}
    (hround : ∀ s, body' (f s) = (body s).map (Sum.map f id)) (fuel : Nat) (s : σ)
    : exec body' fuel (f s) = exec body fuel s := by
  induction fuel generalizing s with
  | zero => rfl
  | succ fuel ih =>
    have hround := hround s
    cases hb : body s with
    | error e =>
      rw [hb] at hround
      rw [exec_fail hround, exec_fail hb]
    | ok next =>
      rw [hb] at hround
      cases next with
      | inl s' => rw [exec_next hround, exec_next hb, ih]
      | inr r => rw [exec_exit hround, exec_exit hb, id]

theorem exec_chain (f : Nat → σ) (n fuel : Nat) (h : ∀ i < n, body (f i) = .ok (.inl (f (i + 1))))
    : exec body (n + fuel) (f 0) = exec body fuel (f n) := by
  induction n generalizing f with
  | zero => rw [Nat.zero_add]
  | succ n ih =>
    have hfirst := h 0 (by omega)
    have hrest := ih (fun i => f (i + 1)) (fun i hi => h (i + 1) (by omega))
    rw [show n + 1 + fuel = n + fuel + 1 by omega, exec_next hfirst, hrest]

/--
Total correctness: every round from an invariant state keeps the invariant, makes the measure
smaller and carries the postcondition of the remaining rounds back to its own state.
-/
theorem exec_total (inv : σ → Prop) (measure : σ → Nat) (post : σ → ρ → Prop)
    (hround : ∀ s, inv s →
      (∃ r, body s = .ok (.inr r) ∧ post s r) ∨
      (∃ s', body s = .ok (.inl s') ∧ inv s' ∧ measure s' < measure s ∧ ∀ r, post s' r → post s r))
    (hs : inv s)
    : ∃ r, exec body (measure s + 1) s = some (.ok r) ∧ post s r := by
  induction hm : measure s using Nat.strong_induction_on generalizing s with
  | _ m ih =>
    rcases hround s hs with ⟨r, hb, hpost⟩ | ⟨s', hb, hinv, hlt, hback⟩
    . exact ⟨r, exec_exit hb m, hpost⟩
    . rcases ih (measure s') (by omega) hinv rfl with ⟨r, hexec, hpost⟩
      refine ⟨r, ?_, hback r hpost⟩
      rw [exec_next hb]
      exact exec_mono (by omega) hexec

end While
