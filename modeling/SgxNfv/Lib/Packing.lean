import Mathlib.Data.Finset.Max
import Mathlib.Order.Bounds.Basic
import Mathlib.Tactic.Common

/-!
This module contains the theory of largest sets of pairwise disjoint intervals. An interval is
given by its start, all intervals with one start end at the same place.
-/

namespace Packing

variable {α : Type*} [LinearOrder α]

/--
`S` selects disjoint intervals `[s, stop s)` that are `good` and start at `lo` or later.
-/
structure IsPacking (good : α → Prop) (stop : α → α) (lo : α) (S : Finset α) : Prop where
  good : ∀ s ∈ S, good s
  lower : ∀ s ∈ S, lo ≤ s
  disjoint : ∀ s ∈ S, ∀ t ∈ S, s < t → stop s ≤ t

def IsOptimum (good : α → Prop) (stop : α → α) (lo : α) (k : Nat) : Prop :=
  IsGreatest { n | ∃ S, IsPacking good stop lo S ∧ S.card = n } k

variable {good : α → Prop} {stop : α → α} {lo lo' : α} {S : Finset α} {k : Nat}

theorem IsPacking.mono (h : IsPacking good stop lo' S) (hle : lo ≤ lo')
    : IsPacking good stop lo S where
  good := h.good
  lower := fun s hs => le_trans hle (h.lower s hs)
  disjoint := h.disjoint

theorem IsPacking.raise (h : IsPacking good stop lo S) (hnone : ∀ s, lo ≤ s → s < lo' → ¬ good s)
    : IsPacking good stop lo' S where
  good := h.good
  lower := by
    intro s hs
    by_contra hlt
    exact hnone s (h.lower s hs) (not_le.mp hlt) (h.good s hs)
  disjoint := h.disjoint

theorem IsPacking.erase_min (hmono : Monotone stop) (h : IsPacking good stop lo S)
    (hne : S.Nonempty)
    : IsPacking good stop (stop lo) (S.erase (S.min' hne)) where
  good := fun s hs => h.good s (Finset.mem_of_mem_erase hs)
  lower := by
    intro s hs
    have hmin : S.min' hne ∈ S := S.min'_mem hne
    have hlt : S.min' hne < s := S.min'_lt_of_mem_erase_min' hne hs
    calc
      stop lo ≤ stop (S.min' hne) := hmono (h.lower _ hmin)
      _ ≤ s := h.disjoint _ hmin s (Finset.mem_of_mem_erase hs) hlt
  disjoint := fun s hs t ht =>
    h.disjoint s (Finset.mem_of_mem_erase hs) t (Finset.mem_of_mem_erase ht)

theorem IsPacking.insert (h : IsPacking good stop (stop lo) S) (hgood : good lo)
    (hlt : lo < stop lo)
    : IsPacking good stop lo (insert lo S) where
  good := by
    intro s hs
    rcases Finset.mem_insert.mp hs with rfl | hs
    . exact hgood
    . exact h.good s hs
  lower := by
    intro s hs
    rcases Finset.mem_insert.mp hs with rfl | hs
    . exact le_refl _
    . exact le_trans hlt.le (h.lower s hs)
  disjoint := by
    intro s hs t ht hst
    rcases Finset.mem_insert.mp hs with rfl | hs
    . rcases Finset.mem_insert.mp ht with rfl | ht
      . exact absurd hst (lt_irrefl _)
      . exact h.lower t ht
    . rcases Finset.mem_insert.mp ht with heq | ht
      . have hle := h.lower s hs
        rw [heq] at hst
        exact absurd (lt_trans hst hlt) (not_lt.mpr hle)
      . exact h.disjoint s hs t ht hst

namespace IsOptimum

theorem none (hnone : ∀ s, lo ≤ s → ¬ good s) : IsOptimum good stop lo 0 := by
  constructor
  . refine ⟨∅, ⟨?_, ?_, ?_⟩, rfl⟩
    all_goals simp
  . rintro n ⟨S, hS, rfl⟩
    have hempty : S = ∅ := by
      apply Finset.eq_empty_of_forall_notMem
      intro s hs
      exact hnone s (hS.lower s hs) (hS.good s hs)
    simp [hempty]

theorem zero_iff : IsOptimum good stop lo 0 ↔ ∀ s, lo ≤ s → ¬ good s := by
  constructor
  . intro h s hlo hgood
    have hsingle : IsPacking good stop lo {s} := by
      refine ⟨?_, ?_, ?_⟩
      all_goals simp [hgood, hlo]
    have hle := h.2 ⟨{s}, hsingle, rfl⟩
    simp at hle
  . exact none

theorem skip (hle : lo ≤ lo') (hnone : ∀ s, lo ≤ s → s < lo' → ¬ good s)
    (h : IsOptimum good stop lo' k)
    : IsOptimum good stop lo k := by
  rcases h with ⟨⟨S, hS, hcard⟩, hub⟩
  constructor
  . exact ⟨S, hS.mono hle, hcard⟩
  . rintro n ⟨T, hT, rfl⟩
    exact hub ⟨T, hT.raise hnone, rfl⟩

/--
Exchange step: when an interval starts right at `lo`, taking it is optimal.
-/
theorem take (hmono : Monotone stop) (hgood : good lo) (hlt : lo < stop lo)
    (h : IsOptimum good stop (stop lo) k)
    : IsOptimum good stop lo (k + 1) := by
  rcases h with ⟨⟨S, hS, hcard⟩, hub⟩
  constructor
  . refine ⟨Insert.insert lo S, hS.insert hgood hlt, ?_⟩
    have hnotMem : lo ∉ S := fun hmem => absurd hlt (not_lt.mpr (hS.lower lo hmem))
    rw [Finset.card_insert_of_notMem hnotMem, hcard]
  . rintro n ⟨T, hT, rfl⟩
    rcases T.eq_empty_or_nonempty with rfl | hne
    . simp
    . have hle : (T.erase (T.min' hne)).card ≤ k := hub ⟨_, hT.erase_min hmono hne, rfl⟩
      rw [Finset.card_erase_of_mem (T.min'_mem hne)] at hle
      omega

end IsOptimum
end Packing
