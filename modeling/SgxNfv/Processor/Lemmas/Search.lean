import SgxNfv.Processor.Impl.Search
import SgxNfv.Processor.Lemmas.Scan

/-!
This module contains the comparison of the two searches: on which packets the one that is written
with the functions of the C library counts the same as the scan.
-/

open C

namespace Processor

/--
Where the piece ends that begins at `p`, when a packet is cut into copies of its first `n` bytes and
single bytes.
-/
def pieceEnd (data : List UInt8) (n p : Nat) : Nat := if Occurs data n p then p + n else p + 1

/--
`e` lies between two pieces when the packet is cut from `p` on.
-/
def Boundary (data : List UInt8) (n p e : Nat) : Prop := ∃ k, (pieceEnd data n)^[k] p = e

/--
In the next `n` bytes the first one of the packet does not occur.
-/
def IsGap (data : List UInt8) (n e : Nat) : Prop :=
  e + n ≤ data.length ∧ ∀ i, e ≤ i → i < e + n → data[i]? ≠ data[0]?

structure SearchComplete (data : List UInt8) (n p : Nat) : Prop where
  behind : ∀ e, Boundary data n p e → IsGap data n e → ∀ s, e ≤ s → ¬ Occurs data n s
  stops : (∃ e, Boundary data n p e ∧ IsGap data n e)
    ∨ ∃ s, Boundary data n p s ∧ Occurs data n s ∧ s + n = data.length

section

variable {data : List UInt8} {n p q e : Nat}

theorem pieceEnd_cases (data : List UInt8) (n p : Nat)
    : (Occurs data n p ∧ pieceEnd data n p = p + n)
      ∨ (¬ Occurs data n p ∧ pieceEnd data n p = p + 1) := by
  unfold pieceEnd
  split
  . next hocc => exact .inl ⟨hocc, rfl⟩
  . next hocc => exact .inr ⟨hocc, rfl⟩

theorem le_pieceEnd (data : List UInt8) (n p : Nat) : p ≤ pieceEnd data n p := by
  rcases pieceEnd_cases data n p with ⟨_, hend⟩ | ⟨_, hend⟩
  . omega
  . omega

theorem boundary_iff : Boundary data n p e ↔ e = p ∨ Boundary data n (pieceEnd data n p) e := by
  constructor
  . rintro ⟨k, hk⟩
    cases k with
    | zero => exact .inl hk.symm
    | succ k => exact .inr ⟨k, hk⟩
  . rintro (rfl | ⟨k, hk⟩)
    . exact ⟨0, rfl⟩
    . exact ⟨k + 1, hk⟩

theorem Boundary.le (h : Boundary data n p e) : p ≤ e := by
  rcases h with ⟨k, rfl⟩
  induction k generalizing p with
  | zero => exact Nat.le_refl p
  | succ k ih => exact Nat.le_trans (le_pieceEnd data n p) ih

theorem boundary_skip (hle : p ≤ q) (hnone : ∀ i, p ≤ i → i < q → ¬ Occurs data n i)
    : Boundary data n p e ↔ (p ≤ e ∧ e < q) ∨ Boundary data n q e := by
  induction q, hle using Nat.le_induction with
  | base =>
    constructor
    . exact .inr
    . rintro (h | h)
      . omega
      . exact h
  | succ q hle ih =>
    have hq : pieceEnd data n q = q + 1 := if_neg (hnone q hle (Nat.lt_succ_self q))
    rw [ih (fun i hi hlt => hnone i hi (by omega)), boundary_iff, hq]
    constructor
    . rintro (h | rfl | h)
      . exact .inl (by omega)
      . exact .inl (by omega)
      . exact .inr h
    . rintro (h | h)
      . rcases Nat.lt_or_eq_of_le (Nat.le_of_lt_succ h.2) with hlt | rfl
        . exact .inl ⟨h.1, hlt⟩
        . exact .inr (.inl rfl)
      . exact .inr (.inr h)

theorem Occurs.head (h : Occurs data n p) (hpos : 0 < n) : data[p]? = data[0]? := h.2 0 hpos

theorem boundary_candidate (hpos : 0 < n) (hle : p ≤ q)
    (hfirst : ∀ i, p ≤ i → i < q → data[i]? ≠ data[0]?)
    : Boundary data n p e ↔ (p ≤ e ∧ e ≤ q) ∨ Boundary data n (pieceEnd data n q) e := by
  rw [boundary_skip hle fun i hi hlt hocc => hfirst i hi hlt (hocc.head hpos), boundary_iff,
    ← or_assoc]
  apply or_congr_left
  omega

theorem not_isGap (hget : data[q]? = data[0]?) (hle : e ≤ q) (hlt : q < e + n)
    : ¬ IsGap data n e :=
  fun h => h.2 q hle hlt hget

theorem SearchComplete.congr
    (hgap : ∀ e, IsGap data n e → (Boundary data n p e ↔ Boundary data n q e))
    (hlast : ∀ s, Occurs data n s → s + n = data.length
      → (Boundary data n p s ↔ Boundary data n q s))
    (h : SearchComplete data n p) : SearchComplete data n q where
  behind := fun e he hisGap => h.behind e ((hgap e hisGap).mpr he) hisGap
  stops := by
    rcases h.stops with ⟨e, he, hisGap⟩ | ⟨s, hs, hocc, hend⟩
    . exact .inl ⟨e, (hgap e hisGap).mp he, hisGap⟩
    . exact .inr ⟨s, (hlast s hocc hend).mp hs, hocc, hend⟩

/--
The candidate `q` in the window behind `p` is tested next.
-/
theorem searchComplete_candidate (hpos : 0 < n) (hle : p ≤ q) (hlt : q < p + n)
    (hget : data[q]? = data[0]?) (hfirst : ∀ i, p ≤ i → i < q → data[i]? ≠ data[0]?)
    (hmore : pieceEnd data n q < data.length)
    : SearchComplete data n p ↔ SearchComplete data n (pieceEnd data n q) := by
  have hboundary : ∀ e, IsGap data n e
      → (Boundary data n p e ↔ Boundary data n (pieceEnd data n q) e) := by
    intro e hgap
    rw [boundary_candidate hpos hle hfirst, or_iff_right]
    intro h
    exact not_isGap hget h.2 (by omega) hgap
  have hlast : ∀ s, Occurs data n s → s + n = data.length
      → (Boundary data n p s ↔ Boundary data n (pieceEnd data n q) s) := by
    intro s hocc hend
    rw [boundary_candidate hpos hle hfirst, or_iff_right]
    intro h
    rcases Nat.lt_or_eq_of_le h.2 with hs | rfl
    . exact hfirst s h.1 hs (hocc.head hpos)
    . rw [pieceEnd, if_pos hocc] at hmore
      omega
  constructor
  . exact SearchComplete.congr hboundary hlast
  . apply SearchComplete.congr
    . exact fun e hgap => (hboundary e hgap).symm
    . exact fun s hocc hend => (hlast s hocc hend).symm

end

section

variable {data : List UInt8} {length : UInt32} {p count : Nat}

/--
One round stops at a gap, or tests the first candidate in the window, or leaves the packet.
-/
theorem searchBody_cases (hdata : data.length = length.toNat) (hmax : data.length ≤ intMax)
    (hpos : 0 < length.toNat / 500) (hp : p < data.length) (hcount : count ≤ p)
    : (IsGap data (length.toNat / 500) p
        ∧ searchBody data length { ptr := p, count := count } = .ok (.inr count))
      ∨ (∃ q, p ≤ q ∧ q < p + length.toNat / 500 ∧ data[q]? = data[0]?
        ∧ (∀ i, p ≤ i → i < q → data[i]? ≠ data[0]?) ∧ q + length.toNat / 500 ≤ data.length
        ∧ searchBody data length { ptr := p, count := count }
          = .ok (if data.length ≤ pieceEnd data (length.toNat / 500) q then
              .inr (count + if Occurs data (length.toNat / 500) q then 1 else 0 : Nat)
            else
              .inl {
                ptr := pieceEnd data (length.toNat / 500) q
                count := (count + if Occurs data (length.toNat / 500) q then 1 else 0 : Nat)
              }))
      ∨ (searchBody data length { ptr := p, count := count } = .error .outOfBounds
        ∧ (∀ e, p ≤ e → ¬ IsGap data (length.toNat / 500) e)
        ∧ ∀ s, p ≤ s → ¬ Occurs data (length.toNat / 500) s) := by
  have hfirst : data[0]? = some data[0] := List.getElem?_eq_getElem (by omega)
  have hload := load_natCast data 0 (by omega)
  simp only [Nat.cast_zero] at hload
  have hseq : (sequenceLen length).toNat = length.toNat / 500 := by
    rw [sequenceLen_eq, Int.toNat_natCast]
  unfold searchBody
  simp only [hload, hseq, Except.ok_bind, hfirst]
  generalize length.toNat / 500 = n at *
  rcases memchr_cases data p data[0] n (Nat.le_of_lt hp)
    with ⟨q, hmemchr, hlt, hle, hget, hnone⟩ | ⟨hmemchr, hend, hnone⟩ | ⟨hmemchr, hend, hnone⟩
  . rw [hmemchr, Except.ok_bind]
    simp only
    have hhit : addInt count 1 = .ok ((count + 1 : Nat) : Int) := addInt_one (by omega)
    rcases Nat.lt_or_ge data.length (q + n) with hout | hin
    . right
      right
      rw [memcmp_eq_error hout]
      refine ⟨rfl, ?_, ?_⟩
      . intro e hpe hgap
        have hend := hgap.1
        exact not_isGap (hget.trans hfirst.symm) (by omega) (by omega) hgap
      . intro s hps hocc
        have hend := hocc.1
        exact hnone s hps (by omega) ((hocc.head hpos).trans hfirst)
    . right
      left
      refine ⟨q, hle, hlt, hget, hnone, hin, ?_⟩
      have hiff : (∀ j < n, data[q + j]? = data[0 + j]?) ↔ Occurs data n q := by
        simp [Occurs, hin]
      rw [memcmp_ok hin (by omega)]
      simp only [Except.ok_bind, hiff, pieceEnd, hdata]
      by_cases hocc : Occurs data n q
      . simp only [hocc, decide_true, if_true, hhit, Except.ok_bind, Except.pure_eq_ok, ge_iff_le]
        rw [apply_ite Except.ok]
      . simp only [hocc, decide_false, Bool.false_eq_true, if_false, Except.ok_bind,
          Except.pure_eq_ok, ge_iff_le, Nat.add_zero]
        rw [apply_ite Except.ok]
  . left
    rw [hmemchr]
    refine ⟨⟨hend, ?_⟩, rfl⟩
    rw [hfirst]
    exact hnone
  . right
    right
    rw [hmemchr]
    refine ⟨rfl, ?_, ?_⟩
    . intro e hpe hgap
      have hend' := hgap.1
      omega
    . intro s hps hocc
      exact hnone s hps ((hocc.head hpos).trans hfirst)

theorem isOptimum_candidate {n q k : Nat} (hpos : 0 < n) (hle : p ≤ q)
    (hfirst : ∀ i, p ≤ i → i < q → data[i]? ≠ data[0]?)
    (hopt : Packing.IsOptimum (Occurs data n) (· + n) (pieceEnd data n q) k)
    : Packing.IsOptimum (Occurs data n) (· + n) p (k + if Occurs data n q then 1 else 0) := by
  apply Packing.IsOptimum.skip hle
  . exact fun i hi hlt hocc => hfirst i hi hlt (hocc.head hpos)
  . unfold pieceEnd at hopt
    by_cases hocc : Occurs data n q
    . rw [if_pos hocc] at hopt ⊢
      apply Packing.IsOptimum.take
      . exact fun a b hab => Nat.add_le_add_right hab n
      . exact hocc
      . exact Nat.lt_add_of_pos_right hpos
      . exact hopt
    . rw [if_neg hocc] at hopt ⊢
      apply Packing.IsOptimum.skip (Nat.le_succ q)
      . intro i hi hlt
        rwa [show i = q by omega]
      . exact hopt

theorem occurs_of_exit {n q : Nat} (hpos : 0 < n) (hget : data[q]? = data[0]?)
    (hin : q + n ≤ data.length) (hexit : data.length ≤ pieceEnd data n q) : Occurs data n q := by
  by_contra hocc
  rw [pieceEnd, if_neg hocc] at hexit
  refine hocc ⟨hin, ?_⟩
  intro j hj
  rw [show j = 0 by omega]
  exact hget

theorem ends_iff_complete (hdata : data.length = length.toNat) (hmax : data.length ≤ intMax)
    (hpos : 0 < length.toNat / 500) {k : Nat} (hp : p < data.length) (hcount : count ≤ p)
    (hopt : Packing.IsOptimum (Occurs data (length.toNat / 500)) (· + length.toNat / 500) p k)
    : While.Ends (searchBody data length) { ptr := p, count := count } (.ok (count + k : Nat))
        ↔
      SearchComplete data (length.toNat / 500) p := by
  have hself : ∀ e, Boundary data (length.toNat / 500) e e := fun e => boundary_iff.mpr (.inl rfl)
  -- The induction is on the rest of the packet, which gets shorter with every candidate.
  induction hm : data.length - p using Nat.strong_induction_on generalizing p count k with
  | _ m ih =>
    rcases searchBody_cases hdata hmax hpos hp hcount
      with ⟨hgap, hbody⟩ | ⟨q, hle, hlt, hget, hfirst, hin, hbody⟩ | ⟨hbody, hnoGap, hnone⟩
    . rw [While.Ends.exit_iff hbody]
      constructor
      . intro h
        have hzero : k = 0 := by
          have := Except.ok.inj h
          omega
        rw [hzero, Packing.IsOptimum.zero_iff] at hopt
        exact ⟨fun e he _ s hs => hopt s (he.le.trans hs), .inl ⟨p, hself p, hgap⟩⟩
      . intro h
        have hzero : k = 0 := hopt.unique (Packing.IsOptimum.none (h.behind p (hself p) hgap))
        rw [hzero, Nat.add_zero]
    . have hcases := pieceEnd_cases data (length.toNat / 500) q
      have hend : pieceEnd data (length.toNat / 500) q ≤ length.toNat := by omega
      rcases exists_isOptimum hdata hmax hpos hend with ⟨k', hopt'⟩
      have hk := hopt.unique (isOptimum_candidate hpos hle hfirst hopt')
      by_cases hexit : data.length ≤ pieceEnd data (length.toNat / 500) q
      . have hocc := occurs_of_exit hpos hget hin hexit
        rw [if_pos hexit, if_pos hocc] at hbody
        have hzero : k' = 0 := by
          apply hopt'.unique
          apply Packing.IsOptimum.none
          intro s hs hocc'
          have := hocc'.1
          omega
        have hlast : q + length.toNat / 500 = data.length := by
          rw [pieceEnd, if_pos hocc] at hexit
          omega
        rw [While.Ends.exit_iff hbody, hk, if_pos hocc, hzero, Nat.zero_add]
        refine iff_of_true rfl ⟨?_, .inr ⟨q, ?_, hocc, hlast⟩⟩
        . intro e he hgap
          rcases (boundary_candidate hpos hle hfirst).mp he with h | h
          . exact absurd hgap (not_isGap hget h.2 (by omega))
          . have := h.le
            have := hgap.1
            omega
        . exact (boundary_candidate hpos hle hfirst).mpr (.inl ⟨hle, Nat.le_refl q⟩)
      . rw [if_neg hexit] at hbody
        have hmore : pieceEnd data (length.toNat / 500) q < data.length := by omega
        have hcount' : (count + if Occurs data (length.toNat / 500) q then 1 else 0)
            ≤ pieceEnd data (length.toNat / 500) q := by
          split
          . omega
          . omega
        have hshorter : data.length - pieceEnd data (length.toNat / 500) q < m := by omega
        have hnext := ih _ hshorter hmore hcount' hopt' rfl
        have hsum : count + k = count + (if Occurs data (length.toNat / 500) q then 1 else 0) + k' := by
          omega
        rw [While.Ends.next_iff hbody, searchComplete_candidate hpos hle hlt hget hfirst hmore, hsum]
        exact hnext
    . rw [While.Ends.fail_iff hbody]
      constructor
      . intro h
        simp at h
      . intro h
        rcases h.stops with ⟨e, he, hgap⟩ | ⟨s, hs, hocc, _⟩
        . exact absurd hgap (hnoGap e he.le)
        . exact absurd hocc (hnone s hs.le)

/--
Both searches end with one count, without a read behind the packet.
-/
def Agrees (data : List UInt8) (length : UInt32) : Prop :=
  ∃ fuel count, callProcessPacketNoSgx fuel data length = some (.ok count)
    ∧ callProcessPacketNoSgxTest fuel data length = some (.ok count)

theorem agrees_iff_ends (hdata : data.length = length.toNat) (hmax : data.length ≤ intMax)
    (hpos : 0 < length.toNat / 500)
    : ∃ k : Nat, Packing.IsOptimum (Occurs data (length.toNat / 500)) (· + length.toNat / 500) 0 k
        ∧ (Agrees data length
          ↔ While.Ends (searchBody data length) { ptr := 0, count := 0 } (.ok k)) := by
  rcases scan_exec hdata hmax hpos with ⟨k, hscan, hopt⟩
  refine ⟨k, hopt, ?_, ?_⟩
  . rintro ⟨fuel, count, hsearch, hscan'⟩
    have hres := While.Ends.unique ⟨fuel, hscan'⟩ ⟨_, hscan⟩
    rw [← hres]
    exact ⟨fuel, hsearch⟩
  . rintro ⟨fuel, hsearch⟩
    refine ⟨max fuel (length.toNat + 2), k, ?_, ?_⟩
    . exact While.exec_mono (Nat.le_max_left _ _) hsearch
    . exact While.exec_mono (Nat.le_max_right _ _) hscan

end

theorem callProcessPacketNoSgx_agrees_iff (data : List UInt8) (length : UInt32)
    (hdata : data.length = length.toNat) (hmin : 500 ≤ length.toNat) (hmax : data.length ≤ intMax)
    : Agrees data length ↔ SearchComplete data (length.toNat / 500) 0 := by
  rcases agrees_iff_ends hdata hmax (by omega) with ⟨k, hopt, hagrees⟩
  have hcomplete := @ends_iff_complete data length 0 0 hdata hmax (by omega) k (by omega)
    (Nat.le_refl 0) hopt
  rw [Nat.zero_add] at hcomplete
  exact hagrees.trans hcomplete

theorem callProcessPacketNoSgx_agrees_iff_zeros
    : Agrees (List.replicate 1000 0) 1000 ↔ SearchComplete (List.replicate 1000 0) 2 0 :=
  callProcessPacketNoSgx_agrees_iff (List.replicate 1000 0) 1000 List.length_replicate (by decide)
    (by rw [List.length_replicate]; decide)

theorem not_agrees_gap : ¬ Agrees (1 :: 2 :: List.replicate 498 1) 500 := by
  have hdata : (1 :: 2 :: List.replicate 498 (1 : UInt8)).length = (500 : UInt32).toNat := by
    rw [List.length_cons, List.length_cons, List.length_replicate]
    rfl
  have hmax : (1 :: 2 :: List.replicate 498 (1 : UInt8)).length ≤ intMax := by
    rw [hdata]
    decide
  rcases agrees_iff_ends hdata hmax (by decide) with ⟨k, hopt, hagrees⟩
  rw [hagrees]
  intro hends
  have hcomplete := (@ends_iff_complete _ 500 0 0 hdata hmax (by decide) k (by rw [hdata]; decide)
    (Nat.le_refl 0) hopt).mp (by rwa [Nat.zero_add])
  have hn : (500 : UInt32).toNat / 500 = 1 := rfl
  rw [hn] at hcomplete
  -- The byte 2 is a gap, but behind it the searched byte 1 occurs again.
  have hboundary : Boundary (1 :: 2 :: List.replicate 498 1) 1 0 1 := by
    refine boundary_iff.mpr (.inr (boundary_iff.mpr (.inl ?_)))
    rw [pieceEnd, ite_self]
  have hgap : IsGap (1 :: 2 :: List.replicate 498 1) 1 1 := by
    refine ⟨by rw [hdata]; decide, ?_⟩
    intro i hi hlt
    rw [show i = 1 by omega]
    decide
  have hocc : Occurs (1 :: 2 :: List.replicate 498 1) 1 2 := by
    refine ⟨by rw [hdata]; decide, ?_⟩
    intro j hj
    rw [show j = 0 by omega]
    rfl
  exact hcomplete.behind 1 hboundary hgap 2 (by decide) hocc

end Processor
