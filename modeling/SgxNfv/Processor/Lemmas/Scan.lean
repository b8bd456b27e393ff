import SgxNfv.Lib.Packing
import SgxNfv.Processor.Impl.Scan
import Mathlib.Data.Nat.Dist

/-!
This module contains the verification of the packet scan: when it terminates, and that it counts
the largest number of disjoint occurrences of the searched sequence.
-/

open C

namespace Processor

def Occurs (data : List UInt8) (n s : Nat) : Prop :=
  s + n ≤ data.length ∧ ∀ j < n, data[s + j]? = data[j]?

instance (data : List UInt8) (n s : Nat) : Decidable (Occurs data n s) :=
  inferInstanceAs (Decidable (_ ∧ _))

theorem occurs_zero {data : List UInt8} {n : Nat} (h : n ≤ data.length) : Occurs data n 0 := by
  constructor
  . omega
  . intro j _
    rw [Nat.zero_add]

theorem sequenceLen_eq (length : UInt32) : sequenceLen length = (length.toNat / 500 : Nat) := by
  unfold sequenceLen
  rw [← Rat.intCast_natCast, Rat.ceil_intCast]
  simp

theorem matchSequence_eq (data : List UInt8) (index n i : Nat)
    (hrange : index + i + n ≤ data.length) (hmax : data.length ≤ intMax)
    : matchSequence data index n i
        =
      .ok (decide (∀ j < n, data[index + i + j]? = data[i + j]?)) := by
  induction n generalizing i with
  | zero => simp [matchSequence]
  | succ n ih =>
    have hlhs : i < data.length := by omega
    have hrhs : index + i < data.length := by omega
    have hadd : addInt index i = .ok ((index + i : Nat) : Int) := addInt_natCast (by omega)
    have hnext := ih (i + 1) (by omega)
    simp only [matchSequence, load_natCast _ _ hlhs, hadd, load_natCast _ _ hrhs, Except.ok_bind]
    split
    . next hne =>
      have : ¬ ∀ j < n + 1, data[index + i + j]? = data[i + j]? := by
        intro hall
        have h0 := hall 0 (by omega)
        simp only [Nat.add_zero, List.getElem?_eq_getElem hlhs, List.getElem?_eq_getElem hrhs] at h0
        exact hne (Option.some.inj h0).symm
      rw [decide_eq_false this, Except.pure_eq_ok]
    . next heq =>
      rw [not_not] at heq
      rw [← Nat.cast_succ, hnext]
      congr 2
      rw [eq_iff_iff, Nat.forall_lt_succ_left]
      have h0 : data[index + i + 0]? = data[i + 0]? := by
        simpa [List.getElem?_eq_getElem hlhs, List.getElem?_eq_getElem hrhs] using heq.symm
      simp only [h0, true_and]
      apply forall₂_congr
      intro j _
      rw [show index + i + (j + 1) = index + (i + 1) + j by omega,
        show i + (j + 1) = i + 1 + j by omega]

theorem index_le_iff (length : UInt32) (index : Nat) (hindex : (index : Int) ≤ intMax)
    : toUnsigned index ≤ length - toUnsigned (sequenceLen length)
        ↔
      index + length.toNat / 500 ≤ length.toNat := by
  have hlength := length.toNat_lt
  have hseq : (toUnsigned (sequenceLen length)).toNat = length.toNat / 500 := by
    rw [sequenceLen_eq, toUnsigned_of_range]
    . exact Int.toNat_natCast _
    . omega
    . simp only [intMax]; omega
  have hidx : (toUnsigned (index : Int)).toNat = index := by
    rw [toUnsigned_of_range]
    . simp
    . omega
    . exact hindex
  rw [UInt32.le_iff_toNat_le, UInt32.toNat_sub_of_le, hseq, hidx]
  . omega
  . rw [UInt32.le_iff_toNat_le, hseq]
    omega

section

variable {data : List UInt8} {length : UInt32} {index count : Nat}

theorem scanBody_exit (hindex : (index : Int) ≤ intMax)
    (hexit : length.toNat < index + length.toNat / 500)
    : scanBody data length { index := index, count := count } = .ok (.inr count) := by
  unfold scanBody
  rw [if_neg]
  . rfl
  . rw [index_le_iff length index hindex]
    omega

theorem scanBody_round (hdata : data.length = length.toNat) (hmax : data.length ≤ intMax)
    (hpos : 0 < length.toNat / 500) (hround : index + length.toNat / 500 ≤ length.toNat)
    (hcount : count < index + 1)
    : scanBody data length { index := index, count := count }
        =
      .ok (.inl (if Occurs data (length.toNat / 500) index then
        { index := (index + length.toNat / 500 : Nat), count := (count + 1 : Nat) }
      else
        { index := (index + 1 : Nat), count := count })) := by
  have hlhs : 0 < data.length := by omega
  have hrhs : index < data.length := by omega
  have hmatch := matchSequence_eq data index (length.toNat / 500) 0 (by omega) hmax
  have hincr : addInt index 1 = .ok ((index + 1 : Nat) : Int) := addInt_one (by omega)
  have hjump : addInt index ((length.toNat / 500 : Nat) : Int)
      = .ok ((index + length.toNat / 500 : Nat) : Int) := addInt_natCast (by omega)
  have hhit : addInt count 1 = .ok ((count + 1 : Nat) : Int) := addInt_one (by omega)
  unfold scanBody
  rw [if_pos ((index_le_iff length index (by omega)).mpr hround)]
  rw [show (0 : Int) = ((0 : Nat) : Int) from rfl]
  rw [load_natCast _ _ hlhs, load_natCast _ _ hrhs, sequenceLen_eq]
  simp only [Except.ok_bind]
  split
  . next hne =>
    have : ¬ Occurs data (length.toNat / 500) index := by
      rintro ⟨_, hall⟩
      have h0 := hall 0 hpos
      simp only [Nat.add_zero, List.getElem?_eq_getElem hlhs, List.getElem?_eq_getElem hrhs] at h0
      exact hne (Option.some.inj h0).symm
    simp [this, hincr]
  . simp only [Int.toNat_natCast, hmatch, Except.ok_bind]
    have hiff : (∀ j < length.toNat / 500, data[index + 0 + j]? = data[0 + j]?)
        ↔ Occurs data (length.toNat / 500) index := by
      simp [Occurs, hdata, hround]
    simp only [hiff, decide_eq_true_eq]
    split
    . simp only [hhit, hjump, Except.ok_bind, Except.pure_eq_ok]
    . simp only [hincr, Except.ok_bind, Except.pure_eq_ok]

end

def ScanInv (length : UInt32) (s : ScanState) : Prop :=
  ∃ index count : Nat,
    s = { index := index, count := count } ∧ count ≤ index ∧ index ≤ length.toNat

def scanMeasure (length : UInt32) (s : ScanState) : Nat := length.toNat + 1 - s.index.toNat

/--
From `s` on the scan adds the size of a largest packing of the occurrences at `index` or later.
-/
def ScanPost (data : List UInt8) (n : Nat) (s : ScanState) (r : Int) : Prop :=
  ∃ k : Nat, r = s.count + k ∧ Packing.IsOptimum (Occurs data n) (· + n) s.index.toNat k

section

variable {data : List UInt8} {length : UInt32}

theorem ScanPost.exit {n index count : Nat} (h : data.length < index + n)
    : ScanPost data n { index := index, count := count } count := by
  refine ⟨0, by simp, Packing.IsOptimum.none ?_⟩
  rintro s hlo ⟨hhi, _⟩
  simp only [Int.toNat_natCast] at hlo
  omega

theorem ScanPost.hit {n index count : Nat} {r : Int} (hpos : 0 < n) (hocc : Occurs data n index)
    (h : ScanPost data n { index := (index + n : Nat), count := (count + 1 : Nat) } r)
    : ScanPost data n { index := index, count := count } r := by
  rcases h with ⟨k, rfl, hopt⟩
  refine ⟨k + 1, ?_, ?_⟩
  . push_cast
    omega
  . apply Packing.IsOptimum.take
    . exact fun a b hab => Nat.add_le_add_right hab n
    . exact hocc
    . exact Nat.lt_add_of_pos_right hpos
    . exact hopt

theorem ScanPost.miss {n index count : Nat} {r : Int} (hocc : ¬ Occurs data n index)
    (h : ScanPost data n { index := (index + 1 : Nat), count := count } r)
    : ScanPost data n { index := index, count := count } r := by
  rcases h with ⟨k, rfl, hopt⟩
  refine ⟨k, rfl, Packing.IsOptimum.skip (Nat.le_succ index) ?_ hopt⟩
  intro s hlo hhi
  have : s = index := by
    simp only [Int.toNat_natCast] at hlo
    omega
  rw [this]
  exact hocc

theorem scanBody_step (hdata : data.length = length.toNat) (hmax : data.length ≤ intMax)
    (hpos : 0 < length.toNat / 500) (s : ScanState) (hinv : ScanInv length s)
    : (∃ r, scanBody data length s = .ok (.inr r) ∧ ScanPost data (length.toNat / 500) s r) ∨
      (∃ s', scanBody data length s = .ok (.inl s') ∧ ScanInv length s'
        ∧ scanMeasure length s' < scanMeasure length s
        ∧ ∀ r, ScanPost data (length.toNat / 500) s' r → ScanPost data (length.toNat / 500) s r) := by
  rcases hinv with ⟨index, count, rfl, hcount, hindex⟩
  -- `index` grows faster than `count`, so the bound on it covers both additions.
  by_cases hlast : index + length.toNat / 500 ≤ length.toNat
  . refine .inr ⟨_, scanBody_round hdata hmax hpos hlast (by omega), ?_⟩
    split
    . next hocc =>
      refine ⟨⟨_, _, rfl, by omega, by omega⟩, ?_, fun r => ScanPost.hit hpos hocc⟩
      simp only [scanMeasure, Int.toNat_natCast]
      omega
    . next hocc =>
      refine ⟨⟨_, _, rfl, by omega, by omega⟩, ?_, fun r => ScanPost.miss hocc⟩
      simp only [scanMeasure, Int.toNat_natCast]
      omega
  . exact .inl ⟨count, scanBody_exit (by omega) (by omega), ScanPost.exit (by omega)⟩

theorem scan_exec (hdata : data.length = length.toNat) (hmax : data.length ≤ intMax)
    (hpos : 0 < length.toNat / 500)
    : ∃ k : Nat,
        scan (length.toNat + 2) data length = some (.ok k)
        ∧ Packing.IsOptimum (Occurs data (length.toNat / 500)) (· + length.toNat / 500) 0 k := by
  have hinit : ScanInv length { index := 0, count := 0 } := ⟨0, 0, rfl, le_refl _, Nat.zero_le _⟩
  rcases While.exec_total (ScanInv length) (scanMeasure length) (ScanPost data (length.toNat / 500))
    (scanBody_step hdata hmax hpos) hinit with ⟨r, hexec, k, rfl, hopt⟩
  refine ⟨k, ?_, hopt⟩
  simpa [scanMeasure, scan] using hexec

theorem exists_isOptimum (hdata : data.length = length.toNat) (hmax : data.length ≤ intMax)
    (hpos : 0 < length.toNat / 500) {lo : Nat} (hlo : lo ≤ length.toNat)
    : ∃ k, Packing.IsOptimum (Occurs data (length.toNat / 500)) (· + length.toNat / 500) lo k := by
  have hinit : ScanInv length { index := lo, count := (0 : Nat) } :=
    ⟨lo, 0, rfl, Nat.zero_le lo, hlo⟩
  rcases While.exec_total (ScanInv length) (scanMeasure length) (ScanPost data (length.toNat / 500))
    (scanBody_step hdata hmax hpos) hinit with ⟨r, _, k, _, hopt⟩
  exact ⟨k, hopt⟩

theorem scanBody_short (hpos : 0 < data.length) (hshort : length.toNat < 500) (count : Int)
    : scanBody data length { index := 0, count := count }
        =
      (addInt count 1).map (fun count => .inl { index := 0, count := count }) := by
  -- The searched sequence is empty, so that it is found again and again without moving on.
  have hseq : sequenceLen length = 0 := by
    rw [sequenceLen_eq]
    omega
  have hle := (index_le_iff length 0 (by decide)).mpr (by omega)
  simp only [Nat.cast_zero] at hle
  have hload := load_natCast data 0 hpos
  simp only [Nat.cast_zero] at hload
  have hjump : addInt 0 0 = .ok 0 := by decide
  unfold scanBody
  rw [if_pos hle, hload, hseq]
  simp only [Except.ok_bind, ne_eq, not_true_eq_false, ↓reduceIte, Int.toNat_zero, matchSequence,
    Except.pure_eq_ok, hjump]
  cases addInt count 1 with
  | error e => rfl
  | ok count => rfl

theorem scan_short (hpos : 0 < data.length) (hshort : length.toNat < 500) (fuel : Nat) (r : Int)
    : scan fuel data length ≠ some (.ok r) := by
  intro hscan
  -- With `index` at 0 in every round the loop is only left by the overflow of `count`.
  have hnext : ∀ s s' : ScanState, s.index = 0 → scanBody data length s = .ok (.inl s')
      → s'.index = 0 := by
    rintro ⟨index, count⟩ s' rfl hbody
    rw [scanBody_short hpos hshort] at hbody
    cases hadd : addInt count 1 with
    | error e => simp [hadd, Except.map] at hbody
    | ok count' =>
      simp only [hadd, Except.map, Except.ok.injEq, Sum.inl.injEq] at hbody
      rw [← hbody]
  rcases While.Ends.invariant (fun s : ScanState => s.index = 0) hnext rfl ⟨fuel, hscan⟩
    with ⟨⟨index, count⟩, rfl, ⟨r', hbody, _⟩ | ⟨e, _, hres⟩⟩
  . rw [scanBody_short hpos hshort] at hbody
    cases hadd : addInt count 1 with
    | error e => simp [hadd, Except.map] at hbody
    | ok count' => simp [hadd, Except.map] at hbody
  . simp at hres

end

theorem matchSequence_append {data : List UInt8} {index i : Int} {n : Nat} {found : Bool}
    (rest : List UInt8) (h : matchSequence data index n i = .ok found)
    : matchSequence (data ++ rest) index n i = .ok found := by
  induction n generalizing i with
  | zero => exact h
  | succ n ih =>
    simp only [matchSequence] at h ⊢
    rcases Except.bind_eq_ok.mp h with ⟨lhs, hlhs, h⟩
    rcases Except.bind_eq_ok.mp h with ⟨off, hoff, h⟩
    rcases Except.bind_eq_ok.mp h with ⟨rhs, hrhs, h⟩
    rw [load_append rest hlhs, Except.ok_bind, hoff, Except.ok_bind, load_append rest hrhs,
      Except.ok_bind]
    split
    . next hne => rwa [if_pos hne] at h
    . next heq =>
      rw [if_neg heq] at h
      exact ih h

theorem scanBody_append {data : List UInt8} {length : UInt32} {s : ScanState}
    {next : ScanState ⊕ Int} (rest : List UInt8) (h : scanBody data length s = .ok next)
    : scanBody (data ++ rest) length s = .ok next := by
  unfold scanBody at h ⊢
  split
  . next hround =>
    rw [if_pos hround] at h
    rcases Except.bind_eq_ok.mp h with ⟨lhs, hlhs, h⟩
    rcases Except.bind_eq_ok.mp h with ⟨rhs, hrhs, h⟩
    rw [load_append rest hlhs, Except.ok_bind, load_append rest hrhs, Except.ok_bind]
    split
    . next hne => rwa [if_pos hne] at h
    . next heq =>
      rw [if_neg heq] at h
      rcases Except.bind_eq_ok.mp h with ⟨found, hfound, h⟩
      rw [matchSequence_append rest hfound]
      exact h
  . next hexit => rwa [if_neg hexit] at h

theorem scan_append {data : List UInt8} {length : UInt32} {fuel : Nat} {count : Int}
    (rest : List UInt8) (h : scan fuel data length = some (.ok count))
    : scan fuel (data ++ rest) length = some (.ok count) :=
  While.exec_refines (fun _ _ => scanBody_append rest) h

def scanCount (data : List UInt8) : Int :=
  match scan (data.length + 2) data (UInt32.ofNat data.length) with
  | some (.ok count) => count
  | _ => 0

/--
A packet contains the searched sequence at its very start, and every occurrence takes a byte.
-/
theorem scan_eq_scanCount {data : List UInt8} {length : UInt32} {fuel : Nat}
    (hdata : data.length = length.toNat) (hmin : 500 ≤ length.toNat) (hmax : data.length ≤ intMax)
    (hfuel : length.toNat + 2 ≤ fuel)
    : scan fuel data length = some (.ok (scanCount data))
      ∧ 1 ≤ scanCount data ∧ scanCount data ≤ intMax := by
  rcases scan_exec hdata hmax (by omega) with ⟨count, hexec, hopt⟩
  have hcount : scanCount data = count := by
    unfold scanCount
    rw [hdata, UInt32.ofNat_toNat, hexec]
  -- The sequence is the start of the packet itself.
  have hpos : 1 ≤ count := by
    apply hopt.2
    refine ⟨{0}, ⟨?_, ?_, ?_⟩, by simp⟩
    . intro s hs
      rw [Finset.mem_singleton.mp hs]
      exact occurs_zero (by omega)
    . intro s _
      exact Nat.zero_le s
    . intro s hs t ht hlt
      rw [Finset.mem_singleton.mp hs, Finset.mem_singleton.mp ht] at hlt
      omega
  have hle : count ≤ data.length := by
    rcases hopt.1 with ⟨S, hS, rfl⟩
    have hsub : S ⊆ Finset.range data.length := by
      intro s hs
      rw [Finset.mem_range]
      have := (hS.good s hs).1
      omega
    simpa using Finset.card_le_card hsub
  rw [hcount]
  exact ⟨While.exec_mono hfuel hexec, by omega, by omega⟩

/--
`S` selects occurrences of the first `n` bytes, any two of them at distance at least `n`.
-/
def IsSelection (data : List UInt8) (n : Nat) (S : Finset Nat) : Prop :=
  (∀ s ∈ S, Occurs data n s) ∧ ∀ s ∈ S, ∀ t ∈ S, s ≠ t → n ≤ Nat.dist s t

theorem isSelection_iff_isPacking (data : List UInt8) (n : Nat) (S : Finset Nat)
    : IsSelection data n S ↔ Packing.IsPacking (Occurs data n) (· + n) 0 S := by
  constructor
  . rintro ⟨hocc, hdist⟩
    refine ⟨hocc, fun s _ => Nat.zero_le s, ?_⟩
    intro s hs t ht hlt
    have hle := hdist s hs t ht (Nat.ne_of_lt hlt)
    rw [Nat.dist_eq_sub_of_le (Nat.le_of_lt hlt)] at hle
    omega
  . intro h
    refine ⟨h.good, ?_⟩
    intro s hs t ht hne
    cases Nat.lt_or_gt_of_ne hne with
    | inl hlt =>
      have hle := h.disjoint s hs t ht hlt
      rw [Nat.dist_eq_sub_of_le (Nat.le_of_lt hlt)]
      omega
    | inr hlt =>
      have hle := h.disjoint t ht s hs hlt
      rw [Nat.dist_eq_sub_of_le_right (Nat.le_of_lt hlt)]
      omega

theorem ecallProcessPacket_optimal (data : List UInt8) (length : UInt32)
    (hdata : data.length = length.toNat) (hmin : 500 ≤ length.toNat) (hmax : data.length ≤ intMax)
    : ∃ count : Nat,
        (∀ fuel, length.toNat + 2 ≤ fuel →
          ecallProcessPacket fuel data length = some (.ok count)
          ∧ callProcessPacketNoSgxTest fuel data length = some (.ok count))
        ∧ IsGreatest { k | ∃ S, IsSelection data (length.toNat / 500) S ∧ S.card = k } count := by
  rcases scan_exec hdata hmax (by omega) with ⟨count, hexec, hopt⟩
  refine ⟨count, ?_, ?_⟩
  . intro fuel hfuel
    have := While.exec_mono hfuel hexec
    exact ⟨this, this⟩
  . simp only [isSelection_iff_isPacking]
    exact hopt

theorem ecallProcessPacket_optimal_zeros
    : ∃ count : Nat,
        (∀ fuel, 1002 ≤ fuel →
          ecallProcessPacket fuel (List.replicate 1000 0) 1000 = some (.ok count)
          ∧ callProcessPacketNoSgxTest fuel (List.replicate 1000 0) 1000 = some (.ok count))
        ∧ IsGreatest { k | ∃ S, IsSelection (List.replicate 1000 0) 2 S ∧ S.card = k } count :=
  ecallProcessPacket_optimal (List.replicate 1000 0) 1000 List.length_replicate (by decide)
    (by rw [List.length_replicate]; decide)

/--
The search ends: no load leaves `data`, no `int` overflows.
-/
def ScanEnds (search : Nat → List UInt8 → UInt32 → Option (Except Fault Int)) (data : List UInt8)
    (length : UInt32) : Prop :=
  ∃ fuel count, search fuel data length = some (.ok count)

theorem ecallProcessPacket_ends_iff (data : List UInt8) (length : UInt32)
    (hdata : data.length = length.toNat) (hmin : 1 ≤ length.toNat) (hmax : data.length ≤ intMax)
    : (ScanEnds ecallProcessPacket data length ∧ ScanEnds callProcessPacketNoSgxTest data length)
        ↔
      500 ≤ length.toNat := by
  constructor
  . rintro ⟨⟨fuel, count, hexec⟩, _⟩
    by_contra hshort
    exact scan_short (by omega) (by omega) fuel count hexec
  . intro hlong
    rcases scan_exec hdata hmax (by omega) with ⟨count, hexec, _⟩
    exact ⟨⟨_, _, hexec⟩, ⟨_, _, hexec⟩⟩

theorem ecallProcessPacket_ends_iff_zeros
    : (ScanEnds ecallProcessPacket (List.replicate 500 0) 500
        ∧ ScanEnds callProcessPacketNoSgxTest (List.replicate 500 0) 500)
        ↔
      500 ≤ (500 : UInt32).toNat :=
  ecallProcessPacket_ends_iff (List.replicate 500 0) 500 List.length_replicate (by decide)
    (by rw [List.length_replicate]; decide)

theorem not_scanEnds_testy
    : ¬ (ScanEnds ecallProcessPacket [0x74, 0x65, 0x73, 0x74, 0x79] 5
        ∧ ScanEnds callProcessPacketNoSgxTest [0x74, 0x65, 0x73, 0x74, 0x79] 5) := by
  rintro ⟨⟨fuel, count, hexec⟩, _⟩
  exact scan_short (by decide) (by decide) fuel count hexec

end Processor
