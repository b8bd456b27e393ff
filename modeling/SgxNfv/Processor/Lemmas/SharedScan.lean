import SgxNfv.Processor.Impl.SharedScan
import SgxNfv.Processor.Lemmas.Scan

/-!
This module contains the verification of the packet scan on memory that the application writes to
while the scan reads it.
-/

open C

namespace Processor

section

variable {mem : SharedMemory} {length : UInt32}

theorem matchShared_ok {index n i t : Nat} (hrange : index + i + n ≤ mem.size)
    (hmax : mem.size ≤ intMax) : ∃ found reads, matchShared mem index n i t = .ok (found, reads) := by
  induction n generalizing i t with
  | zero => exact ⟨true, t, rfl⟩
  | succ n ih =>
    have hadd : addInt index i = .ok ((index + i : Nat) : Int) := addInt_natCast (by omega)
    simp only [matchShared, SharedMemory.load_natCast (show i < mem.size by omega), hadd,
      SharedMemory.load_natCast (show index + i < mem.size by omega), Except.ok_bind]
    split
    . exact ⟨false, t + 2, rfl⟩
    . rw [← Nat.cast_succ]
      exact ih (by omega)

theorem scanSharedBody_exit {index : Nat} {count : Int} {reads : Nat} (hindex : (index : Int) ≤ intMax)
    (hexit : length.toNat < index + length.toNat / 500)
    : scanSharedBody mem length { index := index, count, reads } = .ok (.inr count) := by
  unfold scanSharedBody
  rw [if_neg]
  . rfl
  . rw [index_le_iff length index hindex]
    omega

/--
Whatever the reads find, a round goes on behind the byte that it looked at, or behind the sequence
that it has counted.
-/
theorem scanSharedBody_round {index count reads : Nat} (hsize : mem.size = length.toNat)
    (hmax : mem.size ≤ intMax) (hpos : 0 < length.toNat / 500)
    (hround : index + length.toNat / 500 ≤ length.toNat) (hcount : count < index + 1)
    : ∃ reads', scanSharedBody mem length { index := index, count := count, reads }
          = .ok (.inl { index := (index + 1 : Nat), count := count, reads := reads' })
        ∨ scanSharedBody mem length { index := index, count := count, reads }
          = .ok (.inl {
              index := (index + length.toNat / 500 : Nat), count := (count + 1 : Nat), reads := reads'
            }) := by
  have hincr : addInt index 1 = .ok ((index + 1 : Nat) : Int) := addInt_one (by omega)
  have hjump : addInt index ((length.toNat / 500 : Nat) : Int)
      = .ok ((index + length.toNat / 500 : Nat) : Int) := addInt_natCast (by omega)
  have hhit : addInt count 1 = .ok ((count + 1 : Nat) : Int) := addInt_one (by omega)
  rcases @matchShared_ok mem index (length.toNat / 500) 0 (reads + 2) (by omega) hmax
    with ⟨found, reads', hmatch⟩
  have hzero : (0 : Int) = ((0 : Nat) : Int) := rfl
  unfold scanSharedBody
  rw [if_pos ((index_le_iff length index (by omega)).mpr hround), hzero,
    SharedMemory.load_natCast (show 0 < mem.size by omega),
    SharedMemory.load_natCast (show index < mem.size by omega), sequenceLen_eq]
  simp only [Except.ok_bind, Int.toNat_natCast, hmatch]
  split
  . exact ⟨reads + 2, .inl (by simp only [hincr, Except.ok_bind, Except.pure_eq_ok])⟩
  . cases found with
    | false => exact ⟨reads', .inl (by simp [hincr])⟩
    | true => exact ⟨reads', .inr (by simp only [↓reduceIte, hhit, hjump, Except.ok_bind, Except.pure_eq_ok])⟩

end

/--
The sequences that were counted lie behind one another.
-/
def SharedInv (length : UInt32) (s : SharedState) : Prop :=
  ∃ index count : Nat, s.index = index ∧ s.count = count
    ∧ count * (length.toNat / 500) ≤ index ∧ index ≤ length.toNat

def sharedMeasure (length : UInt32) (s : SharedState) : Nat := length.toNat + 1 - s.index.toNat

/--
The count is one of sequences that have room in the packet.
-/
def SharedPost (length : UInt32) (r : Int) : Prop :=
  ∃ count : Nat, r = count ∧ count * (length.toNat / 500) ≤ length.toNat

theorem scanSharedBody_step {mem : SharedMemory} {length : UInt32} (hsize : mem.size = length.toNat)
    (hmax : mem.size ≤ intMax) (hpos : 0 < length.toNat / 500) (s : SharedState)
    (hinv : SharedInv length s)
    : (∃ r, scanSharedBody mem length s = .ok (.inr r) ∧ SharedPost length r) ∨
      (∃ s', scanSharedBody mem length s = .ok (.inl s') ∧ SharedInv length s'
        ∧ sharedMeasure length s' < sharedMeasure length s
        ∧ ∀ r, SharedPost length r → SharedPost length r) := by
  rcases s with ⟨_, _, reads⟩
  rcases hinv with ⟨index, count, rfl, rfl, hcount, hindex⟩
  have hle : count ≤ index := Nat.le_trans (Nat.le_mul_of_pos_right count hpos) hcount
  by_cases hlast : index + length.toNat / 500 ≤ length.toNat
  . right
    rcases @scanSharedBody_round mem length index count reads hsize hmax hpos hlast (by omega)
      with ⟨reads', hbody | hbody⟩
    . refine ⟨_, hbody, ⟨_, _, rfl, rfl, by omega, by omega⟩, ?_, fun _ => id⟩
      simp only [sharedMeasure, Int.toNat_natCast]
      omega
    . refine ⟨_, hbody, ⟨_, _, rfl, rfl, ?_, by omega⟩, ?_, fun _ => id⟩
      . rw [Nat.succ_mul]
        omega
      . simp only [sharedMeasure, Int.toNat_natCast]
        omega
  . left
    exact ⟨count, scanSharedBody_exit (by omega) (by omega), count, rfl, by omega⟩

theorem scanShared_count {mem : SharedMemory} {length : UInt32} (hsize : mem.size = length.toNat)
    (hmin : 500 ≤ length.toNat) (hmax : length.toNat ≤ intMax)
    : ∃ count : Nat, scanShared (length.toNat + 2) mem length = some (.ok count)
        ∧ count * (length.toNat / 500) ≤ length.toNat := by
  have hpos : 0 < length.toNat / 500 := by omega
  have hinit : SharedInv length { index := 0, count := 0, reads := 0 } :=
    ⟨0, 0, rfl, rfl, by omega, Nat.zero_le _⟩
  rcases While.exec_total (SharedInv length) (sharedMeasure length) (fun _ => SharedPost length)
    (scanSharedBody_step hsize (by omega) hpos) hinit with ⟨r, hexec, count, rfl, hcount⟩
  refine ⟨count, ?_, hcount⟩
  simpa [sharedMeasure, scanShared] using hexec

/--
Whatever the application writes while the enclave reads: the scan stays inside of the packet, it comes
back, and no more than 999 occurrences are reported.
-/
theorem scanShared_bounded (mem : SharedMemory) (length : UInt32) (hsize : mem.size = length.toNat)
    (hmin : 500 ≤ length.toNat) (hmax : length.toNat ≤ intMax)
    : ∃ count : Nat, (∀ fuel, length.toNat + 2 ≤ fuel → scanShared fuel mem length = some (.ok count))
        ∧ count * (length.toNat / 500) ≤ length.toNat ∧ count ≤ 999 := by
  rcases scanShared_count hsize hmin hmax with ⟨count, hexec, hcount⟩
  refine ⟨count, fun fuel hfuel => While.exec_mono hfuel hexec, hcount, ?_⟩
  -- The sequence is longer than 1/1000 of the packet.
  by_contra hlarge
  have hmul : 1000 * (length.toNat / 500) ≤ count * (length.toNat / 500) :=
    Nat.mul_le_mul_right _ (by omega)
  omega

theorem scanShared_bounded_counting
    : ∃ count : Nat, scanShared 502 { size := 500, bytes := fun t _ => UInt8.ofNat t } 500
          = some (.ok count)
        ∧ count ≤ 999 := by
  rcases scanShared_bounded { size := 500, bytes := fun t _ => UInt8.ofNat t } 500 rfl (by decide)
    (by decide) with ⟨count, hscan, _, hcount⟩
  exact ⟨count, hscan 502 (by decide), hcount⟩

/--
An application that wants `k` to be reported: the bytes are equal for as long as it takes to find `k`
sequences, and behind them any two reads in a row differ.
-/
def forging (length : UInt32) (k : Nat) : SharedMemory where
  size := length.toNat
  bytes t _ := if t < k * (2 * (length.toNat / 500) + 2) then 0 else UInt8.ofNat (t % 2)

section

variable {length : UInt32} {k : Nat}

theorem matchShared_forging {index n i t : Nat} (hrange : index + i + n ≤ length.toNat)
    (hmax : length.toNat ≤ intMax) (ht : t + 2 * n ≤ k * (2 * (length.toNat / 500) + 2))
    : matchShared (forging length k) index n i t = .ok (true, t + 2 * n) := by
  induction n generalizing i t with
  | zero => rfl
  | succ n ih =>
    have hadd : addInt index i = .ok ((index + i : Nat) : Int) := addInt_natCast (by omega)
    have hlhs : i < (forging length k).size := by
      simp only [forging]
      omega
    have hrhs : index + i < (forging length k).size := by
      simp only [forging]
      omega
    have hnext := @ih (i + 1) (t + 2) (by omega) (by omega)
    simp only [matchShared, SharedMemory.load_natCast hlhs, hadd, SharedMemory.load_natCast hrhs,
      Except.ok_bind]
    rw [if_neg]
    . rw [← Nat.cast_succ, hnext]
      congr 2
      omega
    . simp only [forging]
      rw [if_pos (by omega), if_pos (by omega)]
      exact not_not.mpr rfl

/--
The state in front of round `i`, of those that find a sequence.
-/
def hitAt (length : UInt32) (i : Nat) : SharedState where
  index := (i * (length.toNat / 500) : Nat)
  count := i
  reads := i * (2 * (length.toNat / 500) + 2)

theorem scanSharedBody_hitAt {i : Nat} (hpos : 0 < length.toNat / 500) (hmax : length.toNat ≤ intMax)
    (hi : i < k) (hk : k * (length.toNat / 500) ≤ length.toNat)
    : scanSharedBody (forging length k) length (hitAt length i)
        = .ok (.inl (hitAt length (i + 1))) := by
  have hindex : (i + 1) * (length.toNat / 500) ≤ length.toNat :=
    Nat.le_trans (Nat.mul_le_mul_right _ hi) hk
  have hreads : (i + 1) * (2 * (length.toNat / 500) + 2) ≤ k * (2 * (length.toNat / 500) + 2) :=
    Nat.mul_le_mul_right _ hi
  have hle : i + 1 ≤ (i + 1) * (length.toNat / 500) := Nat.le_mul_of_pos_right _ hpos
  rw [Nat.succ_mul] at hindex hreads hle
  have hsize : (forging length k).size = length.toNat := rfl
  have hzero : (0 : Int) = ((0 : Nat) : Int) := rfl
  have hmatch := @matchShared_forging length k (i * (length.toNat / 500)) (length.toNat / 500) 0
    (i * (2 * (length.toNat / 500) + 2) + 2) (by omega) hmax (by omega)
  have hhit : addInt i 1 = .ok ((i + 1 : Nat) : Int) := addInt_one (by omega)
  have hjump : addInt (i * (length.toNat / 500) : Nat) ((length.toNat / 500 : Nat) : Int)
      = .ok ((i * (length.toNat / 500) + length.toNat / 500 : Nat) : Int) :=
    addInt_natCast (by omega)
  unfold scanSharedBody hitAt
  simp only
  rw [if_pos ((index_le_iff length _ (by omega)).mpr hindex), hzero,
    SharedMemory.load_natCast (by rw [hsize]; omega), SharedMemory.load_natCast (by rw [hsize]; omega),
    Except.ok_bind, Except.ok_bind, if_neg]
  . simp only [sequenceLen_eq, Int.toNat_natCast, hmatch, Except.ok_bind, ↓reduceIte, hhit, hjump,
      Except.pure_eq_ok, Except.ok.injEq, Sum.inl.injEq, SharedState.mk.injEq, true_and]
    rw [Nat.succ_mul i, Nat.succ_mul i]
    exact ⟨rfl, by omega⟩
  . simp only [forging]
    rw [if_pos (by omega), if_pos (by omega)]
    exact not_not.mpr rfl

/--
The state behind `k` sequences and `j` rounds more.
-/
def missAt (length : UInt32) (k j : Nat) : SharedState where
  index := (k * (length.toNat / 500) + j : Nat)
  count := k
  reads := k * (2 * (length.toNat / 500) + 2) + 2 * j

theorem scanSharedBody_missAt {j : Nat} (hpos : 0 < length.toNat / 500) (hmax : length.toNat ≤ intMax)
    (hj : k * (length.toNat / 500) + j + length.toNat / 500 ≤ length.toNat)
    : scanSharedBody (forging length k) length (missAt length k j)
        = .ok (.inl (missAt length k (j + 1))) := by
  have hsize : (forging length k).size = length.toNat := rfl
  have hzero : (0 : Int) = ((0 : Nat) : Int) := rfl
  have heven : k * (2 * (length.toNat / 500) + 2) % 2 = 0 := by
    rw [Nat.mul_add, Nat.mul_left_comm]
    omega
  have hlhs : (k * (2 * (length.toNat / 500) + 2) + 2 * j) % 2 = 0 := by omega
  have hrhs : (k * (2 * (length.toNat / 500) + 2) + 2 * j + 1) % 2 = 1 := by omega
  have hincr : addInt (k * (length.toNat / 500) + j : Nat) 1
      = .ok ((k * (length.toNat / 500) + j + 1 : Nat) : Int) := addInt_one (by omega)
  unfold scanSharedBody missAt
  simp only
  rw [if_pos ((index_le_iff length _ (by omega)).mpr hj), hzero,
    SharedMemory.load_natCast (by rw [hsize]; omega), SharedMemory.load_natCast (by rw [hsize]; omega),
    Except.ok_bind, Except.ok_bind, if_pos]
  . simp only [hincr, Except.ok_bind, Except.pure_eq_ok, Except.ok.injEq, Sum.inl.injEq,
      SharedState.mk.injEq, true_and]
    omega
  . simp only [forging]
    rw [if_neg (by omega), if_neg (by omega), hlhs, hrhs]
    decide

/--
By what it writes during the scan the application decides on the count: any number of sequences that
have room in the packet can be reported, whatever the packet held before.
-/
theorem scanShared_reports_iff (length : UInt32) (k : Nat) (hmin : 500 ≤ length.toNat)
    (hmax : length.toNat ≤ intMax)
    : (∃ mem fuel, mem.size = length.toNat ∧ scanShared fuel mem length = some (.ok k))
        ↔
      k * (length.toNat / 500) ≤ length.toNat := by
  have hpos : 0 < length.toNat / 500 := by omega
  constructor
  . rintro ⟨mem, fuel, hsize, hscan⟩
    rcases scanShared_count hsize hmin hmax with ⟨count, hexec, hcount⟩
    have heq := While.Ends.unique ⟨_, hscan⟩ ⟨_, hexec⟩
    rw [Except.ok.injEq, Nat.cast_inj] at heq
    rw [heq]
    exact hcount
  . intro hk
    -- Behind the sequences the scan moves on byte by byte, to where no other one has room.
    generalize hm : length.toNat + 1 - length.toNat / 500 - k * (length.toNat / 500) = m
    refine ⟨forging length k, k + (m + 1), rfl, ?_⟩
    have hhits := While.exec_chain (hitAt length) k (m + 1)
      fun i hi => scanSharedBody_hitAt hpos hmax hi hk
    have hmisses := While.exec_chain (missAt length k) m 1
      fun j hj => scanSharedBody_missAt hpos hmax (by omega)
    have hexit := While.exec_exit (@scanSharedBody_exit (forging length k) length
      (k * (length.toNat / 500) + m) k (k * (2 * (length.toNat / 500) + 2) + 2 * m) (by omega)
      (by omega)) 0
    have hstart : hitAt length 0 = { index := 0, count := 0, reads := 0 } := by
      simp [hitAt]
    rw [scanShared, ← hstart, hhits]
    exact hmisses.trans hexit

theorem scanShared_reports_iff_all
    : ∃ mem fuel, mem.size = (500 : UInt32).toNat
        ∧ scanShared fuel mem 500 = some (.ok (500 : Nat)) :=
  (scanShared_reports_iff 500 500 (by decide) (by decide)).mpr (by decide)

end

theorem matchShared_still (data : List UInt8) (index : Int) (n : Nat) (i : Int) (t : Nat)
    : (matchShared (.still data) index n i t).map Prod.fst = matchSequence data index n i := by
  induction n generalizing i t with
  | zero => rfl
  | succ n ih =>
    simp only [matchShared, matchSequence, SharedMemory.load_still]
    cases load data i with
    | error e => rfl
    | ok lhs =>
      cases addInt index i with
      | error e => rfl
      | ok off =>
        simp only [Except.ok_bind]
        cases load data off with
        | error e => rfl
        | ok rhs =>
          simp only [Except.ok_bind]
          split
          . rfl
          . exact ih (i + 1) (t + 2)

def SharedState.scanState (s : SharedState) : ScanState := { index := s.index, count := s.count }

theorem scanSharedBody_still (data : List UInt8) (length : UInt32) (s : SharedState)
    : scanBody data length s.scanState
        =
      (scanSharedBody (.still data) length s).map (Sum.map SharedState.scanState id) := by
  change scanBody data length { index := s.index, count := s.count } = _
  unfold scanBody scanSharedBody
  simp only [SharedMemory.load_still]
  by_cases hround : toUnsigned s.index ≤ length - toUnsigned (sequenceLen length)
  . rw [if_pos hround, if_pos hround]
    cases load data 0 with
    | error e => rfl
    | ok lhs =>
      simp only [Except.ok_bind]
      cases load data s.index with
      | error e => rfl
      | ok rhs =>
        simp only [Except.ok_bind]
        by_cases hne : lhs ≠ rhs
        . rw [if_pos hne, if_pos hne]
          cases addInt s.index 1 with
          | error e => rfl
          | ok index => rfl
        . rw [if_neg hne, if_neg hne, ← matchShared_still data s.index _ 0 (s.reads + 2)]
          cases matchShared (.still data) s.index (sequenceLen length).toNat 0 (s.reads + 2) with
          | error e => rfl
          | ok res =>
            rcases res with ⟨found, reads⟩
            cases found with
            | false =>
              cases addInt s.index 1 with
              | error e => rfl
              | ok index => rfl
            | true =>
              cases addInt s.count 1 with
              | error e => rfl
              | ok count =>
                cases addInt s.index (sequenceLen length) with
                | error e => rfl
                | ok index => rfl
  . rw [if_neg hround, if_neg hround]
    rfl

theorem scanShared_still (fuel : Nat) (data : List UInt8) (length : UInt32)
    : scanShared fuel (.still data) length = scan fuel data length :=
  (While.exec_map (scanSharedBody_still data length) fuel _).symm

end Processor
