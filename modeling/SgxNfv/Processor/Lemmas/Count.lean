import SgxNfv.Processor.Impl.Count

/-!
This module contains the verification of the processor that counts the bytes 0x0a.
-/

open C

namespace Processor

section

variable {data : List UInt8} {length : UInt32} {i : Nat}

def countAt (data : List UInt8) (i : Nat) : CountState where
  i := i
  count := (data.take i).count 0x0a

theorem lt_iff (hi : (i : Int) ≤ intMax) : toUnsigned i < length ↔ i < length.toNat := by
  rw [UInt32.lt_iff_toNat_lt, toUnsigned_of_range]
  . rw [Int.toNat_natCast]
  . omega
  . exact hi

theorem countBody_next (hi : i < length.toNat) (hdata : length.toNat ≤ data.length)
    (hmax : length.toNat ≤ intMax)
    : countBody data length (countAt data i) = .ok (.inl (countAt data (i + 1))) := by
  have hload := load_natCast data i (by omega)
  have hcount := List.count_le_length (a := (0x0a : UInt8)) (l := data.take i)
  have htake := List.length_take_le i data
  have hnext : addInt i 1 = .ok ((i + 1 : Nat) : Int) :=
    addInt_of_nonneg (by omega) (by omega) (by omega)
  have hadd : addInt ((data.take i).count 0x0a) 1 = .ok (((data.take i).count 0x0a : Int) + 1) :=
    addInt_of_nonneg (by omega) (by omega) rfl
  have hsucc : (data.take (i + 1)).count 0x0a
      = (data.take i).count 0x0a + [data[i]].count 0x0a := by
    rw [List.take_add_one, List.getElem?_eq_getElem (by omega), List.count_append]
    rfl
  unfold countBody countAt
  rw [if_pos ((lt_iff (by omega)).mpr hi), hsucc]
  simp only [hload, Except.ok_bind]
  split
  . next hc => simp [hadd, hnext, hc]
  . next hc => simp [hnext, hc]

theorem countBody_exit (hmax : length.toNat ≤ intMax)
    : countBody data length (countAt data length.toNat)
        =
      .ok (.inr ((data.take length.toNat).count 0x0a)) := by
  unfold countBody
  rw [if_neg]
  . rfl
  . rw [countAt, lt_iff hmax]
    omega

end

theorem processPacket_eq {data : List UInt8} {length : UInt32} {fuel : Nat}
    (hdata : length.toNat ≤ data.length) (hmax : length.toNat ≤ intMax)
    (hfuel : length.toNat + 1 ≤ fuel)
    : processPacket fuel data length = some (.ok ((data.take length.toNat).count 0x0a)) := by
  have hchain := While.exec_chain (countAt data) length.toNat 1
    (fun i hi => countBody_next hi hdata hmax)
  rw [While.exec_exit (countBody_exit hmax)] at hchain
  exact While.exec_mono hfuel hchain

end Processor
