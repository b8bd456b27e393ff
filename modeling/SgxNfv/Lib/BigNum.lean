import Mathlib.Data.Nat.Digits.Lemmas
import SgxNfv.Lib.Heap

/-!
This module contains the big-endian form of natural numbers without leading zeros, as the functions of a
library for big numbers give it, and what becomes of it at the front of an array of a fixed size.
-/

namespace C

/--
`BN_num_bytes` and `BN_bn2bin` of a library for big numbers.
-/
structure BigNum where
  numBytes : Nat → Nat
  bn2bin : Nat → List UInt8

/--
The number that bytes stand for, the highest one in front.
-/
def bigEndian (bytes : List UInt8) : Nat := Nat.ofDigits 256 (bytes.reverse.map UInt8.toNat)

/--
What is documented: a number is given in big-endian form, with as many bytes as it takes.
-/
structure BigNum.Lawful (bn : BigNum) : Prop where
  numBytes_le_iff (n k : Nat) : bn.numBytes n ≤ k ↔ n < 256 ^ k
  length_bn2bin (n : Nat) : (bn.bn2bin n).length = bn.numBytes n
  bigEndian_bn2bin (n : Nat) : bigEndian (bn.bn2bin n) = n

theorem bigEndian_inj {a b : List UInt8} (hlen : a.length = b.length) (h : bigEndian a = bigEndian b)
    : a = b := by
  have hdigit : ∀ bytes : List UInt8, ∀ d ∈ bytes.reverse.map UInt8.toNat, d < 256 := by
    intro bytes d hd
    rcases List.mem_map.mp hd with ⟨byte, _, rfl⟩
    exact byte.toNat_lt
  have hmap := Nat.ofDigits_inj_of_len_eq (by decide) (by simp [hlen]) (hdigit a) (hdigit b) h
  apply List.reverse_injective
  exact List.map_injective_iff.mpr (fun _ _ => UInt8.toNat_inj.mp) hmap

/--
Zeros behind a number multiply it.
-/
theorem bigEndian_append_zeros (bytes : List UInt8) (j : Nat)
    : bigEndian (bytes ++ List.replicate j 0) = bigEndian bytes * 256 ^ j := by
  rw [bigEndian, List.reverse_append, List.reverse_replicate, List.map_append, Nat.ofDigits_append]
  rw [List.map_replicate, List.length_replicate, UInt8.toNat_zero, Nat.ofDigits_replicate_zero]
  rw [Nat.zero_add, Nat.mul_comm, bigEndian]

/--
An array of `k` zeros to whose front the number has been written.
-/
def BigNum.front (bn : BigNum) (k n : Nat) : List UInt8 :=
  bn.bn2bin n ++ List.replicate (k - bn.numBytes n) 0

namespace BigNum.Lawful

variable {bn : BigNum} {a b n k : Nat}

theorem lt_numBytes_iff (hbn : bn.Lawful) : k < bn.numBytes n ↔ 256 ^ k ≤ n := by
  rw [← Nat.not_le, hbn.numBytes_le_iff, Nat.not_lt]

theorem numBytes_mul (hbn : bn.Lawful) (hn : 0 < n) (j : Nat)
    : bn.numBytes (n * 256 ^ j) = bn.numBytes n + j := by
  apply eq_of_forall_ge_iff
  intro k
  rw [hbn.numBytes_le_iff]
  rcases Nat.lt_or_ge k j with hlt | hle
  . have hpow : 256 ^ k < 256 ^ j := Nat.pow_lt_pow_right (by decide) hlt
    have hmul : 256 ^ j ≤ n * 256 ^ j := Nat.le_mul_of_pos_left _ hn
    constructor
    . intro h
      omega
    . intro h
      omega
  . have hsplit : 256 ^ k = 256 ^ (k - j) * 256 ^ j := by rw [← Nat.pow_add, Nat.sub_add_cancel hle]
    rw [hsplit, Nat.mul_lt_mul_right (Nat.pow_pos (by decide)), ← hbn.numBytes_le_iff]
    omega

theorem length_front (hbn : bn.Lawful) (h : n < 256 ^ k) : (bn.front k n).length = k := by
  have hbytes := (hbn.numBytes_le_iff n k).mpr h
  rw [front, List.length_append, List.length_replicate, hbn.length_bn2bin]
  omega

theorem bigEndian_front (hbn : bn.Lawful) (k n : Nat)
    : bigEndian (bn.front k n) = n * 256 ^ (k - bn.numBytes n) := by
  rw [front, bigEndian_append_zeros, hbn.bigEndian_bn2bin]

theorem bigEndian_front_eq_iff (hbn : bn.Lawful)
    : bigEndian (bn.front k n) = n ↔ n = 0 ∨ k ≤ bn.numBytes n := by
  rw [hbn.bigEndian_front]
  constructor
  . intro h
    rcases Nat.eq_zero_or_pos n with hzero | hpos
    . exact .inl hzero
    . right
      have hone : 256 ^ (k - bn.numBytes n) = 1 :=
        Nat.eq_of_mul_eq_mul_left hpos (by rw [h, Nat.mul_one])
      have hsub := (Nat.pow_eq_one.mp hone).resolve_left (by decide)
      omega
  . rintro (rfl | hk)
    . exact Nat.zero_mul _
    . rw [Nat.sub_eq_zero_of_le hk, Nat.pow_zero, Nat.mul_one]

theorem front_mul (hbn : bn.Lawful) {j : Nat} (h : n * 256 ^ j < 256 ^ k)
    : bn.front k (n * 256 ^ j) = bn.front k n := by
  rcases Nat.eq_zero_or_pos n with rfl | hpos
  . rw [Nat.zero_mul]
  . have hbytes := (hbn.numBytes_le_iff _ k).mpr h
    have hle : n ≤ n * 256 ^ j := Nat.le_mul_of_pos_right n (Nat.pow_pos (by decide))
    rw [hbn.numBytes_mul hpos] at hbytes
    apply bigEndian_inj
    . rw [hbn.length_front h, hbn.length_front (Nat.lt_of_le_of_lt hle h)]
    . rw [hbn.bigEndian_front, hbn.bigEndian_front, hbn.numBytes_mul hpos, Nat.mul_assoc, ← Nat.pow_add]
      congr 2
      omega

theorem exists_mul_of_front_eq (hbn : bn.Lawful) (hb : b < 256 ^ k)
    (hle : bn.numBytes a ≤ bn.numBytes b) (h : bn.front k a = bn.front k b)
    : b = a * 256 ^ (bn.numBytes b - bn.numBytes a) := by
  have hbytes := (hbn.numBytes_le_iff b k).mpr hb
  have hvalue := congrArg bigEndian h
  have hsplit : k - bn.numBytes a = bn.numBytes b - bn.numBytes a + (k - bn.numBytes b) := by omega
  rw [hbn.bigEndian_front, hbn.bigEndian_front, hsplit, Nat.pow_add, ← Nat.mul_assoc] at hvalue
  exact (Nat.eq_of_mul_eq_mul_right (Nat.pow_pos (by decide)) hvalue).symm

theorem front_eq_iff (hbn : bn.Lawful) (ha : a < 256 ^ k) (hb : b < 256 ^ k)
    : bn.front k a = bn.front k b ↔ ∃ j, b = a * 256 ^ j ∨ a = b * 256 ^ j := by
  constructor
  . intro h
    rcases Nat.le_total (bn.numBytes a) (bn.numBytes b) with hle | hle
    . exact ⟨_, .inl (hbn.exists_mul_of_front_eq hb hle h)⟩
    . exact ⟨_, .inr (hbn.exists_mul_of_front_eq ha hle h.symm)⟩
  . rintro ⟨j, rfl | rfl⟩
    . exact (hbn.front_mul hb).symm
    . exact hbn.front_mul ha

end BigNum.Lawful

/--
The library that takes the digits to the base 256.
-/
def BigNum.digits : BigNum where
  numBytes n := (Nat.digits 256 n).length
  bn2bin n := ((Nat.digits 256 n).map UInt8.ofNat).reverse

theorem toNat_ofNat_digits (n : Nat)
    : ((Nat.digits 256 n).map UInt8.ofNat).map UInt8.toNat = Nat.digits 256 n := by
  rw [List.map_map]
  apply (List.map_congr_left _).trans (List.map_id _)
  intro d hd
  exact UInt8.toNat_ofNat_of_lt' (Nat.digits_lt_base (by decide) hd)

theorem BigNum.digits_lawful : BigNum.digits.Lawful where
  numBytes_le_iff n _ := Nat.digits_length_le_iff (by decide) n
  length_bn2bin n := by rw [digits, List.length_reverse, List.length_map]
  bigEndian_bn2bin n := by
    rw [digits, bigEndian, List.reverse_reverse, toNat_ofNat_digits, Nat.ofDigits_digits]

end C
