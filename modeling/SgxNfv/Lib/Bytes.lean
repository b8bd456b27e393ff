import SgxNfv.Lib.Heap

/-!
This module contains byte arrays of a fixed size, the members of C structures, and how they are read
from memory.
-/

namespace C

abbrev Bytes (n : Nat) := { bytes : List UInt8 // bytes.length = n }

namespace Bytes

def zero (n : Nat) : Bytes n := ⟨List.replicate n 0, List.length_replicate⟩

def ofNat (n i : Nat) : Bytes n :=
  ⟨(List.range n).reverse.map fun k => UInt8.ofNat (i >>> (8 * k)), by simp⟩

def append {m n : Nat} (a : Bytes m) (b : Bytes n) : Bytes (m + n) :=
  ⟨a.val ++ b.val, by rw [List.length_append, a.property, b.property]⟩

def reverse {n : Nat} (a : Bytes n) : Bytes n := ⟨a.val.reverse, by rw [List.length_reverse, a.property]⟩

@[simp]
theorem length_val {n : Nat} (b : Bytes n) : b.val.length = n := b.property

end Bytes

theorem length_slice {mem bytes : List UInt8} {off n : Nat} (h : slice mem off n = .ok bytes)
    : bytes.length = n := by
  unfold slice at h
  split at h
  . next hin =>
    rw [← Except.ok.inj h, List.length_take, List.length_drop]
    omega
  . simp at h

/--
Read the member of `n` bytes at offset `off` of the object `mem`.
-/
def member (mem : List UInt8) (off n : Nat) : Except Fault (Bytes n) :=
  match h : slice mem off n with
  | .error e => .error e
  | .ok bytes => .ok ⟨bytes, length_slice h⟩

def uint16 (b : Bytes 2) : UInt16 :=
  (b.val.getD 0 0).toUInt16 ||| (b.val.getD 1 0).toUInt16 <<< 8

def uint32 (b : Bytes 4) : UInt32 :=
  (b.val.getD 0 0).toUInt32 ||| (b.val.getD 1 0).toUInt32 <<< 8
    ||| (b.val.getD 2 0).toUInt32 <<< 16 ||| (b.val.getD 3 0).toUInt32 <<< 24

theorem member_eq_ok_iff {mem : List UInt8} {off n : Nat} {b : Bytes n}
    : member mem off n = .ok b ↔ slice mem off n = .ok b.val := by
  unfold member
  split
  . next e he => simp [he]
  . next bytes he => simp [he, Subtype.ext_iff]

theorem member_eq_error_iff {mem : List UInt8} {off n : Nat} {e : Fault}
    : member mem off n = .error e ↔ slice mem off n = .error e := by
  unfold member
  split
  . next e he => simp [he]
  . next bytes he => simp [he]

theorem member_of_le {mem : List UInt8} {off n : Nat} (h : off + n ≤ mem.length)
    : ∃ b, member mem off n = .ok b := by
  cases hmem : member mem off n with
  | error e =>
    rw [member_eq_error_iff, slice_eq_ok h] at hmem
    simp at hmem
  | ok b => exact ⟨b, rfl⟩

theorem member_of_lt {mem : List UInt8} {off n : Nat} (h : mem.length < off + n)
    : member mem off n = .error .outOfBounds := by
  rw [member_eq_error_iff]
  exact slice_eq_error h

theorem member_take {mem : List UInt8} {off n k : Nat} (h : off + n ≤ k)
    : member (mem.take k) off n = member mem off n := by
  cases hmem : member mem off n with
  | error e =>
    rw [member_eq_error_iff] at hmem ⊢
    rw [slice_take h, hmem]
  | ok b =>
    rw [member_eq_ok_iff] at hmem ⊢
    rw [slice_take h, hmem]

theorem member_append {pre post : List UInt8} {n off : Nat} (b : Bytes n) (hoff : off = pre.length)
    : member (pre ++ b.val ++ post) off n = .ok b := by
  rw [member_eq_ok_iff, slice_eq_ok]
  . rw [hoff, List.append_assoc, List.drop_left, List.take_left' b.property]
  . rw [List.length_append, List.length_append, b.property]
    omega

/--
The member is one of the parts that the object is put together from.
-/
theorem member_flatten {n off : Nat} (pre post : List (List UInt8)) (b : Bytes n)
    (hoff : off = pre.flatten.length)
    : member (pre ++ b.val :: post).flatten off n = .ok b := by
  rw [List.flatten_append, List.flatten_cons, ← List.append_assoc]
  exact member_append b hoff

end C
