import SgxNfv.Lib.Heap

/-!
This module contains memory that somebody else may write to at any time, read byte by byte.
-/

namespace C

/--
`bytes t off` is what the read with the number `t` finds at `off`.
-/
structure SharedMemory where
  size : Nat
  bytes : Nat → Nat → UInt8

/--
The order in which several bytes are read where the language leaves it open: `times t n` are the numbers
of the reads of `n` bytes, behind `t` reads that came before them.
-/
structure ReadOrder where
  times : (t n : Nat) → List Nat
  perm : ∀ t n, (times t n).Perm (List.range' t n)

namespace SharedMemory

def load (mem : SharedMemory) (t : Nat) (off : Int) : Except Fault UInt8 :=
  if 0 ≤ off ∧ off < mem.size then .ok (mem.bytes t off.toNat) else .error .outOfBounds

/--
The bytes from `off` on, each as the read with its number finds it.
-/
def readAt (mem : SharedMemory) (times : List Nat) (off : Nat) : List UInt8 :=
  times.mapIdx fun k t => mem.bytes t (off + k)

/--
`n` bytes from `off` on, behind `t` reads that came before them.
-/
def slice (mem : SharedMemory) (order : ReadOrder) (t off n : Nat) : Except Fault (List UInt8) :=
  if off + n ≤ mem.size then .ok (mem.readAt (order.times t n) off) else .error .outOfBounds

/--
Memory that nobody writes to.
-/
def still (data : List UInt8) : SharedMemory where
  size := data.length
  bytes _ off := data.getD off 0

variable {mem : SharedMemory}

theorem load_natCast {t i : Nat} (h : i < mem.size) : mem.load t (i : Int) = .ok (mem.bytes t i) := by
  unfold load
  rw [if_pos ⟨Int.natCast_nonneg i, Int.ofNat_lt.mpr h⟩, Int.toNat_natCast]

theorem load_still (data : List UInt8) (t : Nat) (off : Int)
    : (still data).load t off = C.load data off := by
  unfold load C.load
  by_cases hlo : 0 ≤ off
  . by_cases hhi : off.toNat < data.length
    . rw [if_pos ⟨hlo, by simp only [still]; omega⟩, if_pos hlo, List.getElem?_eq_getElem hhi]
      simp [still, hhi]
    . rw [if_neg, if_pos hlo, List.getElem?_eq_none (by omega)]
      simp only [still]
      omega
  . rw [if_neg (fun h => hlo h.1), if_neg hlo]

@[simp]
theorem length_readAt (times : List Nat) (off : Nat) : (mem.readAt times off).length = times.length :=
  List.length_mapIdx

theorem readAt_append (times times' : List Nat) (off : Nat)
    : mem.readAt (times ++ times') off
        =
      mem.readAt times off ++ mem.readAt times' (off + times.length) := by
  simp only [readAt, List.mapIdx_append, Nat.add_assoc, Nat.add_comm times.length]

variable {order : ReadOrder}

@[simp]
theorem length_times (order : ReadOrder) (t n : Nat) : (order.times t n).length = n := by
  rw [(order.perm t n).length_eq, List.length_range']

theorem slice_ok {t off n : Nat} (h : off + n ≤ mem.size)
    : mem.slice order t off n = .ok (mem.readAt (order.times t n) off) := by
  rw [slice, if_pos h]

theorem slice_le {bytes : List UInt8} {t off n : Nat} (h : mem.slice order t off n = .ok bytes)
    : off + n ≤ mem.size := by
  unfold slice at h
  split at h
  . assumption
  . simp at h

/--
The reads of two pieces, one behind the other, are those of the whole.
-/
theorem perm_range'_append {times times' : List Nat} {t n m : Nat} (h : times.Perm (List.range' t n))
    (h' : times'.Perm (List.range' (t + n) m)) : (times ++ times').Perm (List.range' t (n + m)) := by
  rw [← List.range'_append_1]
  exact h.append h'

end SharedMemory
end C
