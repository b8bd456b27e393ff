import SgxNfv.Lib.CInt

/-!
This module contains memory: reading and writing the bytes of an object, blocks of the heap with
pointers into them, and `realloc`.
-/

namespace C

/--
A block of the heap. `id` is a new one for every block that is allocated.
-/
structure Block where
  id : Nat
  bytes : List UInt8
  deriving DecidableEq, Repr

structure Ptr where
  block : Nat
  off : Nat
  deriving DecidableEq, Repr

/--
The bytes from a pointer to the end of the block `b`. A pointer into another block, one that was
freed, reaches none.
-/
def Ptr.bytes (p : Ptr) (b : Block) : List UInt8 :=
  if p.block = b.id then b.bytes.drop p.off else []

def store (mem : List UInt8) (off : Int) (bytes : List UInt8) : Except Fault (List UInt8) :=
  if 0 ≤ off ∧ off + bytes.length ≤ mem.length then
    .ok (mem.take off.toNat ++ bytes ++ mem.drop (off.toNat + bytes.length))
  else
    .error .outOfBounds

def slice (mem : List UInt8) (off n : Nat) : Except Fault (List UInt8) :=
  if off + n ≤ mem.length then .ok ((mem.drop off).take n) else .error .outOfBounds

inductive Realloc where
  | null
  | inPlace
  | moved
  deriving DecidableEq, Repr

/--
The answers of the allocator: whether the first `malloc` succeeds, what the `realloc` calls after it
do, and what the bytes hold that each of them adds.
-/
structure Allocator where
  malloc : Bool
  realloc : Nat → Realloc
  fresh : Nat → Nat → UInt8

def Allocator.inPlace : Allocator where
  malloc := true
  realloc := fun _ => .inPlace
  fresh := fun _ _ => 0

/--
The `i`-th `realloc` of a connection, with `none` for `NULL`. It keeps the bytes of the block.
-/
def Allocator.resize (alloc : Allocator) (i : Nat) (b : Block) (size : Int) : Option Block :=
  let bytes := b.bytes.take size.toNat
    ++ (List.range' b.bytes.length (size.toNat - b.bytes.length)).map (alloc.fresh i)
  match alloc.realloc i with
  | .null => none
  | .inPlace => some { b with bytes }
  | .moved => some { id := b.id + 1, bytes }

theorem Ptr.bytes_of_eq {p : Ptr} {b : Block} (h : p.block = b.id)
    : p.bytes b = b.bytes.drop p.off := by
  rw [bytes, if_pos h]

theorem Ptr.bytes_of_ne {p : Ptr} {b : Block} (h : p.block ≠ b.id) : p.bytes b = [] := by
  rw [bytes, if_neg h]

theorem Allocator.inPlace_realloc (i : Nat) : Allocator.inPlace.realloc i ≠ .null := by
  simp [inPlace]

theorem Allocator.resize_of_ne {alloc : Allocator} {i : Nat} (h : alloc.realloc i ≠ .null)
    (b : Block) (size : Int)
    : ∃ block, alloc.resize i b size = some block
        ∧ block.bytes = b.bytes.take size.toNat
            ++ (List.range' b.bytes.length (size.toNat - b.bytes.length)).map (alloc.fresh i) := by
  unfold resize
  cases hres : alloc.realloc i with
  | null => exact absurd hres h
  | inPlace => exact ⟨_, rfl, rfl⟩
  | moved => exact ⟨_, rfl, rfl⟩

theorem Allocator.resize_of_null {alloc : Allocator} {i : Nat} (h : alloc.realloc i = .null)
    (b : Block) (size : Int)
    : alloc.resize i b size = none := by
  unfold resize
  rw [h]

theorem store_ok {mem bytes : List UInt8} {off : Nat} (h : off + bytes.length ≤ mem.length)
    : store mem off bytes
        =
      .ok (mem.take off ++ bytes ++ mem.drop (off + bytes.length)) := by
  unfold store
  rw [if_pos (by omega), Int.toNat_natCast]

theorem store_eq_error {mem bytes : List UInt8} {off : Nat} (h : mem.length < off + bytes.length)
    : store mem off bytes = .error .outOfBounds := by
  unfold store
  rw [if_neg (by omega)]

theorem store_append {pre old post bytes : List UInt8} {off : Int} (hoff : off = pre.length)
    (hlen : bytes.length ≤ old.length)
    : store (pre ++ old ++ post) off bytes
        =
      .ok (pre ++ (bytes ++ old.drop bytes.length) ++ post) := by
  rw [hoff, store_ok]
  . rw [List.append_assoc pre old post, List.take_left, List.drop_append]
    simp [List.drop_append, Nat.sub_eq_zero_of_le hlen]
  . simp only [List.length_append]
    omega

theorem store_zero {mem bytes : List UInt8} (hlen : bytes.length ≤ mem.length)
    : store mem 0 bytes = .ok (bytes ++ mem.drop bytes.length) := by
  have hstore := @store_append [] mem [] bytes 0 rfl hlen
  rw [List.nil_append, List.append_nil, List.nil_append, List.append_nil] at hstore
  exact hstore

theorem slice_eq_ok {mem : List UInt8} {off n : Nat} (h : off + n ≤ mem.length)
    : slice mem off n = .ok ((mem.drop off).take n) := by
  rw [slice, if_pos h]

theorem slice_eq_error {mem : List UInt8} {off n : Nat} (h : mem.length < off + n)
    : slice mem off n = .error .outOfBounds := by
  rw [slice, if_neg (Nat.not_le.mpr h)]

theorem slice_append {pre bytes post : List UInt8} {off n : Nat} (hoff : off = pre.length)
    (hn : n = bytes.length) : slice (pre ++ (bytes ++ post)) off n = .ok bytes := by
  rw [slice_eq_ok]
  . rw [hoff, List.drop_left, hn, List.take_left]
  . simp only [List.length_append]
    omega

theorem slice_take {mem : List UInt8} {off n k : Nat} (h : off + n ≤ k)
    : slice (mem.take k) off n = slice mem off n := by
  have hlen : off + n ≤ (mem.take k).length ↔ off + n ≤ mem.length := by
    rw [List.length_take]
    omega
  have htake : ((mem.take k).drop off).take n = (mem.drop off).take n := by
    rw [List.drop_take, List.take_take, Nat.min_eq_left (by omega)]
  simp only [slice, hlen, htake]

theorem length_store {mem bytes mem' : List UInt8} {off : Int} (h : store mem off bytes = .ok mem')
    : mem'.length = mem.length := by
  unfold store at h
  split at h
  . next hin =>
    rw [← Except.ok.inj h]
    simp only [List.length_append, List.length_take, List.length_drop]
    omega
  . simp at h

end C
