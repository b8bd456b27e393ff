import SgxNfv.Lib.Except
import SgxNfv.Lib.Heap

/-!
This module contains the search functions of the C library that work on memory of a given size.
-/

namespace C

/--
The bytes are read one after the other, up to the first that is `c`. The result is its offset, or
`none` for `NULL`.
-/
def memchr (mem : List UInt8) (ptr : Nat) (c : UInt8) : (n : Nat) → Except Fault (Option Nat)
  | 0 => return none
  | n + 1 => do
    if (← load mem ptr) = c then
      return some ptr
    else
      memchr mem (ptr + 1) c n

/--
`memcmp(lhs, rhs, n) == 0`. Both objects have to hold `n` bytes, wherever the first difference is.
-/
def memcmp (mem : List UInt8) (lhs rhs n : Nat) : Except Fault Bool := do
  let lhs ← slice mem lhs n
  let rhs ← slice mem rhs n
  return lhs = rhs

theorem load_eq_error {mem : List UInt8} {i : Nat} (h : mem.length ≤ i)
    : load mem i = .error .outOfBounds := by
  simp [load, h]

variable {mem : List UInt8}

/--
The search finds the first `c`, or reads all bytes without finding one, or leaves the memory.
-/
theorem memchr_cases (mem : List UInt8) (ptr : Nat) (c : UInt8) (n : Nat)
    (hptr : ptr ≤ mem.length)
    : (∃ q, memchr mem ptr c n = .ok (some q) ∧ q < ptr + n ∧ ptr ≤ q ∧ mem[q]? = some c
          ∧ ∀ i, ptr ≤ i → i < q → mem[i]? ≠ some c)
      ∨ (memchr mem ptr c n = .ok none ∧ ptr + n ≤ mem.length
          ∧ ∀ i, ptr ≤ i → i < ptr + n → mem[i]? ≠ some c)
      ∨ (memchr mem ptr c n = .error .outOfBounds ∧ mem.length < ptr + n
          ∧ ∀ i, ptr ≤ i → mem[i]? ≠ some c) := by
  induction n generalizing ptr with
  | zero => exact .inr (.inl ⟨rfl, hptr, fun i hi hlt => by omega⟩)
  | succ n ih =>
    unfold memchr
    rcases Nat.lt_or_ge ptr mem.length with hlt | hge
    . rw [load_natCast _ _ hlt, Except.ok_bind]
      by_cases hc : mem[ptr] = c
      . rw [if_pos hc]
        refine .inl ⟨ptr, rfl, by omega, Nat.le_refl ptr, ?_, fun i hi hlt => by omega⟩
        rw [List.getElem?_eq_getElem hlt, hc]
      . rw [if_neg hc]
        have hhead : mem[ptr]? ≠ some c := by
          rw [List.getElem?_eq_getElem hlt]
          exact fun h => hc (Option.some.inj h)
        -- What holds of the bytes from `ptr + 1` on holds from `ptr` on.
        have hfrom : ∀ stop, (∀ i, ptr + 1 ≤ i → i < stop → mem[i]? ≠ some c)
            → ∀ i, ptr ≤ i → i < stop → mem[i]? ≠ some c := by
          intro stop hrest i hi hstop
          rcases Nat.eq_or_lt_of_le hi with rfl | hi
          . exact hhead
          . exact hrest i hi hstop
        rcases ih (ptr + 1) hlt with ⟨q, hres, hq, hle, hget, hnone⟩ | ⟨hres, hle, hnone⟩
          | ⟨hres, hlen, hnone⟩
        . exact .inl ⟨q, hres, by omega, by omega, hget, hfrom q hnone⟩
        . refine .inr (.inl ⟨hres, by omega, hfrom (ptr + (n + 1)) ?_⟩)
          intro i hi hstop
          exact hnone i hi (by omega)
        . refine .inr (.inr ⟨hres, by omega, ?_⟩)
          intro i hi
          exact hfrom (i + 1) (fun j hj _ => hnone j hj) i hi (Nat.lt_succ_self i)
    . refine .inr (.inr ⟨?_, by omega, ?_⟩)
      . rw [load_eq_error hge]
        rfl
      . intro i hi
        rw [List.getElem?_eq_none (by omega)]
        simp

theorem memcmp_ok {lhs rhs n : Nat} (hlhs : lhs + n ≤ mem.length) (hrhs : rhs + n ≤ mem.length)
    : memcmp mem lhs rhs n = .ok (decide (∀ j < n, mem[lhs + j]? = mem[rhs + j]?)) := by
  unfold memcmp
  rw [slice_eq_ok hlhs, slice_eq_ok hrhs, Except.ok_bind, Except.ok_bind, Except.pure_eq_ok]
  congr 2
  rw [eq_iff_iff, List.ext_getElem?_iff]
  constructor
  . intro h j hj
    have := h j
    rwa [List.getElem?_take_of_lt hj, List.getElem?_take_of_lt hj, List.getElem?_drop,
      List.getElem?_drop] at this
  . intro h j
    rcases Nat.lt_or_ge j n with hj | hj
    . rw [List.getElem?_take_of_lt hj, List.getElem?_take_of_lt hj, List.getElem?_drop,
        List.getElem?_drop, h j hj]
    . rw [List.getElem?_take, List.getElem?_take, if_neg (Nat.not_lt.mpr hj),
        if_neg (Nat.not_lt.mpr hj)]

theorem memcmp_eq_error {lhs rhs n : Nat} (hlhs : mem.length < lhs + n)
    : memcmp mem lhs rhs n = .error .outOfBounds := by
  unfold memcmp
  rw [slice_eq_error hlhs]
  rfl

end C
