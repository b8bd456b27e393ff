import SgxNfv.Lib.CString.Lemmas
import SgxNfv.Lib.Heap

/-!
This module contains the C string functions that write to an array: `strncpy` and `strncat`.
-/

namespace C

/--
The string at the beginning of `s`, or `n` bytes of it.
-/
def readString : (n : Nat) → (s : List UInt8) → Except Fault (List UInt8)
  | 0, _ => return []
  | _ + 1, [] => .error .outOfBounds
  | n + 1, c :: s =>
    if c = 0 then
      return []
    else
      return c :: (← readString n s)

/--
What the string leaves of the `n` bytes is filled up with zeros. There is no other NUL.
-/
def strncpy (dest src : List UInt8) (n : Nat) : Except Fault (List UInt8) := do
  let s ← readString n src
  store dest 0 (s ++ List.replicate (n - s.length) 0)

def strncat (dest src : List UInt8) (n : Nat) : Except Fault (List UInt8) := do
  let s ← readString n src
  store dest (← strlen dest) (s ++ [0])

theorem readString_take {s : List UInt8} (hs : (0 : UInt8) ∉ s) (rest : List UInt8)
    : readString s.length (s ++ rest) = .ok s := by
  induction s with
  | nil => rfl
  | cons c s ih =>
    rw [List.mem_cons, not_or] at hs
    rw [List.length_cons, List.cons_append, readString, if_neg (Ne.symm hs.1), ih hs.2]
    rfl

theorem readString_nul {s : List UInt8} (hs : (0 : UInt8) ∉ s) (rest : List UInt8) {n : Nat}
    (hn : s.length < n) : readString n (s ++ 0 :: rest) = .ok s := by
  induction s generalizing n with
  | nil =>
    cases n with
    | zero => simp at hn
    | succ n => rfl
  | cons c s ih =>
    cases n with
    | zero => simp at hn
    | succ n =>
      rw [List.mem_cons, not_or] at hs
      rw [List.cons_append, readString, if_neg (Ne.symm hs.1), ih hs.2 (Nat.lt_of_succ_lt_succ hn)]
      rfl

/--
An array of `size` bytes that holds a string, with nothing but zeros behind it.
-/
def stringIn (size : Nat) (s : List UInt8) : List UInt8 := s ++ List.replicate (size - s.length) 0

theorem stringIn_nil (size : Nat) : stringIn size [] = List.replicate size 0 := rfl

variable {size : Nat} {s t : List UInt8}

theorem length_stringIn (hsize : s.length ≤ size) : (stringIn size s).length = size := by
  rw [stringIn, List.length_append, List.length_replicate]
  omega

theorem strlen_stringIn (hs : (0 : UInt8) ∉ s) (hsize : s.length < size)
    : strlen (stringIn size s) = .ok s.length := by
  obtain ⟨k, hk⟩ : ∃ k, size - s.length = k + 1 := ⟨size - s.length - 1, by omega⟩
  rw [stringIn, hk, List.replicate_succ]
  exact strlen_append hs _

theorem store_stringIn {bytes : List UInt8} (hsize : s.length + bytes.length ≤ size)
    : store (stringIn size s) s.length bytes = .ok (stringIn size (s ++ bytes)) := by
  have hstore := @store_append s (List.replicate (size - s.length) 0) [] bytes s.length rfl
    (by rw [List.length_replicate]; omega)
  rw [List.append_nil, List.append_nil] at hstore
  rw [stringIn, hstore, stringIn, List.drop_replicate, List.length_append, List.append_assoc,
    Nat.sub_sub]

theorem stringIn_zeros (k : Nat) (hsize : s.length + k ≤ size)
    : stringIn size (s ++ List.replicate k 0) = stringIn size s := by
  rw [stringIn, stringIn, List.append_assoc, List.replicate_append_replicate, List.length_append,
    List.length_replicate]
  congr 2
  omega

theorem strncpy_stringIn {src : List UInt8} {n : Nat} (hread : readString n src = .ok s)
    (hn : s.length ≤ n) (hsize : n ≤ size) : strncpy (stringIn size []) src n = .ok (stringIn size s) := by
  have hfill : ([] ++ (s ++ List.replicate (n - s.length) (0 : UInt8))).length ≤ size := by
    simp
    omega
  have hstore := @store_stringIn size [] (s ++ List.replicate (n - s.length) 0)
    (by simpa using hfill)
  rw [strncpy, hread, Except.ok_bind]
  rw [List.nil_append, stringIn_zeros _ (by omega)] at hstore
  exact hstore

theorem strncat_stringIn {src : List UInt8} {n : Nat} (hs : (0 : UInt8) ∉ s)
    (hread : readString n src = .ok t) (hsize : s.length + t.length < size)
    : strncat (stringIn size s) src n = .ok (stringIn size (s ++ t)) := by
  have hstore := @store_stringIn size s (t ++ [0]) (by simp; omega)
  have hzero := @stringIn_zeros size (s ++ t) 1 (by simp; omega)
  rw [strncat, hread, Except.ok_bind, strlen_stringIn hs (by omega), Except.ok_bind, hstore,
    ← List.append_assoc]
  exact congrArg Except.ok hzero

end C
