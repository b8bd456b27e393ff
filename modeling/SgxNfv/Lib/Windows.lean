import Mathlib.Tactic.Common

/-!
This module contains index lemmas for byte strings that are put together from pieces: pieces of one
length, as a buffer that is filled window by window, and pieces of any length, as a stream that is
cut into segments.
-/

namespace Windows

variable {α β : Type}

theorem length_flatMap_range (window : Nat → List α) {size : Nat}
    (hsize : ∀ i, (window i).length = size) (n : Nat)
    : ((List.range n).flatMap window).length = size * n := by
  induction n with
  | zero => simp
  | succ n ih =>
    rw [List.range_succ, List.flatMap_append, List.length_append, ih]
    simp [hsize, Nat.mul_succ]

theorem getElem?_flatMap_range (window : Nat → List α) {size n i j : Nat}
    (hsize : ∀ i, (window i).length = size) (hi : i < n) (hj : j < size)
    : ((List.range n).flatMap window)[size * i + j]? = (window i)[j]? := by
  induction n with
  | zero => omega
  | succ n ih =>
    have hlen := length_flatMap_range window hsize n
    rw [List.range_succ, List.flatMap_append]
    cases Nat.lt_succ_iff_lt_or_eq.mp hi with
    | inl hlt =>
      have hmul : size * (i + 1) ≤ size * n := Nat.mul_le_mul_left size hlt
      rw [Nat.mul_succ] at hmul
      rw [List.getElem?_append_left (by omega)]
      exact ih hlt
    | inr heq =>
      subst heq
      rw [List.getElem?_append_right (by omega), hlen, Nat.add_sub_cancel_left]
      simp

theorem getElem?_flatMap_take (piece : β → List α) {cs : List β} {c : β} {i j : Nat}
    (hc : cs[i]? = some c) (hj : j < (piece c).length)
    : (cs.flatMap piece)[((cs.take i).flatMap piece).length + j]? = (piece c)[j]? := by
  have hi : i < cs.length := by
    rw [List.getElem?_eq_some_iff] at hc
    exact hc.1
  have hsplit : cs = cs.take i ++ c :: cs.drop (i + 1) := by
    rw [List.getElem?_eq_some_iff] at hc
    rw [← hc.2, List.getElem_cons_drop, List.take_append_drop]
  have hflat : cs.flatMap piece
      = (cs.take i).flatMap piece ++ (piece c ++ (cs.drop (i + 1)).flatMap piece) := by
    nth_rewrite 1 [hsplit]
    rw [List.flatMap_append, List.flatMap_cons]
  rw [hflat, List.getElem?_append_right (by omega), Nat.add_sub_cancel_left]
  exact List.getElem?_append_left hj

end Windows
