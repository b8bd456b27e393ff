import Mathlib.Tactic.Common

/-!
This module contains the theory of functions that take in a message block by block: the chaining
value after the complete blocks, the rest behind them, and what becomes of both when the message
goes on.
-/

namespace BlockHash

variable {α σ : Type} {size : Nat} (compress : σ → List α → σ)

def blocks (size : Nat) : (n : Nat) → σ → List α → σ
  | 0, s, _ => s
  | n + 1, s, msg => blocks size n (compress s (msg.take size)) (msg.drop size)

/--
Take in all complete blocks.
-/
def absorb (size : Nat) (s : σ) (msg : List α) : σ := blocks compress size (msg.length / size) s msg

/--
The elements behind the last complete block.
-/
def rest (size : Nat) (msg : List α) : List α := msg.drop (msg.length / size * size)

variable {compress} {s : σ} {block msg more : List α}

@[simp]
theorem blocks_zero : blocks compress size 0 s msg = s := rfl

theorem blocks_append (hblock : block.length = size) (n : Nat)
    : blocks compress size (n + 1) s (block ++ msg)
        =
      blocks compress size n (compress s block) msg := by
  rw [blocks, List.take_left' hblock, List.drop_left' hblock]

theorem absorb_of_lt (h : msg.length < size) : absorb compress size s msg = s := by
  rw [absorb, Nat.div_eq_of_lt h, blocks_zero]

theorem rest_of_lt (h : msg.length < size) : rest size msg = msg := by
  rw [rest, Nat.div_eq_of_lt h, Nat.zero_mul, List.drop_zero]

theorem length_div_append (hsize : 0 < size) (hblock : block.length = size)
    : (block ++ msg).length / size = msg.length / size + 1 := by
  rw [List.length_append, hblock, Nat.add_div_left _ hsize]

theorem absorb_block (hsize : 0 < size) (hblock : block.length = size)
    : absorb compress size s (block ++ msg) = absorb compress size (compress s block) msg := by
  rw [absorb, length_div_append hsize hblock, blocks_append hblock, absorb]

theorem rest_block (hsize : 0 < size) (hblock : block.length = size)
    : rest size (block ++ msg) = rest size msg := by
  rw [rest, length_div_append hsize hblock, Nat.succ_mul, Nat.add_comm, ← List.drop_drop,
    List.drop_left' hblock, rest]

theorem length_lt_or_exists_block (size : Nat) (msg : List α)
    : msg.length < size ∨ ∃ block msg', msg = block ++ msg' ∧ block.length = size := by
  cases Nat.lt_or_ge msg.length size with
  | inl hlt => exact .inl hlt
  | inr hge =>
    refine .inr ⟨msg.take size, msg.drop size, (List.take_append_drop size msg).symm, ?_⟩
    rw [List.length_take, Nat.min_eq_left hge]

/--
A message that goes on continues with the rest of what came before.
-/
theorem absorb_append (hsize : 0 < size)
    : absorb compress size s (msg ++ more)
        =
      absorb compress size (absorb compress size s msg) (rest size msg ++ more) := by
  induction h : msg.length using Nat.strongRecOn generalizing s msg with
  | _ n ih =>
    rcases length_lt_or_exists_block size msg with hlt | ⟨block, msg, rfl, hblock⟩
    . rw [absorb_of_lt hlt, rest_of_lt hlt]
    . have hlen : msg.length < n := by
        rw [← h, List.length_append]
        omega
      rw [List.append_assoc, absorb_block hsize hblock, absorb_block hsize hblock,
        rest_block hsize hblock, ih _ hlen rfl]

theorem rest_append (hsize : 0 < size) : rest size (msg ++ more) = rest size (rest size msg ++ more) := by
  induction h : msg.length using Nat.strongRecOn generalizing msg with
  | _ n ih =>
    rcases length_lt_or_exists_block size msg with hlt | ⟨block, msg, rfl, hblock⟩
    . rw [rest_of_lt hlt]
    . have hlen : msg.length < n := by
        rw [← h, List.length_append]
        omega
      rw [List.append_assoc, rest_block hsize hblock, rest_block hsize hblock, ih _ hlen rfl]

theorem length_rest (size : Nat) (msg : List α) : (rest size msg).length = msg.length % size := by
  rw [rest, List.length_drop]
  have := Nat.div_add_mod' msg.length size
  omega

theorem absorb_eq_blocks {n : Nat} (hsize : 0 < size) (hmsg : msg.length = n * size)
    : absorb compress size s msg = blocks compress size n s msg := by
  rw [absorb, hmsg, Nat.mul_div_cancel _ hsize]

theorem blocks_prefix {n : Nat} (hmsg : n * size ≤ msg.length)
    : blocks compress size n s (msg ++ more) = blocks compress size n s msg := by
  induction n generalizing s msg with
  | zero => rfl
  | succ n ih =>
    rw [Nat.succ_mul] at hmsg
    rw [blocks, blocks, List.take_append_of_le_length (by omega),
      List.drop_append_of_le_length (by omega), ih]
    rw [List.length_drop]
    omega

end BlockHash
