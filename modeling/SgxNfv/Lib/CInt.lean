import Mathlib.Algebra.Group.Int.Defs
import Mathlib.Algebra.Group.Nat.Defs
import Mathlib.Data.Int.Order.Basic
import Mathlib.Tactic.Common

/-!
This module contains the parts of the C abstract machine that the models run on: the kinds of
undefined behaviour, the ranges of the signed integer types, checked signed addition, the integer
conversions and checked loads.
-/

namespace C

/--
The undefined behaviour a model can run into. A run that does stops there.
-/
inductive Fault where
  | outOfBounds
  | signedOverflow
  | nullPointer
  deriving DecidableEq, Repr

def intMax : Int := 2147483647

def intMin : Int := -2147483648

def longMax : Int := 9223372036854775807

def longMin : Int := -9223372036854775808

def addInt (a b : Int) : Except Fault Int :=
  if intMin ≤ a + b ∧ a + b ≤ intMax then .ok (a + b) else .error .signedOverflow

def addLong (a b : Int) : Except Fault Int :=
  if longMin ≤ a + b ∧ a + b ≤ longMax then .ok (a + b) else .error .signedOverflow

def shlInt (a : Int) (n : Nat) : Except Fault Int :=
  if 0 ≤ a ∧ a * 2 ^ n ≤ intMax then .ok (a * 2 ^ n) else .error .signedOverflow

/--
The conversion of an integer to `int`: reduction modulo `2^32` into the range of the type.
-/
def toInt (i : Int) : Int := i.bmod 4294967296

def toUnsigned (i : Int) : UInt32 := UInt32.ofInt i

def load (mem : List UInt8) (off : Int) : Except Fault UInt8 :=
  if 0 ≤ off then
    match mem[off.toNat]? with
    | some b => .ok b
    | none => .error .outOfBounds
  else
    .error .outOfBounds

theorem addInt_ok {a b : Int} (hlo : intMin ≤ a + b) (hhi : a + b ≤ intMax)
    : addInt a b = .ok (a + b) := by
  simp [addInt, hlo, hhi]

theorem addInt_of_nonneg {a b c : Int} (hlo : 0 ≤ a + b) (hhi : a + b ≤ intMax) (hc : a + b = c)
    : addInt a b = .ok c := by
  rw [← hc]
  apply addInt_ok
  . exact Int.le_trans (by decide) hlo
  . exact hhi

theorem addInt_natCast {a b : Nat} (h : ((a + b : Nat) : Int) ≤ intMax)
    : addInt a b = .ok ((a + b : Nat) : Int) := by
  rw [addInt_ok]
  . simp
  . simp only [intMin]
    omega
  . omega

theorem addInt_one {a : Nat} (h : ((a + 1 : Nat) : Int) ≤ intMax)
    : addInt a 1 = .ok ((a + 1 : Nat) : Int) :=
  addInt_natCast h

theorem addInt_overflow {a b : Int} (h : intMax < a + b) : addInt a b = .error .signedOverflow := by
  unfold addInt
  rw [if_neg]
  omega

theorem addInt_eq_ok {a b c : Int} (h : addInt a b = .ok c)
    : c = a + b ∧ intMin ≤ a + b ∧ a + b ≤ intMax := by
  unfold addInt at h
  split at h
  . next hrange => exact ⟨(Except.ok.inj h).symm, hrange⟩
  . simp at h

theorem addLong_ok {a b : Int} (hlo : longMin ≤ a + b) (hhi : a + b ≤ longMax)
    : addLong a b = .ok (a + b) := by
  simp [addLong, hlo, hhi]

theorem addLong_overflow {a b : Int} (h : longMax < a + b)
    : addLong a b = .error .signedOverflow := by
  unfold addLong
  rw [if_neg]
  omega

theorem addLong_eq_ok {a b c : Int} (h : addLong a b = .ok c)
    : c = a + b ∧ longMin ≤ a + b ∧ a + b ≤ longMax := by
  unfold addLong at h
  split at h
  . next hrange => exact ⟨(Except.ok.inj h).symm, hrange⟩
  . simp at h

theorem toInt_of_range {i : Int} (hlo : intMin ≤ i) (hhi : i ≤ intMax) : toInt i = i := by
  simp only [intMin, intMax] at hlo hhi
  unfold toInt
  apply Int.bmod_eq_of_le
  . omega
  . omega

theorem toInt_of_nonneg {i : Int} (hpos : 0 ≤ i) (hmax : i ≤ intMax) : toInt i = i :=
  toInt_of_range (Int.le_trans (by decide) hpos) hmax

theorem toInt_spec (i : Int)
    : intMin ≤ toInt i ∧ toInt i ≤ intMax ∧ toInt i % 4294967296 = i % 4294967296 := by
  simp only [toInt, intMin, intMax, Int.bmod_def]
  split
  . omega
  . omega

theorem toUnsigned_toNat (i : Int) : ((toUnsigned i).toNat : Int) = i % 4294967296 := by
  simp only [toUnsigned, UInt32.ofInt, UInt32.toNat_ofNat']
  omega

theorem toUnsigned_toInt (n : UInt32) : toUnsigned (toInt n.toNat) = n := by
  apply UInt32.toNat_inj.mp
  have hunsigned := toUnsigned_toNat (toInt n.toNat)
  have hmod := (toInt_spec n.toNat).2.2
  have hlt := n.toNat_lt
  omega

theorem toUnsigned_of_range {i : Int} (hlo : 0 ≤ i) (hhi : i ≤ intMax)
    : (toUnsigned i).toNat = i.toNat := by
  simp only [intMax] at hhi
  have := toUnsigned_toNat i
  omega

@[simp]
theorem load_natCast (mem : List UInt8) (i : Nat) (h : i < mem.length)
    : load mem (i : Int) = .ok mem[i] := by
  simp [load, h]

theorem load_append {mem : List UInt8} {off : Int} {b : UInt8} (rest : List UInt8)
    (h : load mem off = .ok b) : load (mem ++ rest) off = .ok b := by
  unfold load at h ⊢
  split
  . next hoff =>
    rw [if_pos hoff] at h
    split at h
    . next b' hget =>
      rw [List.getElem?_append_left (List.getElem?_eq_some_iff.mp hget).1, hget]
      exact h
    . simp at h
  . next hoff =>
    rw [if_neg hoff] at h
    simp at h

end C
