import Mathlib.Tactic.Common

/-!
This module contains `unpack` of Python's module `struct` for formats of the native kind: items are
aligned the way the compiler aligns them (on x86-64), and a buffer of any other length than that of
the format is refused.
-/

namespace PyStruct

inductive PyError where
  | structError
  | valueError
  | typeError
  deriving DecidableEq, Repr

/--
The items of a format. A repeated `B` is that many items, a repeated `s` is one.
-/
inductive Item where
  | byte
  | uint
  | chars (n : Nat)
  deriving DecidableEq, Repr

inductive Value where
  | int (n : Nat)
  | str (bytes : List UInt8)
  deriving DecidableEq, Repr

def Item.size : Item → Nat
  | byte => 1
  | uint => 4
  | chars n => n

def Item.alignment : Item → Nat
  | uint => 4
  | _ => 1

def Item.place (item : Item) (off : Nat) : Nat :=
  (off + item.alignment - 1) / item.alignment * item.alignment

def leValue : List UInt8 → Nat
  | [] => 0
  | b :: bytes => b.toNat + 256 * leValue bytes

def Item.read (item : Item) (bytes : List UInt8) : Value :=
  match item with
  | chars n => .str (bytes.take n)
  | item => .int (leValue (bytes.take item.size))

def calcsizeFrom (off : Nat) : List Item → Nat
  | [] => off
  | item :: items => calcsizeFrom (item.place off + item.size) items

def calcsize (format : List Item) : Nat := calcsizeFrom 0 format

def unpackFrom (bytes : List UInt8) (off : Nat) : List Item → List Value
  | [] => []
  | item :: items =>
    item.read (bytes.drop (item.place off)) :: unpackFrom bytes (item.place off + item.size) items

def unpack (format : List Item) (bytes : List UInt8) : Except PyError (List Value) :=
  if bytes.length = calcsize format then .ok (unpackFrom bytes 0 format) else .error .structError

/--
The assignment of a tuple to four names.
-/
def assign4 : List Value → Except PyError (Value × Value × Value × Value)
  | [a, b, c, d] => .ok (a, b, c, d)
  | _ => .error .valueError

def Value.toInt : Value → Except PyError Nat
  | int n => .ok n
  | str _ => .error .typeError

theorem length_unpackFrom (bytes : List UInt8) (off : Nat) (format : List Item)
    : (unpackFrom bytes off format).length = format.length := by
  induction format generalizing off with
  | nil => rfl
  | cons item items ih => simp [unpackFrom, ih]

theorem assign4_eq_error {values : List Value} (h : values.length ≠ 4)
    : assign4 values = .error .valueError := by
  unfold assign4
  split
  . simp at h
  . rfl

theorem unpack_assign4 {format : List Item} (h : format.length ≠ 4) (bytes : List UInt8)
    : (unpack format bytes).bind assign4
        =
      .error (if bytes.length = calcsize format then .valueError else .structError) := by
  unfold unpack
  split
  . have hlen := length_unpackFrom bytes 0 format
    exact assign4_eq_error (by omega)
  . rfl

end PyStruct
