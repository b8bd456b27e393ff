import SgxNfv.Lib.CInt
import SgxNfv.Lib.Except
import SgxNfv.Lib.While
import Mathlib.Algebra.Order.Round

/-!
This module contains the search for repetitions of the first bytes of a packet, once inside the
enclave (`ecallProcessPacket`) and once outside of it (`callProcessPacketNoSgxTest`).
-/

open C

namespace Processor

/--
The length of the searched sequence. The division is the one of `unsigned int`, the `ceil` around
it gets a whole number.
-/
def sequenceLen (length : UInt32) : Int := Rat.ceil ((length / 500).toNat : Rat)

structure ScanState where
  index : Int
  count : Int
  deriving DecidableEq, Repr

/--
The `for` loop over `i` with `n` rounds to go: does `ptr[i]` equal `data[index + i]` in all of them?
-/
def matchSequence (data : List UInt8) (index : Int) : (n : Nat) → (i : Int) → Except Fault Bool
  | 0, _ => return true
  | n + 1, i => do
    let lhs ← load data i
    let rhs ← load data (← addInt index i)
    if lhs ≠ rhs then
      return false
    else
      matchSequence data index n (i + 1)

def scanBody (data : List UInt8) (length : UInt32) (s : ScanState)
    : Except Fault (ScanState ⊕ Int) := do
  -- Both sides are of type `unsigned int`.
  if toUnsigned s.index ≤ length - toUnsigned (sequenceLen length) then
    let lhs ← load data 0
    let rhs ← load data s.index
    if lhs ≠ rhs then
      let index ← addInt s.index 1
      return .inl { s with index }
    else
      if ← matchSequence data s.index (sequenceLen length).toNat 0 then
        let count ← addInt s.count 1
        let index ← addInt s.index (sequenceLen length)
        return .inl { index, count }
      else
        let index ← addInt s.index 1
        return .inl { s with index }
  else
    return .inr s.count

/--
The text that the two searches share: `data` is the memory behind the pointer, `length` the length
the caller passes.
-/
def scan (fuel : Nat) (data : List UInt8) (length : UInt32) : Option (Except Fault Int) :=
  While.exec (scanBody data length) fuel { index := 0, count := 0 }

def ecallProcessPacket (fuel : Nat) (data : List UInt8) (length : UInt32)
    : Option (Except Fault Int) :=
  scan fuel data length

def callProcessPacketNoSgxTest (fuel : Nat) (data : List UInt8) (length : UInt32)
    : Option (Except Fault Int) :=
  scan fuel data length

end Processor
