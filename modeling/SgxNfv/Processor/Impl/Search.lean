import SgxNfv.Lib.CString.Memory
import SgxNfv.Processor.Impl.Scan

/-!
This module contains the search for repetitions of the first bytes of a packet that is written with
the functions of the C library.
-/

open C

namespace Processor

structure SearchState where
  ptr : Nat
  count : Int
  deriving DecidableEq, Repr

/--
One round of the `do` loop. `ptr` is the offset in the packet, `memchr` looks only at the next
`sequence_len` bytes.
-/
def searchBody (data : List UInt8) (length : UInt32) (s : SearchState)
    : Except Fault (SearchState ⊕ Int) := do
  let sequenceLen := (sequenceLen length).toNat
  match ← memchr data s.ptr (← load data 0) sequenceLen with
  | none => return .inr s.count
  | some ptr =>
    let found ← memcmp data ptr 0 sequenceLen
    let count ← if found then addInt s.count 1 else pure s.count
    let ptr := if found then ptr + sequenceLen else ptr + 1
    if ptr ≥ length.toNat then
      return .inr count
    else
      return .inl { ptr, count }

def callProcessPacketNoSgx (fuel : Nat) (data : List UInt8) (length : UInt32)
    : Option (Except Fault Int) :=
  While.exec (searchBody data length) fuel { ptr := 0, count := 0 }

end Processor
