import SgxNfv.Lib.SharedMemory
import SgxNfv.Processor.Impl.Scan

/-!
This module contains the packet scan of the enclave on memory that is not its own. The packet is
handed over as `[user_check]`, without a copy, so that the application can write to it while the
enclave reads it.
-/

open C

namespace Processor

/--
`matchSequence`, together with the number of the next read.
-/
def matchShared (mem : SharedMemory) (index : Int) : (n : Nat) → (i : Int) → (t : Nat)
    → Except Fault (Bool × Nat)
  | 0, _, t => return (true, t)
  | n + 1, i, t => do
    let lhs ← mem.load t i
    let rhs ← mem.load (t + 1) (← addInt index i)
    if lhs ≠ rhs then
      return (false, t + 2)
    else
      matchShared mem index n (i + 1) (t + 2)

structure SharedState where
  index : Int
  count : Int
  reads : Nat
  deriving DecidableEq, Repr

def scanSharedBody (mem : SharedMemory) (length : UInt32) (s : SharedState)
    : Except Fault (SharedState ⊕ Int) := do
  if toUnsigned s.index ≤ length - toUnsigned (sequenceLen length) then
    let lhs ← mem.load s.reads 0
    let rhs ← mem.load (s.reads + 1) s.index
    if lhs ≠ rhs then
      let index ← addInt s.index 1
      return .inl { s with index, reads := s.reads + 2 }
    else
      let (found, reads) ← matchShared mem s.index (sequenceLen length).toNat 0 (s.reads + 2)
      if found then
        let count ← addInt s.count 1
        let index ← addInt s.index (sequenceLen length)
        return .inl { index, count, reads }
      else
        let index ← addInt s.index 1
        return .inl { s with index, reads }
  else
    return .inr s.count

def scanShared (fuel : Nat) (mem : SharedMemory) (length : UInt32) : Option (Except Fault Int) :=
  While.exec (scanSharedBody mem length) fuel { index := 0, count := 0, reads := 0 }

end Processor
