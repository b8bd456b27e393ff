import SgxNfv.Lib.CInt
import SgxNfv.Lib.Except
import SgxNfv.Lib.While

/-!
This module contains the packet processor of the server without an enclave.
-/

open C

namespace Processor

structure CountState where
  i : Int
  count : Int
  deriving DecidableEq, Repr

def countBody (data : List UInt8) (length : UInt32) (s : CountState)
    : Except Fault (CountState ⊕ Int) := do
  -- `i` is converted to `unsigned int` for the comparison.
  if toUnsigned s.i < length then
    let c ← load data s.i
    let count ← if c = 0x0a then addInt s.count 1 else pure s.count
    let i ← addInt s.i 1
    return .inl { i, count }
  else
    return .inr s.count

def processPacket (fuel : Nat) (data : List UInt8) (length : UInt32) : Option (Except Fault Int) :=
  While.exec (countBody data length) fuel { i := 0, count := 0 }

end Processor
