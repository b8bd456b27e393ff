import SgxNfv.Click.Impl
import SgxNfv.Sha256.Impl

/-!
This module contains the two Click elements that hash packets, the one that goes through the enclave
and the one that does not.
-/

open C Processor

namespace SHA256

/--
The bytes of `hash` after the call. The generated stub copies the digest out only when the call
succeeds, another status is only printed.
-/
def callProcessPacketSgxSha256 (status : UInt32) (digest : SHA256) (data : List UInt8)
    (length : UInt32) : Except Fault (List UInt8) :=
  if status = sgxSuccess then
    ecallProcessPacketSha256 digest data length
  else
    return List.replicate 32 0

end SHA256

namespace Click

structure HashElement where
  count : Int
  deriving DecidableEq, Repr

def HashElement.initial : HashElement := { count := 0 }

/--
One call of `push`: the packet, the object on the stack that it is hashed with, and the status with
which the enclave answers, if it is asked.
-/
structure HashPush where
  packet : Packet
  digest : SHA256
  status : UInt32

/--
What the `push` methods share, with the packet on output 0 and the hash that is thrown away.
-/
def HashElement.push (process : List UInt8 → UInt32 → Except Fault (List UInt8)) (s : HashElement)
    (p : Packet) : Except Fault (HashElement × Packet × List UInt8) := do
  let count ← addInt s.count 1
  let hash ← process p.data p.length
  return ({ count }, p, hash)

def HashElement.run (push : HashElement → α → Except Fault (HashElement × Packet × List UInt8))
    : HashElement → List α → Except Fault (HashElement × List (Packet × List UInt8))
  | s, [] => return (s, [])
  | s, p :: ps => do
    let (s, out) ← push s p
    let (s, outs) ← run push s ps
    return (s, out :: outs)

namespace BasicElementSHA256

def push (s : HashElement) (p : HashPush) : Except Fault (HashElement × Packet × List UInt8) :=
  s.push (SHA256.callProcessPacketSgxSha256 p.status p.digest) p.packet

def run (ps : List HashPush) : Except Fault (HashElement × List (Packet × List UInt8)) :=
  HashElement.run push .initial ps

end BasicElementSHA256

namespace BasicElementNoSGXSHA256

def push (s : HashElement) (p : HashPush) : Except Fault (HashElement × Packet × List UInt8) :=
  s.push (SHA256.callProcessPacketNoSgxSha256 p.digest) p.packet

def run (ps : List HashPush) : Except Fault (HashElement × List (Packet × List UInt8)) :=
  HashElement.run push .initial ps

end BasicElementNoSGXSHA256
end Click
