import SgxNfv.Processor.Impl.Ecall

/-!
This module contains the two Click elements that scan packets and sum up the counts, the one that
goes through the enclave and the one that does not.
-/

open C Processor

namespace Click

structure Packet where
  data : List UInt8
  fits : data.length < UInt32.size
  deriving DecidableEq

def Packet.length (p : Packet) : UInt32 := UInt32.ofNat p.data.length

structure Element where
  count : Int
  sgxSum : Int
  deriving DecidableEq, Repr

def Element.initial : Element := { count := 0, sgxSum := 0 }

/--
What the `push` methods of the elements share, `process` is the function they call on the packet.
The packet goes on to output 0 unchanged.
-/
def Element.push (process : List UInt8 → UInt32 → Option (Except Fault Int)) (s : Element)
    (p : Packet) : Option (Except Fault (Element × Packet)) :=
  match addInt s.count 1 with
  | .error e => some (.error e)
  | .ok count =>
    (process p.data p.length).map fun res => do
      let sgxSum ← addLong s.sgxSum (← res)
      return ({ count, sgxSum }, p)

def Element.run (push : Element → α → Option (Except Fault (Element × Packet)))
    : Element → List α → Option (Except Fault Element)
  | s, [] => some (.ok s)
  | s, p :: ps =>
    match push s p with
    | some (.ok (s, _)) => run push s ps
    | some (.error e) => some (.error e)
    | none => none

namespace BasicElement

def push (fuel : Nat) (s : Element) (p : Packet × Ecall)
    : Option (Except Fault (Element × Packet)) :=
  s.push (callProcessPacketSgx p.2 fuel) p.1

def run (fuel : Nat) (ps : List (Packet × Ecall)) : Option (Except Fault Element) :=
  Element.run (push fuel) .initial ps

end BasicElement

namespace BasicElementNoSGX

def push (fuel : Nat) (s : Element) (p : Packet) : Option (Except Fault (Element × Packet)) :=
  s.push (callProcessPacketNoSgxTest fuel) p

def run (fuel : Nat) (ps : List Packet) : Option (Except Fault Element) :=
  Element.run (push fuel) .initial ps

end BasicElementNoSGX
end Click
