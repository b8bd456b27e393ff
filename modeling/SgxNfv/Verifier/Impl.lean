import SgxNfv.Lib.Except
import SgxNfv.Lib.PyStruct
import SgxNfv.Lib.While

/-!
This module contains the frames of the attestation client and the receive loop of the verifier that
is written in Python.
-/

open PyStruct

namespace Verifier

/--
A request as the client sends it, `ra_samp_request_header_t` without padding and the body behind it.
-/
structure Frame where
  type : UInt8
  align : UInt8 × UInt8 × UInt8
  body : List UInt8
  fits : body.length < UInt32.size

def le32 (n : UInt32) : List UInt8 :=
  [n.toUInt8, (n >>> 8).toUInt8, (n >>> 16).toUInt8, (n >>> 24).toUInt8]

def Frame.bytes (f : Frame) : List UInt8 :=
  f.type :: le32 (UInt32.ofNat f.body.length) ++ [f.align.1, f.align.2.1, f.align.2.2] ++ f.body

def requestStructSize : Nat := (8 + 32 + 3 * 8) / 8

/--
`'BI3Bs'`
-/
def headerFormat : List Item := [.byte, .uint, .byte, .byte, .byte, .chars 1]

def requestFormat (size : Nat) : List Item := [.byte, .uint, .byte, .byte, .byte, .chars size]

structure Request where
  messageType : Value
  size : Value
  align : Value
  body : Value
  deriving DecidableEq, Repr

structure RecvState where
  receivedRequestTotal : List UInt8
  recvBytesTotal : Nat
  net : List (List UInt8)
  deriving DecidableEq, Repr

def unpackRequest (format : List Item) (bytes : List UInt8) : Except PyError Request := do
  let (messageType, size, align, body) ← (unpack format bytes).bind assign4
  return { messageType, size, align, body }

/--
One round of the receive loop. `none` stands for the return value -1 behind the text "Receiving too
much data. Aborting". After the last chunk `recv` gives the empty string, at which the text "Receive
error" is printed and the loop goes on.
-/
def recvBody (s : RecvState) : Except PyError (RecvState ⊕ Option Request) := do
  let chunk := s.net.headD []
  let receivedRequestTotal := s.receivedRequestTotal ++ chunk
  let recvBytesTotal := s.recvBytesTotal + chunk.length
  let request ← unpackRequest headerFormat receivedRequestTotal
  let size ← request.size.toInt
  if recvBytesTotal ≥ size + requestStructSize then
    let request ← unpackRequest (requestFormat size) receivedRequestTotal
    return .inr (some request)
  else if recvBytesTotal ≥ 10000 then
    return .inr none
  else
    return .inl { receivedRequestTotal, recvBytesTotal, net := s.net.tail }

def receive (fuel : Nat) (net : List (List UInt8)) : Option (Except PyError (Option Request)) :=
  While.exec recvBody fuel { receivedRequestTotal := [], recvBytesTotal := 0, net }

end Verifier
