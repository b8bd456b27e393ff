import SgxNfv.Lib.CString.Basic
import SgxNfv.Lib.Heap

/-!
This module contains the client side of the packet servers, `BasicElement::sendData`.
-/

open C

namespace Client

inductive Failure where
  | socket
  | getaddrinfo (rc : Int)
  | noResults
  | connect
  | sendHeader
  | sendData
  | recv
  | negativeCount
  | errorReply
  | malformedReply
  deriving DecidableEq, Repr

def Failure.code : Failure → Int
  | .negativeCount => -2
  | .errorReply => -2
  | .malformedReply => -2
  | _ => -1

def afInet : Int := 2

/--
The answers of the network functions. `getaddrinfo` gives either an error code or the address
families of its results, and `recv` is the first call with `none` for the return value -1. The bytes
that `recvBuff` holds before are not initialized.
-/
structure Network where
  socket : Int
  getaddrinfo : Except Int (List Int)
  connect : Int
  sendHeader : Int
  sendData : Int
  recv : Option (List UInt8)
  recvBuff : Nat → UInt8

/--
`%i` takes the `unsigned int` for an `int`.
-/
def header (length : UInt32) : List UInt8 :=
  ascii "data_len:" ++ printInt (toInt length.toNat) ++ ascii "|data:"

/--
What is made of the buffer after the first `recv`. None of the branches goes on to a second one.
-/
def parseReply (recvBuff : List UInt8) : Except Fault (Except Failure Int) := do
  if ← strncmp (ascii "OK:") recvBuff then
    let receivedCount ← strtol (recvBuff.drop 3)
    if receivedCount.value < 0 then
      return .error .negativeCount
    else
      return .ok receivedCount.value
  else if ← strncmp (ascii "ERROR") recvBuff then
    return .error .errorReply
  else
    return .error .malformedReply

/--
`sendData` up to its early exits, with the bytes that it has sent.
-/
def exchange (net : Network) (data : List UInt8) (length : UInt32)
    : Except Fault (Except Failure Int × List UInt8) := do
  if net.socket < 0 then
    return (.error .socket, [])
  else
    match net.getaddrinfo with
    | .error rc => return (.error (.getaddrinfo rc), [])
    | .ok [] => return (.error .noResults, [])
    | .ok serverinfo =>
      if serverinfo.all (· ≠ afInet) then
        -- `iter` has run past the last result.
        throw .outOfBounds
      else if net.connect < 0 then
        return (.error .connect, [])
      else if net.sendHeader < 0 then
        return (.error .sendHeader, [])
      else if net.sendData < 0 then
        return (.error .sendData, header length)
      else
        let sent := header length ++ data.take length.toNat
        match net.recv with
        | none => return (.error .recv, sent)
        | some bytes =>
          let recvBuff ← store ((List.range 100).map net.recvBuff) 0 bytes
          let recvBuff ← store recvBuff 99 [0]
          return (← parseReply recvBuff, sent)

def result : Except Failure Int → Int
  | .error failure => failure.code
  | .ok receivedCount => receivedCount

def sendData (net : Network) (data : List UInt8) (length : UInt32) : Except Fault Int :=
  (exchange net data length).map fun (res, _) => result res

def request (p : List UInt8) : List UInt8 := header (UInt32.ofNat p.length) ++ p

end Client
