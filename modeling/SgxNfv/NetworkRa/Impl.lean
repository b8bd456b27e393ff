import SgxNfv.Client.Impl
import SgxNfv.Lib.Bytes
import SgxNfv.Server.Impl
import SgxNfv.Verifier.Impl

/-!
This module contains the network layer of the attestation client, `ra_network_send_receive`: how a
request is sent and how the response is received.
-/

open C Server
open Verifier (Frame le32)
open Client (afInet)

namespace NetworkRa

inductive Failure where
  | nullArgument
  | socket
  | portOverflow (rc : Int)
  | getaddrinfo (rc : Int)
  | noResults
  | connect
  | send
  | alloc
  | recv
  deriving DecidableEq, Repr

def Failure.code : Failure → Int := fun _ => -1

/--
The answers of the network functions, as those of the client of the packet servers. `getaddrinfo`
gets the server and the port as strings, and `send` the bytes of the request.
-/
structure Network where
  socket : Int
  getaddrinfo : List UInt8 → List UInt8 → Except Int (List Int)
  connect : Int
  send : List UInt8 → Int
  recvs : List Recv

/--
`ra_samp_response_header_t`, which is packed.
-/
structure ResponseHeader where
  type : Bytes 1
  status : Bytes 2
  size : UInt32
  align : Bytes 1
  deriving DecidableEq, Repr

def sizeofResponseHeader : Nat := 8

def sizeofRequestHeader : Nat := 8

def responseHeader (mem : List UInt8) : Except Fault ResponseHeader := do
  let type ← member mem 0 1
  let status ← member mem 1 2
  let size ← member mem 3 4
  let align ← member mem 7 1
  return { type, status, size := uint32 size, align }

/--
A response as the server sends it, with the body behind the header.
-/
structure ResponseFrame where
  type : UInt8
  status : UInt8 × UInt8
  align : UInt8
  body : List UInt8
  fits : body.length < UInt32.size

def ResponseFrame.bytes (f : ResponseFrame) : List UInt8 :=
  [f.type, f.status.1, f.status.2] ++ le32 (UInt32.ofNat f.body.length) ++ [f.align] ++ f.body

/--
`realloc`, with `none` for `NULL` in front of it and behind it. A negative size is one beyond that
of every object when it becomes a `size_t`.
-/
def realloc (alloc : Allocator) (i : Nat) (b : Option Block) (size : Int) : Option Block :=
  if size < 0 then none else alloc.resize i (b.getD { id := 0, bytes := [] }) size

structure Conn where
  receivedSize : Int
  bufferOffset : Int
  recvBuffer : Option Block
  reallocs : Nat
  recvs : List Recv
  deriving DecidableEq

/--
One round of the receive loop. `received_size` counts the bytes that were asked for, and the block
never becomes larger than the request.
-/
def recvBody (alloc : Allocator) (bufferSize : Int) (s : Conn)
    : Except Fault (Conn ⊕ Except Failure Block) := do
  let receivedSize ← addInt s.receivedSize 1000
  match realloc alloc s.reallocs s.recvBuffer bufferSize with
  | none => return .inr (.error .alloc)
  | some block =>
    match recv s.recvs with
    | (none, _) => return .inr (.error .recv)
    | (some received, recvs) =>
      let bytes ← store block.bytes s.bufferOffset received
      let recvBuffer := { block with bytes }
      let bufferOffset ← addInt s.bufferOffset 1000
      let currentResponse ← responseHeader bytes
      let currentResponseSize := toInt (currentResponse.size.toNat + sizeofResponseHeader)
      if receivedSize ≥ currentResponseSize then
        return .inr (.ok recvBuffer)
      else if 0 < received.length then
        return .inl {
          receivedSize, bufferOffset, recvBuffer := some recvBuffer, reallocs := s.reallocs + 1,
          recvs
        }
      else
        return .inr (.ok recvBuffer)

def Conn.initial (recvs : List Recv) : Conn where
  receivedSize := 0
  bufferOffset := 0
  recvBuffer := none
  reallocs := 0
  recvs := recvs

def bufferSize (request : Frame) : Int := toInt (sizeofRequestHeader + request.body.length)

/--
What is handed to `send`, which takes the size of the buffer for a `size_t`.
-/
def transmitBuffer (request : Frame) : List UInt8 :=
  request.bytes.take (bufferSize request % 18446744073709551616).toNat

/--
`send_request`, with the block that `recv_buffer` points to at its end. The assignment to `response`
is one to the parameter, which the caller does not see.
-/
def sendRequest (net : Network) (alloc : Allocator) (fuel : Nat) (server : List UInt8)
    (serverPort : Int) (request : Frame) : Option (Except Fault (Except Failure Block)) :=
  if net.socket < 0 then
    some (.ok (.error .socket))
  else
    let buffPort := printInt serverPort
    if 99 < buffPort.length then
      some (.ok (.error (.portOverflow buffPort.length)))
    else
      match net.getaddrinfo server buffPort with
      | .error rc => some (.ok (.error (.getaddrinfo rc)))
      | .ok [] => some (.ok (.error .noResults))
      | .ok serverinfo =>
        if serverinfo.all (· ≠ afInet) then
          -- `iter` has become `NULL` behind the last result.
          some (.error .nullPointer)
        else if net.connect < 0 then
          some (.ok (.error .connect))
        else if net.send (transmitBuffer request) < 0 then
          some (.ok (.error .send))
        else
          While.exec (recvBody alloc (bufferSize request)) fuel (Conn.initial net.recvs)

def port : Int := 8000

/--
What a call leaves: its return value, the pointer behind `p_resp`, and the buffer with the response,
which nothing frees.
-/
structure Outcome where
  ret : Int
  pResp : Option (Option Ptr)
  recvBuffer : Option Block
  deriving DecidableEq

/--
`p_resp` is the pointer behind it, or `none` for `NULL`. `slot` is what the local `p_resp_msg` holds,
which is not initialized.
-/
def raNetworkSendReceive (net : Network) (alloc : Allocator) (fuel : Nat)
    (serverUrl : Option (List UInt8)) (pReq : Option Frame) (pResp : Option (Option Ptr))
    (slot : Option Ptr) : Option (Except Fault Outcome) :=
  match serverUrl, pReq, pResp with
  | some server, some request, some _ =>
    (sendRequest net alloc fuel server port request).map (Except.map fun res => {
      ret := match res with
        | .error failure => failure.code
        | .ok _ => 0
      pResp := some slot
      recvBuffer := res.toOption
    })
  | _, _, _ => some (.ok { ret := Failure.code .nullArgument, pResp, recvBuffer := none })

end NetworkRa
