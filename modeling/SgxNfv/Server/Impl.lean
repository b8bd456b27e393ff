import SgxNfv.Lib.CString.Basic
import SgxNfv.Lib.Heap
import SgxNfv.Processor.Impl.Ecall
import SgxNfv.Processor.Impl.Count

/-!
This module contains the TCP servers in front of the packet processors: how a connection is received
into a growing buffer, and how it is answered. The two servers share the text of the receiving part.
-/

open C Processor

namespace Server

structure Segment where
  bytes : List UInt8
  ne_nil : bytes ≠ []
  length_le : bytes.length ≤ 1000
  deriving DecidableEq

inductive Recv where
  | segment (s : Segment)
  | failed
  deriving DecidableEq

def Recv.bytes : Recv → List UInt8
  | .segment s => s.bytes
  | .failed => []

/--
Take the next result from the socket, with `none` for the return value -1. After the last result the
peer has closed the connection, and `recv` returns 0 from there on.
-/
def recv : List Recv → Option (List UInt8) × List Recv
  | [] => (some [], [])
  | .segment s :: net => (some s.bytes, net)
  | .failed :: net => (none, net)

inductive Abort where
  | mallocFailed
  | malformedHeader
  | malformedLength
  | reallocFailed (size : Int)
  | recvFailed
  deriving DecidableEq, Repr

/--
What the header of a request says. `data` is the offset of the byte behind it.
-/
structure Header where
  dataLength : Int
  headerLen : Int
  totalData : Int
  data : Nat
  deriving DecidableEq, Repr

def parseHeader (buff : List UInt8) : Except Fault (Except Abort Header) := do
  if ← strncmp (ascii "data_len:") buff then
    let dataLength ← strtol (buff.drop 9)
    let data := 9 + dataLength.endptr
    if ← strncmp (ascii "|data:") (buff.drop data) then
      let numLenChars := toInt (data - 9)
      let data := data + 6
      let headerLen ← addInt (← addInt 9 numLenChars) 6
      -- The sum is one of type `long int`, it is cut down to `int` only afterwards.
      let totalData := toInt (← addLong headerLen dataLength.value)
      return .ok { dataLength := dataLength.value, headerLen, totalData, data }
    else
      return .error .malformedLength
  else
    return .error .malformedHeader

structure Conn where
  recvSize : Int
  recvOffset : Int
  totalReceived : Int
  recvBuff : Block
  reallocs : Nat
  net : List Recv
  deriving DecidableEq

/--
One round of the receive loop. The window of the next `recv` moves on by 1000 bytes however many the
last one delivered.
-/
def recvBody (alloc : Allocator) (totalData : Int) (s : Conn)
    : Except Fault (Conn ⊕ Except Abort Conn) := do
  if s.totalReceived < totalData then
    let recvSize ← addInt s.recvSize 1000
    let recvOffset ← addInt s.recvOffset 1000
    match alloc.resize s.reallocs s.recvBuff recvSize with
    | none => return .inr (.error (.reallocFailed recvSize))
    | some block =>
      match recv s.net with
      | (none, _) => return .inr (.error .recvFailed)
      | (some received, net) =>
        let bytes ← store block.bytes recvOffset received
        let totalReceived ← addInt s.totalReceived received.length
        return .inl {
          recvSize, recvOffset, totalReceived, recvBuff := { block with bytes },
          reallocs := s.reallocs + 1, net
        }
  else
    return .inr (.ok s)

def openConn (alloc : Allocator) (net : List Recv) : Except Fault (Except Abort (Header × Conn)) := do
  if alloc.malloc then
    let (received, net) := recv net
    let bytes ← store (List.replicate 1000 0) 0 (received.getD [])
    match ← parseHeader bytes with
    | .error reason => return .error reason
    | .ok header =>
      let totalReceived := match received with
        | some received => (received.length : Int)
        | none => -1
      return .ok (header, {
        recvSize := 1000, recvOffset := 0, totalReceived, recvBuff := { id := 0, bytes },
        reallocs := 0, net
      })
  else
    return .error .mallocFailed

structure Call where
  header : Header
  conn : Conn
  deriving DecidableEq

/--
What the processor can read from its first argument, which points into the first block.
-/
def Call.data (c : Call) : List UInt8 :=
  ({ block := 0, off := c.header.data } : Ptr).bytes c.conn.recvBuff

def Call.length (c : Call) : UInt32 := toUnsigned c.header.dataLength

def receive (alloc : Allocator) (fuel : Nat) (net : List Recv)
    : Option (Except Fault (Except Abort Call)) :=
  match openConn alloc net with
  | .error e => some (.error e)
  | .ok (.error reason) => some (.ok (.error reason))
  | .ok (.ok (header, conn)) =>
    (While.exec (recvBody alloc header.totalData) fuel conn).map
      (Except.map (Except.map fun conn => { header, conn }))

inductive Outcome where
  | aborted (reason : Abort)
  | replied (sent : List UInt8)
  | notSent
  | killed
  deriving DecidableEq

/--
What `send` does with the reply: all of it is sent, or its first bytes, or it returns -1, or the process
ends because it does not handle the signal for a connection that was reset.
-/
inductive Send where
  | all
  | first (count : Nat)
  | failed
  | brokenPipe
  deriving DecidableEq, Repr

/--
How many bytes were sent is not looked at.
-/
def send (response : List UInt8) : Send → Outcome
  | .all => .replied response
  | .first count => .replied (response.take count)
  | .failed => .notSent
  | .brokenPipe => .killed

def response (value : Int) : List UInt8 := ascii "OK:" ++ printInt value ++ [0]

/--
The calls of the packet processor while a connection is handled, and what becomes of the connection.
-/
structure Handling where
  calls : List Call
  outcome : Option (Except Fault Outcome)
  deriving DecidableEq

/--
What the two servers share: `respond` computes the number of the reply.
-/
def serve (respond : Call → Option (Except Fault Int)) (sending : Send) (alloc : Allocator)
    (fuel : Nat) (net : List Recv) : Handling :=
  match receive alloc fuel net with
  | none => { calls := [], outcome := none }
  | some (.error e) => { calls := [], outcome := some (.error e) }
  | some (.ok (.error reason)) => { calls := [], outcome := some (.ok (.aborted reason)) }
  | some (.ok (.ok call)) => {
      calls := [call]
      outcome := (respond call).map (Except.map fun value => send (response value) sending)
    }

namespace SGX

/--
`enclave_return` keeps its initial value, the result of the processor is not assigned to it.
-/
def handleConnection (e : Ecall) (sending : Send) (alloc : Allocator) (fuel : Nat)
    (net : List Recv) : Handling :=
  let enclaveReturn := 0
  serve (fun call => (callProcessPacketSgx e fuel call.data call.length).map
    (Except.map fun _ => enclaveReturn)) sending alloc fuel net

end SGX

namespace NoSGX

def handleConnection (sending : Send) (alloc : Allocator) (fuel : Nat) (net : List Recv)
    : Handling :=
  serve (fun call => processPacket fuel call.data call.length) sending alloc fuel net

end NoSGX

/--
What `accept` gives. When it fails that is only printed, and the connection with the descriptor -1 is
handled like any other one.
-/
inductive Accept where
  | connected (net : List Recv)
  | failed
  deriving DecidableEq

def Accept.net : Accept → List Recv
  | connected net => net
  | failed => [.failed]

/--
One round of the loop in `run_server`, with the answers of the allocator, of the enclave and of `send`
while the connection is handled.
-/
structure Visit where
  accept : Accept
  alloc : Allocator
  ecall : Ecall
  sending : Send

inductive Progress where
  | accepting
  | handling
  | stopped (fault : Fault)
  | killed
  deriving DecidableEq, Repr

/--
The loop: what has become of the connections, and whether it has got to the next `accept`, is still
in `handle_connection`, has met a fault there, or has ended there with the process.
-/
def acceptLoop (handleConnection : Visit → Option (Except Fault Outcome))
    : List Visit → List Outcome × Progress
  | [] => ([], .accepting)
  | v :: visits =>
    match handleConnection v with
    | none => ([], .handling)
    | some (.error fault) => ([], .stopped fault)
    | some (.ok .killed) => ([], .killed)
    | some (.ok outcome) =>
      let (outcomes, progress) := acceptLoop handleConnection visits
      (outcome :: outcomes, progress)

/--
The return values of the network functions in front of the loop. That of `setsockopt` is not looked
at.
-/
structure Startup where
  socket : Int
  bind : Int
  listen : Int
  deriving DecidableEq, Repr

inductive StartFailure where
  | socket
  | bind
  | listen
  deriving DecidableEq, Repr

def runServer (handleConnection : Visit → Option (Except Fault Outcome)) (startup : Startup)
    (visits : List Visit) : Except StartFailure (List Outcome × Progress) :=
  if startup.socket < 0 then
    .error .socket
  else if startup.bind < 0 then
    .error .bind
  else if startup.listen < 0 then
    .error .listen
  else
    .ok (acceptLoop handleConnection visits)

namespace SGX

def runServer (startup : Startup) (fuel : Nat) (visits : List Visit)
    : Except StartFailure (List Outcome × Progress) :=
  Server.runServer (fun v => (handleConnection v.ecall v.sending v.alloc fuel v.accept.net).outcome)
    startup visits

end SGX

namespace NoSGX

def runServer (startup : Startup) (fuel : Nat) (visits : List Visit)
    : Except StartFailure (List Outcome × Progress) :=
  Server.runServer (fun v => (handleConnection v.sending v.alloc fuel v.accept.net).outcome)
    startup visits

end NoSGX
end Server
