import SgxNfv.Server.Impl

/-!
This module contains the two servers as one family, and when they call their packet processor: exactly
when the receiving part comes to an end with a call.
-/

open C Processor

namespace Server

inductive Kind where
  | sgx
  | noSgx
  deriving DecidableEq, Repr

namespace Kind

def process (kind : Kind) (e : Ecall) (fuel : Nat) (data : List UInt8) (length : UInt32)
    : Option (Except Fault Int) :=
  match kind with
  | sgx => callProcessPacketSgx e fuel data length
  | noSgx => processPacket fuel data length

def handleConnection (kind : Kind) (e : Ecall) (sending : Send) (alloc : Allocator) (fuel : Nat)
    (net : List Recv) : Handling :=
  match kind with
  | sgx => SGX.handleConnection e sending alloc fuel net
  | noSgx => NoSGX.handleConnection sending alloc fuel net

/--
The number that gets into the reply, when the packet processor has returned `value`.
-/
def reported (kind : Kind) (value : Int) : Int :=
  match kind with
  | sgx => 0
  | noSgx => value

end Kind

section

variable {kind : Kind} {e : Ecall} {sending : Send} {alloc : Allocator} {fuel : Nat}
  {net : List Recv} {call : Call}

theorem Kind.handleConnection_eq (kind : Kind) (e : Ecall) (sending : Send) (alloc : Allocator)
    (fuel : Nat) (net : List Recv)
    : kind.handleConnection e sending alloc fuel net
        =
      serve (fun call => (kind.process e fuel call.data call.length).map
        (Except.map kind.reported)) sending alloc fuel net := by
  cases kind with
  | sgx => rfl
  | noSgx =>
    have hid : Except.map noSgx.reported = (id : Except Fault Int → Except Fault Int) := by
      funext res
      cases res with
      | error e => rfl
      | ok value => rfl
    simp only [hid, Option.map_id, id]
    rfl

theorem Kind.handleConnection_calls (kind : Kind) (e : Ecall) (sending : Send) (alloc : Allocator)
    (fuel : Nat) (net : List Recv)
    : (kind.handleConnection e sending alloc fuel net).calls
        =
      match receive alloc fuel net with
      | some (.ok (.ok call)) => [call]
      | _ => [] := by
  rw [handleConnection_eq]
  unfold serve
  rcases receive alloc fuel net with _ | _ | _ | _
  . rfl
  . rfl
  . rfl
  . rfl

theorem mem_calls_iff
    : call ∈ (kind.handleConnection e sending alloc fuel net).calls
        ↔
      receive alloc fuel net = some (.ok (.ok call)) := by
  rw [Kind.handleConnection_calls]
  rcases receive alloc fuel net with _ | _ | _ | call'
  . simp
  . simp
  . simp
  . simp [eq_comm]

theorem calls_eq_singleton (h : receive alloc fuel net = some (.ok (.ok call)))
    : (kind.handleConnection e sending alloc fuel net).calls = [call] := by
  rw [Kind.handleConnection_calls, h]

end
end Server
