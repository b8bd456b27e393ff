import SgxNfv.Processor.Impl.Scan

/-!
This module contains the untrusted wrapper around the enclave's packet scan.
-/

open C

namespace Processor

def sgxSuccess : UInt32 := 0

/--
One crossing into the enclave: the status it returns, and what the uninitialized stack slot of
`sgx_return` held before.
-/
structure Ecall where
  status : UInt32
  slot : Int32
  deriving DecidableEq, Repr

/--
The generated stub. It writes the return slot only when the call succeeds.
-/
def Ecall.processPacket (e : Ecall) (fuel : Nat) (data : List UInt8) (length : UInt32)
    : Option (Except Fault Int) :=
  if e.status = sgxSuccess then
    ecallProcessPacket fuel data length
  else
    some (.ok e.slot.toInt)

/--
A status other than `sgxSuccess` is only printed, the slot is returned either way.
-/
def callProcessPacketSgx (e : Ecall) (fuel : Nat) (data : List UInt8) (length : UInt32)
    : Option (Except Fault Int) :=
  e.processPacket fuel data length

end Processor
