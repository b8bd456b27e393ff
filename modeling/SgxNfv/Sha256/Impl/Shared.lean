import SgxNfv.Lib.SharedMemory
import SgxNfv.Sha256.Impl

/-!
This module contains the hash of a packet in the enclave on memory that is not its own. The packet is
handed over as `[user_check]`, without a copy.
-/

open C

namespace SHA256

/--
`transformFrom` for the message at `base`, together with the number of reads. Of each block all words are
packed before anything else is done with it. In which order the bytes of a word are read is left open.
-/
def transformSharedFrom (mem : SharedMemory) (order : ReadOrder) (base : Nat)
    : (n i reads : Nat) → Vector UInt32 8 → Except Fault (Vector UInt32 8 × Nat)
  | 0, _, reads, mH => return (mH, reads)
  | n + 1, i, reads, mH => do
    let off ← shlInt i 6
    let subBlock ← mem.slice order reads (base + off.toNat) 64
    transformSharedFrom mem order base n (i + 1) (reads + 64) (transformBlock mH subBlock)

def transformShared (mH : Vector UInt32 8) (mem : SharedMemory) (order : ReadOrder) (base : Nat)
    (blockNb : UInt32) (reads : Nat) : Except Fault (Vector UInt32 8 × Nat) :=
  transformSharedFrom mem order base (toInt blockNb.toNat).toNat 0 reads mH

def updateShared (s : SHA256) (mem : SharedMemory) (order : ReadOrder) (len : UInt32)
    : Except Fault (SHA256 × Nat) := do
  let tmpLen := 64 - s.mLen
  let remLen := if len < tmpLen then len else tmpLen
  let s ← s.write s.mLen.toNat (← mem.slice order 0 0 remLen.toNat)
  let reads := remLen.toNat
  if s.mLen + len < 64 then
    return ({ s with mLen := s.mLen + len }, reads)
  else
    let newLen := len - remLen
    let blockNb := newLen / 64
    let shiftedMessage := remLen.toNat
    let mH ← transform s.mH s.mBlock 1
    let (mH, reads) ← transformShared mH mem order shiftedMessage blockNb reads
    let remLen := newLen % 64
    let rest ← mem.slice order reads (shiftedMessage + (blockNb <<< 6).toNat) remLen.toNat
    let s ← s.write 0 rest
    let reads := reads + remLen.toNat
    return ({ s with mH, mLen := remLen, mTotLen := s.mTotLen + ((blockNb + 1) <<< 6) }, reads)

/--
`ecallProcessPacketSha256`, together with the number of bytes that it has read from the packet.
-/
def ecallProcessPacketSha256Shared (digest : SHA256) (mem : SharedMemory) (order : ReadOrder)
    (length : UInt32) : Except Fault (List UInt8 × Nat) := do
  let (digest, reads) ← digest.init.updateShared mem order length
  return (← digest.final, reads)

end SHA256
