import SgxNfv.Lib.Except
import SgxNfv.Lib.Heap

/-!
This module contains the class `SHA256` of the enclave, and the two functions that hash a packet
with it.
-/

open C

structure SHA256 where
  mTotLen : UInt32
  mLen : UInt32
  mBlock : List UInt8
  mH : Vector UInt32 8
  size_mBlock : mBlock.length = 128

namespace SHA256

def sha256K : List UInt32 := [
  0x428a2f98, 0x71374491, 0xb5c0fbcf, 0xe9b5dba5, 0x3956c25b, 0x59f111f1, 0x923f82a4, 0xab1c5ed5,
  0xd807aa98, 0x12835b01, 0x243185be, 0x550c7dc3, 0x72be5d74, 0x80deb1fe, 0x9bdc06a7, 0xc19bf174,
  0xe49b69c1, 0xefbe4786, 0x0fc19dc6, 0x240ca1cc, 0x2de92c6f, 0x4a7484aa, 0x5cb0a9dc, 0x76f988da,
  0x983e5152, 0xa831c66d, 0xb00327c8, 0xbf597fc7, 0xc6e00bf3, 0xd5a79147, 0x06ca6351, 0x14292967,
  0x27b70a85, 0x2e1b2138, 0x4d2c6dfc, 0x53380d13, 0x650a7354, 0x766a0abb, 0x81c2c92e, 0x92722c85,
  0xa2bfe8a1, 0xa81a664b, 0xc24b8b70, 0xc76c51a3, 0xd192e819, 0xd6990624, 0xf40e3585, 0x106aa070,
  0x19a4c116, 0x1e376c08, 0x2748774c, 0x34b0bcb5, 0x391c0cb3, 0x4ed8aa4a, 0x5b9cca4f, 0x682e6ff3,
  0x748f82ee, 0x78a5636f, 0x84c87814, 0x8cc70208, 0x90befffa, 0xa4506ceb, 0xbef9a3f7, 0xc67178f2
]

def sha2Shfr (x n : UInt32) : UInt32 := x >>> n

def sha2Rotr (x n : UInt32) : UInt32 := (x >>> n) ||| (x <<< (32 - n))

def sha2Ch (x y z : UInt32) : UInt32 := (x &&& y) ^^^ (~~~x &&& z)

def sha2Maj (x y z : UInt32) : UInt32 := (x &&& y) ^^^ (x &&& z) ^^^ (y &&& z)

def sha256F1 (x : UInt32) : UInt32 := sha2Rotr x 2 ^^^ sha2Rotr x 13 ^^^ sha2Rotr x 22

def sha256F2 (x : UInt32) : UInt32 := sha2Rotr x 6 ^^^ sha2Rotr x 11 ^^^ sha2Rotr x 25

def sha256F3 (x : UInt32) : UInt32 := sha2Rotr x 7 ^^^ sha2Rotr x 18 ^^^ sha2Shfr x 3

def sha256F4 (x : UInt32) : UInt32 := sha2Rotr x 17 ^^^ sha2Rotr x 19 ^^^ sha2Shfr x 10

def sha2Unpack32 (x : UInt32) : List UInt8 :=
  [(x >>> 24).toUInt8, (x >>> 16).toUInt8, (x >>> 8).toUInt8, x.toUInt8]

def sha2Pack32 (str : List UInt8) (off : Nat) : UInt32 :=
  (str.getD (off + 3) 0).toUInt32 ||| (str.getD (off + 2) 0).toUInt32 <<< 8
    ||| (str.getD (off + 1) 0).toUInt32 <<< 16 ||| (str.getD off 0).toUInt32 <<< 24

/--
The array `w`. Its entries are written in order, in each round one behind those there are.
-/
def expand (subBlock : List UInt8) : List UInt32 :=
  (List.range' 16 48).foldl
    (fun w j => w ++ [sha256F4 (w.getD (j - 2) 0) + w.getD (j - 7) 0
      + sha256F3 (w.getD (j - 15) 0) + w.getD (j - 16) 0])
    ((List.range 16).map fun j => sha2Pack32 subBlock (j <<< 2))

def round (w : List UInt32) (wv : Vector UInt32 8) (j : Nat) : Vector UInt32 8 :=
  let t1 := wv[7] + sha256F2 wv[4] + sha2Ch wv[4] wv[5] wv[6] + sha256K.getD j 0 + w.getD j 0
  let t2 := sha256F1 wv[0] + sha2Maj wv[0] wv[1] wv[2]
  let wv := wv.set 7 wv[6]
  let wv := wv.set 6 wv[5]
  let wv := wv.set 5 wv[4]
  let wv := wv.set 4 (wv[3] + t1)
  let wv := wv.set 3 wv[2]
  let wv := wv.set 2 wv[1]
  let wv := wv.set 1 wv[0]
  wv.set 0 (t1 + t2)

def transformBlock (mH : Vector UInt32 8) (subBlock : List UInt8) : Vector UInt32 8 :=
  let w := expand subBlock
  let wv := (List.range 64).foldl (round w) mH
  Vector.zipWith (· + ·) mH wv

def transformFrom (message : List UInt8) : (n i : Nat) → Vector UInt32 8
    → Except Fault (Vector UInt32 8)
  | 0, _, mH => return mH
  | n + 1, i, mH => do
    let off ← shlInt i 6
    let subBlock ← slice message off.toNat 64
    transformFrom message n (i + 1) (transformBlock mH subBlock)

def transform (mH : Vector UInt32 8) (message : List UInt8) (blockNb : UInt32)
    : Except Fault (Vector UInt32 8) :=
  transformFrom message (toInt blockNb.toNat).toNat 0 mH

def write (s : SHA256) (off : Nat) (bytes : List UInt8) : Except Fault SHA256 :=
  match h : store s.mBlock off bytes with
  | .error e => .error e
  | .ok mBlock => .ok { s with mBlock, size_mBlock := (length_store h).trans s.size_mBlock }

def init (s : SHA256) : SHA256 :=
  { s with
    mH := #v[0x6a09e667, 0xbb67ae85, 0x3c6ef372, 0xa54ff53a, 0x510e527f, 0x9b05688c, 0x1f83d9ab,
      0x5be0cd19]
    mLen := 0
    mTotLen := 0 }

def update (s : SHA256) (message : List UInt8) (len : UInt32) : Except Fault SHA256 := do
  let tmpLen := 64 - s.mLen
  let remLen := if len < tmpLen then len else tmpLen
  let s ← s.write s.mLen.toNat (← slice message 0 remLen.toNat)
  if s.mLen + len < 64 then
    return { s with mLen := s.mLen + len }
  else
    let newLen := len - remLen
    let blockNb := newLen / 64
    let shiftedMessage := message.drop remLen.toNat
    let mH ← transform s.mH s.mBlock 1
    let mH ← transform mH shiftedMessage blockNb
    let remLen := newLen % 64
    let s ← s.write 0 (← slice shiftedMessage (blockNb <<< 6).toNat remLen.toNat)
    return { s with mH, mLen := remLen, mTotLen := s.mTotLen + ((blockNb + 1) <<< 6) }

/--
The object that `final` leaves behind.
-/
def finalObject (s : SHA256) : Except Fault SHA256 := do
  let blockNb : UInt32 := 1 + (if 64 - 9 < s.mLen % 64 then 1 else 0)
  let lenB := (s.mTotLen + s.mLen) <<< 3
  let pmLen := blockNb <<< 6
  let s ← s.write s.mLen.toNat (List.replicate (pmLen - s.mLen).toNat 0)
  let s ← s.write s.mLen.toNat [0x80]
  let s ← s.write (pmLen.toNat - 4) (sha2Unpack32 lenB)
  let mH ← transform s.mH s.mBlock blockNb
  return { s with mH }

def final (s : SHA256) : Except Fault (List UInt8) := do
  let s ← s.finalObject
  return s.mH.toList.flatMap sha2Unpack32

def updates : SHA256 → List (List UInt8) → Except Fault SHA256
  | s, [] => return s
  | s, chunk :: chunks => do
    let s ← s.update chunk (UInt32.ofNat chunk.length)
    updates s chunks

def hashChunks (object : SHA256) (chunks : List (List UInt8)) : Except Fault (List UInt8) := do
  let s ← object.init.updates chunks
  s.final

/--
`digest` is the object on the stack, whose members are not initialized.
-/
def ecallProcessPacketSha256 (digest : SHA256) (data : List UInt8) (length : UInt32)
    : Except Fault (List UInt8) := do
  let digest ← digest.init.update data length
  digest.final

def callProcessPacketNoSgxSha256 (digest : SHA256) (data : List UInt8) (length : UInt32)
    : Except Fault (List UInt8) := do
  let digest ← digest.init.update data length
  digest.final

/--
`init`, `update` and `final` on one object, with the object as it is for the next message.
-/
def hash (digest : SHA256) (message : List UInt8) (len : UInt32)
    : Except Fault (SHA256 × List UInt8) := do
  let digest ← digest.init.update message len
  return (← digest.finalObject, ← digest.final)

end SHA256
