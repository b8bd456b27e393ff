import SgxNfv.Lib.CString.Hex
import SgxNfv.Lib.While
import SgxNfv.Sha256.Impl

/-!
This module contains the workloads of the execution benchmark. Each of them is there twice with the
same text, once inside the enclave (`ecall_stress`, `ecall_stress_memory`, `ecall_sha`) and once
outside of it.
-/

open C

namespace Benchmark

/--
The loop with `n` rounds to go. Only as many bytes of the digest are hashed as the first message has.
-/
def stressRounds : (n : Nat) → SHA256 → (hash : List UInt8) → Except Fault (List UInt8)
  | 0, _, hash => return hash
  | n + 1, digest, hash => do
    let len ← strlen (ascii "hello" ++ [0])
    let (digest, hash) ← digest.hash hash (UInt32.ofNat len)
    stressRounds n digest hash

/--
What stands in `hash` at the end.
-/
def stress (digest : SHA256) : Except Fault (List UInt8) := do
  let data := ascii "hello" ++ [0]
  let len ← strlen data
  let (digest, hash) ← digest.hash data (UInt32.ofNat len)
  stressRounds 100000 digest hash

def ecallStress (digest : SHA256) : Except Fault (List UInt8) := stress digest

structure MemoryState where
  i : Int
  dataLocal : List UInt8
  deriving DecidableEq, Repr

def memoryBody (length : Int) (s : MemoryState) : Except Fault (MemoryState ⊕ List UInt8) := do
  if s.i < length then
    let lhs ← load s.dataLocal s.i
    let rhs ← load s.dataLocal (← addInt s.i (-1))
    let dataLocal ← store s.dataLocal s.i [lhs + rhs]
    let i ← addInt s.i 1
    return .inl { i, dataLocal }
  else
    return .inr s.dataLocal

def stressMemory (fuel : Nat) (data : List UInt8) (length : Int32)
    : Option (Except Fault (List UInt8)) :=
  While.exec (memoryBody length.toInt) fuel { i := 1, dataLocal := data }

def ecallStressMemory (fuel : Nat) (data : List UInt8) (length : Int32)
    : Option (Except Fault (List UInt8)) :=
  stressMemory fuel data length

def sha (digest : SHA256) (data : List UInt8) (length : Int32) : Except Fault (List UInt8) :=
  (digest.hash data (toUnsigned length.toInt)).map Prod.snd

def ecallSha (digest : SHA256) (data : List UInt8) (length : Int32) : Except Fault (List UInt8) :=
  sha digest data length

/--
The digest in `buf`, two digits and a NUL at a time.
-/
def printDigest (digest : List UInt8) (n : Nat) (buf : List UInt8) : Except Fault (List UInt8) :=
  (List.range n).foldlM
    (fun buf (i : Nat) => do store buf (i * 2 : Nat) (printHexByte (← load digest i) ++ [0]))
    buf

/--
`buf` is the array on the stack, which is not initialized. The length is one of type `size_t`, it is
cut down to `unsigned int` for `update`.
-/
def sha256 (ctx : SHA256) (buf : List UInt8) (input : List UInt8) : Except Fault (List UInt8) := do
  let (_, digest) ← ctx.hash input (UInt32.ofNat input.length)
  let buf ← store buf (2 * 32) [0]
  let buf ← printDigest digest 32 buf
  return buf.take (← strlen buf)

end Benchmark
