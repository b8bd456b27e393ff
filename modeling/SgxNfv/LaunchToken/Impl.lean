import SgxNfv.Enclave.Impl
import SgxNfv.Lib.CString.Copy
import SgxNfv.Lib.Stdio

/-!
This module contains `initialize_enclave`, which keeps the launch token of the enclave in a file from
one start to the next.
-/

open C
open Enclave (SgxStatus)
open Processor (sgxSuccess)

namespace LaunchToken

/--
How the calls of one start end. `createEnclave` gets the token, and gives the status, `updated` and
what it leaves behind the pointer to the token.
-/
structure Start where
  openRead : Bool
  openWrite : Bool
  readLimit : Nat
  createEnclave : Bytes 1024 → SgxStatus × Bool × Bytes 1024
  reopen : Bool
  writeLimit : Nat

/--
The local `token` is zero before the bytes are read to its beginning.
-/
def readToken (limit : Nat) (d : Disk) : Bytes 1024 :=
  let read := fread 1024 limit d
  if read.length ≠ 0 ∧ read.length ≠ 1024 then
    .zero 1024
  else
    ⟨read ++ List.replicate (1024 - read.length) 0, by
      have hle : read.length ≤ 1024 := length_fread_le 1024 limit d
      rw [List.length_append, List.length_replicate]
      omega⟩

/--
The disk behind the attempts to open the file.
-/
def openToken (env : Start) (d : Disk) : Disk :=
  let d := fopen env.openRead .rb d
  if d.stream = none then fopen env.openWrite .wb d else d

/--
The return value, with the token that `sgx_create_enclave` gets.
-/
def initializeEnclave (env : Start) (d : Disk) : (Int × Bytes 1024) × Disk :=
  let d := openToken env d
  let token := if d.stream = none then .zero 1024 else readToken env.readLimit d
  let (ret, updated, newToken) := env.createEnclave token
  if ret ≠ sgxSuccess then
    ((-1, token), fclose d)
  else if updated = false ∨ d.stream = none then
    ((0, token), fclose d)
  else
    let d := freopen env.reopen .wb d
    if d.stream = none then
      ((0, token), d)
    else
      ((0, token), fclose (fwrite newToken.val env.writeLimit d))

def step (d : Disk) (env : Start) : Except Fault ((Int × Bytes 1024) × Disk) :=
  .ok (initializeEnclave env d)

def maxPath : Nat := 4096

def tokenFilename : List UInt8 := ascii "enclave.token" ++ [0]

/--
The local `token_path` of the samples that keep the file in `$HOME`. `pw` is what `getpwuid` gives, with
`none` for `NULL`, as for the directory in it.
-/
def tokenPath (pw : Option (Option (List UInt8))) : Except Fault (List UInt8) :=
  let tokenPath := List.replicate maxPath 0
  match pw with
  | none => .error .nullPointer
  | some none => strncpy tokenPath tokenFilename tokenFilename.length
  | some (some homeDir) => do
    let slash := ascii "/" ++ [0]
    if (← strlen homeDir) + (← strlen slash) + tokenFilename.length + 1 ≤ maxPath then
      let tokenPath ← strncpy tokenPath homeDir (← strlen homeDir)
      let tokenPath ← strncat tokenPath slash (← strlen slash)
      strncat tokenPath tokenFilename (tokenFilename.length + 1)
    else
      strncpy tokenPath tokenFilename tokenFilename.length

end LaunchToken
