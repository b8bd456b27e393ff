import SgxNfv.Lib.Bytes
import SgxNfv.Lib.CString.Hex
import SgxNfv.Processor.Impl.Ecall

/-!
This module contains the shared secret of the attestation enclave, `put_secret_data` that receives it,
and `generate_key_pair`.
-/

open C
open Processor (sgxSuccess)

namespace Enclave

abbrev SgxStatus := UInt32

def sgxErrorUnexpected : SgxStatus := 1

def sgxErrorInvalidParameter : SgxStatus := 2

def sgxErrorMacMismatch : SgxStatus := 0x3001

abbrev SgxError := { status : SgxStatus // status ≠ sgxSuccess }

/--
The functions of the SGX library: what a message decrypts to when its tag verifies.
-/
structure SgxCrypto where
  rijndael128GCMDecrypt {n : Nat} : Bytes 16 → Bytes n → Bytes 12 → Bytes 16 → Option (Bytes n)

/--
How the calls inside `put_secret_data` end: the key of a context or an error, and what a decryption
that fails returns and whether it clears its destination.
-/
structure Env where
  getKeys : UInt32 → Except SgxError (Bytes 16)
  refused : SgxError
  cleared : Bool

/--
The arguments of a call. The generated stub has copied the `secret_size` bytes and the 16 of the tag
into the enclave, `none` stands for `NULL`.
-/
structure Call where
  context : UInt32
  secretSize : UInt32
  pSecret : Option (Bytes secretSize.toNat)
  pGcmMac : Option (Bytes 16)
  env : Env

def Call.secret (c : Call) (hsize : c.secretSize = 8) : Option (Bytes 8) :=
  c.pSecret.map fun secret => ⟨secret.val, by rw [secret.property, hsize]; rfl⟩

/--
The status, and what stands in the destination behind the call.
-/
def sgxRijndael128GCMDecrypt {n : Nat} (lib : SgxCrypto) (env : Env) (key : Bytes 16)
    (pSrc : Option (Bytes n)) (dst : Bytes n) (iv : Bytes 12) (pInMac : Option (Bytes 16))
    : SgxStatus × Bytes n :=
  match pSrc.bind fun src => pInMac.bind fun mac => lib.rijndael128GCMDecrypt key src iv mac with
  | some plaintext => (sgxSuccess, plaintext)
  | none => (env.refused.val, if env.cleared then .zero n else dst)

def secretMatch (gSecret : Bytes 8) (secretSize : UInt32) : Bool :=
  (List.range secretSize.toNat).all fun i => (gSecret.val.getD i 0).toNat = i

/--
The status, and the new `g_secret`. The decryption writes to it directly, and its status is
overwritten when the bytes there do not match.
-/
def putSecretData (lib : SgxCrypto) (gSecret : Bytes 8) (c : Call) : SgxStatus × Bytes 8 :=
  if hsize : c.secretSize = 8 then
    match c.env.getKeys c.context with
    | .error status => (status.val, gSecret)
    | .ok skKey =>
      let aesGcmIv := .zero 12
      let (ret, gSecret) :=
        sgxRijndael128GCMDecrypt lib c.env skKey (c.secret hsize) gSecret aesGcmIv c.pGcmMac
      if secretMatch gSecret c.secretSize then (ret, gSecret) else (sgxErrorUnexpected, gSecret)
  else
    (sgxErrorInvalidParameter, gSecret)

def step (lib : SgxCrypto) (gSecret : Bytes 8) (c : Call) : Except Fault (SgxStatus × Bytes 8) :=
  .ok (putSecretData lib gSecret c)

/--
The calls out of the enclave.
-/
inductive Ocall where
  | print (str : List UInt8)
  | printHexbyte (byteval : UInt8)
  deriving DecidableEq, Repr

/--
What the application writes out for a call.
-/
def Ocall.output : Ocall → List UInt8
  | print str => str
  | printHexbyte byteval => printHexByte byteval

/--
How the calls inside `generate_key_pair` end. The calls out of the enclave have a status each, in the
order in which they are made, and it looks at none of them.
-/
structure KeyPairEnv where
  openContext : SgxStatus
  createKeyPair : Except SgxError (Bytes 32)
  closeContext : SgxStatus
  ocall : Nat → SgxStatus

/--
What the application has written out behind calls of which the first is number `i`. A call that fails
does not get to it.
-/
def written (ocall : Nat → SgxStatus) : Nat → List Ocall → List UInt8
  | _, [] => []
  | i, c :: cs => (if ocall i = sgxSuccess then c.output else []) ++ written ocall (i + 1) cs

/--
The result, and the calls out of the enclave.
-/
def generateKeyPair (env : KeyPairEnv) : Int × List Ocall :=
  if env.openContext ≠ sgxSuccess then
    (-1, [.print (ascii "Failed to open ecc context\n")])
  else
    match env.createKeyPair with
    | .error _ => (-1, [.print (ascii "Failed to generate ecc key pair\n")])
    | .ok priv =>
      if env.closeContext ≠ sgxSuccess then
        (-1, [.print (ascii "Failed to close ecc context\n")])
      else
        (0, [.print (ascii "ECC256 private key: \n0x")] ++ priv.val.map .printHexbyte
          ++ [.print (ascii "\n")])

/--
What the application has written out behind a call of `generate_key_pair`.
-/
def terminal (env : KeyPairEnv) : List UInt8 := written env.ocall 0 (generateKeyPair env).2

end Enclave
