import SgxNfv.ServiceProvider.Impl.State

/-!
This module contains the simulated attestation server that the service provider calls.
-/

open C

namespace ServiceProvider

inductive IasQuoteStatus where
  | ok
  | signatureInvalid
  | groupRevoked
  | signatureRevoked
  | keyRevoked
  | sigrlVersionMismatch
  | groupOutOfDate
  deriving DecidableEq, Repr

inductive IasPseStatus where
  | ok
  | descTypeNotSupported
  | isvsvnOutOfDate
  | miscselectInvalid
  | attributesInvalid
  | mrsignerInvalid
  | hwGidRevoked
  | hwPrivkeyRlverMismatch
  | hwSigRlverMismatch
  | hwCaIdInvalid
  | hwSecInfoInvalid
  | hwPsdaSvnOutOfDate
  deriving DecidableEq, Repr

structure IasAttReport where
  status : IasQuoteStatus
  infoBlob : Bytes 97
  pseStatus : IasPseStatus
  deriving DecidableEq, Repr

structure IasEnv where
  openContext : SampleStatus
  sign : SampleStatus
  seed : Bytes 32
  deriving DecidableEq, Repr

def gRkPrivKey : Bytes 32 := ⟨[
  0x63, 0x2c, 0xd4, 0x02, 0x7a, 0xdc, 0x56, 0xa5, 0x59, 0x6c, 0x44, 0x3e, 0x43, 0xca, 0x4e, 0x0b,
  0x58, 0xcd, 0x78, 0xcb, 0x3c, 0x7e, 0xd5, 0xb9, 0xf2, 0x91, 0x5b, 0x39, 0x0d, 0xb3, 0xb5, 0xfb
], rfl⟩

def gSimSpid : Bytes 16 :=
  ⟨[0x53, 0x65, 0x72, 0x76, 0x69, 0x63, 0x65, 0x20, 0x58, 0, 0, 0, 0, 0, 0, 0], rfl⟩

/--
Reverse the bytes of each of the eight words, and the words.
-/
def swapEndian32B (x : Bytes 32) : Bytes 32 := x.reverse

/--
`ret` is the answer of the attestation server, here and in `iasGetSigrl`.
-/
def iasEnroll (ret : Int) : Sp Int := do
  modify fun s => if ret = 0 then { s with gSpid := gSimSpid } else s
  return ret

def iasGetSigrl (ret : Int) : Int × List UInt8 := (ret, [])

def iasVerifyAttestationEvidence (lib : SampleCrypto) (env : IasEnv) : Except Int IasAttReport :=
  let status := Bytes.zero 33
  if env.openContext ≠ .success then
    .error (-1)
  else if env.sign ≠ .success then
    .error SpRaMsgStatus.internalError.code
  else
    let signature := lib.ecdsaSign status.val gRkPrivKey env.seed
    .ok {
      status := .ok
      infoBlob := (status.append (swapEndian32B signature.1)).append (swapEndian32B signature.2)
      pseStatus := .ok
    }

end ServiceProvider
