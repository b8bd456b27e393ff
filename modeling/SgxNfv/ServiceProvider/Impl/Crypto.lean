import SgxNfv.Lib.Bytes

/-!
This module contains the interface of the sample crypto library, and the key derivation of the
service provider that rests on it.
-/

open C

namespace ServiceProvider

inductive SampleStatus where
  | success
  | errorUnexpected
  | errorInvalidParameter
  | errorOutOfMemory
  deriving DecidableEq, Repr

def SampleStatus.code : SampleStatus → Int
  | success => 0
  | errorUnexpected => 1
  | errorInvalidParameter => 2
  | errorOutOfMemory => 3

/--
What the functions of the library compute when they succeed. Where they draw random numbers these
are an argument.
-/
structure SampleCrypto where
  rijndael128Cmac : Bytes 16 → List UInt8 → Bytes 16
  rijndael128GcmEncrypt : Bytes 16 → List UInt8 → Bytes 12 → List UInt8 × Bytes 16
  sha256 : List UInt8 → Bytes 32
  ecc256CreateKeyPair : Bytes 32 → Bytes 32 × Bytes 64
  ecc256ComputeSharedDhkey : Bytes 32 → Bytes 64 → Bytes 32
  ecdsaSign : List UInt8 → Bytes 32 → Bytes 32 → Bytes 32 × Bytes 32

inductive DeriveKeyType where
  | smk
  | sk
  | mk
  | vk
  deriving DecidableEq, Repr

def DeriveKeyType.label : DeriveKeyType → List UInt8
  | smk => [0x53, 0x4d, 0x4b]
  | sk => [0x53, 0x4b]
  | mk => [0x4d, 0x4b]
  | vk => [0x56, 0x4b]

/--
How the calls inside `derive_key` end: the two CMACs with `malloc` between them. `left` is what a
second CMAC that fails leaves in the key.
-/
structure DeriveEnv where
  extract : SampleStatus
  malloc : Bool
  expand : SampleStatus
  left : Bytes 16
  deriving DecidableEq, Repr

def derivationBuffer (keyId : DeriveKeyType) : List UInt8 :=
  0x01 :: keyId.label ++ [0x00, 0x80, 0x00]

def deriveKey (lib : SampleCrypto) (env : DeriveEnv) (sharedKey : Bytes 32) (keyId : DeriveKeyType)
    (derivedKey : Bytes 16) : Bool × Bytes 16 :=
  if env.extract ≠ .success then
    (false, derivedKey)
  else if env.malloc = false then
    (false, derivedKey)
  else if env.expand ≠ .success then
    (false, env.left)
  else
    let keyDeriveKey := lib.rijndael128Cmac (.zero 16) sharedKey.val
    (true, lib.rijndael128Cmac keyDeriveKey (derivationBuffer keyId))

end ServiceProvider
