import SgxNfv.Lib.BigNum
import SgxNfv.Lib.Except

/-!
This module contains the key generation that the Python verifier is offered, and how the numbers of a
key get into arrays of bytes.
-/

open C

namespace CryptoWrapper

def ecKeySize : Nat := 32

def nidUndef : Int := 0

/--
A generated key. The coordinates of its public point are `none` when they cannot be computed.
-/
structure EcKey where
  priv : Nat
  affine : Option (Nat × Nat)
  deriving DecidableEq, Repr

/--
The answers of OpenSSL: the number of the curve, and the key on it. `none` stands for a key that is not
there, because the curve is not, or because the generation has failed.
-/
structure OpenSSL where
  nid : Int
  sslEc : Option EcKey

/--
The arrays of `_generateDHKeys_OpenSSL`.
-/
structure Keys where
  gaX : List UInt8
  gaY : List UInt8
  gaPriv : List UInt8
  deriving DecidableEq, Repr

/--
An array behind its `memset`, and behind `BN_bn2bin` if the number has no more than 32 bytes.
-/
def putNumber (bn : BigNum) (n : Nat) : Except Fault (List UInt8) :=
  let ga := List.replicate ecKeySize 0
  if ecKeySize < bn.numBytes n then return ga else store ga 0 (bn.bn2bin n)

/--
Only an unknown curve makes it return early, and then the arrays are left as they were. A key that is
not there is used all the same.
-/
def getOpenSSLKeys (bn : BigNum) (ssl : OpenSSL) (keys : Keys) : Except Fault Keys :=
  if ssl.nid = nidUndef then
    return keys
  else
    match ssl.sslEc with
    | none => throw .nullPointer
    | some sslEc => do
      let (x, y) := sslEc.affine.getD (0, 0)
      let gaX ← putNumber bn x
      let gaY ← putNumber bn y
      let gaPriv ← putNumber bn sslEc.priv
      return { gaX, gaY, gaPriv }

/--
The strings of the Python list.
-/
def generateDHKeys (bn : BigNum) (ssl : OpenSSL) (keys : Keys) : Except Fault (List (List UInt8)) := do
  let keys ← getOpenSSLKeys bn ssl keys
  return [keys.gaX.take 32, keys.gaY.take 32, keys.gaPriv.take 32]

end CryptoWrapper
