import Mathlib.Algebra.Group.Nat.Defs
import Mathlib.Tactic.Common
import SgxNfv.Lib.BlockHash

/-!
This module contains SHA-256 as FIPS 180-4 defines it, for messages of whole bytes.
-/

namespace FIPS180

def primes : List Nat :=
  (List.range 312).filter fun p => 2 ≤ p && (List.range p).all fun d => d < 2 || p % d ≠ 0

/--
The largest number whose `k`-th power is at most `n`, from its upper bits `r` and with `bits` bits
to go.
-/
def root (k n : Nat) : (bits : Nat) → (r : Nat) → Nat
  | 0, r => r
  | bits + 1, r => if (r + 2 ^ bits) ^ k ≤ n then root k n bits (r + 2 ^ bits) else root k n bits r

def rootFraction (k p : Nat) : UInt32 := UInt32.ofNat (root k (p * 2 ^ (32 * k)) 37 0)

/--
4.2.2, the constants: the cube roots of the first 64 primes.
-/
def k : List UInt32 := primes.map (rootFraction 3)

def rotr (n : Nat) (x : UInt32) : UInt32 := ⟨x.toBitVec.rotateRight n⟩

def shr (n : Nat) (x : UInt32) : UInt32 := ⟨x.toBitVec >>> n⟩

/-!
4.1.2, the functions.
-/

def ch (x y z : UInt32) : UInt32 := (x &&& y) ^^^ (~~~x &&& z)

def maj (x y z : UInt32) : UInt32 := (x &&& y) ^^^ (x &&& z) ^^^ (y &&& z)

def bigSigma0 (x : UInt32) : UInt32 := rotr 2 x ^^^ rotr 13 x ^^^ rotr 22 x

def bigSigma1 (x : UInt32) : UInt32 := rotr 6 x ^^^ rotr 11 x ^^^ rotr 25 x

def smallSigma0 (x : UInt32) : UInt32 := rotr 7 x ^^^ rotr 18 x ^^^ shr 3 x

def smallSigma1 (x : UInt32) : UInt32 := rotr 17 x ^^^ rotr 19 x ^^^ shr 10 x

def word (block : List UInt8) (t : Nat) : UInt32 :=
  ⟨(block.getD (4 * t) 0).toBitVec ++ (block.getD (4 * t + 1) 0).toBitVec
    ++ (block.getD (4 * t + 2) 0).toBitVec ++ (block.getD (4 * t + 3) 0).toBitVec⟩

/--
6.2.2, step 1: the message schedule.
-/
def schedule (block : List UInt8) (t : Nat) : UInt32 :=
  if _ : t < 16 then
    word block t
  else
    smallSigma1 (schedule block (t - 2)) + schedule block (t - 7)
      + smallSigma0 (schedule block (t - 15)) + schedule block (t - 16)
termination_by t

structure Work where
  a : UInt32
  b : UInt32
  c : UInt32
  d : UInt32
  e : UInt32
  f : UInt32
  g : UInt32
  h : UInt32
  deriving DecidableEq, Repr

/--
5.3.3, the initial hash value: the square roots of the first eight primes.
-/
def initial : Work where
  a := rootFraction 2 2
  b := rootFraction 2 3
  c := rootFraction 2 5
  d := rootFraction 2 7
  e := rootFraction 2 11
  f := rootFraction 2 13
  g := rootFraction 2 17
  h := rootFraction 2 19

def round (kt wt : UInt32) (v : Work) : Work :=
  let t1 := v.h + bigSigma1 v.e + ch v.e v.f v.g + kt + wt
  let t2 := bigSigma0 v.a + maj v.a v.b v.c
  { a := t1 + t2, b := v.a, c := v.b, d := v.c, e := v.d + t1, f := v.e, g := v.f, h := v.g }

def rounds (block : List UInt8) (v : Work) : (n : Nat) → Work
  | 0 => v
  | n + 1 => round (k.getD n 0) (schedule block n) (rounds block v n)

def Work.add (v w : Work) : Work where
  a := v.a + w.a
  b := v.b + w.b
  c := v.c + w.c
  d := v.d + w.d
  e := v.e + w.e
  f := v.f + w.f
  g := v.g + w.g
  h := v.h + w.h

def compress (v : Work) (block : List UInt8) : Work := (rounds block v 64).add v

def be64 (n : Nat) : List UInt8 :=
  [n / 2 ^ 56, n / 2 ^ 48, n / 2 ^ 40, n / 2 ^ 32, n / 2 ^ 24, n / 2 ^ 16, n / 2 ^ 8, n].map
    UInt8.ofNat

/--
5.1.1, the padding behind a message of `len` bytes: the bit 1, the smallest number of zeros that
makes the blocks complete, and the length in bits.
-/
def padding (len : Nat) : List UInt8 :=
  0x80 :: (List.replicate ((119 - len % 64) % 64) 0 ++ be64 (8 * len))

def wordBytes (x : UInt32) : List UInt8 :=
  [⟨x.toBitVec.extractLsb' 24 8⟩, ⟨x.toBitVec.extractLsb' 16 8⟩, ⟨x.toBitVec.extractLsb' 8 8⟩,
    ⟨x.toBitVec.extractLsb' 0 8⟩]

def Work.bytes (v : Work) : List UInt8 :=
  [v.a, v.b, v.c, v.d, v.e, v.f, v.g, v.h].flatMap wordBytes

def sha256 (msg : List UInt8) : List UInt8 :=
  (BlockHash.absorb compress 64 initial (msg ++ padding msg.length)).bytes

end FIPS180
