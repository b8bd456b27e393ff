import SgxNfv.Lib.CInt
import SgxNfv.Lib.Except

/-!
This module contains the C string functions that a text protocol is written with: `strncmp` against
a literal, `strlen`, `strtol` in base 0 and `%i`. A string is the list of the bytes from the pointer
to the end of the object it points into, so that reading on at the end of the list is an access out
of bounds.
-/

namespace C

def ascii (s : String) : List UInt8 := s.toList.map Char.toUInt8

/--
`strncmp(lit, s, n) == 0` for a literal of length `n`. The comparison stops at the first difference.
-/
def strncmp : (lit s : List UInt8) → Except Fault Bool
  | [], _ => .ok true
  | _ :: _, [] => .error .outOfBounds
  | a :: lit, b :: s => if a = b then strncmp lit s else .ok false

def strlen : List UInt8 → Except Fault Nat
  | [] => .error .outOfBounds
  | c :: s =>
    if c = 0 then
      return 0
    else
      return (← strlen s) + 1

def isSpace (c : UInt8) : Bool := c = 32 || (9 ≤ c && c ≤ 13)

def digitVal (c : UInt8) : Nat :=
  if 48 ≤ c ∧ c ≤ 57 then
    c.toNat - 48
  else if 65 ≤ c ∧ c ≤ 90 then
    c.toNat - 55
  else if 97 ≤ c ∧ c ≤ 122 then
    c.toNat - 87
  else
    36

def isDigit (base : Nat) (c : UInt8) : Bool := digitVal c < base

def isHexMark (c : UInt8) : Bool := c = 120 || c = 88

/--
The digits at the start of a string: their value, with `acc` for the digits before, and their
number.
-/
def scanDigits (base : Nat) : (s : List UInt8) → (acc : Nat) → Except Fault (Nat × Nat)
  | [], _ => .error .outOfBounds
  | c :: s, acc =>
    if isDigit base c then do
      let (value, len) ← scanDigits base s (acc * base + digitVal c)
      return (value, len + 1)
    else
      return (acc, 0)

def scanSpace : List UInt8 → Except Fault Nat
  | [] => .error .outOfBounds
  | c :: s =>
    if isSpace c then
      return (← scanSpace s) + 1
    else
      return 0

/--
The prefix that selects the base, and the digits: their value and their length together, or `none`
when there is no number.
-/
def scanNumber : List UInt8 → Except Fault (Option (Nat × Nat))
  | [] => .error .outOfBounds
  | c :: s =>
    if c = 48 then
      match s with
      | [] => .error .outOfBounds
      | x :: s' =>
        if isHexMark x then
          match s' with
          | [] => .error .outOfBounds
          | d :: _ =>
            if isDigit 16 d then do
              let (value, len) ← scanDigits 16 s' 0
              return some (value, len + 2)
            else
              -- The number is the zero alone.
              return some (0, 1)
        else do
          let (value, len) ← scanDigits 8 s 0
          return some (value, len + 1)
    else if isDigit 10 c then do
      let res ← scanDigits 10 (c :: s) 0
      return some res
    else
      return none

def scanSigned : List UInt8 → Except Fault (Option (Int × Nat))
  | [] => .error .outOfBounds
  | c :: s =>
    if c = 45 then do
      let res ← scanNumber s
      return res.map fun (value, len) => (-(value : Int), len + 1)
    else if c = 43 then do
      let res ← scanNumber s
      return res.map fun (value, len) => ((value : Int), len + 1)
    else do
      let res ← scanNumber (c :: s)
      return res.map fun (value, len) => ((value : Int), len)

/--
What `strtol` gives back: the number, and how far behind the start of the string `*endptr` points.
-/
structure Strtol where
  value : Int
  endptr : Nat
  deriving DecidableEq, Repr

def clampLong (i : Int) : Int := max longMin (min longMax i)

def strtol (s : List UInt8) : Except Fault Strtol := do
  let space ← scanSpace s
  match ← scanSigned (s.drop space) with
  | none => return { value := 0, endptr := 0 }
  | some (value, len) => return { value := clampLong value, endptr := space + len }

def printNat (n : Nat) : List UInt8 := (Nat.toDigits 10 n).map Char.toUInt8

def printInt (i : Int) : List UInt8 :=
  if i < 0 then 45 :: printNat i.natAbs else printNat i.natAbs

end C
