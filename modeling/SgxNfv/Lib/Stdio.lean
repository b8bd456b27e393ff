import Mathlib.Tactic.Common

/-!
This module contains the functions of the C library that work on a file, for one file and at most one
stream on it. How far each of them gets is up to the environment.
-/

namespace C

inductive OpenMode where
  | rb
  | wb
  deriving DecidableEq, Repr

/--
The contents of the file when there is one, and the stream when one is open.
-/
structure Disk where
  file : Option (List UInt8)
  stream : Option OpenMode
  deriving DecidableEq, Repr

/--
A stream for writing begins with an empty file, whether there was one or not.
-/
def fopen (granted : Bool) (mode : OpenMode) (d : Disk) : Disk :=
  match mode with
  | .rb => { d with stream := if granted && d.file.isSome then some .rb else none }
  | .wb => if granted then { file := some [], stream := some .wb } else { d with stream := none }

def fclose (d : Disk) : Disk := { d with stream := none }

/--
The old stream is closed, whether the new one can be opened or not.
-/
def freopen (granted : Bool) (mode : OpenMode) (d : Disk) : Disk := fopen granted mode (fclose d)

/--
The bytes that are read from the beginning of the file, at most `n`. A stream for writing has none.
-/
def fread (n limit : Nat) (d : Disk) : List UInt8 :=
  match d.stream with
  | some .rb => (d.file.getD []).take (min limit n)
  | _ => []

/--
`limit` is how many of the bytes get to the file before the stream is closed.
-/
def fwrite (bytes : List UInt8) (limit : Nat) (d : Disk) : Disk :=
  match d.stream with
  | some .wb => { d with file := d.file.map (· ++ bytes.take limit) }
  | _ => d

theorem length_fread_le (n limit : Nat) (d : Disk) : (fread n limit d).length ≤ n := by
  unfold fread
  split
  . rw [List.length_take]
    omega
  . exact Nat.zero_le n

end C
