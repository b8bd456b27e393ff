import SgxNfv.ServiceProvider.Impl.Crypto

/-!
This module contains the globals of the service provider, and the computations on them that its
functions are made of.
-/

open C

namespace ServiceProvider

inductive SpRaMsgStatus where
  | ok
  | unsupportedExtendedEpidGroup
  | integrityFailed
  | quoteVerificationFailed
  | iasFailed
  | internalError
  | protocolError
  | quoteVersionError
  deriving DecidableEq, Repr

def SpRaMsgStatus.code : SpRaMsgStatus → Int
  | ok => 0
  | unsupportedExtendedEpidGroup => 1
  | integrityFailed => 2
  | quoteVerificationFailed => 3
  | iasFailed => 4
  | internalError => 5
  | protocolError => 6
  | quoteVersionError => 7

structure SpDbItem where
  gA : Bytes 64
  gB : Bytes 64
  vkKey : Bytes 16
  mkKey : Bytes 16
  skKey : Bytes 16
  smkKey : Bytes 16
  b : Bytes 32
  psSecProp : Bytes 256
  deriving DecidableEq, Repr

/--
The globals of the service provider. The pointer to the extended epid group is the id of the group,
or `none` for `NULL`.
-/
structure SpState where
  gSpDb : SpDbItem
  gSpExtendedEpidGroupId : Option UInt32
  gIsSpRegistered : Bool
  gSpid : Bytes 16
  deriving DecidableEq, Repr

def SpState.initial : SpState where
  gSpDb := {
    gA := .zero 64, gB := .zero 64, vkKey := .zero 16, mkKey := .zero 16, skKey := .zero 16,
    smkKey := .zero 16, b := .zero 32, psSecProp := .zero 256
  }
  gSpExtendedEpidGroupId := none
  gIsSpRegistered := false
  gSpid := .zero 16

/--
The ids of `g_extended_epid_groups`. The callbacks of the one group are the functions `ias_..`.
-/
def gExtendedEpidGroups : List UInt32 := [0]

def gSpPrivKey : Bytes 32 := ⟨[
  0x90, 0xe7, 0x6c, 0xbb, 0x2d, 0x52, 0xa1, 0xce, 0x3b, 0x66, 0xde, 0x11, 0x43, 0x9c, 0x87, 0xec,
  0x1f, 0x86, 0x6a, 0x3b, 0x65, 0xb6, 0xae, 0xea, 0xad, 0x57, 0x34, 0x53, 0xd1, 0x03, 0x8c, 0x01
], rfl⟩

def gSecret : List UInt8 := [0, 1, 2, 3, 4, 5, 6, 7]

/--
How a function stops early: with a return value other than 0, or in undefined behaviour.
-/
inductive Stop where
  | ret (code : Int)
  | fault (fault : Fault)
  deriving DecidableEq, Repr

/--
The functions of the service provider, which keep what they did to the globals when they stop early.
-/
abbrev Sp := EStateM Stop SpState

def stop {α : Type} (code : Int) : Sp α := throw (.ret code)

def stopIf (p : Prop) [Decidable p] (code : Int) : Sp Unit := if p then stop code else pure ()

def read {α : Type} (x : Except Fault α) : Sp α :=
  match x with
  | .ok a => pure a
  | .error fault => throw (.fault fault)

def call (status : SampleStatus) (code : Int) : Sp Unit := stopIf (status ≠ .success) code

def modifyDb (f : SpDbItem → SpDbItem) : Sp Unit := modify fun s => { s with gSpDb := f s.gSpDb }

def deref (group : Option UInt32) : Sp UInt32 :=
  match group with
  | none => throw (.fault .nullPointer)
  | some id => pure id

structure Response (β : Type) where
  type : UInt8
  status : UInt8 × UInt8
  size : UInt32
  body : β
  deriving DecidableEq, Repr

end ServiceProvider
