import SgxNfv.Lib.Except
import SgxNfv.Lib.Frame
import SgxNfv.ServiceProvider.Impl.Proc

/-!
This module contains the lemmas about the computations that the functions of the service provider
are made of.
-/

open C Frame

namespace ServiceProvider

section

variable {s : SpState} {code : Int} {α : Type}

@[simp]
theorem run_stop : (stop code : Sp α).run s = .error (.ret code) s := rfl

@[simp]
theorem run_stopIf {p : Prop} [Decidable p]
    : (stopIf p code).run s = if p then .error (.ret code) s else .ok () s := by
  unfold stopIf
  split
  . rfl
  . rfl

@[simp]
theorem run_read_ok (a : α) : (read (.ok a) : Sp α).run s = .ok a s := rfl

@[simp]
theorem run_read_error (fault : Fault) : (read (.error fault) : Sp α).run s = .error (.fault fault) s := rfl

@[simp]
theorem run_call_success : (call .success code).run s = .ok () s := rfl

theorem run_call_of_ne {status : SampleStatus} (h : status ≠ .success)
    : (call status code).run s = .error (.ret code) s := by
  rw [call, run_stopIf, if_pos h]

@[simp]
theorem run_deref_some (id : UInt32) : (deref (some id)).run s = .ok id s := rfl

@[simp]
theorem run_deref_none : (deref none).run s = .error (.fault .nullPointer) s := rfl

@[simp]
theorem run_modifyDb (f : SpDbItem → SpDbItem)
    : (modifyDb f).run s = .ok () { s with gSpDb := f s.gSpDb } := rfl

end

section

variable {γ : Type} {f : SpState → γ}

theorem keeps_stop {α : Type} (code : Int) : Keeps f (stop code : Sp α) := keeps_throw _

theorem keeps_stopIf {p : Prop} [Decidable p] (code : Int) : Keeps f (stopIf p code) :=
  keeps_ite (keeps_stop code) (keeps_pure ())

theorem keeps_call (status : SampleStatus) (code : Int) : Keeps f (call status code) :=
  keeps_stopIf code

theorem keeps_read {α : Type} (x : Except Fault α) : Keeps f (read x) := by
  cases x with
  | ok a => exact keeps_pure a
  | error fault => exact keeps_throw _

theorem keeps_deref (group : Option UInt32) : Keeps f (deref group) := by
  cases group with
  | some id => exact keeps_pure id
  | none => exact keeps_throw _

end

def DeriveEnv.complete (env : DeriveEnv) : Bool :=
  env.extract == .success && env.malloc && env.expand == .success

def derivedKey (lib : SampleCrypto) (dhKey : Bytes 32) (keyId : DeriveKeyType) : Bytes 16 :=
  lib.rijndael128Cmac (lib.rijndael128Cmac (.zero 16) dhKey.val) (derivationBuffer keyId)

theorem run_deriveInto {lib : SampleCrypto} {env : DeriveEnv} (henv : env.complete = true)
    (dhKey : Bytes 32) (keyId : DeriveKeyType) (key : SpDbItem → Bytes 16)
    (setKey : SpDbItem → Bytes 16 → SpDbItem) (s : SpState)
    : (deriveInto lib env dhKey keyId key setKey).run s
        =
      .ok () { s with gSpDb := setKey s.gSpDb (derivedKey lib dhKey keyId) } := by
  simp only [DeriveEnv.complete, Bool.and_eq_true, beq_iff_eq] at henv
  rcases henv with ⟨⟨hextract, hmalloc⟩, hexpand⟩
  have hderive : ∀ old, deriveKey lib env dhKey keyId old = (true, derivedKey lib dhKey keyId) := by
    intro old
    simp [deriveKey, hextract, hmalloc, hexpand, derivedKey]
  simp [deriveInto, hderive]

end ServiceProvider
