import SgxNfv.Enclave.Impl
import SgxNfv.Lib.Runs

/-!
This module contains the verification of `put_secret_data`: which secrets stand in the enclave, over
all orders of calls, and of `generate_key_pair`: what is seen of a private key outside.
-/

open C Runs
open Processor (sgxSuccess)

namespace Enclave

abbrev History := List (Event (Bytes 8) Call SgxStatus)

/--
The one secret that `put_secret_data` takes for the right one.
-/
def expectedSecret : Bytes 8 := ⟨(List.range 8).map UInt8.ofNat, rfl⟩

def Call.decrypts (c : Call) : Bool := c.secretSize = 8 && (c.env.getKeys c.context).isOk

/--
The secret in the message of a call that gets to the decryption, when the tag verifies.
-/
def Call.delivers (lib : SgxCrypto) (c : Call) : Option (Bytes 8) :=
  if hsize : c.secretSize = 8 then
    (c.env.getKeys c.context).toOption.bind fun skKey => (c.secret hsize).bind fun secret =>
      c.pGcmMac.bind fun mac => lib.rijndael128GCMDecrypt skKey secret (.zero 12) mac
  else
    none

/--
The state is the initial one, or a call that returned `SGX_SUCCESS` has delivered it.
-/
def Accepted (lib : SgxCrypto) (gSecret : Bytes 8) (h : History) : Prop :=
  gSecret = .zero 8 ∨ ∃ e ∈ h, e.ret = sgxSuccess ∧ e.call.delivers lib = some gSecret

def KeepsAccepted (lib : SgxCrypto) (e : Event (Bytes 8) Call SgxStatus) (h : History) : Prop :=
  (e.ret ≠ sgxSuccess → e.after = e.before) ∧ Accepted lib e.after (e :: h)

/--
A call that gets to the decryption delivers the expected secret or the one that is there already, or
its tag does not verify, and the decryption leaves zeros in its destination only where zeros are.
-/
structure Guarded (lib : SgxCrypto) (e : Event (Bytes 8) Call SgxStatus) : Prop where
  delivered : ∀ secret ∈ e.call.delivers lib, secret = expectedSecret ∨ secret = e.before
  refused : e.call.decrypts = true → e.call.delivers lib = none → e.call.env.cleared = true
    → e.before = .zero 8

theorem secretMatch_iff (gSecret : Bytes 8)
    : secretMatch gSecret 8 = true ↔ gSecret = expectedSecret := by
  have hsize : (8 : UInt32).toNat = 8 := rfl
  rw [secretMatch, hsize, List.all_eq_true]
  constructor
  . intro hall
    have hlen := gSecret.property
    apply Subtype.ext
    apply List.ext_getElem
    . rw [hlen, expectedSecret.property]
    . intro i hi hi'
      have hmatch := hall i (List.mem_range.mpr (by omega))
      rw [decide_eq_true_eq, List.getD_eq_getElem?_getD, List.getElem?_eq_getElem hi,
        Option.getD_some] at hmatch
      apply UInt8.toNat_inj.mp
      rw [hmatch]
      simp only [expectedSecret, List.getElem_map, List.getElem_range, UInt8.toNat_ofNat']
      omega
  . rintro rfl
    decide

/--
A call that does not get to the decryption changes nothing. One whose tag verifies puts its message
there whatever it says, and one whose tag does not verify may put zeros there.
-/
theorem putSecretData_cases (lib : SgxCrypto) (gSecret : Bytes 8) (c : Call)
    : (c.decrypts = false ∧ c.delivers lib = none
          ∧ ∃ error : SgxError, putSecretData lib gSecret c = (error.val, gSecret))
        ∨ (∃ secret, c.delivers lib = some secret
          ∧ putSecretData lib gSecret c
              = (if secret = expectedSecret then sgxSuccess else sgxErrorUnexpected, secret))
        ∨ (c.decrypts = true ∧ c.delivers lib = none
          ∧ ∃ error : SgxError, putSecretData lib gSecret c
              = (error.val, if c.env.cleared then .zero 8 else gSecret)) := by
  by_cases hsize : c.secretSize = 8
  . cases hkeys : c.env.getKeys c.context with
    | error status =>
      refine .inl ⟨?_, ?_, status, ?_⟩
      . simp [Call.decrypts, hkeys, Except.isOk, Except.toBool]
      . simp [Call.delivers, hsize, hkeys, Except.toOption]
      . simp [putSecretData, hsize, hkeys]
    | ok skKey =>
      have hdecrypts : c.decrypts = true := by
        simp [Call.decrypts, hsize, hkeys, Except.isOk, Except.toBool]
      have hdelivers : c.delivers lib = (c.secret hsize).bind fun secret => c.pGcmMac.bind fun mac =>
          lib.rijndael128GCMDecrypt skKey secret (.zero 12) mac := by
        simp [Call.delivers, hsize, hkeys, Except.toOption]
      right
      cases hres : c.delivers lib with
      | some secret =>
        refine .inl ⟨secret, rfl, ?_⟩
        rw [hdelivers] at hres
        unfold putSecretData
        rw [dif_pos hsize, hkeys]
        simp only [sgxRijndael128GCMDecrypt, hres, hsize, secretMatch_iff]
        split
        . rfl
        . rfl
      | none =>
        refine .inr ⟨hdecrypts, rfl, ?_⟩
        rw [hdelivers] at hres
        unfold putSecretData
        rw [dif_pos hsize, hkeys]
        simp only [sgxRijndael128GCMDecrypt, hres, hsize, secretMatch_iff]
        by_cases hmatch : (if c.env.cleared then .zero 8 else gSecret) = expectedSecret
        . exact ⟨c.env.refused, by rw [if_pos hmatch]⟩
        . exact ⟨⟨sgxErrorUnexpected, by decide⟩, by rw [if_neg hmatch]⟩
  . refine .inl ⟨?_, ?_, ⟨sgxErrorInvalidParameter, by decide⟩, ?_⟩
    . simp [Call.decrypts, hsize]
    . simp [Call.delivers, hsize]
    . simp [putSecretData, hsize]

section

variable {lib : SgxCrypto} {s s' : Bytes 8} {c : Call} {r : SgxStatus} {h : History}

theorem Accepted.cons (hs : Accepted lib s h) (e : Event (Bytes 8) Call SgxStatus)
    : Accepted lib s (e :: h) := by
  rcases hs with hzero | ⟨e', he', haccepted⟩
  . exact .inl hzero
  . exact .inr ⟨e', List.mem_cons_of_mem _ he', haccepted⟩

theorem step_keepsAccepted (hs : Accepted lib s h) (hstep : step lib s c = .ok (r, s'))
    (hguarded : Guarded lib ⟨s, c, r, s'⟩)
    : KeepsAccepted lib ⟨s, c, r, s'⟩ h := by
  have hput : putSecretData lib s c = (r, s') := Except.ok.inj hstep
  rcases putSecretData_cases lib s c with ⟨_, _, error, hres⟩ | ⟨secret, hdelivers, hres⟩
    | ⟨hdecrypts, hnone, error, hres⟩
  . rw [hput, Prod.mk.injEq] at hres
    rcases hres with ⟨rfl, rfl⟩
    exact ⟨fun _ => rfl, hs.cons _⟩
  . rw [hput, Prod.mk.injEq] at hres
    rcases hres with ⟨hret, rfl⟩
    by_cases hexpected : s' = expectedSecret
    . rw [if_pos hexpected] at hret
      subst hret
      exact ⟨fun hne => absurd rfl hne, .inr ⟨_, List.mem_cons_self, rfl, hdelivers⟩⟩
    . have hsame : s' = s := (hguarded.delivered s' hdelivers).resolve_left hexpected
      subst hsame
      exact ⟨fun _ => rfl, hs.cons _⟩
  . rw [hput, Prod.mk.injEq] at hres
    rcases hres with ⟨hret, hafter⟩
    have hsame : s' = s := by
      rw [hafter]
      split
      . next hcleared => exact (hguarded.refused hdecrypts hnone hcleared).symm
      . rfl
    subst hsame
    exact ⟨fun _ => rfl, hs.cons _⟩

theorem step_guarded (hstep : step lib s c = .ok (r, s'))
    (hkeeps : r ≠ sgxSuccess → s' = s) : Guarded lib ⟨s, c, r, s'⟩ := by
  have hput : putSecretData lib s c = (r, s') := Except.ok.inj hstep
  rcases putSecretData_cases lib s c with ⟨hdecrypts, hnone, _⟩ | ⟨secret, hdelivers, hres⟩
    | ⟨hdecrypts, hnone, error, hres⟩
  . constructor
    . intro secret hdelivers
      rw [Option.mem_def, hnone] at hdelivers
      simp at hdelivers
    . intro hdecrypts'
      rw [hdecrypts] at hdecrypts'
      simp at hdecrypts'
  . rw [hput, Prod.mk.injEq] at hres
    rcases hres with ⟨hret, rfl⟩
    constructor
    . intro secret hdelivers'
      rw [Option.mem_def, hdelivers, Option.some.injEq] at hdelivers'
      subst hdelivers'
      by_cases hexpected : s' = expectedSecret
      . exact .inl hexpected
      . rw [if_neg hexpected] at hret
        exact .inr (hkeeps (by rw [hret]; decide))
    . intro _ hnone
      rw [hdelivers] at hnone
      simp at hnone
  . rw [hput, Prod.mk.injEq] at hres
    rcases hres with ⟨rfl, hafter⟩
    constructor
    . intro secret hdelivers
      rw [Option.mem_def, hnone] at hdelivers
      simp at hdelivers
    . intro _ _ hcleared
      rw [if_pos hcleared] at hafter
      rw [← hkeeps error.property, hafter]

end

theorem putSecretData_keepsAccepted_iff (lib : SgxCrypto) {s : Bytes 8} {h : History}
    (hrun : Run (step lib) (.zero 8) s h)
    : Always (KeepsAccepted lib) h ↔ Always (fun e _ => Guarded lib e) h := by
  constructor
  . intro hkeeps
    refine (@Run.always _ _ _ _ _ _ _ _ (fun _ _ => True) _ _ hrun trivial ?_ hkeeps).1
    intro s s' c r h _ hstep hevent
    exact ⟨step_guarded hstep hevent.1, trivial⟩
  . intro hguarded
    refine (@Run.always _ _ _ _ _ _ _ _ (Accepted lib) _ _ hrun (.inl rfl) ?_ hguarded).1
    intro s s' c r h hs hstep hevent
    have hkeeps := step_keepsAccepted hs hstep hevent
    exact ⟨hkeeps, hkeeps.2⟩

/-!
Two messages for one session key: the one with the expected secret, and one with eight bytes 255.
-/

def exampleKey : Bytes 16 := .ofNat 16 0xc1d5c18b31e1213e2dff6e38292929b4

def expectedCiphertext : Bytes 8 := .ofNat 8 0xe913153ee1f85eb1

def expectedTag : Bytes 16 := .ofNat 16 0x82dfd17e5e96c1740b7f1b8138f569d7

def otherSecret : Bytes 8 := ⟨List.replicate 8 255, rfl⟩

def otherCiphertext : Bytes 8 := .ofNat 8 0x16ede8c21a02a749

def otherTag : Bytes 16 := .ofNat 16 0xb6fac38399296e4556e9c2c72dc982f1

def exampleLib : SgxCrypto where
  rijndael128GCMDecrypt key src _ mac :=
    if h : src.val = expectedCiphertext.val ∧ key = exampleKey ∧ mac = expectedTag then
      some ⟨expectedSecret.val, by rw [← src.property, h.1]; rfl⟩
    else if h : src.val = otherCiphertext.val ∧ key = exampleKey ∧ mac = otherTag then
      some ⟨otherSecret.val, by rw [← src.property, h.1]; rfl⟩
    else
      none

def exampleCall (secret : Bytes 8) (mac : Bytes 16) : Call where
  context := 0
  secretSize := 8
  pSecret := some secret
  pGcmMac := some mac
  env := {
    getKeys := fun _ => .ok exampleKey, refused := ⟨sgxErrorMacMismatch, by decide⟩, cleared := true
  }

theorem step_expected
    : step exampleLib (.zero 8) (exampleCall expectedCiphertext expectedTag)
        =
      .ok (sgxSuccess, expectedSecret) := by
  decide +kernel

theorem step_other
    : step exampleLib expectedSecret (exampleCall otherCiphertext otherTag)
        =
      .ok (sgxErrorUnexpected, otherSecret) := by
  decide +kernel

/--
A tag that does not verify, with a decryption that leaves its destination alone.
-/
def refusedCall : Call :=
  let c := exampleCall otherCiphertext expectedTag
  { c with env := { c.env with cleared := false } }

theorem step_refused
    : step exampleLib expectedSecret refusedCall = .ok (sgxErrorMacMismatch, expectedSecret) := by
  decide +kernel

theorem putSecretData_keepsAccepted_iff_expected
    : ∃ h, Run (step exampleLib) (.zero 8) expectedSecret h
        ∧ h.map (fun e => e.ret) = [sgxErrorMacMismatch, sgxSuccess]
        ∧ Always (KeepsAccepted exampleLib) h := by
  have hrun := Run.cons (.cons .nil step_expected) step_refused
  refine ⟨_, hrun, rfl, (putSecretData_keepsAccepted_iff exampleLib hrun).mpr ⟨?_, ?_, trivial⟩⟩
  . exact step_guarded step_refused (fun _ => rfl)
  . exact step_guarded step_expected (fun hne => absurd rfl hne)

theorem not_keepsAccepted_other
    : ∃ h, Run (step exampleLib) (.zero 8) otherSecret h
        ∧ h.map (fun e => e.ret) = [sgxErrorUnexpected, sgxSuccess]
        ∧ ¬ Always (KeepsAccepted exampleLib) h := by
  refine ⟨_, .cons (.cons .nil step_expected) step_other, rfl, ?_⟩
  rintro ⟨⟨hkeeps, _⟩, _⟩
  exact absurd (hkeeps (by decide)) (by decide)

theorem written_append (ocall : Nat → SgxStatus) (i : Nat) (cs cs' : List Ocall)
    : written ocall i (cs ++ cs') = written ocall i cs ++ written ocall (i + cs.length) cs' := by
  induction cs generalizing i with
  | nil => rfl
  | cons c cs ih =>
    rw [List.cons_append, written, written, ih, List.append_assoc, List.length_cons, Nat.add_assoc,
      Nat.add_comm 1]

theorem printHexByte_inj {b b' : UInt8} (h : printHexByte b = printHexByte b') : b = b' := by
  have hhex : printHex [b] = printHex [b'] := by
    simp only [printHex, List.flatMap_singleton]
    exact h
  exact List.head_eq_of_cons_eq (printHex_inj hhex)

/--
Two keys are written out alike when they agree in every byte whose call gets through.
-/
theorem written_hexbytes_eq_iff (ocall : Nat → SgxStatus) (i : Nat) {bytes bytes' : List UInt8}
    (hlen : bytes.length = bytes'.length)
    : written ocall i (bytes.map .printHexbyte) = written ocall i (bytes'.map .printHexbyte)
        ↔
      ∀ j, ocall (i + j) = sgxSuccess → bytes[j]? = bytes'[j]? := by
  induction bytes generalizing i bytes' with
  | nil =>
    rw [List.eq_nil_of_length_eq_zero hlen.symm]
    simp
  | cons b bytes ih =>
    cases bytes' with
    | nil => simp at hlen
    | cons b' bytes' =>
      have htail := ih (i + 1) (Nat.succ.inj hlen)
      simp only [Nat.add_assoc, Nat.add_comm 1] at htail
      rw [← Nat.and_forall_add_one, List.map_cons, List.map_cons, written, written]
      simp only [Ocall.output, List.getElem?_cons_zero, List.getElem?_cons_succ, Option.some.injEq,
        Nat.add_zero, ← htail]
      by_cases hsuccess : ocall i = sgxSuccess
      . rw [if_pos hsuccess, if_pos hsuccess]
        constructor
        . intro h
          rcases List.append_inj h rfl with ⟨hbyte, hrest⟩
          exact ⟨fun _ => printHexByte_inj hbyte, hrest⟩
        . rintro ⟨hbyte, hrest⟩
          rw [hbyte hsuccess, hrest]
      . simp [hsuccess]

theorem generateKeyPair_eq {env : KeyPairEnv} (priv : Bytes 32) (hopen : env.openContext = sgxSuccess)
    (hclose : env.closeContext = sgxSuccess)
    : generateKeyPair { env with createKeyPair := .ok priv }
        =
      (0, [.print (ascii "ECC256 private key: \n0x")] ++ priv.val.map .printHexbyte
        ++ [.print (ascii "\n")]) := by
  simp [generateKeyPair, hopen, hclose]

theorem terminal_eq {env : KeyPairEnv} (priv : Bytes 32) (hopen : env.openContext = sgxSuccess)
    (hclose : env.closeContext = sgxSuccess)
    : terminal { env with createKeyPair := .ok priv }
        =
      written env.ocall 0 [.print (ascii "ECC256 private key: \n0x")]
        ++ written env.ocall 1 (priv.val.map .printHexbyte)
        ++ written env.ocall 33 [.print (ascii "\n")] := by
  rw [terminal, generateKeyPair_eq priv hopen hclose, written_append, written_append]
  simp only [List.length_append, List.length_map, List.length_singleton, priv.property]

/--
A private key leaves the enclave with every success, and with nothing but a success: two keys can be
told apart from outside by every byte whose call gets through, unless `generate_key_pair` fails.
-/
theorem generateKeyPair_reveals_iff (env : KeyPairEnv) (priv priv' : Bytes 32)
    : terminal { env with createKeyPair := .ok priv } = terminal { env with createKeyPair := .ok priv' }
        ↔
      ((generateKeyPair { env with createKeyPair := .ok priv }).1 = 0
        → ∀ i, env.ocall (1 + i) = sgxSuccess → priv.val[i]? = priv'.val[i]?) := by
  by_cases hopen : env.openContext = sgxSuccess
  . by_cases hclose : env.closeContext = sgxSuccess
    . have hlen : priv.val.length = priv'.val.length := by rw [priv.property, priv'.property]
      rw [terminal_eq priv hopen hclose, terminal_eq priv' hopen hclose,
        generateKeyPair_eq priv hopen hclose, List.append_left_inj, List.append_right_inj,
        written_hexbytes_eq_iff env.ocall 1 hlen]
      simp
    . simp [terminal, generateKeyPair, hopen, hclose]
  . simp [terminal, generateKeyPair, hopen]

end Enclave
