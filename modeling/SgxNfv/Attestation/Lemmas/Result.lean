import SgxNfv.Attestation.Impl
import SgxNfv.Enclave.Lemmas
import SgxNfv.ServiceProvider.Lemmas.Interleaving
import SgxNfv.Verifier.Lemmas

/-!
This module contains the verification of the attestation result on its way from the service provider
into the enclave of the client.
-/

open C Enclave Runs
open Processor (sgxSuccess)
open ServiceProvider
open NetworkRa (sizeofResponseHeader)
open Verifier (le32 length_le32)

namespace Attestation

theorem uint32_le32 (n : UInt32) : uint32 ⟨le32 n, rfl⟩ = n := by
  rw [uint32, ← UInt32.toBitVec_inj]
  simp only [le32, List.getD_cons_zero, List.getD_cons_succ, UInt32.toBitVec_or,
    UInt32.toBitVec_shiftLeft, UInt8.toBitVec_toUInt32, UInt32.toBitVec_toUInt8,
    UInt32.toBitVec_shiftRight]
  apply BitVec.eq_of_getLsbD_eq
  intro i hi
  -- Bit `i` belongs to one of the four bytes.
  rcases (by omega : i < 8 ∨ 8 ≤ i ∧ i < 16 ∨ 16 ≤ i ∧ i < 24 ∨ 24 ≤ i) with h | h | h | h
  all_goals
    simp (disch := omega) [h]
  all_goals
    grind

section

variable (r : Response AttResultMsg)

theorem attResultObject_status
    : member (attResultObject r) 1 2 = .ok ⟨[r.status.1, r.status.2], rfl⟩ :=
  member_flatten [[r.type]] _ ⟨[r.status.1, r.status.2], rfl⟩ rfl

theorem attResultObject_platformInfoBlob
    : member (attResultObject r) 8 97 = .ok r.body.platformInfoBlob :=
  member_flatten [[r.type], [r.status.1, r.status.2], le32 r.size, [0]] _ _ rfl

theorem attResultObject_mac : member (attResultObject r) 105 16 = .ok r.body.mac := by
  apply member_flatten [
    [r.type], [r.status.1, r.status.2], le32 r.size, [0], r.body.platformInfoBlob.val
  ]
  simp [length_le32]

theorem attResultObject_payloadSize
    : member (attResultObject r) 121 4 = .ok ⟨le32 r.body.payloadSize, rfl⟩ := by
  apply member_flatten [
    [r.type], [r.status.1, r.status.2], le32 r.size, [0], r.body.platformInfoBlob.val,
    r.body.mac.val
  ] _ ⟨le32 r.body.payloadSize, rfl⟩
  simp [length_le32]

theorem attResultObject_payloadTag
    : member (attResultObject r) 137 16 = .ok r.body.payloadTag := by
  apply member_flatten [
    [r.type], [r.status.1, r.status.2], le32 r.size, [0], r.body.platformInfoBlob.val,
    r.body.mac.val, le32 r.body.payloadSize, (Bytes.zero 12).val
  ]
  simp [length_le32]

theorem attResultObject_payload {n : Nat} {payload : Bytes n}
    (hpayload : r.body.payload = payload.val)
    : member (attResultObject r) 153 n = .ok payload := by
  rw [attResultObject, hpayload]
  apply member_flatten [
    [r.type], [r.status.1, r.status.2], le32 r.size, [0], r.body.platformInfoBlob.val,
    r.body.mac.val, le32 r.body.payloadSize, (Bytes.zero 12).val, r.body.payloadTag.val
  ]
  simp [length_le32]

end

section

variable {rijndael128Cmac : Bytes 16 → List UInt8 → Bytes 16} {lib : SgxCrypto} {env : ResultEnv}
  {context : UInt32} {gSecret gSecret' : Bytes 8} {attResultMsg : List UInt8}

theorem verifyAttResultMac_eq_success {menv : MacEnv} {message : Bytes 97} {mac : Bytes 16}
    : verifyAttResultMac rijndael128Cmac menv context message mac = sgxSuccess
        ↔
      menv.cmac = sgxSuccess
        ∧ ∃ mkKey, menv.getKeys context = .ok mkKey ∧ mac = rijndael128Cmac mkKey message.val := by
  unfold verifyAttResultMac
  rw [if_neg (by decide), if_neg (by decide)]
  cases hkeys : menv.getKeys context with
  | error status => simp [status.property]
  | ok mkKey =>
    by_cases hcmac : menv.cmac = sgxSuccess
    . by_cases hmac : mac = rijndael128Cmac mkKey message.val
      . simp [hcmac, hmac]
      . have hval : mac.val ≠ (rijndael128Cmac mkKey message.val).val := fun h => hmac (Subtype.ext h)
        simp [hcmac, hmac, hval, sgxSuccess, sgxErrorMacMismatch]
    . simp [hcmac]

theorem putSecretData_eq_success {c : Call}
    : putSecretData lib gSecret c = (sgxSuccess, gSecret')
        ↔
      c.delivers lib = some expectedSecret ∧ gSecret' = expectedSecret := by
  rcases putSecretData_cases lib gSecret c with ⟨_, hnone, error, hres⟩ | ⟨secret, hsome, hres⟩
    | ⟨_, hnone, error, hres⟩
  . simp [hres, hnone, error.property]
  . rw [hres, hsome, Prod.mk.injEq, Option.some_inj]
    by_cases hsecret : secret = expectedSecret
    . simp [hsecret, eq_comm]
    . simp [hsecret, sgxErrorUnexpected, sgxSuccess]
  . simp [hres, hnone, error.property]

theorem delivers_eq_some {senv : Enclave.Env} {payloadSize : UInt32}
    {payload : Bytes payloadSize.toNat} {payloadTag : Bytes 16} {secret : Bytes 8}
    : Call.delivers lib {
          context, secretSize := payloadSize, pSecret := some payload, pGcmMac := some payloadTag
          env := senv
        } = some secret
        ↔
      payloadSize = 8 ∧ ∃ skKey ciphertext, senv.getKeys context = .ok skKey
        ∧ payload.val = ciphertext.val
        ∧ lib.rijndael128GCMDecrypt skKey ciphertext (.zero 12) payloadTag = some secret := by
  by_cases hsize : payloadSize = 8
  . cases hkeys : senv.getKeys context with
    | error status => simp [Call.delivers, hsize, hkeys, Except.toOption]
    | ok skKey =>
      simp [Call.delivers, hsize, hkeys, Except.toOption, Call.secret]
  . simp [Call.delivers, hsize]

/--
What the attestation result has to carry, for the keys of the context.
-/
structure Accepts (rijndael128Cmac : Bytes 16 → List UInt8 → Bytes 16) (lib : SgxCrypto)
    (mkKey skKey : Bytes 16) (attResultMsg : List UInt8) : Prop where
  mac : ∃ blob, member attResultMsg 8 97 = .ok blob
    ∧ member attResultMsg 105 16 = .ok (rijndael128Cmac mkKey blob.val)
  status : member attResultMsg 1 2 = .ok (.zero 2)
  payloadSize : ∃ payloadSize, member attResultMsg 121 4 = .ok payloadSize ∧ uint32 payloadSize = 8
  secret : ∃ payload payloadTag, member attResultMsg 153 8 = .ok payload
    ∧ member attResultMsg 137 16 = .ok payloadTag
    ∧ lib.rijndael128GCMDecrypt skKey payload (.zero 12) payloadTag = some expectedSecret

/--
The calls of the last part succeed, with these keys.
-/
structure ResultEnv.Completes (env : ResultEnv) (context : UInt32) (mkKey skKey : Bytes 16)
    : Prop where
  verify : env.verify = sgxSuccess
  cmac : env.mac.cmac = sgxSuccess
  put : env.put = sgxSuccess
  mkKey : env.mac.getKeys context = .ok mkKey
  skKey : env.secret.getKeys context = .ok skKey

theorem member_eq_ok_cast {mem : List UInt8} {off m n : Nat} {a : Bytes m} {b : Bytes n}
    (hmem : member mem off m = .ok a) (hval : a.val = b.val)
    : member mem off n = .ok b := by
  have hsize : m = n := by rw [← a.property, ← b.property, hval]
  subst hsize
  rw [hmem, Subtype.ext hval]

theorem processAttResult_eq_zero
    : processAttResult rijndael128Cmac lib env context gSecret (some attResultMsg)
          = .ok (0, gSecret')
        ↔
      env.verify = sgxSuccess ∧ ∃ blob, member attResultMsg 8 97 = .ok blob
        ∧ ∃ mac, member attResultMsg 105 16 = .ok mac
        ∧ (env.mac.cmac = sgxSuccess ∧ ∃ mkKey, env.mac.getKeys context = .ok mkKey
          ∧ mac = rijndael128Cmac mkKey blob.val)
        ∧ ∃ status, member attResultMsg 1 2 = .ok status ∧ status = .zero 2
        ∧ ∃ payloadSize, member attResultMsg 121 4 = .ok payloadSize ∧ env.put = sgxSuccess
        ∧ ∃ payload : Bytes (uint32 payloadSize).toNat,
          member attResultMsg 153 (uint32 payloadSize).toNat = .ok payload
        ∧ ∃ payloadTag, member attResultMsg 137 16 = .ok payloadTag
        ∧ (uint32 payloadSize = 8 ∧ ∃ skKey ciphertext, env.secret.getKeys context = .ok skKey
          ∧ payload.val = ciphertext.val
          ∧ lib.rijndael128GCMDecrypt skKey ciphertext (.zero 12) payloadTag = some expectedSecret)
        ∧ gSecret' = expectedSecret := by
  have hite : ∀ {c : Prop} [Decidable c] {x : Except Fault (Int × Bytes 8)},
      (if c then .ok (-1, gSecret) else x) = .ok (0, gSecret') ↔ ¬ c ∧ x = .ok (0, gSecret') := by
    intro c _ x
    split
    . simp [*]
    . simp [*]
  have hput : ∀ c, (Except.ok (if (putSecretData lib gSecret c).1 ≠ sgxSuccess then -1 else 0,
      (putSecretData lib gSecret c).2) : Except Fault (Int × Bytes 8)) = .ok (0, gSecret')
        ↔ putSecretData lib gSecret c = (sgxSuccess, gSecret') := by
    intro c
    by_cases hret : (putSecretData lib gSecret c).1 = sgxSuccess
    . simp [hret, Prod.ext_iff]
    . simp [hret, Prod.ext_iff]
  unfold processAttResult
  simp only [Except.pure_eq_ok, Except.bind_eq_ok, hite, not_not, hput, putSecretData_eq_success,
    delivers_eq_some, verifyAttResultMac_eq_success]

theorem processAttResult_of_accepts {mkKey skKey : Bytes 16}
    (henv : env.Completes context mkKey skKey)
    (haccept : Accepts rijndael128Cmac lib mkKey skKey attResultMsg)
    : processAttResult rijndael128Cmac lib env context gSecret (some attResultMsg)
        = .ok (0, expectedSecret) := by
  rcases haccept with ⟨⟨blob, hblob, hmac⟩, hstatus, ⟨payloadSize, hsize, height⟩,
    ⟨payload, payloadTag, hpayload, htag, hdec⟩⟩
  have hcast : (uint32 payloadSize).toNat = 8 := by
    rw [height]
    rfl
  let payload' : Bytes (uint32 payloadSize).toNat := ⟨payload.val, by rw [payload.property, hcast]⟩
  have hpayload' : member attResultMsg 153 (uint32 payloadSize).toNat = .ok payload' :=
    member_eq_ok_cast hpayload rfl
  exact processAttResult_eq_zero.mpr ⟨henv.verify, blob, hblob, _, hmac,
    ⟨henv.cmac, mkKey, henv.mkKey, rfl⟩, _, hstatus, rfl, payloadSize, hsize, henv.put, payload',
    hpayload', payloadTag, htag, ⟨height, skKey, payload, henv.skKey, rfl, hdec⟩, rfl⟩

/--
Which attestation results the client takes, and what it is left with.
-/
theorem processAttResult_eq_zero_iff (rijndael128Cmac : Bytes 16 → List UInt8 → Bytes 16)
    (lib : SgxCrypto) (env : ResultEnv) (context : UInt32) (gSecret gSecret' : Bytes 8)
    (attResultMsg : List UInt8)
    : processAttResult rijndael128Cmac lib env context gSecret (some attResultMsg)
          = .ok (0, gSecret')
        ↔
      (∃ mkKey skKey, env.Completes context mkKey skKey
          ∧ Accepts rijndael128Cmac lib mkKey skKey attResultMsg)
        ∧ gSecret' = expectedSecret := by
  constructor
  . intro hzero
    rcases processAttResult_eq_zero.mp hzero with ⟨hverify, blob, hblob, _, hmac,
      ⟨hcmac, mkKey, hmk, rfl⟩, _, hstatus, rfl, payloadSize, hsize, hput, payload, hpayload,
      payloadTag, htag, ⟨height, skKey, ciphertext, hsk, hval, hdec⟩, hsecret⟩
    refine ⟨⟨mkKey, skKey, ⟨hverify, hcmac, hput, hmk, hsk⟩, ?_⟩, hsecret⟩
    exact ⟨⟨blob, hblob, hmac⟩, hstatus, ⟨payloadSize, hsize, height⟩,
      ⟨ciphertext, payloadTag, member_eq_ok_cast hpayload hval, htag, hdec⟩⟩
  . rintro ⟨⟨mkKey, skKey, henv, haccept⟩, rfl⟩
    exact processAttResult_of_accepts henv haccept

end

/--
The libraries on the two sides are the same: they compute one CMAC, and the enclave decrypts what the
service provider has encrypted.
-/
structure Agrees (rijndael128Cmac : Bytes 16 → List UInt8 → Bytes 16) (lib : SgxCrypto)
    (sp : SampleCrypto) : Prop where
  cmac : ∀ key data, rijndael128Cmac key data = sp.rijndael128Cmac key data
  gcm : ∀ {n : Nat} (key : Bytes 16) (plaintext : Bytes n) (iv : Bytes 12),
    ∃ ciphertext : Bytes n, (sp.rijndael128GcmEncrypt key plaintext.val iv).1 = ciphertext.val
      ∧ lib.rijndael128GCMDecrypt key ciphertext iv
          (sp.rijndael128GcmEncrypt key plaintext.val iv).2 = some plaintext

section

variable {rijndael128Cmac : Bytes 16 → List UInt8 → Bytes 16} {lib : SgxCrypto} {sp : SampleCrypto}
  {env : ResultEnv} {context : UInt32}

theorem accepts_attResult (hagree : Agrees rijndael128Cmac lib sp) (session : Session)
    (seed : Bytes 32)
    : Accepts rijndael128Cmac lib session.mkKey session.skKey
        (attResultObject (attResult sp session seed)) := by
  have hmac := attResultObject_mac (attResult sp session seed)
  rcases hagree.gcm session.skKey expectedSecret (.zero 12) with ⟨ciphertext, henc, hdec⟩
  refine ⟨⟨_, attResultObject_platformInfoBlob _, ?_⟩, attResultObject_status _,
    ⟨_, attResultObject_payloadSize _, uint32_le32 8⟩,
    ⟨ciphertext, _, attResultObject_payload _ henc, attResultObject_payloadTag _, hdec⟩⟩
  rw [hagree.cmac]
  exact hmac

/--
The key exchange library of the peer: the shared key from its private key and the `g_b` of message 2, and
the keys that it derives from that.
-/
structure KeyExchange where
  sharedDhkey : Bytes 32 → Bytes 64 → Bytes 32
  deriveKey : Bytes 32 → DeriveKeyType → Bytes 16

/--
What the peer takes from message 2.
-/
def KeyExchange.session (kx : KeyExchange) (privKey : Bytes 32) (gA gB : Bytes 64) : Session :=
  let dhKey := kx.sharedDhkey privKey gB
  {
    gA, gB
    smkKey := kx.deriveKey dhKey .smk
    skKey := kx.deriveKey dhKey .sk
    mkKey := kx.deriveKey dhKey .mk
    vkKey := kx.deriveKey dhKey .vk
  }

/--
The library fits the one of the service provider: both ends compute one shared key, and derive the same
keys from any such key.
-/
structure KeyExchange.Fits (kx : KeyExchange) (sp : SampleCrypto) (privKey : Bytes 32)
    (gA : Bytes 64) (keySeed : Bytes 32) : Prop where
  dhKey : kx.sharedDhkey privKey (sp.ecc256CreateKeyPair keySeed).2
    = sp.ecc256ComputeSharedDhkey (sp.ecc256CreateKeyPair keySeed).1 gA
  derive : ∀ dhKey keyId, kx.deriveKey dhKey keyId = derivedKey sp dhKey keyId

/--
The two ends of the attestation fit together. Behind a complete message 1, whatever calls have come since
that did not get to `g_sp_db`: a peer with a library that fits is answered for the message 3 of its own
session, and the answer leaves the secret in its enclave.
-/
theorem attestation_leaves_secret (hagree : Agrees rijndael128Cmac lib sp) {s : SpState}
    {h : ServiceProvider.History} (hrun : Run (ServiceProvider.step sp) SpState.initial s h)
    {m : Event SpState Request (Int × Reply)} (hlast : h.find? reaches = some m) {env1 : Msg1Env}
    {msg1 : List UInt8} {msg1Size : UInt32} {ppMsg2 : Bool}
    (hcall : m.call = .msg1 env1 (some msg1) msg1Size ppMsg2) (henv1 : env1.complete = true)
    {kx : KeyExchange} {privKey : Bytes 32} {gA : Bytes 64} (hgA : member msg1 0 64 = .ok gA)
    (hfits : kx.Fits sp privKey gA env1.keySeed)
    : ∃ msg2, m.ret = (0, .msg2 msg2) ∧ ∀ (env3 : Msg3Env) msg3 (msg3Size : UInt32),
        env3.complete = true → msg3.length = msg3Size.toNat
        → (kx.session privKey gA msg2.body.gB).Accepts sp msg3
        → ∃ response s', ServiceProvider.step sp s (.msg3 env3 (some msg3) msg3Size true)
              = .ok ((0, .attResult response), s')
            ∧ ∀ env context gSecret,
              ResultEnv.Completes env context (kx.session privKey gA msg2.body.gB).mkKey
                (kx.session privKey gA msg2.body.gB).skKey
              → processAttResult rijndael128Cmac lib env context gSecret
                  (some (attResultObject response)) = .ok (0, expectedSecret) := by
  rcases established_of_last hrun hlast hcall henv1 with ⟨hs, gA', hestablish, hsession⟩
  have hread := hestablish.read
  rw [hgA] at hread
  cases hread
  have hpeer : kx.session privKey gA (established sp env1 gA).gB = s.session := by
    rw [hsession]
    simp only [KeyExchange.session, established, hfits.dhKey, hfits.derive]
  refine ⟨_, hestablish.ret, ?_⟩
  intro env3 msg3 msg3Size henv3 hlen haccept
  have hgB : (msg2For sp (established sp env1 gA) gSimSpid env1.signSeed).body.gB
      = (established sp env1 gA).gB := rfl
  rw [hgB, hpeer] at haccept ⊢
  rcases (step_attResult_iff hs hlen).mpr ⟨rfl, henv3, haccept, rfl⟩ with ⟨s', hstep⟩
  refine ⟨_, s', hstep, ?_⟩
  intro env context gSecret henv
  apply processAttResult_of_accepts henv
  exact accepts_attResult hagree _ _

/--
The size in the header does not count the encrypted secret, which stands behind the message. Cut to
that size, the answer is one that the client reads out of bounds.
-/
theorem processAttResult_declared (hagree : Agrees rijndael128Cmac lib sp) {session : Session}
    (henv : env.Completes context session.mkKey session.skKey) (seed : Bytes 32) (gSecret : Bytes 8)
    : processAttResult rijndael128Cmac lib env context gSecret (some
          ((attResultObject (attResult sp session seed)).take
            (sizeofResponseHeader + (attResult sp session seed).size.toNat)))
        = .error .outOfBounds := by
  have haccept := accepts_attResult hagree session seed
  rcases haccept.mac with ⟨blob, hblob, hmac⟩
  rcases haccept.payloadSize with ⟨payloadSize, hsize, height⟩
  have hcut : sizeofResponseHeader + (attResult sp session seed).size.toNat = 153 := rfl
  have hverify : verifyAttResultMac rijndael128Cmac env.mac context blob
      (rijndael128Cmac session.mkKey blob.val) = sgxSuccess :=
    verifyAttResultMac_eq_success.mpr ⟨henv.cmac, session.mkKey, henv.mkKey, rfl⟩
  rw [hcut]
  have hpayload : member ((attResultObject (attResult sp session seed)).take 153) 153
      (uint32 payloadSize).toNat = .error .outOfBounds := by
    rw [height]
    apply member_of_lt
    rw [List.length_take]
    exact Nat.lt_of_le_of_lt (Nat.min_le_left _ _) (by decide)
  unfold processAttResult
  simp [henv.verify, henv.put, member_take, hblob, hmac, hverify, haccept.status, hsize, hpayload]

end

/--
The client itself never gets as far as that: it gives up, or it follows a pointer that was never set.
-/
theorem performRemoteAttestation_eq_ok {rijndael128Cmac : Bytes 16 → List UInt8 → Bytes 16}
    {lib : SgxCrypto} {env : RaEnv} {net : NetworkRa.Network} {alloc : Allocator} {fuel : Nat}
    {slot : Option Ptr} {serverUrl : Option (List UInt8)} {gSecret gSecret' : Bytes 8} {ret : Int}
    (h : performRemoteAttestation rijndael128Cmac lib env net alloc fuel slot serverUrl gSecret
      = some (.ok (ret, gSecret')))
    : ret = -1 ∧ gSecret' = gSecret := by
  have hgivenUp : some (.ok (-1, gSecret)) = some (Except.ok (ret, gSecret') : Except Fault _) →
      ret = -1 ∧ gSecret' = gSecret := by
    intro heq
    simp only [Option.some.injEq, Except.ok.injEq, Prod.mk.injEq] at heq
    exact ⟨heq.1.symm, heq.2.symm⟩
  unfold performRemoteAttestation at h
  split at h
  . exact hgivenUp h
  . split at h
    . exact hgivenUp h
    . split at h
      . exact hgivenUp h
      . split at h
        . exact hgivenUp h
        . split at h
          . simp at h
          . simp at h
          . split at h
            . exact hgivenUp h
            . split at h
              . exact hgivenUp h
              . split at h
                . exact hgivenUp h
                . simp at h

/-!
One attestation, with the libraries on the keys of the honest session.
-/

def exampleSp : SampleCrypto :=
  { honestLib with
    rijndael128GcmEncrypt := fun key plaintext iv =>
      if key = exampleKey ∧ plaintext = expectedSecret.val ∧ iv = .zero 12 then
        (expectedCiphertext.val, expectedTag)
      else
        (plaintext, .zero 16)
  }

def exampleSgx : SgxCrypto where
  rijndael128GCMDecrypt key src iv mac :=
    if h : src.val = expectedCiphertext.val ∧ key = exampleKey ∧ iv = .zero 12
        ∧ mac = expectedTag then
      some ⟨expectedSecret.val, by rw [← src.property, h.1]; rfl⟩
    else if mac = .zero 16 then
      some src
    else
      none

theorem agrees_example : Agrees exampleSp.rijndael128Cmac exampleSgx exampleSp := by
  constructor
  . intro key data
    rfl
  . intro n key plaintext iv
    by_cases h : key = exampleKey ∧ plaintext.val = expectedSecret.val ∧ iv = .zero 12
    . have hlength : expectedCiphertext.val.length = n := by
        rw [← plaintext.property, h.2.1]
        rfl
      refine ⟨⟨expectedCiphertext.val, hlength⟩, ?_⟩
      simp [exampleSp, exampleSgx, h, Subtype.ext_iff]
    . have htag : Bytes.zero 16 ≠ expectedTag := by decide
      exact ⟨plaintext, by simp [exampleSp, exampleSgx, h, htag]⟩

theorem sgxErrorMacMismatch_ne_success : sgxErrorMacMismatch ≠ sgxSuccess := by decide

def exampleEnv (session : Session) : ResultEnv where
  verify := sgxSuccess
  mac := { getKeys := fun _ => .ok session.mkKey, cmac := sgxSuccess }
  put := sgxSuccess
  secret := {
    getKeys := fun _ => .ok session.skKey, refused := ⟨_, sgxErrorMacMismatch_ne_success⟩
    cleared := true
  }

theorem completes_exampleEnv (session : Session)
    : (exampleEnv session).Completes 0 session.mkKey session.skKey :=
  ⟨rfl, rfl, rfl, rfl, rfl⟩

/--
The library of the client, with the private key 5.
-/
def exampleKx : KeyExchange where
  sharedDhkey privKey gB :=
    if privKey = (Bytes.ofNat 32 5).reverse ∧ gB = honestGB then honestDhKey else .zero 32
  deriveKey dhKey keyId := derivedKey exampleSp dhKey keyId

theorem fits_example
    : exampleKx.Fits exampleSp (Bytes.ofNat 32 5).reverse honestGA Msg1Env.success.keySeed := by
  have hdh : exampleKx.sharedDhkey (Bytes.ofNat 32 5).reverse honestGB = honestDhKey := by
    simp [exampleKx]
  constructor
  . exact hdh
  . intro dhKey keyId
    rfl

def exampleMsg1 : Request := .msg1 Msg1Env.success (some honestMsg1) 68 true

theorem attestation_leaves_secret_example
    : ∃ s h m msg2, Run (ServiceProvider.step exampleSp) SpState.initial s h
        ∧ h.find? reaches = some m ∧ m.call = exampleMsg1 ∧ m.ret = (0, .msg2 msg2)
        ∧ ∃ session response s', session
            = exampleKx.session (Bytes.ofNat 32 5).reverse honestGA msg2.body.gB
          ∧ ServiceProvider.step exampleSp s
              (.msg3 Msg3Env.success (some (msg3For exampleSp session)) 768 true)
            = .ok ((0, .attResult response), s')
          ∧ processAttResult exampleSp.rijndael128Cmac exampleSgx (exampleEnv session) 0 (.zero 8)
            (some (attResultObject response)) = .ok (0, expectedSecret) := by
  rcases @step_msg1_of_complete exampleSp .registered .success honestMsg1 68 true honestGA
    ⟨rfl, rfl, rfl⟩ rfl (by decide) member_honestMsg1 with ⟨r, s, hstep⟩
  have hrun := Run.cons (.cons .nil (step_msg0 exampleSp)) hstep
  rcases attestation_leaves_secret agrees_example hrun rfl rfl (by decide) member_honestMsg1
    fits_example with ⟨msg2, hret, hpeer⟩
  refine ⟨s, _, _, msg2, hrun, rfl, rfl, hret, ?_⟩
  have hlen : (msg3For exampleSp (exampleKx.session (Bytes.ofNat 32 5).reverse honestGA
      msg2.body.gB)).length = (768 : UInt32).toNat := by
    rw [msg3For, List.length_append, Bytes.length_val, length_msg3Cmaced]
    rfl
  rcases hpeer Msg3Env.success _ 768 (by decide) hlen (accepts_msg3For exampleSp _)
    with ⟨response, s', hstep', hsecret⟩
  exact ⟨_, response, s', rfl, hstep', hsecret _ 0 _ (completes_exampleEnv _)⟩

theorem processAttResult_declared_example
    : processAttResult exampleSp.rijndael128Cmac exampleSgx (exampleEnv honestSession) 0 (.zero 8)
          (some ((attResultObject (attResult exampleSp honestSession (.ofNat 32 2))).take 153))
        = .error .outOfBounds :=
  processAttResult_declared agrees_example (completes_exampleEnv honestSession) (.ofNat 32 2) _

end Attestation
