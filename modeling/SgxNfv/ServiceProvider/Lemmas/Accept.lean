import SgxNfv.ServiceProvider.Lemmas.Reads

/-!
This module contains the verification of the answer to message 3: which messages the service
provider accepts, and what it then sends.
-/

open C Frame Runs

namespace ServiceProvider

section

variable {s s' : SpState} {code : Int} {α β : Type} {b : β}

theorem run_stopIf_bind_eq_ok {p : Prop} [Decidable p] {k : Unit → Sp β}
    : (stopIf p code >>= k).run s = .ok b s' ↔ ¬ p ∧ (k ()).run s = .ok b s' := by
  rw [EStateM.run_bind, run_stopIf]
  by_cases hp : p
  . simp [hp]
  . simp [hp]

theorem run_call_bind_eq_ok {status : SampleStatus} {k : Unit → Sp β}
    : (call status code >>= k).run s = .ok b s'
        ↔
      status = .success ∧ (k ()).run s = .ok b s' := by
  rw [call, run_stopIf_bind_eq_ok, not_not]

theorem run_read_bind_eq_ok {x : Except Fault α} {k : α → Sp β}
    : (read x >>= k).run s = .ok b s' ↔ ∃ a, x = .ok a ∧ (k a).run s = .ok b s' := by
  cases x with
  | error fault => simp
  | ok a => simp

theorem run_deref_bind_eq_ok {group : Option UInt32} {k : UInt32 → Sp β}
    : (deref group >>= k).run s = .ok b s'
        ↔
      ∃ id, group = some id ∧ (k id).run s = .ok b s' := by
  cases group with
  | none => simp
  | some id => simp

theorem run_get_bind {k : SpState → Sp β} : (get >>= k).run s = (k s).run s := by
  rw [EStateM.run_bind, EStateM.run_get]

theorem run_modifyDb_bind {f : SpDbItem → SpDbItem} {k : Unit → Sp β}
    : (modifyDb f >>= k).run s = (k ()).run { s with gSpDb := f s.gSpDb } := by
  rw [EStateM.run_bind, run_modifyDb]

theorem run_stopIf_bind_of_not {c : Prop} [Decidable c] {code : Int} {k : Unit → Sp β} (h : ¬ c)
    : (stopIf c code >>= k).run s = (k ()).run s := by
  rw [EStateM.run_bind, run_stopIf, if_neg h]

theorem run_read_bind_of_ok {x : Except Fault α} {a : α} {k : α → Sp β} (h : x = .ok a)
    : (read x >>= k).run s = (k a).run s := by
  rw [EStateM.run_bind, h, run_read_ok]

theorem run_deref_bind_of_some {group : Option UInt32} {id : UInt32} {k : UInt32 → Sp β}
    (h : group = some id)
    : (deref group >>= k).run s = (k id).run s := by
  rw [EStateM.run_bind, h, run_deref_some]

end

/--
The part of `sp_ra_proc_msg1_req` behind its write to `g_a`.
-/
def msg1Rest (lib : SampleCrypto) (env : Msg1Env) (gA : Bytes 64) (sigRl : List UInt8)
    : Sp (Response Msg2) := do
  call env.openContext (-1)
  call env.createKeyPair SpRaMsgStatus.internalError.code
  let (privKey, pubKey) := lib.ecc256CreateKeyPair env.keySeed
  modifyDb fun db => { db with b := privKey, gB := pubKey }
  call env.computeSharedDhkey SpRaMsgStatus.internalError.code
  let dhKey := lib.ecc256ComputeSharedDhkey privKey gA
  deriveInto lib env.deriveSmk dhKey .smk (·.smkKey) fun db smkKey => { db with smkKey }
  deriveInto lib env.deriveMk dhKey .mk (·.mkKey) fun db mkKey => { db with mkKey }
  deriveInto lib env.deriveSk dhKey .sk (·.skKey) fun db skKey => { db with skKey }
  deriveInto lib env.deriveVk dhKey .vk (·.vkKey) fun db vkKey => { db with vkKey }
  stopIf (env.malloc = false) SpRaMsgStatus.internalError.code
  let s ← get
  call env.sign SpRaMsgStatus.internalError.code
  let msg2 : Msg2 := {
    gB := s.gSpDb.gB
    spid := s.gSpid
    quoteType := 1
    kdfId := 1
    signGbGa := lib.ecdsaSign (s.gSpDb.gB.val ++ s.gSpDb.gA.val) gSpPrivKey env.signSeed
    mac := .zero 16
    sigRl
  }
  call env.cmac SpRaMsgStatus.internalError.code
  let mac := lib.rijndael128Cmac s.gSpDb.smkKey msg2.cmaced
  return {
    type := 2
    status := (0, 0)
    size := sizeofMsg2 + UInt32.ofNat sigRl.length
    body := { msg2 with mac }
  }

theorem spRaProcMsg1Req_eq (lib : SampleCrypto) (env : Msg1Env) (msg1 : List UInt8)
    (msg1Size : UInt32) (ppMsg2 : Bool)
    : spRaProcMsg1Req lib env (some msg1) msg1Size ppMsg2
        =
      (do
        stopIf (ppMsg2 = false ∨ msg1Size ≠ 68) (-1)
        stopIf ((← get).gIsSpRegistered = false) SpRaMsgStatus.unsupportedExtendedEpidGroup.code
        let _ ← deref (← get).gSpExtendedEpidGroupId
        let (ret, sigRl) := iasGetSigrl env.getSigrl
        stopIf (ret ≠ 0) SpRaMsgStatus.iasFailed.code
        let gA ← read (member msg1 0 64)
        modifyDb fun db => { db with gA }
        msg1Rest lib env gA sigRl) :=
  rfl

theorem run_msg1_of_reaches (lib : SampleCrypto) {env : Msg1Env} {msg1 : List UInt8}
    {msg1Size : UInt32} {ppMsg2 : Bool} {s : SpState} {id : UInt32}
    (hreach : (Request.msg1 env (some msg1) msg1Size ppMsg2).reachesDb s = true)
    (hgroup : s.gSpExtendedEpidGroupId = some id)
    : (spRaProcMsg1Req lib env (some msg1) msg1Size ppMsg2).run s
        =
      (do
        let gA ← read (member msg1 0 64)
        modifyDb fun db => { db with gA }
        msg1Rest lib env gA [] : Sp (Response Msg2)).run s := by
  simp only [Request.reachesDb, Bool.and_eq_true, beq_iff_eq] at hreach
  rcases hreach with ⟨⟨⟨rfl, rfl⟩, hreg⟩, hsigrl⟩
  rw [spRaProcMsg1Req_eq, run_stopIf_bind_of_not (by decide), run_get_bind,
    run_stopIf_bind_of_not (by simp [hreg]), run_get_bind, run_deref_bind_of_some hgroup]
  unfold iasGetSigrl
  dsimp only
  rw [run_stopIf_bind_of_not (by simp [hsigrl])]

theorem run_deriveInto_bind_eq_ok {lib : SampleCrypto} {env : DeriveEnv} {dhKey : Bytes 32}
    {keyId : DeriveKeyType} {key : SpDbItem → Bytes 16} {setKey : SpDbItem → Bytes 16 → SpDbItem}
    {β : Type} {k : Unit → Sp β} {s s' : SpState} {b : β}
    : (deriveInto lib env dhKey keyId key setKey >>= k).run s = .ok b s'
        ↔
      env.complete = true
        ∧ (k ()).run { s with gSpDb := setKey s.gSpDb (derivedKey lib dhKey keyId) } = .ok b s' := by
  by_cases henv : env.complete = true
  . rw [EStateM.run_bind, run_deriveInto henv]
    simp [henv]
  . have hderive : ∃ left, deriveKey lib env dhKey keyId (key s.gSpDb) = (false, left) := by
      unfold deriveKey
      split
      . exact ⟨_, rfl⟩
      . split
        . exact ⟨_, rfl⟩
        . split
          . exact ⟨_, rfl⟩
          . next hextract hmalloc hexpand =>
            simp [DeriveEnv.complete, not_not.mp hextract, not_not.mp hexpand, hmalloc] at henv
    rcases hderive with ⟨left, hderive⟩
    simp [deriveInto, hderive, henv]

/--
The answer to message 1, in the session that it establishes.
-/
def msg2For (lib : SampleCrypto) (session : Session) (spid : Bytes 16) (signSeed : Bytes 32)
    : Response Msg2 :=
  let msg2 : Msg2 := {
    gB := session.gB
    spid
    quoteType := 1
    kdfId := 1
    signGbGa := lib.ecdsaSign (session.gB.val ++ session.gA.val) gSpPrivKey signSeed
    mac := .zero 16
    sigRl := []
  }
  {
    type := 2
    status := (0, 0)
    size := sizeofMsg2
    body := { msg2 with mac := lib.rijndael128Cmac session.smkKey msg2.cmaced }
  }

theorem complete_of_run_msg1Rest {lib : SampleCrypto} {env : Msg1Env} {gA : Bytes 64}
    {s s' : SpState} {r : Response Msg2} (hgA : s.gSpDb.gA = gA)
    (hrun : (msg1Rest lib env gA []).run s = .ok r s')
    : env.complete = true ∧ r = msg2For lib (established lib env gA) s.gSpid env.signSeed
        ∧ s'.session = established lib env gA := by
  unfold msg1Rest at hrun
  simp only [run_stopIf_bind_eq_ok, run_call_bind_eq_ok, run_deriveInto_bind_eq_ok,
    run_get_bind, run_modifyDb_bind] at hrun
  rcases hrun with ⟨hopen, hpair, hdh, hsmk, hmk, hsk, hvk, hmalloc, hsign, hcmac, hret⟩
  cases hret
  refine ⟨?_, ?_, ?_⟩
  . simp [Msg1Env.complete, hopen, hpair, hdh, hsmk, hmk, hsk, hvk, hmalloc, hsign, hcmac]
  . rw [hgA]
    rfl
  . rw [SpState.session, hgA]
    rfl

theorem run_msg1Rest_of_complete {lib : SampleCrypto} {env : Msg1Env} {gA : Bytes 64} {s : SpState}
    (hgA : s.gSpDb.gA = gA) (henv : env.complete = true)
    : ∃ s', (msg1Rest lib env gA []).run s
        = .ok (msg2For lib (established lib env gA) s.gSpid env.signSeed) s' := by
  simp only [Msg1Env.complete, Bool.and_eq_true, beq_iff_eq] at henv
  rcases henv with ⟨⟨⟨⟨⟨⟨⟨⟨⟨hopen, hpair⟩, hdh⟩, hsmk⟩, hmk⟩, hsk⟩, hvk⟩, hmalloc⟩, hsign⟩, hcmac⟩
  unfold msg1Rest
  simp only [run_stopIf_bind_eq_ok, run_call_bind_eq_ok, run_deriveInto_bind_eq_ok,
    run_get_bind, run_modifyDb_bind]
  rw [← hgA]
  exact ⟨_, hopen, hpair, hdh, hsmk, hmk, hsk, hvk, by simp [hmalloc], hsign, hcmac, rfl⟩

/--
What message 3 has to carry: the `g_a` of the session, the mac of what stands behind it, and the
hash of the session in the quote.
-/
structure Session.Accepts (lib : SampleCrypto) (session : Session) (msg3 : List UInt8) : Prop where
  gA : member msg3 16 64 = .ok session.gA
  mac : member msg3 0 16 = .ok (lib.rijndael128Cmac session.smkKey (msg3.drop 16))
  reportData : member msg3 704 64 = .ok
    ((lib.sha256 (session.gA.val ++ session.gB.val ++ session.vkKey.val)).append (.zero 32))

def infoBlob (lib : SampleCrypto) (seed : Bytes 32) : Bytes 97 :=
  let signature := lib.ecdsaSign (Bytes.zero 33).val gRkPrivKey seed
  ((Bytes.zero 33).append (swapEndian32B signature.1)).append (swapEndian32B signature.2)

/--
The answer to an accepted message 3: it depends on the session only.
-/
def attResult (lib : SampleCrypto) (session : Session) (seed : Bytes 32)
    : Response AttResultMsg :=
  let secret := lib.rijndael128GcmEncrypt session.skKey gSecret (.zero 12)
  {
    type := 4
    status := (0, 0)
    size := sizeofAttResultMsg
    body := {
      platformInfoBlob := infoBlob lib seed
      mac := lib.rijndael128Cmac session.mkKey (infoBlob lib seed).val
      payloadSize := 8
      payloadTag := secret.2
      payload := secret.1
    }
  }

section

variable {lib : SampleCrypto} {env : Msg3Env} {s s' : SpState} {msg3 : List UInt8}
  {msg3Size : UInt32} {ppAttResultMsg : Bool} {r : Response AttResultMsg}

theorem Session.Accepts.length {session : Session} (h : session.Accepts lib msg3)
    : 768 ≤ msg3.length := by
  by_contra hlt
  have hreportData := h.reportData
  rw [member_of_lt (by omega)] at hreportData
  simp at hreportData

theorem iasVerifyAttestationEvidence_eq_ok {ias : IasEnv} {report : IasAttReport}
    : iasVerifyAttestationEvidence lib ias = .ok report
        ↔
      ias.openContext = .success ∧ ias.sign = .success
        ∧ report = { status := .ok, infoBlob := infoBlob lib ias.seed, pseStatus := .ok } := by
  unfold iasVerifyAttestationEvidence
  by_cases hopen : ias.openContext = .success
  . by_cases hsign : ias.sign = .success
    . simp [hopen, hsign, infoBlob, eq_comm]
    . simp [hopen, hsign]
  . simp [hopen]

/--
Message 3 is accepted.
-/
structure Accepted (lib : SampleCrypto) (env : Msg3Env) (s : SpState) (msg3 : List UInt8)
    (ppAttResultMsg : Bool) : Prop where
  ppAttResultMsg : ppAttResultMsg = true
  registered : s.gIsSpRegistered = true
  group : ∃ id, s.gSpExtendedEpidGroupId = some id
  env : env.complete = true
  session : s.session.Accepts lib msg3

theorem accepted_of_run_msg3 (hlen : msg3.length = msg3Size.toNat)
    (hrun : (spRaProcMsg3Req lib env (some msg3) msg3Size ppAttResultMsg).run s = .ok r s')
    : Accepted lib env s msg3 ppAttResultMsg ∧ r = attResult lib s.session env.verify.seed := by
  unfold spRaProcMsg3Req at hrun
  simp only [run_stopIf_bind_eq_ok, run_call_bind_eq_ok, run_read_bind_eq_ok, run_deref_bind_eq_ok,
    run_get_bind, run_modifyDb_bind] at hrun
  rcases hrun with ⟨hsize, hreg, gA, hgA, hdb, cmaced, hcmaced, hcmac, mac, hmac, htag,
    psSecProp, hpsSecProp, hinit, hga, hgb, hvk, hhash, reportData, hreportData, hdata, id, hgroup,
    hrun⟩
  rw [not_or, UInt32.not_lt, Bool.not_eq_false] at hsize
  rw [slice_cmaced hlen hsize.1] at hcmaced
  cases hcmaced
  rw [not_not] at hdb htag hdata
  subst hdb htag hdata
  cases hias : iasVerifyAttestationEvidence lib env.verify with
  | error e =>
    rw [hias] at hrun
    simp at hrun
  | ok report =>
    rw [hias] at hrun
    rcases iasVerifyAttestationEvidence_eq_ok.mp hias with ⟨hopen, hsign, rfl⟩
    simp only [run_stopIf_bind_eq_ok, run_call_bind_eq_ok, run_read_bind_eq_ok, and_self,
      if_true] at hrun
    rcases hrun with ⟨hmalloc, _, _, hcmacResult, hgcm, hret⟩
    have hcomplete : env.complete = true := by
      simp [Msg3Env.complete, hcmac, hinit, hga, hgb, hvk, hhash, hopen, hsign, hmalloc,
        hcmacResult, hgcm]
    cases hret
    exact ⟨⟨hsize.2, by simpa using hreg, ⟨id, hgroup⟩, hcomplete, hgA, hmac, hreportData⟩, rfl⟩

theorem run_msg3_of_accepted (hlen : msg3.length = msg3Size.toNat)
    (h : Accepted lib env s msg3 ppAttResultMsg)
    : ∃ s', (spRaProcMsg3Req lib env (some msg3) msg3Size ppAttResultMsg).run s
        = .ok (attResult lib s.session env.verify.seed) s' := by
  have hlong := h.session.length
  have hmin : sizeofMsg3 ≤ msg3Size := by
    rw [UInt32.le_iff_toNat_le, ← hlen]
    exact Nat.le_trans (by decide) hlong
  have hcmaced := slice_cmaced hlen hmin
  have hsize : ¬ msg3Size < sizeofMsg3 := UInt32.not_lt.mpr hmin
  rcases h.group with ⟨id, hgroup⟩
  rcases @member_of_le msg3 80 256 (by omega) with ⟨psSecProp, hpsSecProp⟩
  rcases @enclaveReport_of_le msg3 (by omega) with ⟨report, hreport⟩
  have hgA : member msg3 16 64 = .ok s.gSpDb.gA := h.session.gA
  have hmac : member msg3 0 16 = .ok (lib.rijndael128Cmac s.gSpDb.smkKey (msg3.drop 16)) :=
    h.session.mac
  have hreportData : member msg3 704 64
      = .ok ((lib.sha256 (s.gSpDb.gA.val ++ s.gSpDb.gB.val ++ s.gSpDb.vkKey.val)).append (.zero 32)) :=
    h.session.reportData
  have hcomplete := h.env
  simp only [Msg3Env.complete, Bool.and_eq_true, beq_iff_eq] at hcomplete
  rcases hcomplete with ⟨⟨⟨⟨⟨⟨⟨⟨⟨⟨hcmac, hinit⟩, hga⟩, hgb⟩, hvk⟩, hhash⟩, hopen⟩, hsign⟩, hmalloc⟩,
    hcmacResult⟩, hgcm⟩
  refine ⟨{ s with gSpDb := { s.gSpDb with psSecProp } }, ?_⟩
  unfold spRaProcMsg3Req iasVerifyAttestationEvidence
  simp [-bind_pure_comp, h.ppAttResultMsg, hsize, h.registered, hgroup, hgA, hmac, hcmaced,
    hreportData, hpsSecProp, hreport, hcmac, hinit, hga, hgb, hvk, hhash, hopen, hsign, hmalloc,
    hcmacResult, hgcm]
  rfl

end

end ServiceProvider
