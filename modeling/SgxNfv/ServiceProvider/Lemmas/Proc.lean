import SgxNfv.ServiceProvider.Lemmas.Basic

/-!
This module contains what the functions for the messages 0, 1 and 3 do to the session that stands in
`g_sp_db`.
-/

open C Frame

namespace ServiceProvider

structure Session where
  gA : Bytes 64
  gB : Bytes 64
  smkKey : Bytes 16
  skKey : Bytes 16
  mkKey : Bytes 16
  vkKey : Bytes 16
  deriving DecidableEq, Repr

def SpState.session (s : SpState) : Session where
  gA := s.gSpDb.gA
  gB := s.gSpDb.gB
  smkKey := s.gSpDb.smkKey
  skKey := s.gSpDb.skKey
  mkKey := s.gSpDb.mkKey
  vkKey := s.gSpDb.vkKey

theorem keeps_iasEnroll (ret : Int) : Keeps SpState.session (iasEnroll ret) := by
  apply keeps_bind
  . apply keeps_modify
    intro s
    split
    . rfl
    . rfl
  . intro _
    exact keeps_pure ret

theorem msg0_keeps_session (env : Msg0Env) (pMsg0 : Option (List UInt8)) (msg0Size : UInt32)
    : Keeps SpState.session (spRaProcMsg0Req env pMsg0 msg0Size) := by
  unfold spRaProcMsg0Req
  split
  . exact keeps_stop _
  . apply keeps_bind (keeps_stopIf _)
    intro _
    apply keeps_bind (keeps_read _)
    intro extendedEpidGroupId
    apply keeps_bind keeps_get
    intro s
    apply keeps_ite
    . split
      . exact keeps_stop _
      . apply keeps_bind
        . exact keeps_modify fun _ => rfl
        . intro _
          apply keeps_bind (keeps_iasEnroll _)
          intro ret
          apply keeps_bind (keeps_stopIf _)
          intro _
          exact keeps_modify fun _ => rfl
    . exact keeps_pure _

theorem msg3_keeps_session (lib : SampleCrypto) (env : Msg3Env) (pMsg3 : Option (List UInt8))
    (msg3Size : UInt32) (ppAttResultMsg : Bool)
    : Keeps SpState.session (spRaProcMsg3Req lib env pMsg3 msg3Size ppAttResultMsg) := by
  unfold spRaProcMsg3Req
  split
  . exact keeps_stop _
  . apply keeps_bind (keeps_stopIf _)
    intro _
    apply keeps_bind keeps_get
    intro _
    apply keeps_bind (keeps_stopIf _)
    intro _
    apply keeps_bind keeps_get
    intro s
    apply keeps_bind (keeps_read _)
    intro gA
    apply keeps_bind (keeps_stopIf _)
    intro _
    apply keeps_bind (keeps_read _)
    intro msg3Cmaced
    apply keeps_bind (keeps_call _ _)
    intro _
    apply keeps_bind (keeps_read _)
    intro mac
    apply keeps_bind (keeps_stopIf _)
    intro _
    apply keeps_bind (keeps_read _)
    intro psSecProp
    apply keeps_bind
    . exact keeps_modify fun _ => rfl
    . intro _
      apply keeps_bind (keeps_call _ _)
      intro _
      apply keeps_bind (keeps_call _ _)
      intro _
      apply keeps_bind (keeps_call _ _)
      intro _
      apply keeps_bind (keeps_call _ _)
      intro _
      apply keeps_bind (keeps_call _ _)
      intro _
      apply keeps_bind (keeps_read _)
      intro reportData
      apply keeps_bind (keeps_stopIf _)
      intro _
      apply keeps_bind keeps_get
      intro _
      apply keeps_bind (keeps_deref _)
      intro _
      split
      . exact keeps_stop _
      . apply keeps_bind (keeps_stopIf _)
        intro _
        apply keeps_bind (keeps_read _)
        intro enclaveReport
        apply keeps_bind (keeps_call _ _)
        intro _
        apply keeps_ite
        . exact keeps_bind (keeps_call _ _) fun _ => keeps_pure _
        . exact keeps_pure _

def Msg1Env.complete (env : Msg1Env) : Bool :=
  env.openContext == .success && env.createKeyPair == .success && env.computeSharedDhkey == .success
    && env.deriveSmk.complete && env.deriveMk.complete && env.deriveSk.complete
    && env.deriveVk.complete && env.malloc && env.sign == .success && env.cmac == .success

def established (lib : SampleCrypto) (env : Msg1Env) (gA : Bytes 64) : Session :=
  let keyPair := lib.ecc256CreateKeyPair env.keySeed
  let dhKey := lib.ecc256ComputeSharedDhkey keyPair.1 gA
  {
    gA
    gB := keyPair.2
    smkKey := derivedKey lib dhKey .smk
    skKey := derivedKey lib dhKey .sk
    mkKey := derivedKey lib dhKey .mk
    vkKey := derivedKey lib dhKey .vk
  }

/--
The call gets to `g_sp_db`.
-/
def Request.reachesDb (s : SpState) : Request → Bool
  | .msg1 env (some _) msg1Size ppMsg2 =>
    ppMsg2 && msg1Size == 68 && s.gIsSpRegistered && env.getSigrl == 0
  | _ => false

theorem run_msg1_of_not_reaches (lib : SampleCrypto) {env : Msg1Env} {pMsg1 : Option (List UInt8)}
    {msg1Size : UInt32} {ppMsg2 : Bool} {s : SpState}
    (h : (Request.msg1 env pMsg1 msg1Size ppMsg2).reachesDb s = false)
    : ∃ e, (spRaProcMsg1Req lib env pMsg1 msg1Size ppMsg2).run s = .error e s ∧ e ≠ .ret 0 := by
  unfold spRaProcMsg1Req iasGetSigrl
  cases pMsg1 with
  | none => exact ⟨_, rfl, by decide⟩
  | some msg1 =>
    by_cases hsize : ppMsg2 = false ∨ msg1Size ≠ 68
    . exact ⟨.ret (-1), by simp [hsize], by decide⟩
    . by_cases hreg : s.gIsSpRegistered = false
      . exact ⟨.ret 1, by simp [hsize, hreg, SpRaMsgStatus.code], by decide⟩
      . cases hgroup : s.gSpExtendedEpidGroupId with
        | none => exact ⟨.fault .nullPointer, by simp [hsize, hreg, hgroup], by simp⟩
        | some id =>
          have hsigrl : env.getSigrl ≠ 0 := by
            intro hsigrl
            simp_all [Request.reachesDb]
          exact ⟨.ret 4, by simp [hsize, hreg, hgroup, hsigrl, SpRaMsgStatus.code], by decide⟩

theorem run_msg1_of_complete (lib : SampleCrypto) {env : Msg1Env} (msg1 : List UInt8) {s : SpState}
    (hreg : s.gIsSpRegistered = true) (hsigrl : env.getSigrl = 0) (henv : env.complete = true)
    : (∃ response gA s', (spRaProcMsg1Req lib env (some msg1) 68 true).run s = .ok response s'
          ∧ member msg1 0 64 = .ok gA ∧ s'.session = established lib env gA)
        ∨ ∃ fault s', (spRaProcMsg1Req lib env (some msg1) 68 true).run s
            = .error (.fault fault) s' := by
  unfold spRaProcMsg1Req iasGetSigrl
  cases hgroup : s.gSpExtendedEpidGroupId with
  | none => exact .inr ⟨.nullPointer, s, by simp [hreg, hgroup]⟩
  | some id =>
    cases hgA : member msg1 0 64 with
    | error fault => exact .inr ⟨fault, s, by simp [hreg, hgroup, hsigrl, hgA]⟩
    | ok gA =>
      left
      simp only [Msg1Env.complete, Bool.and_eq_true, beq_iff_eq] at henv
      rcases henv with ⟨⟨⟨⟨⟨⟨⟨⟨⟨hopen, hpair⟩, hdh⟩, hsmk⟩, hmk⟩, hsk⟩, hvk⟩, hmalloc⟩, hsign⟩, hcmac⟩
      simp [-bind_pure_comp, hreg, hgroup, hsigrl, hgA, hopen, hpair, hdh, run_deriveInto hsmk,
        run_deriveInto hmk, run_deriveInto hsk, run_deriveInto hvk, hmalloc, hsign, hcmac]
      rfl

/--
The call gets to `g_sp_db`, to compare the message with it.
-/
def Request.usesDb (s : SpState) : Request → Bool
  | .msg3 _ (some _) msg3Size ppAttResultMsg =>
    sizeofMsg3 ≤ msg3Size && ppAttResultMsg && s.gIsSpRegistered
  | _ => false

theorem Request.not_reaches_of_uses {s : SpState} {c : Request} (h : c.usesDb s = true)
    : c.reachesDb s = false := by
  cases c with
  | msg0 env pMsg0 msg0Size => rfl
  | msg1 env pMsg1 msg1Size ppMsg2 => simp [usesDb] at h
  | msg3 env pMsg3 msg3Size ppAttResultMsg => rfl

theorem run_msg3_of_not_uses (lib : SampleCrypto) {env : Msg3Env} {pMsg3 : Option (List UInt8)}
    {msg3Size : UInt32} {ppAttResultMsg : Bool} {s : SpState}
    (h : (Request.msg3 env pMsg3 msg3Size ppAttResultMsg).usesDb s = false)
    : ∃ code, (spRaProcMsg3Req lib env pMsg3 msg3Size ppAttResultMsg).run s = .error (.ret code) s
        ∧ code ≠ 0 := by
  unfold spRaProcMsg3Req
  cases pMsg3 with
  | none => exact ⟨_, rfl, by decide⟩
  | some msg3 =>
    by_cases hsize : msg3Size < sizeofMsg3 ∨ ppAttResultMsg = false
    . exact ⟨5, by simp [hsize, SpRaMsgStatus.code], by decide⟩
    . have hreg : s.gIsSpRegistered = false := by
        simp_all [Request.usesDb]
      exact ⟨1, by simp [hsize, hreg, SpRaMsgStatus.code], by decide⟩

theorem enclaveReport_of_le {msg3 : List UInt8} (h : 644 ≤ msg3.length)
    : ∃ report, enclaveReport msg3 = .ok report := by
  rcases @member_of_le msg3 338 2 (by omega) with ⟨signType, hsignType⟩
  rcases @member_of_le msg3 352 32 (by omega) with ⟨basename, hbasename⟩
  rcases @member_of_le msg3 432 8 (by omega) with ⟨flags, hflags⟩
  rcases @member_of_le msg3 440 8 (by omega) with ⟨xfrm, hxfrm⟩
  rcases @member_of_le msg3 448 32 (by omega) with ⟨mrEnclave, hmrEnclave⟩
  rcases @member_of_le msg3 512 32 (by omega) with ⟨mrSigner, hmrSigner⟩
  rcases @member_of_le msg3 640 2 (by omega) with ⟨isvProdId, hisvProdId⟩
  rcases @member_of_le msg3 642 2 (by omega) with ⟨isvSvn, hisvSvn⟩
  unfold enclaveReport
  rw [hsignType, hbasename, hflags, hxfrm, hmrEnclave, hmrSigner, hisvProdId, hisvSvn]
  exact ⟨_, rfl⟩

def Msg3Env.complete (env : Msg3Env) : Bool :=
  env.cmac == .success && env.shaInit == .success && env.shaUpdateGa == .success
    && env.shaUpdateGb == .success && env.shaUpdateVk == .success && env.shaGetHash == .success
    && env.verify.openContext == .success && env.verify.sign == .success && env.malloc
    && env.cmacResult == .success && env.gcmEncrypt == .success

def msg3Cmaced (lib : SampleCrypto) (s : Session) : List UInt8 :=
  s.gA.val ++ (Bytes.zero 624).val
    ++ ((lib.sha256 (s.gA.val ++ s.gB.val ++ s.vkKey.val)).append (.zero 32)).val

def msg3For (lib : SampleCrypto) (s : Session) : List UInt8 :=
  (lib.rijndael128Cmac s.smkKey (msg3Cmaced lib s)).val ++ msg3Cmaced lib s

theorem length_msg3Cmaced (lib : SampleCrypto) (s : Session) : (msg3Cmaced lib s).length = 752 := by
  simp [msg3Cmaced]

theorem msg3For_gA (lib : SampleCrypto) (s : Session)
    : member (msg3For lib s) 16 64 = .ok s.gA := by
  unfold msg3For msg3Cmaced
  rw [List.append_assoc s.gA.val, ← List.append_assoc]
  apply member_append
  rw [Bytes.length_val]

theorem msg3For_mac (lib : SampleCrypto) (s : Session)
    : member (msg3For lib s) 0 16 = .ok (lib.rijndael128Cmac s.smkKey (msg3Cmaced lib s)) := by
  unfold msg3For
  rw [← List.nil_append (Subtype.val _)]
  apply member_append
  rfl

theorem msg3For_cmaced (lib : SampleCrypto) (s : Session)
    : slice (msg3For lib s) 16 752 = .ok (msg3Cmaced lib s) := by
  unfold msg3For
  have hlength : ((lib.rijndael128Cmac s.smkKey (msg3Cmaced lib s)).val ++ msg3Cmaced lib s).length
      = 768 := by
    rw [List.length_append, Bytes.length_val, length_msg3Cmaced]
  rw [slice_eq_ok (Nat.le_of_eq hlength.symm), List.drop_left' (Bytes.length_val _),
    List.take_of_length_le (Nat.le_of_eq (length_msg3Cmaced lib s))]

theorem msg3For_reportData (lib : SampleCrypto) (s : Session)
    : member (msg3For lib s) 704 64
        =
      .ok ((lib.sha256 (s.gA.val ++ s.gB.val ++ s.vkKey.val)).append (.zero 32)) := by
  unfold msg3For msg3Cmaced
  rw [← List.append_assoc, ← List.append_nil (_ ++ Subtype.val _)]
  apply member_append
  simp

/--
Whoever knows what stands in `g_sp_db` gets the secret, whether a session is there or not.
-/
theorem run_msg3_of_msg3For (lib : SampleCrypto) {env : Msg3Env} {s : SpState} {id : UInt32}
    (hreg : s.gIsSpRegistered = true) (hgroup : s.gSpExtendedEpidGroupId = some id)
    (henv : env.complete = true)
    : ∃ response s', (spRaProcMsg3Req lib env (some (msg3For lib s.session)) 768 true).run s
          = .ok response s'
        ∧ (response.body.payload, response.body.payloadTag)
            = lib.rijndael128GcmEncrypt s.gSpDb.skKey gSecret (.zero 12) := by
  have hlen : (msg3For lib s.session).length = 768 := by
    rw [msg3For, List.length_append, Bytes.length_val, length_msg3Cmaced]
  rcases @member_of_le (msg3For lib s.session) 80 256 (by omega) with ⟨psSecProp, hpsSecProp⟩
  rcases @enclaveReport_of_le (msg3For lib s.session) (by omega) with ⟨report, hreport⟩
  have hgA : member (msg3For lib s.session) 16 64 = .ok s.gSpDb.gA := msg3For_gA lib s.session
  have hmac : member (msg3For lib s.session) 0 16
      = .ok (lib.rijndael128Cmac s.gSpDb.smkKey (msg3Cmaced lib s.session)) :=
    msg3For_mac lib s.session
  have hreportData : member (msg3For lib s.session) 704 64
      = .ok ((lib.sha256 (s.gSpDb.gA.val ++ s.gSpDb.gB.val ++ s.gSpDb.vkKey.val)).append (.zero 32)) :=
    msg3For_reportData lib s.session
  have hcmaced := msg3For_cmaced lib s.session
  simp only [Msg3Env.complete, Bool.and_eq_true, beq_iff_eq] at henv
  rcases henv with ⟨⟨⟨⟨⟨⟨⟨⟨⟨⟨hcmac, hinit⟩, hga⟩, hgb⟩, hvk⟩, hhash⟩, hopen⟩, hsign⟩, hmalloc⟩,
    hcmacResult⟩, hgcm⟩
  unfold spRaProcMsg3Req iasVerifyAttestationEvidence
  rw [EStateM.run_bind, run_stopIf, if_neg (by decide)]
  simp [-bind_pure_comp, hreg, hgroup, hgA, hmac, hcmaced, hreportData, hpsSecProp, hreport,
    hcmac, hinit, hga, hgb, hvk, hhash, hopen, hsign, hmalloc, hcmacResult, hgcm]

end ServiceProvider
