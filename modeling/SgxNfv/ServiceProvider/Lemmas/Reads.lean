import SgxNfv.ServiceProvider.Lemmas.Session

/-!
This module contains the verification of what `sp_ra_proc_msg3_req` reads: for which messages it
stays inside of the message.
-/

open C Frame

namespace ServiceProvider

/--
No byte behind the end of the message is read.
-/
def ReadsMessage (lib : SampleCrypto) (env : Msg3Env) (s : SpState) (msg3 : List UInt8)
    (msg3Size : UInt32) (ppAttResultMsg : Bool) : Prop :=
  ∀ s', (spRaProcMsg3Req lib env (some msg3) msg3Size ppAttResultMsg).run s
    ≠ .error (.fault .outOfBounds) s'

def Msg3Env.hashes (env : Msg3Env) : Bool :=
  env.shaInit == .success && env.shaUpdateGa == .success && env.shaUpdateGb == .success
    && env.shaUpdateVk == .success && env.shaGetHash == .success

/--
The message passes the checks in front of the quote: it has the `g_a` and the mac of the peer that
shares the keys in `g_sp_db`.
-/
structure ReachesQuote (lib : SampleCrypto) (env : Msg3Env) (s : SpState) (msg3 : List UInt8)
    (ppAttResultMsg : Bool) : Prop where
  ppAttResultMsg : ppAttResultMsg = true
  registered : s.gIsSpRegistered = true
  gA : member msg3 16 64 = .ok s.gSpDb.gA
  cmac : env.cmac = .success
  mac : member msg3 0 16 = .ok (lib.rijndael128Cmac s.gSpDb.smkKey (msg3.drop 16))
  hashes : env.hashes = true

def inBounds : Stop → Prop := fun e => e ≠ .fault .outOfBounds

section

variable {α : Type}

theorem inBounds_stop (code : Int) : StopsWith inBounds (stop code : Sp α) :=
  stopsWith_throw (by simp [inBounds])

theorem inBounds_stopIf {p : Prop} [Decidable p] (code : Int) : StopsWith inBounds (stopIf p code) :=
  stopsWith_ite (inBounds_stop code) (stopsWith_pure ())

theorem inBounds_call (status : SampleStatus) (code : Int)
    : StopsWith inBounds (call status code) :=
  inBounds_stopIf code

theorem inBounds_read {x : Except Fault α} (h : ∃ a, x = .ok a) : StopsWith inBounds (read x) := by
  rcases h with ⟨a, rfl⟩
  exact stopsWith_pure a

theorem inBounds_deref (group : Option UInt32) : StopsWith inBounds (deref group) := by
  cases group with
  | some id => exact stopsWith_pure id
  | none => exact stopsWith_throw (by simp [inBounds])

end

section

variable {lib : SampleCrypto} {env : Msg3Env} {s : SpState} {msg3 : List UInt8} {msg3Size : UInt32}
  {ppAttResultMsg : Bool}

theorem length_msg3 (hlen : msg3.length = msg3Size.toNat) (hmin : sizeofMsg3 ≤ msg3Size)
    : 336 ≤ msg3.length := by
  rw [hlen]
  exact UInt32.le_iff_toNat_le.mp hmin

theorem slice_cmaced (hlen : msg3.length = msg3Size.toNat) (hmin : sizeofMsg3 ≤ msg3Size)
    : slice msg3 16 (msg3Size - 16).toNat = .ok (msg3.drop 16) := by
  have hle := length_msg3 hlen hmin
  have hsub : (msg3Size - 16).toNat = msg3Size.toNat - 16 := by
    rw [UInt32.toNat_sub_of_le]
    . rfl
    . rw [UInt32.le_iff_toNat_le, ← hlen]
      exact Nat.le_trans (by decide) hle
  rw [slice_eq_ok (by omega), List.take_of_length_le]
  rw [List.length_drop]
  omega

theorem inBounds_msg3 (hlen : msg3.length = msg3Size.toNat) (hmin : 768 ≤ msg3.length)
    : StopsWith inBounds (spRaProcMsg3Req lib env (some msg3) msg3Size ppAttResultMsg) := by
  have hsize : sizeofMsg3 ≤ msg3Size := by
    rw [UInt32.le_iff_toNat_le, ← hlen]
    exact Nat.le_trans (by decide) hmin
  unfold spRaProcMsg3Req
  apply stopsWith_bind (inBounds_stopIf _)
  intro _
  refine stopsWith_bind stopsWith_get ?_
  intro _
  apply stopsWith_bind (inBounds_stopIf _)
  intro _
  refine stopsWith_bind stopsWith_get ?_
  intro s
  apply stopsWith_bind (inBounds_read (member_of_le (by omega)))
  intro gA
  apply stopsWith_bind (inBounds_stopIf _)
  intro _
  apply stopsWith_bind (inBounds_read ⟨_, slice_cmaced hlen hsize⟩)
  intro msg3Cmaced
  apply stopsWith_bind (inBounds_call _ _)
  intro _
  apply stopsWith_bind (inBounds_read (member_of_le (by omega)))
  intro mac
  apply stopsWith_bind (inBounds_stopIf _)
  intro _
  apply stopsWith_bind (inBounds_read (member_of_le (by omega)))
  intro psSecProp
  refine stopsWith_bind (stopsWith_modify _) ?_
  intro _
  apply stopsWith_bind (inBounds_call _ _)
  intro _
  apply stopsWith_bind (inBounds_call _ _)
  intro _
  apply stopsWith_bind (inBounds_call _ _)
  intro _
  apply stopsWith_bind (inBounds_call _ _)
  intro _
  apply stopsWith_bind (inBounds_call _ _)
  intro _
  apply stopsWith_bind (inBounds_read (member_of_le (by omega)))
  intro reportData
  apply stopsWith_bind (inBounds_stopIf _)
  intro _
  refine stopsWith_bind stopsWith_get ?_
  intro _
  apply stopsWith_bind (inBounds_deref _)
  intro _
  split
  . exact inBounds_stop _
  . apply stopsWith_bind (inBounds_stopIf _)
    intro _
    apply stopsWith_bind (inBounds_read (enclaveReport_of_le (by omega)))
    intro enclaveReport
    apply stopsWith_bind (inBounds_call _ _)
    intro _
    apply stopsWith_ite
    . exact stopsWith_bind (inBounds_call _ _) fun _ => stopsWith_pure _
    . exact stopsWith_pure _

/--
The message has the right mac, but the hash that the quote is compared with is not there.
-/
theorem run_msg3_of_not_hashes (hlen : msg3.length = msg3Size.toNat)
    (hmin : sizeofMsg3 ≤ msg3Size) (hreg : s.gIsSpRegistered = true)
    (hgA : member msg3 16 64 = .ok s.gSpDb.gA) (hcmac : env.cmac = .success)
    (hmac : member msg3 0 16 = .ok (lib.rijndael128Cmac s.gSpDb.smkKey (msg3.drop 16)))
    (hhashes : ¬ env.hashes = true)
    : ∃ code s', (spRaProcMsg3Req lib env (some msg3) msg3Size true).run s
        = .error (.ret code) s' := by
  have hle := length_msg3 hlen hmin
  have hsize : ¬ msg3Size < sizeofMsg3 := UInt32.not_lt.mpr hmin
  have hcmaced := slice_cmaced hlen hmin
  rcases @member_of_le msg3 80 256 (by omega) with ⟨psSecProp, hpsSecProp⟩
  refine ⟨SpRaMsgStatus.internalError.code, { s with gSpDb := { s.gSpDb with psSecProp } }, ?_⟩
  simp only [Msg3Env.hashes, Bool.and_eq_true, beq_iff_eq] at hhashes
  unfold spRaProcMsg3Req
  by_cases hinit : env.shaInit = .success
  . by_cases hga : env.shaUpdateGa = .success
    . by_cases hgb : env.shaUpdateGb = .success
      . by_cases hvk : env.shaUpdateVk = .success
        . have hhash : env.shaGetHash ≠ .success := fun hhash =>
            hhashes ⟨⟨⟨⟨hinit, hga⟩, hgb⟩, hvk⟩, hhash⟩
          simp [hsize, hreg, hgA, hcmaced, hcmac, hmac, hpsSecProp, hinit, hga, hgb, hvk,
            run_call_of_ne hhash]
        . simp [hsize, hreg, hgA, hcmaced, hcmac, hmac, hpsSecProp, hinit, hga, hgb,
            run_call_of_ne hvk]
      . simp [hsize, hreg, hgA, hcmaced, hcmac, hmac, hpsSecProp, hinit, hga, run_call_of_ne hgb]
    . simp [hsize, hreg, hgA, hcmaced, hcmac, hmac, hpsSecProp, hinit, run_call_of_ne hga]
  . simp [hsize, hreg, hgA, hcmaced, hcmac, hmac, hpsSecProp, run_call_of_ne hinit]

/--
In front of the quote stand members of the checked size only.
-/
theorem run_msg3_front (hlen : msg3.length = msg3Size.toNat) (hmin : sizeofMsg3 ≤ msg3Size)
    : (∃ code s', (spRaProcMsg3Req lib env (some msg3) msg3Size ppAttResultMsg).run s
          = .error (.ret code) s')
        ∨ ReachesQuote lib env s msg3 ppAttResultMsg := by
  have hle := length_msg3 hlen hmin
  have hsize : ¬ msg3Size < sizeofMsg3 := UInt32.not_lt.mpr hmin
  have hcmaced := slice_cmaced hlen hmin
  rcases @member_of_le msg3 16 64 (by omega) with ⟨gA, hgA⟩
  rcases @member_of_le msg3 0 16 (by omega) with ⟨mac, hmac⟩
  by_cases hpp : ppAttResultMsg = true
  . subst hpp
    by_cases hreg : s.gIsSpRegistered = true
    . by_cases hdb : gA = s.gSpDb.gA
      . subst hdb
        by_cases hcmac : env.cmac = .success
        . by_cases htag : mac = lib.rijndael128Cmac s.gSpDb.smkKey (msg3.drop 16)
          . subst htag
            by_cases hhashes : env.hashes = true
            . exact .inr ⟨rfl, hreg, hgA, hcmac, hmac, hhashes⟩
            . exact .inl (run_msg3_of_not_hashes hlen hmin hreg hgA hcmac hmac hhashes)
          . refine .inl ⟨SpRaMsgStatus.integrityFailed.code, s, ?_⟩
            simp [spRaProcMsg3Req, hsize, hreg, hgA, hcmaced, hcmac, hmac, htag]
        . refine .inl ⟨SpRaMsgStatus.internalError.code, s, ?_⟩
          simp [spRaProcMsg3Req, hsize, hreg, hgA, hcmaced, run_call_of_ne hcmac]
      . refine .inl ⟨SpRaMsgStatus.protocolError.code, s, ?_⟩
        simp [spRaProcMsg3Req, hsize, hreg, hgA, hdb]
    . refine .inl ⟨SpRaMsgStatus.unsupportedExtendedEpidGroup.code, s, ?_⟩
      simp [spRaProcMsg3Req, hsize, hreg]
  . refine .inl ⟨SpRaMsgStatus.internalError.code, s, ?_⟩
    simp [spRaProcMsg3Req, hpp]

theorem run_msg3_short (hlen : msg3.length = msg3Size.toNat) (hmin : sizeofMsg3 ≤ msg3Size)
    (hshort : msg3.length < 768) (h : ReachesQuote lib env s msg3 ppAttResultMsg)
    : ∃ s', (spRaProcMsg3Req lib env (some msg3) msg3Size ppAttResultMsg).run s
        = .error (.fault .outOfBounds) s' := by
  have hle := length_msg3 hlen hmin
  have hsize : ¬ msg3Size < sizeofMsg3 := UInt32.not_lt.mpr hmin
  rcases @member_of_le msg3 80 256 (by omega) with ⟨psSecProp, hpsSecProp⟩
  have hcmaced := slice_cmaced hlen hmin
  have hreportData : member msg3 704 64 = .error .outOfBounds := member_of_lt (by omega)
  have hhashes := h.hashes
  simp only [Msg3Env.hashes, Bool.and_eq_true, beq_iff_eq] at hhashes
  rcases hhashes with ⟨⟨⟨⟨hinit, hga⟩, hgb⟩, hvk⟩, hhash⟩
  refine ⟨{ s with gSpDb := { s.gSpDb with psSecProp } }, ?_⟩
  unfold spRaProcMsg3Req
  simp [h.ppAttResultMsg, hsize, h.registered, h.gA, hcmaced, h.cmac, h.mac, hpsSecProp, hinit, hga,
    hgb, hvk, hhash, hreportData]

end

theorem spRaProcMsg3Req_readsMessage_iff (lib : SampleCrypto) (env : Msg3Env) (s : SpState)
    (msg3 : List UInt8) (msg3Size : UInt32) (ppAttResultMsg : Bool)
    (hlen : msg3.length = msg3Size.toNat) (hmin : sizeofMsg3 ≤ msg3Size)
    : ReadsMessage lib env s msg3 msg3Size ppAttResultMsg
        ↔
      768 ≤ msg3Size ∨ ¬ ReachesQuote lib env s msg3 ppAttResultMsg := by
  have hlarge : 768 ≤ msg3Size ↔ 768 ≤ msg3.length := by
    rw [UInt32.le_iff_toNat_le, hlen]
    rfl
  rw [hlarge]
  constructor
  . intro hreads
    by_contra hnot
    rw [not_or, not_not] at hnot
    rcases run_msg3_short hlen hmin (Nat.not_le.mp hnot.1) hnot.2 with ⟨s', hrun⟩
    exact hreads s' hrun
  . rintro (hlong | hfront) s' hrun
    . exact inBounds_msg3 hlen hlong s _ s' hrun rfl
    . rcases run_msg3_front hlen hmin with ⟨code, s'', hstop⟩ | hreaches
      . rw [hstop] at hrun
        cases hrun
      . exact hfront hreaches

/--
The smallest message that is let in, from a peer that takes all of `g_sp_db` for zero.
-/
def smallestMsg3 (lib : SampleCrypto) : List UInt8 :=
  (lib.rijndael128Cmac (.zero 16) (List.replicate 320 0)).val ++ List.replicate 320 0

theorem length_smallestMsg3 (lib : SampleCrypto) : (smallestMsg3 lib).length = 336 := by
  rw [smallestMsg3, List.length_append, Bytes.length_val, List.length_replicate]

theorem reachesQuote_smallestMsg3 (lib : SampleCrypto)
    : ReachesQuote lib Msg3Env.success SpState.registered (smallestMsg3 lib) true := by
  constructor
  . rfl
  . rfl
  . have hsplit : List.replicate 320 (0 : UInt8) = (Bytes.zero 64).val ++ List.replicate 256 0 := by
      rw [Bytes.zero, List.replicate_append_replicate]
    unfold smallestMsg3
    rw [hsplit, ← List.append_assoc]
    apply member_append
    rw [Bytes.length_val]
  . rfl
  . rw [smallestMsg3, List.drop_left' (Bytes.length_val _), ← List.nil_append (Subtype.val _)]
    apply member_append
    rfl
  . rfl

theorem spRaProcMsg3Req_readsMessage_iff_registered
    : ReadsMessage honestLib Msg3Env.success SpState.registered
          (msg3For honestLib SpState.registered.session) 768 true
        ↔
      768 ≤ (768 : UInt32) ∨ ¬ ReachesQuote honestLib Msg3Env.success SpState.registered
        (msg3For honestLib SpState.registered.session) true := by
  apply spRaProcMsg3Req_readsMessage_iff
  . rw [msg3For, List.length_append, Bytes.length_val, length_msg3Cmaced]
    rfl
  . decide

theorem not_readsMessage_smallest
    : ¬ ∃ lib, ReadsMessage lib Msg3Env.success SpState.registered (smallestMsg3 lib) 336 true := by
  rintro ⟨lib, hreads⟩
  have hlen := length_smallestMsg3 lib
  have hsize : (smallestMsg3 lib).length = (336 : UInt32).toNat := hlen
  rcases run_msg3_short hsize (by decide) (by omega) (reachesQuote_smallestMsg3 lib)
    with ⟨s', hrun⟩
  exact hreads s' hrun

end ServiceProvider
