import SgxNfv.ServiceProvider.Lemmas.Accept

/-!
This module contains what holds of the service provider in every state that it can reach: what its
registration means, and which requests it does not survive.
-/

open C Frame Runs

namespace ServiceProvider

section

variable {I : SpState → Prop} {p : Stop → Prop} {α : Type}

theorem safe_stop {code : Int} (h : p (.ret code)) : Safe I p (stop code : Sp α) := safe_throw h

theorem safe_stopIf {c : Prop} [Decidable c] {code : Int} (h : p (.ret code))
    : Safe I p (stopIf c code) :=
  safe_ite (safe_stop h) (safe_pure ())

theorem safe_call {status : SampleStatus} {code : Int} (h : status ≠ .success → p (.ret code))
    : Safe I p (call status code) := by
  unfold call stopIf
  split
  . next hne => exact safe_stop (h hne)
  . exact safe_pure ()

theorem safe_read {x : Except Fault α} (h : (∃ a, x = .ok a) ∨ ∀ fault, p (.fault fault))
    : Safe I p (read x) := by
  cases x with
  | ok a => exact safe_pure a
  | error fault =>
    have h : ∀ fault, p (.fault fault) := by simpa using h
    exact safe_throw (h fault)

theorem safe_deref {group : Option UInt32} (h : group ≠ none ∨ ∀ fault, p (.fault fault))
    : Safe I p (deref group) := by
  cases group with
  | some id => exact safe_pure id
  | none =>
    have h : ∀ fault, p (.fault fault) := by simpa using h
    exact safe_throw (h .nullPointer)

theorem safe_modifyDb {f : SpDbItem → SpDbItem} (h : ∀ s, I s → I { s with gSpDb := f s.gSpDb })
    : Safe I p (modifyDb f) :=
  safe_modify h

end

/--
The function returns, with a value other than 0.
-/
def returns : Stop → Prop
  | .ret code => code ≠ 0
  | .fault _ => False

theorem returns_code {status : SpRaMsgStatus} (h : status ≠ .ok) : returns (.ret status.code) := by
  cases status with
  | ok => simp at h
  | _ => simp [returns, SpRaMsgStatus.code]

theorem returns_sample {status : SampleStatus} (h : status ≠ .success)
    : returns (.ret status.code) := by
  cases status with
  | success => simp at h
  | _ => simp [returns, SampleStatus.code]

section

variable {I : SpState → Prop}

theorem safe_deriveInto (lib : SampleCrypto) (env : DeriveEnv) (dhKey : Bytes 32)
    (keyId : DeriveKeyType) (key : SpDbItem → Bytes 16) {setKey : SpDbItem → Bytes 16 → SpDbItem}
    (h : ∀ s derivedKey, I s → I { s with gSpDb := setKey s.gSpDb derivedKey })
    : Safe I returns (deriveInto lib env dhKey keyId key setKey) := by
  apply safe_get_bind
  intro s hs
  apply safe_bind (safe_modifyDb fun s hs => h s _ hs)
  intro _
  exact safe_stopIf (returns_code (by decide))

/--
Behind the write to `g_a` a call for message 1 changes the other members of `g_sp_db` only.
-/
theorem safe_msg1Rest (lib : SampleCrypto) (env : Msg1Env) (gA : Bytes 64) (sigRl : List UInt8)
    (hI : ∀ s db, I s → db.gA = s.gSpDb.gA → I { s with gSpDb := db })
    : Safe I returns (msg1Rest lib env gA sigRl) := by
  apply safe_bind (safe_call fun _ => by simp [returns])
  intro _
  apply safe_bind (safe_call fun _ => returns_code (by decide))
  intro _
  apply safe_bind (safe_modifyDb fun s hs => hI s _ hs rfl)
  intro _
  apply safe_bind (safe_call fun _ => returns_code (by decide))
  intro _
  apply safe_bind (safe_deriveInto lib _ _ _ _ fun s _ hs => hI s _ hs rfl)
  intro _
  apply safe_bind (safe_deriveInto lib _ _ _ _ fun s _ hs => hI s _ hs rfl)
  intro _
  apply safe_bind (safe_deriveInto lib _ _ _ _ fun s _ hs => hI s _ hs rfl)
  intro _
  apply safe_bind (safe_deriveInto lib _ _ _ _ fun s _ hs => hI s _ hs rfl)
  intro _
  apply safe_bind (safe_stopIf (returns_code (by decide)))
  intro _
  apply safe_get_bind
  intro s hs
  apply safe_bind (safe_call fun _ => returns_code (by decide))
  intro _
  apply safe_bind (safe_call fun _ => returns_code (by decide))
  intro _
  exact safe_pure _

end

section

variable {I : SpState → Prop} {p : Stop → Prop} {msg3 : List UInt8} {msg3Size : UInt32}

/--
A call for message 3 changes `ps_sec_prop` only. Where `p` does not allow it to fault, the message
has to be long enough and an extended epid group has to be there.
-/
theorem safe_msg3 (lib : SampleCrypto) (env : Msg3Env) (ppAttResultMsg : Bool)
    (hI : ∀ s psSecProp, I s → I { s with gSpDb := { s.gSpDb with psSecProp } })
    (hret : ∀ e, returns e → p e)
    (hlong : msg3.length = msg3Size.toNat ∧ 768 ≤ msg3.length ∨ ∀ fault, p (.fault fault))
    (hgroup : ∀ s, I s → s.gSpExtendedEpidGroupId ≠ none ∨ ∀ fault, p (.fault fault))
    : Safe I p (spRaProcMsg3Req lib env (some msg3) msg3Size ppAttResultMsg) := by
  have hcode : ∀ {status}, status ≠ SpRaMsgStatus.ok → p (.ret status.code) := fun h =>
    hret _ (returns_code h)
  have hmember : ∀ {off n}, off + n ≤ 768
      → (∃ a, member msg3 off n = .ok a) ∨ ∀ fault, p (.fault fault) := fun h =>
    hlong.imp_left fun hlong => member_of_le (Nat.le_trans h hlong.2)
  have hcmaced : (∃ a, slice msg3 16 (msg3Size - 16).toNat = .ok a) ∨ ∀ fault, p (.fault fault) := by
    apply hlong.imp_left
    rintro ⟨hlen, hmin⟩
    refine ⟨_, slice_cmaced hlen ?_⟩
    rw [UInt32.le_iff_toNat_le, ← hlen]
    exact Nat.le_trans (by decide) hmin
  unfold spRaProcMsg3Req
  apply safe_bind (safe_stopIf (hcode (by decide)))
  intro _
  apply safe_get_bind
  intro _ _
  apply safe_bind (safe_stopIf (hcode (by decide)))
  intro _
  apply safe_get_bind
  intro _ _
  apply safe_bind (safe_read (hmember (by decide)))
  intro gA
  apply safe_bind (safe_stopIf (hcode (by decide)))
  intro _
  apply safe_bind (safe_read hcmaced)
  intro msg3Cmaced
  apply safe_bind (safe_call fun _ => hcode (by decide))
  intro _
  apply safe_bind (safe_read (hmember (by decide)))
  intro mac
  apply safe_bind (safe_stopIf (hcode (by decide)))
  intro _
  apply safe_bind (safe_read (hmember (by decide)))
  intro psSecProp
  apply safe_bind (safe_modifyDb fun s hs => hI s _ hs)
  intro _
  apply safe_bind (safe_call fun _ => hcode (by decide))
  intro _
  apply safe_bind (safe_call fun _ => hcode (by decide))
  intro _
  apply safe_bind (safe_call fun _ => hcode (by decide))
  intro _
  apply safe_bind (safe_call fun _ => hcode (by decide))
  intro _
  apply safe_bind (safe_call fun _ => hcode (by decide))
  intro _
  apply safe_bind (safe_read (hmember (by decide)))
  intro reportData
  apply safe_bind (safe_stopIf (hcode (by decide)))
  intro _
  apply safe_get_bind
  intro s hs
  apply safe_bind (safe_deref (hgroup s hs))
  intro _
  split
  . exact safe_stop (hcode (by decide))
  . apply safe_bind (safe_stopIf (hcode (by decide)))
    intro _
    apply safe_bind
    . apply safe_read (hlong.imp_left fun hlong => enclaveReport_of_le (by omega))
    . intro enclaveReport
      apply safe_bind (safe_call fun _ => hcode (by decide))
      intro _
      apply safe_ite
      . exact safe_bind (safe_call fun hne => hret _ (returns_sample hne)) fun _ => safe_pure _
      . exact safe_pure _

end

structure Registered (s : SpState) : Prop where
  registered : s.gIsSpRegistered = true
  group : s.gSpExtendedEpidGroupId = some 0
  spid : s.gSpid = gSimSpid

/--
A service provider that is registered has the extended epid group and the SPID of the simulated
attestation server, and nothing has been written to the `g_sp_db` of one that is not.
-/
def Registration (s : SpState) : Prop :=
  Registered s ∨ s.gIsSpRegistered = false ∧ s.gSpDb = SpState.initial.gSpDb

theorem Registration.registered {s : SpState} (hs : Registration s)
    (hreg : s.gIsSpRegistered = true)
    : Registered s := by
  rcases hs with hs | ⟨hnot, _⟩
  . exact hs
  . rw [hreg] at hnot
    simp at hnot

theorem registration_initial : Registration SpState.initial := .inr ⟨rfl, rfl⟩

theorem endState_enroll (env : Msg0Env) (s : SpState)
    : let enroll : Sp Unit := do
        modify fun s => { s with gSpExtendedEpidGroupId := some 0 }
        let ret ← iasEnroll env.enroll
        stopIf (ret ≠ 0) SpRaMsgStatus.iasFailed.code
        modify fun s => { s with gIsSpRegistered := true }
      endState (enroll.run s) = { s with gSpExtendedEpidGroupId := some 0 }
        ∨ endState (enroll.run s)
            = { s with gSpExtendedEpidGroupId := some 0, gSpid := gSimSpid, gIsSpRegistered := true } := by
  by_cases henroll : env.enroll = 0
  . simp [iasEnroll, henroll, endState]
  . simp [iasEnroll, henroll, endState]

theorem endState_msg0 (env : Msg0Env) (pMsg0 : Option (List UInt8)) (msg0Size : UInt32)
    (s : SpState)
    : endState ((spRaProcMsg0Req env pMsg0 msg0Size).run s) = s
        ∨ endState ((spRaProcMsg0Req env pMsg0 msg0Size).run s)
            = { s with gSpExtendedEpidGroupId := some 0 }
        ∨ endState ((spRaProcMsg0Req env pMsg0 msg0Size).run s)
            = { s with gSpExtendedEpidGroupId := some 0, gSpid := gSimSpid, gIsSpRegistered := true } := by
  unfold spRaProcMsg0Req
  cases pMsg0 with
  | none => exact .inl rfl
  | some msg0 =>
    dsimp only
    by_cases hsize : msg0Size = 4
    . rw [run_stopIf_bind_of_not (not_not.mpr hsize)]
      cases hmember : member msg0 0 4 with
      | error fault => exact .inl rfl
      | ok b =>
        rw [run_read_bind_of_ok rfl, run_get_bind]
        split
        . split
          . exact .inl rfl
          . next id hid =>
            have hid : id = 0 := by
              have hmem := List.mem_of_find?_eq_some hid
              simpa [gExtendedEpidGroups] using hmem
            subst hid
            exact .inr (endState_enroll env s)
        . exact .inl rfl
    . left
      rw [EStateM.run_bind, run_stopIf, if_pos hsize]
      rfl

theorem registered_msg0 {s : SpState} (hs : Registered s) (env : Msg0Env)
    (pMsg0 : Option (List UInt8)) (msg0Size : UInt32)
    : Registered (endState ((spRaProcMsg0Req env pMsg0 msg0Size).run s)) := by
  rcases endState_msg0 env pMsg0 msg0Size s with hend | hend | hend
  . rw [hend]
    exact hs
  . rw [hend]
    exact ⟨hs.registered, rfl, hs.spid⟩
  . rw [hend]
    exact ⟨rfl, rfl, rfl⟩

theorem registration_msg0 {s : SpState} (hs : Registration s) (env : Msg0Env)
    (pMsg0 : Option (List UInt8)) (msg0Size : UInt32)
    : Registration (endState ((spRaProcMsg0Req env pMsg0 msg0Size).run s)) := by
  rcases hs with hs | hs
  . exact .inl (registered_msg0 hs env pMsg0 msg0Size)
  . rcases endState_msg0 env pMsg0 msg0Size s with hend | hend | hend
    . rw [hend]
      exact .inr hs
    . rw [hend]
      exact .inr hs
    . rw [hend]
      exact .inl ⟨rfl, rfl, rfl⟩

theorem returns_msg0 (env : Msg0Env) {msg0 : List UInt8} (hlen : 4 ≤ msg0.length)
    (msg0Size : UInt32)
    : Safe (fun _ => True) returns (spRaProcMsg0Req env (some msg0) msg0Size) := by
  unfold spRaProcMsg0Req iasEnroll
  apply safe_bind (safe_stopIf (by simp [returns]))
  intro _
  apply safe_bind (safe_read (.inl (member_of_le hlen)))
  intro extendedEpidGroupId
  apply safe_get_bind
  intro _ _
  apply safe_ite
  . split
    . exact safe_stop (returns_code (by decide))
    . apply safe_bind (safe_modify (by simp))
      intro _
      apply safe_bind
      . exact safe_bind (safe_modify (by simp)) fun _ => safe_pure _
      . intro ret
        apply safe_bind (safe_stopIf (returns_code (by decide)))
        intro _
        exact safe_modify (by simp)
  . exact safe_pure _

theorem returns_msg1 (lib : SampleCrypto) (env : Msg1Env) {msg1 : List UInt8}
    (hlen : 64 ≤ msg1.length) (msg1Size : UInt32) (ppMsg2 : Bool)
    : Safe Registered returns (spRaProcMsg1Req lib env (some msg1) msg1Size ppMsg2) := by
  have hdb : ∀ s db, Registered s → Registered { s with gSpDb := db } := fun s db hs =>
    ⟨hs.registered, hs.group, hs.spid⟩
  rw [spRaProcMsg1Req_eq]
  apply safe_bind (safe_stopIf (by simp [returns]))
  intro _
  apply safe_get_bind
  intro _ _
  apply safe_bind (safe_stopIf (returns_code (by decide)))
  intro _
  apply safe_get_bind
  intro s hs
  apply safe_bind (safe_deref (.inl (by simp [hs.group])))
  intro _
  apply safe_bind (safe_stopIf (returns_code (by decide)))
  intro _
  apply safe_bind (safe_read (.inl (member_of_le hlen)))
  intro gA
  apply safe_bind (safe_modifyDb fun s hs => hdb s _ hs)
  intro _
  exact safe_msg1Rest lib env gA _ fun s db hs _ => hdb s db hs

theorem endState_finish {α : Type} {reply : α → Reply} {x : Sp α} {s s' : SpState}
    {r : Int × Reply} (h : finish reply x s = .ok (r, s'))
    : endState (x.run s) = s' := by
  rcases finish_eq_ok h with ⟨a, hrun, _⟩ | ⟨hrun, _⟩
  . rw [hrun]
    rfl
  . rw [hrun]
    rfl

theorem reachesDb_eq_true {s : SpState} {env : Msg1Env} {pMsg1 : Option (List UInt8)}
    {msg1Size : UInt32} {ppMsg2 : Bool}
    : (Request.msg1 env pMsg1 msg1Size ppMsg2).reachesDb s = true
        ↔
      pMsg1.isSome = true ∧ msg1Size = 68 ∧ ppMsg2 = true ∧ s.gIsSpRegistered = true
        ∧ env.getSigrl = 0 := by
  cases pMsg1 with
  | none => simp [Request.reachesDb]
  | some msg1 =>
    simp [Request.reachesDb]
    tauto

/--
A call for message 1 that gets to `g_sp_db` writes the `g_a` of the message there first.
-/
theorem finish_of_reaches {lib : SampleCrypto} {s s' : SpState} {env : Msg1Env} {msg1 : List UInt8}
    {msg1Size : UInt32} {ppMsg2 : Bool} {r : Int × Reply} (hs : Registered s)
    (hreach : (Request.msg1 env (some msg1) msg1Size ppMsg2).reachesDb s = true)
    (hstep : step lib s (.msg1 env (some msg1) msg1Size ppMsg2) = .ok (r, s'))
    : ∃ gA, member msg1 0 64 = .ok gA
        ∧ finish .msg2 (msg1Rest lib env gA []) { s with gSpDb := { s.gSpDb with gA } }
            = .ok (r, s') := by
  have hfinish : finish .msg2 (spRaProcMsg1Req lib env (some msg1) msg1Size ppMsg2) s
      = .ok (r, s') := hstep
  unfold finish at hfinish
  rw [run_msg1_of_reaches lib hreach hs.group] at hfinish
  cases hgA : member msg1 0 64 with
  | error fault =>
    rw [hgA] at hfinish
    simp at hfinish
  | ok gA =>
    rw [run_read_bind_of_ok hgA, run_modifyDb_bind] at hfinish
    exact ⟨gA, rfl, hfinish⟩

theorem registered_of_reaches {lib : SampleCrypto} {s s' : SpState} {env : Msg1Env}
    {msg1 : List UInt8} {msg1Size : UInt32} {ppMsg2 : Bool} {r : Int × Reply} (hs : Registered s)
    (hreach : (Request.msg1 env (some msg1) msg1Size ppMsg2).reachesDb s = true)
    (hstep : step lib s (.msg1 env (some msg1) msg1Size ppMsg2) = .ok (r, s'))
    : Registered s' ∧ member msg1 0 64 = .ok s'.gSpDb.gA := by
  rcases finish_of_reaches hs hreach hstep with ⟨gA, hgA, hfinish⟩
  have hsafe : Safe (fun s => Registered s ∧ s.gSpDb.gA = gA) returns (msg1Rest lib env gA []) := by
    apply safe_msg1Rest
    rintro s db ⟨hs, rfl⟩ hgA
    exact ⟨⟨hs.registered, hs.group, hs.spid⟩, hgA⟩
  have hend := hsafe.endState (s := { s with gSpDb := { s.gSpDb with gA } })
    ⟨⟨hs.registered, hs.group, hs.spid⟩, rfl⟩
  rw [endState_finish hfinish] at hend
  rw [hend.2]
  exact ⟨hend.1, hgA⟩

section

variable {lib : SampleCrypto} {s s' : SpState} {c : Request} {r : Int × Reply}

theorem step_of_not_uses {env : Msg3Env} {pMsg3 : Option (List UInt8)} {msg3Size : UInt32}
    {ppAttResultMsg : Bool}
    (huse : (Request.msg3 env pMsg3 msg3Size ppAttResultMsg).usesDb s = false)
    (hstep : step lib s (.msg3 env pMsg3 msg3Size ppAttResultMsg) = .ok (r, s'))
    : s' = s := by
  rcases run_msg3_of_not_uses lib huse with ⟨code, hrun, _⟩
  have hend := endState_finish hstep
  rw [hrun] at hend
  exact hend.symm

theorem step_msg1_of_not_reaches {env : Msg1Env} {pMsg1 : Option (List UInt8)} {msg1Size : UInt32}
    {ppMsg2 : Bool} (hreach : (Request.msg1 env pMsg1 msg1Size ppMsg2).reachesDb s = false)
    (hstep : step lib s (.msg1 env pMsg1 msg1Size ppMsg2) = .ok (r, s'))
    : s' = s := by
  rcases run_msg1_of_not_reaches lib hreach with ⟨e, hrun, _⟩
  have hend := endState_finish hstep
  rw [hrun] at hend
  exact hend.symm

theorem Registered.step (hs : Registered s) (hstep : step lib s c = .ok (r, s'))
    : Registered s' := by
  cases c with
  | msg0 env pMsg0 msg0Size =>
    have hend := registered_msg0 hs env pMsg0 msg0Size
    rwa [endState_finish hstep] at hend
  | msg1 env pMsg1 msg1Size ppMsg2 =>
    cases hreach : (Request.msg1 env pMsg1 msg1Size ppMsg2).reachesDb s with
    | false =>
      rw [step_msg1_of_not_reaches hreach hstep]
      exact hs
    | true =>
      rcases Option.isSome_iff_exists.mp (reachesDb_eq_true.mp hreach).1 with ⟨msg1, rfl⟩
      exact (registered_of_reaches hs hreach hstep).1
  | msg3 env pMsg3 msg3Size ppAttResultMsg =>
    cases pMsg3 with
    | none =>
      rw [step_of_not_uses rfl hstep]
      exact hs
    | some msg3 =>
      have hsafe : Safe Registered (fun _ => True)
          (spRaProcMsg3Req lib env (some msg3) msg3Size ppAttResultMsg) := by
        apply safe_msg3
        . intro s psSecProp hs
          exact ⟨hs.registered, hs.group, hs.spid⟩
        . simp
        . simp
        . simp
      have hend := hsafe.endState hs
      rwa [endState_finish hstep] at hend

theorem Registration.step (hs : Registration s) (hstep : step lib s c = .ok (r, s'))
    : Registration s' := by
  rcases hs with hs | ⟨hreg, hdb⟩
  . exact .inl (hs.step hstep)
  . cases c with
    | msg0 env pMsg0 msg0Size =>
      have hend := registration_msg0 (.inr ⟨hreg, hdb⟩) env pMsg0 msg0Size
      rwa [endState_finish hstep] at hend
    | msg1 env pMsg1 msg1Size ppMsg2 =>
      have hreach : (Request.msg1 env pMsg1 msg1Size ppMsg2).reachesDb s = false := by
        cases pMsg1 with
        | none => rfl
        | some msg1 => simp [Request.reachesDb, hreg]
      rw [step_msg1_of_not_reaches hreach hstep]
      exact .inr ⟨hreg, hdb⟩
    | msg3 env pMsg3 msg3Size ppAttResultMsg =>
      have huse : (Request.msg3 env pMsg3 msg3Size ppAttResultMsg).usesDb s = false := by
        cases pMsg3 with
        | none => rfl
        | some msg3 => simp [Request.usesDb, hreg]
      rw [step_of_not_uses huse hstep]
      exact .inr ⟨hreg, hdb⟩

end

theorem Registration.run {lib : SampleCrypto} {s : SpState} {h : History}
    (hrun : Run (ServiceProvider.step lib) SpState.initial s h)
    : Registration s := by
  induction hrun with
  | nil => exact registration_initial
  | cons hrun hstep ih => exact ih.step hstep

/--
The memory behind the pointer has the size that is passed with it.
-/
def Request.sized : Request → Prop
  | .msg0 _ pMsg0 msg0Size => ∀ msg0 ∈ pMsg0, msg0.length = msg0Size.toNat
  | .msg1 _ pMsg1 msg1Size _ => ∀ msg1 ∈ pMsg1, msg1.length = msg1Size.toNat
  | .msg3 _ pMsg3 msg3Size _ => ∀ msg3 ∈ pMsg3, msg3.length = msg3Size.toNat

/--
The message is let in, and gets to the comparison with a quote that it is too short for.
-/
def Request.shortQuote (lib : SampleCrypto) (s : SpState) : Request → Prop
  | .msg3 env (some message) msg3Size ppAttResultMsg =>
    sizeofMsg3 ≤ msg3Size ∧ msg3Size < 768 ∧ ReachesQuote lib env s message ppAttResultMsg
  | _ => False

theorem finish_eq_error {α : Type} {reply : α → Reply} {x : Sp α} {s : SpState} {fault : Fault}
    : finish reply x s = .error fault ↔ ∃ s', x.run s = .error (.fault fault) s' := by
  unfold finish
  split
  . next a s' hrun => simp [hrun]
  . next code s' hrun => simp [hrun]
  . next fault' s' hrun => simp [hrun]

section

variable {lib : SampleCrypto} {s : SpState} {fault : Fault}

theorem finish_ne_error {α : Type} {reply : α → Reply} {x : Sp α} {I : SpState → Prop}
    (hx : Safe I returns x) (hs : I s)
    : finish reply x s ≠ .error fault := by
  intro hfinish
  rcases finish_eq_error.mp hfinish with ⟨s', hrun⟩
  exact hx.stop hs hrun

theorem step_msg0_ne_error {env : Msg0Env} {pMsg0 : Option (List UInt8)} {msg0Size : UInt32}
    (hsized : (Request.msg0 env pMsg0 msg0Size).sized)
    : step lib s (.msg0 env pMsg0 msg0Size) ≠ .error fault := by
  cases pMsg0 with
  | none =>
    intro herror
    cases herror
  | some msg0 =>
    by_cases hsize : msg0Size = 4
    . apply finish_ne_error (returns_msg0 env _ msg0Size) trivial
      rw [hsized msg0 rfl, hsize]
      decide
    . intro herror
      rcases finish_eq_error.mp herror with ⟨s', hrun⟩
      simp [spRaProcMsg0Req, hsize] at hrun

theorem step_msg1_ne_error (hs : Registration s) {env : Msg1Env} {pMsg1 : Option (List UInt8)}
    {msg1Size : UInt32} {ppMsg2 : Bool}
    (hsized : (Request.msg1 env pMsg1 msg1Size ppMsg2).sized)
    : step lib s (.msg1 env pMsg1 msg1Size ppMsg2) ≠ .error fault := by
  cases pMsg1 with
  | none =>
    intro herror
    cases herror
  | some msg1 =>
    by_cases hsize : msg1Size = 68
    . by_cases hreg : s.gIsSpRegistered = true
      . apply finish_ne_error (returns_msg1 lib env _ msg1Size ppMsg2) (hs.registered hreg)
        rw [hsized msg1 rfl, hsize]
        decide
      . intro herror
        rcases finish_eq_error.mp herror with ⟨s', hrun⟩
        rw [spRaProcMsg1Req_eq] at hrun
        cases ppMsg2 with
        | false => simp at hrun
        | true => simp [hsize, hreg] at hrun
    . intro herror
      rcases finish_eq_error.mp herror with ⟨s', hrun⟩
      rw [spRaProcMsg1Req_eq] at hrun
      simp [hsize] at hrun

theorem step_msg3_eq_error_iff (hs : Registration s) {env : Msg3Env} {pMsg3 : Option (List UInt8)}
    {msg3Size : UInt32} {ppAttResultMsg : Bool}
    (hsized : (Request.msg3 env pMsg3 msg3Size ppAttResultMsg).sized)
    : step lib s (.msg3 env pMsg3 msg3Size ppAttResultMsg) = .error fault
        ↔
      fault = .outOfBounds ∧ (Request.msg3 env pMsg3 msg3Size ppAttResultMsg).shortQuote lib s := by
  cases pMsg3 with
  | none =>
    constructor
    . intro herror
      cases herror
    . rintro ⟨_, hshort⟩
      exact hshort.elim
  | some msg3 =>
    have hlen := hsized msg3 rfl
    cases huse : (Request.msg3 env (some msg3) msg3Size ppAttResultMsg).usesDb s with
    | false =>
      -- It returns before it looks at the message.
      rcases run_msg3_of_not_uses lib huse with ⟨code, hrun, _⟩
      constructor
      . intro herror
        rcases finish_eq_error.mp herror with ⟨s', hfault⟩
        rw [hrun] at hfault
        cases hfault
      . rintro ⟨_, hmin, _, hreach⟩
        simp [Request.usesDb, hmin, hreach.ppAttResultMsg, hreach.registered] at huse
    | true =>
      simp only [Request.usesDb, Bool.and_eq_true, decide_eq_true_eq] at huse
      rcases huse with ⟨⟨hmin, hpp⟩, hreg⟩
      have hshort : msg3Size < 768 ↔ msg3.length < 768 := by
        rw [UInt32.lt_iff_toNat_lt, hlen]
        rfl
      constructor
      . intro herror
        rcases finish_eq_error.mp herror with ⟨s', hfault⟩
        by_cases hlong : 768 ≤ msg3.length
        . have hsafe : Safe Registered returns
              (spRaProcMsg3Req lib env (some msg3) msg3Size ppAttResultMsg) := by
            apply safe_msg3
            . intro s psSecProp hs
              exact ⟨hs.registered, hs.group, hs.spid⟩
            . exact fun e he => he
            . exact .inl ⟨hlen, hlong⟩
            . intro s hs
              exact .inl (by simp [hs.group])
          exact (hsafe.stop (hs.registered hreg) hfault).elim
        . have hlt := Nat.not_le.mp hlong
          rcases @run_msg3_front lib env s msg3 msg3Size ppAttResultMsg hlen hmin
            with ⟨code, s'', hstop⟩ | hreach
          . rw [hstop] at hfault
            cases hfault
          . rcases run_msg3_short hlen hmin hlt hreach with ⟨s'', hbounds⟩
            rw [hbounds] at hfault
            cases hfault
            exact ⟨rfl, hmin, hshort.mpr hlt, hreach⟩
      . rintro ⟨rfl, _, hlt, hreach⟩
        exact finish_eq_error.mpr (run_msg3_short hlen hmin (hshort.mp hlt) hreach)

end

theorem step_eq_error_iff (lib : SampleCrypto) {s : SpState} {h : History}
    (hrun : Run (step lib) SpState.initial s h) {c : Request} (hsized : c.sized) (fault : Fault)
    : step lib s c = .error fault ↔ fault = .outOfBounds ∧ c.shortQuote lib s := by
  have hs := Registration.run hrun
  cases c with
  | msg0 env pMsg0 msg0Size => simp [step_msg0_ne_error hsized, Request.shortQuote]
  | msg1 env pMsg1 msg1Size ppMsg2 => simp [step_msg1_ne_error hs hsized, Request.shortQuote]
  | msg3 env pMsg3 msg3Size ppAttResultMsg => exact step_msg3_eq_error_iff hs hsized

theorem step_smallestMsg3
    : step honestLib SpState.registered
          (.msg3 Msg3Env.success (some (smallestMsg3 honestLib)) 336 true)
        = .error .outOfBounds := by
  apply (step_eq_error_iff honestLib (.cons .nil (step_msg0 honestLib)) _ _).mpr
  . exact ⟨rfl, by decide, by decide, reachesQuote_smallestMsg3 honestLib⟩
  . rintro msg3 ⟨⟩
    exact length_smallestMsg3 honestLib

end ServiceProvider
