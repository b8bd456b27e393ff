import SgxNfv.Lib.Runs
import SgxNfv.ServiceProvider.Lemmas.Proc

/-!
This module contains the verification of the attestation session: when the service provider hands
out its secret, over all orders of the three messages and all failures inside them.
-/

open C Frame Runs

namespace ServiceProvider

abbrev History := List (Event SpState Request (Int × Reply))

def establishes (e : Event SpState Request (Int × Reply)) : Bool :=
  match e.call with
  | .msg1 .. => e.ret.1 == SpRaMsgStatus.ok.code
  | _ => false

def releases (e : Event SpState Request (Int × Reply)) : Bool :=
  match e.call with
  | .msg3 .. => e.ret.1 == SpRaMsgStatus.ok.code
  | _ => false

/--
The secret is released in the session of the last call for message 1 that returned 0.
-/
def InSession (e : Event SpState Request (Int × Reply)) (h : History) : Prop :=
  releases e = true → ∃ m ∈ h.find? establishes, e.after.session = m.after.session

def ReleasesInSession (lib : SampleCrypto) : Prop :=
  ∀ s h, Run (step lib) SpState.initial s h → Always InSession h

def Request.complete : Request → Bool
  | .msg1 env .. => env.complete
  | _ => false

def reaches (e : Event SpState Request (Int × Reply)) : Bool := e.call.reachesDb e.before

/--
A call that uses `g_sp_db` has a session there: of the calls that get to it, the last one is
complete.
-/
def Guarded (e : Event SpState Request (Int × Reply)) (h : History) : Prop :=
  e.call.usesDb e.before = true → ∃ m ∈ h.find? reaches, m.call.complete = true

instance (e : Event SpState Request (Int × Reply)) (h : History) : Decidable (Guarded e h) :=
  inferInstanceAs
    (Decidable (e.call.usesDb e.before = true → ∃ m ∈ h.find? reaches, m.call.complete = true))

def SessionStored (s : SpState) (h : History) : Prop :=
  ∀ m ∈ h.find? reaches, m.call.complete = true
    → h.find? establishes = some m ∧ s.session = m.after.session

theorem finish_eq_ok {α : Type} {reply : α → Reply} {x : Sp α} {s s' : SpState} {code : Int}
    {r : Reply} (h : finish reply x s = .ok ((code, r), s'))
    : (∃ a, x.run s = .ok a s' ∧ code = SpRaMsgStatus.ok.code ∧ r = reply a)
        ∨ (x.run s = .error (.ret code) s' ∧ r = .none) := by
  unfold finish at h
  split at h
  . next a s1 hrun =>
    cases h
    exact .inl ⟨a, hrun, rfl, rfl⟩
  . next c s1 hrun =>
    cases h
    exact .inr ⟨hrun, rfl⟩
  . simp at h

theorem finish_of_run {α : Type} (reply : α → Reply) {x : Sp α} {s s' : SpState} {a : α}
    (h : x.run s = .ok a s')
    : finish reply x s = .ok ((SpRaMsgStatus.ok.code, reply a), s') := by
  unfold finish
  rw [h]

theorem finish_keeps {α : Type} {reply : α → Reply} {x : Sp α} {s s' : SpState} {r : Int × Reply}
    (hx : Keeps SpState.session x) (h : finish reply x s = .ok (r, s'))
    : s'.session = s.session := by
  have hs := hx s
  rcases finish_eq_ok h with ⟨a, hrun, _⟩ | ⟨hrun, _⟩
  . rw [hrun] at hs
    exact hs
  . rw [hrun] at hs
    exact hs

section

variable {lib : SampleCrypto} {s s' : SpState} {c : Request} {r : Int × Reply}

theorem step_of_not_reaches (hstep : step lib s c = .ok (r, s')) (hreach : c.reachesDb s = false)
    : s'.session = s.session ∧ establishes ⟨s, c, r, s'⟩ = false := by
  cases c with
  | msg0 env pMsg0 msg0Size => exact ⟨finish_keeps (msg0_keeps_session _ _ _) hstep, rfl⟩
  | msg3 env pMsg3 msg3Size ppAttResultMsg =>
    exact ⟨finish_keeps (msg3_keeps_session _ _ _ _ _) hstep, rfl⟩
  | msg1 env pMsg1 msg1Size ppMsg2 =>
    -- It returns before the first write to `g_sp_db`, with a value other than 0.
    rcases run_msg1_of_not_reaches lib hreach with ⟨e, hrun, hne⟩
    rcases finish_eq_ok hstep with ⟨a, hok, _⟩ | ⟨herr, _⟩
    . simp [hrun] at hok
    . rw [hrun] at herr
      cases herr
      refine ⟨rfl, ?_⟩
      simp only [establishes, beq_eq_false_iff_ne]
      intro hret
      exact hne (by rw [hret]; rfl)

theorem step_of_complete (hstep : step lib s c = .ok (r, s')) (hreach : c.reachesDb s = true)
    (hcomplete : c.complete = true)
    : establishes ⟨s, c, r, s'⟩ = true := by
  cases c with
  | msg0 env pMsg0 msg0Size => simp [Request.reachesDb] at hreach
  | msg3 env pMsg3 msg3Size ppAttResultMsg => simp [Request.reachesDb] at hreach
  | msg1 env pMsg1 msg1Size ppMsg2 =>
    cases pMsg1 with
    | none => simp [Request.reachesDb] at hreach
    | some msg1 =>
      simp only [Request.reachesDb, Bool.and_eq_true, beq_iff_eq] at hreach
      rcases hreach with ⟨⟨⟨rfl, rfl⟩, hreg⟩, hsigrl⟩
      rcases run_msg1_of_complete lib msg1 hreg hsigrl hcomplete with
        ⟨response, gA, s1, hrun, _⟩ | ⟨fault, s1, hrun⟩
      . rcases finish_eq_ok hstep with ⟨_, _, hret, _⟩ | ⟨herr, _⟩
        . simp [establishes, hret]
        . simp [hrun] at herr
      . rcases finish_eq_ok hstep with ⟨a, hok, _⟩ | ⟨herr, _⟩
        . simp [hrun] at hok
        . simp [hrun] at herr

theorem usesDb_of_releases (hstep : step lib s c = .ok (r, s'))
    (hrelease : releases ⟨s, c, r, s'⟩ = true)
    : c.usesDb s = true := by
  cases c with
  | msg0 env pMsg0 msg0Size => simp [releases] at hrelease
  | msg1 env pMsg1 msg1Size ppMsg2 => simp [releases] at hrelease
  | msg3 env pMsg3 msg3Size ppAttResultMsg =>
    simp only [releases, beq_iff_eq] at hrelease
    cases huse : (Request.msg3 env pMsg3 msg3Size ppAttResultMsg).usesDb s with
    | true => rfl
    | false =>
      rcases run_msg3_of_not_uses lib huse with ⟨code, hrun, hne⟩
      rcases finish_eq_ok hstep with ⟨a, hok, _⟩ | ⟨herr, _⟩
      . simp [hrun] at hok
      . rw [hrun] at herr
        cases herr
        exact absurd hrelease hne

theorem SessionStored.next {h : History} (hinv : SessionStored s h)
    (hstep : step lib s c = .ok (r, s'))
    : SessionStored s' (⟨s, c, r, s'⟩ :: h) := by
  intro m hm hcomplete
  -- A call that gets to `g_sp_db` is the last one itself, any other leaves the session as it was.
  cases hreach : c.reachesDb s with
  | true =>
    have hreaches : reaches ⟨s, c, r, s'⟩ = true := hreach
    rw [List.find?_cons_of_pos hreaches] at hm
    cases hm
    exact ⟨List.find?_cons_of_pos (step_of_complete hstep hreach hcomplete), rfl⟩
  | false =>
    rcases step_of_not_reaches hstep hreach with ⟨hsession, hestablish⟩
    rw [List.find?_cons_of_neg (by simp [reaches, hreach])] at hm
    rw [List.find?_cons_of_neg (by simp [hestablish]), hsession]
    exact hinv m hm hcomplete

end

/--
When every message 3 is processed behind a complete message 1, the secret is only released in the
session that the last message 1 with return value 0 has established.
-/
theorem inSession_of_guarded (lib : SampleCrypto) {s : SpState} {h : History}
    (hrun : Run (step lib) SpState.initial s h) (hguard : Always Guarded h)
    : Always InSession h := by
  have hinit : SessionStored SpState.initial [] := by
    intro m hm
    simp at hm
  have halways : Always InSession h ∧ SessionStored s h := by
    apply hrun.always hinit _ hguard
    intro s s' c r h hinv hstep hguard
    refine ⟨?_, hinv.next hstep⟩
    intro hrelease
    have huse := usesDb_of_releases hstep hrelease
    rcases hguard huse with ⟨m, hm, hcomplete⟩
    rcases hinv m hm hcomplete with ⟨hestablish, hsession⟩
    have hkeep := (step_of_not_reaches hstep (Request.not_reaches_of_uses huse)).1
    exact ⟨m, hestablish, hkeep.trans hsession⟩
  exact halways.1

def DeriveEnv.success : DeriveEnv where
  extract := .success
  malloc := true
  expand := .success
  left := .zero 16

def Msg1Env.success : Msg1Env where
  getSigrl := 0
  openContext := .success
  createKeyPair := .success
  keySeed := .ofNat 32 7
  computeSharedDhkey := .success
  deriveSmk := .success
  deriveMk := .success
  deriveSk := .success
  deriveVk := .success
  malloc := true
  sign := .success
  signSeed := .ofNat 32 2
  cmac := .success

def Msg3Env.success : Msg3Env where
  cmac := .success
  shaInit := .success
  shaUpdateGa := .success
  shaUpdateGb := .success
  shaUpdateVk := .success
  shaGetHash := .success
  verify := { openContext := .success, sign := .success, seed := .ofNat 32 2 }
  malloc := true
  cmacResult := .success
  gcmEncrypt := .success

/-!
One honest run. The client's private key is 5, the one of the service provider 7, and both
signatures are made with the nonce 2.
-/

def honestGA : Bytes 64 :=
  .append (.ofNat 32 0xed33d0c30d4a552124e55b1ffd828cefdf8f660856c884d7d24051517a0b5951)
    (.ofNat 32 0xa46da1fd44bbd0d18808d8d4002f010d26798abf36bfe18a7d724a90a87dc1e0)

def honestGB : Bytes 64 :=
  .append (.ofNat 32 0xa3b28731702806305bef0fa8b8f8f97e60fb017c6630bb25467bbfa06f3b538e)
    (.ofNat 32 0xb400f4c1861a5ec5211b04cb3336c7530090f5a6839f066d361833e0bd1deb73)

def honestDhKey : Bytes 32 :=
  .ofNat 32 0x1a29bb3390382da10097af92fee1e894ca486c32d73afa8f167dd29e584a8dd5

def honestKeyDeriveKey : Bytes 16 := .ofNat 16 0x14ebfd24a98fe7f11899e0fcdb80e502

def honestSession : Session where
  gA := honestGA
  gB := honestGB
  smkKey := .ofNat 16 0xff6dfa7d38adb12c6ca82d7e58ed4f1d
  skKey := .ofNat 16 0xc1d5c18b31e1213e2dff6e38292929b4
  mkKey := .ofNat 16 0xb08fee6746685fac6ba8cb3c24a02f6c
  vkKey := .ofNat 16 0x2162889b96343b992e6c1ac2c5b6d065

def honestLib : SampleCrypto where
  rijndael128Cmac key data :=
    if key = .zero 16 ∧ data = honestDhKey.val then
      honestKeyDeriveKey
    else if key = honestKeyDeriveKey ∧ data = derivationBuffer .smk then
      honestSession.smkKey
    else if key = honestKeyDeriveKey ∧ data = derivationBuffer .sk then
      honestSession.skKey
    else if key = honestKeyDeriveKey ∧ data = derivationBuffer .mk then
      honestSession.mkKey
    else if key = honestKeyDeriveKey ∧ data = derivationBuffer .vk then
      honestSession.vkKey
    else if key = honestSession.smkKey ∧ data.length = 148 then
      -- message 2
      .ofNat 16 0x44f6c94ead192fe5837521662cafe96f
    else if key = honestSession.smkKey ∧ data.length = 752 then
      -- message 3
      .ofNat 16 0xc367a77af4166897f8445403233e9733
    else
      -- the platform info blob
      .ofNat 16 0x80bd154c5caef632c51355fc76df6b7f
  rijndael128GcmEncrypt _ _ _ :=
    ((Bytes.ofNat 8 0xe913153ee1f85eb1).val, .ofNat 16 0x82dfd17e5e96c1740b7f1b8138f569d7)
  sha256 _ := .ofNat 32 0xb72818b08fd305c469e1a110be9d87fb30e634d8b8fc04d8d96e44b678dcca22
  ecc256CreateKeyPair seed := (seed.reverse, honestGB)
  ecc256ComputeSharedDhkey _ _ := honestDhKey
  ecdsaSign data _ _ :=
    (.ofNat 32 0x78996647fc480ba6351bf277e26989c0c31ab5040338528a7e4f038d187bf27c,
      if data.length = 33 then
        .ofNat 32 0x655a32e21888a153f2203a4601685824b35ab720597369592332b4b3db99ab32
      else
        .ofNat 32 0xa46f2331c2309c722e6512e470005ea7026c21ed4932cef2a2f0ef95c22ac3cf)

def honestRequests : List Request := [
  .msg0 { enroll := 0 } (some [0, 0, 0, 0]) 4,
  .msg1 Msg1Env.success (some (honestGA.val ++ [0, 0, 0, 0])) 68 true,
  .msg3 Msg3Env.success (some (msg3For honestLib honestSession)) 768 true
]

theorem inSession_of_guarded_honest
    : ∃ s h, Run (step honestLib) SpState.initial s h ∧ s.session = honestSession
        ∧ h.map releases = [true, false, false] ∧ Always InSession h := by
  have hany : (exec (step honestLib) SpState.initial [] honestRequests).toOption.any (fun x =>
      x.1.session = honestSession ∧ x.2.map releases = [true, false, false] ∧ Always Guarded x.2)
        = true := by
    decide +kernel
  cases hexec : exec (step honestLib) SpState.initial [] honestRequests with
  | error fault =>
    rw [hexec] at hany
    simp [Except.toOption] at hany
  | ok x =>
    rw [hexec] at hany
    rcases of_decide_eq_true hany with ⟨hsession, hreleases, hguard⟩
    have hrun := Run.exec .nil hexec
    exact ⟨x.1, x.2, hrun, hsession, hreleases, inSession_of_guarded honestLib hrun hguard⟩

def SpState.registered : SpState :=
  { initial with gSpExtendedEpidGroupId := some 0, gIsSpRegistered := true, gSpid := gSimSpid }

theorem step_msg0 (lib : SampleCrypto)
    : step lib SpState.initial (.msg0 { enroll := 0 } (some [0, 0, 0, 0]) 4)
        =
      .ok ((0, .none), SpState.registered) := rfl

theorem not_releasesInSession : ¬ ∃ lib, ReleasesInSession lib := by
  rintro ⟨lib, hlib⟩
  -- Behind message 0 all keys are zero, which is enough to compose a message 3.
  rcases @run_msg3_of_msg3For lib Msg3Env.success SpState.registered 0 rfl rfl rfl
    with ⟨response, s', hrun, _⟩
  have hstep : step lib SpState.registered
      (.msg3 Msg3Env.success (some (msg3For lib SpState.registered.session)) 768 true)
        = .ok ((0, .attResult response), s') :=
    finish_of_run _ hrun
  have halways := hlib _ _ (.cons (.cons .nil (step_msg0 lib)) hstep)
  rcases halways.1 rfl with ⟨m, hm, _⟩
  simp [establishes] at hm

end ServiceProvider
