import SgxNfv.ServiceProvider.Lemmas.Reachable

/-!
This module contains the verification of the service provider over all orders of the three messages:
what the answers to message 1 and message 3 depend on, whatever other calls come between.
-/

open C Frame Runs

namespace ServiceProvider

def Request.Carries (gA : Bytes 64) : Request → Prop
  | .msg1 _ (some message) _ _ => member message 0 64 = .ok gA
  | _ => False

/--
`gA` is that of the last message 1 that got to `g_sp_db`, or zero when no message 1 ever did.
-/
def IsLastGA (gA : Bytes 64) (h : History) : Prop :=
  (∃ m ∈ h.find? reaches, m.call.Carries gA) ∨ (h.find? reaches = none ∧ gA = .zero 64)

/--
The call is answered for a message 3 with the last `g_a` there was.
-/
def AnswersLast (e : Event SpState Request (Int × Reply)) (h : History) : Prop :=
  ∀ r, e.ret.2 = .attResult r →
    ∃ env message msg3Size ppAttResultMsg gA, e.call = .msg3 env (some message) msg3Size ppAttResultMsg
      ∧ member message 16 64 = .ok gA ∧ IsLastGA gA h

section

variable {lib : SampleCrypto} {s s' : SpState} {h : History} {c : Request} {r : Int × Reply}

theorem isLastGA_step (hs : Registration s) (hgA : IsLastGA s.gSpDb.gA h)
    (hstep : step lib s c = .ok (r, s'))
    : IsLastGA s'.gSpDb.gA (⟨s, c, r, s'⟩ :: h) := by
  cases hreach : c.reachesDb s with
  | false =>
    have hsession := (step_of_not_reaches hstep hreach).1
    have hkeep : s'.gSpDb.gA = s.gSpDb.gA := congrArg Session.gA hsession
    rw [IsLastGA, List.find?_cons_of_neg (by simp [reaches, hreach]), hkeep]
    exact hgA
  | true =>
    have hreaches : reaches ⟨s, c, r, s'⟩ = true := hreach
    rw [IsLastGA, List.find?_cons_of_pos hreaches]
    refine .inl ⟨_, rfl, ?_⟩
    cases c with
    | msg0 env pMsg0 msg0Size => simp [Request.reachesDb] at hreach
    | msg3 env pMsg3 msg3Size ppAttResultMsg => simp [Request.reachesDb] at hreach
    | msg1 env pMsg1 msg1Size ppMsg2 =>
      rcases reachesDb_eq_true.mp hreach with ⟨hsome, _, _, hreg, _⟩
      rcases Option.isSome_iff_exists.mp hsome with ⟨msg1, rfl⟩
      exact (registered_of_reaches (hs.registered hreg) hreach hstep).2

theorem attResult_of_step {response : Response AttResultMsg} (hstep : step lib s c = .ok (r, s'))
    (hret : r.2 = .attResult response)
    : ∃ env msg3 msg3Size ppAttResultMsg, c = .msg3 env (some msg3) msg3Size ppAttResultMsg
        ∧ (spRaProcMsg3Req lib env (some msg3) msg3Size ppAttResultMsg).run s = .ok response s' := by
  cases c with
  | msg0 env pMsg0 msg0Size =>
    rcases finish_eq_ok hstep with ⟨a, _, _, hr⟩ | ⟨_, hr⟩
    . simp [hr] at hret
    . simp [hr] at hret
  | msg1 env pMsg1 msg1Size ppMsg2 =>
    rcases finish_eq_ok hstep with ⟨a, _, _, hr⟩ | ⟨_, hr⟩
    . simp [hr] at hret
    . simp [hr] at hret
  | msg3 env pMsg3 msg3Size ppAttResultMsg =>
    rcases finish_eq_ok hstep with ⟨a, hrun, _, hr⟩ | ⟨_, hr⟩
    . rw [hr] at hret
      cases hret
      cases pMsg3 with
      | none => cases hrun
      | some msg3 => exact ⟨env, msg3, msg3Size, ppAttResultMsg, rfl, hrun⟩
    . simp [hr] at hret

theorem gA_of_run_msg3 {env : Msg3Env} {msg3 : List UInt8} {msg3Size : UInt32}
    {ppAttResultMsg : Bool} {r : Response AttResultMsg}
    (hrun : (spRaProcMsg3Req lib env (some msg3) msg3Size ppAttResultMsg).run s = .ok r s')
    : member msg3 16 64 = .ok s.gSpDb.gA := by
  unfold spRaProcMsg3Req at hrun
  simp only [run_stopIf_bind_eq_ok, run_read_bind_eq_ok, run_get_bind] at hrun
  rcases hrun with ⟨_, _, gA, hgA, hdb, _⟩
  rw [hgA, not_not.mp hdb]

end

/--
A secret only goes out for a message 3 with the `g_a` of the last message 1 that got to `g_sp_db`, however
the calls are ordered and wherever they fail. In front of the first such message 1 it goes out for zeros.
-/
theorem answersLast (lib : SampleCrypto) {s : SpState} {h : History}
    (hrun : Run (step lib) SpState.initial s h)
    : Always AnswersLast h := by
  have halways : Always AnswersLast h ∧ Registration s ∧ IsLastGA s.gSpDb.gA h := by
    apply hrun.always_of_invariant ⟨registration_initial, .inr ⟨rfl, rfl⟩⟩
    rintro s s' c r h ⟨hs, hgA⟩ hstep
    refine ⟨?_, hs.step hstep, isLastGA_step hs hgA hstep⟩
    rintro response hret
    rcases attResult_of_step hstep hret with ⟨env, msg3, msg3Size, ppAttResultMsg, rfl, hrun⟩
    exact ⟨env, msg3, msg3Size, ppAttResultMsg, _, rfl, gA_of_run_msg3 hrun, hgA⟩
  exact halways.1

theorem honestRun
    : ∃ s h, Run (step honestLib) SpState.initial s h ∧ h.map releases = [true, false, false] := by
  have hany : (exec (step honestLib) SpState.initial [] honestRequests).toOption.any (fun x =>
      x.2.map releases = [true, false, false]) = true := by
    decide +kernel
  cases hexec : exec (step honestLib) SpState.initial [] honestRequests with
  | error fault =>
    rw [hexec] at hany
    simp [Except.toOption] at hany
  | ok x =>
    rw [hexec] at hany
    exact ⟨x.1, x.2, Run.exec .nil hexec, of_decide_eq_true hany⟩

theorem answersLast_honest
    : ∃ s h, Run (step honestLib) SpState.initial s h ∧ h.map releases = [true, false, false]
        ∧ Always AnswersLast h := by
  rcases honestRun with ⟨s, h, hrun, hreleases⟩
  exact ⟨s, h, hrun, hreleases, answersLast honestLib hrun⟩

/--
The calls for message 1 that get to `g_sp_db` and complete: what they answer, and the session they
leave.
-/
structure Establishes (lib : SampleCrypto) (env : Msg1Env) (msg1 : List UInt8) (gA : Bytes 64)
    (e : Event SpState Request (Int × Reply)) : Prop where
  read : member msg1 0 64 = .ok gA
  ret : e.ret = (0, .msg2 (msg2For lib (established lib env gA) gSimSpid env.signSeed))
  session : e.after.session = established lib env gA

theorem establishes_of_complete {lib : SampleCrypto} {s s' : SpState} {env : Msg1Env}
    {msg1 : List UInt8} {msg1Size : UInt32} {ppMsg2 : Bool} {r : Int × Reply} (hs : Registered s)
    (hreach : (Request.msg1 env (some msg1) msg1Size ppMsg2).reachesDb s = true)
    (henv : env.complete = true)
    (hstep : step lib s (.msg1 env (some msg1) msg1Size ppMsg2) = .ok (r, s'))
    : ∃ gA, Establishes lib env msg1 gA ⟨s, .msg1 env (some msg1) msg1Size ppMsg2, r, s'⟩ := by
  rcases finish_of_reaches hs hreach hstep with ⟨gA, hgA, hfinish⟩
  have hdb : ({ s with gSpDb := { s.gSpDb with gA } } : SpState).gSpDb.gA = gA := rfl
  rcases run_msg1Rest_of_complete hdb henv with ⟨t, hrun⟩
  rw [finish_of_run _ hrun] at hfinish
  cases hfinish
  refine ⟨gA, hgA, ?_, (complete_of_run_msg1Rest hdb hrun).2.2⟩
  rw [← hs.spid]
  rfl

/--
Behind a complete message 1 the session that it has established stands in `g_sp_db`.
-/
def SessionOfLast (lib : SampleCrypto) (s : SpState) (h : History) : Prop :=
  ∀ m ∈ h.find? reaches, Registered s ∧ ∀ env msg1 msg1Size ppMsg2,
    m.call = .msg1 env (some msg1) msg1Size ppMsg2 → env.complete = true
    → ∃ gA, Establishes lib env msg1 gA m ∧ s.session = established lib env gA

theorem SessionOfLast.step {lib : SampleCrypto} {s s' : SpState} {h : History} {c : Request}
    {r : Int × Reply} (hs : Registration s) (hlast : SessionOfLast lib s h)
    (hstep : step lib s c = .ok (r, s'))
    : SessionOfLast lib s' (⟨s, c, r, s'⟩ :: h) := by
  intro m hm
  cases hreach : c.reachesDb s with
  | false =>
    rw [List.find?_cons_of_neg (by simp [reaches, hreach])] at hm
    rw [(step_of_not_reaches hstep hreach).1]
    rcases hlast m hm with ⟨hs, hsession⟩
    exact ⟨hs.step hstep, hsession⟩
  | true =>
    have hreaches : reaches ⟨s, c, r, s'⟩ = true := hreach
    rw [List.find?_cons_of_pos hreaches] at hm
    cases hm
    have hreg : s.gIsSpRegistered = true := by
      cases c with
      | msg0 env pMsg0 msg0Size => simp [Request.reachesDb] at hreach
      | msg3 env pMsg3 msg3Size ppAttResultMsg => simp [Request.reachesDb] at hreach
      | msg1 env pMsg1 msg1Size ppMsg2 => exact (reachesDb_eq_true.mp hreach).2.2.2.1
    have hs := hs.registered hreg
    refine ⟨hs.step hstep, ?_⟩
    rintro env msg1 msg1Size ppMsg2 rfl henv
    rcases establishes_of_complete hs hreach henv hstep with ⟨gA, hestablish⟩
    exact ⟨gA, hestablish, hestablish.session⟩

theorem established_of_last {lib : SampleCrypto} {s : SpState} {h : History}
    (hrun : Run (step lib) SpState.initial s h) {m : Event SpState Request (Int × Reply)}
    (hlast : h.find? reaches = some m) {env : Msg1Env} {msg1 : List UInt8} {msg1Size : UInt32}
    {ppMsg2 : Bool} (hcall : m.call = .msg1 env (some msg1) msg1Size ppMsg2)
    (henv : env.complete = true)
    : Registered s ∧ ∃ gA, Establishes lib env msg1 gA m ∧ s.session = established lib env gA := by
  have hinit : SessionOfLast lib SpState.initial [] := by
    intro m hm
    simp at hm
  have hinv : Always (fun _ _ => True) h ∧ Registration s ∧ SessionOfLast lib s h := by
    apply hrun.always_of_invariant ⟨registration_initial, hinit⟩
    rintro s s' c r h ⟨hs, hlast⟩ hstep
    exact ⟨trivial, hs.step hstep, hlast.step hs hstep⟩
  rcases hinv.2.2 m hlast with ⟨hs, hsession⟩
  exact ⟨hs, hsession env msg1 msg1Size ppMsg2 hcall henv⟩

theorem step_attResult_iff {lib : SampleCrypto} {s : SpState} (hs : Registered s) {env : Msg3Env}
    {msg3 : List UInt8} {msg3Size : UInt32} {ppAttResultMsg : Bool}
    (hlen : msg3.length = msg3Size.toNat) {response : Response AttResultMsg}
    : (∃ s', step lib s (.msg3 env (some msg3) msg3Size ppAttResultMsg)
          = .ok ((0, .attResult response), s'))
        ↔
      ppAttResultMsg = true ∧ env.complete = true ∧ s.session.Accepts lib msg3
        ∧ response = attResult lib s.session env.verify.seed := by
  constructor
  . rintro ⟨s', hstep⟩
    rcases attResult_of_step hstep rfl with ⟨_, _, _, _, hcall, hrun⟩
    cases hcall
    rcases accepted_of_run_msg3 hlen hrun with ⟨haccept, hret⟩
    exact ⟨haccept.ppAttResultMsg, haccept.env, haccept.session, hret⟩
  . rintro ⟨hpp, henv, haccept, rfl⟩
    rcases run_msg3_of_accepted hlen ⟨hpp, hs.registered, ⟨0, hs.group⟩, henv, haccept⟩
      with ⟨s', hrun⟩
    exact ⟨s', finish_of_run _ hrun⟩

/--
Behind a complete message 1, whatever calls have come since that did not get to `g_sp_db`: a message
3 is answered when it fits the session of that message 1, and the answer depends on it alone.
-/
theorem attResult_iff_of_established (lib : SampleCrypto) {s : SpState} {h : History}
    (hrun : Run (step lib) SpState.initial s h) {m : Event SpState Request (Int × Reply)}
    (hlast : h.find? reaches = some m) {env : Msg1Env} {msg1 : List UInt8} {msg1Size : UInt32}
    {ppMsg2 : Bool} (hcall : m.call = .msg1 env (some msg1) msg1Size ppMsg2)
    (henv : env.complete = true)
    : ∃ gA, Establishes lib env msg1 gA m ∧ ∀ (env3 : Msg3Env) msg3 (msg3Size : UInt32) ppAttResultMsg,
        msg3.length = msg3Size.toNat → ∀ response,
          (∃ s', step lib s (.msg3 env3 (some msg3) msg3Size ppAttResultMsg)
            = .ok ((0, .attResult response), s'))
            ↔
          ppAttResultMsg = true ∧ env3.complete = true
            ∧ (established lib env gA).Accepts lib msg3
            ∧ response = attResult lib (established lib env gA) env3.verify.seed := by
  rcases established_of_last hrun hlast hcall henv with ⟨hs, gA, hestablish, hsession⟩
  refine ⟨gA, hestablish, ?_⟩
  intro env3 msg3 msg3Size ppAttResultMsg hlen response
  rw [← hsession]
  exact step_attResult_iff hs hlen

theorem accepts_msg3For (lib : SampleCrypto) (session : Session)
    : session.Accepts lib (msg3For lib session) := by
  refine ⟨msg3For_gA lib session, ?_, msg3For_reportData lib session⟩
  rw [msg3For_mac, msg3For, List.drop_left' (Bytes.length_val _)]

def honestMsg1 : List UInt8 := honestGA.val ++ [0, 0, 0, 0]

theorem member_honestMsg1 : member honestMsg1 0 64 = .ok honestGA := by
  unfold honestMsg1
  rw [← List.nil_append honestGA.val]
  apply member_append
  rfl

theorem step_msg1_of_complete (lib : SampleCrypto) {s : SpState} {env : Msg1Env}
    {msg1 : List UInt8} {msg1Size : UInt32} {ppMsg2 : Bool} {gA : Bytes 64} (hs : Registered s)
    (hreach : (Request.msg1 env (some msg1) msg1Size ppMsg2).reachesDb s = true)
    (henv : env.complete = true) (hgA : member msg1 0 64 = .ok gA)
    : ∃ r s', step lib s (.msg1 env (some msg1) msg1Size ppMsg2) = .ok (r, s') := by
  rcases @run_msg1Rest_of_complete lib env gA { s with gSpDb := { s.gSpDb with gA } } rfl henv
    with ⟨s', hrest⟩
  have hrun : (spRaProcMsg1Req lib env (some msg1) msg1Size ppMsg2).run s
      = .ok (msg2For lib (established lib env gA) s.gSpid env.signSeed) s' := by
    rw [run_msg1_of_reaches lib hreach hs.group, run_read_bind_of_ok hgA, run_modifyDb_bind]
    exact hrest
  exact ⟨_, s', finish_of_run .msg2 hrun⟩

theorem established_honest : established honestLib Msg1Env.success honestGA = honestSession := by
  decide +kernel

theorem attResult_iff_of_established_honest
    : ∃ s h, Run (step honestLib) SpState.initial s h
        ∧ ∃ s', step honestLib s (.msg3 Msg3Env.success (some (msg3For honestLib honestSession)) 768 true)
          = .ok ((0, .attResult (attResult honestLib honestSession Msg3Env.success.verify.seed)), s') := by
  rcases @step_msg1_of_complete honestLib .registered .success honestMsg1 68 true honestGA
    ⟨rfl, rfl, rfl⟩ rfl (by decide) member_honestMsg1 with ⟨r, s, hstep⟩
  have hrun := Run.cons (.cons .nil (step_msg0 honestLib)) hstep
  refine ⟨s, _, hrun, ?_⟩
  rcases attResult_iff_of_established honestLib hrun rfl rfl (by decide) with ⟨gA, hestablish, hiff⟩
  have hgA := hestablish.read
  rw [member_honestMsg1] at hgA
  cases hgA
  rw [← established_honest]
  apply (hiff _ _ _ _ _ _).mpr
  . exact ⟨rfl, by decide, accepts_msg3For honestLib _, rfl⟩
  . rw [msg3For, List.length_append, Bytes.length_val, length_msg3Cmaced]
    rfl

end ServiceProvider
