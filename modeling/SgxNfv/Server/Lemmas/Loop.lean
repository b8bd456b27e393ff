import SgxNfv.Server.Lemmas.Reply

/-!
This module contains the verification of `run_server`, the loop in which both servers take up one
connection behind the other.
-/

open C Processor

namespace Server

/--
What a round of the loop brings: a connection that is given up, one whose client stops in the middle of
its request, or a request for a payload with what `send` does to the reply.
-/
inductive Round where
  | givenUp
  | unfinished
  | request (p : List UInt8) (sending : Send)
  deriving DecidableEq

structure Grows (alloc : Allocator) : Prop where
  malloc : alloc.malloc = true
  realloc : ∀ i, alloc.realloc i ≠ .null

/--
A connection is given up without a buffer, without a complete header, or when it breaks in front of the
end of the request. A client that closes it there instead is not noticed.
-/
inductive Brings (v : Visit) : Round → Prop where
  | noBuffer (hmalloc : v.alloc.malloc = false) : Brings v .givenUp
  | noHeader (hmalloc : v.alloc.malloc = true) (hends : HeaderEnds (firstBuff v.accept.net))
      (hno : ∀ d n, ¬ Declares (firstBuff v.accept.net) d n) : Brings v .givenUp
  | broken {cs : List Segment} {rest : List Recv} {d : Int} {n : Nat}
      (haccept : v.accept = .connected (cs.map .segment ++ .failed :: rest)) (hgrows : Grows v.alloc)
      (hdeclares : Declares (firstBuff (cs.map .segment ++ .failed :: rest)) d n)
      (hless : (stream cs).length < 15 + n + d) (hmax : 15 + n + d ≤ intMax)
      (hsize : (1000 * (cs.length + 1) : Nat) ≤ intMax) : Brings v .givenUp
  | closed {cs : List Segment} {d : Int} {n : Nat} (haccept : v.accept = .connected (cs.map .segment))
      (hgrows : Grows v.alloc) (hdeclares : Declares (firstBuff (cs.map .segment)) d n)
      (hless : (stream cs).length < 15 + n + d) (hmax : 15 + n + d ≤ intMax) : Brings v .unfinished
  | request {cs : List Segment} {p : List UInt8} (haccept : v.accept = .connected (cs.map .segment))
      (hgrows : Grows v.alloc) (hsegments : Segments cs p) (hintact : Intact v.alloc.realloc cs)
      : Brings v (.request p v.sending)

namespace Kind

def runServer (kind : Kind) (startup : Startup) (fuel : Nat) (visits : List Visit)
    : Except StartFailure (List Outcome × Progress) :=
  match kind with
  | sgx => SGX.runServer startup fuel visits
  | noSgx => NoSGX.runServer startup fuel visits

/--
The number in the reply to a request for the payload `p`. The server in front of the enclave never says
anything but 0.
-/
def inReply (kind : Kind) (p : List UInt8) : Nat :=
  match kind with
  | sgx => 0
  | noSgx => p.count 0x0a

/--
The packet processor comes back from the payload.
-/
def ends (kind : Kind) (p : List UInt8) : Bool := kind = noSgx || 500 ≤ p.length

/--
The server comes back from the round.
-/
def returns (kind : Kind) : Round → Bool
  | .givenUp => true
  | .unfinished => false
  | .request p sending => kind.ends p && sending ≠ .brokenPipe

/--
What becomes of a round. The client of a request returns the number in the reply, if all of it is sent.
-/
def Answers (kind : Kind) : Round → Outcome → Prop
  | .givenUp, outcome => ∃ reason, outcome = .aborted reason
  | .unfinished, _ => False
  | .request p sending, outcome =>
    outcome = send (response (kind.inReply p)) sending
      ∧ ∀ net : Client.Network, net.Works → net.recv = some (response (kind.inReply p)) →
          Client.sendData net p (UInt32.ofNat p.length) = .ok (kind.inReply p)

def handles (kind : Kind) (fuel : Nat) (v : Visit) : Option (Except Fault Outcome) :=
  (kind.handleConnection v.ecall v.sending v.alloc fuel v.accept.net).outcome

end Kind

section

variable {kind : Kind} {slot : Int32} {sending : Send} {alloc : Allocator} {net : List Recv}
  {p : List UInt8} {call : Call} {cs : List Segment} {v : Visit} {visits : List Visit}

theorem Segments.received (h : Segments cs p) (hgrows : Grows alloc)
    (hintact : Intact alloc.realloc cs)
    : ∃ call, Received alloc (cs.map .segment) p call ∧ 0 < call.data.length := by
  rcases h.receive_cases hgrows.malloc hgrows.realloc with ⟨_, hreceive⟩ | ⟨hover, _⟩
  . refine ⟨_, ⟨⟨_, hreceive⟩, h.toNat_toUnsigned, ?_⟩, ?_⟩
    . rw [h.data_iff]
      exact ⟨hintact.stays, hintact.gapless.holdsStream⟩
    . have hmoves := moves_eq_zero_iff.mpr hintact.stays
      have hlen := length_buffAt alloc cs (cs.length - 1)
      have hprint := @length_printInt_le p.length (by simp only [intMin]; omega)
        (by
          have := h.fits
          rw [← h.stream_eq, h.stream_length] at this
          omega)
      rw [Call.data, Ptr.bytes_of_eq hmoves.symm, connAt, List.length_drop, hlen]
      simp only [Header.declared]
      omega
  . have := hintact.size
    omega

theorem Segments.length_le (h : Segments cs p) : p.length ≤ intMax := by
  have hfits := h.fits
  rw [← h.stream_eq, h.stream_length] at hfits
  omega

theorem Received.counts (h : Received alloc net p call) (hmax : p.length ≤ intMax)
    : ∃ fuel, Kind.noSgx.process (succeeding slot) fuel call.data call.length
        = some (.ok (p.count 0x0a)) := by
  have hle : p.length ≤ call.data.length := by
    have hlen := congrArg List.length h.data
    rw [List.length_take] at hlen
    omega
  have hcount := @processPacket_eq call.data call.length _ (by rw [h.length]; exact hle)
    (by rw [h.length]; exact hmax) (le_refl _)
  rw [h.length, h.data] at hcount
  exact ⟨_, hcount⟩

theorem Received.outcome_eq (h : Received alloc net p call) (hmax : p.length ≤ intMax)
    (hends : kind.ends p = true)
    : ∃ n, ∀ fuel, n ≤ fuel →
        (kind.handleConnection (succeeding slot) sending alloc fuel net).outcome
          = some (.ok (send (response (kind.inReply p)) sending)) := by
  cases kind with
  | noSgx =>
    rcases h.counts hmax with ⟨fuel, hvalue⟩
    rcases h.replies hvalue sending with ⟨n, hreply⟩
    exact ⟨n, fun fuel hle => congrArg Handling.outcome (hreply fuel hle)⟩
  | sgx =>
    have hmin : 500 ≤ p.length := by simpa [Kind.ends] using hends
    rcases h.process_eq hmin hmax .sgx slot with ⟨value, _, _, _, fuel, hvalue⟩
    rcases h.replies hvalue sending with ⟨n, hreply⟩
    exact ⟨n, fun fuel hle => congrArg Handling.outcome (hreply fuel hle)⟩

theorem Received.outcome_ne (h : Received alloc net p call) (hpos : 0 < call.data.length)
    (hends : kind.ends p = false) (fuel : Nat) (outcome : Outcome)
    : (kind.handleConnection (succeeding slot) sending alloc fuel net).outcome
        ≠ some (.ok outcome) := by
  simp only [Kind.ends, Bool.or_eq_false_iff, decide_eq_false_iff_not, Nat.not_le] at hends
  rcases hends with ⟨hkind, hshort⟩
  cases kind with
  | noSgx => exact absurd rfl hkind
  | sgx =>
    rcases h.receive with ⟨fuel', hreceive⟩
    intro hreplied
    rw [Kind.handleConnection_eq, serve] at hreplied
    cases hcall : Server.receive alloc fuel net with
    | none => simp [hcall] at hreplied
    | some res =>
      rw [hcall, receive_unique hcall hreceive] at hreplied
      simp only [Option.map_map, Option.map_eq_some_iff] at hreplied
      rcases hreplied with ⟨res, hvalue, hmap⟩
      rw [Kind.process_sgx] at hvalue
      cases res with
      | error e => simp [Except.map] at hmap
      | ok value => exact scan_short hpos (by rw [h.length]; exact hshort) fuel value hvalue

theorem handles_of_aborted {fuel : Nat} {reason : Abort}
    (h : receive v.alloc fuel v.accept.net = some (.ok (.error reason))) (kind : Kind)
    : kind.handles fuel v = some (.ok (.aborted reason)) := by
  rw [Kind.handles, Kind.handleConnection_eq, serve, h]

theorem Brings.givenUp (h : Brings v .givenUp)
    : ∃ n reason, ∀ fuel, n ≤ fuel → ∀ kind : Kind,
        kind.handles fuel v = some (.ok (.aborted reason)) := by
  cases h with
  | noBuffer hmalloc =>
    refine ⟨0, .mallocFailed, fun fuel _ => handles_of_aborted ?_⟩
    simp [receive, openConn, hmalloc]
  | noHeader hmalloc hends hno =>
    rcases receive_of_not_declares hmalloc (fun d n _ => hno d n) 0
      with ⟨reason, _, _, hreceive⟩ | ⟨hsome, _⟩
    . exact ⟨0, reason, fun fuel hle => handles_of_aborted (receive_mono hle hreceive)⟩
    . rcases hsome hends with ⟨d, n, hd, _⟩
      exact absurd hd (hno d n)
  | @broken cs rest d n haccept hgrows hdeclares hless hmax hsize =>
    refine ⟨cs.length, .recvFailed, fun fuel hle => handles_of_aborted ?_⟩
    rw [haccept]
    exact receive_mono hle (receive_broken hgrows.malloc hgrows.realloc hdeclares hless hmax hsize)

theorem Brings.unfinished (h : Brings v .unfinished)
    : ∃ n, ∀ fuel, n ≤ fuel → ∀ kind : Kind,
        kind.handles fuel v = some (.error .signedOverflow) := by
  cases h with
  | closed haccept hgrows hdeclares hless hmax =>
    refine ⟨2147483, fun fuel hle kind => ?_⟩
    have hreceive := receive_closed hgrows.malloc hgrows.realloc hdeclares hless hmax
    rw [Kind.handles, Kind.handleConnection_eq, serve, haccept, Accept.net,
      receive_mono hle hreceive]

theorem Brings.request_cases (h : Brings v (.request p sending)) (hok : v.ecall.status = sgxSuccess)
    (kind : Kind)
    : (kind.ends p = true ∧ ∃ n, ∀ fuel, n ≤ fuel →
          kind.handles fuel v = some (.ok (send (response (kind.inReply p)) sending)))
        ∨ (kind.ends p = false ∧ ∀ fuel outcome, kind.handles fuel v ≠ some (.ok outcome)) := by
  have hecall : v.ecall = succeeding v.ecall.slot := by
    rw [succeeding, ← hok]
  cases h with
  | request haccept hgrows hsegments hintact =>
    rcases hsegments.received hgrows hintact with ⟨call, hcall, hpos⟩
    unfold Kind.handles
    rw [hecall, haccept, Accept.net]
    cases hends : kind.ends p with
    | true => exact .inl ⟨rfl, hcall.outcome_eq hsegments.length_le hends⟩
    | false => exact .inr ⟨rfl, fun fuel outcome => hcall.outcome_ne hpos hends fuel outcome⟩

theorem Brings.length_le (h : Brings v (.request p sending)) : p.length ≤ intMax := by
  cases h with
  | request haccept hgrows hsegments hintact => exact hsegments.length_le

section

variable {handle : Visit → Option (Except Fault Outcome)} {outcome : Outcome}

theorem acceptLoop_of_returned (h : handle v = some (.ok outcome)) (hne : outcome ≠ .killed)
    (visits : List Visit)
    : acceptLoop handle (v :: visits)
        =
      (outcome :: (acceptLoop handle visits).1, (acceptLoop handle visits).2) := by
  rw [acceptLoop, h]
  cases outcome with
  | killed => exact absurd rfl hne
  | aborted reason => rfl
  | replied sent => rfl
  | notSent => rfl

theorem acceptLoop_of_not_returned (h : ∀ outcome, handle v = some (.ok outcome) → outcome = .killed)
    (visits : List Visit)
    : (acceptLoop handle (v :: visits)).1 = [] ∧ (acceptLoop handle (v :: visits)).2 ≠ .accepting := by
  unfold acceptLoop
  cases hv : handle v with
  | none => simp
  | some res =>
    cases res with
    | error fault => simp
    | ok outcome =>
      rw [h outcome hv]
      simp

end

theorem send_eq_killed_iff (response : List UInt8)
    : send response sending = .killed ↔ sending = .brokenPipe := by
  cases sending with
  | all => simp [send]
  | first count => simp [send]
  | failed => simp [send]
  | brokenPipe => simp [send]

theorem inReply_le (hmax : p.length ≤ intMax) (kind : Kind) : kind.inReply p ≤ intMax := by
  cases kind with
  | sgx => exact Int.zero_le_ofNat _
  | noSgx =>
    have := List.count_le_length (a := (0x0a : UInt8)) (l := p)
    simp only [Kind.inReply]
    omega

theorem clampLong_inReply (hmax : p.length ≤ intMax) (kind : Kind)
    : clampLong (kind.inReply p) = kind.inReply p :=
  clampLong_of_int (Int.le_trans (by decide) (Int.natCast_nonneg _)) (inReply_le hmax kind)

theorem answers_send (hmax : p.length ≤ intMax) (kind : Kind) (sending : Send)
    : kind.Answers (.request p sending) (send (response (kind.inReply p)) sending) :=
  ⟨rfl, fun _ hworks hrecv => sendData_whole hworks hrecv (inReply_le hmax kind) p _⟩

/--
Either the server comes back from the round and answers it, or it does not come back.
-/
theorem Brings.handles_cases {round : Round} (h : Brings v round) (hok : v.ecall.status = sgxSuccess)
    (kind : Kind)
    : (kind.returns round = true ∧ ∃ n outcome, outcome ≠ .killed ∧ kind.Answers round outcome
          ∧ ∀ fuel, n ≤ fuel → kind.handles fuel v = some (.ok outcome))
        ∨ (kind.returns round = false ∧ ∃ n, ∀ fuel, n ≤ fuel → ∀ outcome,
            kind.handles fuel v = some (.ok outcome) → outcome = .killed) := by
  cases round with
  | givenUp =>
    rcases h.givenUp with ⟨n, reason, hhandles⟩
    exact .inl ⟨rfl, n, .aborted reason, by simp, ⟨reason, rfl⟩, fun fuel hle => hhandles fuel hle kind⟩
  | unfinished =>
    rcases h.unfinished with ⟨n, hhandles⟩
    refine .inr ⟨rfl, n, fun fuel hle outcome houtcome => ?_⟩
    rw [hhandles fuel hle kind] at houtcome
    simp at houtcome
  | request p sending =>
    rcases h.request_cases hok kind with ⟨hends, n, hhandles⟩ | ⟨hends, hhandles⟩
    . by_cases hsend : sending = .brokenPipe
      . refine .inr ⟨by simp [Kind.returns, hsend], n, fun fuel hle outcome houtcome => ?_⟩
        rw [hhandles fuel hle, hsend] at houtcome
        simpa [send, eq_comm] using houtcome
      . refine .inl ⟨by simp [Kind.returns, hends, hsend], n, _, ?_,
          answers_send h.length_le kind sending, hhandles⟩
        rw [Ne, send_eq_killed_iff]
        exact hsend
    . refine .inr ⟨by simp [Kind.returns, hends], 0, fun fuel _ outcome houtcome => ?_⟩
      exact absurd houtcome (hhandles fuel outcome)

theorem acceptLoop_answers {rounds : List Round} (hbrings : List.Forall₂ Brings visits rounds)
    (hok : ∀ v ∈ visits, v.ecall.status = sgxSuccess) (kind : Kind)
    : ∃ n, ∀ fuel, n ≤ fuel →
        List.Forall₂ kind.Answers (rounds.takeWhile kind.returns)
          (acceptLoop (kind.handles fuel) visits).1
        ∧ ((acceptLoop (kind.handles fuel) visits).2 = .accepting
          ↔ ∀ round ∈ rounds, kind.returns round = true) := by
  induction hbrings with
  | nil => exact ⟨0, fun fuel _ => ⟨.nil, by simp [acceptLoop]⟩⟩
  | @cons v round visits rounds hv hvisits ih =>
    rcases ih fun v hv => hok v (List.mem_cons_of_mem _ hv) with ⟨n, ih⟩
    rcases hv.handles_cases (hok v List.mem_cons_self) kind
      with ⟨hreturns, m, outcome, hne, hanswers, hhandles⟩ | ⟨hreturns, m, hhandles⟩
    . refine ⟨max m n, fun fuel hle => ?_⟩
      rw [acceptLoop_of_returned (hhandles fuel (by omega)) hne, List.takeWhile_cons, if_pos hreturns,
        List.forall_mem_cons]
      rcases ih fuel (by omega) with ⟨hout, hprogress⟩
      exact ⟨.cons hanswers hout, by rw [hprogress, and_iff_right hreturns]⟩
    . refine ⟨m, fun fuel hle => ?_⟩
      rcases acceptLoop_of_not_returned (hhandles fuel hle) visits with ⟨hout, hprogress⟩
      rw [hout, List.takeWhile_cons, if_neg (by simp [hreturns]), List.forall_mem_cons, hreturns]
      exact ⟨.nil, by simpa using hprogress⟩

structure Startup.Listens (startup : Startup) : Prop where
  socket : 0 ≤ startup.socket
  bind : 0 ≤ startup.bind
  listen : 0 ≤ startup.listen

theorem runServer_eq (kind : Kind) {startup : Startup} (hstart : startup.Listens) (fuel : Nat)
    (visits : List Visit)
    : kind.runServer startup fuel visits = .ok (acceptLoop (kind.handles fuel) visits) := by
  have hloop : ∀ handle : Visit → Option (Except Fault Outcome),
      runServer handle startup visits = .ok (acceptLoop handle visits) := by
    intro handle
    unfold runServer
    rw [if_neg (Int.not_lt.mpr hstart.socket), if_neg (Int.not_lt.mpr hstart.bind),
      if_neg (Int.not_lt.mpr hstart.listen)]
  cases kind with
  | sgx => exact hloop _
  | noSgx => exact hloop _

end

/--
The connections are answered one behind the other, each as if it were the only one, up to the first that
the server does not come back from. Behind it no connection is taken up.
-/
theorem runServer_answers (kind : Kind) {startup : Startup} (hstart : startup.Listens)
    {visits : List Visit} {rounds : List Round}
    (henclave : ∀ v ∈ visits, v.ecall.status = sgxSuccess)
    (hbrings : List.Forall₂ Brings visits rounds)
    : ∃ n, ∀ fuel, n ≤ fuel → ∃ outcomes progress,
        kind.runServer startup fuel visits = .ok (outcomes, progress)
        ∧ List.Forall₂ kind.Answers (rounds.takeWhile kind.returns) outcomes
        ∧ (progress = .accepting ↔ ∀ round ∈ rounds, kind.returns round = true) := by
  rcases acceptLoop_answers hbrings henclave kind with ⟨n, hloop⟩
  exact ⟨n, fun fuel hle => ⟨_, _, runServer_eq kind hstart fuel visits, hloop fuel hle⟩⟩

def exampleVisit (accept : Accept) : Visit where
  accept := accept
  alloc := .inPlace
  ecall := succeeding 0
  sending := .all

def exampleVisits : List Visit := [
  exampleVisit .failed,
  exampleVisit (.connected ([newlinesRequest, newlinesPayload].map .segment)),
  exampleVisit (.connected ([shortRequest].map .segment))
]

theorem grows_inPlace : Grows .inPlace := ⟨rfl, Allocator.inPlace_realloc⟩

theorem brings_example
    : List.Forall₂ Brings exampleVisits [.givenUp, .request newlines .all, .unfinished] := by
  have hno : ¬ ascii "data_len:" <+: firstBuff (exampleVisit .failed).accept.net := by decide
  apply List.Forall₂.cons
  . exact .noHeader rfl (fun hp => absurd hp hno) fun d n hd => hno hd.dataLen
  . apply List.Forall₂.cons
    . exact .request rfl grows_inPlace segments_newlines intact_newlines
    . apply List.Forall₂.cons _ .nil
      exact .closed rfl grows_inPlace (declares_shortRequest []) (by decide) (by decide)

def exampleStartup : Startup := { socket := 3, bind := 0, listen := 0 }

theorem listens_example : exampleStartup.Listens := ⟨by decide, by decide, by decide⟩

theorem succeeds_example : ∀ v ∈ exampleVisits, v.ecall.status = sgxSuccess := by
  simp [exampleVisits, exampleVisit, succeeding]

theorem runServer_answers_example
    : ∃ fuel reason number progress, Kind.noSgx.runServer exampleStartup fuel exampleVisits
          = .ok ([.aborted reason, .replied (response number)], progress)
        ∧ progress ≠ .accepting := by
  rcases runServer_answers .noSgx listens_example succeeds_example brings_example with ⟨n, hrun⟩
  rcases hrun n (Nat.le_refl n) with ⟨outcomes, progress, heq, hanswers, haccepting⟩
  cases hanswers with
  | cons hfirst hanswers =>
    cases hanswers with
    | cons hsecond hanswers =>
      cases hanswers
      rcases hfirst with ⟨reason, rfl⟩
      rw [hsecond.1] at heq
      refine ⟨n, reason, _, progress, heq, ?_⟩
      rw [Ne, haccepting]
      intro hall
      have := hall .unfinished (by simp)
      simp [Kind.returns] at this

theorem inReply_eq_iff {p : List UInt8} (hmax : p.length ≤ intMax)
    : response (Kind.sgx.inReply p) = response (Kind.noSgx.inReply p) ↔ 0x0a ∉ p := by
  have hsgx : Kind.sgx.inReply p = 0 := rfl
  have hnoSgx : Kind.noSgx.inReply p = p.count 0x0a := rfl
  rw [← List.count_eq_zero, ← hnoSgx]
  constructor
  . intro h
    have := response_inj (clampLong_inReply hmax .sgx) (clampLong_inReply hmax .noSgx) h
    omega
  . intro h
    rw [hsgx, h]

theorem acceptLoop_agree_iff {visits : List Visit} {rounds : List Round}
    (hbrings : List.Forall₂ Brings visits rounds)
    (hok : ∀ v ∈ visits, v.ecall.status = sgxSuccess) (hsend : ∀ v ∈ visits, v.sending = .all)
    : ∃ n, ∀ fuel, n ≤ fuel →
        (acceptLoop (Kind.sgx.handles fuel) visits = acceptLoop (Kind.noSgx.handles fuel) visits
          ↔
        ∀ p, .request p .all ∈ rounds.takeWhile (· ≠ .unfinished) → 500 ≤ p.length ∧ 0x0a ∉ p) := by
  induction hbrings with
  | nil => exact ⟨0, fun fuel _ => by simp [acceptLoop]⟩
  | @cons v round visits rounds hv hvisits ih =>
    rcases ih (fun v hv => hok v (List.mem_cons_of_mem _ hv))
      fun v hv => hsend v (List.mem_cons_of_mem _ hv) with ⟨n, ih⟩
    cases round with
    | givenUp =>
      rcases hv.givenUp with ⟨m, reason, hhandles⟩
      refine ⟨max m n, fun fuel hle => ?_⟩
      have hhandles := hhandles fuel (by omega)
      rw [acceptLoop_of_returned (hhandles .sgx) (by simp),
        acceptLoop_of_returned (hhandles .noSgx) (by simp), List.takeWhile_cons, if_pos (by simp)]
      simpa [Prod.ext_iff] using ih fuel (by omega)
    | unfinished =>
      rcases hv.unfinished with ⟨m, hhandles⟩
      refine ⟨m, fun fuel hle => ?_⟩
      simp [acceptLoop, hhandles fuel hle]
    | request p sending =>
      obtain rfl : sending = .all := by
        cases hv with
        | request => exact hsend v List.mem_cons_self
      have hreplies := inReply_eq_iff hv.length_le
      rcases hv.request_cases (hok v List.mem_cons_self) .noSgx
        with ⟨_, m, hnoSgx⟩ | ⟨hends, _⟩
      . rcases hv.request_cases (hok v List.mem_cons_self) .sgx
          with ⟨hends, m', hsgx⟩ | ⟨hends, hsgx⟩
        . refine ⟨max n (max m m'), fun fuel hle => ?_⟩
          have hlong : 500 ≤ p.length := by simpa [Kind.ends] using hends
          have hrest := ih fuel (by omega)
          rw [acceptLoop_of_returned (hsgx fuel (by omega)) (by simp [send]),
            acceptLoop_of_returned (hnoSgx fuel (by omega)) (by simp [send]), List.takeWhile_cons,
            if_pos (by simp)]
          simp only [send, List.cons.injEq, Outcome.replied.injEq, hreplies, List.mem_cons,
            Round.request.injEq, and_true, forall_eq_or_imp, hlong, true_and, ← hrest, Prod.ext_iff,
            and_assoc]
        . refine ⟨m, fun fuel hle => iff_of_false ?_ ?_⟩
          . rw [acceptLoop_of_returned (hnoSgx fuel hle) (by simp [send])]
            have hstuck := (acceptLoop_of_not_returned
              (fun outcome houtcome => absurd houtcome (hsgx fuel outcome)) visits).1
            intro heq
            rw [heq] at hstuck
            simp at hstuck
          . intro hall
            have hlong := (hall p (by simp)).1
            simp [Kind.ends] at hends
            omega
      . simp [Kind.ends] at hends

/--
The server in front of the enclave says the same as the one without it when no payload holds a byte
0x0a, which it does not count, and none is shorter than 500 bytes. Behind a client that stops in the
middle of its request both say nothing more.
-/
theorem runServer_agree_iff {startup : Startup} (hstart : startup.Listens) {visits : List Visit}
    {rounds : List Round} (henclave : ∀ v ∈ visits, v.ecall.status = sgxSuccess)
    (hsend : ∀ v ∈ visits, v.sending = .all) (hbrings : List.Forall₂ Brings visits rounds)
    : ∃ n, ∀ fuel, n ≤ fuel →
        (Kind.sgx.runServer startup fuel visits = Kind.noSgx.runServer startup fuel visits
          ↔
        ∀ p, .request p .all ∈ rounds.takeWhile (· ≠ .unfinished) → 500 ≤ p.length ∧ 0x0a ∉ p) := by
  rcases acceptLoop_agree_iff hbrings henclave hsend with ⟨n, hloop⟩
  refine ⟨n, fun fuel hle => ?_⟩
  rw [runServer_eq .sgx hstart, runServer_eq .noSgx hstart, Except.ok.injEq]
  exact hloop fuel hle

theorem runServer_agree_iff_example
    : ∃ fuel, Kind.sgx.runServer exampleStartup fuel exampleVisits
        ≠ Kind.noSgx.runServer exampleStartup fuel exampleVisits := by
  rcases runServer_agree_iff listens_example succeeds_example (by simp [exampleVisits, exampleVisit])
    brings_example with ⟨n, hagree⟩
  refine ⟨n, fun heq => ?_⟩
  have hno := ((hagree n (Nat.le_refl n)).mp heq newlines (by simp)).2
  exact hno (List.mem_replicate.mpr ⟨by decide, rfl⟩)

end Server
