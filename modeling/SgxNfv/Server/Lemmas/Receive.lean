import SgxNfv.Server.Lemmas.Calls
import SgxNfv.Server.Lemmas.Header

/-!
This module contains the verification of the receiving part of `handle_connection` against every
client: the packet processor is only given what was received, unless the declared length is one of
those that the conversions of C change.
-/

open C Processor

namespace Server

def received (net : List Recv) : List UInt8 := net.flatMap Recv.bytes

def firstBuff (net : List Recv) : List UInt8 :=
  let bytes := (recv net).1.getD []
  bytes ++ List.replicate (1000 - bytes.length) 0

def firstConn (net : List Recv) : Conn where
  recvSize := 1000
  recvOffset := 0
  totalReceived := match (recv net).1 with
    | some bytes => bytes.length
    | none => -1
  recvBuff := { id := 0, bytes := firstBuff net }
  reallocs := 0
  net := (recv net).2

theorem recv_eq_some {net net' : List Recv} {bytes : List UInt8} (h : recv net = (some bytes, net'))
    : ∃ taken, net = taken ++ net' ∧ received taken = bytes := by
  cases net with
  | nil =>
    simp only [recv, Prod.mk.injEq, Option.some.injEq] at h
    exact ⟨[], by rw [← h.2]; rfl, by rw [← h.1]; rfl⟩
  | cons r net =>
    cases r with
    | failed => simp [recv] at h
    | segment s =>
      simp only [recv, Prod.mk.injEq, Option.some.injEq] at h
      refine ⟨[.segment s], by rw [← h.2]; rfl, ?_⟩
      simpa [received, Recv.bytes] using h.1

theorem length_recv_le (net : List Recv) : ((recv net).1.getD []).length ≤ 1000 := by
  cases net with
  | nil => simp [recv]
  | cons r net =>
    cases r with
    | failed => simp [recv]
    | segment s => exact s.length_le

@[simp]
theorem length_firstBuff (net : List Recv) : (firstBuff net).length = 1000 := by
  have := length_recv_le net
  simp only [firstBuff, List.length_append, List.length_replicate]
  omega

theorem openConn_eq {alloc : Allocator} (hmalloc : alloc.malloc = true) (net : List Recv)
    : openConn alloc net
        =
      (parseHeader (firstBuff net)).map (Except.map fun header => (header, firstConn net)) := by
  have hstore : store (List.replicate 1000 0) 0 ((recv net).1.getD []) = .ok (firstBuff net) := by
    rw [store_zero]
    . rw [List.drop_replicate, firstBuff]
    . rw [List.length_replicate]
      exact length_recv_le net
  unfold openConn
  simp only [hmalloc, hstore, ↓reduceIte, Except.ok_bind]
  cases parseHeader (firstBuff net) with
  | error e => rfl
  | ok res =>
    cases res with
    | error reason => rfl
    | ok header => rfl

theorem Declares.exists_segment {net : List Recv} {d : Int} {n : Nat}
    (h : Declares (firstBuff net) d n)
    : ∃ c net', net = .segment c :: net' ∧ 15 + n ≤ c.bytes.length := by
  -- A header has no NUL, so that its last character is none of the zeros behind the first segment.
  have hlast : (firstBuff net)[14 + n]? = some 58 := by
    rcases h.data with ⟨rest, heq⟩
    have hget : ((firstBuff net).drop (9 + n))[5]? = some 58 := by
      rw [← heq]
      rfl
    rw [List.getElem?_drop] at hget
    rw [← hget]
    congr 1
    omega
  have hlt : 14 + n < ((recv net).1.getD []).length := by
    by_contra hge
    rw [firstBuff, List.getElem?_append_right (by omega)] at hlast
    rw [List.getElem?_replicate] at hlast
    split at hlast
    . simp at hlast
    . simp at hlast
  cases net with
  | nil => simp [recv] at hlt
  | cons r net =>
    cases r with
    | failed => simp [recv] at hlt
    | segment c =>
      simp only [recv, Option.getD_some] at hlt
      exact ⟨c, net, rfl, by omega⟩

section

variable {alloc : Allocator} {totalData : Int} {s s' : Conn}

theorem recvBody_next (h : recvBody alloc totalData s = .ok (.inl s'))
    : ∃ bytes, recv s.net = (some bytes, s'.net)
        ∧ s'.totalReceived = s.totalReceived + bytes.length := by
  unfold recvBody at h
  split at h
  . rcases Except.bind_eq_ok.mp h with ⟨recvSize, _, h⟩
    rcases Except.bind_eq_ok.mp h with ⟨recvOffset, _, h⟩
    split at h
    . simp at h
    . next block _ =>
      split at h
      . simp at h
      . next bytes net hrecv =>
        rcases Except.bind_eq_ok.mp h with ⟨mem, _, h⟩
        rcases Except.bind_eq_ok.mp h with ⟨total, htotal, h⟩
        simp only [Except.pure_eq_ok, Except.ok.injEq, Sum.inl.injEq] at h
        refine ⟨bytes, ?_, ?_⟩
        . rw [hrecv, ← h]
        . rw [← h]
          exact (addInt_eq_ok htotal).1
  . simp at h

theorem recvBody_exit (h : recvBody alloc totalData s = .ok (.inr (.ok s')))
    : s' = s ∧ totalData ≤ s.totalReceived := by
  unfold recvBody at h
  split at h
  . rcases Except.bind_eq_ok.mp h with ⟨recvSize, _, h⟩
    rcases Except.bind_eq_ok.mp h with ⟨recvOffset, _, h⟩
    split at h
    . simp at h
    . split at h
      . simp at h
      . rcases Except.bind_eq_ok.mp h with ⟨mem, _, h⟩
        rcases Except.bind_eq_ok.mp h with ⟨total, htotal, h⟩
        simp at h
  . next hge =>
    simp only [Except.pure_eq_ok, Except.ok.injEq, Sum.inr.injEq] at h
    exact ⟨h.symm, Int.not_lt.mp hge⟩

/--
`total_received` counts the bytes that were taken from the socket.
-/
def CountsReceived (net : List Recv) (s : Conn) : Prop :=
  ∃ taken, net = taken ++ s.net ∧ s.totalReceived = (received taken).length

theorem CountsReceived.next {net : List Recv} (hs : CountsReceived net s)
    (h : recvBody alloc totalData s = .ok (.inl s')) : CountsReceived net s' := by
  rcases hs with ⟨taken, hnet, htotal⟩
  rcases recvBody_next h with ⟨bytes, hrecv, htotal'⟩
  rcases recv_eq_some hrecv with ⟨more, hmore, hbytes⟩
  refine ⟨taken ++ more, ?_, ?_⟩
  . rw [hnet, hmore, List.append_assoc]
  . rw [htotal', htotal, ← hbytes]
    simp [received]

end

section

variable {alloc : Allocator} {net : List Recv} {fuel : Nat} {call : Call}

theorem receive_mono {fuel' : Nat} {res : Except Fault (Except Abort Call)} (hle : fuel ≤ fuel')
    (h : receive alloc fuel net = some res) : receive alloc fuel' net = some res := by
  unfold receive at h ⊢
  split
  . next hopen => simpa only [hopen] using h
  . next hopen => simpa only [hopen] using h
  . next header conn hopen =>
    simp only [hopen, Option.map_eq_some_iff] at h ⊢
    rcases h with ⟨res', hexec, hres⟩
    exact ⟨res', While.exec_mono hle hexec, hres⟩

theorem receive_unique {fuel' : Nat} {res res' : Except Fault (Except Abort Call)}
    (h : receive alloc fuel net = some res) (h' : receive alloc fuel' net = some res')
    : res = res' := by
  have hl := receive_mono (Nat.le_max_left fuel fuel') h
  have hr := receive_mono (Nat.le_max_right fuel fuel') h'
  rw [hl] at hr
  exact Option.some.inj hr

theorem receive_of_declares {d : Int} {n : Nat} (hmalloc : alloc.malloc = true)
    (h : Declares (firstBuff net) d n) (hsum : 15 + n + d ≤ longMax) (fuel : Nat)
    : receive alloc fuel net
        =
      (While.exec (recvBody alloc (toInt (15 + n + d))) fuel (firstConn net)).map
        (Except.map (Except.map fun conn => { header := .declared d n, conn })) := by
  have hlo := (strtol_eq_ok h.length).2.1
  simp only at hlo
  unfold receive
  rw [openConn_eq hmalloc, h.parseHeader_eq (length_firstBuff net), addLong_ok (by omega) hsum]
  rfl

theorem receive_of_not_declares (hmalloc : alloc.malloc = true)
    (h : ∀ d (n : Nat), 15 + n + d ≤ longMax → ¬ Declares (firstBuff net) d n) (fuel : Nat)
    : (∃ reason, HeaderEnds (firstBuff net) ∧ (∀ d n, ¬ Declares (firstBuff net) d n)
          ∧ receive alloc fuel net = some (.ok (.error reason)))
      ∨ ((HeaderEnds (firstBuff net) → ∃ d n, Declares (firstBuff net) d n ∧ longMax < 15 + n + d)
          ∧ ∃ e, receive alloc fuel net = some (.error e)) := by
  unfold receive
  rw [openConn_eq hmalloc]
  rcases parseHeader_cases (length_firstBuff net)
    with ⟨reason, hparse, hends, hno⟩ | ⟨hparse, hends⟩ | ⟨d, n, hd, hlong, hparse⟩
      | ⟨d, n, hd, hsum, _⟩
  . rw [hparse]
    exact .inl ⟨reason, hends, hno, rfl⟩
  . rw [hparse]
    exact .inr ⟨fun h => absurd h hends, _, rfl⟩
  . rw [hparse]
    exact .inr ⟨fun _ => ⟨d, n, hd, hlong⟩, _, rfl⟩
  . exact absurd hd (h d n hsum)

theorem receive_eq_call (hmalloc : alloc.malloc = true)
    (h : receive alloc fuel net = some (.ok (.ok call)))
    : ∃ d n, Declares (firstBuff net) d n ∧ call.header = .declared d n
        ∧ CountsReceived net call.conn ∧ toInt (15 + n + d) ≤ call.conn.totalReceived := by
  by_cases hdeclares : ∃ d, ∃ n : Nat, 15 + n + d ≤ longMax ∧ Declares (firstBuff net) d n
  . rcases hdeclares with ⟨d, n, hsum, hdeclares⟩
    rw [receive_of_declares hmalloc hdeclares hsum, Option.map_eq_some_iff] at h
    rcases h with ⟨res, hexec, hres⟩
    rcases hdeclares.exists_segment with ⟨c, net', rfl, _⟩
    have hfirst : CountsReceived (.segment c :: net') (firstConn (.segment c :: net')) := by
      refine ⟨[.segment c], rfl, ?_⟩
      simp [firstConn, recv, received, Recv.bytes]
    rcases While.Ends.invariant (CountsReceived _) (fun s s' hs => hs.next) hfirst ⟨fuel, hexec⟩
      with ⟨t, ht, ⟨r, hbody, rfl⟩ | ⟨e, _, rfl⟩⟩
    . cases r with
      | error reason => simp [Except.map] at hres
      | ok conn =>
        have hexit := recvBody_exit hbody
        simp only [Except.map, Except.ok.injEq] at hres
        rw [← hres, hexit.1]
        exact ⟨d, n, hdeclares, rfl, ht, hexit.2⟩
    . simp [Except.map] at hres
  . have hno : ∀ d (n : Nat), 15 + n + d ≤ longMax → ¬ Declares (firstBuff net) d n :=
      fun d n hsum hd => hdeclares ⟨d, n, hsum, hd⟩
    rcases receive_of_not_declares hmalloc hno fuel with ⟨_, _, _, hres⟩ | ⟨_, _, hres⟩
    . simp [hres] at h
    . simp [hres] at h

end

/--
The connection does not run into undefined behaviour while the header is read, and whenever the
packet processor is called the bytes that it is told to process have been taken from the socket.
-/
def ReadsReceived (kind : Kind) (e : Ecall) (sending : Send) (alloc : Allocator) (net : List Recv)
    : Prop :=
  (∃ res, openConn alloc net = .ok res)
  ∧ ∀ fuel, ∀ call ∈ (kind.handleConnection e sending alloc fuel net).calls,
      ∃ taken, net = taken ++ call.conn.net
        ∧ call.header.headerLen + call.length.toNat ≤ (received taken).length

theorem openConn_ok_iff {alloc : Allocator} (hmalloc : alloc.malloc = true) (net : List Recv)
    : (∃ res, openConn alloc net = .ok res)
        ↔
      HeaderEnds (firstBuff net) ∧ ∀ d n, Declares (firstBuff net) d n → 15 + n + d ≤ longMax := by
  rw [openConn_eq hmalloc]
  rcases parseHeader_cases (length_firstBuff net)
    with ⟨reason, hparse, hends, hno⟩ | ⟨hparse, hends⟩ | ⟨d, n, hd, hlong, hparse⟩
      | ⟨d, n, hd, hsum, hends, hparse⟩
  . rw [hparse]
    exact iff_of_true ⟨_, rfl⟩ ⟨hends, fun d n h => absurd h (hno d n)⟩
  . rw [hparse]
    exact iff_of_false (by simp [Except.map]) (fun h => hends h.1)
  . rw [hparse]
    exact iff_of_false (by simp [Except.map]) (fun h => Int.not_le.mpr hlong (h.2 d n hd))
  . rw [hparse]
    refine iff_of_true ⟨_, rfl⟩ ⟨hends, ?_⟩
    intro d' n' hd'
    rw [← (hd.unique hd').1, ← (hd.unique hd').2]
    exact hsum

theorem totalData_of_lt {d : Int} {n : Nat} (hn : n ≤ 1000)
    (hlarge : intMax < 15 + n + d % 4294967296)
    : toInt (15 + n + d) < 15 + n := by
  have := toInt_spec (15 + n + d)
  simp only [intMin, intMax] at *
  omega

theorem totalData_of_le {d : Int} {n : Nat} (hsmall : 15 + n + d % 4294967296 ≤ intMax)
    : toInt (15 + n + d) = 15 + n + d % 4294967296 := by
  have := toInt_spec (15 + n + d)
  simp only [intMin, intMax] at *
  omega

theorem receive_at_once {alloc : Allocator} {c : Segment} {net : List Recv} {d : Int} {n : Nat}
    (hmalloc : alloc.malloc = true) (h : Declares (firstBuff (.segment c :: net)) d n)
    (hsum : 15 + n + d ≤ longMax) (htotal : toInt (15 + n + d) ≤ c.bytes.length)
    : receive alloc 1 (.segment c :: net)
        =
      some (.ok (.ok { header := .declared d n, conn := firstConn (.segment c :: net) })) := by
  have hexit : recvBody alloc (toInt (15 + n + d)) (firstConn (.segment c :: net))
      = .ok (.inr (.ok (firstConn (.segment c :: net)))) := by
    unfold recvBody
    rw [if_neg]
    . rfl
    . exact Int.not_lt.mpr htotal
  rw [receive_of_declares hmalloc h hsum, While.exec_exit hexit]
  rfl

theorem handleConnection_readsReceived_iff (kind : Kind) (e : Ecall) (sending : Send)
    (alloc : Allocator) (net : List Recv) (hmalloc : alloc.malloc = true)
    : ReadsReceived kind e sending alloc net
        ↔
      HeaderEnds (firstBuff net)
      ∧ ∀ d n, Declares (firstBuff net) d n → 15 + n + d % 4294967296 ≤ intMax := by
  constructor
  . rintro ⟨hopen, hcalls⟩
    rw [openConn_ok_iff hmalloc] at hopen
    refine ⟨hopen.1, ?_⟩
    intro d n hdeclares
    by_contra hlarge
    rcases hdeclares.exists_segment with ⟨c, net', rfl, hheader⟩
    have hlen := c.length_le
    -- The sum of the lengths wraps around to less than the header, so that nothing is waited for.
    have htotal := @totalData_of_lt d n (by omega) (by omega)
    have hcall := receive_at_once hmalloc hdeclares (hopen.2 d n hdeclares) (by omega)
    rcases hcalls 1 _ (mem_calls_iff.mpr hcall) with ⟨taken, hnet, hle⟩
    have htaken : [.segment c] = taken := List.append_cancel_right hnet
    have hunsigned := toUnsigned_toNat d
    simp only [← htaken, received, Recv.bytes, Call.length, Header.declared, List.flatMap_cons,
      List.flatMap_nil, List.append_nil] at hle
    simp only [intMax] at hlarge
    omega
  . rintro ⟨hends, hsmall⟩
    constructor
    . rw [openConn_ok_iff hmalloc]
      refine ⟨hends, ?_⟩
      intro d n hdeclares
      have hd := (strtol_eq_ok hdeclares.length).2.2
      have hn := hdeclares.length_le
      have := hsmall d n hdeclares
      rw [length_firstBuff] at hn
      simp only [longMax, intMax] at *
      omega
    . intro fuel call hcall
      rcases receive_eq_call hmalloc (mem_calls_iff.mp hcall) with ⟨d, n, hdeclares, hheader, ⟨taken, hnet, hcount⟩, hle⟩
      have hunsigned := toUnsigned_toNat d
      rw [totalData_of_le (hsmall d n hdeclares), hcount] at hle
      refine ⟨taken, hnet, ?_⟩
      simp only [Call.length, hheader, Header.declared]
      omega

def shortRequest : Segment where
  bytes := ascii "data_len:5|data:"
  ne_nil := by decide
  length_le := by decide

def testyPayload : Segment where
  bytes := ascii "testy"
  ne_nil := by decide
  length_le := by decide

theorem declares_shortRequest (net : List Recv)
    : Declares (firstBuff (.segment shortRequest :: net)) 5 1 :=
  ⟨⟨_, rfl⟩, rfl, ⟨_, rfl⟩⟩

theorem handleConnection_readsReceived_iff_testy
    : ReadsReceived .sgx { status := sgxSuccess, slot := 0 } .all .inPlace
        [.segment shortRequest, .segment testyPayload] := by
  have hdeclares := declares_shortRequest [.segment testyPayload]
  apply (handleConnection_readsReceived_iff .sgx _ .all .inPlace _ rfl).mpr
  refine ⟨hdeclares.headerEnds, ?_⟩
  intro d n hdeclares'
  rcases hdeclares.unique hdeclares' with ⟨rfl, rfl⟩
  decide

def negativeRequest : Segment where
  bytes := ascii "data_len:-1|data:"
  ne_nil := by decide
  length_le := by decide

theorem not_readsReceived_negative
    : ¬ ReadsReceived .sgx { status := sgxSuccess, slot := 0 } .all .inPlace
        [.segment negativeRequest] := by
  rintro ⟨_, hcalls⟩
  have hdeclares : Declares (firstBuff [.segment negativeRequest]) (-1) 2 :=
    ⟨⟨_, rfl⟩, rfl, ⟨_, rfl⟩⟩
  have hcall := @receive_at_once .inPlace _ _ _ _ rfl hdeclares (by decide) (by decide)
  rcases hcalls 1 _ (mem_calls_iff.mpr hcall) with ⟨taken, hnet, hle⟩
  have htaken : [.segment negativeRequest] = taken := List.append_cancel_right hnet
  rw [← htaken] at hle
  exact absurd hle (by decide)

end Server
