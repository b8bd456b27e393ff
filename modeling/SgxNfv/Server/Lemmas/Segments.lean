import SgxNfv.Lib.Windows
import SgxNfv.Server.Lemmas.Receive

/-!
This module contains the exact course of the receive loop when the client sends a number of segments
and then closes the connection, or when the connection breaks behind them.
-/

open C Processor

namespace Server

def chunk (cs : List Segment) (i : Nat) : List UInt8 := (cs[i]?.map Segment.bytes).getD []

def stream (cs : List Segment) : List UInt8 := cs.flatMap Segment.bytes

def sent (cs : List Segment) (i : Nat) : List UInt8 := (cs.take i).flatMap Segment.bytes

/--
The `i`-th 1000 bytes of the buffer.
-/
def window (alloc : Allocator) (cs : List Segment) : Nat → List UInt8
  | 0 => chunk cs 0 ++ List.replicate (1000 - (chunk cs 0).length) 0
  | i + 1 =>
    chunk cs (i + 1)
      ++ ((List.range' (1000 * (i + 1)) 1000).map (alloc.fresh i)).drop (chunk cs (i + 1)).length

def buffAt (alloc : Allocator) (cs : List Segment) (i : Nat) : List UInt8 :=
  (List.range (i + 1)).flatMap (window alloc cs)

def moves (alloc : Allocator) : Nat → Nat
  | 0 => 0
  | i + 1 => moves alloc i + if alloc.realloc i = .moved then 1 else 0

/--
The state after `i` rounds of the receive loop.
-/
def connAt (alloc : Allocator) (cs : List Segment) (i : Nat) : Conn where
  recvSize := (1000 * (i + 1) : Nat)
  recvOffset := (1000 * i : Nat)
  totalReceived := (sent cs (i + 1)).length
  recvBuff := { id := moves alloc i, bytes := buffAt alloc cs i }
  reallocs := i
  net := (cs.drop (i + 1)).map .segment

section

variable {alloc : Allocator} {cs : List Segment} {totalData : Int} {i : Nat}

theorem length_chunk_le (cs : List Segment) (i : Nat) : (chunk cs i).length ≤ 1000 := by
  unfold chunk
  cases cs[i]? with
  | none => simp
  | some c => exact c.length_le

@[simp]
theorem length_window (alloc : Allocator) (cs : List Segment) (i : Nat)
    : (window alloc cs i).length = 1000 := by
  have := length_chunk_le cs i
  cases i with
  | zero =>
    simp only [window, List.length_append, List.length_replicate]
    omega
  | succ i =>
    simp only [window, List.length_append, List.length_drop, List.length_map, List.length_range']
    omega

theorem length_buffAt (alloc : Allocator) (cs : List Segment) (i : Nat)
    : (buffAt alloc cs i).length = 1000 * (i + 1) :=
  Windows.length_flatMap_range _ (length_window alloc cs) _

theorem buffAt_succ (alloc : Allocator) (cs : List Segment) (i : Nat)
    : buffAt alloc cs (i + 1) = buffAt alloc cs i ++ window alloc cs (i + 1) := by
  unfold buffAt
  rw [List.range_succ, List.flatMap_append, List.flatMap_singleton]

theorem sent_succ (cs : List Segment) (i : Nat) : sent cs (i + 1) = sent cs i ++ chunk cs i := by
  unfold sent chunk
  rw [List.take_add_one, List.flatMap_append]
  cases cs[i]? with
  | none => rfl
  | some c => simp

theorem length_sent_le (cs : List Segment) (i : Nat) : (sent cs i).length ≤ 1000 * i := by
  induction i with
  | zero => simp [sent]
  | succ i ih =>
    have := length_chunk_le cs i
    rw [sent_succ, List.length_append]
    omega

theorem recv_drop (cs : List Segment) (i : Nat)
    : recv ((cs.drop i).map .segment) = (some (chunk cs i), (cs.drop (i + 1)).map .segment) := by
  unfold chunk
  cases hc : cs[i]? with
  | none =>
    rw [List.getElem?_eq_none_iff] at hc
    rw [List.drop_eq_nil_of_le hc, List.drop_eq_nil_of_le (by omega)]
    rfl
  | some c =>
    rw [List.getElem?_eq_some_iff] at hc
    rcases hc with ⟨hi, rfl⟩
    rw [List.drop_eq_getElem_cons hi]
    rfl

theorem firstBuff_map (alloc : Allocator) (cs : List Segment)
    : firstBuff (cs.map .segment) = window alloc cs 0 := by
  have := recv_drop cs 0
  rw [List.drop_zero] at this
  rw [firstBuff, this]
  rfl

theorem firstConn_map (alloc : Allocator) (cs : List Segment)
    : firstConn (cs.map .segment) = connAt alloc cs 0 := by
  have hrecv := recv_drop cs 0
  rw [List.drop_zero] at hrecv
  have hsent : sent cs (0 + 1) = chunk cs 0 := by
    rw [sent_succ]
    simp [sent]
  simp [firstConn, connAt, hrecv, hsent, moves, buffAt, firstBuff_map alloc]

theorem resize_connAt (hrealloc : alloc.realloc i ≠ .null) (size : Int)
    (hsize : size = (1000 * (i + 2) : Nat))
    : alloc.resize i { id := moves alloc i, bytes := buffAt alloc cs i } size
        =
      some {
        id := moves alloc (i + 1),
        bytes := buffAt alloc cs i ++ (List.range' (1000 * (i + 1)) 1000).map (alloc.fresh i)
      } := by
  have hlen := length_buffAt alloc cs i
  have htake : (buffAt alloc cs i).take (1000 * (i + 2)) = buffAt alloc cs i := by
    rw [List.take_of_length_le]
    omega
  have hgrow : 1000 * (i + 2) - 1000 * (i + 1) = 1000 := by omega
  unfold Allocator.resize
  simp only [hsize, Int.toNat_natCast, htake, hlen, hgrow]
  cases h : alloc.realloc i with
  | null => exact absurd h hrealloc
  | inPlace => simp [moves, h]
  | moved => simp [moves, h]

theorem recvBody_connAt (hrealloc : alloc.realloc i ≠ .null)
    (hless : (sent cs (i + 1)).length < totalData) (hmax : (1000 * (i + 2) : Nat) ≤ intMax)
    : recvBody alloc totalData (connAt alloc cs i) = .ok (.inl (connAt alloc cs (i + 1))) := by
  have hchunk := length_chunk_le cs (i + 1)
  have hsent := length_sent_le cs (i + 1)
  have hsize : addInt (1000 * (i + 1) : Nat) 1000 = .ok ((1000 * (i + 2) : Nat) : Int) :=
    addInt_of_nonneg (by omega) (by omega) (by omega)
  have hoff : addInt (1000 * i : Nat) 1000 = .ok ((1000 * (i + 1) : Nat) : Int) :=
    addInt_of_nonneg (by omega) (by omega) (by omega)
  have hstore : store (buffAt alloc cs i ++ (List.range' (1000 * (i + 1)) 1000).map (alloc.fresh i))
      (1000 * (i + 1) : Nat) (chunk cs (i + 1)) = .ok (buffAt alloc cs (i + 1)) := by
    have := @store_append (buffAt alloc cs i)
      ((List.range' (1000 * (i + 1)) 1000).map (alloc.fresh i)) [] (chunk cs (i + 1))
      (1000 * (i + 1) : Nat) (by rw [length_buffAt]) (by simpa using hchunk)
    rw [List.append_nil, List.append_nil] at this
    rw [this, buffAt_succ]
    rfl
  have htotal : addInt (sent cs (i + 1)).length (chunk cs (i + 1)).length
      = .ok ((sent cs (i + 2)).length : Int) := by
    rw [addInt_natCast (by omega), sent_succ cs (i + 1), List.length_append]
  unfold recvBody
  rw [if_pos (by exact hless)]
  simp only [connAt, hsize, hoff, Except.ok_bind, resize_connAt hrealloc _ rfl, recv_drop, hstore,
    htotal, Except.pure_eq_ok]

theorem recvBody_connAt_exit (hge : totalData ≤ (sent cs (i + 1)).length)
    : recvBody alloc totalData (connAt alloc cs i) = .ok (.inr (.ok (connAt alloc cs i))) := by
  unfold recvBody
  rw [if_neg]
  . rfl
  . exact Int.not_lt.mpr hge

theorem recvBody_connAt_overflow (hless : (sent cs (i + 1)).length < totalData)
    (hmax : intMax < (1000 * (i + 2) : Nat))
    : recvBody alloc totalData (connAt alloc cs i) = .error .signedOverflow := by
  have hsize : addInt (1000 * (i + 1) : Nat) 1000 = .error .signedOverflow :=
    addInt_overflow (by omega)
  unfold recvBody
  rw [if_pos (by exact hless)]
  simp only [connAt, hsize, Except.error_bind]

theorem exec_connAt (hrealloc : ∀ i, alloc.realloc i ≠ .null)
    (hless : ∀ j < i, (sent cs (j + 1)).length < totalData)
    (hge : totalData ≤ (sent cs (i + 1)).length) (hmax : (1000 * (i + 1) : Nat) ≤ intMax)
    : While.exec (recvBody alloc totalData) (i + 1) (firstConn (cs.map .segment))
        =
      some (.ok (.ok (connAt alloc cs i))) := by
  rw [firstConn_map alloc, While.exec_chain (connAt alloc cs) i 1]
  . exact While.exec_exit (recvBody_connAt_exit hge) 0
  . intro j hj
    exact recvBody_connAt (hrealloc j) (hless j hj) (by omega)

theorem exec_connAt_overflow (hrealloc : ∀ i, alloc.realloc i ≠ .null)
    (hless : ∀ j ≤ i, (sent cs (j + 1)).length < totalData)
    (hlast : (1000 * (i + 1) : Nat) ≤ intMax) (hmax : intMax < (1000 * (i + 2) : Nat))
    : While.exec (recvBody alloc totalData) (i + 1) (firstConn (cs.map .segment))
        =
      some (.error .signedOverflow) := by
  rw [firstConn_map alloc, While.exec_chain (connAt alloc cs) i 1]
  . exact While.exec_fail (recvBody_connAt_overflow (hless i (le_refl i)) hmax) 0
  . intro j hj
    exact recvBody_connAt (hrealloc j) (hless j (by omega)) (by omega)

theorem sent_mono {i j : Nat} (h : i ≤ j) : (sent cs i).length ≤ (sent cs j).length := by
  induction h with
  | refl => exact le_refl _
  | step _ ih =>
    rw [sent_succ, List.length_append]
    omega

theorem receive_cases {d : Int} {n : Nat} (hmalloc : alloc.malloc = true)
    (hrealloc : ∀ i, alloc.realloc i ≠ .null)
    (h : Declares (firstBuff (cs.map .segment)) d n) (hsum : 15 + n + d ≤ longMax)
    : (∃ i, i ≤ 2147482 ∧ toInt (15 + n + d) ≤ (sent cs (i + 1)).length
        ∧ (∀ j < i, (sent cs (j + 1)).length < toInt (15 + n + d))
        ∧ receive alloc (i + 1) (cs.map .segment)
            = some (.ok (.ok { header := .declared d n, conn := connAt alloc cs i })))
      ∨ ((sent cs 2147483).length < toInt (15 + n + d)
        ∧ receive alloc 2147483 (cs.map .segment) = some (.error .signedOverflow)) := by
  -- The buffer can be extended 2147482 times before its size leaves the range of `int`.
  by_cases hless : (sent cs 2147483).length < toInt (15 + n + d)
  . refine .inr ⟨hless, ?_⟩
    rw [receive_of_declares hmalloc h hsum, exec_connAt_overflow hrealloc]
    . rfl
    . intro j hj
      have := @sent_mono cs (j + 1) 2147483 (by omega)
      omega
    . decide
    . decide
  . have hlast : toInt (15 + n + d) ≤ (sent cs (2147482 + 1)).length := Int.not_lt.mp hless
    have hfound : ∃ i, toInt (15 + n + d) ≤ (sent cs (i + 1)).length := ⟨2147482, hlast⟩
    have hle : Nat.find hfound ≤ 2147482 := Nat.find_le hlast
    have hless : ∀ j < Nat.find hfound, (sent cs (j + 1)).length < toInt (15 + n + d) :=
      fun j hj => Int.not_le.mp (Nat.find_min hfound hj)
    refine .inl ⟨Nat.find hfound, hle, Nat.find_spec hfound, hless, ?_⟩
    rw [receive_of_declares hmalloc h hsum, exec_connAt hrealloc]
    . rfl
    . exact hless
    . exact Nat.find_spec hfound
    . simp only [intMax]
      omega

end

section

variable {alloc : Allocator} {cs : List Segment} {rest : List Recv} {totalData : Int} {i : Nat}

theorem recv_append {net : List Recv} (hne : net ≠ []) (rest : List Recv)
    : recv (net ++ rest) = ((recv net).1, (recv net).2 ++ rest) := by
  cases net with
  | nil => exact absurd rfl hne
  | cons r net =>
    cases r with
    | segment s => rfl
    | failed => rfl

/--
A round takes one result from the socket. What comes behind it makes no difference.
-/
theorem recvBody_append {s s' : Conn} (hne : s.net ≠ [])
    (h : recvBody alloc totalData s = .ok (.inl s')) (rest : List Recv)
    : recvBody alloc totalData { s with net := s.net ++ rest }
        =
      .ok (.inl { s' with net := s'.net ++ rest }) := by
  unfold recvBody at h ⊢
  split at h
  . next hless =>
    rw [if_pos hless, recv_append hne]
    rcases Except.bind_eq_ok.mp h with ⟨recvSize, hsize, h⟩
    rcases Except.bind_eq_ok.mp h with ⟨recvOffset, hoffset, h⟩
    rw [hsize, Except.ok_bind, hoffset, Except.ok_bind]
    split at h
    . simp at h
    . next block hblock =>
      simp only [hblock]
      split at h
      . simp at h
      . next bytes net hrecv =>
        rcases Except.bind_eq_ok.mp h with ⟨mem, hmem, h⟩
        rcases Except.bind_eq_ok.mp h with ⟨total, htotal, h⟩
        simp only [Except.pure_eq_ok, Except.ok.injEq, Sum.inl.injEq] at h
        simp only [hrecv, hmem, htotal, Except.ok_bind, Except.pure_eq_ok, ← h]
  . simp at h

/--
The state after `i` rounds when the connection breaks behind the segments.
-/
def brokenAt (alloc : Allocator) (cs : List Segment) (rest : List Recv) (i : Nat) : Conn :=
  { connAt alloc cs i with net := (cs.drop (i + 1)).map .segment ++ .failed :: rest }

theorem firstConn_broken (hcs : cs ≠ [])
    : firstConn (cs.map .segment ++ .failed :: rest) = brokenAt alloc cs rest 0 := by
  have hne : cs.map Recv.segment ≠ [] := by simpa using hcs
  have hconn := firstConn_map alloc cs
  have hbuff : firstBuff (cs.map .segment ++ .failed :: rest) = firstBuff (cs.map .segment) := by
    rw [firstBuff, recv_append hne, firstBuff]
  rw [brokenAt, ← hconn, firstConn, recv_append hne, hbuff]
  have hnet := congrArg Conn.net hconn
  simp only [connAt, firstConn] at hnet
  rw [hnet]
  rfl

theorem recvBody_brokenAt (hrealloc : alloc.realloc i ≠ .null)
    (hless : (sent cs (i + 1)).length < totalData) (hmax : (1000 * (i + 2) : Nat) ≤ intMax)
    (hi : i + 1 < cs.length)
    : recvBody alloc totalData (brokenAt alloc cs rest i)
        =
      .ok (.inl (brokenAt alloc cs rest (i + 1))) := by
  have hne : (connAt alloc cs i).net ≠ [] := by
    simpa [connAt] using hi
  exact recvBody_append hne (recvBody_connAt hrealloc hless hmax) (.failed :: rest)

theorem recvBody_brokenAt_last (hrealloc : alloc.realloc i ≠ .null)
    (hless : (sent cs (i + 1)).length < totalData) (hmax : (1000 * (i + 2) : Nat) ≤ intMax)
    (hi : cs.length ≤ i + 1)
    : recvBody alloc totalData (brokenAt alloc cs rest i) = .ok (.inr (.error .recvFailed)) := by
  have hsize : addInt (1000 * (i + 1) : Nat) 1000 = .ok ((1000 * (i + 2) : Nat) : Int) :=
    addInt_of_nonneg (by omega) (by omega) (by omega)
  have hoff : addInt (1000 * i : Nat) 1000 = .ok ((1000 * (i + 1) : Nat) : Int) :=
    addInt_of_nonneg (by omega) (by omega) (by omega)
  have hdrop : cs.drop (i + 1) = [] := List.drop_eq_nil_of_le hi
  unfold recvBody
  rw [if_pos (by exact hless)]
  simp only [brokenAt, connAt, hsize, hoff, Except.ok_bind, resize_connAt hrealloc _ rfl, hdrop,
    List.map_nil, List.nil_append, recv, Except.pure_eq_ok]

theorem sent_prefix_stream (cs : List Segment) (i : Nat) : sent cs i <+: stream cs := by
  rw [stream, ← List.take_append_drop i cs, List.flatMap_append, List.take_append_drop]
  exact List.prefix_append _ _

/--
The connection breaks before the declared bytes have come.
-/
theorem receive_broken {d : Int} {n : Nat} (hmalloc : alloc.malloc = true)
    (hrealloc : ∀ i, alloc.realloc i ≠ .null)
    (h : Declares (firstBuff (cs.map .segment ++ .failed :: rest)) d n)
    (hless : (stream cs).length < 15 + n + d) (hmax : 15 + n + d ≤ intMax)
    (hsize : (1000 * (cs.length + 1) : Nat) ≤ intMax)
    : receive alloc cs.length (cs.map .segment ++ .failed :: rest)
        =
      some (.ok (.error .recvFailed)) := by
  have htotal : toInt (15 + n + d) = 15 + n + d := toInt_of_nonneg (by omega) hmax
  have hsent : ∀ i, (sent cs i).length < toInt (15 + n + d) := by
    intro i
    have := (sent_prefix_stream cs i).length_le
    omega
  have hcs : cs ≠ [] := by
    rintro rfl
    rcases h.exists_segment with ⟨c, net', hnet, _⟩
    simp at hnet
  obtain ⟨last, hlast⟩ : ∃ last, cs.length = last + 1 :=
    Nat.exists_eq_succ_of_ne_zero (by simpa using hcs)
  have hbreaks := @recvBody_brokenAt_last alloc cs rest _ last (hrealloc last) (hsent _) (by omega)
    (by omega)
  rw [receive_of_declares hmalloc h (by simp only [intMax, longMax] at *; omega),
    @firstConn_broken alloc cs rest hcs, hlast,
    While.exec_chain (brokenAt alloc cs rest) last 1]
  . rw [While.exec_exit hbreaks]
    rfl
  . intro j hj
    exact recvBody_brokenAt (hrealloc j) (hsent _) (by omega) (by omega)

/--
The client closes the connection before it has sent the declared bytes.
-/
theorem receive_closed {d : Int} {n : Nat} (hmalloc : alloc.malloc = true)
    (hrealloc : ∀ i, alloc.realloc i ≠ .null) (h : Declares (firstBuff (cs.map .segment)) d n)
    (hless : (stream cs).length < 15 + n + d) (hmax : 15 + n + d ≤ intMax)
    : receive alloc 2147483 (cs.map .segment) = some (.error .signedOverflow) := by
  have htotal : toInt (15 + n + d) = 15 + n + d := toInt_of_nonneg (by omega) hmax
  rcases receive_cases hmalloc hrealloc h (by simp only [intMax, longMax] at *; omega)
    with ⟨i, _, hge, _⟩ | ⟨_, hreceive⟩
  . have := (sent_prefix_stream cs (i + 1)).length_le
    omega
  . exact hreceive

end

/--
After the client has closed the connection the server comes to an end, all of whose `int` variables
are in range, and the packet processor is called only when the declared bytes have been taken from
the socket.
-/
def EndsAfterClose (kind : Kind) (e : Ecall) (sending : Send) (alloc : Allocator)
    (cs : List Segment) : Prop :=
  (∃ fuel res, receive alloc fuel (cs.map .segment) = some (.ok res))
  ∧ ∀ fuel, ∀ call ∈ (kind.handleConnection e sending alloc fuel (cs.map .segment)).calls,
      ∃ taken, cs.map .segment = taken ++ call.conn.net
        ∧ call.header.headerLen + call.header.dataLength ≤ (received taken).length

theorem handleConnection_endsAfterClose_iff (kind : Kind) (e : Ecall) (sending : Send)
    (alloc : Allocator) (cs : List Segment) (hmalloc : alloc.malloc = true)
    (hrealloc : ∀ i, alloc.realloc i ≠ .null)
    : EndsAfterClose kind e sending alloc cs
        ↔
      HeaderEnds (firstBuff (cs.map .segment))
      ∧ ∀ d n, Declares (firstBuff (cs.map .segment)) d n →
          15 + n + d ≤ intMax ∧ toInt (15 + n + d) ≤ (sent cs 2147483).length := by
  by_cases hdeclares : ∃ d, ∃ n : Nat, 15 + n + d ≤ longMax
      ∧ Declares (firstBuff (cs.map .segment)) d n
  . rcases hdeclares with ⟨d, n, hsum, hdeclares⟩
    rcases receive_cases hmalloc hrealloc hdeclares hsum
      with ⟨i, hi, hge, _, hreceive⟩ | ⟨hless, hreceive⟩
    . rcases receive_eq_call hmalloc hreceive with ⟨_, _, _, _, ⟨taken, hnet, hcount⟩, _⟩
      simp only [connAt] at hcount
      have hsent := length_sent_le cs (i + 1)
      constructor
      . rintro ⟨_, hcalls⟩
        rcases hcalls _ _ (mem_calls_iff.mpr hreceive) with ⟨taken', hnet', hle⟩
        have htaken : taken = taken' := List.append_cancel_right (hnet.symm.trans hnet')
        refine ⟨hdeclares.headerEnds, ?_⟩
        intro d' n' hdeclares'
        rcases hdeclares.unique hdeclares' with ⟨rfl, rfl⟩
        have hmono := @sent_mono cs (i + 1) 2147483 (by omega)
        simp only [Header.declared, ← htaken] at hle
        simp only [intMax]
        omega
      . rintro ⟨_, hall⟩
        refine ⟨⟨_, _, hreceive⟩, ?_⟩
        intro fuel call hcall
        have heq := Except.ok.inj (Except.ok.inj (receive_unique (mem_calls_iff.mp hcall) hreceive))
        rw [heq]
        refine ⟨taken, hnet, ?_⟩
        have hmax := (hall d n hdeclares).1
        have hconv := toInt_spec (15 + n + d)
        simp only [Header.declared, intMin, intMax] at *
        omega
    . apply iff_of_false
      . rintro ⟨⟨fuel, res, hres⟩, _⟩
        have := receive_unique hres hreceive
        simp at this
      . rintro ⟨_, hall⟩
        have := (hall d n hdeclares).2
        omega
  . have hno : ∀ d (n : Nat), 15 + n + d ≤ longMax → ¬ Declares (firstBuff (cs.map .segment)) d n :=
      fun d n hsum hd => hdeclares ⟨d, n, hsum, hd⟩
    rcases receive_of_not_declares hmalloc hno 0 with ⟨reason, hends, hnone, hres⟩ | ⟨hsome, e, hres⟩
    . apply iff_of_true
      . refine ⟨⟨0, _, hres⟩, ?_⟩
        intro fuel call hcall
        have := receive_unique (mem_calls_iff.mp hcall) hres
        simp at this
      . exact ⟨hends, fun d n hd => absurd hd (hnone d n)⟩
    . apply iff_of_false
      . rintro ⟨⟨fuel, res, hres'⟩, _⟩
        have := receive_unique hres hres'
        simp at this
      . rintro ⟨hends, hall⟩
        rcases hsome hends with ⟨d, n, hd, hlong⟩
        have := (hall d n hd).1
        simp only [intMax, longMax] at *
        omega

theorem handleConnection_endsAfterClose_iff_testy
    : EndsAfterClose .noSgx { status := sgxSuccess, slot := 0 } .all .inPlace
        [shortRequest, testyPayload] := by
  have hdeclares := declares_shortRequest [.segment testyPayload]
  apply (handleConnection_endsAfterClose_iff .noSgx _ .all .inPlace [shortRequest, testyPayload] rfl
    Allocator.inPlace_realloc).mpr
  refine ⟨hdeclares.headerEnds, ?_⟩
  intro d n hdeclares'
  rcases hdeclares.unique hdeclares' with ⟨rfl, rfl⟩
  exact ⟨by decide, by simp [sent]; decide⟩

theorem not_endsAfterClose_short
    : ¬ EndsAfterClose .noSgx { status := sgxSuccess, slot := 0 } .all .inPlace [shortRequest] := by
  rintro ⟨⟨fuel, res, hres⟩, _⟩
  rcases @receive_cases .inPlace [shortRequest] _ _ rfl Allocator.inPlace_realloc
    (declares_shortRequest []) (by decide) with ⟨i, _, hge, _⟩ | ⟨_, hover⟩
  . have hsent : sent [shortRequest] (i + 1) = shortRequest.bytes := by
      simp [sent]
    rw [hsent] at hge
    exact absurd hge (by decide)
  . have := receive_unique hres hover
    simp at this

end Server
