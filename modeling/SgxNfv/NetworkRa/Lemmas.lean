import SgxNfv.NetworkRa.Impl
import SgxNfv.Verifier.Lemmas

/-!
This module contains the verification of `ra_network_send_receive`: when its caller gets the whole
response of the server.
-/

open C Server
open Verifier (Frame)
open Client (afInet)

namespace NetworkRa

section

variable {mem mem' : List UInt8}

theorem responseHeader_take (mem : List UInt8) : responseHeader (mem.take 8) = responseHeader mem := by
  have htype := @member_take mem 0 1 8 (by omega)
  have hstatus := @member_take mem 1 2 8 (by omega)
  have hsize := @member_take mem 3 4 8 (by omega)
  have halign := @member_take mem 7 1 8 (by omega)
  unfold responseHeader
  rw [htype, hstatus, hsize, halign]

theorem responseHeader_of_le (h : 8 ≤ mem.length) : ∃ header, responseHeader mem = .ok header := by
  rcases @member_of_le mem 0 1 (by omega) with ⟨type, htype⟩
  rcases @member_of_le mem 1 2 (by omega) with ⟨status, hstatus⟩
  rcases @member_of_le mem 3 4 (by omega) with ⟨size, hsize⟩
  rcases @member_of_le mem 7 1 (by omega) with ⟨align, halign⟩
  unfold responseHeader
  rw [htype, hstatus, hsize, halign]
  exact ⟨_, rfl⟩

theorem responseHeader_of_lt (h : mem.length < 8) : ∃ e, responseHeader mem = .error e := by
  cases hres : responseHeader mem with
  | error e => exact ⟨e, rfl⟩
  | ok header =>
    have halign : member mem 7 1 = .error .outOfBounds := member_of_lt (by omega)
    simp [responseHeader, halign, Except.bind_eq_ok] at hres

end

section

variable (alloc : Allocator) (size : Int) (recvs : List Recv)

/--
The buffer behind the first `recv`, up to the size of the request.
-/
def firstBuffer : List UInt8 :=
  let bytes := (recv recvs).1.getD []
  bytes ++ (List.range' bytes.length (size.toNat - bytes.length)).map (alloc.fresh 0)

/--
The size of the response that the header in the first buffer declares.
-/
def declaredSize : Int :=
  match responseHeader (firstBuffer alloc size recvs) with
  | .error _ => 0
  | .ok header => toInt (header.size.toNat + sizeofResponseHeader)

/--
The `i`-th round fails with the return value -1: the buffer could not be allocated, or `recv` failed.
-/
structure RoundFails (i : Nat) : Prop where
  counted : (1000 * (i + 1) : Nat) ≤ intMax
  fails : size < 0 ∨ alloc.realloc i = .null ∨ recvs[i]? = some .failed

/--
The `i`-th round is followed by another one: bytes arrive and fit into the buffer behind the first
`1000 * i`, and the declared size is beyond those that were asked for.
-/
structure RoundGoesOn (i : Nat) : Prop where
  counted : (1000 * (i + 1) : Nat) ≤ intMax
  realloc : alloc.realloc i ≠ .null
  arrives : ∃ s, recvs[i]? = some (.segment s) ∧ (1000 * i + s.bytes.length : Nat) ≤ size
  header : 8 ≤ size
  waits : (1000 * (i + 1) : Nat) < declaredSize alloc size recvs

structure AtRound (i : Nat) (s : Conn) : Prop where
  receivedSize : s.receivedSize = (1000 * i : Nat)
  bufferOffset : s.bufferOffset = (1000 * i : Nat)
  reallocs : s.reallocs = i
  rest : s.recvs = recvs.drop i
  first : i = 0 → s.recvBuffer = none
  later : 0 < i → ∃ b, s.recvBuffer = some b ∧ b.bytes.length = size.toNat
    ∧ responseHeader b.bytes = responseHeader (firstBuffer alloc size recvs)

end

section

variable {alloc : Allocator} {size : Int} {recvs : List Recv} {i : Nat} {s : Conn}

theorem not_roundFails (hsize : ¬ size < 0) (hrealloc : alloc.realloc i ≠ .null)
    (hrecv : recvs[i]? ≠ some .failed) : ¬ RoundFails alloc size recvs i := by
  rintro ⟨_, hneg | hnull | hfailed⟩
  . exact hsize hneg
  . exact hrealloc hnull
  . exact hrecv hfailed

theorem realloc_eq_none (h : size < 0 ∨ alloc.realloc i = .null) (b : Option Block)
    : realloc alloc i b size = none := by
  unfold realloc
  split
  . rfl
  . next hsize => rw [Allocator.resize_of_null (h.resolve_left hsize)]

theorem AtRound.realloc (h : AtRound alloc size recvs i s) (hsize : 0 ≤ size)
    (hrealloc : alloc.realloc i ≠ .null)
    : ∃ block, realloc alloc i s.recvBuffer size = some block ∧ block.bytes.length = size.toNat
        ∧ (0 < i → responseHeader block.bytes = responseHeader (firstBuffer alloc size recvs))
        ∧ (i = 0 → block.bytes = (List.range' 0 size.toNat).map (alloc.fresh 0)) := by
  unfold NetworkRa.realloc
  rw [if_neg (Int.not_lt.mpr hsize)]
  rcases Allocator.resize_of_ne hrealloc (s.recvBuffer.getD { id := 0, bytes := [] }) size
    with ⟨block, hblock, hbytes⟩
  refine ⟨block, hblock, ?_⟩
  rcases Nat.eq_zero_or_pos i with rfl | hpos
  . rw [h.first rfl, Option.getD_none, List.take_nil, List.nil_append] at hbytes
    rw [hbytes]
    simp
  . rcases h.later hpos with ⟨b, hb, hlen, hheader⟩
    rw [hb, Option.getD_some, hlen, Nat.sub_self, List.range'_zero, List.map_nil, List.append_nil,
      ← hlen, List.take_length] at hbytes
    rw [hbytes]
    exact ⟨hlen, fun _ => hheader, fun hzero => absurd hzero (by omega)⟩

theorem recv_drop_eq (recvs : List Recv) (i : Nat)
    : recv (recvs.drop i)
        =
      match recvs[i]? with
      | none => (some [], [])
      | some .failed => (none, recvs.drop (i + 1))
      | some (.segment c) => (some c.bytes, recvs.drop (i + 1)) := by
  cases hget : recvs[i]? with
  | none =>
    rw [List.drop_eq_nil_of_le (List.getElem?_eq_none_iff.mp hget)]
    rfl
  | some r =>
    rcases List.getElem?_eq_some_iff.mp hget with ⟨hi, rfl⟩
    rw [List.drop_eq_getElem_cons hi]
    cases recvs[i] with
    | segment c => rfl
    | failed => rfl

/--
What a `recv` that fits leaves in the block: the header is the one of the first round.
-/
theorem store_header {block : Block} {received : List UInt8}
    (hlen : block.bytes.length = size.toNat)
    (hheader : 0 < i → responseHeader block.bytes = responseHeader (firstBuffer alloc size recvs))
    (hfirst : i = 0 → block.bytes = (List.range' 0 size.toNat).map (alloc.fresh 0))
    (hreceived : i = 0 → (recv recvs).1 = some received)
    (hfits : 1000 * i + received.length ≤ size.toNat)
    : ∃ bytes, store block.bytes (1000 * i : Nat) received = .ok bytes ∧ bytes.length = size.toNat
        ∧ responseHeader bytes = responseHeader (firstBuffer alloc size recvs) := by
  have hstore := @store_ok block.bytes received (1000 * i) (by omega)
  refine ⟨_, hstore, (length_store hstore).trans hlen, ?_⟩
  rcases Nat.eq_zero_or_pos i with rfl | hpos
  . rw [firstBuffer, hreceived rfl, hfirst rfl]
    simp [← List.map_drop, List.drop_range']
  . rw [← hheader hpos, ← responseHeader_take, ← responseHeader_take block.bytes]
    congr 1
    rw [List.append_assoc, List.take_append_of_le_length, List.take_take, Nat.min_eq_left (by omega)]
    rw [List.length_take]
    omega

theorem AtRound.counts (h : AtRound alloc size recvs i s)
    : addInt s.receivedSize 1000
        =
      if (1000 * (i + 1) : Nat) ≤ intMax then
        .ok (1000 * (i + 1) : Nat)
      else
        .error .signedOverflow := by
  rw [h.receivedSize]
  split
  . exact addInt_of_nonneg (by omega) (by omega) (by omega)
  . exact addInt_overflow (by omega)

/--
The round behind its `recv`.
-/
theorem AtRound.recvBody_eq (h : AtRound alloc size recvs i s)
    (hcounted : (1000 * (i + 1) : Nat) ≤ intMax) {block : Block}
    (hblock : NetworkRa.realloc alloc i s.recvBuffer size = some block) {received : List UInt8}
    {rest : List Recv} (hrecv : recv (recvs.drop i) = (some received, rest))
    : recvBody alloc size s
        =
      (do
        let bytes ← store block.bytes (1000 * i : Nat) received
        let header ← responseHeader bytes
        if toInt (header.size.toNat + sizeofResponseHeader) ≤ (1000 * (i + 1) : Nat) then
          return .inr (.ok { block with bytes })
        else if 0 < received.length then
          return .inl {
            receivedSize := (1000 * (i + 1) : Nat), bufferOffset := (1000 * (i + 1) : Nat),
            recvBuffer := some { block with bytes }, reallocs := i + 1, recvs := rest
          }
        else
          return .inr (.ok { block with bytes })) := by
  have hcounts := h.counts
  rw [if_pos hcounted] at hcounts
  have hoffset : addInt (1000 * i : Nat) 1000 = .ok ((1000 * (i + 1) : Nat) : Int) :=
    addInt_of_nonneg (by omega) (by omega) (by omega)
  unfold recvBody
  rw [hcounts, Except.ok_bind, h.reallocs, hblock, h.rest, h.bufferOffset]
  simp only [hrecv, hoffset, Except.ok_bind]

theorem declaredSize_eq {header : ResponseHeader}
    (h : responseHeader (firstBuffer alloc size recvs) = .ok header)
    : declaredSize alloc size recvs = toInt (header.size.toNat + sizeofResponseHeader) := by
  rw [declaredSize, h]

/--
The round leaves the loop with the return value 0, or is undefined.
-/
def RoundEnds (alloc : Allocator) (size : Int) (s : Conn) : Prop :=
  (∃ e, recvBody alloc size s = .error e) ∨ ∃ b, recvBody alloc size s = .ok (.inr (.ok b))

theorem AtRound.received (h : AtRound alloc size recvs i s)
    (hcounted : (1000 * (i + 1) : Nat) ≤ intMax) (hsize : 0 ≤ size)
    (hrealloc : alloc.realloc i ≠ .null) {received : List UInt8} {rest : List Recv}
    (hrecv : recv (recvs.drop i) = (some received, rest))
    : ((1000 * i + received.length : Nat) ≤ size ∧ 8 ≤ size
          ∧ (1000 * (i + 1) : Nat) < declaredSize alloc size recvs ∧ 0 < received.length
          ∧ ∃ b, recvBody alloc size s = .ok (.inl {
              receivedSize := (1000 * (i + 1) : Nat), bufferOffset := (1000 * (i + 1) : Nat),
              recvBuffer := some b, reallocs := i + 1, recvs := rest
            })
            ∧ b.bytes.length = size.toNat
            ∧ responseHeader b.bytes = responseHeader (firstBuffer alloc size recvs))
        ∨ (¬ ((1000 * i + received.length : Nat) ≤ size ∧ 8 ≤ size
            ∧ (1000 * (i + 1) : Nat) < declaredSize alloc size recvs ∧ 0 < received.length)
          ∧ RoundEnds alloc size s) := by
  rcases h.realloc hsize hrealloc with ⟨block, hblock, hlen, hheader, hfirst⟩
  have hbody := h.recvBody_eq hcounted hblock hrecv
  by_cases hfits : (1000 * i + received.length : Nat) ≤ size
  . have hreceived : i = 0 → (recv recvs).1 = some received := by
      rintro rfl
      rw [List.drop_zero] at hrecv
      rw [hrecv]
    rcases store_header hlen hheader hfirst hreceived (by omega) with ⟨bytes, hstore, hbytes, hsame⟩
    rw [hstore, Except.ok_bind] at hbody
    by_cases hlarge : 8 ≤ size
    . rcases @responseHeader_of_le bytes (by omega) with ⟨header, hread⟩
      have hdeclared := @declaredSize_eq alloc size recvs header (by rw [← hsame, hread])
      rw [hread, Except.ok_bind, ← hdeclared] at hbody
      by_cases hwaits : (1000 * (i + 1) : Nat) < declaredSize alloc size recvs
      . rw [if_neg (Int.not_le.mpr hwaits)] at hbody
        by_cases hpos : 0 < received.length
        . rw [if_pos hpos] at hbody
          exact .inl ⟨hfits, hlarge, hwaits, hpos, _, hbody, hbytes, hsame⟩
        . rw [if_neg hpos] at hbody
          exact .inr ⟨fun hall => hpos hall.2.2.2, .inr ⟨_, hbody⟩⟩
      . rw [if_pos (Int.not_lt.mp hwaits)] at hbody
        exact .inr ⟨fun hall => hwaits hall.2.2.1, .inr ⟨_, hbody⟩⟩
    . rcases @responseHeader_of_lt bytes (by omega) with ⟨e, hread⟩
      rw [hread] at hbody
      exact .inr ⟨fun hall => hlarge hall.2.1, .inl ⟨e, hbody⟩⟩
  . rw [store_eq_error (by omega)] at hbody
    exact .inr ⟨fun hall => hfits hall.1, .inl ⟨_, hbody⟩⟩

theorem AtRound.cases (h : AtRound alloc size recvs i s)
    : (RoundGoesOn alloc size recvs i
          ∧ ∃ s', recvBody alloc size s = .ok (.inl s') ∧ AtRound alloc size recvs (i + 1) s')
        ∨ (RoundFails alloc size recvs i
          ∧ ∃ failure, recvBody alloc size s = .ok (.inr (.error failure)))
        ∨ (¬ RoundGoesOn alloc size recvs i ∧ ¬ RoundFails alloc size recvs i
          ∧ RoundEnds alloc size s) := by
  have hcounts := h.counts
  by_cases hcounted : (1000 * (i + 1) : Nat) ≤ intMax
  . rw [if_pos hcounted] at hcounts
    by_cases hnone : size < 0 ∨ alloc.realloc i = .null
    . have hfails : recvBody alloc size s = .ok (.inr (.error .alloc)) := by
        unfold recvBody
        rw [hcounts, Except.ok_bind, h.reallocs, realloc_eq_none hnone]
        rfl
      refine .inr (.inl ⟨⟨hcounted, ?_⟩, _, hfails⟩)
      rcases hnone with hneg | hnull
      . exact .inl hneg
      . exact .inr (.inl hnull)
    . rw [not_or] at hnone
      have hsize : 0 ≤ size := Int.not_lt.mp hnone.1
      have hrecv := recv_drop_eq recvs i
      cases hget : recvs[i]? with
      | none =>
        rw [hget] at hrecv
        rcases h.received hcounted hsize hnone.2 hrecv with ⟨_, _, _, hpos, _⟩ | ⟨_, hends⟩
        . simp at hpos
        . refine .inr (.inr ⟨?_, ?_, hends⟩)
          . intro hnext
            rcases hnext.arrives with ⟨c, hc, _⟩
            rw [hget] at hc
            simp at hc
          . apply not_roundFails hnone.1 hnone.2
            rw [hget]
            simp
      | some r =>
        cases r with
        | failed =>
          rw [hget] at hrecv
          rcases h.realloc hsize hnone.2 with ⟨block, hblock, _⟩
          have hfails : recvBody alloc size s = .ok (.inr (.error .recv)) := by
            unfold recvBody
            rw [hcounts, Except.ok_bind, h.reallocs, hblock, h.rest]
            simp only [hrecv]
            rfl
          exact .inr (.inl ⟨⟨hcounted, .inr (.inr hget)⟩, _, hfails⟩)
        | segment c =>
          rw [hget] at hrecv
          rcases h.received hcounted hsize hnone.2 hrecv
            with ⟨hfits, hlarge, hwaits, _, b, hbody, hlen, hheader⟩ | ⟨hno, hends⟩
          . refine .inl ⟨⟨hcounted, hnone.2, ⟨c, hget, hfits⟩, hlarge, hwaits⟩, _, hbody, ?_⟩
            exact ⟨rfl, rfl, rfl, rfl, fun hzero => absurd hzero (by omega),
              fun _ => ⟨b, rfl, hlen, hheader⟩⟩
          . refine .inr (.inr ⟨?_, ?_, hends⟩)
            . intro hnext
              rcases hnext.arrives with ⟨c', hc', hfits⟩
              rw [hget, Option.some.injEq, Recv.segment.injEq] at hc'
              subst hc'
              exact hno ⟨hfits, hnext.header, hnext.waits, List.length_pos_iff.mpr c.ne_nil⟩
            . apply not_roundFails hnone.1 hnone.2
              rw [hget]
              simp
  . rw [if_neg hcounted] at hcounts
    refine .inr (.inr ⟨fun hnext => hcounted hnext.counted, fun hfails => hcounted hfails.counted,
      .inl ⟨.signedOverflow, ?_⟩⟩)
    unfold recvBody
    rw [hcounts]
    rfl

end

/--
The call is free of undefined behaviour, and when it returns 0 the response has arrived as a whole
and its caller has a pointer to it.
-/
def ReturnsFrame (net : Network) (alloc : Allocator) (serverUrl : Option (List UInt8))
    (pReq : Option Frame) (pResp : Option (Option Ptr)) (frame : ResponseFrame) : Prop :=
  ∀ slot, ∃ fuel out, raNetworkSendReceive net alloc fuel serverUrl pReq pResp slot = some (.ok out)
    ∧ (out.ret = 0 → frame.bytes <+: net.recvs.flatMap Recv.bytes
        ∧ ∃ p b, out.pResp = some (some p) ∧ out.recvBuffer = some b ∧ frame.bytes <+: p.bytes b)

/--
With a null pointer in the slot nothing is returned but the failures.
-/
theorem ReturnsFrame.failure {net : Network} {alloc : Allocator} {server : List UInt8}
    {request : Frame} {old : Option Ptr} {frame : ResponseFrame}
    (h : ReturnsFrame net alloc (some server) (some request) (some old) frame)
    : ∃ fuel failure, sendRequest net alloc fuel server port request
        = some (.ok (.error failure)) := by
  rcases h none with ⟨fuel, out, hrun, hout⟩
  simp only [raNetworkSendReceive, Option.map_eq_some_iff] at hrun
  rcases hrun with ⟨res, hsend, hres⟩
  rcases res with e | failure | b
  . simp [Except.map] at hres
  . exact ⟨fuel, failure, hsend⟩
  . simp only [Except.map, Except.ok.injEq] at hres
    subst hres
    rcases hout rfl with ⟨_, p, _, hp, _⟩
    simp at hp

end NetworkRa
