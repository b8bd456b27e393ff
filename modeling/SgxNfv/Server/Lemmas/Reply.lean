import SgxNfv.Client.Lemmas
import SgxNfv.Processor.Lemmas.Count
import SgxNfv.Processor.Lemmas.Scan
import SgxNfv.Server.Lemmas.Framing

/-!
This module contains the way of a count from the packet processor back to the client, for both
servers.
-/

open C Processor

namespace Server

/--
A crossing that succeeds. `slot` is what the stack slot of its answer holds before.
-/
def succeeding (slot : Int32) : Ecall := { status := sgxSuccess, slot }

namespace Kind

theorem process_sgx (slot : Int32) (fuel : Nat) (data : List UInt8) (length : UInt32)
    : sgx.process (succeeding slot) fuel data length = scan fuel data length := by
  simp [process, succeeding, callProcessPacketSgx, Ecall.processPacket, ecallProcessPacket]

theorem process_mono {kind : Kind} {slot : Int32} {fuel fuel' : Nat} {data : List UInt8}
    {length : UInt32} {res : Except Fault Int} (hle : fuel ≤ fuel')
    (h : kind.process (succeeding slot) fuel data length = some res)
    : kind.process (succeeding slot) fuel' data length = some res := by
  cases kind with
  | sgx =>
    rw [process_sgx] at h ⊢
    exact While.exec_mono hle h
  | noSgx => exact While.exec_mono hle h

end Kind

structure Received (alloc : Allocator) (net : List Recv) (p : List UInt8) (call : Call) : Prop where
  receive : ∃ fuel, receive alloc fuel net = some (.ok (.ok call))
  length : call.length.toNat = p.length
  data : call.data.take p.length = p

/--
The reply names the value that the packet processor has returned, and the client returns that value
when the reply reaches it in the pieces `cut`.
-/
def CarriesCount (kind : Kind) (slot : Int32) (call : Call) (reply p : List UInt8)
    (cut : List (List UInt8)) : Prop :=
  ∃ value, (∃ fuel, kind.process (succeeding slot) fuel call.data call.length = some (.ok value))
    ∧ reply = response value
    ∧ ∀ net : Client.Network, net.Works → net.recv = cut.head? →
        Client.sendData net p (UInt32.ofNat p.length) = .ok value

section

variable {kind : Kind} {slot : Int32} {sending : Send} {alloc : Allocator} {net : List Recv}
  {p : List UInt8} {call : Call}

theorem Received.process_eq (h : Received alloc net p call) (hmin : 500 ≤ p.length)
    (hmax : p.length ≤ intMax) (kind : Kind) (slot : Int32)
    : ∃ value, 0 ≤ value ∧ value ≤ intMax ∧ (kind = .sgx → 1 ≤ value)
        ∧ ∃ fuel, kind.process (succeeding slot) fuel call.data call.length = some (.ok value) := by
  have hlength := h.length
  have hdata : call.data = p ++ call.data.drop p.length := by
    nth_rewrite 1 [← List.take_append_drop p.length call.data]
    rw [h.data]
  cases kind with
  | sgx =>
    rcases @scan_eq_scanCount p call.length (call.length.toNat + 2) (by omega) (by omega) hmax
      (le_refl _) with ⟨hscan, hlo, hhi⟩
    refine ⟨scanCount p, by omega, hhi, fun _ => hlo, call.length.toNat + 2, ?_⟩
    rw [Kind.process_sgx, hdata]
    exact scan_append _ hscan
  | noSgx =>
    have hle : p.length ≤ call.data.length := by
      rw [hdata, List.length_append]
      exact Nat.le_add_right _ _
    have hcount := @processPacket_eq call.data call.length _ (by omega) (by omega) (le_refl _)
    rw [hlength, h.data] at hcount
    have := List.count_le_length (a := (0x0a : UInt8)) (l := p)
    exact ⟨_, by omega, by omega, by simp, _, hcount⟩

theorem process_unique {fuel fuel' : Nat} {data : List UInt8} {length : UInt32}
    {res res' : Except Fault Int} (h : kind.process (succeeding slot) fuel data length = some res)
    (h' : kind.process (succeeding slot) fuel' data length = some res') : res = res' := by
  have hl := Kind.process_mono (Nat.le_max_left fuel fuel') h
  have hr := Kind.process_mono (Nat.le_max_right fuel fuel') h'
  rw [hl] at hr
  exact Option.some.inj hr

theorem Received.replies (h : Received alloc net p call) {value : Int} {fuel : Nat}
    (hvalue : kind.process (succeeding slot) fuel call.data call.length = some (.ok value))
    (sending : Send)
    : ∃ n, ∀ fuel, n ≤ fuel → kind.handleConnection (succeeding slot) sending alloc fuel net
        = {
            calls := [call]
            outcome := some (.ok (send (response (kind.reported value)) sending))
          } := by
  rcases h.receive with ⟨fuel', hreceive⟩
  refine ⟨max fuel fuel', fun fuel'' hle => ?_⟩
  have hprocess := Kind.process_mono (Nat.le_trans (Nat.le_max_left fuel fuel') hle) hvalue
  rw [Kind.handleConnection_eq]
  simp only [serve, receive_mono (Nat.le_trans (Nat.le_max_right fuel fuel') hle) hreceive, hprocess,
    Option.map_some, Except.map]

theorem response_natCast (n : Nat) : response n = ascii "OK:" ++ (printNat n ++ [0]) := by
  have hprint : printInt (n : Int) = printNat n := by
    rw [printInt, if_neg (by omega), Int.natAbs_natCast]
  rw [response, hprint, List.append_assoc]

theorem response_inj {i j : Int} (hi : clampLong i = i) (hj : clampLong j = j)
    (h : response i = response j) : i = j := by
  unfold response at h
  rw [List.append_assoc, List.append_assoc, List.append_right_inj] at h
  have hli := strtol_printInt i [] Client.endsNumber_nul
  have hlj := strtol_printInt j [] Client.endsNumber_nul
  rw [h, hlj, Except.ok.injEq, Strtol.mk.injEq] at hli
  rw [← hi, ← hj, hli.1]

theorem Received.not_carriesCount (h : Received alloc net p call) (hmin : 500 ≤ p.length)
    (hmax : p.length ≤ intMax) (cut : List (List UInt8))
    : ¬ CarriesCount .sgx slot call (response 0) p cut := by
  rcases h.process_eq hmin hmax .sgx slot with ⟨value, _, hhi, hpos, fuel, hvalue⟩
  -- The reply says 0, but the payload begins with an occurrence, so that the count is positive.
  rintro ⟨value', ⟨fuel', hvalue'⟩, hname, _⟩
  have hsame := Except.ok.inj (process_unique hvalue' hvalue)
  rw [hsame] at hname
  have hclamp : clampLong value = value :=
    clampLong_of_int (Int.le_trans (by decide) (hpos rfl)) hhi
  have hzero := @response_inj 0 value (by decide) hclamp hname
  have := hpos rfl
  omega

theorem length_response_le {i : Int} (hlo : intMin ≤ i) (hhi : i ≤ intMax)
    : (response i).length ≤ 15 := by
  have hlen := length_printInt_le hlo hhi
  have hok : (ascii "OK:").length = 3 := rfl
  simp only [response, List.length_append, List.length_singleton, hok]
  omega

theorem sendData_response {net : Client.Network} {i : Int} (hworks : net.Works)
    (hrecv : net.recv = some (response i)) (hlo : intMin ≤ i) (hhi : i ≤ intMax)
    (p : List UInt8) (length : UInt32)
    : Client.sendData net p length = .ok (if i < 0 then -2 else i) := by
  have hlen := length_response_le hlo hhi
  have hclamp : clampLong i = i := clampLong_of_int hlo hhi
  rw [Client.sendData_eq hworks hrecv (by omega), Client.replyBuff, response, List.append_assoc,
    List.append_assoc, List.singleton_append, Client.parseReply_printInt hclamp]
  split
  . rfl
  . rfl

theorem sendData_whole {net : Client.Network} {n : Nat} (hworks : net.Works)
    (hrecv : net.recv = some (response n)) (hn : n ≤ intMax) (p : List UInt8) (length : UInt32)
    : Client.sendData net p length = .ok n := by
  rw [sendData_response hworks hrecv (Int.le_trans (by decide) (Int.natCast_nonneg n)) hn,
    if_neg (Int.not_lt.mpr (Int.natCast_nonneg n))]

theorem sendData_cut {net : Client.Network} {n j : Nat} (hworks : net.Works)
    (hrecv : net.recv = some ((response n).take j)) (hgarbage : net.recvBuff = fun _ => 55)
    (hn : n ≤ intMax) (hpos : 0 < j) (hj : j < (response n).length)
    (p : List UInt8) (length : UInt32) : Client.sendData net p length ≠ .ok n := by
  have hlen := length_response_le (Int.le_trans (by decide) (Int.natCast_nonneg n)) hn
  have htake : ((response n).take j).length ≤ 99 := by
    rw [List.length_take]
    omega
  have hne := Client.parseReply_cut hn hpos (by rw [← response_natCast]; exact hj)
  rw [Client.sendData_eq hworks hrecv htake]
  rw [← response_natCast, ← hgarbage] at hne
  cases hparse : Client.parseReply (Client.replyBuff net.recvBuff ((response n).take j)) with
  | error e => simp [Except.map]
  | ok res =>
    rw [hparse] at hne
    simp only [Except.map, ne_eq, Except.ok.injEq, Client.result_eq_natCast_iff] at hne ⊢
    exact hne

def works (recv : Option (List UInt8)) (recvBuff : Nat → UInt8) : Client.Network where
  socket := 0
  getaddrinfo := .ok [Client.afInet]
  connect := 0
  sendHeader := 0
  sendData := 0
  recv := recv
  recvBuff := recvBuff

theorem works_works (recv : Option (List UInt8)) (recvBuff : Nat → UInt8)
    : (works recv recvBuff).Works :=
  ⟨le_refl 0, ⟨_, rfl, by simp⟩, le_refl 0, le_refl 0, le_refl 0⟩

theorem carriesCount_noSgx_iff {value fuel : Nat} {cut : List (List UInt8)}
    (hvalue : Kind.noSgx.process (succeeding slot) fuel call.data call.length = some (.ok value))
    (hhi : value ≤ intMax) (hcut : cut.flatten = response value) (hne : ∀ c ∈ cut, c ≠ [])
    : CarriesCount .noSgx slot call (response value) p cut ↔ cut.length = 1 := by
  rcases cut with _ | ⟨c, cut⟩
  . simp [response_natCast] at hcut
  . constructor
    . rintro ⟨value', ⟨fuel', hvalue'⟩, _, hclient⟩
      have hsame := Except.ok.inj (process_unique hvalue' hvalue)
      subst hsame
      rcases cut with _ | ⟨c', cut⟩
      . rfl
      . have hc := List.length_pos_iff.mpr (hne c (by simp))
        have hc' := List.length_pos_iff.mpr (hne c' (by simp))
        have hlen := congrArg List.length hcut
        have htake : c = (response value).take c.length := by
          rw [← hcut, List.flatten_cons, List.take_left]
        simp only [List.flatten_cons, List.length_append] at hlen
        have hsent := hclient (works (some c) fun _ => 55) (works_works _ _) rfl
        refine absurd hsent (sendData_cut (works_works _ _) ?_ rfl hhi hc (by omega) _ _)
        rw [← htake]
        rfl
    . intro hone
      have hnil : cut = [] := List.eq_nil_of_length_eq_zero (by simpa using hone)
      subst hnil
      rw [List.flatten_cons, List.flatten_nil, List.append_nil] at hcut
      subst hcut
      exact ⟨value, ⟨fuel, hvalue⟩, rfl, fun net hworks hrecv =>
        sendData_whole hworks hrecv hhi p _⟩

/--
Both servers reply to a payload that was received completely, but only the reply of the one without the
enclave names the count.
-/
theorem handleConnection_carriesCount_iff (kind : Kind) (slot : Int32) (alloc : Allocator)
    (net : List Recv) (p : List UInt8) (call : Call) (hmin : 500 ≤ p.length)
    (hmax : p.length ≤ intMax) (hcall : Received alloc net p call)
    : ∃ number n,
        (∀ fuel, n ≤ fuel → kind.handleConnection (succeeding slot) .all alloc fuel net
          = { calls := [call], outcome := some (.ok (.replied (response number))) })
        ∧ ∀ cut, cut.flatten = response number → (∀ c ∈ cut, c ≠ []) →
          (CarriesCount kind slot call (response number) p cut ↔ kind = .noSgx ∧ cut.length = 1) := by
  rcases hcall.process_eq hmin hmax kind slot with ⟨value, hlo, hhi, _, fuel, hvalue⟩
  rcases hcall.replies hvalue .all with ⟨n, hreply⟩
  refine ⟨kind.reported value, n, hreply, ?_⟩
  intro cut hcut hne
  cases kind with
  | sgx => simpa [Kind.reported] using hcall.not_carriesCount hmin hmax cut
  | noSgx =>
    lift value to Nat using hlo
    simpa [Kind.reported] using carriesCount_noSgx_iff hvalue hhi hcut hne

end

theorem received_newlines
    : ∃ call, Received .inPlace ([newlinesRequest, newlinesPayload].map .segment) newlines call := by
  rcases handleConnection_delivers .noSgx (succeeding 0) .all segments_newlines rfl
    Allocator.inPlace_realloc intact_newlines with ⟨n, call, hcalls, hlength, hdata⟩
  exact ⟨call, ⟨n, receive_of_calls hcalls⟩, hlength, hdata⟩

theorem length_newlines_range : 500 ≤ newlines.length ∧ newlines.length ≤ intMax := by
  rw [length_newlines]
  decide

theorem handleConnection_carriesCount_iff_newlines
    : ∃ call number n,
        (∀ fuel, n ≤ fuel → Kind.noSgx.handleConnection (succeeding 0) .all .inPlace fuel
            ([newlinesRequest, newlinesPayload].map .segment)
          = { calls := [call], outcome := some (.ok (.replied (response number))) })
        ∧ CarriesCount .noSgx 0 call (response number) newlines [response number] := by
  rcases received_newlines with ⟨call, hcall⟩
  rcases handleConnection_carriesCount_iff .noSgx 0 .inPlace _ newlines call length_newlines_range.1
    length_newlines_range.2 hcall with ⟨number, n, hreply, hiff⟩
  refine ⟨call, number, n, hreply, (hiff [response number] ?_ ?_).mpr ⟨rfl, rfl⟩⟩
  . simp
  . simp [response]

theorem not_carriesCount_newlines
    : ∃ call, Received .inPlace ([newlinesRequest, newlinesPayload].map .segment) newlines call
        ∧ (∃ n, ∀ fuel, n ≤ fuel → Kind.sgx.handleConnection (succeeding 0) .all .inPlace fuel
            ([newlinesRequest, newlinesPayload].map .segment)
          = { calls := [call], outcome := some (.ok (.replied (ascii "OK:0" ++ [0]))) })
        ∧ ¬ CarriesCount .sgx 0 call (ascii "OK:0" ++ [0]) newlines [ascii "OK:0" ++ [0]] := by
  have hrange := length_newlines_range
  have hzero : ascii "OK:0" ++ [0] = response 0 := by decide
  rcases received_newlines with ⟨call, hcall⟩
  rcases hcall.process_eq hrange.1 hrange.2 .sgx 0 with ⟨value, _, _, _, fuel, hvalue⟩
  rw [hzero]
  exact ⟨call, hcall, hcall.replies hvalue .all, hcall.not_carriesCount hrange.1 hrange.2 _⟩

end Server
