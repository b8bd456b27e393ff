import SgxNfv.Client.Impl
import SgxNfv.Lib.CString.Print

/-!
This module contains the verification of `sendData`: what it transmits, and what it makes of a reply
that arrives in pieces.
-/

open C

namespace Client

structure Network.Works (net : Network) : Prop where
  socket : 0 ≤ net.socket
  getaddrinfo : ∃ serverinfo, net.getaddrinfo = .ok serverinfo ∧ afInet ∈ serverinfo
  connect : 0 ≤ net.connect
  sendHeader : 0 ≤ net.sendHeader
  sendData : 0 ≤ net.sendData

/--
The buffer that `sendData` parses after the first `recv`: behind the bytes of the reply stand those
that the array held before.
-/
def replyBuff (garbage : Nat → UInt8) (bytes : List UInt8) : List UInt8 :=
  bytes ++ ((List.range' bytes.length (99 - bytes.length)).map garbage ++ [0])

theorem store_replyBuff (garbage : Nat → UInt8) {bytes : List UInt8} (hlen : bytes.length ≤ 99)
    : (store ((List.range 100).map garbage) 0 bytes >>= fun recvBuff => store recvBuff 99 [0])
        =
      .ok (replyBuff garbage bytes) := by
  have hrest : ((List.range 100).map garbage).drop bytes.length
      = (List.range' bytes.length (99 - bytes.length)).map garbage ++ [garbage 99] := by
    rw [← List.map_drop, List.range_eq_range', List.drop_range']
    have hsplit : 100 - bytes.length = 99 - bytes.length + 1 := by omega
    rw [hsplit, List.range'_concat, List.map_append]
    have hlast : 0 + bytes.length * 1 + 1 * (99 - bytes.length) = 99 := by omega
    rw [hlast]
    simp
  rw [store_zero (by simp; omega), Except.ok_bind, hrest, ← List.append_assoc]
  have hstore := @store_append (bytes ++ (List.range' bytes.length (99 - bytes.length)).map garbage)
    [garbage 99] [] [0] 99 (by simp; omega) (by simp)
  rw [List.append_nil, List.append_nil] at hstore
  rw [hstore, replyBuff, List.append_assoc]
  rfl

theorem exchange_eq {net : Network} {bytes : List UInt8} (hworks : net.Works)
    (hrecv : net.recv = some bytes) (hlen : bytes.length ≤ 99) (data : List UInt8)
    (length : UInt32)
    : exchange net data length
        =
      (parseReply (replyBuff net.recvBuff bytes)).map fun res =>
        (res, header length ++ data.take length.toNat) := by
  rcases hworks.getaddrinfo with ⟨serverinfo, hinfo, hmem⟩
  have hfound : ¬ (serverinfo.all (· ≠ afInet)) = true := by
    intro hall
    rw [List.all_eq_true] at hall
    simpa using hall afInet hmem
  have hstore := store_replyBuff net.recvBuff hlen
  unfold exchange
  rw [if_neg (Int.not_lt.mpr hworks.socket), hinfo]
  cases serverinfo with
  | nil => simp at hmem
  | cons addr serverinfo =>
    simp only
    rw [if_neg hfound, if_neg (Int.not_lt.mpr hworks.connect),
      if_neg (Int.not_lt.mpr hworks.sendHeader), if_neg (Int.not_lt.mpr hworks.sendData), hrecv]
    simp only
    rcases Except.bind_eq_ok.mp hstore with ⟨buff, hfirst, hlast⟩
    rw [hfirst, Except.ok_bind, hlast, Except.ok_bind]
    cases parseReply (replyBuff net.recvBuff bytes) with
    | error e => rfl
    | ok res => rfl

theorem sendData_eq {net : Network} {bytes : List UInt8} (hworks : net.Works)
    (hrecv : net.recv = some bytes) (hlen : bytes.length ≤ 99) (data : List UInt8)
    (length : UInt32)
    : sendData net data length = (parseReply (replyBuff net.recvBuff bytes)).map result := by
  unfold sendData
  rw [exchange_eq hworks hrecv hlen]
  cases parseReply (replyBuff net.recvBuff bytes) with
  | error e => rfl
  | ok res => rfl

theorem Failure.code_neg (failure : Failure) : failure.code < 0 := by
  cases failure with
  | getaddrinfo rc => exact Int.negSucc_lt_zero 0
  | _ => decide

theorem result_eq_natCast_iff {res : Except Failure Int} {n : Nat}
    : result res = n ↔ res = .ok (n : Int) := by
  cases res with
  | error failure =>
    have := failure.code_neg
    simp only [result, reduceCtorEq, iff_false]
    omega
  | ok receivedCount => simp [result]

theorem parseReply_ok {rest : List UInt8} {res : Strtol} (h : strtol rest = .ok res)
    : parseReply (ascii "OK:" ++ rest)
        =
      .ok (if res.value < 0 then .error .negativeCount else .ok res.value) := by
  unfold parseReply
  rw [strncmp_append, Except.ok_bind, if_pos rfl]
  have hdrop : (ascii "OK:" ++ rest).drop 3 = rest := rfl
  rw [hdrop, h, Except.ok_bind]
  split
  . rfl
  . rfl

theorem endsNumber_nul : EndsNumber 0 := ⟨rfl, rfl⟩

theorem parseReply_printInt {value : Int} (hvalue : clampLong value = value) (rest : List UInt8)
    : parseReply (ascii "OK:" ++ (printInt value ++ 0 :: rest))
        =
      .ok (if value < 0 then .error .negativeCount else .ok value) := by
  rw [parseReply_ok (strtol_printInt value rest endsNumber_nul), hvalue]

theorem replyBuff_sevens (bytes : List UInt8)
    : replyBuff (fun _ => 55) bytes = bytes ++ (List.replicate (99 - bytes.length) 55 ++ [0]) := by
  rw [replyBuff, List.map_const', List.length_range']

theorem parseReply_cut {n j : Nat} (hn : n ≤ intMax) (hpos : 0 < j)
    (hj : j < (ascii "OK:" ++ (printNat n ++ [0])).length)
    : parseReply (replyBuff (fun _ => 55) ((ascii "OK:" ++ (printNat n ++ [0])).take j))
        ≠
      .ok (.ok n) := by
  have hlen : (printNat n).length ≤ 10 := by
    apply length_printNat_le
    . omega
    . simp only [intMax] at hn
      omega
  have hok : ascii "OK:" = [79, 75, 58] := by decide
  rw [replyBuff_sevens]
  -- One or two bytes are no reply at all. Of more the number is read on into the sevens, and so
  -- becomes one that no `int` is.
  rcases j with _ | _ | _ | j
  . omega
  . have htake : (ascii "OK:" ++ (printNat n ++ [0])).take 1 = [79] := rfl
    have hreply : parseReply ([79] ++ (List.replicate (99 - [(79 : UInt8)].length) 55 ++ [0]))
        = .ok (.error .malformedReply) := rfl
    rw [htake, hreply]
    simp
  . have htake : (ascii "OK:" ++ (printNat n ++ [0])).take 2 = [79, 75] := rfl
    have hreply : parseReply ([79, 75] ++ (List.replicate (99 - [(79 : UInt8), 75].length) 55 ++ [0]))
        = .ok (.error .malformedReply) := rfl
    rw [htake, hreply]
    simp
  . simp only [hok, List.length_append, List.length_cons, List.length_nil] at hj
    have htake : (ascii "OK:" ++ (printNat n ++ [0])).take (j + 3)
        = ascii "OK:" ++ (printNat n).take j := by
      rw [List.take_append, List.take_of_length_le (by rw [hok]; simp)]
      have hsub : j + 3 - (ascii "OK:").length = j := by
        rw [hok]
        simp
      rw [hsub, List.take_append_of_le_length (by omega)]
    have hsevens : 22 ≤ 99 - (ascii "OK:" ++ (printNat n).take j).length := by
      simp only [hok, List.length_append, List.length_cons, List.length_nil, List.length_take]
      omega
    rw [htake, List.append_assoc]
    rcases @strtol_cut _ [] _ _ _ (List.take_prefix j (printNat n)) hsevens endsNumber_nul
      with ⟨res, hres, hvalue⟩
    rw [parseReply_ok hres, hvalue, if_neg (by decide)]
    simp only [ne_eq, Except.ok.injEq]
    simp only [intMax, longMax] at hn ⊢
    omega

end Client
