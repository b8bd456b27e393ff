import SgxNfv.Server.Lemmas.Reply

/-!
This module contains the round trips of the text protocol: the server reads from a header the length
that the client has printed, and the client reads from a reply the number that the server has
printed.
-/

open C

namespace Server

/--
The local of `handleConnection` of this name, from before `data` is moved on behind the second word.
-/
def Header.numLenChars (h : Header) : Int := toInt (h.data - 6 - 9)

/--
The header `h` that was read is the one that the client prints for the length `n`.
-/
structure Decodes (n : UInt32) (h : Header) : Prop where
  numLenChars : h.numLenChars = (printInt (toInt n.toNat)).length
  data : strlen (Client.header n ++ [0]) = .ok h.data
  headerLen : h.headerLen = h.data
  dataLength : toUnsigned h.dataLength = n

theorem zero_not_mem_header (n : UInt32) : (0 : UInt8) ∉ Client.header n := by
  have hnumber := zero_not_mem_printInt (toInt n.toNat)
  have hdataLen : (0 : UInt8) ∉ ascii "data_len:" := by decide
  have hdata : (0 : UInt8) ∉ ascii "|data:" := by decide
  rw [header_eq, List.mem_append, List.mem_append, not_or, not_or]
  exact ⟨hdataLen, hnumber, hdata⟩

theorem decodes_declared {n : UInt32} (hlen : (Client.header n).length ≤ 1000)
    : Decodes n (.declared (toInt n.toNat) (printInt (toInt n.toNat)).length) := by
  rw [length_header] at hlen
  constructor
  . have hdata : ((15 + (printInt (toInt n.toNat)).length : Nat) : Int) - 6 - 9
        = (printInt (toInt n.toNat)).length := by omega
    simp only [Header.numLenChars, Header.declared, hdata]
    rw [toInt_of_nonneg (Int.natCast_nonneg _)]
    simp only [intMax]
    omega
  . rw [strlen_append (zero_not_mem_header n), length_header]
    rfl
  . simp only [Header.declared]
    omega
  . simp only [Header.declared, toUnsigned_toInt]

theorem firstBuff_header {n : UInt32} {s : Segment} (hwhole : Client.header n <+: s.bytes)
    (net : List Recv)
    : Declares (firstBuff (.segment s :: net)) (toInt n.toNat)
        (printInt (toInt n.toNat)).length := by
  rcases hwhole with ⟨rest, heq⟩
  simp only [firstBuff, recv, Option.getD_some]
  rw [← heq, List.append_assoc]
  exact declares_header _ _

theorem openConn_header {alloc : Allocator} {n : UInt32} {s : Segment}
    (hmalloc : alloc.malloc = true) (hwhole : Client.header n <+: s.bytes) (net : List Recv)
    : ∃ h, openConn alloc (.segment s :: net) = .ok (.ok (h, firstConn (.segment s :: net)))
        ∧ Decodes n h := by
  have hdeclares := firstBuff_header hwhole net
  have hlen : (Client.header n).length ≤ 1000 := Nat.le_trans hwhole.length_le s.length_le
  have hrange := toInt_spec n.toNat
  refine ⟨_, ?_, decodes_declared hlen⟩
  rw [length_header] at hlen
  rw [openConn_eq hmalloc, hdeclares.parseHeader_eq (length_firstBuff _), addLong_ok]
  . rfl
  . simp only [intMin, longMin] at *
    omega
  . simp only [intMax, longMax] at *
    omega

theorem receive_header {alloc : Allocator} {fuel : Nat} {net : List Recv} {h : Header} {conn : Conn}
    {call : Call} (hopen : openConn alloc net = .ok (.ok (h, conn)))
    (hcall : receive alloc fuel net = some (.ok (.ok call)))
    : call.header = h := by
  unfold receive at hcall
  rw [hopen] at hcall
  simp only [Option.map_eq_some_iff] at hcall
  rcases hcall with ⟨res, _, hres⟩
  rcases res with e | reason | conn'
  . simp [Except.map] at hres
  . simp [Except.map] at hres
  . simp only [Except.map, Except.ok.injEq] at hres
    rw [← hres]

theorem protocol_decodes
    : (∀ (n : UInt32) (alloc : Allocator) (s : Segment) (net : List Recv),
        alloc.malloc = true → Client.header n <+: s.bytes →
          ∃ h conn, openConn alloc (.segment s :: net) = .ok (.ok (h, conn)) ∧ Decodes n h
            ∧ ∀ fuel call, receive alloc fuel (.segment s :: net) = some (.ok (.ok call)) →
                call.header = h ∧ call.length = n)
      ∧ ∀ (c : Int32) (net : Client.Network) (data : List UInt8) (length : UInt32),
          net.Works → net.recv = some (response c.toInt) →
            Client.sendData net data length = .ok (if 0 ≤ c.toInt then c.toInt else -2)
            ∧ ∀ failure : Client.Failure, 0 ≤ c.toInt → c.toInt ≠ failure.code := by
  constructor
  . intro n alloc s net hmalloc hwhole
    rcases openConn_header hmalloc hwhole net with ⟨h, hopen, hdecodes⟩
    refine ⟨h, _, hopen, hdecodes, ?_⟩
    intro fuel call hcall
    have hheader := receive_header hopen hcall
    rw [Call.length, hheader]
    exact ⟨rfl, hdecodes.dataLength⟩
  . intro c net data length hworks hrecv
    have hlo := c.le_toInt
    have hhi := c.toInt_lt
    constructor
    . rw [sendData_response hworks hrecv]
      . split
        . next hneg => rw [if_neg (Int.not_le.mpr hneg)]
        . next hpos => rw [if_pos (Int.not_lt.mp hpos)]
      . exact hlo
      . simp only [intMax]
        omega
    . intro failure hpos heq
      have := failure.code_neg
      omega

def largestHeader : Segment where
  bytes := Client.header 4294967295
  ne_nil := by decide
  length_le := by decide

theorem protocol_decodes_largest
    : (∃ h conn, openConn .inPlace [.segment largestHeader] = .ok (.ok (h, conn))
        ∧ Decodes 4294967295 h)
      ∧ Client.sendData (works (some (response (-1))) fun _ => 55) [] 0 = .ok (-2) := by
  constructor
  . rcases protocol_decodes.1 4294967295 .inPlace largestHeader [] rfl (List.prefix_refl _)
      with ⟨h, conn, hopen, hdecodes, _⟩
    exact ⟨h, conn, hopen, hdecodes⟩
  . exact (protocol_decodes.2 (-1) (works (some (response (-1))) fun _ => 55) [] 0
      (works_works _ _) rfl).1

end Server
