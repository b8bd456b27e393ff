import SgxNfv.Client.Impl
import SgxNfv.Lib.CString.Print
import SgxNfv.Server.Lemmas.Segments

/-!
This module contains the framing of requests: for which segmentations of a request the packet
processor gets the payload.
-/

open C Processor

namespace Server

section

variable {alloc : Allocator} {cs : List Segment}

theorem sent_length (cs : List Segment) : sent cs cs.length = stream cs := by
  rw [sent, List.take_length, stream]

theorem length_sent_lt {i : Nat} (hi : i < cs.length) : (sent cs i).length < (stream cs).length := by
  have hpos : 0 < (chunk cs i).length := by
    unfold chunk
    rw [List.getElem?_eq_getElem hi]
    exact List.length_pos_iff.mpr cs[i].ne_nil
  have hmono := @sent_mono cs (i + 1) cs.length hi
  rw [sent_length, sent_succ, List.length_append] at hmono
  omega

theorem getElem?_stream {i j : Nat} (hj : j < (chunk cs i).length)
    : (stream cs)[(sent cs i).length + j]? = (chunk cs i)[j]? := by
  unfold chunk at hj ⊢
  cases hc : cs[i]? with
  | none => simp [hc] at hj
  | some c =>
    simp only [hc, Option.map_some, Option.getD_some] at hj ⊢
    exact Windows.getElem?_flatMap_take Segment.bytes hc hj

theorem getElem?_buffAt {i j n : Nat} (hi : i ≤ n) (hj : j < 1000)
    : (buffAt alloc cs n)[1000 * i + j]? = (window alloc cs i)[j]? :=
  Windows.getElem?_flatMap_range _ (length_window alloc cs) (by omega) hj

theorem getElem?_window {i j : Nat} (hj : j < (chunk cs i).length)
    : (window alloc cs i)[j]? = (chunk cs i)[j]? := by
  cases i with
  | zero => exact List.getElem?_append_left hj
  | succ i => exact List.getElem?_append_left hj

theorem getElem?_buffAt_cases {k : Nat} (hk : k < (stream cs).length)
    : (k % 1000 < (chunk cs (k / 1000)).length
        ∧ (sent cs (k / 1000)).length + k % 1000 < (stream cs).length
        ∧ (buffAt alloc cs (cs.length - 1))[k]?
            = (stream cs)[(sent cs (k / 1000)).length + k % 1000]?)
      ∨ (k / 1000 = 0 ∧ (chunk cs 0).length ≤ k
        ∧ (buffAt alloc cs (cs.length - 1))[k]? = some 0)
      ∨ (∃ i, k / 1000 = i + 1 ∧ (chunk cs (i + 1)).length ≤ k % 1000
        ∧ (buffAt alloc cs (cs.length - 1))[k]? = some (alloc.fresh i k)) := by
  have hlast := length_sent_le cs cs.length
  rw [sent_length] at hlast
  have hbuff := @getElem?_buffAt alloc cs (k / 1000) (k % 1000) (cs.length - 1) (by omega) (by omega)
  rw [Nat.div_add_mod] at hbuff
  rw [hbuff]
  cases Nat.lt_or_ge (k % 1000) (chunk cs (k / 1000)).length with
  | inl hj =>
    refine .inl ⟨hj, ?_, ?_⟩
    . have hmono := @sent_mono cs (k / 1000 + 1) cs.length (by omega)
      rw [sent_length, sent_succ, List.length_append] at hmono
      omega
    . rw [getElem?_stream hj, getElem?_window hj]
  | inr hj =>
    cases hi : k / 1000 with
    | zero =>
      rw [hi] at hj
      refine .inr (.inl ⟨rfl, by omega, ?_⟩)
      rw [window, List.getElem?_append_right hj, List.getElem?_replicate, if_pos (by omega)]
    | succ i =>
      rw [hi] at hj
      refine .inr (.inr ⟨i, rfl, hj, ?_⟩)
      rw [window, List.getElem?_append_right hj, List.getElem?_drop, List.getElem?_map,
        List.getElem?_range' (by omega)]
      simp only [Option.map_some, Option.some.injEq]
      congr 1
      omega

theorem length_sent_succ_le (cs : List Segment) (i : Nat)
    : (chunk cs 0).length ≤ (sent cs (i + 1)).length
      ∧ (sent cs (i + 1)).length ≤ (chunk cs 0).length + 1000 * i := by
  induction i with
  | zero =>
    rw [sent_succ]
    simp [sent]
  | succ i ih =>
    have := length_chunk_le cs (i + 1)
    rw [sent_succ, List.length_append]
    omega

end

def HoldsStream (alloc : Allocator) (cs : List Segment) : Prop :=
  ∀ k < (stream cs).length, (buffAt alloc cs (cs.length - 1))[k]? = (stream cs)[k]?

/--
The segments are put into the buffer without a gap in front of the last one: the first fills its
window, or all that the client sends behind it are zeros, and a later one fills its window or
reaches the end of the request.
-/
structure Gapless (cs : List Segment) : Prop where
  first : (chunk cs 0).length = 1000 ∨ ∀ b ∈ (stream cs).drop (chunk cs 0).length, b = 0
  later : ∀ i, 0 < i → i + 1 < cs.length →
    (chunk cs i).length = 1000 ∨ (stream cs).length ≤ 1000 * i + (chunk cs i).length

section

variable {alloc : Allocator} {cs : List Segment}

theorem forall_mem_drop_eq_zero {bytes : List UInt8} {n : Nat}
    : (∀ b ∈ bytes.drop n, b = 0) ↔ ∀ k, n ≤ k → k < bytes.length → bytes[k]? = some 0 := by
  constructor
  . intro h k hle hk
    rw [List.getElem?_eq_getElem hk, h bytes[k]]
    rw [List.mem_drop_iff_getElem]
    refine ⟨k - n, by omega, ?_⟩
    congr 1
    omega
  . intro h b hb
    rw [List.mem_drop_iff_getElem] at hb
    rcases hb with ⟨k, hk, rfl⟩
    have := h (n + k) (by omega) (by omega)
    rw [List.getElem?_eq_getElem (by omega)] at this
    exact Option.some.inj this

theorem take_drop_eq_iff {bytes p : List UInt8} {n : Nat}
    : (bytes.drop n).take p.length = p ↔ ∀ k < p.length, bytes[n + k]? = p[k]? := by
  constructor
  . intro h k hk
    have hget : ((bytes.drop n).take p.length)[k]? = bytes[n + k]? := by
      rw [List.getElem?_take_of_lt hk, List.getElem?_drop]
    rw [← hget, h]
  . intro h
    apply List.ext_getElem?
    intro k
    cases Nat.lt_or_ge k p.length with
    | inl hlt => rw [List.getElem?_take_of_lt hlt, List.getElem?_drop, h k hlt]
    | inr hge =>
      rw [List.getElem?_eq_none hge, List.getElem?_eq_none]
      rw [List.length_take]
      omega

theorem holdsStream_of_full (hfull : ∀ i < cs.length, (sent cs i).length = 1000 * i)
    : HoldsStream alloc cs := by
  intro k hk
  have hlast := length_sent_le cs cs.length
  rw [sent_length] at hlast
  have hsent := hfull (k / 1000) (by omega)
  have hin : k % 1000 < (chunk cs (k / 1000)).length := by
    have hsucc := congrArg List.length (sent_succ cs (k / 1000))
    rw [List.length_append] at hsucc
    cases Nat.lt_or_ge (k / 1000 + 1) cs.length with
    | inl hlt =>
      have := hfull (k / 1000 + 1) hlt
      omega
    | inr hge =>
      rw [show k / 1000 + 1 = cs.length by omega, sent_length] at hsucc
      omega
  rcases @getElem?_buffAt_cases alloc cs k hk with ⟨_, _, hbuff⟩ | ⟨hi, hout, _⟩ | ⟨i, hi, hout, _⟩
  . rw [hbuff, hsent, Nat.div_add_mod]
  . rw [hi] at hin
    omega
  . rw [hi] at hin
    omega

theorem Gapless.full (h : Gapless cs) (hfirst : (chunk cs 0).length = 1000)
    : ∀ i < cs.length, (sent cs i).length = 1000 * i := by
  intro i hi
  induction i with
  | zero => simp [sent]
  | succ i ih =>
    have hsent := ih (by omega)
    have hlt := length_sent_lt hi
    rw [sent_succ, List.length_append] at hlt ⊢
    rcases Nat.eq_zero_or_pos i with rfl | hpos
    . omega
    . rcases h.later i hpos hi with hfull | hend
      . omega
      . omega

theorem holdsStream_of_zeros (h : Gapless cs)
    (hzeros : ∀ b ∈ (stream cs).drop (chunk cs 0).length, b = 0)
    : HoldsStream alloc cs := by
  rw [forall_mem_drop_eq_zero] at hzeros
  intro k hk
  have hlast := length_sent_le cs cs.length
  rw [sent_length] at hlast
  rcases @getElem?_buffAt_cases alloc cs k hk
    with ⟨hin, hlt, hbuff⟩ | ⟨_, hout, hbuff⟩ | ⟨i, hi, hout, _⟩
  . rw [hbuff]
    cases hi : k / 1000 with
    | zero =>
      congr 1
      simp only [sent, List.take_zero, List.flatMap_nil, List.length_nil]
      omega
    | succ i =>
      rw [hi] at hlt
      have hle := length_sent_succ_le cs i
      have hchunk := length_chunk_le cs 0
      rw [hzeros _ (by omega) hlt, hzeros k (by omega) hk]
  . rw [hbuff, hzeros k hout hk]
  . have hchunk := length_chunk_le cs (i + 1)
    have hnext : i + 1 + 1 < cs.length := by
      by_contra hge
      have hend : i + 1 + 1 = cs.length := by omega
      have hsent := length_sent_le cs (i + 1)
      have hsucc := congrArg List.length (sent_succ cs (i + 1))
      rw [hend, sent_length, List.length_append] at hsucc
      omega
    have := h.later (i + 1) (by omega) hnext
    omega

theorem Gapless.holdsStream (h : Gapless cs) : HoldsStream alloc cs := by
  cases h.first with
  | inl hfirst => exact holdsStream_of_full (h.full hfirst)
  | inr hzeros => exact holdsStream_of_zeros h hzeros

theorem HoldsStream.gapless (h : HoldsStream alloc cs)
    (hfresh : ∀ i k, (stream cs)[k]? ≠ some (alloc.fresh i k)) : Gapless cs := by
  constructor
  -- Behind a short first segment stand the zeros of the first buffer, and each later byte must
  -- equal one of them or a byte that came before it in the stream.
  . by_cases hfull : (chunk cs 0).length = 1000
    . exact .inl hfull
    . right
      rw [forall_mem_drop_eq_zero]
      intro k
      induction k using Nat.strongRecOn with
      | _ k ih =>
        intro hle hk
        have hstream := h k hk
        rcases @getElem?_buffAt_cases alloc cs k hk
          with ⟨hin, hlt, hbuff⟩ | ⟨_, hout, hbuff⟩ | ⟨i, hi, hout, hbuff⟩
        . cases hi : k / 1000 with
          | zero =>
            rw [hi] at hin
            omega
          | succ i =>
            rw [hi] at hlt hbuff
            have hsent := length_sent_succ_le cs i
            have hchunk := length_chunk_le cs 0
            rw [← hstream, hbuff]
            exact ih _ (by omega) (by omega) hlt
        . rw [← hstream, hbuff]
        . rw [hbuff] at hstream
          exact absurd hstream.symm (hfresh i k)
  . intro i hpos hi
    have hchunk := length_chunk_le cs i
    by_contra hgap
    have hk : 1000 * i + (chunk cs i).length < (stream cs).length := by omega
    have hdiv : (1000 * i + (chunk cs i).length) / 1000 = i := by omega
    -- The first byte of the gap is one that `realloc` has added.
    rcases @getElem?_buffAt_cases alloc cs _ hk
      with ⟨hin, _⟩ | ⟨hzero, _⟩ | ⟨i', _, _, hbuff⟩
    . rw [hdiv] at hin
      omega
    . omega
    . have hstream := h _ hk
      rw [hbuff] at hstream
      exact absurd hstream.symm (hfresh i' _)

theorem moves_eq_zero_iff {n : Nat}
    : moves alloc n = 0 ↔ ∀ i < n, alloc.realloc i ≠ .moved := by
  induction n with
  | zero => simp [moves]
  | succ n ih =>
    rw [moves, Nat.add_eq_zero_iff, ih, Nat.forall_lt_succ_right]
    simp

end

/--
The packet processor is called once, and what it gets is the payload.
-/
def Delivers (kind : Kind) (e : Ecall) (sending : Send) (alloc : Allocator) (cs : List Segment)
    (p : List UInt8) : Prop :=
  ∃ n call,
    (∀ fuel, n ≤ fuel →
      (kind.handleConnection e sending alloc fuel (cs.map .segment)).calls = [call])
    ∧ call.length.toNat = p.length ∧ call.data.take p.length = p

/--
`cs` is a segmentation of the request for the payload `p`, with the header in the first segment.
-/
structure Segments (cs : List Segment) (p : List UInt8) : Prop where
  stream_eq : stream cs = Client.request p
  header_le : (Client.header (UInt32.ofNat p.length)).length ≤ (chunk cs 0).length
  fits : (Client.request p).length ≤ intMax

theorem header_eq (n : UInt32)
    : Client.header n
        =
      ascii "data_len:" ++ (printInt (toInt n.toNat) ++ ascii "|data:") := by
  rw [Client.header, List.append_assoc]

theorem length_header (n : UInt32)
    : (Client.header n).length = 15 + (printInt (toInt n.toNat)).length := by
  rw [header_eq, List.length_append, List.length_append]
  have hdataLen : (ascii "data_len:").length = 9 := rfl
  have hdata : (ascii "|data:").length = 6 := rfl
  omega

theorem declares_printInt {i : Int} (hi : clampLong i = i) (rest : List UInt8)
    : Declares (ascii "data_len:" ++ (printInt i ++ (ascii "|data:" ++ rest))) i
        (printInt i).length := by
  have hbar : EndsNumber 124 := ⟨rfl, rfl⟩
  have hscan := strtol_printInt i (ascii "data:" ++ rest) hbar
  rw [hi] at hscan
  constructor
  . exact List.prefix_append _ _
  . exact hscan
  . rw [← List.drop_drop, List.drop_left', List.drop_left]
    . exact List.prefix_append _ _
    . rfl

theorem declares_header (n : UInt32) (rest : List UInt8)
    : Declares (Client.header n ++ rest) (toInt n.toNat) (printInt (toInt n.toNat)).length := by
  have hrange := toInt_spec n.toNat
  rw [header_eq, List.append_assoc, List.append_assoc]
  exact declares_printInt (clampLong_of_int hrange.1 hrange.2.1) rest

theorem receive_of_calls {kind : Kind} {e : Ecall} {sending : Send} {alloc : Allocator}
    {net : List Recv} {call : Call} {n : Nat}
    (h : ∀ fuel, n ≤ fuel → (kind.handleConnection e sending alloc fuel net).calls = [call])
    : receive alloc n net = some (.ok (.ok call)) := by
  rw [← @mem_calls_iff kind e sending, h n (Nat.le_refl n)]
  exact List.mem_singleton_self call

namespace Segments

variable {alloc : Allocator} {cs : List Segment} {p : List UInt8}

theorem toInt_length (h : Segments cs p) : toInt (UInt32.ofNat p.length).toNat = p.length := by
  have hfits := h.fits
  simp only [Client.request, List.length_append, intMax] at hfits
  have hlen : ((UInt32.ofNat p.length).toNat : Int) = p.length := by
    rw [UInt32.toNat_ofNat_of_lt']
    simp only [UInt32.size]
    omega
  rw [hlen, toInt_of_nonneg (Int.natCast_nonneg _)]
  simp only [intMax]
  omega

theorem header_length (h : Segments cs p)
    : (Client.header (UInt32.ofNat p.length)).length = 15 + (printInt p.length).length := by
  rw [length_header, h.toInt_length]

theorem stream_length (h : Segments cs p)
    : (stream cs).length = 15 + (printInt p.length).length + p.length := by
  rw [h.stream_eq, Client.request, List.length_append, h.header_length]

theorem header_prefix (h : Segments cs p)
    : Client.header (UInt32.ofNat p.length) <+: chunk cs 0 := by
  have hheader : Client.header (UInt32.ofNat p.length) <+: stream cs := by
    rw [h.stream_eq]
    exact List.prefix_append _ _
  have hchunk : chunk cs 0 <+: stream cs := by
    cases cs with
    | nil => exact List.nil_prefix
    | cons c cs => exact List.prefix_append _ _
  exact List.prefix_of_prefix_length_le hheader hchunk h.header_le

theorem declares (h : Segments cs p)
    : Declares (firstBuff (cs.map .segment)) p.length (printInt p.length).length := by
  rcases h.header_prefix with ⟨rest, heq⟩
  rw [firstBuff_map .inPlace, window, ← heq, List.append_assoc, ← h.toInt_length]
  exact declares_header _ _

theorem totalData_eq (h : Segments cs p)
    : toInt (15 + (printInt p.length).length + p.length) = (stream cs).length := by
  have hfits := h.fits
  have hlen := h.stream_length
  rw [← h.stream_eq] at hfits
  rw [toInt_of_nonneg (by omega) (by omega)]
  omega

theorem pos (h : Segments cs p) : 0 < cs.length := by
  have hlen := h.stream_length
  cases cs with
  | nil =>
    simp only [stream, List.flatMap_nil, List.length_nil] at hlen
    omega
  | cons c cs => exact Nat.succ_pos _

theorem receive_cases (h : Segments cs p) (hmalloc : alloc.malloc = true)
    (hrealloc : ∀ i, alloc.realloc i ≠ .null)
    : ((1000 * cs.length : Nat) ≤ intMax
        ∧ receive alloc cs.length (cs.map .segment) = some (.ok (.ok {
            header := .declared p.length (printInt p.length).length,
            conn := connAt alloc cs (cs.length - 1)
          })))
      ∨ (intMax < (1000 * cs.length : Nat)
        ∧ receive alloc 2147483 (cs.map .segment) = some (.error .signedOverflow)) := by
  have hpos := h.pos
  have htotal := h.totalData_eq
  have hfits := h.fits
  have hlen := h.stream_length
  rw [← h.stream_eq] at hfits
  rcases Server.receive_cases hmalloc hrealloc h.declares (by simp only [intMax, longMax] at *; omega)
    with ⟨i, hi, hge, hless, hreceive⟩ | ⟨hless, hreceive⟩
  . rw [htotal] at hge hless
    have hlast : i + 1 = cs.length := by
      rcases Nat.lt_trichotomy (i + 1) cs.length with hlt | heq | hgt
      . have := length_sent_lt hlt
        omega
      . exact heq
      . have := hless (cs.length - 1) (by omega)
        rw [Nat.sub_add_cancel hpos, sent_length] at this
        omega
    refine .inl ⟨?_, ?_⟩
    . simp only [intMax]
      omega
    . rw [← hlast]
      exact hreceive
  . refine .inr ⟨?_, hreceive⟩
    rw [htotal] at hless
    by_contra hsmall
    have hmono := @sent_mono cs cs.length 2147483 (by simp only [intMax] at hsmall; omega)
    rw [sent_length] at hmono
    omega

theorem getElem?_buffAt_header (h : Segments cs p) {k : Nat}
    (hk : k < 15 + (printInt p.length).length)
    : (buffAt alloc cs (cs.length - 1))[k]? = (stream cs)[k]? := by
  have hheader := h.header_le
  have hlen := h.stream_length
  have hchunk := length_chunk_le cs 0
  rw [h.header_length] at hheader
  have hzero : k / 1000 = 0 := by omega
  rcases @getElem?_buffAt_cases alloc cs k (by omega) with ⟨_, _, hbuff⟩ | ⟨_, hout, _⟩ | ⟨i, hi, _⟩
  . rw [hbuff, hzero]
    congr 1
    simp only [sent, List.take_zero, List.flatMap_nil, List.length_nil]
    omega
  . omega
  . omega

theorem payload_iff (h : Segments cs p)
    : ((buffAt alloc cs (cs.length - 1)).drop (15 + (printInt p.length).length)).take p.length = p
        ↔
      HoldsStream alloc cs := by
  have hlen := h.stream_length
  have hstream : ∀ k, (stream cs)[15 + (printInt p.length).length + k]? = p[k]? := by
    intro k
    rw [h.stream_eq, Client.request, ← h.header_length, List.getElem?_append_right (by omega),
      Nat.add_sub_cancel_left]
  rw [take_drop_eq_iff]
  simp only [← hstream]
  constructor
  . intro hpayload k hk
    cases Nat.lt_or_ge k (15 + (printInt p.length).length) with
    | inl hlt => exact h.getElem?_buffAt_header hlt
    | inr hge =>
      have := hpayload (k - (15 + (printInt p.length).length)) (by omega)
      rw [Nat.add_sub_cancel' hge] at this
      exact this
  . intro hholds k hk
    exact hholds _ (by omega)

theorem toNat_toUnsigned (h : Segments cs p) : (toUnsigned p.length).toNat = p.length := by
  have hfits := h.fits
  rw [← h.stream_eq, h.stream_length] at hfits
  rw [toUnsigned_of_range]
  . exact Int.toNat_natCast _
  . omega
  . omega

theorem data_iff (h : Segments cs p)
    : ({
        header := .declared p.length (printInt p.length).length,
        conn := connAt alloc cs (cs.length - 1)
      } : Call).data.take p.length = p
        ↔
      (∀ i < cs.length - 1, alloc.realloc i ≠ .moved) ∧ HoldsStream alloc cs := by
  rw [← moves_eq_zero_iff, ← h.payload_iff]
  by_cases hmoves : moves alloc (cs.length - 1) = 0
  . rw [Call.data, Ptr.bytes_of_eq hmoves.symm]
    exact (and_iff_right hmoves).symm
  . have hone : cs.length ≠ 1 := by
      intro hone
      rw [hone] at hmoves
      exact hmoves rfl
    have hp : p ≠ [] := by
      rintro rfl
      have hpos := h.pos
      have hheader := h.header_le
      have hlen := h.stream_length
      have hlt := @length_sent_lt cs 1 (by omega)
      have hsent : (chunk cs 0).length ≤ (sent cs 1).length := (length_sent_succ_le cs 0).1
      rw [h.header_length] at hheader
      simp only [List.length_nil] at *
      omega
    rw [Call.data, Ptr.bytes_of_ne (Ne.symm hmoves), List.take_nil]
    exact iff_of_false hp.symm (fun hboth => hmoves hboth.1)

theorem delivers_iff (h : Segments cs p) (kind : Kind) (e : Ecall) (sending : Send)
    (hmalloc : alloc.malloc = true) (hrealloc : ∀ i, alloc.realloc i ≠ .null)
    : Delivers kind e sending alloc cs p
        ↔
      (1000 * cs.length : Nat) ≤ intMax
      ∧ (∀ i < cs.length - 1, alloc.realloc i ≠ .moved) ∧ HoldsStream alloc cs := by
  rw [← h.data_iff]
  rcases h.receive_cases hmalloc hrealloc with ⟨hsize, hreceive⟩ | ⟨hover, hreceive⟩
  . constructor
    . rintro ⟨n, call, hcalls, _, hdata⟩
      have hcall := receive_of_calls hcalls
      rw [Except.ok.inj (Except.ok.inj (receive_unique hcall hreceive))] at hdata
      exact ⟨hsize, hdata⟩
    . rintro ⟨_, hdata⟩
      have hcalls := fun fuel hle =>
        @calls_eq_singleton kind e sending _ fuel _ _ (receive_mono hle hreceive)
      exact ⟨_, _, hcalls, h.toNat_toUnsigned, hdata⟩
  . apply iff_of_false
    . rintro ⟨n, call, hcalls, _⟩
      have := receive_unique (receive_of_calls hcalls) hreceive
      simp at this
    . rintro ⟨hsize, _⟩
      omega

end Segments

/--
When a segmented request is received as it was sent: no window before the last has a gap, and the
buffer neither outgrows `int` nor has to be moved.
-/
structure Intact (realloc : Nat → Realloc) (cs : List Segment) : Prop where
  gapless : Gapless cs
  size : (1000 * cs.length : Nat) ≤ intMax
  stays : ∀ i < cs.length - 1, realloc i ≠ .moved

theorem handleConnection_delivers (kind : Kind) (e : Ecall) (sending : Send) {p : List UInt8}
    {cs : List Segment} {alloc : Allocator} (hsegments : Segments cs p)
    (hmalloc : alloc.malloc = true) (hrealloc : ∀ i, alloc.realloc i ≠ .null)
    (hintact : Intact alloc.realloc cs) : Delivers kind e sending alloc cs p := by
  rw [hsegments.delivers_iff kind e sending hmalloc hrealloc]
  exact ⟨hintact.size, hintact.stays, hintact.gapless.holdsStream⟩

theorem handleConnection_delivers_iff (kind : Kind) (e : Ecall) (sending : Send) (p : List UInt8)
    (cs : List Segment) (realloc : Nat → Realloc) (hsegments : Segments cs p)
    (hrealloc : ∀ i, realloc i ≠ .null)
    : (∀ fresh, Delivers kind e sending { malloc := true, realloc, fresh } cs p)
        ↔
      Intact realloc cs := by
  constructor
  . intro hall
    -- What the new bytes hold is up to the allocator, so that it may be wrong everywhere.
    have hwrong := hall fun _ k => ((stream cs)[k]?.getD 0) + 1
    rw [hsegments.delivers_iff kind e sending rfl hrealloc] at hwrong
    refine ⟨hwrong.2.2.gapless ?_, hwrong.1, hwrong.2.1⟩
    intro i k heq
    have hnext := congrArg (Option.getD · 0) heq
    simp only [Option.getD_some] at hnext
    grind
  . intro hintact fresh
    exact handleConnection_delivers kind e sending hsegments rfl hrealloc hintact

def newlines : List UInt8 := List.replicate 1500 0x0a

theorem length_newlines : newlines.length = 1500 := List.length_replicate

/--
The header, with as many bytes of the payload as there is room for.
-/
def newlinesRequest : Segment where
  bytes := ascii "data_len:1500|data:" ++ newlines.take 981
  ne_nil := List.cons_ne_nil _ _
  length_le := by
    rw [List.length_append, List.length_take, length_newlines]
    decide

def newlinesPayload : Segment where
  bytes := newlines.drop 981
  ne_nil := by
    rw [← List.length_pos_iff, List.length_drop, length_newlines]
    decide
  length_le := by
    rw [List.length_drop, length_newlines]
    decide

theorem stream_newlines
    : stream [newlinesRequest, newlinesPayload] = ascii "data_len:1500|data:" ++ newlines := by
  simp only [stream, List.flatMap_cons, List.flatMap_nil, newlinesRequest, newlinesPayload]
  rw [List.append_nil, List.append_assoc, List.take_append_drop]

theorem length_newlinesRequest
    : (chunk [newlinesRequest, newlinesPayload] 0).length = 1000 := by
  have hchunk : chunk [newlinesRequest, newlinesPayload] 0
      = ascii "data_len:1500|data:" ++ newlines.take 981 := rfl
  rw [hchunk, List.length_append, List.length_take, length_newlines]
  rfl

theorem segments_newlines : Segments [newlinesRequest, newlinesPayload] newlines := by
  have hheader : Client.header (UInt32.ofNat newlines.length) = ascii "data_len:1500|data:" := by
    rw [length_newlines]
    decide
  constructor
  . rw [Client.request, hheader, stream_newlines]
  . rw [hheader, length_newlinesRequest]
    decide
  . rw [Client.request, hheader, List.length_append, length_newlines]
    decide

theorem intact_newlines : Intact (fun _ => .inPlace) [newlinesRequest, newlinesPayload] := by
  refine ⟨⟨.inl length_newlinesRequest, ?_⟩, by decide, by simp⟩
  intro i hpos hi
  simp only [List.length_cons, List.length_nil] at hi
  omega

theorem handleConnection_delivers_iff_newlines
    : Delivers .sgx { status := sgxSuccess, slot := 0 } .all .inPlace [newlinesRequest, newlinesPayload]
        newlines :=
  (handleConnection_delivers_iff .sgx _ .all newlines [newlinesRequest, newlinesPayload]
    (fun _ => .inPlace) segments_newlines (fun _ => Realloc.noConfusion)).mpr intact_newlines
    Allocator.inPlace.fresh

theorem not_delivers_testy
    : Segments [shortRequest, testyPayload] (ascii "testy")
      ∧ ¬ Delivers .sgx { status := sgxSuccess, slot := 0 } .all .inPlace
        [shortRequest, testyPayload] (ascii "testy")
      ∧ ¬ Delivers .noSgx { status := sgxSuccess, slot := 0 } .all .inPlace
        [shortRequest, testyPayload] (ascii "testy") := by
  have hsegments : Segments [shortRequest, testyPayload] (ascii "testy") :=
    ⟨by decide, by decide, by decide⟩
  have hnot : ¬ HoldsStream .inPlace [shortRequest, testyPayload] := by
    -- The first byte of the payload is missed at once, a zero stands behind the header.
    intro hholds
    have := hholds 16 (by decide)
    exact absurd this (by decide)
  refine ⟨hsegments, ?_, ?_⟩
  . rw [hsegments.delivers_iff _ _ _ rfl Allocator.inPlace_realloc]
    exact fun h => hnot h.2.2
  . rw [hsegments.delivers_iff _ _ _ rfl Allocator.inPlace_realloc]
    exact fun h => hnot h.2.2

end Server
