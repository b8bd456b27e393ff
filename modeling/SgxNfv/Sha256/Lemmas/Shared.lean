import SgxNfv.Sha256.Impl.Shared
import SgxNfv.Sha256.Lemmas.Digest

/-!
This module contains the verification of the hash of a packet that the application can write to while
the enclave reads it.
-/

open C

namespace SHA256

/--
The numbers of the reads of `n` blocks, behind `reads` others.
-/
def blockTimes (order : ReadOrder) : (n reads : Nat) → List Nat
  | 0, _ => []
  | n + 1, reads => order.times reads 64 ++ blockTimes order n (reads + 64)

theorem perm_blockTimes (order : ReadOrder) (n reads : Nat)
    : (blockTimes order n reads).Perm (List.range' reads (64 * n)) := by
  induction n generalizing reads with
  | zero => exact .refl _
  | succ n ih =>
    rw [blockTimes, Nat.mul_succ, Nat.add_comm (64 * n)]
    exact SharedMemory.perm_range'_append (order.perm reads 64) (ih (reads + 64))

theorem length_blockTimes (order : ReadOrder) (n reads : Nat)
    : (blockTimes order n reads).length = 64 * n := by
  rw [(perm_blockTimes order n reads).length_eq, List.length_range']

section

variable {mem : SharedMemory} {order : ReadOrder}

theorem transformSharedFrom_eq {base n i : Nat} (hfits : base + 64 * (i + n) ≤ mem.size)
    (reads : Nat) (mH : Vector UInt32 8) {pre : List UInt8} (hpre : 64 * i = pre.length)
    (post : List UInt8)
    : transformSharedFrom mem order base n i reads mH
        =
      (transformFrom (pre ++ (mem.readAt (blockTimes order n reads) (base + 64 * i) ++ post)) n i
        mH).map fun mH => (mH, reads + 64 * n) := by
  induction n generalizing i reads mH pre with
  | zero => rfl
  | succ n ih =>
    rw [transformSharedFrom, transformFrom]
    unfold shlInt
    split
    . next hin =>
      have hoff : ((i : Int) * 2 ^ 6).toNat = 64 * i := by omega
      have hsplit : mem.readAt (blockTimes order (n + 1) reads) (base + 64 * i)
          = mem.readAt (order.times reads 64) (base + 64 * i)
            ++ mem.readAt (blockTimes order n (reads + 64)) (base + 64 * (i + 1)) := by
        rw [blockTimes, SharedMemory.readAt_append, SharedMemory.length_times]
        rfl
      have hnext := @ih (i + 1) (by omega) (reads + 64)
        (transformBlock mH (mem.readAt (order.times reads 64) (base + 64 * i)))
        (pre ++ mem.readAt (order.times reads 64) (base + 64 * i))
        (by rw [List.length_append, SharedMemory.length_readAt, SharedMemory.length_times]; omega)
      rw [Except.ok_bind, Except.ok_bind, hoff, SharedMemory.slice_ok (by omega), Except.ok_bind, hsplit,
        List.append_assoc, slice_append hpre (by simp), Except.ok_bind, hnext, List.append_assoc]
      congr 2
      funext mH
      congr 1
      omega
    . rfl

theorem transformShared_eq {base : Nat} {blockNb : UInt32} (hmax : blockNb.toNat ≤ intMax)
    (hfits : base + 64 * blockNb.toNat ≤ mem.size) (reads : Nat) (mH : Vector UInt32 8)
    (post : List UInt8)
    : transformShared mH mem order base blockNb reads
        =
      (transform mH (mem.readAt (blockTimes order blockNb.toNat reads) base ++ post) blockNb).map
        fun mH => (mH, reads + 64 * blockNb.toNat) := by
  have hint : (toInt blockNb.toNat).toNat = blockNb.toNat := by
    rw [toInt_of_nonneg (Int.natCast_nonneg _) (by omega)]
    exact Int.toNat_natCast _
  rw [transformShared, transform, hint]
  exact @transformSharedFrom_eq mem order base _ 0 (by omega) reads mH [] rfl post

/--
What `update` reads of a message, taken together: the first bytes, the blocks, and the rest.
-/
theorem blocks_split {len remLen : UInt32} (hle : remLen ≤ len)
    : ((len - remLen) / 64).toNat ≤ intMax
        ∧ (((len - remLen) / 64) <<< 6).toNat = 64 * ((len - remLen) / 64).toNat
        ∧ remLen.toNat + 64 * ((len - remLen) / 64).toNat + ((len - remLen) % 64).toNat = len.toNat := by
  have hlen := len.toNat_lt
  have hle' := UInt32.le_iff_toNat_le.mp hle
  have hblockNb : ((len - remLen) / 64).toNat = (len.toNat - remLen.toNat) / 64 := by
    rw [UInt32.toNat_div, UInt32.toNat_sub_of_le _ _ hle]
    rfl
  have hrest : ((len - remLen) % 64).toNat = (len.toNat - remLen.toNat) % 64 := by
    rw [UInt32.toNat_mod, UInt32.toNat_sub_of_le _ _ hle]
    rfl
  have hsix : (6 : UInt32).toNat = 6 := rfl
  refine ⟨by simp only [intMax]; omega, ?_, by omega⟩
  rw [toNat_shiftLeft_lt (by decide) (by rw [hblockNb, hsix]; omega), hsix, Nat.mul_comm]
  rfl

theorem updateShared_of_lt {s : SHA256} (hmLen : s.mLen = 0) {len : UInt32} (hshort : len < 64)
    (hfits : len.toNat ≤ mem.size) (order : ReadOrder)
    : s.updateShared mem order len
        =
      (s.update (mem.readAt (order.times 0 len.toNat) 0) len).map fun s => (s, len.toNat) := by
  have hslice := @slice_append [] (mem.readAt (order.times 0 len.toNat) 0) [] 0 len.toNat rfl (by simp)
  rw [List.nil_append, List.append_nil] at hslice
  unfold updateShared update
  generalize hrem : (if len < 64 - s.mLen then len else 64 - s.mLen) = remLen
  have hall : remLen = len := by
    rw [← hrem, hmLen, if_pos (by simpa using hshort)]
  simp only [hrem, hall, SharedMemory.slice_ok (Nat.zero_add len.toNat ▸ hfits), hslice, Except.ok_bind]
  cases hwrite : s.write s.mLen.toNat (mem.readAt (order.times 0 len.toNat) 0) with
  | error e => rfl
  | ok s1 =>
    have hless : s1.mLen + len < 64 := by
      rw [mLen_write hwrite, hmLen, UInt32.zero_add]
      exact hshort
    rw [Except.ok_bind, Except.ok_bind, if_pos hless, if_pos hless]
    rfl

/--
The numbers of the reads of a message that is at least one block long: the block that is filled up, the
blocks behind it, and the rest.
-/
def longTimes (order : ReadOrder) (blockNb rest : Nat) : List Nat :=
  order.times 0 64 ++ (blockTimes order blockNb 64 ++ order.times (64 + 64 * blockNb) rest)

theorem perm_longTimes (order : ReadOrder) (blockNb rest : Nat)
    : (longTimes order blockNb rest).Perm (List.range' 0 (64 + (64 * blockNb + rest))) := by
  apply SharedMemory.perm_range'_append (order.perm 0 64)
  rw [Nat.zero_add]
  exact SharedMemory.perm_range'_append (perm_blockTimes order blockNb 64) (order.perm _ rest)

theorem updateShared_of_le {s : SHA256} (hmLen : s.mLen = 0) {len : UInt32} (hlong : 64 ≤ len)
    (hfits : len.toNat ≤ mem.size) (order : ReadOrder)
    : s.updateShared mem order len
        =
      (s.update (mem.readAt (longTimes order ((len - 64) / 64).toNat ((len - 64) % 64).toNat) 0) len).map
        fun s => (s, len.toNat) := by
  rcases blocks_split hlong with ⟨hmax, hshift, hsum⟩
  have hsixty : (64 : UInt32).toNat = 64 := rfl
  rw [hsixty] at hsum
  unfold updateShared update
  generalize hrem : (if len < 64 - s.mLen then len else 64 - s.mLen) = remLen
  have hall : remLen = 64 := by
    rw [← hrem, hmLen, UInt32.sub_zero, if_neg (UInt32.not_lt.mpr hlong)]
  subst hall
  simp only [hrem, hsixty]
  generalize (len - 64) / 64 = blockNb at *
  generalize (len - 64) % 64 = rest at *
  rw [longTimes, SharedMemory.readAt_append, SharedMemory.readAt_append, SharedMemory.length_times,
    length_blockTimes, SharedMemory.slice_ok (by omega), Nat.zero_add]
  have hshared := @transformShared_eq mem order 64 blockNb hmax (by omega) 64
  have hrest := @SharedMemory.slice_ok mem order (64 + 64 * blockNb.toNat) (64 + 64 * blockNb.toNat)
    rest.toNat (by omega)
  have hfirst := @SharedMemory.length_readAt mem (order.times 0 64) 0
  have hblocks := @SharedMemory.length_readAt mem (blockTimes order blockNb.toNat 64) 64
  have htail := @SharedMemory.length_readAt mem
    (order.times (64 + 64 * blockNb.toNat) rest.toNat) (64 + 64 * blockNb.toNat)
  rw [SharedMemory.length_times] at hfirst htail
  rw [length_blockTimes] at hblocks
  generalize mem.readAt (order.times 0 64) 0 = first at *
  generalize mem.readAt (blockTimes order blockNb.toNat 64) 64 = blocks at *
  generalize mem.readAt (order.times (64 + 64 * blockNb.toNat) rest.toNat) (64 + 64 * blockNb.toNat)
    = tail at *
  have hblock : slice (first ++ (blocks ++ tail)) 0 64 = .ok first :=
    @slice_append [] first (blocks ++ tail) 0 64 rfl hfirst.symm
  have hslice : slice (blocks ++ tail) (64 * blockNb.toNat) rest.toNat = .ok tail := by
    have := @slice_append blocks tail [] _ _ hblocks.symm htail.symm
    rwa [List.append_nil] at this
  rw [hblock, Except.ok_bind, Except.ok_bind]
  cases hwrite : s.write s.mLen.toNat first with
  | error e => rfl
  | ok s1 =>
    have hge : ¬ s1.mLen + len < 64 := by
      rw [mLen_write hwrite, hmLen, UInt32.zero_add]
      exact UInt32.not_lt.mpr hlong
    rw [Except.ok_bind, Except.ok_bind, if_neg hge, if_neg hge]
    cases transform s1.mH s1.mBlock 1 with
    | error e => rfl
    | ok mH1 =>
      rw [Except.ok_bind, Except.ok_bind, hshared mH1 tail, List.drop_left' hfirst]
      cases transform mH1 (blocks ++ tail) blockNb with
      | error e => rfl
      | ok mH2 =>
        simp only [Except.map, Except.ok_bind]
        rw [hshift, hrest, hslice, hsum, Except.ok_bind, Except.ok_bind]
        cases s1.write 0 tail with
        | error e => rfl
        | ok s2 => rfl

/--
An object without bytes in its block reads each byte of the packet once.
-/
theorem updateShared_eq {s : SHA256} (hmLen : s.mLen = 0) {len : UInt32} (hfits : len.toNat ≤ mem.size)
    (order : ReadOrder)
    : ∃ times, times.Perm (List.range' 0 len.toNat)
        ∧ s.updateShared mem order len
          = (s.update (mem.readAt times 0) len).map fun s => (s, len.toNat) := by
  by_cases hshort : len < 64
  . exact ⟨_, order.perm 0 len.toNat, updateShared_of_lt hmLen hshort hfits order⟩
  . have hlong := UInt32.not_lt.mp hshort
    refine ⟨_, ?_, updateShared_of_le hmLen hlong hfits order⟩
    have hperm := perm_longTimes order ((len - 64) / 64).toNat ((len - 64) % 64).toNat
    have hsum := (blocks_split hlong).2.2
    rw [← hsum, Nat.add_assoc]
    exact hperm

theorem le_size_of_updateShared {s : SHA256} (hmLen : s.mLen = 0) {len : UInt32} {res : SHA256 × Nat}
    (h : s.updateShared mem order len = .ok res) : len.toNat ≤ mem.size := by
  unfold updateShared at h
  rcases Except.bind_eq_ok.mp h with ⟨bytes, hbytes, h⟩
  rcases Except.bind_eq_ok.mp h with ⟨s1, hwrite, h⟩
  have hremLen := remLen_le len (64 - s.mLen)
  have hfirst := SharedMemory.slice_le hbytes
  generalize hrem : (if len < 64 - s.mLen then len else 64 - s.mLen) = remLen at *
  split at h
  . next hshort =>
    have hall : remLen = len := by
      rw [mLen_write hwrite, hmLen, UInt32.zero_add] at hshort
      rw [← hrem, hmLen, UInt32.sub_zero, if_pos hshort]
    rw [hall] at hfirst
    omega
  . rcases Except.bind_eq_ok.mp h with ⟨mH1, _, h⟩
    rcases Except.bind_eq_ok.mp h with ⟨⟨mH2, reads⟩, _, h⟩
    rcases Except.bind_eq_ok.mp h with ⟨rest, hrest, _⟩
    rcases blocks_split hremLen with ⟨_, hshift, hsum⟩
    have hlast := SharedMemory.slice_le hrest
    omega

end

/--
Whatever the application writes during the call, and in whatever order the bytes are read: each of them is
read once, and the digest is that of the bytes as they were read. A change while the enclave reads is as
good as one before the call.
-/
theorem ecallProcessPacketSha256Shared_eq (digest : SHA256) (mem : SharedMemory) (order : ReadOrder)
    (length : UInt32)
    : (length.toNat ≤ mem.size → ∃ times, times.Perm (List.range' 0 length.toNat)
          ∧ ecallProcessPacketSha256Shared digest mem order length
            = (ecallProcessPacketSha256 digest (mem.readAt times 0) length).map
                (fun hash => (hash, length.toNat))
          ∧ (length.toNat < 2 ^ 29 → ecallProcessPacketSha256Shared digest mem order length
            = .ok (FIPS180.sha256 (mem.readAt times 0), length.toNat)))
        ∧ (mem.size < length.toNat → ∀ res,
          ecallProcessPacketSha256Shared digest mem order length ≠ .ok res) := by
  constructor
  . intro hfits
    rcases updateShared_eq (s := digest.init) rfl hfits order with ⟨times, hperm, hupdate⟩
    have hlength : (mem.readAt times 0).length = length.toNat := by
      rw [SharedMemory.length_readAt, hperm.length_eq, List.length_range']
    have heq : ecallProcessPacketSha256Shared digest mem order length
        = (ecallProcessPacketSha256 digest (mem.readAt times 0) length).map
            (fun hash => (hash, length.toNat)) := by
      rw [ecallProcessPacketSha256Shared, ecallProcessPacketSha256, hupdate]
      cases digest.init.update (mem.readAt times 0) length with
      | error e => rfl
      | ok s =>
        rw [Except.ok_bind]
        cases hfinal : s.final with
        | error e => simp [Except.map, hfinal]
        | ok hash => simp [Except.map, hfinal]
    refine ⟨times, hperm, heq, fun hmax => ?_⟩
    rw [heq, ecallProcessPacketSha256, hashOnce_eq digest hlength.symm (by rw [hlength]; exact hmax)]
    rfl
  . intro hless res hres
    rcases Except.bind_eq_ok.mp hres with ⟨s, hupdate, _⟩
    have := le_size_of_updateShared (s := digest.init) rfl hupdate
    omega

/--
The bytes from the last one down to the first.
-/
def descending : ReadOrder where
  times t n := (List.range' t n).reverse
  perm _ _ := List.reverse_perm _

/--
Every read finds another byte than the one before it has found.
-/
def changing : SharedMemory where
  size := 3
  bytes t _ := 0x61 + UInt8.ofNat t

theorem ecallProcessPacketSha256Shared_eq_abc
    : ∃ times, times.Perm [0, 1, 2] ∧ ecallProcessPacketSha256Shared garbage changing descending 3
        = .ok (FIPS180.sha256 (changing.readAt times 0), 3) := by
  rcases (ecallProcessPacketSha256Shared_eq garbage changing descending 3).1 (by decide)
    with ⟨times, hperm, _, hhash⟩
  exact ⟨times, hperm, hhash (by decide)⟩

end SHA256
