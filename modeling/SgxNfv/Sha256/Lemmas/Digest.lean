import Mathlib.Tactic.IntervalCases
import SgxNfv.Sha256.Lemmas.Transform

/-!
This module contains the verification of the class `SHA256`: however a message is divided into calls
of `update`, `final` writes its SHA-256 digest.
-/

open C

namespace SHA256

/--
The object has taken in the message `msg`: its complete blocks are hashed, the rest is at the start
of `m_block`.
-/
structure Represents (s : SHA256) (msg : List UInt8) : Prop where
  mH : toWork s.mH = BlockHash.absorb FIPS180.compress 64 FIPS180.initial msg
  mLen : s.mLen.toNat = msg.length % 64
  mBlock : s.mBlock.take (msg.length % 64) = BlockHash.rest 64 msg
  mTotLen : s.mTotLen.toNat = msg.length / 64 * 64

theorem toNat_shiftLeft_lt {x n : UInt32} (hn : n.toNat < 32) (hx : x.toNat * 2 ^ n.toNat < 2 ^ 32)
    : (x <<< n).toNat = x.toNat * 2 ^ n.toNat := by
  rw [UInt32.toNat_shiftLeft, Nat.mod_eq_of_lt hn, Nat.shiftLeft_eq, Nat.mod_eq_of_lt hx]

theorem write_append (s : SHA256) {pre old post bytes : List UInt8} {off : Nat}
    (hblock : s.mBlock = pre ++ old ++ post) (hoff : off = pre.length)
    (hlen : bytes.length ≤ old.length)
    : ∃ s', s.write off bytes = .ok s'
        ∧ s'.mBlock = pre ++ (bytes ++ old.drop bytes.length) ++ post
        ∧ s'.mH = s.mH ∧ s'.mLen = s.mLen ∧ s'.mTotLen = s.mTotLen := by
  have hstore : store s.mBlock off bytes
      = .ok (pre ++ (bytes ++ old.drop bytes.length) ++ post) := by
    rw [hblock, store_append _ hlen]
    rw [hoff]
  unfold write
  split
  . next e he =>
    rw [hstore] at he
    simp at he
  . next mBlock he =>
    rw [hstore] at he
    exact ⟨_, rfl, (Except.ok.inj he).symm, rfl, rfl, rfl⟩

theorem toWork_initial
    : toWork #v[0x6a09e667, 0xbb67ae85, 0x3c6ef372, 0xa54ff53a, 0x510e527f, 0x9b05688c, 0x1f83d9ab,
        0x5be0cd19]
        =
      FIPS180.initial := by decide +kernel

theorem represents_init (object : SHA256) : Represents object.init [] := by
  constructor
  . rw [BlockHash.absorb_of_lt (by decide)]
    exact toWork_initial
  . rfl
  . rfl
  . rfl

section

variable {s : SHA256} {msg chunk : List UInt8}

theorem Represents.mBlock_eq (h : Represents s msg)
    : s.mBlock = BlockHash.rest 64 msg ++ s.mBlock.drop (msg.length % 64) := by
  rw [← h.mBlock, List.take_append_drop]

theorem Represents.length_rest (h : Represents s msg)
    : (BlockHash.rest 64 msg).length = s.mLen.toNat := by
  rw [BlockHash.length_rest, h.mLen]

theorem Represents.write_chunk (h : Represents s msg) {n : Nat}
    (hfits : msg.length % 64 + (chunk.take n).length ≤ 64)
    : ∃ s' tail, s.write s.mLen.toNat (chunk.take n) = .ok s'
        ∧ s'.mBlock = BlockHash.rest 64 msg ++ chunk.take n ++ tail
        ∧ s'.mH = s.mH ∧ s'.mLen = s.mLen ∧ s'.mTotLen = s.mTotLen := by
  have hsize := s.size_mBlock
  have hblock : s.mBlock = BlockHash.rest 64 msg ++ s.mBlock.drop (msg.length % 64) ++ [] := by
    rw [List.append_nil, ← h.mBlock_eq]
  rcases @write_append s _ _ _ (chunk.take n) s.mLen.toNat hblock h.length_rest.symm
    (by rw [List.length_drop]; omega) with ⟨s', hwrite, hmBlock, hfields⟩
  refine ⟨s', (s.mBlock.drop (msg.length % 64)).drop (chunk.take n).length, hwrite, ?_, hfields⟩
  rw [hmBlock, List.append_nil, List.append_assoc]

theorem Represents.remLen_eq (h : Represents s msg) (len : UInt32)
    : (if len < 64 - s.mLen then len else 64 - s.mLen).toNat
        =
      min len.toNat (64 - msg.length % 64) := by
  have hmLen := h.mLen
  have hsub : (64 - s.mLen).toNat = 64 - msg.length % 64 := by
    rw [UInt32.toNat_sub_of_le, h.mLen]
    . rfl
    . rw [UInt32.le_iff_toNat_le, h.mLen]
      exact Nat.le_of_lt (Nat.mod_lt _ (by decide))
  simp only [UInt32.lt_iff_toNat_lt, hsub]
  split
  . omega
  . omega

theorem Represents.update_short (h : Represents s msg) {len : UInt32}
    (hlen : len.toNat = chunk.length) (hshort : msg.length % 64 + chunk.length < 64)
    : ∃ s', s.update chunk len = .ok s' ∧ Represents s' (msg ++ chunk) := by
  have hremLen := h.remLen_eq len
  have hrest : (BlockHash.rest 64 msg ++ chunk).length < 64 := by
    rw [List.length_append, BlockHash.length_rest]
    exact hshort
  have hmLen := h.mLen
  have hsum : (s.mLen + len).toNat = (msg ++ chunk).length % 64 := by
    rw [UInt32.toNat_add, hlen, List.length_append]
    omega
  rw [Nat.min_eq_left (by omega), hlen] at hremLen
  have htake : chunk.take chunk.length = chunk := List.take_length
  rcases @Represents.write_chunk s msg chunk h chunk.length (by rw [htake]; omega)
    with ⟨s', tail, hwrite, hmBlock, hmH, hmLen', hmTotLen⟩
  rw [htake] at hwrite hmBlock
  refine ⟨{ s' with mLen := s.mLen + len }, ?_, ?_⟩
  . unfold update
    simp only [hremLen]
    rw [slice_eq_ok (by omega), Except.ok_bind, List.drop_zero, htake, hwrite, Except.ok_bind,
      if_pos]
    . rw [hmLen']
      rfl
    . rw [hmLen', UInt32.lt_iff_toNat_lt, hsum, List.length_append]
      have : (64 : UInt32).toNat = 64 := rfl
      omega
  . constructor
    . rw [hmH, h.mH, BlockHash.absorb_append (by decide), BlockHash.absorb_of_lt hrest]
    . exact hsum
    . rw [BlockHash.rest_append (by decide), BlockHash.rest_of_lt hrest, hmBlock]
      apply List.take_left'
      rw [List.length_append, List.length_append, BlockHash.length_rest]
      omega
    . rw [hmTotLen, h.mTotLen, List.length_append]
      omega

theorem update_blocks (s : SHA256) {block tail shifted : List UInt8} {newLen : UInt32}
    (hmBlock : s.mBlock = block ++ tail) (hblock : block.length = 64)
    (hnewLen : newLen.toNat = shifted.length) (hmax : shifted.length < 2 ^ 29)
    : ∃ mH mH' s', transform s.mH s.mBlock 1 = .ok mH ∧ transform mH shifted (newLen / 64) = .ok mH'
        ∧ toWork mH'
            = BlockHash.absorb FIPS180.compress 64 (FIPS180.compress (toWork s.mH) block) shifted
        ∧ slice shifted ((newLen / 64) <<< 6).toNat (newLen % 64).toNat
            = .ok (BlockHash.rest 64 shifted)
        ∧ s.write 0 (BlockHash.rest 64 shifted) = .ok s'
        ∧ s'.mBlock.take (shifted.length % 64) = BlockHash.rest 64 shifted
        ∧ s'.mTotLen = s.mTotLen := by
  have hsize := s.size_mBlock
  have hone : (1 : UInt32).toNat = 1 := rfl
  have hnb : (newLen / 64).toNat = shifted.length / 64 := by
    rw [UInt32.toNat_div, hnewLen]
    rfl
  have hmod : (newLen % 64).toNat = shifted.length % 64 := by
    rw [UInt32.toNat_mod, hnewLen]
    rfl
  have hshift : ((newLen / 64) <<< 6).toNat = shifted.length / 64 * 64 := by
    have hsix : (6 : UInt32).toNat = 6 := rfl
    have hpow : 2 ^ 6 = 64 := rfl
    rw [toNat_shiftLeft_lt (by decide) (by rw [hnb, hsix]; omega), hnb, hsix, hpow]
  have hrest := BlockHash.length_rest 64 shifted
  rcases @transform_eq s.mBlock 1 s.mH (by omega) (by decide) with ⟨mH, hfirst, hwork⟩
  rcases @transform_eq shifted (newLen / 64) mH (by omega) (by simp only [intMax]; omega)
    with ⟨mH', hsecond, hwork'⟩
  rcases @write_append s [] s.mBlock [] (BlockHash.rest 64 shifted) 0 (by simp) rfl (by omega)
    with ⟨s', hwrite, hmBlock', _, _, hmTotLen⟩
  refine ⟨mH, mH', s', hfirst, hsecond, ?_, ?_, hwrite, ?_, hmTotLen⟩
  . rw [hwork', hwork, hone, hmBlock, BlockHash.blocks_append hblock, BlockHash.blocks_zero, hnb,
      BlockHash.absorb]
  . have htake : (BlockHash.rest 64 shifted).take (shifted.length % 64) = BlockHash.rest 64 shifted :=
      List.take_of_length_le (Nat.le_of_eq hrest)
    rw [hshift, hmod, slice_eq_ok (by omega), ← BlockHash.rest, htake]
  . rw [hmBlock', List.nil_append, List.append_nil]
    exact List.take_left' hrest

theorem Represents.update_long (h : Represents s msg) {len : UInt32}
    (hlen : len.toNat = chunk.length) (hlong : 64 ≤ msg.length % 64 + chunk.length)
    (hmax : msg.length + chunk.length < 2 ^ 29)
    : ∃ s', s.update chunk len = .ok s' ∧ Represents s' (msg ++ chunk) := by
  have hremLen := h.remLen_eq len
  have hmLen := h.mLen
  rw [Nat.min_eq_right (by omega)] at hremLen
  have hfirst : (chunk.take (64 - msg.length % 64)).length = 64 - msg.length % 64 := by
    rw [List.length_take]
    omega
  rcases @Represents.write_chunk s msg chunk h (64 - msg.length % 64) (by omega)
    with ⟨s1, tail, hwrite, hmBlock, hmH, hmLen', hmTotLen⟩
  -- The block that is now complete, and what the chunk has behind it.
  generalize hblock : BlockHash.rest 64 msg ++ chunk.take (64 - msg.length % 64) = block at hmBlock
  generalize hshifted : chunk.drop (64 - msg.length % 64) = shifted
  have hblockLen : block.length = 64 := by
    rw [← hblock, List.length_append, BlockHash.length_rest]
    omega
  have hshiftedLen : shifted.length = chunk.length - (64 - msg.length % 64) := by
    rw [← hshifted, List.length_drop]
  have hsplit : BlockHash.rest 64 msg ++ chunk = block ++ shifted := by
    rw [← hblock, ← hshifted, List.append_assoc, List.take_append_drop]
  generalize hrem : (if len < 64 - s.mLen then len else 64 - s.mLen) = remLen at hremLen
  have hnewLen : (len - remLen).toNat = shifted.length := by
    rw [UInt32.toNat_sub_of_le, hlen, hremLen, hshiftedLen]
    rw [UInt32.le_iff_toNat_le]
    omega
  rcases update_blocks s1 hmBlock hblockLen hnewLen (by omega)
    with ⟨mH, mH', s2, htransform, htransform', hwork, hslice, hwrite', hkeep, hmTotLen'⟩
  refine ⟨{
      s2 with
      mH := mH'
      mLen := (len - remLen) % 64
      mTotLen := s2.mTotLen + (((len - remLen) / 64 + 1) <<< 6)
    }, ?_, ?_⟩
  . unfold update
    simp only [hrem]
    rw [slice_eq_ok (by omega), Except.ok_bind, List.drop_zero, hremLen, hwrite, Except.ok_bind,
      if_neg]
    . rw [htransform, Except.ok_bind, hshifted, htransform', Except.ok_bind, hslice, Except.ok_bind,
        hwrite']
      rfl
    . rw [hmLen', UInt32.lt_iff_toNat_lt, UInt32.toNat_add, hlen, h.mLen]
      have : (64 : UInt32).toNat = 64 := rfl
      omega
  . have hmod : (msg ++ chunk).length % 64 = shifted.length % 64 := by
      rw [List.length_append]
      omega
    constructor
    . rw [hwork, hmH, h.mH, BlockHash.absorb_append (by decide), hsplit,
        BlockHash.absorb_block (by decide) hblockLen]
    . rw [UInt32.toNat_mod, hnewLen, hmod]
      rfl
    . rw [hmod, BlockHash.rest_append (by decide), hsplit, BlockHash.rest_block (by decide) hblockLen]
      exact hkeep
    . have hnb : ((len - remLen) / 64 + 1).toNat = shifted.length / 64 + 1 := by
        have hsix : (64 : UInt32).toNat = 64 := rfl
        have hone : (1 : UInt32).toNat = 1 := rfl
        rw [UInt32.toNat_add, UInt32.toNat_div, hnewLen, hsix, hone]
        omega
      have hsix : (6 : UInt32).toNat = 6 := rfl
      rw [hmTotLen', hmTotLen, UInt32.toNat_add, h.mTotLen,
        toNat_shiftLeft_lt (by decide) (by rw [hnb, hsix]; omega), hnb, hsix, List.length_append]
      omega

theorem Represents.update (h : Represents s msg) {len : UInt32} (hlen : len.toNat = chunk.length)
    (hmax : msg.length + chunk.length < 2 ^ 29)
    : ∃ s', s.update chunk len = .ok s' ∧ Represents s' (msg ++ chunk) := by
  cases Nat.lt_or_ge (msg.length % 64 + chunk.length) 64 with
  | inl hshort => exact h.update_short hlen hshort
  | inr hlong => exact h.update_long hlen hlong hmax

theorem be64_of_lt {n : Nat} (h : n < 2 ^ 32)
    : FIPS180.be64 n = List.replicate 4 0 ++ FIPS180.wordBytes (UInt32.ofNat n) := by
  have hbyte : ∀ i, (⟨(UInt32.ofNat n).toBitVec.extractLsb' i 8⟩ : UInt8) = UInt8.ofNat (n / 2 ^ i) := by
    intro i
    rw [← UInt8.toNat_inj, UInt8.toNat_ofNat']
    change (BitVec.extractLsb' i 8 (UInt32.ofNat n).toBitVec).toNat = _
    rw [BitVec.extractLsb'_toNat, UInt32.toNat_toBitVec, UInt32.toNat_ofNat', Nat.mod_eq_of_lt h,
      Nat.shiftRight_eq_div_pow]
  have h32 : n / 2 ^ 32 = 0 := Nat.div_eq_of_lt h
  have h40 : n / 2 ^ 40 = 0 := Nat.div_eq_of_lt (by omega)
  have h48 : n / 2 ^ 48 = 0 := Nat.div_eq_of_lt (by omega)
  have h56 : n / 2 ^ 56 = 0 := Nat.div_eq_of_lt (by omega)
  simp only [FIPS180.be64, FIPS180.wordBytes, hbyte, h32, h40, h48, h56]
  simp

theorem padding_eq {len n : Nat} {lenB : UInt32} (hn : 9 ≤ n) (hn' : n ≤ 72)
    (hmod : (len + n) % 64 = 0) (hlenB : lenB.toNat = 8 * len)
    : FIPS180.padding len = [0x80] ++ List.replicate (n - 5) 0 ++ sha2Unpack32 lenB := by
  have hlt : 8 * len < 2 ^ 32 := by
    rw [← hlenB]
    exact lenB.toNat_lt
  have hofNat : UInt32.ofNat (8 * len) = lenB := by
    rw [← hlenB, UInt32.ofNat_toNat]
  have hzeros : (119 - len % 64) % 64 + 4 = n - 5 := by omega
  rw [FIPS180.padding, be64_of_lt hlt, hofNat, sha2Unpack32_eq, ← List.append_assoc,
    List.replicate_append_replicate, hzeros]
  rfl

theorem Represents.write_padding (h : Represents s msg) {n : Nat} {lenB : UInt32}
    (hn : 9 ≤ n) (hn' : n ≤ 72)
    (hmod : (msg.length + n) % 64 = 0) (hlenB : lenB.toNat = 8 * msg.length)
    : ∃ s1 s2 s3 tail, s.write s.mLen.toNat (List.replicate n 0) = .ok s1
        ∧ s1.write s1.mLen.toNat [0x80] = .ok s2
        ∧ s2.write (msg.length % 64 + n - 4) (sha2Unpack32 lenB) = .ok s3
        ∧ s3.mBlock = BlockHash.rest 64 msg ++ FIPS180.padding msg.length ++ tail
        ∧ s1.mLen = s.mLen ∧ s3.mH = s.mH := by
  have hsize := s.size_mBlock
  have hrest := BlockHash.length_rest 64 msg
  have hblock : s.mBlock = BlockHash.rest 64 msg ++ s.mBlock.drop (msg.length % 64) ++ [] := by
    rw [List.append_nil, ← h.mBlock_eq]
  rcases @write_append s _ _ _ (List.replicate n 0) s.mLen.toNat hblock h.length_rest.symm
    (by rw [List.length_drop, List.length_replicate]; omega)
    with ⟨s1, hzeros, hmBlock1, hmH1, hmLen1, _⟩
  generalize (s.mBlock.drop (msg.length % 64)).drop (List.replicate n (0 : UInt8)).length = tail
    at hmBlock1
  rw [List.append_nil, ← List.append_assoc] at hmBlock1
  rcases @write_append s1 _ _ _ [0x80] s1.mLen.toNat hmBlock1 (by rw [hmLen1, h.length_rest])
    (by rw [List.length_replicate]; exact Nat.le_trans (by decide) hn)
    with ⟨s2, hmark, hmBlock2, hmH2, _, _⟩
  have hmBlock2' : s2.mBlock
      = (BlockHash.rest 64 msg ++ [0x80] ++ List.replicate (n - 5) 0) ++ List.replicate 4 0
        ++ tail := by
    have hn4 : n - 1 = (n - 5) + 4 := by omega
    rw [hmBlock2, List.drop_replicate, List.length_singleton, hn4,
      ← List.replicate_append_replicate]
    simp only [List.append_assoc]
  rcases @write_append s2 _ _ _ (sha2Unpack32 lenB) (msg.length % 64 + n - 4) hmBlock2'
    (by
      rw [List.length_append, List.length_append, List.length_replicate, List.length_singleton, hrest]
      omega)
    (Nat.le_refl 4) with ⟨s3, hlength, hmBlock3, hmH3, _, _⟩
  refine ⟨s1, s2, s3, tail, hzeros, hmark, hlength, ?_, hmLen1, by rw [hmH3, hmH2, hmH1]⟩
  have hdrop : (List.replicate 4 (0 : UInt8)).drop (sha2Unpack32 lenB).length = [] := rfl
  rw [hmBlock3, padding_eq hn hn' hmod hlenB, hdrop, List.append_nil]
  simp only [List.append_assoc]

theorem pmLen_eq {mLen nb : UInt32} {m : Nat} (hmLen : mLen.toNat = m) (hnb : nb.toNat ≤ 2)
    (hm : m ≤ 64 * nb.toNat)
    : (nb <<< 6).toNat = 64 * nb.toNat ∧ (nb <<< 6 - mLen).toNat = 64 * nb.toNat - m := by
  have hsix : (6 : UInt32).toNat = 6 := rfl
  have hshift : (nb <<< 6).toNat = 64 * nb.toNat := by
    rw [toNat_shiftLeft_lt (by decide) (by rw [hsix]; omega), hsix]
    omega
  have hle : mLen ≤ nb <<< 6 := by
    rw [UInt32.le_iff_toNat_le, hmLen, hshift]
    exact hm
  exact ⟨hshift, by rw [UInt32.toNat_sub_of_le _ _ hle, hshift, hmLen]⟩

theorem blockNb_eq {mLen : UInt32} {m : Nat} (hmLen : mLen.toNat = m) (hm : m < 64)
    : ∃ nb : UInt32, 1 + (if 64 - 9 < mLen % 64 then 1 else 0) = nb
        ∧ (nb <<< 6).toNat = 64 * nb.toNat ∧ nb.toNat ≤ 2
        ∧ (nb <<< 6 - mLen).toNat = 64 * nb.toNat - m
        ∧ m + 9 ≤ 64 * nb.toNat ∧ 64 * nb.toNat ≤ m + 72 := by
  have hmod : (mLen % 64).toNat = m := by
    have h64 : (64 : UInt32).toNat = 64 := rfl
    rw [UInt32.toNat_mod, hmLen, h64]
    exact Nat.mod_eq_of_lt hm
  have h55 : (64 - 9 : UInt32).toNat = 55 := rfl
  split
  . next htwo =>
    -- The padding does not fit behind the rest, it goes on in a second block.
    rw [UInt32.lt_iff_toNat_lt, hmod, h55] at htwo
    have hnb : (1 + 1 : UInt32).toNat = 2 := rfl
    rcases @pmLen_eq mLen (1 + 1) m hmLen (by omega) (by omega) with ⟨hshift, hsub⟩
    exact ⟨1 + 1, rfl, hshift, by omega, hsub, by omega, by omega⟩
  . next hone =>
    rw [UInt32.lt_iff_toNat_lt, hmod, h55] at hone
    have hnb : (1 + 0 : UInt32).toNat = 1 := rfl
    rcases @pmLen_eq mLen (1 + 0) m hmLen (by omega) (by omega) with ⟨hshift, hsub⟩
    exact ⟨1 + 0, rfl, hshift, by omega, hsub, by omega, by omega⟩

theorem bytes_toWork (mH : Vector UInt32 8) : (toWork mH).bytes = mH.toList.flatMap sha2Unpack32 := by
  have hunpack : sha2Unpack32 = FIPS180.wordBytes := funext sha2Unpack32_eq
  have hlist : [mH[0]!, mH[1]!, mH[2]!, mH[3]!, mH[4]!, mH[5]!, mH[6]!, mH[7]!] = mH.toList := by
    apply List.ext_getElem
    . rw [Vector.length_toList]
      rfl
    . intro i hi _
      have hsize : i < 8 := hi
      rw [Vector.getElem_toList]
      interval_cases i <;> rfl
  rw [hunpack, ← hlist]
  rfl

theorem Represents.final (h : Represents s msg) (hmax : msg.length < 2 ^ 29)
    : s.final = .ok (FIPS180.sha256 msg) := by
  have hmLen := h.mLen
  have hthree : (3 : UInt32).toNat = 3 := rfl
  have hsum : (s.mTotLen + s.mLen).toNat = msg.length := by
    rw [UInt32.toNat_add, h.mTotLen, h.mLen]
    omega
  have hlenB : ((s.mTotLen + s.mLen) <<< 3).toNat = 8 * msg.length := by
    rw [toNat_shiftLeft_lt (by decide) (by rw [hsum, hthree]; omega), hsum, hthree]
    omega
  have hrest := BlockHash.length_rest 64 msg
  rcases blockNb_eq hmLen (Nat.mod_lt _ (by decide))
    with ⟨nb, hnb, hpmLen, hnb', hzeros, hroom, hroom'⟩
  rcases @Represents.write_padding s msg h (64 * nb.toNat - msg.length % 64)
    ((s.mTotLen + s.mLen) <<< 3) (by omega) (by omega) (by omega) hlenB
    with ⟨s1, s2, s3, tail, hwrite, hwrite', hwrite'', hmBlock, hmLen1, hmH⟩
  -- The rest and its padding are exactly the `nb` blocks that are hashed last.
  have hend : msg.length % 64 + (64 * nb.toNat - msg.length % 64) = 64 * nb.toNat := by omega
  rw [hend] at hwrite''
  have hblocks : (BlockHash.rest 64 msg ++ FIPS180.padding msg.length).length = nb.toNat * 64 := by
    rw [List.length_append, hrest,
      @padding_eq msg.length (64 * nb.toNat - msg.length % 64) _ (by omega) (by omega) (by omega)
        hlenB,
      List.length_append, List.length_append, List.length_singleton, List.length_replicate,
      sha2Unpack32, List.length_cons, List.length_cons, List.length_cons, List.length_cons,
      List.length_nil]
    omega
  have hsize := s3.size_mBlock
  rcases @transform_eq s3.mBlock nb s3.mH (by omega) (by simp only [intMax]; omega)
    with ⟨mH, htransform, hwork⟩
  have hdigest : toWork mH
      = BlockHash.absorb FIPS180.compress 64 FIPS180.initial (msg ++ FIPS180.padding msg.length) := by
    rw [hwork, hmBlock, BlockHash.blocks_prefix (Nat.le_of_eq hblocks.symm),
      ← BlockHash.absorb_eq_blocks (by decide) hblocks, hmH, h.mH,
      ← BlockHash.absorb_append (by decide)]
  unfold SHA256.final finalObject
  simp only [hnb, hpmLen, hzeros]
  rw [hwrite, Except.ok_bind, hwrite', Except.ok_bind, hwrite'', Except.ok_bind, htransform,
    Except.ok_bind, FIPS180.sha256, ← hdigest, bytes_toWork]
  rfl

end

theorem Represents.updates {s : SHA256} {msg : List UInt8} (h : Represents s msg)
    {chunks : List (List UInt8)} (hmax : msg.length + chunks.flatten.length < 2 ^ 29)
    : ∃ s', s.updates chunks = .ok s' ∧ Represents s' (msg ++ chunks.flatten) := by
  induction chunks generalizing s msg with
  | nil =>
    refine ⟨s, rfl, ?_⟩
    rw [List.flatten_nil, List.append_nil]
    exact h
  | cons chunk chunks ih =>
    rw [List.flatten_cons, List.length_append] at hmax
    have hlen : (UInt32.ofNat chunk.length).toNat = chunk.length := by
      rw [UInt32.toNat_ofNat']
      exact Nat.mod_eq_of_lt (by omega)
    rcases h.update hlen (by omega) with ⟨s1, hupdate, h1⟩
    rcases @ih s1 (msg ++ chunk) h1 (by rw [List.length_append]; omega) with ⟨s', hupdates, h'⟩
    refine ⟨s', ?_, ?_⟩
    . rw [SHA256.updates, hupdate, Except.ok_bind, hupdates]
    . rw [List.flatten_cons, ← List.append_assoc]
      exact h'

theorem hashChunks_eq (object : SHA256) {chunks : List (List UInt8)}
    (hmax : chunks.flatten.length < 2 ^ 29)
    : hashChunks object chunks = .ok (FIPS180.sha256 chunks.flatten) := by
  rcases @Represents.updates _ _ (represents_init object) chunks
    (by rw [List.length_nil]; omega) with ⟨s, hupdates, h⟩
  rw [List.nil_append] at h
  rw [hashChunks, hupdates, Except.ok_bind, h.final hmax]

theorem hashOnce_eq (object : SHA256) {data : List UInt8} {length : UInt32}
    (hlength : length.toNat = data.length) (hmax : data.length < 2 ^ 29)
    : (object.init.update data length >>= SHA256.final) = .ok (FIPS180.sha256 data) := by
  rcases (represents_init object).update hlength (by rw [List.length_nil]; omega)
    with ⟨s, hupdate, h⟩
  rw [hupdate, Except.ok_bind, h.final hmax, List.nil_append]

theorem hash_eq (object : SHA256) {data : List UInt8} {length : UInt32}
    (hlength : length.toNat = data.length) (hmax : data.length < 2 ^ 29)
    : ∃ object', object.hash data length = .ok (object', FIPS180.sha256 data) := by
  rcases Except.bind_eq_ok.mp (hashOnce_eq object hlength hmax) with ⟨s, hupdate, hfinal⟩
  rcases Except.bind_eq_ok.mp hfinal with ⟨object', hobject, _⟩
  refine ⟨object', ?_⟩
  unfold hash
  rw [hupdate, Except.ok_bind, hobject, Except.ok_bind, hfinal]
  rfl

theorem mLen_write {s s' : SHA256} {off : Nat} {bytes : List UInt8} (h : s.write off bytes = .ok s')
    : s'.mLen = s.mLen := by
  unfold write at h
  split at h
  . simp at h
  . rw [← Except.ok.inj h]

theorem remLen_le (len tmpLen : UInt32) : (if len < tmpLen then len else tmpLen) ≤ len := by
  split
  . exact UInt32.le_refl len
  . next hge => exact UInt32.not_lt.mp hge

theorem update_take (s : SHA256) (message : List UInt8) (len : UInt32) (hshort : s.mLen + len < 64)
    : s.update (message.take len.toNat) len = s.update message len := by
  unfold update
  generalize hrem : (if len < 64 - s.mLen then len else 64 - s.mLen) = remLen
  have hle : remLen.toNat ≤ len.toNat := by
    rw [← hrem]
    exact UInt32.le_iff_toNat_le.mp (remLen_le len _)
  simp only [hrem]
  rw [slice_take (by omega)]
  cases slice message 0 remLen.toNat with
  | error e => rw [Except.error_bind, Except.error_bind]
  | ok bytes =>
    rw [Except.ok_bind, Except.ok_bind]
    cases hwrite : s.write s.mLen.toNat bytes with
    | error e => rw [Except.error_bind, Except.error_bind]
    | ok s' =>
      have hmLen := mLen_write hwrite
      rw [Except.ok_bind, Except.ok_bind, if_pos (by rw [hmLen]; exact hshort),
        if_pos (by rw [hmLen]; exact hshort)]

theorem hash_take (object : SHA256) {message : List UInt8} {len : UInt32} (hshort : len < 64)
    (hle : len.toNat ≤ message.length)
    : ∃ object', object.hash message len = .ok (object', FIPS180.sha256 (message.take len.toNat)) := by
  have hlen : (message.take len.toNat).length = len.toNat := by
    rw [List.length_take]
    omega
  have hlt : len.toNat < 64 := UInt32.lt_iff_toNat_lt.mp hshort
  have hinit : object.init.mLen + len < 64 := by
    have hzero : object.init.mLen = 0 := rfl
    rw [hzero, UInt32.zero_add]
    exact hshort
  rcases hash_eq object hlen.symm (by rw [hlen]; omega) with ⟨object', hhash⟩
  rw [hash, update_take _ _ _ hinit] at hhash
  exact ⟨object', hhash⟩

/--
The digest is SHA-256 of the bytes, however they are divided into chunks, and so is what the two
functions for a packet write.
-/
theorem hashChunks_sha256 (object : SHA256) (chunks : List (List UInt8)) (length : UInt32)
    (hmax : chunks.flatten.length < 2 ^ 29) (hlength : length.toNat = chunks.flatten.length)
    : hashChunks object chunks = .ok (FIPS180.sha256 chunks.flatten)
        ∧ ecallProcessPacketSha256 object chunks.flatten length
            = .ok (FIPS180.sha256 chunks.flatten)
        ∧ callProcessPacketNoSgxSha256 object chunks.flatten length
            = .ok (FIPS180.sha256 chunks.flatten)
        ∧ ∀ object' chunks', chunks'.flatten = chunks.flatten
            → hashChunks object' chunks' = hashChunks object chunks := by
  refine ⟨hashChunks_eq object hmax, hashOnce_eq object hlength hmax,
    hashOnce_eq object hlength hmax, ?_⟩
  intro object' chunks' hflatten
  rw [hashChunks_eq object hmax, hashChunks_eq object' (by rw [hflatten]; exact hmax), hflatten]

def garbage : SHA256 where
  mTotLen := 0xdeadbeef
  mLen := 77
  mBlock := List.replicate 128 0xcc
  mH := Vector.replicate 8 0xcafe
  size_mBlock := List.length_replicate

theorem hashChunks_sha256_abc
    : hashChunks garbage [[0x61], [], [0x62, 0x63]] = .ok (FIPS180.sha256 [0x61, 0x62, 0x63])
        ∧ FIPS180.sha256 [0x61, 0x62, 0x63]
            = [0xba, 0x78, 0x16, 0xbf, 0x8f, 0x01, 0xcf, 0xea, 0x41, 0x41, 0x40, 0xde, 0x5d, 0xae,
                0x22, 0x23, 0xb0, 0x03, 0x61, 0xa3, 0x96, 0x17, 0x7a, 0x9c, 0xb4, 0x10, 0xff, 0x61,
                0xf2, 0x00, 0x15, 0xad] := by
  have h := (hashChunks_sha256 garbage [[0x61], [], [0x62, 0x63]] 3 (by decide) (by decide)).1
  refine ⟨h, ?_⟩
  exact Except.ok.inj (h.symm.trans (by decide +kernel))

end SHA256
