import SgxNfv.Sha256.Impl
import SgxNfv.Sha256.Spec

/-!
This module contains the verification of `SHA256::transform`: it is the compression function of FIPS
180-4 on one block after the other.
-/

open C

namespace SHA256

theorem toBitVec_shiftRight_lt (x : UInt32) {n : UInt32} (hn : n.toNat < 32)
    : (x >>> n).toBitVec = x.toBitVec >>> n.toNat := by
  rw [UInt32.toBitVec_shiftRight, BitVec.ushiftRight_eq', BitVec.toNat_umod]
  congr 1
  exact Nat.mod_eq_of_lt hn

theorem toBitVec_shiftLeft_lt (x : UInt32) {n : UInt32} (hn : n.toNat < 32)
    : (x <<< n).toBitVec = x.toBitVec <<< n.toNat := by
  rw [UInt32.toBitVec_shiftLeft, BitVec.shiftLeft_eq', BitVec.toNat_umod]
  congr 1
  exact Nat.mod_eq_of_lt hn

theorem sha2Shfr_eq (x : UInt32) {n : UInt32} (hn : n.toNat < 32)
    : sha2Shfr x n = FIPS180.shr n.toNat x := by
  rw [← UInt32.toBitVec_inj]
  exact toBitVec_shiftRight_lt x hn

theorem sha2Rotr_eq (x : UInt32) {n : UInt32} (hpos : 0 < n.toNat) (hn : n.toNat < 32)
    : sha2Rotr x n = FIPS180.rotr n.toNat x := by
  have hsub : (32 - n).toNat = 32 - n.toNat := by
    rw [UInt32.toNat_sub_of_le]
    . rfl
    . rw [UInt32.le_iff_toNat_le]
      exact Nat.le_of_lt hn
  rw [← UInt32.toBitVec_inj, sha2Rotr, UInt32.toBitVec_or, toBitVec_shiftRight_lt x hn,
    toBitVec_shiftLeft_lt x (by omega), hsub, FIPS180.rotr, BitVec.rotateRight_def,
    Nat.mod_eq_of_lt hn]

theorem sha256F1_eq (x : UInt32) : sha256F1 x = FIPS180.bigSigma0 x := by
  unfold sha256F1
  rw [sha2Rotr_eq x (by decide) (by decide), sha2Rotr_eq x (by decide) (by decide),
    sha2Rotr_eq x (by decide) (by decide)]
  rfl

theorem sha256F2_eq (x : UInt32) : sha256F2 x = FIPS180.bigSigma1 x := by
  unfold sha256F2
  rw [sha2Rotr_eq x (by decide) (by decide), sha2Rotr_eq x (by decide) (by decide),
    sha2Rotr_eq x (by decide) (by decide)]
  rfl

theorem sha256F3_eq (x : UInt32) : sha256F3 x = FIPS180.smallSigma0 x := by
  unfold sha256F3
  rw [sha2Rotr_eq x (by decide) (by decide), sha2Rotr_eq x (by decide) (by decide),
    sha2Shfr_eq x (by decide)]
  rfl

theorem sha256F4_eq (x : UInt32) : sha256F4 x = FIPS180.smallSigma1 x := by
  unfold sha256F4
  rw [sha2Rotr_eq x (by decide) (by decide), sha2Rotr_eq x (by decide) (by decide),
    sha2Shfr_eq x (by decide)]
  rfl

theorem sha256K_eq : sha256K = FIPS180.k := by decide +kernel

theorem or_eq_append (b0 b1 b2 b3 : BitVec 8)
    : b3.setWidth 32 ||| b2.setWidth 32 <<< 8 ||| b1.setWidth 32 <<< 16 ||| b0.setWidth 32 <<< 24
        =
      b0 ++ b1 ++ b2 ++ b3 := by
  apply BitVec.eq_of_getLsbD_eq
  intro i hi
  -- Bit `i` belongs to one of the four bytes, and the other three contribute nothing to it.
  rcases (by omega : i < 8 ∨ 8 ≤ i ∧ i < 16 ∨ 16 ≤ i ∧ i < 24 ∨ 24 ≤ i) with h | h | h | h
  all_goals
    simp (disch := omega) only [BitVec.getLsbD_or, BitVec.getLsbD_shiftLeft, BitVec.getLsbD_setWidth,
      BitVec.getLsbD_append, Nat.sub_sub, BitVec.getLsbD_of_ge, decide_eq_true, decide_eq_false,
      if_pos, if_neg, Bool.not_true, Bool.not_false, Bool.true_and, Bool.false_and, Bool.and_true,
      Bool.and_false, Bool.or_false, Bool.false_or]

theorem sha2Pack32_eq (block : List UInt8) (t : Nat)
    : sha2Pack32 block (t <<< 2) = FIPS180.word block t := by
  have hoff : t <<< 2 = 4 * t := by
    rw [Nat.shiftLeft_eq]
    omega
  unfold sha2Pack32 FIPS180.word
  rw [hoff, ← UInt32.toBitVec_inj]
  simp only [UInt32.toBitVec_or, UInt32.toBitVec_shiftLeft, UInt8.toBitVec_toUInt32]
  exact or_eq_append _ _ _ _

theorem sha2Unpack32_eq (x : UInt32) : sha2Unpack32 x = FIPS180.wordBytes x := by
  have h24 : (x >>> 24).toUInt8 = ⟨x.toBitVec.extractLsb' 24 8⟩ := by
    rw [← UInt8.toBitVec_inj]
    ext i hi
    simp
  have h16 : (x >>> 16).toUInt8 = ⟨x.toBitVec.extractLsb' 16 8⟩ := by
    rw [← UInt8.toBitVec_inj]
    ext i hi
    simp
  have h8 : (x >>> 8).toUInt8 = ⟨x.toBitVec.extractLsb' 8 8⟩ := by
    rw [← UInt8.toBitVec_inj]
    ext i hi
    simp
  have h0 : x.toUInt8 = ⟨x.toBitVec.extractLsb' 0 8⟩ := by
    rw [← UInt8.toBitVec_inj]
    ext i hi
    simp
  rw [sha2Unpack32, FIPS180.wordBytes, h24, h16, h8, h0]

def toWork (v : Vector UInt32 8) : FIPS180.Work where
  a := v[0]!
  b := v[1]!
  c := v[2]!
  d := v[3]!
  e := v[4]!
  f := v[5]!
  g := v[6]!
  h := v[7]!

theorem round_eq (w : List UInt32) (wv : Vector UInt32 8) (j : Nat)
    : toWork (round w wv j)
        =
      FIPS180.round (sha256K.getD j 0) (w.getD j 0) (toWork wv) := by
  simp [round, toWork, getElem!_pos, FIPS180.round, sha256F1_eq, sha256F2_eq, sha2Ch,
    sha2Maj, FIPS180.ch, FIPS180.maj]

theorem expand_eq (block : List UInt8)
    : expand block = (List.range 64).map (FIPS180.schedule block) := by
  -- The induction is on the number of words that are appended to the first 16.
  have hloop : ∀ n, (List.range' 16 n).foldl
      (fun w j => w ++ [sha256F4 (w.getD (j - 2) 0) + w.getD (j - 7) 0
        + sha256F3 (w.getD (j - 15) 0) + w.getD (j - 16) 0])
      ((List.range 16).map fun j => sha2Pack32 block (j <<< 2))
        = (List.range (16 + n)).map (FIPS180.schedule block) := by
    intro n
    induction n with
    | zero =>
      apply List.map_congr_left
      intro t ht
      rw [FIPS180.schedule, dif_pos (List.mem_range.mp ht), sha2Pack32_eq]
    | succ n ih =>
      have hget : ∀ t, t < 16 + n
          → ((List.range (16 + n)).map (FIPS180.schedule block)).getD t 0
            = FIPS180.schedule block t := by
        intro t ht
        simp [List.getD, List.getElem?_range ht]
      rw [List.range'_concat, List.foldl_append, ih, ← Nat.add_assoc, List.range_succ,
        List.map_append]
      simp only [List.foldl_cons, List.foldl_nil, Nat.one_mul, List.map_cons, List.map_nil]
      rw [hget _ (by omega), hget _ (by omega), hget _ (by omega), hget _ (by omega), sha256F4_eq,
        sha256F3_eq]
      conv => rhs; rw [FIPS180.schedule, dif_neg (by omega)]
  exact hloop 48

theorem transformBlock_eq (mH : Vector UInt32 8) (block : List UInt8)
    : toWork (transformBlock mH block) = FIPS180.compress (toWork mH) block := by
  have hrounds : ∀ n ≤ 64, toWork ((List.range n).foldl (round (expand block)) mH)
      = FIPS180.rounds block (toWork mH) n := by
    intro n hn
    induction n with
    | zero => rfl
    | succ n ih =>
      have hw : (expand block).getD n 0 = FIPS180.schedule block n := by
        rw [expand_eq]
        simp [List.getD, List.getElem?_range (show n < 64 by omega)]
      rw [List.range_succ, List.foldl_append, List.foldl_cons, List.foldl_nil, round_eq,
        ih (by omega), hw, sha256K_eq, FIPS180.rounds]
  rw [FIPS180.compress, ← hrounds 64 (Nat.le_refl 64)]
  simp [transformBlock, toWork, getElem!_pos, FIPS180.Work.add, UInt32.add_comm]

theorem shlInt_six {i : Nat} (h : (64 * i : Nat) ≤ intMax) : shlInt i 6 = .ok ((64 * i : Nat) : Int) := by
  unfold shlInt
  rw [if_pos]
  . congr 1
    omega
  . omega

theorem transformFrom_eq {message : List UInt8} {n i : Nat} (mH : Vector UInt32 8)
    (hlen : 64 * (i + n) ≤ message.length) (hmax : (64 * (i + n) : Nat) ≤ intMax)
    : ∃ mH', transformFrom message n i mH = .ok mH'
        ∧ toWork mH' = BlockHash.blocks FIPS180.compress 64 n (toWork mH) (message.drop (64 * i)) := by
  induction n generalizing i mH with
  | zero => exact ⟨mH, rfl, rfl⟩
  | succ n ih =>
    rcases @ih (i + 1) (transformBlock mH ((message.drop (64 * i)).take 64)) (by omega) (by omega)
      with ⟨mH', hnext, hwork⟩
    refine ⟨mH', ?_, ?_⟩
    . rw [transformFrom, shlInt_six (by omega), Except.ok_bind, Int.toNat_natCast,
        slice_eq_ok (by omega), Except.ok_bind]
      exact hnext
    . rw [hwork, transformBlock_eq, BlockHash.blocks, List.drop_drop, Nat.mul_succ]

theorem transform_eq {message : List UInt8} {blockNb : UInt32} (mH : Vector UInt32 8)
    (hlen : 64 * blockNb.toNat ≤ message.length) (hmax : (64 * blockNb.toNat : Nat) ≤ intMax)
    : ∃ mH', transform mH message blockNb = .ok mH'
        ∧ toWork mH'
            = BlockHash.blocks FIPS180.compress 64 blockNb.toNat (toWork mH) message := by
  have hint : (toInt blockNb.toNat).toNat = blockNb.toNat := by
    rw [toInt_of_nonneg (Int.natCast_nonneg _) (by omega)]
    exact Int.toNat_natCast _
  rw [transform, hint]
  rcases @transformFrom_eq message blockNb.toNat 0 mH (by omega) (by omega) with ⟨mH', hres, hwork⟩
  exact ⟨mH', hres, hwork⟩

end SHA256
