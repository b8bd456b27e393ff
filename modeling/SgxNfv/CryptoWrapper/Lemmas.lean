import SgxNfv.CryptoWrapper.Impl

/-!
This module contains the verification of the key generation: which keys can be read back from the
arrays of bytes, and which of them cannot be told apart.
-/

open C

namespace CryptoWrapper

/--
The numbers that take up the whole array, and zero.
-/
def Fills (n : Nat) : Prop := n = 0 ∨ 256 ^ 31 ≤ n ∧ n < 256 ^ 32

/--
`b` is `a` with zero bytes behind it, or the other way around.
-/
def Shifts (a b : Nat) : Prop := ∃ j, b = a * 256 ^ j ∨ a = b * 256 ^ j

section

variable {bn : BigNum}

theorem putNumber_eq (hbn : bn.Lawful) {n : Nat} (h : n < 256 ^ 32)
    : putNumber bn n = .ok (bn.front 32 n) := by
  have hbytes : bn.numBytes n ≤ ecKeySize := (hbn.numBytes_le_iff n 32).mpr h
  have hlen := hbn.length_bn2bin n
  have hfits : 0 + (bn.bn2bin n).length ≤ (List.replicate ecKeySize (0 : UInt8)).length := by
    rw [List.length_replicate]
    omega
  rw [putNumber, if_neg (Nat.not_lt.mpr hbytes), ← Nat.cast_zero, store_ok hfits]
  rw [List.take_zero, List.nil_append, Nat.zero_add, hlen, List.drop_replicate]
  rfl

theorem putNumber_of_le (hbn : bn.Lawful) {n : Nat} (h : 256 ^ 32 ≤ n)
    : putNumber bn n = .ok (List.replicate 32 0) := by
  have hmore : ecKeySize < bn.numBytes n := hbn.lt_numBytes_iff.mpr h
  rw [putNumber, if_pos hmore]
  rfl

theorem putNumber_fills (hbn : bn.Lawful) (n : Nat)
    : ∃ ga, putNumber bn n = .ok ga ∧ ga.length = 32 ∧ (bigEndian ga = n ↔ Fills n) := by
  rcases Nat.lt_or_ge n (256 ^ 32) with hlt | hle
  . refine ⟨_, putNumber_eq hbn hlt, hbn.length_front hlt, ?_⟩
    rw [hbn.bigEndian_front_eq_iff, ← Nat.lt_iff_add_one_le, hbn.lt_numBytes_iff]
    simp only [Fills, hlt, and_true]
  . refine ⟨_, putNumber_of_le hbn hle, List.length_replicate, ?_⟩
    have hpos : 0 < n := Nat.lt_of_lt_of_le (Nat.pow_pos (by decide)) hle
    have hzeros : bigEndian (List.replicate 32 0) = 0 := by decide
    rw [hzeros]
    constructor
    . intro hzero
      omega
    . rintro (hzero | ⟨_, hlt⟩)
      . omega
      . omega

theorem putNumber_agree (hbn : bn.Lawful) {a b : Nat} (ha : a < 256 ^ 32) (hb : b < 256 ^ 32)
    : ∃ ga ga', putNumber bn a = .ok ga ∧ putNumber bn b = .ok ga' ∧ ga.length = 32 ∧ ga'.length = 32
        ∧ (ga = ga' ↔ Shifts a b) :=
  ⟨_, _, putNumber_eq hbn ha, putNumber_eq hbn hb, hbn.length_front ha, hbn.length_front hb,
    hbn.front_eq_iff ha hb⟩

theorem generateDHKeys_eq {nid : Int} {x y priv : Nat} {gaX gaY gaPriv : List UInt8}
    (hnid : nid ≠ nidUndef) (keys : Keys) (hx : putNumber bn x = .ok gaX)
    (hy : putNumber bn y = .ok gaY) (hpriv : putNumber bn priv = .ok gaPriv)
    (hlen : gaX.length = 32 ∧ gaY.length = 32 ∧ gaPriv.length = 32)
    : generateDHKeys bn { nid, sslEc := some { priv, affine := some (x, y) } } keys
        =
      .ok [gaX, gaY, gaPriv] := by
  rcases hlen with ⟨hlenX, hlenY, hlenPriv⟩
  rw [generateDHKeys, getOpenSSLKeys, if_neg hnid]
  simp only [Option.getD_some, hx, hy, hpriv, Except.ok_bind, Except.pure_eq_ok]
  rw [List.take_of_length_le (Nat.le_of_eq hlenX), List.take_of_length_le (Nat.le_of_eq hlenY),
    List.take_of_length_le (Nat.le_of_eq hlenPriv)]

end

/--
The numbers are written to the front of their arrays: one of them can be read back only when it has all
32 bytes.
-/
theorem generateDHKeys_readsBack_iff (bn : BigNum) (hbn : bn.Lawful) (nid : Int) (x y priv : Nat)
    (keys : Keys) (hnid : nid ≠ nidUndef)
    : ∃ gaX gaY gaPriv,
        generateDHKeys bn { nid, sslEc := some { priv, affine := some (x, y) } } keys
            = .ok [gaX, gaY, gaPriv]
          ∧ (bigEndian gaX = x ↔ Fills x) ∧ (bigEndian gaY = y ↔ Fills y)
          ∧ (bigEndian gaPriv = priv ↔ Fills priv) := by
  rcases putNumber_fills hbn x with ⟨gaX, hx, hlenX, hiffX⟩
  rcases putNumber_fills hbn y with ⟨gaY, hy, hlenY, hiffY⟩
  rcases putNumber_fills hbn priv with ⟨gaPriv, hpriv, hlenPriv, hiffPriv⟩
  refine ⟨gaX, gaY, gaPriv, ?_, hiffX, hiffY, hiffPriv⟩
  exact generateDHKeys_eq hnid keys hx hy hpriv ⟨hlenX, hlenY, hlenPriv⟩

/-!
The private keys `1` and `256` with their public points on `prime256v1`.
-/

def nidPrime256v1 : Int := 415

def oneX : Nat := 0x6b17d1f2e12c4247f8bce6e563a440f277037d812deb33a0f4a13945d898c296

def oneY : Nat := 0x4fe342e2fe1a7f9b8ee7eb4a7c0f9e162bce33576b315ececbb6406837bf51f5

def shiftedX : Nat := 0x34a2d4a3b009165987ffd1528603ed61190d0b710d6a564c2db2e35f12d0441b

def shiftedY : Nat := 0xbeaaed6a53a1e3c22bca71046e777fc0e7d766b9deddd81db424e7845e93b146

/--
Of the key `1` the point can be read back, and the private part cannot.
-/
theorem generateDHKeys_readsBack_iff_one
    : ∃ gaX gaY gaPriv,
        generateDHKeys .digits
            { nid := nidPrime256v1, sslEc := some { priv := 1, affine := some (oneX, oneY) } }
            { gaX := [], gaY := [], gaPriv := [] } = .ok [gaX, gaY, gaPriv]
          ∧ bigEndian gaX = oneX ∧ bigEndian gaY = oneY ∧ bigEndian gaPriv ≠ 1 := by
  rcases generateDHKeys_readsBack_iff .digits BigNum.digits_lawful nidPrime256v1 oneX oneY 1
    { gaX := [], gaY := [], gaPriv := [] } (by decide) with ⟨gaX, gaY, gaPriv, hkeys, hx, hy, hpriv⟩
  refine ⟨gaX, gaY, gaPriv, hkeys, hx.mpr (.inr (by decide)), hy.mpr (.inr (by decide)), ?_⟩
  rw [Ne, hpriv]
  simp [Fills]

/--
Two numbers come out as one string when they differ in nothing but zero bytes at the end.
-/
theorem generateDHKeys_agree_iff (bn : BigNum) (hbn : bn.Lawful) (nid : Int)
    (x y priv x' y' priv' : Nat) (keys keys' : Keys) (hnid : nid ≠ nidUndef)
    (hmax : ∀ n ∈ [x, y, priv, x', y', priv'], n < 256 ^ 32)
    : ∃ gaX gaY gaPriv gaX' gaY' gaPriv',
        generateDHKeys bn { nid, sslEc := some { priv, affine := some (x, y) } } keys
            = .ok [gaX, gaY, gaPriv]
          ∧ generateDHKeys bn { nid, sslEc := some { priv := priv', affine := some (x', y') } } keys'
            = .ok [gaX', gaY', gaPriv']
          ∧ (gaX = gaX' ↔ Shifts x x') ∧ (gaY = gaY' ↔ Shifts y y')
          ∧ (gaPriv = gaPriv' ↔ Shifts priv priv') := by
  simp only [List.mem_cons, List.not_mem_nil, or_false, forall_eq_or_imp, forall_eq] at hmax
  rcases hmax with ⟨hx, hy, hpriv, hx', hy', hpriv'⟩
  rcases putNumber_agree hbn hx hx' with ⟨gaX, gaX', hputX, hputX', hlenX, hlenX', hiffX⟩
  rcases putNumber_agree hbn hy hy' with ⟨gaY, gaY', hputY, hputY', hlenY, hlenY', hiffY⟩
  rcases putNumber_agree hbn hpriv hpriv' with ⟨gaPriv, gaPriv', hput, hput', hlen, hlen', hiff⟩
  refine ⟨gaX, gaY, gaPriv, gaX', gaY', gaPriv', ?_, ?_, hiffX, hiffY, hiff⟩
  . exact generateDHKeys_eq hnid keys hputX hputY hput ⟨hlenX, hlenY, hlen⟩
  . exact generateDHKeys_eq hnid keys' hputX' hputY' hput' ⟨hlenX', hlenY', hlen'⟩

/--
The private parts of the keys `1` and `256` are one string.
-/
theorem generateDHKeys_agree_iff_shifted
    : ∃ gaX gaY gaPriv gaX' gaY' gaPriv',
        generateDHKeys .digits
            { nid := nidPrime256v1, sslEc := some { priv := 1, affine := some (oneX, oneY) } }
            { gaX := [], gaY := [], gaPriv := [] } = .ok [gaX, gaY, gaPriv]
          ∧ generateDHKeys .digits
            { nid := nidPrime256v1, sslEc := some { priv := 256, affine := some (shiftedX, shiftedY) } }
            { gaX := [], gaY := [], gaPriv := [] } = .ok [gaX', gaY', gaPriv']
          ∧ gaPriv = gaPriv' := by
  rcases generateDHKeys_agree_iff .digits BigNum.digits_lawful nidPrime256v1 oneX oneY 1 shiftedX
    shiftedY 256 { gaX := [], gaY := [], gaPriv := [] } { gaX := [], gaY := [], gaPriv := [] }
    (by decide) (by decide) with ⟨gaX, gaY, gaPriv, gaX', gaY', gaPriv', hkeys, hkeys', _, _, hiff⟩
  exact ⟨gaX, gaY, gaPriv, gaX', gaY', gaPriv', hkeys, hkeys', hiff.mpr ⟨1, .inl rfl⟩⟩

end CryptoWrapper
