import Mathlib.Data.UInt
import SgxNfv.Benchmark.Impl
import SgxNfv.Lib.CString.Memory
import SgxNfv.Sha256.Lemmas.Digest

/-!
This module contains the verification of the workloads of the execution benchmark: what they compute
on every input.
-/

open C

theorem FIPS180.length_sha256 (msg : List UInt8) : (FIPS180.sha256 msg).length = 32 := rfl

namespace Benchmark

/--
The digest of the first five bytes of a digest.
-/
def restress (hash : List UInt8) : List UInt8 := FIPS180.sha256 (hash.take 5)

theorem length_restress (hash : List UInt8) : (restress hash).length = 32 :=
  FIPS180.length_sha256 _

theorem strlen_hello : strlen (ascii "hello" ++ [0]) = .ok 5 := by decide

theorem stressRounds_eq (n : Nat) (digest : SHA256) {hash : List UInt8} (hhash : 5 ≤ hash.length)
    : stressRounds n digest hash = .ok (restress^[n] hash) := by
  induction n generalizing digest hash with
  | zero => rfl
  | succ n ih =>
    rcases @SHA256.hash_take digest hash 5 (by decide) hhash with ⟨digest', hround⟩
    have hnext := ih digest' (show 5 ≤ (restress hash).length by rw [length_restress]; decide)
    rw [stressRounds, strlen_hello, Except.ok_bind]
    simp only [UInt32.reduceOfNat]
    rw [hround, Except.ok_bind, Function.iterate_succ_apply]
    exact hnext

/--
Whatever stood on the stack, and on both sides of the enclave: the benchmark iterates SHA-256, cut
down to five bytes.
-/
theorem stress_eq (digest : SHA256)
    : stress digest = .ok (restress^[100000] (FIPS180.sha256 (ascii "hello")))
        ∧ ecallStress digest = .ok (restress^[100000] (FIPS180.sha256 (ascii "hello"))) := by
  have hstress : stress digest = .ok (restress^[100000] (FIPS180.sha256 (ascii "hello"))) := by
    rcases @SHA256.hash_take digest (ascii "hello" ++ [0]) 5 (by decide) (by decide)
      with ⟨digest', hfirst⟩
    rw [stress, strlen_hello, Except.ok_bind]
    simp only [UInt32.reduceOfNat]
    rw [hfirst, Except.ok_bind]
    exact stressRounds_eq 100000 digest' (by rw [FIPS180.length_sha256]; decide)
  exact ⟨hstress, hstress⟩

theorem sha_eq (digest : SHA256) {data : List UInt8} {length : Int32}
    (hlength : length.toInt = data.length) (hmax : data.length < 2 ^ 29)
    : sha digest data length = .ok (FIPS180.sha256 data)
        ∧ ecallSha digest data length = .ok (FIPS180.sha256 data) := by
  have hlen : (toUnsigned length.toInt).toNat = data.length := by
    rw [hlength, toUnsigned_of_range (Int.natCast_nonneg _) (by simp only [intMax]; omega),
      Int.toNat_natCast]
  rcases SHA256.hash_eq digest hlen hmax with ⟨digest', hhash⟩
  have hsha : sha digest data length = .ok (FIPS180.sha256 data) := by
    rw [sha, hhash]
    rfl
  exact ⟨hsha, hsha⟩

theorem store_hexByte {digest rest : List UInt8} {n : Nat} (hn : n < digest.length)
    (hrest : 3 ≤ rest.length)
    : store (printHex (digest.take n) ++ rest) (n * 2 : Nat) (printHexByte digest[n] ++ [0])
        = .ok (printHex (digest.take (n + 1)) ++ (0 :: rest.drop 3)) := by
  have hoff : ((n * 2 : Nat) : Int) = (printHex (digest.take n)).length := by
    rw [length_printHex, List.length_take]
    omega
  have hfits : (printHexByte digest[n] ++ [0]).length ≤ rest.length := hrest
  have hstore := @store_append (printHex (digest.take n)) rest [] _ _ hoff hfits
  have htake : printHex (digest.take (n + 1)) = printHex (digest.take n) ++ printHexByte digest[n] := by
    rw [List.take_add_one, List.getElem?_eq_getElem hn, Option.toList_some, printHex,
      List.flatMap_append, List.flatMap_singleton, printHex]
  rw [List.append_nil, List.append_nil] at hstore
  rw [hstore, htake]
  simp only [List.append_assoc]
  rfl

/--
After `n` bytes of the digest stand their digits in the buffer, and a NUL behind them.
-/
theorem printDigest_eq {digest buf : List UInt8} {n : Nat} (hn : n ≤ digest.length)
    (hbuf : 2 * digest.length < buf.length)
    : ∃ rest, printDigest digest n buf = .ok (printHex (digest.take n) ++ rest)
        ∧ 2 * n + rest.length = buf.length ∧ (0 < n → rest.head? = some 0) := by
  induction n with
  | zero => exact ⟨buf, rfl, by omega, by omega⟩
  | succ n ih =>
    rcases ih (by omega) with ⟨rest, hprint, hrest, _⟩
    refine ⟨0 :: rest.drop 3, ?_, ?_, fun _ => rfl⟩
    . unfold printDigest at hprint ⊢
      rw [List.range_succ, List.foldlM_append, hprint, Except.ok_bind]
      simp only [List.foldlM_cons, List.foldlM_nil]
      rw [load_natCast digest n hn, Except.ok_bind, store_hexByte hn (by omega)]
      rfl
    . rw [List.length_cons, List.length_drop]
      omega

/--
`sha256` writes out SHA-256 in 64 digits, whatever its arrays on the stack held before, and the text
can be read back.
-/
theorem sha256_eq (ctx : SHA256) (buf input : List UInt8) (hbuf : buf.length = 2 * 32 + 1)
    (hmax : input.length < 2 ^ 29)
    : ∃ text, sha256 ctx buf input = .ok text ∧ text.length = 64
        ∧ scanHex text = some (FIPS180.sha256 input) := by
  have hlen : (UInt32.ofNat input.length).toNat = input.length := by
    rw [UInt32.toNat_ofNat']
    exact Nat.mod_eq_of_lt (by omega)
  have hdigest := FIPS180.length_sha256 input
  refine ⟨printHex (FIPS180.sha256 input), ?_, by rw [length_printHex, hdigest],
    scanHex_printHex _⟩
  rcases SHA256.hash_eq ctx hlen hmax with ⟨ctx', hhash⟩
  have hnul : (2 * 32 : Int) = (buf.take 64).length := by
    rw [List.length_take]
    omega
  have hstore := @store_append (buf.take 64) (buf.drop 64) [] [0] _ hnul
    (by rw [List.length_drop]; simp; omega)
  rw [List.append_nil, List.append_nil, List.take_append_drop] at hstore
  rcases @printDigest_eq (FIPS180.sha256 input) _ 32 (Nat.le_of_eq hdigest.symm)
    (show 2 * (FIPS180.sha256 input).length
        < (buf.take 64 ++ ([0] ++ (buf.drop 64).drop [(0 : UInt8)].length)).length by
      simp only [List.length_append, List.length_take, List.length_drop, List.length_singleton,
        hdigest]
      omega)
    with ⟨rest, hprint, hrest, hhead⟩
  have htake : (FIPS180.sha256 input).take 32 = FIPS180.sha256 input :=
    List.take_of_length_le (Nat.le_of_eq hdigest)
  rcases rest with _ | ⟨b, rest⟩
  . simp at hhead
  . simp only [List.head?_cons, Option.some.injEq, Nat.zero_lt_succ, forall_const] at hhead
    rw [hhead, htake] at hprint
    rw [sha256, hhash, Except.ok_bind]
    simp only
    rw [hstore, Except.ok_bind, hprint, Except.ok_bind,
      strlen_append (zero_not_mem_printHex _), Except.ok_bind, List.take_left]
    rfl

theorem sha256_eq_abc
    : ∃ text, sha256 SHA256.garbage (List.replicate 65 7) (ascii "abc") = .ok text ∧ text.length = 64
        ∧ scanHex text = some (FIPS180.sha256 (ascii "abc")) :=
  sha256_eq SHA256.garbage (List.replicate 65 7) (ascii "abc") rfl (by decide)

/--
Each byte is the sum of those up to it.
-/
def runningSums (data : List UInt8) : List UInt8 :=
  (List.range data.length).map fun k => (data.take (k + 1)).sum

@[simp]
theorem length_runningSums (data : List UInt8) : (runningSums data).length = data.length := by
  rw [runningSums, List.length_map, List.length_range]

theorem runningSums_concat (data : List UInt8) (b : UInt8)
    : runningSums (data ++ [b]) = runningSums data ++ [data.sum + b] := by
  unfold runningSums
  rw [List.length_append, List.length_singleton, List.range_succ, List.map_append, List.map_singleton]
  congr 1
  . apply List.map_congr_left
    intro k hk
    rw [List.take_append_of_le_length (List.mem_range.mp hk)]
  . rw [List.take_of_length_le (by simp), List.sum_append, List.sum_singleton]

theorem runningSums_inj {data data' : List UInt8} (h : runningSums data = runningSums data')
    : data = data' := by
  induction data using List.reverseRecOn generalizing data' with
  | nil =>
    have hlen := congrArg List.length h
    simp only [length_runningSums, List.length_nil] at hlen
    exact (List.eq_nil_of_length_eq_zero hlen.symm).symm
  | append_singleton data b ih =>
    rcases List.eq_nil_or_concat' data' with rfl | ⟨data', b', rfl⟩
    . have hlen := congrArg List.length h
      simp at hlen
    . rw [runningSums_concat, runningSums_concat] at h
      have hlast := List.append_inj' h rfl
      have hdata := ih hlast.1
      subst hdata
      rw [add_left_cancel (List.singleton_inj.mp hlast.2)]

theorem memoryBody_round {length : Int} {pre post : List UInt8} {b : UInt8} (hpre : pre ≠ [])
    (hmax : length ≤ intMax) (hless : (pre.length : Int) < length)
    : memoryBody length { i := pre.length, dataLocal := runningSums pre ++ b :: post }
        =
      .ok (.inl {
        i := (pre ++ [b]).length, dataLocal := runningSums (pre ++ [b]) ++ post
      }) := by
  rcases List.eq_nil_or_concat' pre with rfl | ⟨pre', a, rfl⟩
  . exact absurd rfl hpre
  . rw [List.length_append, List.length_singleton] at hless
    have hsum : (pre' ++ [a]).sum = pre'.sum + a := by simp
    have hlhs : load (runningSums (pre' ++ [a]) ++ b :: post) (pre' ++ [a]).length = .ok b := by
      simp [load]
      omega
    have hprev : addInt (pre' ++ [a]).length (-1) = .ok (pre'.length : Int) := by
      rw [List.length_append, List.length_singleton]
      exact addInt_of_nonneg (by omega) (by omega) (by omega)
    have hrhs : load (runningSums (pre' ++ [a]) ++ b :: post) pre'.length = .ok (pre'.sum + a) := by
      rw [runningSums_concat]
      simp [load]
    have hnext : addInt (pre' ++ [a]).length 1 = .ok ((pre' ++ [a] ++ [b]).length : Int) := by
      have hlen : (pre' ++ [a] ++ [b]).length = (pre' ++ [a]).length + 1 := List.length_append
      rw [hlen]
      apply addInt_one
      rw [List.length_append, List.length_singleton]
      omega
    have hstore := @store_append (runningSums (pre' ++ [a])) [b] post [b + (pre'.sum + a)]
      (pre' ++ [a]).length (by rw [length_runningSums]) (Nat.le_refl 1)
    rw [List.append_assoc, List.singleton_append] at hstore
    unfold memoryBody
    rw [if_pos (by rw [List.length_append]; exact hless)]
    simp only [hlhs, hprev, hrhs, hnext, hstore, Except.ok_bind, Except.pure_eq_ok]
    rw [runningSums_concat _ b, hsum, add_comm b]
    rfl

/--
The state in front of the round for the index `j + 1`.
-/
def sumsAt (data : List UInt8) (j : Nat) : MemoryState where
  i := (j + 1 : Nat)
  dataLocal := runningSums (data.take (j + 1)) ++ data.drop (j + 1)

theorem sumsAt_zero (data : List UInt8) : sumsAt data 0 = { i := 1, dataLocal := data } := by
  cases data with
  | nil => rfl
  | cons b data =>
    have hone : runningSums [b] = [b] := by
      rw [← List.nil_append [b], runningSums_concat, List.sum_nil, zero_add]
      rfl
    rw [sumsAt, List.take_succ_cons, List.take_zero, hone]
    rfl

theorem memoryBody_sumsAt {data : List UInt8} {length : Int} {j : Nat} (hmax : length ≤ intMax)
    (hless : ((j + 1 : Nat) : Int) < length) (hj : j + 1 < data.length)
    : memoryBody length (sumsAt data j) = .ok (.inl (sumsAt data (j + 1))) := by
  have hlen : (data.take (j + 1)).length = j + 1 := by
    rw [List.length_take]
    omega
  have htake : data.take (j + 1 + 1) = data.take (j + 1) ++ [data[j + 1]] := by
    rw [List.take_add_one, List.getElem?_eq_getElem hj, Option.toList_some]
  have hne : data.take (j + 1) ≠ [] := List.ne_nil_of_length_pos (by omega)
  have hround := @memoryBody_round length (data.take (j + 1)) (data.drop (j + 1 + 1)) data[j + 1] hne
    hmax (by rw [hlen]; exact hless)
  rw [← htake, hlen, ← List.drop_eq_getElem_cons hj, List.length_take, Nat.min_eq_left hj] at hround
  exact hround

theorem memoryBody_exit {data : List UInt8} {length : Int} {j : Nat}
    (hge : length ≤ ((j + 1 : Nat) : Int))
    : memoryBody length (sumsAt data j) = .ok (.inr (sumsAt data j).dataLocal) := by
  have hexit : ¬ (sumsAt data j).i < length := Int.not_lt.mpr hge
  unfold memoryBody
  rw [if_neg hexit]
  rfl

theorem memoryBody_outOfBounds {data : List UInt8} {length : Int} {j : Nat}
    (hless : ((j + 1 : Nat) : Int) < length) (hj : data.length ≤ j + 1)
    : memoryBody length (sumsAt data j) = .error .outOfBounds := by
  have hload : load (sumsAt data j).dataLocal (sumsAt data j).i = .error .outOfBounds := by
    apply load_eq_error
    simp only [sumsAt, List.length_append, length_runningSums, List.length_take, List.length_drop]
    omega
  have hround : (sumsAt data j).i < length := hless
  unfold memoryBody
  rw [if_pos hround, hload]
  rfl

/--
The memory behind the loop.
-/
def stressed (data : List UInt8) (length : Int32) : Except Fault (List UInt8) :=
  if length.toInt ≤ max 1 data.length then
    .ok (runningSums (data.take length.toInt.toNat) ++ data.drop length.toInt.toNat)
  else
    .error .outOfBounds

theorem stressMemory_ends (data : List UInt8) (length : Int32)
    : ∃ fuel, stressMemory fuel data length = some (stressed data length) := by
  have hmax : length.toInt ≤ intMax := Int.le_of_lt_add_one (Int32.toInt_lt _)
  have hchain : ∀ n : Nat, (n : Int) < max 1 length.toInt → n < max 1 data.length →
      stressMemory (n + 1) data length
        = While.exec (memoryBody length.toInt) 1 (sumsAt data n) := by
    intro n hlength hn
    rw [stressMemory, ← sumsAt_zero]
    exact While.exec_chain (sumsAt data) n 1
      fun j hj => memoryBody_sumsAt hmax (by omega) (by omega)
  unfold stressed
  by_cases hin : length.toInt ≤ max 1 data.length
  . rw [if_pos hin]
    have hrun := hchain (length.toInt.toNat - 1) (by omega) (by omega)
    rw [While.exec_exit (memoryBody_exit (by omega))] at hrun
    refine ⟨_, hrun.trans ?_⟩
    congr 2
    rcases Int.lt_or_le 0 length.toInt with hpos | hnone
    . have hlast : length.toInt.toNat - 1 + 1 = length.toInt.toNat := by omega
      rw [sumsAt, hlast]
    . have hzero : length.toInt.toNat = 0 := by omega
      rw [hzero, Nat.zero_sub, sumsAt_zero]
      rfl
  . rw [if_neg hin]
    have hrun := hchain (data.length - 1) (by omega) (by omega)
    rw [While.exec_fail (memoryBody_outOfBounds (by omega) (by omega))] at hrun
    exact ⟨_, hrun⟩

theorem stressed_inj {data data' bytes : List UInt8} {length : Int32}
    (hlen : data'.length = data.length) (h : stressed data length = .ok bytes)
    (h' : stressed data' length = .ok bytes) : data' = data := by
  unfold stressed at h h'
  rw [hlen] at h'
  split at h
  . next hin =>
    rw [if_pos hin] at h'
    rw [← Except.ok.inj h', Except.ok.injEq] at h
    have hlen' : (runningSums (data.take length.toInt.toNat)).length
        = (runningSums (data'.take length.toInt.toNat)).length := by
      rw [length_runningSums, length_runningSums, List.length_take, List.length_take, hlen]
    rcases List.append_inj h hlen' with ⟨hsums, hrest⟩
    rw [← List.take_append_drop length.toInt.toNat data', ← runningSums_inj hsums, ← hrest,
      List.take_append_drop]
  . simp at h

/--
The loop goes from one byte to the next and leaves the sums of all bytes up to them. It stays inside
of the memory when it is told no more than its length, or does not run at all. What the memory held
before can be told from what it holds then, on either side of the enclave.
-/
theorem stressMemory_eq (data : List UInt8) (length : Int32)
    : (∃ fuel, stressMemory fuel data length = some (stressed data length)
          ∧ ecallStressMemory fuel data length = some (stressed data length))
        ∧ ∀ data' fuel fuel' bytes, data'.length = data.length
            → stressMemory fuel data length = some (.ok bytes)
            → ecallStressMemory fuel' data' length = some (.ok bytes) → data' = data := by
  constructor
  . rcases stressMemory_ends data length with ⟨fuel, hrun⟩
    exact ⟨fuel, hrun, hrun⟩
  . intro data' fuel fuel' bytes hlen h h'
    have hres := While.Ends.unique ⟨_, h⟩ (stressMemory_ends data length)
    have hres' := While.Ends.unique ⟨_, h'⟩ (stressMemory_ends data' length)
    exact stressed_inj hlen hres.symm hres'.symm

theorem stressMemory_eq_example
    : ∀ data' fuel, data'.length = 3
        → ecallStressMemory fuel data' 3 = some (.ok [200, 44, 45]) → data' = [200, 100, 1] :=
  fun data' fuel hlen h =>
    (stressMemory_eq [200, 100, 1] 3).2 data' 3 fuel [200, 44, 45] hlen (by decide) h

end Benchmark
