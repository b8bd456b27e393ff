import SgxNfv.Lib.CString.Lemmas
import SgxNfv.Server.Impl

/-!
This module contains the verification of the header parsing: which buffers it stays inside of, and
what it makes of the header.
-/

open C

namespace Server

/--
The buffer begins with a complete header that declares the length `dataLength` in `n` characters.
-/
structure Declares (buff : List UInt8) (dataLength : Int) (n : Nat) : Prop where
  dataLen : ascii "data_len:" <+: buff
  length : strtol (buff.drop 9) = .ok { value := dataLength, endptr := n }
  data : ascii "|data:" <+: buff.drop (9 + n)

/--
The end of the header can be told without the byte behind the buffer: neither the number nor the
word behind it runs up to there.
-/
def HeaderEnds (buff : List UInt8) : Prop :=
  ascii "data_len:" <+: buff →
    ¬ RunsOff (buff.drop 9)
    ∧ ∀ dataLength n, strtol (buff.drop 9) = .ok { value := dataLength, endptr := n } →
        ¬ (buff.drop (9 + n) <+: ascii "|data:" ∧ (buff.drop (9 + n)).length < 6)

def Header.declared (dataLength : Int) (n : Nat) : Header where
  dataLength := dataLength
  headerLen := 15 + n
  totalData := toInt (15 + n + dataLength)
  data := 15 + n

theorem Declares.unique {buff : List UInt8} {d d' : Int} {n n' : Nat} (h : Declares buff d n)
    (h' : Declares buff d' n') : d = d' ∧ n = n' := by
  have := h.length
  rw [h'.length] at this
  simpa [eq_comm] using this

theorem Declares.headerEnds {buff : List UInt8} {d : Int} {n : Nat} (h : Declares buff d n)
    : HeaderEnds buff := by
  refine fun _ => ⟨?_, ?_⟩
  . rw [← strtol_eq_error_iff, h.length]
    simp
  . rintro d' n' hres ⟨_, hshort⟩
    rw [h.length] at hres
    simp only [Except.ok.injEq, Strtol.mk.injEq] at hres
    rw [← hres.2] at hshort
    exact absurd hshort (Nat.not_lt.mpr h.data.length_le)

theorem Declares.length_le {buff : List UInt8} {d : Int} {n : Nat} (h : Declares buff d n)
    : 15 + n ≤ buff.length := by
  have hlen := h.data.length_le
  rw [List.length_drop] at hlen
  have : (ascii "|data:").length = 6 := rfl
  omega

theorem numLenChars_eq {n : Nat} (hn : n ≤ 1000) : toInt ((9 + n : Nat) - 9) = n := by
  rw [toInt_of_nonneg (by omega)]
  . omega
  . simp only [intMax]
    omega

theorem headerLen_eq {n : Nat} (hn : n ≤ 1000)
    : (addInt 9 n >>= fun len => addInt len 6) = .ok (15 + n) := by
  rw [addInt_ok]
  . rw [Except.ok_bind, addInt_ok]
    . congr 1
      omega
    . simp only [intMin]
      omega
    . simp only [intMax]
      omega
  . simp only [intMin]
    omega
  . simp only [intMax]
    omega

theorem Declares.parseHeader_eq {buff : List UInt8} {d : Int} {n : Nat} (h : Declares buff d n)
    (hlen : buff.length = 1000)
    : parseHeader buff = (addLong (15 + n) d).map fun _ => .ok (.declared d n) := by
  have hn := h.length_le
  have hdataLen : strncmp (ascii "data_len:") buff = .ok true := strncmp_of_prefix h.dataLen
  have hdata : strncmp (ascii "|data:") (buff.drop (9 + n)) = .ok true := strncmp_of_prefix h.data
  have hheader := @headerLen_eq n (by omega)
  unfold parseHeader
  rw [hdataLen, Except.ok_bind, if_pos rfl, h.length, Except.ok_bind]
  dsimp only
  rw [hdata, Except.ok_bind, if_pos rfl, numLenChars_eq (by omega)]
  cases haddInt : addInt 9 (n : Int) with
  | error e =>
    rw [haddInt] at hheader
    simp at hheader
  | ok len =>
    rw [haddInt, Except.ok_bind] at hheader
    rw [Except.ok_bind, hheader, Except.ok_bind]
    cases hsum : addLong (15 + n) d with
    | error e => rfl
    | ok total =>
      simp only [Except.ok_bind, Except.pure_eq_ok, Except.map, Except.ok.injEq, Header.declared,
        (addLong_eq_ok hsum).1, Header.mk.injEq, true_and]
      omega

theorem parseHeader_cases {buff : List UInt8} (hlen : buff.length = 1000)
    : (∃ reason, parseHeader buff = .ok (.error reason)
        ∧ HeaderEnds buff ∧ ∀ d n, ¬ Declares buff d n)
      ∨ (parseHeader buff = .error .outOfBounds ∧ ¬ HeaderEnds buff)
      ∨ (∃ d n, Declares buff d n ∧ longMax < 15 + n + d
          ∧ parseHeader buff = .error .signedOverflow)
      ∨ (∃ d n, Declares buff d n ∧ 15 + n + d ≤ longMax ∧ HeaderEnds buff
          ∧ parseHeader buff = .ok (.ok (.declared d n))) := by
  rcases strncmp_cases (ascii "data_len:") buff with ⟨h, hp⟩ | ⟨h, hp, _⟩ | ⟨_, _, _, hshort⟩
  . rcases strtol_cases (buff.drop 9) with hoff | ⟨⟨d, n⟩, hstrtol, _⟩
    . refine .inr (.inl ⟨?_, ?_⟩)
      . simp [parseHeader, h, hoff]
      . intro hends
        exact (hends hp).1 (strtol_eq_error_iff.mp hoff)
    . have hunique : ∀ d' n', strtol (buff.drop 9) = .ok { value := d', endptr := n' } → n' = n := by
        intro d' n' hres
        rw [hstrtol] at hres
        simp only [Except.ok.injEq, Strtol.mk.injEq] at hres
        exact hres.2.symm
      rcases strncmp_cases (ascii "|data:") (buff.drop (9 + n))
        with ⟨h', hp'⟩ | ⟨h', hp', hno⟩ | ⟨h', hp', hpre, hshort⟩
      . have hdeclares : Declares buff d n := ⟨hp, hstrtol, hp'⟩
        have hlo := (strtol_eq_ok hstrtol).2.1
        simp only at hlo
        rw [hdeclares.parseHeader_eq hlen]
        by_cases hsum : 15 + n + d ≤ longMax
        . refine .inr (.inr (.inr ⟨d, n, hdeclares, hsum, hdeclares.headerEnds, ?_⟩))
          rw [addLong_ok (by omega) hsum]
          rfl
        . refine .inr (.inr (.inl ⟨d, n, hdeclares, by omega, ?_⟩))
          rw [addLong_overflow (by omega)]
          rfl
      . refine .inl ⟨.malformedLength, ?_, ?_, ?_⟩
        . simp [parseHeader, h, hstrtol, h']
        . refine fun _ => ⟨?_, ?_⟩
          . rw [← strtol_eq_error_iff, hstrtol]
            simp
          . intro d' n' hres
            rw [hunique d' n' hres]
            exact hno
        . rintro d' n' hdeclares
          have hdata := hdeclares.data
          rw [hunique d' n' hdeclares.length] at hdata
          exact hp' hdata
      . refine .inr (.inl ⟨?_, ?_⟩)
        . simp [parseHeader, h, hstrtol, h']
        . intro hends
          exact (hends hp).2 d n hstrtol ⟨hpre, hshort⟩
  . refine .inl ⟨.malformedHeader, ?_, ?_, ?_⟩
    . simp [parseHeader, h]
    . exact fun hp' => absurd hp' hp
    . exact fun d n hdeclares => hp hdeclares.dataLen
  . rw [hlen] at hshort
    exact absurd hshort (by decide)

end Server
