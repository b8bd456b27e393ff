import SgxNfv.Lib.CString.Lemmas

/-!
This module contains the round trip of decimal numbers: `strtol` reads back what `%i` prints, and a
number whose text goes on too long is clamped.
-/

namespace C

def digitByte (d : Nat) : UInt8 := UInt8.ofNat (48 + d)

theorem digitChar_toUInt8 : ∀ d < 10, (Nat.digitChar d).toUInt8 = digitByte d := by decide

theorem digitVal_digitByte : ∀ d < 10, digitVal (digitByte d) = d := by decide

theorem digitByte_ne_zero : ∀ d < 10, 0 < d → digitByte d ≠ 48 := by decide

theorem printNat_eq (n : Nat)
    : printNat n = (if n < 10 then [] else printNat (n / 10)) ++ [digitByte (n % 10)] := by
  unfold printNat
  rw [Nat.toDigits_eq_if (by omega)]
  split
  . next h => simp [Nat.mod_eq_of_lt h, digitChar_toUInt8 n h]
  . simp [digitChar_toUInt8 (n % 10) (by omega)]

theorem length_printNat_le {n k : Nat} (hk : 0 < k) (h : n < 10 ^ k) : (printNat n).length ≤ k := by
  unfold printNat
  rw [List.length_map, Nat.length_toDigits_le_iff (by omega) hk]
  exact h

theorem length_printInt_le {i : Int} (hlo : intMin ≤ i) (hhi : i ≤ intMax)
    : (printInt i).length ≤ 11 := by
  have hlen : (printNat i.natAbs).length ≤ 10 := by
    apply length_printNat_le
    . omega
    . simp only [intMin, intMax] at hlo hhi
      omega
  unfold printInt
  split
  . exact Nat.succ_le_succ hlen
  . omega

theorem digitsValue_append (base acc : Nat) (digits rest : List UInt8)
    : digitsValue base acc (digits ++ rest) = digitsValue base (digitsValue base acc digits) rest :=
  List.foldl_append

theorem isDigit_printNat (n : Nat) : ∀ c ∈ printNat n, isDigit 10 c := by
  induction n using Nat.strongRecOn with
  | _ n ih =>
    intro c hc
    rw [printNat_eq, List.mem_append, List.mem_singleton] at hc
    rcases hc with hc | rfl
    . split at hc
      . simp at hc
      . exact ih (n / 10) (by omega) c hc
    . simp only [isDigit, decide_eq_true_eq]
      rw [digitVal_digitByte _ (by omega)]
      omega

theorem zero_not_mem_printInt (i : Int) : (0 : UInt8) ∉ printInt i := by
  have hdigits : (0 : UInt8) ∉ printNat i.natAbs := fun hmem =>
    absurd (isDigit_printNat i.natAbs 0 hmem) (by decide)
  unfold printInt
  split
  . simpa using hdigits
  . exact hdigits

theorem digitsValue_printNat (n : Nat) : digitsValue 10 0 (printNat n) = n := by
  induction n using Nat.strongRecOn with
  | _ n ih =>
    rw [printNat_eq, digitsValue_append]
    have hlast : ∀ acc, digitsValue 10 acc [digitByte (n % 10)] = acc * 10 + n % 10 := by
      intro acc
      simp only [digitsValue, List.foldl_cons, List.foldl_nil]
      rw [digitVal_digitByte _ (by omega)]
    rw [hlast]
    split
    . simp only [digitsValue, List.foldl_nil]
      omega
    . rw [ih (n / 10) (by omega)]
      omega

theorem printNat_zero : printNat 0 = [48] := by decide

theorem printNat_eq_cons {n : Nat} (hpos : 0 < n)
    : ∃ d rest, printNat n = d :: rest ∧ d ≠ 48 := by
  induction n using Nat.strongRecOn with
  | _ n ih =>
    rw [printNat_eq]
    split
    . next h =>
      refine ⟨digitByte (n % 10), [], rfl, ?_⟩
      apply digitByte_ne_zero
      . omega
      . omega
    . rcases ih (n / 10) (by omega) (by omega) with ⟨d, rest, heq, hd⟩
      exact ⟨d, rest ++ [digitByte (n % 10)], by rw [heq, List.cons_append], hd⟩

/--
`c` ends every decimal number, the zero included.
-/
def EndsNumber (c : UInt8) : Prop := isDigit 10 c = false ∧ isHexMark c = false

theorem EndsNumber.octal {c : UInt8} (h : EndsNumber c) : isDigit 8 c = false := by
  have := h.1
  simp only [isDigit, decide_eq_false_iff_not] at this ⊢
  omega

theorem scanNumber_decimal {digits rest : List UInt8} {c d : UInt8} (hd : d ≠ 48)
    (hdigits : ∀ c ∈ d :: digits, isDigit 10 c) (hc : EndsNumber c)
    : scanNumber (d :: digits ++ c :: rest)
        =
      .ok (some (digitsValue 10 0 (d :: digits), digits.length + 1)) := by
  have hscan := @scanDigits_append 10 0 (d :: digits) rest c hdigits hc.1
  have hfirst := hdigits d (by simp)
  rw [List.cons_append] at hscan ⊢
  simp [scanNumber, hd, hfirst, hscan]

theorem scanNumber_octal {digits rest : List UInt8} {c : UInt8}
    (hdigits : ∀ c ∈ digits, isDigit 8 c) (hc : EndsNumber c)
    : scanNumber (48 :: digits ++ c :: rest)
        =
      .ok (some (digitsValue 8 0 digits, digits.length + 1)) := by
  have hscan := @scanDigits_append 8 0 digits rest c hdigits hc.octal
  cases digits with
  | nil =>
    simp only [List.nil_append] at hscan
    simp [scanNumber, hc.2, hscan]
  | cons x digits =>
    have hx : isHexMark x = false := by
      rw [← Bool.not_eq_true]
      intro hx
      have := hdigits x (by simp)
      rw [not_isDigit_hexMark hx] at this
      simp at this
    rw [List.cons_append] at hscan
    simp [scanNumber, hx, hscan]

theorem scanNumber_printNat (n : Nat) {c : UInt8} (rest : List UInt8) (hc : EndsNumber c)
    : scanNumber (printNat n ++ c :: rest) = .ok (some (n, (printNat n).length)) := by
  rcases Nat.eq_zero_or_pos n with rfl | hpos
  . rw [printNat_zero]
    exact @scanNumber_octal [] rest c (by simp) hc
  . rcases printNat_eq_cons hpos with ⟨d, digits, heq, hne⟩
    have hdigits := isDigit_printNat n
    have hvalue := digitsValue_printNat n
    rw [heq] at hdigits hvalue ⊢
    rw [scanNumber_decimal hne hdigits hc, hvalue, List.length_cons]

theorem startsNumber_cons {d : UInt8} (s : List UInt8) (hd : isDigit 10 d)
    : StartsNumber (d :: s) := by
  rintro c rest heq
  rw [← (List.cons.inj heq).1]
  exact isDigit_ten hd

theorem startsNumber_printNat (n : Nat) (s : List UInt8) : StartsNumber (printNat n ++ s) := by
  cases hprint : printNat n with
  | nil => simp [printNat] at hprint
  | cons d digits => exact startsNumber_cons _ (isDigit_printNat n d (by simp [hprint]))

theorem strtol_number {number : List UInt8} {value len : Nat} (hstart : StartsNumber number)
    (hscan : scanNumber number = .ok (some (value, len)))
    : strtol number = .ok { value := clampLong value, endptr := len } := by
  have hres := @strtol_append [] [] number (by simp) .none (fun _ => hstart)
  rw [hscan] at hres
  simpa [Except.map] using hres

theorem strtol_minus {number : List UInt8} {value len : Nat}
    (hscan : scanNumber number = .ok (some (value, len)))
    : strtol (45 :: number) = .ok { value := clampLong (-value), endptr := len + 1 } := by
  have hres := @strtol_append [] [45] number (by simp) .minus (by simp)
  rw [hscan] at hres
  simpa [Except.map, Nat.add_comm] using hres

theorem strtol_printInt (i : Int) {c : UInt8} (rest : List UInt8) (hc : EndsNumber c)
    : strtol (printInt i ++ c :: rest)
        =
      .ok { value := clampLong i, endptr := (printInt i).length } := by
  unfold printInt
  split
  . next hneg =>
    have habs : -(i.natAbs : Int) = i := by omega
    rw [List.cons_append, strtol_minus (scanNumber_printNat _ _ hc), habs, List.length_cons]
  . next hpos =>
    have habs : (i.natAbs : Int) = i := by omega
    rw [strtol_number (startsNumber_printNat _ _) (scanNumber_printNat _ _ hc), habs]

theorem clampLong_of_int {i : Int} (hlo : intMin ≤ i) (hhi : i ≤ intMax) : clampLong i = i := by
  unfold clampLong
  simp only [longMax, longMin, intMin, intMax] at *
  omega

theorem clampLong_of_le {i : Int} (h : longMax ≤ i) : clampLong i = longMax := by
  unfold clampLong
  simp only [longMax, longMin] at *
  omega

theorem digitsValue_sevens {base : Nat} (hbase : 8 ≤ base) (acc k : Nat)
    : (acc + 1) * 8 ^ k ≤ digitsValue base acc (List.replicate k 55) + 1 := by
  induction k generalizing acc with
  | zero => simp [digitsValue]
  | succ k ih =>
    have hstep : (acc + 1) * 8 ≤ acc * base + 7 + 1 := by
      have := Nat.mul_le_mul_left acc hbase
      omega
    calc (acc + 1) * 8 ^ (k + 1)
        = (acc + 1) * 8 * 8 ^ k := by rw [Nat.pow_succ, Nat.mul_assoc, Nat.mul_comm 8]
      _ ≤ (acc * base + 7 + 1) * 8 ^ k := Nat.mul_le_mul_right _ hstep
      _ ≤ digitsValue base (acc * base + 7) (List.replicate k 55) + 1 := ih _
      _ = digitsValue base acc (List.replicate (k + 1) 55) + 1 := rfl

theorem longMax_le_sevens {base k : Nat} (hbase : 8 ≤ base) (hk : 21 ≤ k) (acc : Nat)
    : longMax ≤ digitsValue base acc (List.replicate k 55) := by
  have hsevens := digitsValue_sevens hbase acc k
  have hpow : 8 ^ 21 ≤ 8 ^ k := Nat.pow_le_pow_right (by omega) hk
  have hacc : 8 ^ k ≤ (acc + 1) * 8 ^ k := Nat.le_mul_of_pos_left _ (by omega)
  simp only [longMax]
  omega

theorem cut_cases {digits : List UInt8} {n : Nat} (hcut : digits <+: printNat n) (k : Nat)
    : digits = [48] ∨ ∃ d ds, digits ++ List.replicate (k + 1) 55 = d :: ds ++ List.replicate k 55
        ∧ d ≠ 48 ∧ ∀ c ∈ d :: ds, isDigit 10 c := by
  cases digits with
  | nil =>
    -- No digit arrived, the first seven starts the number.
    refine .inr ⟨55, [], rfl, by decide, ?_⟩
    intro c hc
    rw [List.mem_singleton.mp hc]
    rfl
  | cons d digits =>
    rcases Nat.eq_zero_or_pos n with rfl | hpos
    . rw [printNat_zero, List.cons_prefix_cons, List.prefix_nil] at hcut
      exact .inl (by rw [hcut.1, hcut.2])
    . rcases printNat_eq_cons hpos with ⟨d', rest, heq, hne⟩
      have hdigits := fun c hc => isDigit_printNat n c (hcut.subset hc)
      rw [heq, List.cons_prefix_cons] at hcut
      refine .inr ⟨d, digits ++ [55], ?_, ?_, ?_⟩
      . simp [List.replicate_succ]
      . rw [hcut.1]
        exact hne
      . intro c hc
        rw [← List.cons_append, List.mem_append, List.mem_singleton] at hc
        rcases hc with hc | rfl
        . exact hdigits c hc
        . rfl

/--
When the text of a number is cut off and sevens follow, in whatever base they are read, the result
is the largest `long int`.
-/
theorem strtol_cut {digits rest : List UInt8} {c : UInt8} {n k : Nat}
    (hcut : digits <+: printNat n) (hk : 22 ≤ k) (hc : EndsNumber c)
    : ∃ res, strtol (digits ++ (List.replicate k 55 ++ c :: rest)) = .ok res
        ∧ res.value = longMax := by
  rcases k with _ | k
  . omega
  rw [← List.append_assoc]
  rcases cut_cases hcut k with rfl | ⟨d, ds, heq, hd, hdigits⟩
  . have hseven : ∀ c ∈ List.replicate (k + 1) 55, isDigit 8 c := by
      intro c hc
      rw [(List.mem_replicate.mp hc).2]
      rfl
    refine ⟨_, strtol_number (startsNumber_cons _ (by decide)) (scanNumber_octal hseven hc), ?_⟩
    exact clampLong_of_le (longMax_le_sevens (Nat.le_refl 8) (by omega) 0)
  . have hall : ∀ c ∈ d :: (ds ++ List.replicate k 55), isDigit 10 c := by
      intro c hc
      rw [← List.cons_append, List.mem_append] at hc
      rcases hc with hc | hc
      . exact hdigits c hc
      . rw [(List.mem_replicate.mp hc).2]
        rfl
    have hstart := startsNumber_cons (ds ++ List.replicate k 55 ++ c :: rest) (hdigits d (by simp))
    have hvalue : longMax ≤ digitsValue 10 0 (d :: ds ++ List.replicate k 55) := by
      rw [digitsValue_append]
      exact longMax_le_sevens (by omega) (by omega) _
    rw [heq]
    exact ⟨_, strtol_number hstart (scanNumber_decimal hd hall hc), clampLong_of_le hvalue⟩

end C
