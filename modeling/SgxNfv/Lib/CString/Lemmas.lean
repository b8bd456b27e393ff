import SgxNfv.Lib.CString.Basic

/-!
This module contains the theory of the C string functions: on which strings they read past the end
of the object, and that `strtol` reads back what `%i` prints.
-/

namespace C

theorem strncmp_append (lit s : List UInt8) : strncmp lit (lit ++ s) = .ok true := by
  induction lit with
  | nil => rfl
  | cons a lit ih => simpa [strncmp] using ih

theorem strncmp_eq_true {lit s : List UInt8} (h : strncmp lit s = .ok true) : lit <+: s := by
  induction lit generalizing s with
  | nil => exact List.nil_prefix
  | cons a lit ih =>
    cases s with
    | nil => simp [strncmp] at h
    | cons b s =>
      simp only [strncmp] at h
      split at h
      . next heq =>
        rw [heq, List.cons_prefix_cons]
        exact ⟨rfl, ih h⟩
      . simp at h

theorem strncmp_eq_error_iff {lit s : List UInt8}
    : strncmp lit s = .error .outOfBounds ↔ s <+: lit ∧ s.length < lit.length := by
  induction lit generalizing s with
  | nil => simp [strncmp]
  | cons a lit ih =>
    cases s with
    | nil => simp [strncmp]
    | cons b s =>
      simp only [strncmp, List.cons_prefix_cons, List.length_cons, Nat.add_lt_add_iff_right]
      split
      . next heq => simp [ih, heq]
      . next hne => simp [Ne.symm hne]

theorem strncmp_eq_error {lit s : List UInt8} {e : Fault} (h : strncmp lit s = .error e)
    : e = .outOfBounds := by
  induction lit generalizing s with
  | nil => simp [strncmp] at h
  | cons a lit ih =>
    cases s with
    | nil => simpa [strncmp] using h.symm
    | cons b s =>
      simp only [strncmp] at h
      split at h
      . exact ih h
      . simp at h

theorem strncmp_of_prefix {lit s : List UInt8} (h : lit <+: s) : strncmp lit s = .ok true := by
  rcases h with ⟨rest, rfl⟩
  exact strncmp_append lit rest

theorem strncmp_cases (lit s : List UInt8)
    : (strncmp lit s = .ok true ∧ lit <+: s)
      ∨ (strncmp lit s = .ok false ∧ ¬ lit <+: s ∧ ¬ (s <+: lit ∧ s.length < lit.length))
      ∨ (strncmp lit s = .error .outOfBounds ∧ ¬ lit <+: s ∧ s <+: lit ∧ s.length < lit.length) := by
  have hpre : lit <+: s → strncmp lit s = .ok true := strncmp_of_prefix
  cases h : strncmp lit s with
  | error e =>
    have he := strncmp_eq_error h
    subst he
    refine .inr (.inr ⟨rfl, ?_, strncmp_eq_error_iff.mp h⟩)
    intro hp
    rw [hpre hp] at h
    simp at h
  | ok b =>
    cases b with
    | true => exact .inl ⟨rfl, strncmp_eq_true h⟩
    | false =>
      refine .inr (.inl ⟨rfl, ?_, ?_⟩)
      . intro hp
        rw [hpre hp] at h
        simp at h
      . rw [← strncmp_eq_error_iff, h]
        simp

theorem strlen_append {s : List UInt8} (hs : (0 : UInt8) ∉ s) (rest : List UInt8)
    : strlen (s ++ 0 :: rest) = .ok s.length := by
  induction s with
  | nil => rfl
  | cons c s ih =>
    rw [List.mem_cons, not_or] at hs
    rw [List.cons_append, strlen, if_neg (Ne.symm hs.1), ih hs.2]
    rfl

theorem all_or_append_cons (p : UInt8 → Bool) (s : List UInt8)
    : (∀ c ∈ s, p c) ∨ ∃ run c rest, s = run ++ c :: rest ∧ (∀ c ∈ run, p c) ∧ p c = false := by
  induction s with
  | nil => simp
  | cons a s ih =>
    cases ha : p a with
    | false => exact .inr ⟨[], a, s, by simp [ha]⟩
    | true =>
      rcases ih with hall | ⟨run, c, rest, rfl, hrun, hc⟩
      . left
        simpa [ha] using hall
      . refine .inr ⟨a :: run, c, rest, rfl, ?_, hc⟩
        simpa [ha] using hrun

def digitsValue (base acc : Nat) (digits : List UInt8) : Nat :=
  digits.foldl (fun acc c => acc * base + digitVal c) acc

theorem scanDigits_append {base acc : Nat} {digits rest : List UInt8} {c : UInt8}
    (hdigits : ∀ c ∈ digits, isDigit base c) (hc : isDigit base c = false)
    : scanDigits base (digits ++ c :: rest) acc
        =
      .ok (digitsValue base acc digits, digits.length) := by
  induction digits generalizing acc with
  | nil => simp [scanDigits, hc, digitsValue]
  | cons d digits ih =>
    have hd := hdigits d (by simp)
    have hrest := fun c hc => hdigits c (List.mem_cons_of_mem d hc)
    simp [scanDigits, hd, ih hrest, digitsValue]

theorem scanDigits_all {base acc : Nat} {digits : List UInt8} (h : ∀ c ∈ digits, isDigit base c)
    : scanDigits base digits acc = .error .outOfBounds := by
  induction digits generalizing acc with
  | nil => rfl
  | cons d digits ih =>
    have hd := h d (by simp)
    simp [scanDigits, hd, ih (fun c hc => h c (List.mem_cons_of_mem d hc))]

theorem all_of_scanDigits_bind {base acc : Nat} {s : List UInt8} {f : Nat × Nat → Except Fault α}
    (hf : ∀ res, f res ≠ .error .outOfBounds)
    (h : scanDigits base s acc >>= f = .error .outOfBounds) : ∀ c ∈ s, isDigit base c := by
  rcases all_or_append_cons (isDigit base) s with hall | ⟨run, c, rest, rfl, hrun, hc⟩
  . exact hall
  . rw [scanDigits_append hrun hc, Except.ok_bind] at h
    exact absurd h (hf _)

theorem scanSpace_append {spaces rest : List UInt8} {c : UInt8}
    (hspaces : ∀ c ∈ spaces, isSpace c) (hc : isSpace c = false)
    : scanSpace (spaces ++ c :: rest) = .ok spaces.length := by
  induction spaces with
  | nil => simp [scanSpace, hc]
  | cons a spaces ih =>
    have ha := hspaces a (by simp)
    simp [scanSpace, ha, ih (fun c hc => hspaces c (List.mem_cons_of_mem a hc))]

theorem scanSpace_all {spaces : List UInt8} (h : ∀ c ∈ spaces, isSpace c)
    : scanSpace spaces = .error .outOfBounds := by
  induction spaces with
  | nil => rfl
  | cons a spaces ih =>
    have ha := h a (by simp)
    simp [scanSpace, ha, ih (fun c hc => h c (List.mem_cons_of_mem a hc))]

inductive IsNumber : List UInt8 → Prop where
  | decimal (c : UInt8) (s : List UInt8) (hne : c ≠ 48) (h : ∀ d ∈ c :: s, isDigit 10 d)
      : IsNumber (c :: s)
  | octal (s : List UInt8) (h : ∀ d ∈ s, isDigit 8 d) : IsNumber (48 :: s)
  | hex (x d : UInt8) (s : List UInt8) (hx : isHexMark x) (h : ∀ c ∈ d :: s, isDigit 16 c)
      : IsNumber (48 :: x :: d :: s)

/--
A text that ends before it is decided where its number ends.
-/
inductive IsUnfinished : List UInt8 → Prop where
  | nil : IsUnfinished []
  | mark (x : UInt8) (hx : isHexMark x) : IsUnfinished [48, x]
  | number (s : List UInt8) (h : IsNumber s) : IsUnfinished s

theorem not_isDigit_hexMark {x : UInt8} (hx : isHexMark x) : isDigit 8 x = false := by
  simp only [isHexMark, Bool.or_eq_true, decide_eq_true_eq] at hx
  rcases hx with rfl | rfl
  all_goals decide

theorem isUnfinished_of_scanNumber {s : List UInt8} (h : scanNumber s = .error .outOfBounds)
    : IsUnfinished s := by
  unfold scanNumber at h
  split at h
  . exact .nil
  . next c s =>
    split at h
    . next hc =>
      subst hc
      split at h
      . exact .number _ (.octal [] (by simp))
      . next x s' =>
        split at h
        . next hx =>
          split at h
          . exact .mark x hx
          . next d rest =>
            split at h
            . exact .number _ (.hex x d rest hx (all_of_scanDigits_bind (by simp) h))
            . simp at h
        . exact .number _ (.octal _ (all_of_scanDigits_bind (by simp) h))
    . next hc =>
      split at h
      . exact .number _ (.decimal c s hc (all_of_scanDigits_bind (by simp) h))
      . simp at h

theorem IsNumber.scanNumber_eq {s : List UInt8} (h : IsNumber s)
    : scanNumber s = .error .outOfBounds := by
  cases h with
  | decimal c s hne h =>
    have hc := h c (by simp)
    simp [scanNumber, hne, hc, scanDigits_all h]
  | octal s h =>
    cases s with
    | nil => rfl
    | cons x s =>
      have hx : isHexMark x = false := by
        cases hx : isHexMark x with
        | false => rfl
        | true =>
          have := h x (by simp)
          rw [not_isDigit_hexMark hx] at this
          simp at this
      simp [scanNumber, hx, scanDigits_all h]
  | hex x d s hx h =>
    have hd := h d (by simp)
    simp [scanNumber, hx, hd, scanDigits_all h]

theorem scanNumber_eq_error_iff {s : List UInt8}
    : scanNumber s = .error .outOfBounds ↔ IsUnfinished s := by
  constructor
  . exact isUnfinished_of_scanNumber
  . intro h
    cases h with
    | nil => rfl
    | mark x hx => simp [scanNumber, hx]
    | number _ h => exact h.scanNumber_eq

theorem isDigit_ten {c : UInt8} (h : isDigit 10 c) : isSpace c = false ∧ c ≠ 45 ∧ c ≠ 43 := by
  simp only [isDigit, digitVal] at h
  simp only [isSpace]
  grind

inductive IsSign : List UInt8 → Prop where
  | none : IsSign []
  | minus : IsSign [45]
  | plus : IsSign [43]

/--
`number` cannot be taken for the white space or the sign before it.
-/
def StartsNumber (number : List UInt8) : Prop :=
  ∀ c rest, number = c :: rest → isSpace c = false ∧ c ≠ 45 ∧ c ≠ 43

theorem IsNumber.startsNumber {s : List UInt8} (h : IsNumber s) : StartsNumber s := by
  rintro c rest rfl
  cases h with
  | decimal _ _ _ h => exact isDigit_ten (h c (by simp))
  | octal => decide
  | hex => decide

theorem IsUnfinished.startsNumber {s : List UInt8} (h : IsUnfinished s) : StartsNumber s := by
  cases h with
  | nil => simp [StartsNumber]
  | mark x hx =>
    rintro c rest heq
    rw [← (List.cons.inj heq).1]
    decide
  | number _ h => exact h.startsNumber

theorem exists_parts (s : List UInt8)
    : ∃ spaces sign number, s = spaces ++ (sign ++ number) ∧ (∀ c ∈ spaces, isSpace c)
        ∧ IsSign sign ∧ (sign = [] → StartsNumber number) := by
  rcases all_or_append_cons isSpace s with hall | ⟨spaces, c, rest, rfl, hspaces, hc⟩
  . exact ⟨s, [], [], by simp, hall, .none, by simp [StartsNumber]⟩
  . by_cases hminus : c = 45
    . exact ⟨spaces, [45], rest, by simp [hminus], hspaces, .minus, by simp⟩
    . by_cases hplus : c = 43
      . exact ⟨spaces, [43], rest, by simp [hplus], hspaces, .plus, by simp⟩
      . refine ⟨spaces, [], c :: rest, rfl, hspaces, .none, ?_⟩
        rintro _ c' rest' heq
        rw [← (List.cons.inj heq).1]
        exact ⟨hc, hminus, hplus⟩

theorem scanSigned_append {sign number : List UInt8} (hsign : IsSign sign)
    (hnumber : sign = [] → StartsNumber number)
    : scanSigned (sign ++ number)
        =
      (scanNumber number).map (fun res => res.map fun (value, len) =>
        (if sign = [45] then -(value : Int) else value, sign.length + len)) := by
  cases hsign with
  | none =>
    cases number with
    | nil => rfl
    | cons c rest =>
      have hc := hnumber rfl c rest rfl
      simp only [List.nil_append, scanSigned, hc.2.1, hc.2.2, ↓reduceIte, Except.pure_eq_ok,
        List.length_nil, Nat.zero_add]
      cases scanNumber (c :: rest) with
      | error e => rfl
      | ok res => rfl
  | minus =>
    simp only [List.singleton_append, scanSigned, ↓reduceIte, Except.pure_eq_ok,
      List.length_singleton, Nat.add_comm 1]
    cases scanNumber number with
    | error e => rfl
    | ok res => rfl
  | plus =>
    simp only [List.singleton_append, scanSigned, Except.pure_eq_ok, List.length_singleton,
      Nat.add_comm 1]
    cases scanNumber number with
    | error e => rfl
    | ok res => rfl

/--
`strtol` in terms of the number behind white space and sign.
-/
theorem strtol_append {spaces sign number : List UInt8} (hspaces : ∀ c ∈ spaces, isSpace c)
    (hsign : IsSign sign) (hnumber : sign = [] → StartsNumber number)
    : strtol (spaces ++ (sign ++ number))
        =
      (scanNumber number).map (fun
        | none => { value := 0, endptr := 0 }
        | some (value, len) => {
            value := clampLong (if sign = [45] then -(value : Int) else value),
            endptr := spaces.length + (sign.length + len)
          }) := by
  cases hrest : sign ++ number with
  | nil =>
    rcases List.append_eq_nil_iff.mp hrest with ⟨rfl, rfl⟩
    simp [strtol, scanSpace_all hspaces, scanNumber, Except.map]
  | cons c rest =>
    have hc : isSpace c = false := by
      cases hsign with
      | none => exact (hnumber rfl c rest (by simpa using hrest)).1
      | minus =>
        rw [← (List.cons.inj hrest).1]
        decide
      | plus =>
        rw [← (List.cons.inj hrest).1]
        decide
    unfold strtol
    rw [scanSpace_append hspaces hc, Except.ok_bind, List.drop_left, ← hrest,
      scanSigned_append hsign hnumber]
    cases scanNumber number with
    | error e => rfl
    | ok res =>
      cases res with
      | none => rfl
      | some res => rfl

def RunsOff (s : List UInt8) : Prop :=
  ∃ spaces sign number, s = spaces ++ (sign ++ number) ∧ (∀ c ∈ spaces, isSpace c)
    ∧ IsSign sign ∧ IsUnfinished number

theorem strtol_eq_error_iff {s : List UInt8} : strtol s = .error .outOfBounds ↔ RunsOff s := by
  constructor
  . intro h
    rcases exists_parts s with ⟨spaces, sign, number, rfl, hspaces, hsign, hnumber⟩
    rw [strtol_append hspaces hsign hnumber] at h
    refine ⟨spaces, sign, number, rfl, hspaces, hsign, ?_⟩
    rw [← scanNumber_eq_error_iff]
    cases hres : scanNumber number with
    | error e => simpa [hres, Except.map] using h
    | ok res => simp [hres, Except.map] at h
  . rintro ⟨spaces, sign, number, rfl, hspaces, hsign, hnumber⟩
    rw [strtol_append hspaces hsign (fun _ => hnumber.startsNumber),
      scanNumber_eq_error_iff.mpr hnumber]
    rfl

theorem scanDigits_cases (base acc : Nat) (s : List UInt8)
    : scanDigits base s acc = .error .outOfBounds
      ∨ ∃ value len, scanDigits base s acc = .ok (value, len) ∧ len < s.length := by
  rcases all_or_append_cons (isDigit base) s with hall | ⟨run, c, rest, rfl, hrun, hc⟩
  . exact .inl (scanDigits_all hall)
  . refine .inr ⟨_, _, scanDigits_append hrun hc, ?_⟩
    rw [List.length_append, List.length_cons]
    omega

theorem scanNumber_cases (s : List UInt8)
    : scanNumber s = .error .outOfBounds ∨ scanNumber s = .ok none
      ∨ ∃ value len, scanNumber s = .ok (some (value, len)) ∧ len < s.length := by
  unfold scanNumber
  split
  . simp
  . next c s =>
    split
    . split
      . simp
      . next x s =>
        split
        . split
          . simp
          . next d s =>
            split
            . rcases scanDigits_cases 16 0 (d :: s) with h | ⟨value, len, h, hlen⟩
              . simp [h]
              . simpa [h] using hlen
            . simp
        . rcases scanDigits_cases 8 0 (x :: s) with h | ⟨value, len, h, hlen⟩
          . simp [h]
          . simpa [h] using hlen
    . split
      . rcases scanDigits_cases 10 0 (c :: s) with h | ⟨value, len, h, hlen⟩
        . simp [h]
        . simpa [h] using hlen
      . simp

theorem strtol_cases (s : List UInt8)
    : strtol s = .error .outOfBounds
      ∨ ∃ res, strtol s = .ok res ∧ res.endptr ≤ s.length
          ∧ longMin ≤ res.value ∧ res.value ≤ longMax := by
  have hclamp : ∀ i, longMin ≤ clampLong i ∧ clampLong i ≤ longMax := by
    intro i
    simp only [clampLong, longMin, longMax]
    omega
  rcases exists_parts s with ⟨spaces, sign, number, rfl, hspaces, hsign, hnumber⟩
  rw [strtol_append hspaces hsign hnumber]
  rcases scanNumber_cases number with h | h | ⟨value, len, h, hlen⟩
  . rw [h]
    exact .inl rfl
  . rw [h]
    refine .inr ⟨{ value := 0, endptr := 0 }, rfl, Nat.zero_le _, ?_, ?_⟩
    all_goals decide
  . rw [h]
    refine .inr ⟨_, rfl, ?_, hclamp _⟩
    simp only [List.length_append]
    omega

theorem strtol_eq_ok {s : List UInt8} {res : Strtol} (h : strtol s = .ok res)
    : res.endptr ≤ s.length ∧ longMin ≤ res.value ∧ res.value ≤ longMax := by
  rcases strtol_cases s with herr | ⟨res', hok, hres⟩
  . rw [herr] at h
    simp at h
  . rw [hok] at h
    rw [← Except.ok.inj h]
    exact hres

end C
