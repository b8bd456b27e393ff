import SgxNfv.Lib.CString.Print

/-!
This module contains the round trip of bytes that are printed with `%02x`.
-/

namespace C

def hexDigit (d : Nat) : UInt8 := if d < 10 then digitByte d else UInt8.ofNat (87 + d)

/--
`%02x`
-/
def printHexByte (b : UInt8) : List UInt8 := [hexDigit (b.toNat / 16), hexDigit (b.toNat % 16)]

def printHex (bytes : List UInt8) : List UInt8 := bytes.flatMap printHexByte

/--
The bytes that are written out in pairs of digits, `none` when something else stands between them.
-/
def scanHex : List UInt8 → Option (List UInt8)
  | [] => some []
  | [_] => none
  | hi :: lo :: s =>
    if isDigit 16 hi && isDigit 16 lo then
      (scanHex s).map (UInt8.ofNat (16 * digitVal hi + digitVal lo) :: ·)
    else
      none

theorem digitVal_hexDigit : ∀ d < 16, digitVal (hexDigit d) = d := by decide

theorem hexDigit_ne_zero : ∀ d < 16, hexDigit d ≠ 0 := by decide

theorem isDigit_hexDigit {d : Nat} (hd : d < 16) : isDigit 16 (hexDigit d) = true := by
  rw [isDigit, digitVal_hexDigit d hd]
  exact decide_eq_true hd

theorem length_printHex (bytes : List UInt8) : (printHex bytes).length = 2 * bytes.length := by
  induction bytes with
  | nil => rfl
  | cons b bytes ih =>
    rw [printHex, List.flatMap_cons, List.length_append, ← printHex, ih, List.length_cons]
    exact Nat.add_comm _ _

theorem zero_not_mem_printHex (bytes : List UInt8) : (0 : UInt8) ∉ printHex bytes := by
  intro hmem
  rcases List.mem_flatMap.mp hmem with ⟨b, _, hdigit⟩
  have hb := b.toNat_lt
  simp only [printHexByte, List.mem_cons, List.not_mem_nil, or_false] at hdigit
  rcases hdigit with hhi | hlo
  . exact hexDigit_ne_zero _ (by omega) hhi.symm
  . exact hexDigit_ne_zero _ (by omega) hlo.symm

theorem scanHex_printHex (bytes : List UInt8) : scanHex (printHex bytes) = some bytes := by
  induction bytes with
  | nil => rfl
  | cons b bytes ih =>
    have hb := b.toNat_lt
    have hbyte : UInt8.ofNat (16 * (b.toNat / 16) + b.toNat % 16) = b := by
      rw [Nat.div_add_mod, UInt8.ofNat_toNat]
    rw [printHex, List.flatMap_cons, ← printHex, printHexByte, List.cons_append, List.cons_append,
      List.nil_append, scanHex, isDigit_hexDigit (by omega), isDigit_hexDigit (by omega), ih,
      digitVal_hexDigit _ (by omega), digitVal_hexDigit _ (by omega), hbyte]
    rfl

theorem printHex_inj {bytes bytes' : List UInt8} (h : printHex bytes = printHex bytes')
    : bytes = bytes' := by
  have hscan := scanHex_printHex bytes
  rw [h, scanHex_printHex] at hscan
  exact (Option.some.inj hscan).symm

end C
