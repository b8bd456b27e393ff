import SgxNfv.Click.Impl.Sha256
import SgxNfv.Sha256.Lemmas.Digest
import SgxNfv.Click.Lemmas

/-!
This module contains the verification of the Click elements that hash packets, over whole runs.
-/

open C Processor

namespace Click

theorem HashElement.run_eq {push : HashElement → α → Except Fault (HashElement × Packet × List UInt8)}
    {out : α → Packet × List UInt8} {ps : List α} {s : HashElement}
    (hpush : ∀ s, ∀ p ∈ ps,
      push s p = (addInt s.count 1).map fun count => ({ count }, out p))
    (hcount : 0 ≤ s.count) (hmax : s.count ≤ intMax)
    : HashElement.run push s ps
        =
      if s.count + ps.length ≤ intMax then
        .ok ({ count := s.count + ps.length }, ps.map out)
      else
        .error .signedOverflow := by
  induction ps generalizing s with
  | nil =>
    rw [List.length_nil, Int.natCast_zero, Int.add_zero, if_pos hmax]
    rfl
  | cons p ps ih =>
    rw [HashElement.run, hpush s p List.mem_cons_self, List.length_cons, Nat.cast_succ]
    rcases Int.lt_or_le intMax (s.count + 1) with hover | hfits
    . rw [if_neg (by omega), addInt_overflow hover]
      rfl
    . have hrest := @ih { count := s.count + 1 } (fun s p hp => hpush s p (List.mem_cons_of_mem _ hp))
        (by simp only; omega) hfits
      rw [addInt_of_nonneg (by omega) hfits rfl]
      simp only [Except.map, Except.ok_bind, hrest]
      rw [Int.add_assoc, Int.add_comm 1]
      split
      . rfl
      . rfl

namespace HashPush

/--
What the element without the enclave hands on, and hashes.
-/
def hashed (p : HashPush) : Packet × List UInt8 := (p.packet, FIPS180.sha256 p.packet.data)

/--
The same for the element that asks the enclave. The hash is zero when the enclave does not answer.
-/
def hashedBySgx (p : HashPush) : Packet × List UInt8 :=
  if p.status = sgxSuccess then p.hashed else (p.packet, List.replicate 32 0)

variable {p : HashPush}

theorem push_noSgx (hmax : p.packet.data.length < 2 ^ 29) (s : HashElement)
    : BasicElementNoSGXSHA256.push s p
        =
      (addInt s.count 1).map fun count => ({ count }, p.hashed) := by
  have hhash : SHA256.callProcessPacketNoSgxSha256 p.digest p.packet.data p.packet.length
      = .ok (FIPS180.sha256 p.packet.data) :=
    SHA256.hashOnce_eq p.digest p.packet.toNat_length hmax
  rw [BasicElementNoSGXSHA256.push, HashElement.push, hhash]
  cases addInt s.count 1 with
  | error e => rfl
  | ok count => rfl

theorem push_sgx (hmax : p.packet.data.length < 2 ^ 29) (s : HashElement)
    : BasicElementSHA256.push s p
        =
      (addInt s.count 1).map fun count => ({ count }, p.hashedBySgx) := by
  by_cases hstatus : p.status = sgxSuccess
  . have hhash : SHA256.callProcessPacketSgxSha256 p.status p.digest p.packet.data p.packet.length
        = .ok (FIPS180.sha256 p.packet.data) := by
      rw [SHA256.callProcessPacketSgxSha256, if_pos hstatus]
      exact SHA256.hashOnce_eq p.digest p.packet.toNat_length hmax
    rw [BasicElementSHA256.push, HashElement.push, hhash, hashedBySgx, if_pos hstatus]
    cases addInt s.count 1 with
    | error e => rfl
    | ok count => rfl
  . rw [BasicElementSHA256.push, HashElement.push, SHA256.callProcessPacketSgxSha256, if_neg hstatus,
      hashedBySgx, if_neg hstatus]
    cases addInt s.count 1 with
    | error e => rfl
    | ok count => rfl

end HashPush

/--
Both elements hand on every packet as it came, and hash all of them, for as long as the counter is able
to count. The hash of the enclave is missing exactly where the enclave does not answer.
-/
theorem hashElements_run (ps : List HashPush) (hmax : ∀ p ∈ ps, p.packet.data.length < 2 ^ 29)
    : (ps.length ≤ intMax →
          BasicElementNoSGXSHA256.run ps = .ok ({ count := ps.length }, ps.map HashPush.hashed)
            ∧ BasicElementSHA256.run ps = .ok ({ count := ps.length }, ps.map HashPush.hashedBySgx))
        ∧ (intMax < ps.length →
          BasicElementNoSGXSHA256.run ps = .error .signedOverflow
            ∧ BasicElementSHA256.run ps = .error .signedOverflow) := by
  have hnoSgx := @HashElement.run_eq _ BasicElementNoSGXSHA256.push HashPush.hashed ps .initial
    (fun s p hp => HashPush.push_noSgx (hmax p hp) s) (le_refl 0) (by decide)
  have hsgx := @HashElement.run_eq _ BasicElementSHA256.push HashPush.hashedBySgx ps .initial
    (fun s p hp => HashPush.push_sgx (hmax p hp) s) (le_refl 0) (by decide)
  simp only [HashElement.initial, Int.zero_add] at hnoSgx hsgx
  constructor
  . intro hlength
    rw [if_pos hlength] at hnoSgx hsgx
    exact ⟨hnoSgx, hsgx⟩
  . intro hover
    rw [if_neg (Int.not_le.mpr hover)] at hnoSgx hsgx
    exact ⟨hnoSgx, hsgx⟩

def abcPacket : Packet where
  data := [0x61, 0x62, 0x63]
  fits := by decide

theorem hashElements_run_abc
    : BasicElementSHA256.run
          [
            { packet := abcPacket, digest := SHA256.garbage, status := sgxSuccess },
            { packet := abcPacket, digest := SHA256.garbage, status := 1 }
          ]
        =
      .ok ({ count := 2 }, [
        (abcPacket, FIPS180.sha256 [0x61, 0x62, 0x63]),
        (abcPacket, List.replicate 32 0)
      ]) :=
  ((hashElements_run _ (by decide)).1 (by decide)).2

end Click
