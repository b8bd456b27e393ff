import SgxNfv.Click.Impl
import SgxNfv.Processor.Lemmas.SharedScan
import Mathlib.Algebra.BigOperators.Group.List.Basic

/-!
This module contains the accounting of the Click elements: which runs leave in `sgxSum` the counts
of exactly the packets that were processed.
-/

open C Processor

namespace Click

@[simp]
theorem Packet.toNat_length (p : Packet) : p.length.toNat = p.data.length :=
  UInt32.toNat_ofNat_of_lt' p.fits

namespace Element

variable {process : List UInt8 → UInt32 → Option (Except Fault Int)} {s s' : Element}
  {p q : Packet} {r : Int}

theorem push_eq_ok (hprocess : process p.data p.length = some (.ok r))
    (hcount : addInt s.count 1 = .ok (s.count + 1))
    (hsum : addLong s.sgxSum r = .ok (s.sgxSum + r))
    : s.push process p = some (.ok ({ count := s.count + 1, sgxSum := s.sgxSum + r }, p)) := by
  simp [push, hcount, hprocess, hsum]

theorem push_cases (h : s.push process p = some (.ok (s', q)))
    : ∃ r, process p.data p.length = some (.ok r)
        ∧ s' = { count := s.count + 1, sgxSum := s.sgxSum + r }
        ∧ s.count + 1 ≤ intMax ∧ q = p := by
  unfold push at h
  split at h
  . simp at h
  . next count hcount =>
    have hcount := addInt_eq_ok hcount
    rcases Option.map_eq_some_iff.mp h with ⟨res, hprocess, hbody⟩
    rcases Except.bind_eq_ok.mp hbody with ⟨r, hres, hadd⟩
    rcases Except.bind_eq_ok.mp hadd with ⟨sum, hsum, hret⟩
    have hsum := addLong_eq_ok hsum
    simp only [Except.pure_eq_ok, Except.ok.injEq, Prod.mk.injEq] at hret
    refine ⟨r, ?_, ?_, ?_, hret.2.symm⟩
    . rw [hprocess, hres]
    . rw [← hret.1, hsum.1, hcount.1]
    . exact hcount.2.2

variable {push : Element → α → Option (Except Fault (Element × Packet))} {value : α → Int}

theorem run_cases
    (hpush : ∀ s p s' q, p ∈ ps → push s p = some (.ok (s', q)) →
      s' = { count := s.count + 1, sgxSum := s.sgxSum + value p } ∧ s.count + 1 ≤ intMax)
    (hs : s.count ≤ intMax) (h : run push s ps = some (.ok s'))
    : s' = { count := s.count + ps.length, sgxSum := s.sgxSum + (ps.map value).sum }
      ∧ s.count + ps.length ≤ intMax := by
  induction ps generalizing s with
  | nil =>
    simp only [run, Option.some.injEq, Except.ok.injEq] at h
    simpa [← h] using hs
  | cons p ps ih =>
    simp only [run] at h
    split at h
    . next t q hstep =>
      rcases hpush s p t q (by simp) hstep with ⟨rfl, hle⟩
      have hrest := fun s p s' q hp => hpush s p s' q (List.mem_cons_of_mem _ hp)
      rcases ih hrest hle h with ⟨hs', hmax⟩
      simp only at hmax
      refine ⟨?_, ?_⟩
      . rw [hs']
        simp only [List.length_cons, List.map_cons, List.sum_cons, Element.mk.injEq]
        constructor
        . push_cast
          omega
        . omega
      . simp only [List.length_cons]
        push_cast
        omega
    . simp at h
    . simp at h

/--
Answers within the range of an `int` sum up in a `long`, for as long as the counter is able to count.
-/
theorem run_eq_ok {packet : α → Packet} {process : α → List UInt8 → UInt32 → Option (Except Fault Int)}
    (hprocess : ∀ p ∈ ps, process p (packet p).data (packet p).length = some (.ok (value p)))
    (hvalue : ∀ p ∈ ps, intMin ≤ value p ∧ value p ≤ intMax)
    (hcount : 0 ≤ s.count) (hmax : s.count + ps.length ≤ intMax)
    (hlo : s.count * intMin ≤ s.sgxSum) (hhi : s.sgxSum ≤ s.count * intMax)
    : run (fun s p => s.push (process p) (packet p)) s ps
        =
      some (.ok { count := s.count + ps.length, sgxSum := s.sgxSum + (ps.map value).sum }) := by
  induction ps generalizing s with
  | nil => simp [run]
  | cons p ps ih =>
    have hv := hvalue p List.mem_cons_self
    rw [List.length_cons] at hmax
    push_cast at hmax
    simp only [intMin, intMax] at hmax hlo hhi hv
    have hadd : addInt s.count 1 = .ok (s.count + 1) :=
      addInt_of_nonneg (by omega) (by simp only [intMax]; omega) rfl
    have hlong : addLong s.sgxSum (value p) = .ok (s.sgxSum + value p) := by
      apply addLong_ok
      . simp only [longMin]
        omega
      . simp only [longMax]
        omega
    simp only [run, push_eq_ok (hprocess p List.mem_cons_self) hadd hlong]
    rw [ih]
    . simp only [List.length_cons, List.map_cons, List.sum_cons, Option.some.injEq,
        Except.ok.injEq, Element.mk.injEq]
      constructor
      . push_cast
        omega
      . omega
    . intro p' hp'
      exact hprocess p' (List.mem_cons_of_mem p hp')
    . intro p' hp'
      exact hvalue p' (List.mem_cons_of_mem p hp')
    . simp only
      omega
    . simp only [intMax]
      omega
    . simp only [intMin]
      omega
    . simp only [intMax]
      omega

theorem run_initial_eq_ok (packet : α → Packet)
    (process : α → List UInt8 → UInt32 → Option (Except Fault Int)) (value : α → Int) {ps : List α}
    (hprocess : ∀ p ∈ ps, process p (packet p).data (packet p).length = some (.ok (value p)))
    (hvalue : ∀ p ∈ ps, intMin ≤ value p ∧ value p ≤ intMax) (hlength : ps.length ≤ intMax)
    : run (fun s p => s.push (process p) (packet p)) .initial ps
        =
      some (.ok { count := ps.length, sgxSum := (ps.map value).sum }) := by
  have hrun := run_eq_ok (s := .initial) hprocess hvalue (le_refl 0)
    (by simpa [initial] using hlength) (by decide) (by decide)
  simpa [initial] using hrun

end Element

def Packet.Scannable (p : Packet) : Prop := 500 ≤ p.data.length ∧ p.data.length ≤ intMax

def scanFuel : Nat := 2147483649

theorem scan_scannable {p : Packet} (hp : p.Scannable)
    : scan scanFuel p.data p.length = some (.ok (scanCount p.data))
      ∧ 1 ≤ scanCount p.data ∧ scanCount p.data ≤ intMax := by
  have hmax := hp.2
  apply scan_eq_scanCount
  . simp
  . simpa using hp.1
  . exact hmax
  . simp only [intMax] at hmax
    simp only [Packet.toNat_length, scanFuel]
    omega

theorem scan_of_scannable {p : Packet} (hp : p.Scannable) {fuel : Nat} {r : Int}
    (h : scan fuel p.data p.length = some (.ok r))
    : r = scanCount p.data := by
  have := While.Ends.unique ⟨fuel, h⟩ ⟨scanFuel, (scan_scannable hp).1⟩
  exact Except.ok.inj this

theorem long_of_scan {p : Packet} {fuel : Nat} {r : Int}
    (h : scan fuel p.data p.length = some (.ok r)) : 500 ≤ p.data.length := by
  by_contra hshort
  rcases Nat.eq_zero_or_pos p.data.length with hnil | hpos
  . -- There is not even the first byte of an empty packet.
    have hlength : toUnsigned ((0 : Nat) : Int) ≤ p.length - toUnsigned (sequenceLen p.length) := by
      rw [index_le_iff _ _ (by decide), Packet.toNat_length, hnil]
    have hbody : scanBody p.data p.length { index := 0, count := 0 } = .error .outOfBounds := by
      unfold scanBody
      rw [List.eq_nil_of_length_eq_zero hnil]
      exact (if_pos hlength).trans rfl
    cases fuel with
    | zero => simp [scan] at h
    | succ fuel =>
      rw [scan, While.exec_fail hbody] at h
      simp at h
  . exact scan_short hpos (by rw [Packet.toNat_length]; omega) fuel r h

namespace BasicElement

def value (e : Packet × Ecall) : Int :=
  if e.2.status = sgxSuccess then scanCount e.1.data else e.2.slot.toInt

/--
The packet is one that the element comes back from: the enclave answers with a count, or the crossing
fails.
-/
def Ends (e : Packet × Ecall) : Prop := e.2.status = sgxSuccess → 500 ≤ e.1.data.length

variable {s s' : Element} {e : Packet × Ecall} {es : List (Packet × Ecall)} {fuel : Nat} {q : Packet}

theorem processPacket_of_ends (hends : Ends e) (hmax : e.1.data.length ≤ intMax)
    : callProcessPacketSgx e.2 scanFuel e.1.data e.1.length = some (.ok (value e)) := by
  unfold callProcessPacketSgx Ecall.processPacket value
  split
  . next hok => exact (scan_scannable ⟨hends hok, hmax⟩).1
  . rfl

theorem value_range (hends : Ends e) (hmax : e.1.data.length ≤ intMax)
    : intMin ≤ value e ∧ value e ≤ intMax := by
  unfold value
  split
  . next hok =>
    have := (scan_scannable ⟨hends hok, hmax⟩).2
    simp only [intMin]
    omega
  . exact ⟨Int32.le_toInt _, Int.le_of_lt_add_one (Int32.toInt_lt _)⟩

theorem run_of_ends (hends : ∀ e ∈ es, Ends e) (hmax : ∀ e ∈ es, e.1.data.length ≤ intMax)
    (hlength : es.length ≤ intMax)
    : run scanFuel es = some (.ok { count := es.length, sgxSum := (es.map value).sum }) :=
  Element.run_initial_eq_ok Prod.fst (fun e => callProcessPacketSgx e.2 scanFuel) value
    (fun e he => processPacket_of_ends (hends e he) (hmax e he))
    (fun e he => value_range (hends e he) (hmax e he)) hlength

theorem push_next (hmax : e.1.data.length ≤ intMax) (h : push fuel s e = some (.ok (s', q)))
    : Ends e ∧ s' = { count := s.count + 1, sgxSum := s.sgxSum + value e } ∧ s.count + 1 ≤ intMax := by
  rcases Element.push_cases h with ⟨r, hprocess, rfl, hcount, _⟩
  unfold callProcessPacketSgx Ecall.processPacket at hprocess
  unfold Ends value
  split at hprocess
  . next hok =>
    have hlong := long_of_scan hprocess
    rw [if_pos hok, scan_of_scannable ⟨hlong, hmax⟩ hprocess]
    exact ⟨fun _ => hlong, rfl, hcount⟩
  . next hfail =>
    simp only [Option.some.injEq, Except.ok.injEq] at hprocess
    rw [if_neg hfail, hprocess]
    exact ⟨fun hok => absurd hok hfail, rfl, hcount⟩

theorem run_next (hmax : ∀ e ∈ es, e.1.data.length ≤ intMax) (hs : s.count ≤ intMax)
    (h : Element.run (push fuel) s es = some (.ok s'))
    : (∀ e ∈ es, Ends e)
        ∧ s' = { count := s.count + es.length, sgxSum := s.sgxSum + (es.map value).sum }
        ∧ s.count + es.length ≤ intMax := by
  have hpush : ∀ s e s' q, e ∈ es → push fuel s e = some (.ok (s', q)) →
      s' = { count := s.count + 1, sgxSum := s.sgxSum + value e } ∧ s.count + 1 ≤ intMax :=
    fun s e s' q he hstep => (push_next (hmax e he) hstep).2
  rcases Element.run_cases hpush hs h with ⟨hs', hlength⟩
  refine ⟨?_, hs', hlength⟩
  clear hs' hlength hs hpush
  induction es generalizing s with
  | nil => simp
  | cons e es ih =>
    simp only [Element.run] at h
    split at h
    . next t q hstep =>
      have hrest := ih (fun e he => hmax e (List.mem_cons_of_mem _ he)) h
      exact List.forall_mem_cons.mpr ⟨(push_next (hmax e List.mem_cons_self) hstep).1, hrest⟩
    . simp at h
    . simp at h

end BasicElement

theorem BasicElementNoSGX.run_of_scannable {ps : List Packet} (hps : ∀ p ∈ ps, p.Scannable)
    (hlength : ps.length ≤ intMax)
    : run scanFuel ps
        =
      some (.ok { count := ps.length, sgxSum := (ps.map fun p => scanCount p.data).sum }) := by
  have hvalue : ∀ p ∈ ps, intMin ≤ scanCount p.data ∧ scanCount p.data ≤ intMax := by
    intro p hp
    have := (scan_scannable (hps p hp)).2
    simp only [intMin]
    omega
  exact Element.run_initial_eq_ok id (fun _ => callProcessPacketNoSgxTest scanFuel)
    (fun p => scanCount p.data) (fun p hp => (scan_scannable (hps p hp)).1) hvalue hlength

/--
The element has counted the packets the enclave processed, and nothing else: the run returns, its
sum is the one of the scan counts of the packets whose crossing succeeded, and when all of them did
it is the sum of the element without enclave.
-/
def Accounts (es : List (Packet × Ecall)) : Prop :=
  ∃ fuel s, BasicElement.run fuel es = some (.ok s)
    ∧ s.sgxSum
        = ((es.filter (fun e => e.2.status = sgxSuccess)).map (fun e => scanCount e.1.data)).sum
    ∧ ((∀ e ∈ es, e.2.status = sgxSuccess) →
        ∃ s', BasicElementNoSGX.run fuel (es.map (fun e => e.1)) = some (.ok s')
          ∧ s.sgxSum = s'.sgxSum)

theorem accounts_of_success {es : List (Packet × Ecall)} (hes : ∀ e ∈ es, e.1.Scannable)
    (hok : ∀ e ∈ es, e.2.status = sgxSuccess) (hlength : es.length ≤ intMax)
    : Accounts es := by
  have hrun := BasicElement.run_of_ends (fun e he _ => (hes e he).1) (fun e he => (hes e he).2) hlength
  have hps : ∀ p ∈ es.map (fun e => e.1), p.Scannable := by
    intro p hp
    rcases List.mem_map.mp hp with ⟨e, he, rfl⟩
    exact hes e he
  have hrun' := BasicElementNoSGX.run_of_scannable hps (by rw [List.length_map]; exact hlength)
  have hvalue : es.map BasicElement.value = es.map (fun e => scanCount e.1.data) := by
    apply List.map_congr_left
    intro e he
    rw [BasicElement.value, if_pos (hok e he)]
  have hfilter : es.filter (fun e => e.2.status = sgxSuccess) = es := by
    rw [List.filter_eq_self]
    intro e he
    exact decide_eq_true (hok e he)
  refine ⟨scanFuel, _, hrun, ?_, fun _ => ⟨_, hrun', ?_⟩⟩
  . rw [hfilter, hvalue]
  . rw [hvalue, List.map_map]
    rfl

theorem BasicElement.sum_value (es : List (Packet × Ecall)) (hslot : ∀ e ∈ es, 0 < e.2.slot.toInt)
    : ((es.filter (fun e => e.2.status = sgxSuccess)).map (fun e => scanCount e.1.data)).sum
        + es.countP (fun e => ¬ e.2.status = sgxSuccess)
        ≤
      (es.map value).sum := by
  induction es with
  | nil => simp
  | cons e es ih =>
    have ih := ih (fun e' he' => hslot e' (List.mem_cons_of_mem e he'))
    have hpos := hslot e (by simp)
    simp only [List.map_cons, List.sum_cons, List.filter_cons, List.countP_cons, value]
    by_cases hok : e.2.status = sgxSuccess
    . simp only [hok, decide_true, ↓reduceIte, List.map_cons, List.sum_cons,
        not_true_eq_false, decide_false, Bool.false_eq_true, Nat.add_zero]
      omega
    . simp only [hok, decide_false, Bool.false_eq_true, ↓reduceIte, not_false_eq_true,
        decide_true]
      push_cast
      omega

theorem success_of_accounts {es : List (Packet × Ecall)} (hes : ∀ e ∈ es, e.1.Scannable)
    (hslot : ∀ e ∈ es, 0 < e.2.slot.toInt) (h : Accounts es)
    : (∀ e ∈ es, e.2.status = sgxSuccess) ∧ es.length ≤ intMax := by
  rcases h with ⟨fuel, s, hrun, hsum, _⟩
  rcases BasicElement.run_next (fun e he => (hes e he).2) (by decide) hrun with ⟨_, rfl, hlength⟩
  have hle := BasicElement.sum_value es hslot
  simp only [Element.initial, Int.zero_add] at hsum hlength
  refine ⟨?_, hlength⟩
  have hnone : es.countP (fun e => ¬ e.2.status = sgxSuccess) = 0 := by omega
  simpa [List.countP_eq_zero] using hnone

theorem basicElement_accounts_iff (ps : List (Packet × UInt32)) (hps : ∀ p ∈ ps, p.1.Scannable)
    : (∀ es : List (Packet × Ecall), es.map (fun e => (e.1, e.2.status)) = ps → Accounts es)
        ↔
      (∀ p ∈ ps, p.2 = sgxSuccess) ∧ ps.length ≤ intMax := by
  constructor
  . intro h
    -- The slots can hold anything, so in particular a one.
    let es := ps.map (fun p => (p.1, ({ status := p.2, slot := 1 } : Ecall)))
    have hes : es.map (fun e => (e.1, e.2.status)) = ps := by simp [es, Function.comp_def]
    have hscan : ∀ e ∈ es, e.1.Scannable := by
      intro e he
      rcases List.mem_map.mp he with ⟨p, hp, rfl⟩
      exact hps p hp
    have hslot : ∀ e ∈ es, 0 < e.2.slot.toInt := by
      intro e he
      rcases List.mem_map.mp he with ⟨p, _, rfl⟩
      simp only
      decide
    rcases success_of_accounts hscan hslot (h es hes) with ⟨hok, hlength⟩
    constructor
    . intro p hp
      exact hok _ (List.mem_map_of_mem hp)
    . simpa [es] using hlength
  . rintro ⟨hok, hlength⟩ es rfl
    apply accounts_of_success
    . intro e he
      exact hps _ (List.mem_map_of_mem he)
    . intro e he
      exact hok _ (List.mem_map_of_mem he)
    . simpa using hlength

def zeroPacket : Packet := { data := List.replicate 500 0, fits := by rw [List.length_replicate]; decide }

theorem zeroPacket_scannable : zeroPacket.Scannable := by
  constructor
  . exact (List.length_replicate).ge
  . unfold zeroPacket
    rw [List.length_replicate]
    decide

theorem basicElement_accounts_iff_zeroPacket
    : (∀ es : List (Packet × Ecall),
        es.map (fun e => (e.1, e.2.status)) = [(zeroPacket, sgxSuccess), (zeroPacket, sgxSuccess)]
          → Accounts es)
        ↔
      (∀ p ∈ [(zeroPacket, sgxSuccess), (zeroPacket, sgxSuccess)], p.2 = sgxSuccess)
        ∧ ([(zeroPacket, sgxSuccess), (zeroPacket, sgxSuccess)].length : Int) ≤ intMax :=
  basicElement_accounts_iff _ (by simp [zeroPacket_scannable])

theorem not_accounts_stale_slot : ¬ Accounts [(zeroPacket, { status := 1, slot := 7 })] := by
  intro h
  have := success_of_accounts (by simp [zeroPacket_scannable]) (by decide) h
  simp [sgxSuccess] at this

theorem scanCount_le {p : Packet} (hp : p.Scannable) : scanCount p.data ≤ 999 := by
  rcases scanShared_bounded (.still p.data) p.length (by rw [Packet.toNat_length]; rfl)
    (by rw [Packet.toNat_length]; exact hp.1) (by rw [Packet.toNat_length]; exact hp.2)
    with ⟨count, hscan, _, hcount⟩
  have hexec := hscan _ (le_refl _)
  rw [scanShared_still] at hexec
  rw [← scan_of_scannable hp hexec]
  omega

theorem BasicElement.sum_bounds {es : List (Packet × Ecall)} (hends : ∀ e ∈ es, Ends e)
    (hmax : ∀ e ∈ es, e.1.data.length ≤ intMax) (hok : ∀ e ∈ es, e.2.status = sgxSuccess)
    : es.length ≤ (es.map value).sum ∧ (es.map value).sum ≤ 999 * es.length := by
  induction es with
  | nil => simp
  | cons e es ih =>
    have ih := ih (fun e he => hends e (List.mem_cons_of_mem _ he))
      (fun e he => hmax e (List.mem_cons_of_mem _ he)) fun e he => hok e (List.mem_cons_of_mem _ he)
    have hsuccess := hok e List.mem_cons_self
    have hscan : e.1.Scannable := ⟨hends e List.mem_cons_self hsuccess, hmax e List.mem_cons_self⟩
    have hlo := (scan_scannable hscan).2.1
    have hhi := scanCount_le hscan
    rw [List.map_cons, List.sum_cons, List.length_cons, value, if_pos hsuccess]
    push_cast
    omega

/--
The element comes back from a run when no packet that the enclave answers is shorter than 500 bytes,
whatever failed crossings leave on the stack. Each answer is then between 1 and 999.
-/
theorem basicElement_run_iff (es : List (Packet × Ecall))
    (hmax : ∀ e ∈ es, e.1.data.length ≤ intMax)
    : ((∃ fuel s, BasicElement.run fuel es = some (.ok s))
          ↔
        (∀ e ∈ es, e.2.status = sgxSuccess → 500 ≤ e.1.data.length) ∧ es.length ≤ intMax)
      ∧ ((∀ e ∈ es, e.2.status = sgxSuccess) → ∀ fuel s, BasicElement.run fuel es = some (.ok s) →
          s.count = es.length ∧ es.length ≤ s.sgxSum ∧ s.sgxSum ≤ 999 * es.length) := by
  constructor
  . constructor
    . rintro ⟨fuel, s, hrun⟩
      rcases BasicElement.run_next hmax (by decide) hrun with ⟨hends, _, hlength⟩
      simp only [Element.initial, Int.zero_add] at hlength
      exact ⟨hends, hlength⟩
    . rintro ⟨hends, hlength⟩
      exact ⟨scanFuel, _, BasicElement.run_of_ends hends hmax hlength⟩
  . intro hok fuel s hrun
    rcases BasicElement.run_next hmax (by decide) hrun with ⟨hends, rfl, _⟩
    have hsum := BasicElement.sum_bounds hends hmax hok
    simp only [Element.initial, Int.zero_add]
    exact ⟨trivial, hsum⟩

def emptyPacket : Packet := { data := [], fits := by decide }

/--
A packet without a byte does no harm when its crossing fails.
-/
theorem basicElement_run_iff_zeroPacket
    : (∃ fuel s, BasicElement.run fuel
            [(zeroPacket, { status := sgxSuccess, slot := 0 }), (emptyPacket, { status := 1, slot := 7 })]
          = some (.ok s))
        ∧ ¬ ∃ fuel s, BasicElement.run fuel
            [(zeroPacket, { status := 1, slot := 7 }), (emptyPacket, { status := sgxSuccess, slot := 0 })]
          = some (.ok s) := by
  have hscan := zeroPacket_scannable
  have hempty : (emptyPacket.data.length : Int) ≤ intMax := by decide
  constructor
  . rw [(basicElement_run_iff _ (by simpa using ⟨hscan.2, hempty⟩)).1]
    refine ⟨?_, by decide⟩
    simpa [sgxSuccess] using hscan.1
  . rw [(basicElement_run_iff _ (by simpa using ⟨hscan.2, hempty⟩)).1]
    rintro ⟨hlong, _⟩
    exact absurd (hlong _ (List.mem_cons_of_mem _ List.mem_cons_self) rfl) (by decide)

end Click
