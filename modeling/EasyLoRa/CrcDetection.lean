import Mathlib.Data.Finset.Sort
import EasyLoRa.CcittFalse
import EasyLoRa.IndexedLists

namespace EasyLoRa.CrcDetection

open EasyLoRa.CrcCalculatorModel EasyLoRa.CrcCalculatorOutcomes EasyLoRa.CcittFalse
open EasyLoRa.ShiftRegister EasyLoRa.ErrorPatterns EasyLoRa.IndexedLists

variable {calculate : List UInt8 → UInt16}

/-- Invert bit `i` of a byte string, bytes in order, most significant bit first. -/
def flipBit (i : Nat) (bytes : List UInt8) : List UInt8 :=
  bytes.modify (i / 8) (· ^^^ (0x80 >>> UInt8.ofNat (i % 8)))

def flipBits (flips : List Nat) (bytes : List UInt8) : List UInt8 := flips.foldr flipBit bytes

@[simp] theorem length_flipBits (flips : List Nat) (bytes : List UInt8) :
    (flipBits flips bytes).length = bytes.length := by
  induction flips with
  | nil => rfl
  | cons i flips ih => rw [flipBits, List.foldr_cons, flipBit, List.length_modify, ← flipBits, ih]

/-- The frame with the given bits inverted. -/
def corrupt (flips : Finset Nat) (frame : Span) : Span where
  bytes := flipBits (flips.sort (· ≤ ·)) frame.bytes
  size_le := by
    rw [length_flipBits]
    exact frame.size_le

theorem getMsbD_mask {i j : Nat} (hi : i < 8) (hj : j < 8) :
    ((0x80 : UInt8) >>> UInt8.ofNat i).toBitVec.getMsbD j = decide (i = j) := by
  have hall : ∀ i < 8, ∀ j < 8,
      ((0x80 : UInt8) >>> UInt8.ofNat i).toBitVec.getMsbD j = decide (i = j) := by
    decide
  exact hall i hi j hj

theorem bits_xor_mask (b : UInt8) {i : Nat} (hi : i < 8) :
    bits (b ^^^ (0x80 >>> UInt8.ofNat i)).toBitVec = (bits b.toBitVec).modify i (!·) := by
  apply List.ext_getElem (by simp)
  intro j hj _
  have hj8 : j < 8 := by simpa using hj
  rw [List.getElem_modify, getElem_bits, getElem_bits, UInt8.toBitVec_xor, BitVec.getMsbD_xor,
    getMsbD_mask hi hj8]
  by_cases hij : i = j
  · simp [hij]
  · simp [hij]

theorem frameBits_flipBit (i : Nat) (bytes : List UInt8) :
    frameBits (flipBit i bytes) = (frameBits bytes).modify i (!·) := by
  induction bytes generalizing i with
  | nil => simp [flipBit]
  | cons b bytes ih =>
      by_cases hi : i < 8
      · have hbyte : i / 8 = 0 := by omega
        have hbit : i % 8 = i := by omega
        rw [flipBit, hbyte, hbit, List.modify_zero_cons, frameBits_cons, bits_xor_mask b hi,
          frameBits_cons, modify_append_left _ (by simpa using hi)]
      · obtain ⟨j, rfl⟩ : ∃ j, i = j + 8 := ⟨i - 8, by omega⟩
        have hbyte : (j + 8) / 8 = j / 8 + 1 := by omega
        have hbit : (j + 8) % 8 = j % 8 := by omega
        rw [flipBit, hbyte, hbit, List.modify_succ_cons, ← flipBit, frameBits_cons, ih,
          frameBits_cons]
        exact (modify_append_right _ (bits b.toBitVec) _ j).symm

theorem frameBits_flipBits (flips : List Nat) (bytes : List UInt8) :
    frameBits (flipBits flips bytes) = invert flips (frameBits bytes) := by
  induction flips with
  | nil => rfl
  | cons i flips ih =>
      rw [flipBits, List.foldr_cons, ← flipBits, frameBits_flipBit, ih, invert_cons]

theorem register_corrupt {flips : Finset Nat} {frame : Span}
    (hflips : ∀ i ∈ flips, i < 8 * frame.bytes.length) :
    finalRegister (corrupt flips frame).bytes =
      finalRegister frame.bytes ^^^
        syndrome polynomial.toBitVec (8 * frame.bytes.length) (flips.sort (· ≤ ·)) := by
  have hplaces : ∀ i ∈ flips.sort (· ≤ ·), i < (frameBits frame.bytes).length := by
    intro i hi
    rw [length_frameBits]
    exact hflips i ((Finset.mem_sort _).mp hi)
  rw [finalRegister, corrupt, frameBits_flipBits, feed_invert _ _ _ _ hplaces, length_frameBits,
    finalRegister]

/-- A frame on its way: one that `addCRC` returned, or the one of no payload. -/
def Sent (calculate : List UInt8 → UInt16) (frame : Span) : Prop :=
  (∃ payload target after, addCRC calculate payload target = some (.ok frame, after)) ∨
    frame.bytes = [0xFF, 0xFF]

theorem register_frameOf (hcalculate : IsCcittFalse calculate) (payload : List UInt8) :
    finalRegister (frameOf calculate payload) = 0#16 := by
  rw [frameOf, register_eq_zero_iff, bindTwobytes_split, hcalculate]

theorem register_of_sent (hcalculate : IsCcittFalse calculate) {frame : Span}
    (hsent : Sent calculate frame) : 2 ≤ frame.bytes.length ∧ finalRegister frame.bytes = 0#16 := by
  obtain ⟨payload, hframe⟩ : ∃ payload, frame.bytes = frameOf calculate payload := by
    rcases hsent with ⟨payload, target, after, hadd⟩ | hempty
    · exact ⟨payload.bytes, (of_returns_addCRC ⟨frame, after, hadd, rfl⟩).2⟩
    · exact ⟨[], by rw [hempty, frameOf_nil hcalculate]⟩
  constructor
  · simp [hframe]
  · rw [hframe, register_frameOf hcalculate]

theorem removeCRC_of_register_ne_zero (hcalculate : IsCcittFalse calculate) {frame output : Span}
    (hlength : 2 ≤ frame.bytes.length) (hfits : frame.bytes.length ≤ output.bytes.length + 2)
    (hregister : finalRegister frame.bytes ≠ 0#16) :
    removeCRC calculate frame output = some (.error .crcMismatch, output) := by
  obtain ⟨payload, high, low, hframe⟩ := exists_trailer hlength
  have hroom : payload.length ≤ output.bytes.length := by
    simp [hframe] at hfits
    omega
  obtain ⟨view, after, -, -, hremove⟩ := removeCRC_of_fits calculate hframe hroom
  rw [hframe, Ne, register_eq_zero_iff, ← hcalculate payload] at hregister
  rw [hremove, if_pos hregister]

/-- A corruption goes undetected only when its syndrome is zero. -/
theorem rejected_of_syndrome (hcalculate : IsCcittFalse calculate) {frame output : Span}
    (hsent : Sent calculate frame) (hfits : frame.bytes.length ≤ output.bytes.length + 2)
    {flips : Finset Nat} (hflips : ∀ i ∈ flips, i < 8 * frame.bytes.length)
    (hsyndrome : syndrome polynomial.toBitVec (8 * frame.bytes.length)
      (flips.sort (· ≤ ·)) ≠ 0#16) :
    removeCRC calculate (corrupt flips frame) output = some (.error .crcMismatch, output) := by
  obtain ⟨hlength, hzero⟩ := register_of_sent hcalculate hsent
  have hcorrupt : (corrupt flips frame).bytes.length = frame.bytes.length := length_flipBits _ _
  apply removeCRC_of_register_ne_zero hcalculate
  · rwa [hcorrupt]
  · rwa [hcorrupt]
  · rwa [register_corrupt hflips, hzero, BitVec.zero_xor]

def letter : Span := ⟨[0x41], by decide⟩

def letterTarget : Span := ⟨[0, 0, 0], by decide⟩

def letterFrame : Span := ⟨[0x41, 0xB9, 0x15], by decide⟩

theorem burst_detected (hcalculate : IsCcittFalse calculate) {frame output : Span}
    (hsent : Sent calculate frame) (hfits : frame.bytes.length ≤ output.bytes.length + 2)
    {flips : Finset Nat} (hflips : ∀ i ∈ flips, i < 8 * frame.bytes.length)
    (hne : flips.Nonempty) {a : Nat} (hwindow : ∀ i ∈ flips, a ≤ i ∧ i < a + 16) :
    removeCRC calculate (corrupt flips frame) output = some (.error .crcMismatch, output) := by
  apply rejected_of_syndrome hcalculate hsent hfits hflips
  apply syndrome_burst_ne_zero polynomial_odd
  · obtain ⟨i, hi⟩ := hne
    exact List.ne_nil_of_mem ((Finset.mem_sort _).mpr hi)
  · exact Finset.sort_nodup _ _
  · intro i hi
    have hmem := (Finset.mem_sort _).mp hi
    exact ⟨hflips i hmem, hwindow i hmem⟩

theorem burst_detected_letterFrame :
    removeCRC calculateCrc16CcittFalse (corrupt {6, 9, 20} letterFrame) letterTarget =
      some (.error .crcMismatch, letterTarget) :=
  burst_detected (fun _ => rfl) (Or.inl ⟨letter, letterTarget, letterFrame, rfl⟩) (by decide)
    (by decide) (by decide) (by decide : ∀ i ∈ ({6, 9, 20} : Finset Nat), 6 ≤ i ∧ i < 6 + 16)

theorem odd_detected (hcalculate : IsCcittFalse calculate) {payload target after frame : Span}
    (hadd : addCRC calculate payload target = some (.ok frame, after)) {output : Span}
    (hfits : frame.bytes.length ≤ output.bytes.length + 2)
    {flips : Finset Nat} (hflips : ∀ i ∈ flips, i < 8 * frame.bytes.length)
    (hodd : Odd flips.card) :
    removeCRC calculate (corrupt flips frame) output = some (.error .crcMismatch, output) := by
  apply rejected_of_syndrome hcalculate (Or.inl ⟨payload, target, after, hadd⟩) hfits hflips
  apply syndrome_odd_ne_zero (by decide) parity_polynomial
  rwa [Finset.length_sort]

theorem odd_detected_letterFrame :
    removeCRC calculateCrc16CcittFalse (corrupt {0, 5, 23} letterFrame) letterTarget =
      some (.error .crcMismatch, letterTarget) :=
  odd_detected (fun _ => rfl) (rfl : addCRC _ letter letterTarget = some (_, letterFrame))
    (by decide) (by decide) (by decide)

theorem sort_pair {i j : Nat} (hij : i < j) :
    Finset.sort ({i, j} : Finset Nat) (· ≤ ·) = [i, j] := by
  rw [Finset.sort_insert, Finset.sort_singleton]
  · simpa using hij.le
  · simpa using hij.ne

/-- Two bits closer than the period of the register leave a syndrome. -/
theorem syndrome_pair_ne_zero {n i j : Nat} (hij : i < j) (hj : j < n) (hn : n < 32768) :
    syndrome polynomial.toBitVec n [i, j] ≠ 0#16 := by
  intro hzero
  have hperiodic := isPeriodicPt_of_syndrome_pair polynomial_odd hij hj.le hzero
  have hle := hperiodic.minimalPeriod_le (by omega)
  rw [minimalPeriod_polynomial] at hle
  omega

theorem ordered_pair_detected (hcalculate : IsCcittFalse calculate) {frame output : Span}
    (hsent : Sent calculate frame) (hfits : frame.bytes.length ≤ output.bytes.length + 2)
    (hshort : frame.bytes.length ≤ 4095) {i j : Nat} (hij : i < j)
    (hj : j < 8 * frame.bytes.length) :
    removeCRC calculate (corrupt {i, j} frame) output =
      some (.error .crcMismatch, output) := by
  have hflips : ∀ k ∈ ({i, j} : Finset Nat), k < 8 * frame.bytes.length := by
    intro k hk
    rcases Finset.mem_insert.mp hk with rfl | hk
    · exact hij.trans hj
    · rwa [Finset.mem_singleton.mp hk]
  apply rejected_of_syndrome hcalculate hsent hfits hflips
  rw [sort_pair hij]
  exact syndrome_pair_ne_zero hij hj (by omega)

theorem pair_detected (hcalculate : IsCcittFalse calculate) {payload target after frame : Span}
    (hadd : addCRC calculate payload target = some (.ok frame, after)) {output : Span}
    (hfits : frame.bytes.length ≤ output.bytes.length + 2)
    (hshort : frame.bytes.length ≤ 4095) {i j : Nat} (hij : i ≠ j)
    (hi : i < 8 * frame.bytes.length) (hj : j < 8 * frame.bytes.length) :
    removeCRC calculate (corrupt {i, j} frame) output =
      some (.error .crcMismatch, output) := by
  have hsent : Sent calculate frame := Or.inl ⟨payload, target, after, hadd⟩
  rcases hij.lt_or_gt with hlt | hgt
  · exact ordered_pair_detected hcalculate hsent hfits hshort hlt hj
  · rw [Finset.pair_comm]
    exact ordered_pair_detected hcalculate hsent hfits hshort hgt hi

theorem pair_detected_letterFrame :
    removeCRC calculateCrc16CcittFalse (corrupt {23, 0} letterFrame) letterTarget =
      some (.error .crcMismatch, letterTarget) :=
  pair_detected (fun _ => rfl) (rfl : addCRC _ letter letterTarget = some (_, letterFrame))
    (by decide) (by decide) (by decide) (by decide) (by decide)

end EasyLoRa.CrcDetection
