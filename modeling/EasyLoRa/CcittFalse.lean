import Mathlib.Tactic.NormNum.Prime
import EasyLoRa.CrcCalculatorOutcomes
import EasyLoRa.RegisterPeriod

namespace EasyLoRa.CcittFalse

open EasyLoRa.CrcCalculatorModel EasyLoRa.CrcCalculatorOutcomes
open EasyLoRa.ShiftRegister EasyLoRa.ErrorPatterns EasyLoRa.RegisterPeriod

def polynomial : UInt16 := 0x1021

/-- One turn of the loop over the bits of a byte. -/
def crcBit (crc : UInt16) : UInt16 :=
  let highBitSet := crc &&& 0x8000 ≠ 0
  if highBitSet then (crc <<< 1) ^^^ polynomial else crc <<< 1

def crcByte (crc : UInt16) (value : UInt8) : UInt16 :=
  crcBit^[8] (crc ^^^ (value.toUInt16 <<< 8))

def calculateCrc16CcittFalse (input : List UInt8) : UInt16 := input.foldl crcByte 0xFFFF

/-- What the calculator asks of `CRC::Calculate` with `CRC_16_CCITTFALSE`. -/
def IsCcittFalse (calculate : List UInt8 → UInt16) : Prop :=
  ∀ bytes, calculate bytes = calculateCrc16CcittFalse bytes

theorem frameOf_nil {calculate : List UInt8 → UInt16}
    (hcalculate : IsCcittFalse calculate) : frameOf calculate [] = [0xFF, 0xFF] := by
  rw [frameOf, hcalculate]
  decide

/-- The bits of a byte string, bytes in order, most significant bit first. -/
def frameBits (bytes : List UInt8) : List Bool := bytes.flatMap fun b => bits b.toBitVec

@[simp] theorem frameBits_nil : frameBits [] = [] := rfl

theorem frameBits_cons (b : UInt8) (bytes : List UInt8) :
    frameBits (b :: bytes) = bits b.toBitVec ++ frameBits bytes := rfl

@[simp] theorem length_frameBits (bytes : List UInt8) :
    (frameBits bytes).length = 8 * bytes.length := by
  induction bytes with
  | nil => rfl
  | cons b bytes ih =>
      rw [frameBits_cons, List.length_append, ih, length_bits, List.length_cons]
      omega

theorem frameBits_append (xs ys : List UInt8) :
    frameBits (xs ++ ys) = frameBits xs ++ frameBits ys := by
  simp [frameBits]

theorem toBitVec_crcBit (crc : UInt16) :
    (crcBit crc).toBitVec = shift polynomial.toBitVec crc.toBitVec := by
  have hhigh : (crc &&& 0x8000 ≠ 0) ↔ crc.toBitVec.msb = true := by
    have hmask : (0x8000 : UInt16).toBitVec = BitVec.twoPow 16 15 := rfl
    rw [ne_eq, ← UInt16.toBitVec_inj, UInt16.toBitVec_and, hmask, BitVec.and_twoPow,
      BitVec.msb_eq_getLsbD_last]
    cases crc.toBitVec.getLsbD 15 <;> decide
  rw [crcBit, shift]
  by_cases h : crc &&& 0x8000 ≠ 0
  · simp [h, hhigh.mp h]
  · simp [h, mt hhigh.mpr h]

theorem toBitVec_crcByte (crc : UInt16) (value : UInt8) :
    (crcByte crc value).toBitVec =
      feed polynomial.toBitVec crc.toBitVec (bits value.toBitVec) := by
  have hiterate : ∀ n c, (crcBit^[n] c).toBitVec = (shift polynomial.toBitVec)^[n] c.toBitVec := by
    intro n c
    induction n generalizing c with
    | zero => rfl
    | succ n ih =>
        rw [Function.iterate_succ_apply, ih, toBitVec_crcBit, Function.iterate_succ_apply]
  rw [crcByte, hiterate, feed_eq_iterate _ _ _ (by simp), length_bits, pack_bits _ (by decide)]
  rfl

theorem toBitVec_foldl_crcByte (crc : UInt16) (bytes : List UInt8) :
    (bytes.foldl crcByte crc).toBitVec =
      feed polynomial.toBitVec crc.toBitVec (frameBits bytes) := by
  induction bytes generalizing crc with
  | nil => rfl
  | cons b bytes ih =>
      rw [List.foldl_cons, ih, toBitVec_crcByte, frameBits_cons, feed_append]

/-- What the register holds after a byte string. -/
def finalRegister (bytes : List UInt8) : BitVec 16 :=
  feed polynomial.toBitVec (0xFFFF : UInt16).toBitVec (frameBits bytes)

theorem toBitVec_calculate (bytes : List UInt8) :
    (calculateCrc16CcittFalse bytes).toBitVec = finalRegister bytes :=
  toBitVec_foldl_crcByte _ bytes

theorem polynomial_odd : polynomial.toBitVec.getLsbD 0 = true := by decide

/-- A frame leaves the register zero exactly when its trailer is the CRC of what
precedes it. -/
theorem register_eq_zero_iff (payload : List UInt8) (high low : UInt8) :
    finalRegister (payload ++ [high, low]) = 0#16 ↔
      bindTwobytes high low = calculateCrc16CcittFalse payload := by
  have htrailer : frameBits [high, low] = bits (bindTwobytes high low).toBitVec := by
    rw [toBitVec_bindTwobytes, bits_append]
    rfl
  have hregister : finalRegister (payload ++ [high, low]) =
      (shift polynomial.toBitVec)^[16]
        (finalRegister payload ^^^ (bindTwobytes high low).toBitVec) := by
    rw [finalRegister, frameBits_append, feed_append, htrailer, feed_eq_iterate _ _ _ (by simp),
      length_bits, pack_bits _ le_rfl]
    simp [finalRegister]
  rw [hregister, ← UInt16.toBitVec_inj, toBitVec_calculate]
  constructor
  · intro h
    rw [← iterate_shift_zero polynomial.toBitVec 16] at h
    exact (BitVec.xor_eq_zero_iff.mp ((shift_injective polynomial_odd).iterate _ h)).symm
  · intro h
    rw [h, BitVec.xor_self, iterate_shift_zero]

theorem parity_polynomial : parity polynomial.toBitVec = 1 := by decide

theorem prime_dvd_period {p : Nat} (hp : p.Prime) (h : p ∣ 32767) : p = 7 ∨ p = 31 ∨ p = 151 := by
  have hfactors : p ∣ 7 * (31 * 151) := h
  rcases hp.dvd_mul.mp hfactors with h7 | hrest
  · exact Or.inl ((Nat.prime_dvd_prime_iff_eq hp (by norm_num)).mp h7)
  · rcases hp.dvd_mul.mp hrest with h31 | h151
    · exact Or.inr (Or.inl ((Nat.prime_dvd_prime_iff_eq hp (by norm_num)).mp h31))
    · exact Or.inr (Or.inr ((Nat.prime_dvd_prime_iff_eq hp (by norm_num)).mp h151))

theorem minimalPeriod_polynomial :
    Function.minimalPeriod (shift polynomial.toBitVec) 1#16 = 32767 := by
  apply minimalPeriod_eq_of_div_prime
  · rw [isPeriodicPt_iff_power polynomial_odd]
    decide +kernel
  · intro p hp hdvd
    rw [isPeriodicPt_iff_power polynomial_odd]
    rcases prime_dvd_period hp hdvd with rfl | rfl | rfl
    · decide +kernel
    · decide +kernel
    · decide +kernel

end EasyLoRa.CcittFalse
