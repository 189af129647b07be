import Mathlib.Data.Nat.Digits.Defs
import Mathlib.Data.Nat.Prime.Basic
import Mathlib.Dynamics.PeriodicPts.Defs
import EasyLoRa.ErrorPatterns

namespace EasyLoRa.RegisterPeriod

open EasyLoRa.ShiftRegister EasyLoRa.ErrorPatterns

variable {w : Nat}

/-- Horner's rule modulo the generator. -/
def horner (g u : BitVec w) : BitVec w → List Bool → BitVec w
  | r, [] => r
  | r, b :: bs => horner g u (shift g r ^^^ if b then u else 0#w) bs

/-- The product of two registers modulo the generator. -/
def times (g u v : BitVec w) : BitVec w := horner g u 0#w (bits v)

/-- The power of one shift whose exponent has the given binary digits, the least
significant first. -/
def power (g : BitVec w) : List Nat → BitVec w
  | [] => 1#w
  | d :: ds => (shift g)^[d] (times g (power g ds) (power g ds))

theorem shift_lead (g : BitVec w) (b : Bool) :
    shift g (lead w b) = if b then g else 0#w := by
  cases b with
  | false => simp
  | true =>
      apply BitVec.eq_of_getLsbD_eq
      intro i hi
      have hmsb : (lead w true).msb = true := by
        rw [BitVec.msb_eq_getMsbD_zero, getMsbD_lead]
        simp
        omega
      have hbit : (lead w true <<< 1).getLsbD i = false := by
        rw [BitVec.getLsbD_shiftLeft, lead_true, BitVec.getLsbD_twoPow]
        grind
      rw [shift, if_pos hmsb, BitVec.getLsbD_xor, hbit, Bool.false_xor, if_pos rfl]

theorem feed_eq_horner (g r : BitVec w) (bs : List Bool) : feed g r bs = horner g g r bs := by
  induction bs generalizing r with
  | nil => rfl
  | cons b bs ih => rw [feed, ih, horner, shift_xor, shift_lead]

theorem iterate_horner (g u r : BitVec w) (n : Nat) (bs : List Bool) :
    (shift g)^[n] (horner g u r bs) = horner g ((shift g)^[n] u) ((shift g)^[n] r) bs := by
  induction bs generalizing r with
  | nil => rfl
  | cons b bs ih =>
      have hstep : (shift g)^[n] (shift g r ^^^ if b then u else 0#w) =
          shift g ((shift g)^[n] r) ^^^ if b then (shift g)^[n] u else 0#w := by
        rw [iterate_shift_xor, ← Function.iterate_succ_apply, Function.iterate_succ_apply']
        cases b <;> simp [iterate_shift_zero]
      rw [horner, ih, hstep, horner]

theorem iterate_width (g : BitVec w) (hw : 0 < w) : (shift g)^[w] 1#w = g := by
  obtain ⟨v, rfl⟩ : ∃ v, w = v + 1 := ⟨w - 1, by omega⟩
  have hlead : (shift g)^[v] 1#(v + 1) = lead (v + 1) true := (lead_eq_iterate g hw).symm
  rw [Function.iterate_succ_apply', hlead, shift_lead, if_pos rfl]

/-- Multiplying by a power of the shift is shifting. -/
theorem times_iterate {g : BitVec w} (hg : g.getLsbD 0 = true) (n : Nat) (v : BitVec w) :
    times g ((shift g)^[n] 1#w) v = (shift g)^[n] v := by
  have hw : 0 < w := BitVec.lt_of_getLsbD hg
  have hfeed : horner g g 0#w (bits v) = (shift g)^[w] v := by
    rw [← feed_eq_horner, feed_eq_iterate _ _ _ (by simp), length_bits, BitVec.zero_xor,
      pack_bits v le_rfl]
    simp
  apply (shift_injective hg).iterate w
  calc
    (shift g)^[w] (times g ((shift g)^[n] 1#w) v)
        = horner g ((shift g)^[n] ((shift g)^[w] 1#w)) ((shift g)^[n] 0#w) (bits v) := by
          rw [times, iterate_horner, iterate_shift_zero, iterate_shift_zero,
            ← Function.iterate_add_apply, Nat.add_comm, Function.iterate_add_apply]
    _ = (shift g)^[n] ((shift g)^[w] v) := by
          rw [iterate_width g hw, ← iterate_horner, hfeed]
    _ = (shift g)^[w] ((shift g)^[n] v) := by
          rw [← Function.iterate_add_apply, Nat.add_comm, Function.iterate_add_apply]

theorem power_eq_iterate {g : BitVec w} (hg : g.getLsbD 0 = true) (ds : List Nat) :
    power g ds = (shift g)^[Nat.ofDigits 2 ds] 1#w := by
  induction ds with
  | nil => rfl
  | cons d ds ih =>
      rw [power, ih, times_iterate hg, ← Function.iterate_add_apply, ← Function.iterate_add_apply,
        Nat.ofDigits_cons]
      congr 1
      ring

/-- Whether the register returns after `n` shifts is settled by squarings. -/
theorem isPeriodicPt_iff_power {g : BitVec w} (hg : g.getLsbD 0 = true) (n : Nat) :
    Function.IsPeriodicPt (shift g) n 1#w ↔ power g (Nat.digits 2 n) = 1#w := by
  rw [power_eq_iterate hg, Nat.ofDigits_digits]
  rfl

/-- A period is the least one when none of its quotients by a prime is a period. -/
theorem minimalPeriod_eq_of_div_prime {α : Type*} {f : α → α} {x : α} {n : Nat}
    (hperiod : Function.IsPeriodicPt f n x)
    (hdiv : ∀ p : Nat, p.Prime → p ∣ n → ¬Function.IsPeriodicPt f (n / p) x) :
    Function.minimalPeriod f x = n := by
  by_contra hne
  obtain ⟨a, ha⟩ := hperiod.minimalPeriod_dvd
  have ha1 : a ≠ 1 := fun h => hne (by simpa [h] using ha.symm)
  obtain ⟨p, hp, hpa⟩ := Nat.exists_prime_and_dvd ha1
  obtain ⟨c, rfl⟩ := hpa
  refine hdiv p hp ⟨Function.minimalPeriod f x * c, by rw [ha]; ring⟩ ?_
  have hquot : n / p = Function.minimalPeriod f x * c :=
    Nat.div_eq_of_eq_mul_right hp.pos (by rw [ha]; ring)
  rw [hquot]
  exact (Function.isPeriodicPt_minimalPeriod f x).mul_const c

end EasyLoRa.RegisterPeriod
