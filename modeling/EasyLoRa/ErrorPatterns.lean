import Mathlib.Algebra.BigOperators.Fin
import Mathlib.Algebra.Field.ZMod
import Mathlib.Dynamics.PeriodicPts.Defs
import EasyLoRa.ShiftRegister

namespace EasyLoRa.ErrorPatterns

open EasyLoRa.ShiftRegister

variable {w : Nat}

/-- Invert the bits of a stream at the given places. -/
def invert (is : List Nat) (bs : List Bool) : List Bool :=
  is.foldr (fun i bs => bs.modify i (!·)) bs

/-- What inverting the given places of a stream of `n` bits adds to the register
at its end. -/
def syndrome (g : BitVec w) (n : Nat) (is : List Nat) : BitVec w :=
  is.foldr (fun i s => (shift g)^[n - i] (lead w true) ^^^ s) 0#w

@[simp] theorem syndrome_nil (g : BitVec w) (n : Nat) : syndrome g n [] = 0#w := rfl

theorem syndrome_cons (g : BitVec w) (n i : Nat) (is : List Nat) :
    syndrome g n (i :: is) = (shift g)^[n - i] (lead w true) ^^^ syndrome g n is := rfl

theorem invert_cons (i : Nat) (is : List Nat) (bs : List Bool) :
    invert (i :: is) bs = (invert is bs).modify i (!·) := rfl

@[simp] theorem length_invert (is : List Nat) (bs : List Bool) :
    (invert is bs).length = bs.length := by
  induction is with
  | nil => rfl
  | cons i is ih => rw [invert_cons, List.length_modify, ih]

theorem feed_invert (g r : BitVec w) (is : List Nat) (bs : List Bool)
    (his : ∀ i ∈ is, i < bs.length) :
    feed g r (invert is bs) = feed g r bs ^^^ syndrome g bs.length is := by
  induction is with
  | nil => simp [invert]
  | cons i is ih =>
      have hi : i < (invert is bs).length := by simpa using his i (by simp)
      rw [invert_cons, feed_modify _ _ _ _ hi, ih fun j hj => his j (by simp [hj]),
        length_invert, syndrome_cons, BitVec.xor_assoc,
        BitVec.xor_comm (syndrome g bs.length is)]

/-- The given places of a stream as bits of a register whose window ends at
place `b`. -/
def window (w b : Nat) (is : List Nat) : BitVec w :=
  is.foldr (fun i s => BitVec.twoPow w (b - i - 1) ^^^ s) 0#w

@[simp] theorem window_nil (b : Nat) : window w b [] = 0#w := rfl

theorem window_cons (b i : Nat) (is : List Nat) :
    window w b (i :: is) = BitVec.twoPow w (b - i - 1) ^^^ window w b is := rfl

theorem getLsbD_window {b k : Nat} {is : List Nat} (his : ∀ i ∈ is, b - i - 1 ≠ k) :
    (window w b is).getLsbD k = false := by
  induction is with
  | nil => simp
  | cons i is ih =>
      rw [window_cons, BitVec.getLsbD_xor, ih fun j hj => his j (by simp [hj]),
        BitVec.getLsbD_twoPow]
      simp [his i (by simp)]

theorem window_ne_zero {b : Nat} {is : List Nat} (hne : is ≠ []) (hnodup : is.Nodup)
    (his : ∀ i ∈ is, i < b ∧ b ≤ i + w) : window w b is ≠ 0#w := by
  intro hzero
  cases is with
  | nil => exact hne rfl
  | cons i is =>
      obtain ⟨hi, hiw⟩ := his i (by simp)
      have hother : ∀ j ∈ is, b - j - 1 ≠ b - i - 1 := by
        intro j hj heq
        have hjb := (his j (by simp [hj])).1
        have hij : j = i := by omega
        exact (List.nodup_cons.mp hnodup).1 (hij ▸ hj)
      have hbound : b - i - 1 < w := by omega
      have hbit : (window w b (i :: is)).getLsbD (b - i - 1) = true := by
        rw [window_cons, BitVec.getLsbD_xor, getLsbD_window hother, BitVec.getLsbD_twoPow]
        simp [hbound]
      rw [hzero] at hbit
      simp at hbit

theorem iterate_shift_one (g : BitVec w) {j : Nat} (hj : j < w) :
    (shift g)^[j] 1#w = BitVec.twoPow w j := by
  induction j with
  | zero => exact (BitVec.twoPow_zero).symm
  | succ j ih =>
      have hmsb : (BitVec.twoPow w j).msb = false := by
        rw [BitVec.msb_twoPow]
        simp
        omega
      rw [Function.iterate_succ_apply', ih (by omega), shift, if_neg (by simp [hmsb]),
        BitVec.twoPow_eq, BitVec.twoPow_eq, BitVec.shiftLeft_add]

theorem lead_eq_iterate (g : BitVec w) (hw : 0 < w) :
    lead w true = (shift g)^[w - 1] 1#w := by
  rw [lead_true, iterate_shift_one g (by omega)]

/-- In a window of the register's width that ends at `b`, an impulse is one bit
of the register, shifted as often for every place. -/
theorem impulse_eq_iterate (g : BitVec w) {n i b : Nat} (hi : i < b) (hb : b ≤ n)
    (hwindow : b ≤ i + w) :
    (shift g)^[n - i] (lead w true) = (shift g)^[n - b + w] (BitVec.twoPow w (b - i - 1)) := by
  rw [lead_eq_iterate g (by omega), ← iterate_shift_one g (by omega : b - i - 1 < w),
    ← Function.iterate_add_apply, ← Function.iterate_add_apply]
  congr 1
  omega

theorem syndrome_eq_iterate (g : BitVec w) {n b : Nat} {is : List Nat} (hb : b ≤ n)
    (his : ∀ i ∈ is, i < b ∧ b ≤ i + w) :
    syndrome g n is =
      (shift g)^[n - b + w] (window w b is) := by
  induction is with
  | nil => exact (iterate_shift_zero g _).symm
  | cons i is ih =>
      obtain ⟨hi, hwindow⟩ := his i (by simp)
      rw [syndrome_cons, ih fun j hj => his j (by simp [hj]), impulse_eq_iterate g hi hb hwindow,
        window_cons, iterate_shift_xor]

/-- A burst no longer than the register never cancels out. -/
theorem syndrome_burst_ne_zero {g : BitVec w} (hg : g.getLsbD 0 = true) {n a : Nat}
    {is : List Nat} (hne : is ≠ []) (hnodup : is.Nodup)
    (his : ∀ i ∈ is, i < n ∧ a ≤ i ∧ i < a + w) : syndrome g n is ≠ 0#w := by
  intro hzero
  have hmin : min n (a + w) ≤ n := Nat.min_le_left _ _
  have hwindow : ∀ i ∈ is, i < min n (a + w) ∧ min n (a + w) ≤ i + w := by
    intro i hi
    obtain ⟨hn, ha, hw⟩ := his i hi
    omega
  generalize min n (a + w) = b at hmin hwindow
  rw [syndrome_eq_iterate g hmin hwindow, ← iterate_shift_zero g (n - b + w)] at hzero
  exact window_ne_zero hne hnodup hwindow ((shift_injective hg).iterate _ hzero)

/-- The parity of the ones in a register. -/
def parity (r : BitVec w) : ZMod 2 := ∑ i : Fin w, if r.getLsbD i then 1 else 0

theorem parity_xor (r s : BitVec w) : parity (r ^^^ s) = parity r + parity s := by
  rw [parity, parity, parity, ← Finset.sum_add_distrib]
  refine Finset.sum_congr rfl fun i _ => ?_
  rw [BitVec.getLsbD_xor]
  cases r.getLsbD i <;> cases s.getLsbD i <;> decide

@[simp] theorem parity_zero : parity 0#w = 0 := by simp [parity]

theorem parity_twoPow {k : Nat} (hk : k < w) : parity (BitVec.twoPow w k) = 1 := by
  rw [parity, Finset.sum_eq_single ⟨k, hk⟩]
  · simp [hk]
  · intro i _ hi
    have hne : i.val ≠ k := fun h => hi (Fin.ext h)
    simp [hne]
  · simp

/-- A left shift drops the leading bit from the parity. -/
theorem parity_shiftLeft_one (r : BitVec w) :
    parity r = parity (r <<< 1) + if r.msb then 1 else 0 := by
  cases w with
  | zero => simp [parity, BitVec.eq_nil r]
  | succ w =>
      rw [parity, parity, Fin.sum_univ_castSucc, Fin.sum_univ_succ]
      simp [BitVec.msb_eq_getLsbD_last]

/-- A generator with an even number of terms keeps the parity of the register. -/
theorem parity_shift {g : BitVec w} (hg : parity g = 1) (r : BitVec w) :
    parity (shift g r) = parity r := by
  rw [parity_shiftLeft_one r, shift]
  cases r.msb <;> simp [parity_xor, hg]

theorem parity_iterate_shift {g : BitVec w} (hg : parity g = 1) (n : Nat) (r : BitVec w) :
    parity ((shift g)^[n] r) = parity r := by
  induction n with
  | zero => rfl
  | succ n ih => rw [Function.iterate_succ_apply', parity_shift hg, ih]

theorem parity_syndrome {g : BitVec w} (hw : 0 < w) (hg : parity g = 1) (n : Nat)
    (is : List Nat) : parity (syndrome g n is) = is.length := by
  induction is with
  | nil => simp
  | cons i is ih =>
      rw [syndrome_cons, parity_xor, ih, parity_iterate_shift hg,
        lead_true, parity_twoPow (by omega), List.length_cons, Nat.cast_succ, add_comm]

theorem syndrome_odd_ne_zero {g : BitVec w} (hw : 0 < w) (hg : parity g = 1) (n : Nat)
    {is : List Nat} (hodd : Odd is.length) : syndrome g n is ≠ 0#w := by
  intro hzero
  have hparity := parity_syndrome hw hg n is
  rw [hzero, parity_zero, ZMod.natCast_eq_one_iff_odd.mpr hodd] at hparity
  exact absurd hparity (by decide)

/-- Two inverted bits cancel out only at a distance that is a period of the
register. -/
theorem isPeriodicPt_of_syndrome_pair {g : BitVec w} (hg : g.getLsbD 0 = true) {n i j : Nat}
    (hij : i < j) (hj : j ≤ n) (h : syndrome g n [i, j] = 0#w) :
    Function.IsPeriodicPt (shift g) (j - i) 1#w := by
  have hw : 0 < w := BitVec.lt_of_getLsbD hg
  have himpulses : (shift g)^[n - i] (lead w true) = (shift g)^[n - j] (lead w true) := by
    simpa [syndrome, BitVec.xor_eq_zero_iff] using h
  rw [lead_eq_iterate g hw, ← Function.iterate_add_apply, ← Function.iterate_add_apply,
    show n - i + (w - 1) = n - j + (w - 1) + (j - i) by omega,
    Function.iterate_add_apply] at himpulses
  exact (shift_injective hg).iterate _ himpulses

end EasyLoRa.ErrorPatterns
