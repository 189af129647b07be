import Mathlib.Data.List.Basic
import Mathlib.Logic.Function.Iterate

namespace EasyLoRa.ShiftRegister

variable {w : Nat}

def shift (g r : BitVec w) : BitVec w := if r.msb then (r <<< 1) ^^^ g else r <<< 1

/-- The register whose leading bit is `b` and whose other bits are clear. -/
def lead (w : Nat) (b : Bool) : BitVec w := if b then BitVec.twoPow w (w - 1) else 0#w

def feed (g : BitVec w) : BitVec w → List Bool → BitVec w
  | r, [] => r
  | r, b :: bs => feed g (shift g (r ^^^ lead w b)) bs

/-- The bits of a word, the most significant first. -/
def bits {n : Nat} (x : BitVec n) : List Bool := (List.range n).map x.getMsbD

/-- The register whose leading bits are the given ones. -/
def pack (w : Nat) : List Bool → BitVec w
  | [] => 0#w
  | b :: bs => lead w b ^^^ (pack w bs >>> 1)

@[simp] theorem lead_false : lead w false = 0#w := rfl

@[simp] theorem lead_true : lead w true = BitVec.twoPow w (w - 1) := rfl

theorem lead_not (b : Bool) : lead w (!b) = lead w b ^^^ lead w true := by
  cases b <;> simp [lead]

theorem getMsbD_lead (b : Bool) (i : Nat) :
    (lead w b).getMsbD i = (b && decide (i = 0) && decide (0 < w)) := by
  cases b with
  | false => simp
  | true =>
      rw [lead_true, BitVec.getMsbD_twoPow]
      by_cases hi : i = 0
      · simp only [hi]
        grind
      · simp only [hi]
        grind

@[simp] theorem shift_zero (g : BitVec w) : shift g 0#w = 0#w := by simp [shift]

theorem shift_xor (g r s : BitVec w) : shift g (r ^^^ s) = shift g r ^^^ shift g s := by
  simp only [shift, BitVec.msb_xor, BitVec.shiftLeft_xor_distrib]
  cases r.msb <;> cases s.msb
  · simp
  · simp only [Bool.bne_true, Bool.not_false, if_true, Bool.false_eq_true, if_false]
    ac_rfl
  · simp only [Bool.bne_false, if_true, Bool.false_eq_true, if_false]
    ac_rfl
  · simp only [bne_self_eq_false, Bool.false_eq_true, if_false, if_true]
    rw [show r <<< 1 ^^^ g ^^^ (s <<< 1 ^^^ g) = r <<< 1 ^^^ s <<< 1 ^^^ (g ^^^ g) by ac_rfl,
      BitVec.xor_self, BitVec.xor_zero]

theorem iterate_shift_zero (g : BitVec w) (n : Nat) : (shift g)^[n] 0#w = 0#w :=
  Function.iterate_fixed (shift_zero g) n

theorem iterate_shift_xor (g r s : BitVec w) (n : Nat) :
    (shift g)^[n] (r ^^^ s) = (shift g)^[n] r ^^^ (shift g)^[n] s := by
  induction n generalizing r s with
  | zero => rfl
  | succ n ih => simp only [Function.iterate_succ_apply, shift_xor, ih]

theorem shift_eq_zero {g r : BitVec w} (hg : g.getLsbD 0 = true) (h : shift g r = 0#w) :
    r = 0#w := by
  have hw : 0 < w := BitVec.lt_of_getLsbD hg
  cases hr : r.msb with
  | true =>
      have hlow := congrArg (BitVec.getLsbD · 0) h
      simp [shift, hr, hg] at hlow
  | false =>
      rw [shift, if_neg (by simp [hr])] at h
      apply BitVec.eq_of_getLsbD_eq
      intro i hi
      by_cases hlast : i = w - 1
      · rw [hlast, ← BitVec.msb_eq_getLsbD_last, hr]
        simp
      · have hnext := congrArg (BitVec.getLsbD · (i + 1)) h
        have hbound : i + 1 < w := by omega
        simpa [hbound, BitVec.getLsbD_eq_getElem hi] using hnext

theorem shift_injective {g : BitVec w} (hg : g.getLsbD 0 = true) :
    Function.Injective (shift g) := by
  intro r s h
  have hzero : shift g (r ^^^ s) = 0#w := by rw [shift_xor, h, BitVec.xor_self]
  exact BitVec.xor_eq_zero_iff.mp (shift_eq_zero hg hzero)

theorem feed_append (g r : BitVec w) (bs cs : List Bool) :
    feed g r (bs ++ cs) = feed g (feed g r bs) cs := by
  induction bs generalizing r with
  | nil => rfl
  | cons b bs ih => exact ih _

theorem feed_xor (g r s : BitVec w) (bs : List Bool) :
    feed g (r ^^^ s) bs = feed g r bs ^^^ (shift g)^[bs.length] s := by
  induction bs generalizing r s with
  | nil => rfl
  | cons b bs ih =>
      have hassoc : r ^^^ s ^^^ lead w b = r ^^^ lead w b ^^^ s := by ac_rfl
      rw [feed, hassoc, shift_xor, ih, feed, List.length_cons, Function.iterate_succ_apply]

/-- An inverted bit reaches the register as an impulse, shifted once for every
bit from its own on. -/
theorem feed_modify (g r : BitVec w) (bs : List Bool) (i : Nat) (hi : i < bs.length) :
    feed g r (bs.modify i (!·)) =
      feed g r bs ^^^ (shift g)^[bs.length - i] (lead w true) := by
  induction bs generalizing r i with
  | nil => simp at hi
  | cons b bs ih =>
      cases i with
      | zero =>
          rw [List.modify_zero_cons, feed, lead_not, ← BitVec.xor_assoc, shift_xor, feed_xor, feed,
            Nat.sub_zero, List.length_cons, Function.iterate_succ_apply]
      | succ i =>
          have hi' : i < bs.length := by simpa using hi
          rw [List.modify_succ_cons, feed, ih _ i hi', feed, List.length_cons,
            Nat.add_sub_add_right]

@[simp] theorem length_bits {n : Nat} (x : BitVec n) : (bits x).length = n := by simp [bits]

theorem getElem_bits {n : Nat} (x : BitVec n) (i : Nat) (hi : i < (bits x).length) :
    (bits x)[i] = x.getMsbD i := by
  simp [bits]

theorem getD_bits {n : Nat} (x : BitVec n) (i : Nat) : (bits x).getD i false = x.getMsbD i := by
  by_cases hi : i < n
  · simp [bits, hi]
  · have hout : x.getMsbD i = false := BitVec.getMsbD_of_ge x i (by omega)
    simp [bits, hi, hout]

theorem bits_append {n m : Nat} (x : BitVec n) (y : BitVec m) :
    bits (x ++ y) = bits x ++ bits y := by
  apply List.ext_getElem (by simp)
  intro i hi _
  by_cases hn : i < n
  · simp [bits, BitVec.getMsbD_append, hn, Nat.not_le.mpr hn]
  · simp [bits, BitVec.getMsbD_append, Nat.not_lt.mp hn]

theorem getMsbD_pack (bs : List Bool) (i : Nat) (hi : i < w) :
    (pack w bs).getMsbD i = bs.getD i false := by
  induction bs generalizing i with
  | nil => simp [pack]
  | cons b bs ih =>
      rw [pack, BitVec.getMsbD_xor, getMsbD_lead, BitVec.getMsbD_ushiftRight]
      cases i with
      | zero => simp [hi]
      | succ i => simp [hi, ih i (by omega)]

theorem pack_bits {n : Nat} (x : BitVec n) (hn : n ≤ w) :
    pack w (bits x) = x.setWidth w <<< (w - n) := by
  apply BitVec.eq_of_getMsbD_eq
  intro i hi
  rw [getMsbD_pack _ _ hi, getD_bits]
  grind

/-- Feeding at most a register's width of bits is adding them to the register
and shifting. -/
theorem feed_eq_iterate (g r : BitVec w) (bs : List Bool) (hbs : bs.length ≤ w) :
    feed g r bs = (shift g)^[bs.length] (r ^^^ pack w bs) := by
  induction bs generalizing r with
  | nil => simp [feed, pack]
  | cons b bs ih =>
      have hbound : bs.length < w := hbs
      have hshift : shift g (pack w bs >>> 1) = pack w bs := by
        have hmsb : (pack w bs >>> 1).msb = false := by simp
        rw [shift, if_neg (by simp [hmsb])]
        apply BitVec.eq_of_getMsbD_eq
        intro i hi
        rw [BitVec.getMsbD_shiftLeft, BitVec.getMsbD_ushiftRight]
        by_cases hlast : i + 1 < w
        · simp [hlast]
        · have hout : bs.length ≤ i := by omega
          rw [getMsbD_pack _ _ hi]
          simp [hlast, hout]
      rw [feed, ih _ (by omega), List.length_cons, Function.iterate_succ_apply, pack,
        ← BitVec.xor_assoc, shift_xor g (r ^^^ lead w b), hshift]

end EasyLoRa.ShiftRegister
