import Mathlib

/-!
# SmithsNet.Lib.Quantise

Logarithmic quantisation: a number is kept with a few leading bits, so the step doubles
from one power of two to the next, and below some number it is constant.

* `quantise_le`, `lt_quantise` — the error is at most half a step;
* `quantise_eq_mantissa` — what a code of exponent and mantissa stands for;
* `quantise_mono` — the order is kept, across the segments too.
-/

namespace SmithsNet.Lib

/-- The step around a number: its leading bit and `bits` more are kept, and no step is
smaller than `2 ^ least`. -/
def segmentStep (least bits n : Nat) : Nat := 2 ^ max least (n.log2 - bits)

/-- The middle of the step a number lies in. -/
def quantise (least bits n : Nat) : Nat :=
  n / segmentStep least bits n * segmentStep least bits n + segmentStep least bits n / 2

theorem segmentStep_pos (least bits n : Nat) : 0 < segmentStep least bits n :=
  Nat.two_pow_pos _

theorem two_dvd_segmentStep {least : Nat} (h : 0 < least) (bits n : Nat) :
    2 ∣ segmentStep least bits n :=
  dvd_pow_self 2 (by omega)

theorem quantise_le (least bits n : Nat) :
    quantise least bits n ≤ n + segmentStep least bits n / 2 := by
  have hfloor := Nat.div_mul_le_self n (segmentStep least bits n)
  rw [quantise]
  omega

section

variable {least : Nat} (bits : Nat)

theorem lt_quantise (h : 0 < least) (n : Nat) :
    n < quantise least bits n + segmentStep least bits n / 2 := by
  have hfloor := Nat.lt_div_mul_add (a := n) (segmentStep_pos least bits n)
  have heven := Nat.div_mul_cancel (two_dvd_segmentStep h bits n)
  rw [quantise]
  omega

/-- In the segment whose step is `2 ^ k` it is the mantissa that tells the steps apart. -/
theorem quantise_eq_mantissa {n k : Nat} (hn : n ≠ 0) (hlog : n.log2 = k + bits) (hk : least ≤ k) :
    quantise least bits n = (2 ^ bits + n / 2 ^ k % 2 ^ bits) * 2 ^ k + 2 ^ k / 2 := by
  have hstep : segmentStep least bits n = 2 ^ k := by
    rw [segmentStep, hlog, Nat.add_sub_cancel, Nat.max_eq_right hk]
  have hlow : 2 ^ bits ≤ n / 2 ^ k := by
    rw [Nat.le_div_iff_mul_le (Nat.two_pow_pos k), ← Nat.pow_add, Nat.add_comm, ← hlog]
    exact Nat.log2_self_le hn
  have hhigh : n / 2 ^ k < 2 ^ bits + 2 ^ bits := by
    rw [Nat.div_lt_iff_lt_mul (Nat.two_pow_pos k), ← Nat.two_mul, ← Nat.pow_succ', ← Nat.pow_add]
    have hlt := Nat.lt_log2_self (n := n)
    rwa [hlog, show k + bits + 1 = bits + 1 + k by omega] at hlt
  have hmantissa : n / 2 ^ k % 2 ^ bits = n / 2 ^ k - 2 ^ bits := by
    rw [Nat.mod_eq_sub_mod hlow, Nat.mod_eq_of_lt (by omega)]
  rw [quantise, hstep, hmantissa, Nat.add_sub_cancel' hlow]

theorem log2_mono {x y : Nat} (h : x ≤ y) : x.log2 ≤ y.log2 := by
  rw [Nat.log2_eq_log_two, Nat.log2_eq_log_two]
  exact Nat.log_mono_right h

/-- The middle of a step stays below the next power of two that is a multiple of it. -/
theorem quantise_le_pow {x k : Nat} (hx : x < 2 ^ k) (hk : max least (x.log2 - bits) ≤ k) :
    quantise least bits x ≤ 2 ^ k := by
  have hsplit : 2 ^ k = 2 ^ (k - max least (x.log2 - bits)) * segmentStep least bits x := by
    rw [segmentStep, ← Nat.pow_add, Nat.sub_add_cancel hk]
  have hquot : x / segmentStep least bits x < 2 ^ (k - max least (x.log2 - bits)) := by
    rw [Nat.div_lt_iff_lt_mul (segmentStep_pos least bits x), ← hsplit]
    exact hx
  have hnext := Nat.mul_le_mul_right (segmentStep least bits x) hquot
  rw [← hsplit, Nat.succ_mul] at hnext
  rw [quantise]
  omega

theorem pow_le_quantise {y k : Nat} (hy : 2 ^ k ≤ y) (hk : max least (y.log2 - bits) ≤ k) :
    2 ^ k ≤ quantise least bits y := by
  have hsplit : 2 ^ k = 2 ^ (k - max least (y.log2 - bits)) * segmentStep least bits y := by
    rw [segmentStep, ← Nat.pow_add, Nat.sub_add_cancel hk]
  have hquot : 2 ^ (k - max least (y.log2 - bits)) ≤ y / segmentStep least bits y := by
    rw [Nat.le_div_iff_mul_le (segmentStep_pos least bits y), ← hsplit]
    exact hy
  have hfloor := Nat.mul_le_mul_right (segmentStep least bits y) hquot
  rw [← hsplit] at hfloor
  rw [quantise]
  omega

theorem quantise_mono {x y : Nat} (h : x ≤ y) : quantise least bits x ≤ quantise least bits y := by
  have hlog := log2_mono h
  by_cases hstep : max least (x.log2 - bits) = max least (y.log2 - bits)
  · rw [quantise, quantise, segmentStep, segmentStep, hstep]
    exact Nat.add_le_add_right (Nat.mul_le_mul_right _ (Nat.div_le_div_right h)) _
  · -- another step: a power of two lies between the two
    have hyne : y ≠ 0 := by
      rintro rfl
      have hx0 : x = 0 := Nat.le_zero.mp h
      subst hx0
      exact hstep rfl
    have hbelow : x < 2 ^ y.log2 :=
      Nat.lt_of_lt_of_le Nat.lt_log2_self (Nat.pow_le_pow_right (by decide) (by omega))
    exact (quantise_le_pow bits hbelow (by omega)).trans
      (pow_le_quantise bits (Nat.log2_self_le hyne) (by omega))

end

end SmithsNet.Lib
