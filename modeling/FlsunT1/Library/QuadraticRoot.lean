/-
  Library/QuadraticRoot.lean --- which time of a sequence comes last before a given one.

  The number of the last time of `quad v a` up to `t` is the root of a quadratic polynomial,
  rounded down: the same formula serves growing and shrinking intervals, as the sign of `a` turns
  the division around.
-/
import FlsunT1.Library.Instances
import FlsunT1.Library.Quadratic
import Mathlib.Analysis.Real.Sqrt
import Mathlib.Tactic.LinearCombination

set_option autoImplicit false

namespace FlsunT1.Library

/-- The positive root of `a x² + b x + c`, as the quadratic formula has it. -/
noncomputable def quadraticRoot (a b c : ℝ) : ℝ := (Real.sqrt (b * b - 4 * a * c) - b) / (2 * a)

theorem quad_real (v a n : Int) :
    ((quad v a n : Int) : ℝ) = a / 2 * n ^ 2 + (v - a / 2) * n := by
  have htri : (2 : ℝ) * (triangle n : Int) = n * (n - 1) := by
    have h := congrArg (Int.cast : Int → ℝ) (two_mul_triangle n)
    push_cast at h
    exact h
  unfold quad
  push_cast
  linear_combination (a : ℝ) / 2 * htri

/-- The root for the time `t` is between the numbers of the times around it. -/
theorem quadraticRoot_bounds {v a m t : Int} (ha : a ≠ 0) (hinterval : 0 ≤ v + a * m)
    (hlow : quad v a m ≤ t) (hhigh : t < quad v a (m + 1)) :
    (m : ℝ) ≤ quadraticRoot (a / 2) (v - a / 2) (-t) ∧
      quadraticRoot (a / 2) (v - a / 2) (-t) < m + 1 := by
  have hlow' : (a : ℝ) / 2 * m ^ 2 + (v - a / 2) * m ≤ t := by
    rw [← quad_real]
    exact_mod_cast hlow
  have hhigh' : (t : ℝ) < a / 2 * (m + 1) ^ 2 + (v - a / 2) * (m + 1) := by
    have h : ((m + 1 : Int) : ℝ) = m + 1 := by push_cast; ring
    rw [← h, ← quad_real]
    exact_mod_cast hhigh
  have hinterval' : (0 : ℝ) ≤ v + a * m := by exact_mod_cast hinterval
  have hdisc : ((v : ℝ) - a / 2) * (v - a / 2) - 4 * (a / 2) * (-t) =
      (v - a / 2) ^ 2 + 2 * a * t := by ring
  unfold quadraticRoot
  rw [hdisc, mul_div_cancel₀ _ two_ne_zero]
  rcases lt_or_gt_of_ne ha with hneg | hpos
  · -- the intervals shrink: the smaller root, before the vertex
    have hneg' : (a : ℝ) < 0 := by exact_mod_cast hneg
    constructor
    · rw [le_div_iff_of_neg hneg', sub_le_iff_le_add, Real.sqrt_le_iff]
      constructor
      · linarith
      · nlinarith
    · rw [div_lt_iff_of_neg hneg', lt_sub_iff_add_lt]
      apply Real.lt_sqrt_of_sq_lt
      nlinarith
  · have hpos' : (0 : ℝ) < a := by exact_mod_cast hpos
    constructor
    · rw [le_div_iff₀ hpos', le_sub_iff_add_le]
      refine le_trans (le_abs_self _) (Real.abs_le_sqrt ?_)
      nlinarith
    · rw [div_lt_iff₀ hpos', sub_lt_iff_lt_add, Real.sqrt_lt' (by linarith)]
      nlinarith

end FlsunT1.Library
