/-
  Library/Interpolation.lean --- interpolation between the points of a line.

  `hat` gives linear interpolation between neighbours as a sum over all points, which shows that
  it is continuous; `lagrange` is the polynomial through all points.
-/
import Mathlib.Algebra.Order.Floor.Ring
import Mathlib.LinearAlgebra.Lagrange
import Mathlib.Topology.Instances.Real.Lemmas

set_option autoImplicit false

namespace FlsunT1.Library

open Finset

section Hat

variable {K : Type*} [Field K] [LinearOrder K]

/-- One at zero, and zero from a distance of one on. -/
def hat (v : K) : K := max 0 (1 - |v|)

variable [IsStrictOrderedRing K]

theorem hat_of_one_le {v : K} (h : 1 ≤ |v|) : hat v = 0 :=
  max_eq_left (sub_nonpos.mpr h)

theorem hat_of_nonneg {v : K} (h0 : 0 ≤ v) (h1 : v ≤ 1) : hat v = 1 - v := by
  rw [hat, abs_of_nonneg h0, max_eq_right (sub_nonneg.mpr h1)]

theorem hat_of_nonpos {v : K} (h0 : -1 ≤ v) (h1 : v ≤ 0) : hat v = 1 + v := by
  rw [hat, abs_of_nonpos h1, sub_neg_eq_add, max_eq_right (by linarith)]

/-- Between two neighbours only these two count. -/
theorem sum_hat (f : ℕ → K) {n i : ℕ} {t : K} (hi : i + 1 < n) (h0 : 0 ≤ t) (h1 : t ≤ 1) :
    ∑ k ∈ range n, f k * hat ((i : K) + t - k) = (1 - t) * f i + t * f (i + 1) := by
  have hfar (k : ℕ) (hk : k ≠ i) (hk' : k ≠ i + 1) : hat ((i : K) + t - k) = 0 := by
    apply hat_of_one_le
    rcases Nat.lt_or_gt_of_ne hk with hlt | hgt
    · have : (k : K) + 1 ≤ i := by exact_mod_cast hlt
      rw [le_abs]
      left
      linarith
    · have : (i : K) + 2 ≤ k := by
        have : i + 2 ≤ k := by omega
        exact_mod_cast this
      rw [le_abs]
      right
      linarith
  have hsubset : ({i, i + 1} : Finset ℕ) ⊆ range n := by
    intro k hk
    rw [mem_insert, mem_singleton] at hk
    rw [mem_range]
    omega
  rw [← sum_subset hsubset, sum_pair (Nat.succ_ne_self i).symm, add_sub_cancel_left,
    hat_of_nonneg h0 h1, Nat.cast_succ, show (i : K) + t - (i + 1) = t - 1 by ring,
    hat_of_nonpos (by linarith) (by linarith)]
  · ring
  · intro k _ hk
    rw [mem_insert, mem_singleton, not_or] at hk
    rw [hfar k hk.1 hk.2, mul_zero]

/-- At a point only this one counts. -/
theorem sum_hat_natCast (f : ℕ → K) {n i : ℕ} (hi : i < n) :
    ∑ k ∈ range n, f k * hat ((i : K) - k) = f i := by
  rw [sum_eq_single_of_mem i (mem_range.mpr hi)]
  · rw [sub_self, hat_of_nonneg le_rfl zero_le_one, sub_zero, mul_one]
  · intro k _ hk
    have hone : (1 : ℤ) ≤ |(i : ℤ) - k| := Int.one_le_abs (sub_ne_zero.mpr (by exact_mod_cast hk.symm))
    rw [hat_of_one_le (by exact_mod_cast hone), mul_zero]

theorem continuous_hat : Continuous (hat : ℝ → ℝ) :=
  continuous_const.max (continuous_const.sub continuous_abs)

end Hat

section Lagrange

variable {K : Type*} [Field K]

/-- The value at `c` of the polynomial through the points `(x i, z i)`. -/
def lagrange (n : ℕ) (x z : ℕ → K) (c : K) : K :=
  ∑ i ∈ range n, z i * (∏ j ∈ (range n).erase i, (c - x j)) / ∏ j ∈ (range n).erase i, (x i - x j)

theorem lagrange_congr {n : ℕ} {x z z' : ℕ → K} {c : K} (h : ∀ i < n, z i = z' i) :
    lagrange n x z c = lagrange n x z' c := by
  apply sum_congr rfl
  intro i hi
  rw [h i (mem_range.mp hi)]

theorem lagrange_eq_eval {n : ℕ} (x z : ℕ → K) (c : K) :
    lagrange n x z c = (Lagrange.interpolate (range n) x z).eval c := by
  rw [Lagrange.interpolate_apply, Polynomial.eval_finsetSum]
  apply sum_congr rfl
  intro i _
  rw [Polynomial.eval_mul, Polynomial.eval_C, Lagrange.basis, Polynomial.eval_prod, mul_div_assoc,
    ← prod_div_distrib]
  congr 1
  apply prod_congr rfl
  intro j _
  rw [Lagrange.basisDivisor, Polynomial.eval_mul, Polynomial.eval_C, Polynomial.eval_sub,
    Polynomial.eval_X, Polynomial.eval_C, div_eq_inv_mul]

/-- A polynomial of degree below the number of points is found again. -/
theorem lagrange_eval {n : ℕ} {x : ℕ → K} (hx : Set.InjOn x (range n)) (a : ℕ → K) (c : K) :
    lagrange n x (fun i => ∑ k ∈ range n, a k * x i ^ k) c = ∑ k ∈ range n, a k * c ^ k := by
  have heval (v : K) :
      (∑ k ∈ range n, Polynomial.C (a k) * Polynomial.X ^ k).eval v =
        ∑ k ∈ range n, a k * v ^ k := by
    rw [Polynomial.eval_finsetSum]
    apply sum_congr rfl
    intro k _
    rw [Polynomial.eval_C_mul, Polynomial.eval_pow, Polynomial.eval_X]
  have hdegree : (∑ k ∈ range n, Polynomial.C (a k) * Polynomial.X ^ k).degree <
      ((range n).card : WithBot ℕ) := by
    rw [card_range, Finset.sum_range]
    exact Polynomial.degree_sum_fin_lt _
  rw [lagrange_eq_eval, ← heval c]
  congr 1
  symm
  apply Lagrange.eq_interpolate_of_eval_eq _ hx hdegree
  intro i _
  exact heval (x i)

end Lagrange

end FlsunT1.Library
