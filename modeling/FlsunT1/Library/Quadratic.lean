/-
  Library/Quadratic.lean --- times with a constantly changing interval.

  A sequence that starts with the interval `v` and adds `a` to it after every
  time reaches `quad v a n` at its time number `n`.  While it increases and stays
  below a limit, its two parts `v * n` and `a * n (n - 1) / 2` are bounded as
  well, which is what machine arithmetic on them needs.
-/
import FlsunT1.Library.Word
import Mathlib.Algebra.Order.Ring.Abs
import Mathlib.Algebra.Ring.Parity
import Mathlib.Tactic.Ring

set_option autoImplicit false

namespace FlsunT1.Library

/-- `0 + 1 + .. + (n - 1)` -/
def triangle (n : Int) : Int := n * (n - 1) / 2

theorem two_mul_triangle (n : Int) : 2 * triangle n = n * (n - 1) := by
  have heven : Even (n * (n - 1)) := Int.even_mul_pred_self n
  have hdvd := Int.mul_ediv_cancel' heven.two_dvd
  unfold triangle
  exact hdvd

theorem triangle_succ (n : Int) : triangle (n + 1) = triangle n + n := by
  have h1 := two_mul_triangle (n + 1)
  have h2 := two_mul_triangle n
  have h3 : (n + 1) * (n + 1 - 1) = n * (n - 1) + 2 * n := by ring
  omega

theorem triangle_nonneg {n : Int} (hn : 1 ≤ n) : 0 ≤ triangle n := by
  have h := two_mul_triangle n
  have : 0 ≤ n * (n - 1) := mul_nonneg (by omega) (by omega)
  omega

@[simp] theorem triangle_one : triangle 1 = 0 := rfl

/-- The time number `n` of a sequence of times. -/
def quad (v a n : Int) : Int := a * triangle n + v * n

@[simp] theorem quad_one (v a : Int) : quad v a 1 = v := by simp [quad]

/-- The interval after the time number `n` is `v + a * n`. -/
theorem quad_succ (v a n : Int) : quad v a (n + 1) = quad v a n + (v + a * n) := by
  unfold quad
  rw [triangle_succ]
  ring

/-- While no interval is negative the times do not go back. -/
theorem quad_mono {v a : Int} {n : Nat} (h : ∀ k : Nat, k < n → 0 ≤ v + a * k) :
    ∀ {j i : Nat}, i ≤ j → j ≤ n → quad v a i ≤ quad v a j := by
  intro j
  induction j with
  | zero =>
    intro i hi _
    rw [Nat.le_zero.mp hi]
  | succ j ih =>
    intro i hi hj
    rcases Nat.lt_or_eq_of_le hi with hlt | rfl
    · have hprev := ih (Nat.le_of_lt_succ hlt) (by omega)
      have hstep := h j (by omega)
      rw [Nat.cast_succ, quad_succ]
      omega
    · exact le_refl _

/-- The two parts of a sequence whose first and last intervals are not negative. -/
theorem quad_parts {v a n m : Int} (hn : 1 ≤ n) (hfirst : 0 ≤ v)
    (hlast : 0 ≤ v + a * (n - 1)) (hm : quad v a n < m) :
    |a| * triangle n < m ∧ v * n < 2 * m := by
  have htri := two_mul_triangle n
  have hpos := triangle_nonneg hn
  unfold quad at hm
  have hvn : 0 ≤ v * n := mul_nonneg hfirst (by omega)
  rcases le_or_gt 0 a with ha | ha
  · rw [abs_of_nonneg ha]
    have hat : 0 ≤ a * triangle n := mul_nonneg ha hpos
    constructor <;> linarith
  · rw [abs_of_neg ha]
    -- the last interval bounds the first one from below
    have hlow : -(a * (n - 1)) * n ≤ v * n :=
      mul_le_mul_of_nonneg_right (by linarith) (by omega)
    have hexp : -(a * (n - 1)) * n = -(2 * (a * triangle n)) := by
      have : a * (n * (n - 1)) = a * (2 * triangle n) := by rw [htri]
      linarith
    have hat : a * triangle n ≤ 0 := mul_nonpos_of_nonpos_of_nonneg (le_of_lt ha) hpos
    constructor <;> linarith

/-- The quadratic part grows little with one more time: `a` is bounded, and where
there are many times it is small. -/
theorem triangle_succ_bound {a n m b : Int} (hn : 1 ≤ n) (ha : |a| ≤ b)
    (h : |a| * triangle n < m) :
    |a| * triangle (n + 1) < max (b * 4950 + 1) (m + m / 49 + 1) := by
  have habs : 0 ≤ |a| := abs_nonneg a
  rw [triangle_succ]
  have htri := two_mul_triangle n
  rcases le_or_gt n 99 with hsmall | hbig
  · refine lt_of_le_of_lt ?_ (lt_of_lt_of_le (Int.lt_succ _) (le_max_left _ _))
    have h1 : triangle n + n ≤ 4950 := by
      have : n * (n - 1) ≤ 99 * 98 := mul_le_mul hsmall (by omega) (by omega) (by omega)
      omega
    have h2 : 0 ≤ triangle n + n := by
      have := triangle_nonneg hn
      omega
    exact mul_le_mul ha h1 h2 (by linarith)
  · refine lt_of_lt_of_le ?_ (le_max_right _ _)
    have hstep : |a| * n * 99 ≤ 2 * (|a| * triangle n) := by
      have h1 : |a| * n * 99 ≤ |a| * n * (n - 1) :=
        mul_le_mul_of_nonneg_left (by omega) (mul_nonneg habs (by omega))
      have h2 : |a| * n * (n - 1) = |a| * (2 * triangle n) := by rw [htri]; ring
      linarith
    have hexp : |a| * (triangle n + n) = |a| * triangle n + |a| * n := by ring
    have hx : 0 ≤ |a| * triangle n := mul_nonneg habs (triangle_nonneg hn)
    rw [hexp]
    generalize |a| * triangle n = x at *
    generalize |a| * n = y at *
    omega

/-- The linear part with one more time. -/
theorem mul_succ_bound {v a n m b : Int} (hn : 1 ≤ n) (hv : 0 < v) (ha : |a| ≤ b)
    (hb : 0 ≤ b) (hq : quad v a n < m) (hvn : v * n < 2 * m) :
    v * (n + 1) < 2 * m + 2 * m / 100 + b * 7277 + 1 := by
  have hexp : v * (n + 1) = v * n + v := by ring
  rw [hexp]
  rcases le_or_gt n 99 with hsmall | hbig
  · have htri := two_mul_triangle n
    have htri0 := triangle_nonneg hn
    have htri1 : triangle n ≤ 4851 := by
      have : n * (n - 1) ≤ 99 * 98 := mul_le_mul hsmall (by omega) (by omega) (by omega)
      omega
    have hlow : -(b * 4851) ≤ a * triangle n := by
      have h1 : -|a| * triangle n ≤ a * triangle n :=
        mul_le_mul_of_nonneg_right (neg_abs_le a) htri0
      have h2 : |a| * triangle n ≤ b * 4851 := mul_le_mul ha htri1 htri0 hb
      linarith
    unfold quad at hq
    have hvn' : v * n < m + b * 4851 := by linarith
    rcases le_or_gt n 1 with h1 | h2
    · have hone : n = 1 := by omega
      subst hone
      simp only [triangle_one, mul_zero, mul_one, zero_add] at hq hvn'
      omega
    · have hv2 : v * 2 ≤ v * n := mul_le_mul_of_nonneg_left (by omega) (by omega)
      generalize v * n = x at *
      omega
  · have hv100 : v * 100 ≤ v * n := mul_le_mul_of_nonneg_left (by omega) (by omega)
    generalize v * n = x at *
    omega

end FlsunT1.Library
