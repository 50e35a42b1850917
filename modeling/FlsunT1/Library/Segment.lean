/-
  Library/Segment.lean --- quadratic functions along a segment.

  The value of `a * t ^ 2 + 2 * b * t + c` for `t` between 0 and 1: where it is not negative
  at both ends, a concave one is negative nowhere, and a convex one only at its vertex.
-/
import FlsunT1.Library.Instances
import Mathlib.Algebra.Order.Field.Basic
import Mathlib.Algebra.Order.Ring.Abs
import Mathlib.Tactic.FieldSimp
import Mathlib.Tactic.Linarith
import Mathlib.Tactic.Ring

set_option autoImplicit false

namespace FlsunT1.Library

variable {K : Type*} [Field K] [LinearOrder K] [IsStrictOrderedRing K] {a b c t : K}

/-- `a * t ^ 2 + 2 * b * t + c` -/
def quadAt (a b c t : K) : K := a * t ^ 2 + 2 * b * t + c

omit [LinearOrder K] [IsStrictOrderedRing K] in
theorem quadAt_zero : quadAt a b c 0 = c := by
  unfold quadAt
  ring

omit [LinearOrder K] [IsStrictOrderedRing K] in
theorem quadAt_one : quadAt a b c 1 = a + 2 * b + c := by
  unfold quadAt
  ring

/-- A concave function is not negative between two ends where it is not. -/
theorem quadAt_nonneg_of_concave (ha : a ≤ 0) (h0 : 0 ≤ quadAt a b c 0)
    (h1 : 0 ≤ quadAt a b c 1) (ht0 : 0 ≤ t) (ht1 : t ≤ 1) : 0 ≤ quadAt a b c t := by
  have hsplit : quadAt a b c t =
      (1 - t) * quadAt a b c 0 + t * quadAt a b c 1 + -a * (t * (1 - t)) := by
    unfold quadAt
    ring
  have hleft : 0 ≤ (1 - t) * quadAt a b c 0 := mul_nonneg (by linarith) h0
  have hright : 0 ≤ t * quadAt a b c 1 := mul_nonneg ht0 h1
  have hbulge : 0 ≤ -a * (t * (1 - t)) :=
    mul_nonneg (by linarith) (mul_nonneg ht0 (by linarith))
  rw [hsplit]
  linarith

/-- The vertex lies strictly between the ends, and below zero. -/
def DipsBelow (a b c : K) : Prop := b < 0 ∧ -b < a ∧ a * c < b ^ 2

/-- A convex function is not negative between two ends where it is not, unless its vertex is. -/
theorem quadAt_nonneg_of_convex (ha : 0 ≤ a) (h0 : 0 ≤ quadAt a b c 0)
    (h1 : 0 ≤ quadAt a b c 1) (hdips : ¬ DipsBelow a b c) (ht0 : 0 ≤ t) (ht1 : t ≤ 1) :
    0 ≤ quadAt a b c t := by
  rw [quadAt_zero] at h0
  rcases le_or_gt 0 b with hb | hb
  · -- it rises from the start on
    have hsq : 0 ≤ a * t ^ 2 := mul_nonneg ha (sq_nonneg t)
    have hlin : 0 ≤ b * t := mul_nonneg hb ht0
    unfold quadAt
    linarith
  · rcases le_or_gt a (-b) with hab | hab
    · -- it falls up to the end
      have hfall : quadAt a b c t - quadAt a b c 1 = (1 - t) * -(a * (t + 1) + 2 * b) := by
        unfold quadAt
        ring
      have hat : a * (t + 1) ≤ a * 2 := mul_le_mul_of_nonneg_left (by linarith) ha
      have hpos : 0 ≤ (1 - t) * -(a * (t + 1) + 2 * b) :=
        mul_nonneg (by linarith) (by linarith)
      linarith
    · have hvertex : b ^ 2 ≤ a * c := by
        by_contra hlt
        exact hdips ⟨hb, hab, not_le.mp hlt⟩
      have hapos : 0 < a := by linarith
      have hsquare : a * quadAt a b c t = (a * t + b) ^ 2 + (a * c - b ^ 2) := by
        unfold quadAt
        ring
      have hmul : 0 ≤ a * quadAt a b c t := by
        rw [hsquare]
        exact add_nonneg (sq_nonneg _) (by linarith)
      exact nonneg_of_mul_nonneg_right hmul hapos

/-- At its vertex it is negative. -/
theorem exists_quadAt_neg (h : DipsBelow a b c) : ∃ t, 0 ≤ t ∧ t ≤ 1 ∧ quadAt a b c t < 0 := by
  obtain ⟨hb, hab, hvertex⟩ := h
  have hapos : 0 < a := by linarith
  refine ⟨-b / a, div_nonneg (by linarith) hapos.le, (div_le_one hapos).mpr hab.le, ?_⟩
  have hvalue : quadAt a b c (-b / a) = (a * c - b ^ 2) / a := by
    unfold quadAt
    field_simp
    ring
  rw [hvalue]
  exact div_neg_of_neg_of_pos (by linarith) hapos

/-- What holds right after the start holds at the start. -/
theorem quadAt_nonneg_start (h : ∀ t, 0 < t → t ≤ 1 → 0 ≤ quadAt a b c t) :
    0 ≤ quadAt a b c 0 := by
  rw [quadAt_zero]
  by_contra hneg
  rw [not_le] at hneg
  set m := |a| + 2 * |b| with hm
  have hm0 : 0 ≤ m := by positivity
  have hden : 0 < m - c := by linarith
  have htpos : 0 < -c / (m - c) := div_pos (by linarith) hden
  have htone : -c / (m - c) ≤ 1 := (div_le_one hden).mpr (by linarith)
  have hvalue := h _ htpos htone
  have hscale : -c / (m - c) * (m - c) = -c := div_mul_cancel₀ _ hden.ne'
  generalize -c / (m - c) = t at *
  have ha : a * t ^ 2 ≤ |a| * t := by
    have hsq : t ^ 2 ≤ t := by
      rw [sq]
      exact mul_le_of_le_one_left htpos.le htone
    exact (mul_le_mul_of_nonneg_right (le_abs_self a) (sq_nonneg t)).trans
      (mul_le_mul_of_nonneg_left hsq (abs_nonneg a))
  have hb : b * t ≤ |b| * t := mul_le_mul_of_nonneg_right (le_abs_self b) htpos.le
  have hc : t * c < 0 := mul_neg_of_pos_of_neg htpos hneg
  have hbound : quadAt a b c t ≤ t * m + c := by
    unfold quadAt
    rw [hm]
    linarith
  linarith

end FlsunT1.Library
