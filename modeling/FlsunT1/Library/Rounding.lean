/-
  Library/Rounding.lean --- from numbers to integers.

  The integer part towards zero, and the nearest integer with ties to the even one.
-/
import Mathlib.Algebra.Order.Floor.Ring
import Mathlib.Algebra.Order.Field.Basic
import Mathlib.Tactic.NormNum
import FlsunT1.Library.Instances

set_option autoImplicit false

namespace FlsunT1.Library

variable {K : Type*} [Field K] [LinearOrder K] [FloorRing K]

/-- The integer part, towards zero. -/
def truncate (v : K) : ℤ := if 0 ≤ v then ⌊v⌋ else ⌈v⌉

/-- The nearest integer, the even one of two. -/
def roundHalfEven (v : K) : ℤ :=
  if Int.fract v < 1 / 2 ∨ Int.fract v = 1 / 2 ∧ ⌊v⌋ % 2 = 0 then ⌊v⌋ else ⌊v⌋ + 1

/-- Rounding goes to a neighbour: it does not pass an integer. -/
theorem le_roundHalfEven {n : ℤ} {v : K} (h : (n : K) ≤ v) : n ≤ roundHalfEven v := by
  have hfloor := Int.le_floor.mpr h
  rw [roundHalfEven]
  split
  · exact hfloor
  · exact hfloor.trans (Int.le_add_one le_rfl)

variable [IsStrictOrderedRing K]

theorem truncate_intCast (n : ℤ) : truncate (n : K) = n := by
  rw [truncate]
  split
  · exact Int.floor_intCast n
  · exact Int.ceil_intCast n

theorem truncate_eq_self_iff {v : K} : (truncate v : K) = v ↔ ∃ n : ℤ, v = n := by
  constructor
  · exact fun h => ⟨truncate v, h.symm⟩
  · rintro ⟨n, rfl⟩
    rw [truncate_intCast]

theorem roundHalfEven_le {n : ℤ} {v : K} (h : v ≤ n) : roundHalfEven v ≤ n := by
  rw [roundHalfEven]
  split
  · exact Int.floor_le_iff.mpr (h.trans_lt (lt_add_one _))
  · rename_i hround
    have hfract : Int.fract v ≠ 0 := fun h0 => hround (Or.inl (by rw [h0]; norm_num))
    have hlt : (⌊v⌋ : K) < v := lt_of_le_of_ne (Int.floor_le v) fun heq =>
      hfract (by rw [Int.fract, heq, sub_self])
    exact Int.add_one_le_iff.mpr (by exact_mod_cast hlt.trans_le h)

end FlsunT1.Library
