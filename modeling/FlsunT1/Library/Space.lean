/-
  Library/Space.lean --- vectors with three coordinates.

  The dot and the cross product, and the expansion of a vector in the frame that two
  orthogonal unit vectors and their cross product make.
-/
import FlsunT1.Library.Instances
import Mathlib.Algebra.Order.Field.Basic
import Mathlib.Tactic.FieldSimp
import Mathlib.Tactic.LinearCombination
import Mathlib.Tactic.Linarith
import Mathlib.Tactic.Ring

set_option autoImplicit false

namespace FlsunT1.Library

@[ext]
structure Vec3 (K : Type*) where
  x : K
  y : K
  z : K

namespace Vec3

/-! ## Operations -/

section Ring

variable {K : Type*} [CommRing K]

def add (a b : Vec3 K) : Vec3 K := ⟨a.x + b.x, a.y + b.y, a.z + b.z⟩

def sub (a b : Vec3 K) : Vec3 K := ⟨a.x - b.x, a.y - b.y, a.z - b.z⟩

/-- A multiple of a vector. -/
def mul (a : Vec3 K) (s : K) : Vec3 K := ⟨a.x * s, a.y * s, a.z * s⟩

def dot (a b : Vec3 K) : K := a.x * b.x + a.y * b.y + a.z * b.z

/-- The square of the length. -/
def magsq (a : Vec3 K) : K := a.x ^ 2 + a.y ^ 2 + a.z ^ 2

def cross (a b : Vec3 K) : Vec3 K :=
  ⟨a.y * b.z - a.z * b.y, a.z * b.x - a.x * b.z, a.x * b.y - a.y * b.x⟩

variable (a b c : Vec3 K) (s : K)

theorem dot_self : a.dot a = a.magsq := by
  unfold dot magsq
  ring

theorem dot_comm : a.dot b = b.dot a := by
  unfold dot
  ring

theorem dot_mul : a.dot (b.mul s) = a.dot b * s := by
  unfold dot mul
  ring

theorem mul_dot : (a.mul s).dot b = a.dot b * s := by
  unfold dot mul
  ring

theorem dot_sub : a.dot (b.sub c) = a.dot b - a.dot c := by
  unfold dot sub
  ring

theorem dot_add : a.dot (b.add c) = a.dot b + a.dot c := by
  unfold dot add
  ring

theorem magsq_mul : (a.mul s).magsq = a.magsq * s ^ 2 := by
  unfold magsq mul
  ring

theorem magsq_sub : (a.sub b).magsq = a.magsq - 2 * a.dot b + b.magsq := by
  unfold magsq sub dot
  ring

theorem mul_cross : (a.mul s).cross b = (a.cross b).mul s := by
  unfold cross mul
  ext
  · ring
  · ring
  · ring

theorem cross_mul : a.cross (b.mul s) = (a.cross b).mul s := by
  unfold cross mul
  ext
  · ring
  · ring
  · ring

/-- A part of the second factor along the first one does not matter. -/
theorem cross_sub_mul : a.cross (b.sub (a.mul s)) = a.cross b := by
  unfold cross sub mul
  ext
  · dsimp only
    ring
  · dsimp only
    ring
  · dsimp only
    ring

theorem add_sub_cancel : a.add (b.sub a) = b := by
  unfold add sub
  ext
  · ring
  · ring
  · ring

theorem magsq_cross : (a.cross b).magsq = a.magsq * b.magsq - a.dot b ^ 2 := by
  unfold magsq cross dot
  ring

/-! ## Frames -/

/-- Two orthogonal unit vectors. -/
structure Orthonormal (ex ey : Vec3 K) : Prop where
  unit_ex : ex.magsq = 1
  unit_ey : ey.magsq = 1
  orthogonal : ex.dot ey = 0

namespace Orthonormal

variable {ex ey : Vec3 K}

/-- A vector is the sum of its parts along the frame. -/
theorem expand (h : Orthonormal ex ey) (q : Vec3 K) :
    (ex.mul (ex.dot q)).add ((ey.mul (ey.dot q)).add
      ((ex.cross ey).mul ((ex.cross ey).dot q))) = q := by
  obtain ⟨hx, hy, horth⟩ := h
  unfold magsq at hx hy
  unfold dot at horth
  unfold add mul dot cross
  ext
  · dsimp only
    linear_combination (q.x - ey.x * (ey.x * q.x + ey.y * q.y + ey.z * q.z)) * hx +
      ((ex.x ^ 2 + ex.y ^ 2 + ex.z ^ 2) * q.x - ex.x * (ex.x * q.x + ex.y * q.y + ex.z * q.z)) *
        hy +
      (ex.x * (ey.x * q.x + ey.y * q.y + ey.z * q.z) +
        ey.x * (ex.x * q.x + ex.y * q.y + ex.z * q.z) -
        (ex.x * ey.x + ex.y * ey.y + ex.z * ey.z) * q.x) * horth
  · dsimp only
    linear_combination (q.y - ey.y * (ey.x * q.x + ey.y * q.y + ey.z * q.z)) * hx +
      ((ex.x ^ 2 + ex.y ^ 2 + ex.z ^ 2) * q.y - ex.y * (ex.x * q.x + ex.y * q.y + ex.z * q.z)) *
        hy +
      (ex.y * (ey.x * q.x + ey.y * q.y + ey.z * q.z) +
        ey.y * (ex.x * q.x + ex.y * q.y + ex.z * q.z) -
        (ex.x * ey.x + ex.y * ey.y + ex.z * ey.z) * q.y) * horth
  · dsimp only
    linear_combination (q.z - ey.z * (ey.x * q.x + ey.y * q.y + ey.z * q.z)) * hx +
      ((ex.x ^ 2 + ex.y ^ 2 + ex.z ^ 2) * q.z - ex.z * (ex.x * q.x + ex.y * q.y + ex.z * q.z)) *
        hy +
      (ex.z * (ey.x * q.x + ey.y * q.y + ey.z * q.z) +
        ey.z * (ex.x * q.x + ex.y * q.y + ex.z * q.z) -
        (ex.x * ey.x + ex.y * ey.y + ex.z * ey.z) * q.z) * horth

/-- The square of a length from the parts along the frame. -/
theorem magsq_expand (h : Orthonormal ex ey) (q : Vec3 K) :
    q.magsq = ex.dot q ^ 2 + ey.dot q ^ 2 + (ex.cross ey).dot q ^ 2 := by
  have hq := congrArg q.dot (h.expand q)
  rw [dot_add, dot_add, dot_mul, dot_mul, dot_mul, dot_self, q.dot_comm ex, q.dot_comm ey,
    q.dot_comm (ex.cross ey)] at hq
  rw [← hq]
  ring

end Orthonormal

end Ring

section Field

variable {K : Type*} [Field K] {a b ex : Vec3 K} {d e : K}

theorem mul_mul_cancel (hd : d ≠ 0) (a : Vec3 K) : (a.mul (1 / d)).mul d = a := by
  unfold mul
  ext
  · dsimp only
    field_simp
  · dsimp only
    field_simp
  · dsimp only
    field_simp

/-- A vector divided by its length. -/
theorem magsq_normalize (hd : d ≠ 0) (hdsq : d ^ 2 = a.magsq) : (a.mul (1 / d)).magsq = 1 := by
  rw [magsq_mul, ← hdsq]
  field_simp

/-- What remains of a vector without its part along a unit vector. -/
theorem dot_rest (hex : ex.magsq = 1) (b : Vec3 K) :
    ex.dot (b.sub (ex.mul (ex.dot b))) = 0 := by
  rw [dot_sub, dot_mul, dot_self, hex]
  ring

/-- The frame of a unit vector and of what another vector has beside it. -/
theorem orthonormal_rest (hex : ex.magsq = 1) (he : e ≠ 0)
    (hesq : e ^ 2 = (b.sub (ex.mul (ex.dot b))).magsq) :
    Orthonormal ex ((b.sub (ex.mul (ex.dot b))).mul (1 / e)) where
  unit_ex := hex
  unit_ey := magsq_normalize he hesq
  orthogonal := by rw [dot_mul, dot_rest hex, zero_mul]

/-- The vector lies at its part along the unit vector and at the length of the rest. -/
theorem dot_rest_self (hex : ex.magsq = 1) (he : e ≠ 0)
    (hesq : e ^ 2 = (b.sub (ex.mul (ex.dot b))).magsq) :
    ((b.sub (ex.mul (ex.dot b))).mul (1 / e)).dot b = e := by
  set v := b.sub (ex.mul (ex.dot b)) with hv
  have hself : v.dot v = v.dot b := by
    conv_lhs => rw [hv, dot_sub, ← hv, dot_mul, dot_comm v ex, dot_rest hex]
    ring
  rw [mul_dot, ← hself, dot_self, ← hesq]
  field_simp

theorem magsq_rest (hex : ex.magsq = 1) (hesq : e ^ 2 = (b.sub (ex.mul (ex.dot b))).magsq) :
    b.magsq = ex.dot b ^ 2 + e ^ 2 := by
  rw [hesq, magsq_sub, magsq_mul, hex, dot_mul, dot_comm b ex]
  ring

end Field

section Order

variable {K : Type*} [Field K] [LinearOrder K] [IsStrictOrderedRing K] {a b : Vec3 K}

theorem magsq_nonneg (a : Vec3 K) : 0 ≤ a.magsq :=
  add_nonneg (add_nonneg (sq_nonneg _) (sq_nonneg _)) (sq_nonneg _)

/-- The factors of a cross product that does not vanish do not vanish. -/
theorem magsq_pos_of_cross (h : 0 < (a.cross b).magsq) : 0 < a.magsq := by
  rw [magsq_cross] at h
  have hle : a.dot b ^ 2 < a.magsq * b.magsq := by linarith
  have hpos : 0 < a.magsq * b.magsq := (sq_nonneg _).trans_lt hle
  exact pos_of_mul_pos_left hpos b.magsq_nonneg

end Order

end Vec3

end FlsunT1.Library
