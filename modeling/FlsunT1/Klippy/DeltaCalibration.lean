/-
  Klippy/DeltaCalibration.lean --- the forward and the inverse kinematics of a delta
  (klippy/mathutil.py and klippy/kinematics/delta.py).

  Floats are real numbers.  A square root of a negative number and a division by zero raise an
  error, as in Python.
-/
import FlsunT1.Library.Space
import Mathlib.Analysis.SpecialFunctions.Trigonometric.Basic

set_option autoImplicit false

namespace FlsunT1.Klippy

open Library

/-! ## Python's arithmetic -/

inductive MathError
  /-- `ValueError` of `math.sqrt` -/
  | domain
  | zeroDivision
  deriving DecidableEq

/-- `math.sqrt` -/
noncomputable def realSqrt (a : ℝ) : Except MathError ℝ :=
  if a < 0 then .error .domain else .ok √a

/-- `a / b` -/
noncomputable def realDiv (a b : ℝ) : Except MathError ℝ :=
  if b = 0 then .error .zeroDivision else .ok (a / b)

theorem realSqrt_ok {a : ℝ} (h : 0 ≤ a) : realSqrt a = .ok √a := by
  rw [realSqrt, if_neg (not_lt.mpr h)]

theorem realDiv_ok {a b : ℝ} (h : b ≠ 0) : realDiv a b = .ok (a / b) := by
  rw [realDiv, if_neg h]

/-- `math.radians` -/
noncomputable def radians (a : ℝ) : ℝ := a * (Real.pi / 180)

/-! ## Trilateration -/

/-- A list with one entry for each of the towers a, b and c. -/
@[ext]
structure Abc (α : Type) where
  a : α
  b : α
  c : α

namespace Abc

variable {α β γ : Type}

def map (f : α → β) (l : Abc α) : Abc β := ⟨f l.a, f l.b, f l.c⟩

def zipWith (f : α → β → γ) (l : Abc α) (l' : Abc β) : Abc γ := ⟨f l.a l'.a, f l.b l'.b, f l.c l'.c⟩

/-- A list comprehension whose entries can raise an error. -/
def mapM {ε : Type} (f : α → Except ε β) (l : Abc α) : Except ε (Abc β) := do
  let a ← f l.a
  let b ← f l.b
  let c ← f l.c
  return ⟨a, b, c⟩

/-- The entries that belong to the same tower. -/
def zip (l : Abc α) (l' : Abc β) : Abc (α × β) := l.zipWith Prod.mk l'

def All (P : α → Prop) (l : Abc α) : Prop := P l.a ∧ P l.b ∧ P l.c

theorem mapM_ok {ε : Type} {P : α → Prop} {f : α → Except ε β} {g : α → β} {l : Abc α}
    (h : l.All P) (hf : ∀ x, P x → f x = .ok (g x)) : l.mapM f = .ok (l.map g) := by
  unfold mapM
  rw [hf _ h.1, hf _ h.2.1, hf _ h.2.2]
  rfl

end Abc

/-- `trilateration`, where the `matrix_` functions are the operations of `Vec3`. -/
noncomputable def trilateration (sphereCoords : Abc (Vec3 ℝ)) (radius2 : Abc ℝ) :
    Except MathError (Vec3 ℝ) := do
  let s21 := sphereCoords.b.sub sphereCoords.a
  let s31 := sphereCoords.c.sub sphereCoords.a
  let d ← realSqrt s21.magsq
  let ex := s21.mul (← realDiv 1 d)
  let i := ex.dot s31
  let vectEy := s31.sub (ex.mul i)
  let ey := vectEy.mul (← realDiv 1 (← realSqrt vectEy.magsq))
  let ez := ex.cross ey
  let j := ey.dot s31
  let x ← realDiv (radius2.a - radius2.b + d ^ 2) (2 * d)
  let y ← realDiv (radius2.a - radius2.c - x ^ 2 + (x - i) ^ 2 + j ^ 2) (2 * j)
  let root ← realSqrt (radius2.a - x ^ 2 - y ^ 2)
  let z := -root
  return sphereCoords.a.add ((ex.mul x).add ((ey.mul y).add (ez.mul z)))

/-! ## The calibration -/

/-- What a `DeltaCalibration` is made of. -/
structure DeltaParams where
  radius : ℝ
  angles : Abc ℝ
  arms : Abc ℝ
  endstops : Abc ℝ
  stepdists : Abc ℝ

/-- `class DeltaCalibration` -/
structure DeltaCalibration extends DeltaParams where
  towers : Abc (ℝ × ℝ)
  absEndstops : Abc ℝ

/-- The XY coordinates of a tower. -/
noncomputable def towerAt (radius angle : ℝ) : ℝ × ℝ :=
  (Real.cos (radians angle) * radius, Real.sin (radians angle) * radius)

namespace DeltaCalibration

/-- `DeltaCalibration.__init__` -/
noncomputable def init (p : DeltaParams) : Except MathError DeltaCalibration := do
  let roots ← p.arms.mapM fun arm => realSqrt (arm ^ 2 - p.radius ^ 2)
  return {
    p with
    towers := p.angles.map (towerAt p.radius)
    absEndstops := p.endstops.zipWith (· + ·) roots }

/-- The height of a carriage above a position. -/
noncomputable def steppos (coord : Vec3 ℝ) (t : (ℝ × ℝ) × ℝ) : Except MathError ℝ := do
  let root ← realSqrt (t.2 ^ 2 - (t.1.1 - coord.x) ^ 2 - (t.1.2 - coord.y) ^ 2)
  return root + coord.z

/-- `calc_stable_position` -/
noncomputable def calcStablePosition (cal : DeltaCalibration) (coord : Vec3 ℝ) :
    Except MathError (Abc ℝ) := do
  let steppos ← (cal.towers.zip cal.arms).mapM (steppos coord)
  (cal.stepdists.zip (cal.absEndstops.zip steppos)).mapM fun (sd, ep, sp) => realDiv (ep - sp) sd

/-- `get_position_from_stable` -/
noncomputable def getPositionFromStable (cal : DeltaCalibration) (stablePosition : Abc ℝ) :
    Except MathError (Vec3 ℝ) :=
  let sphereCoords := (cal.stepdists.zip (cal.towers.zip (cal.absEndstops.zip stablePosition))).map
    fun (sd, t, es, sp) => (⟨t.1, t.2, es - sp * sd⟩ : Vec3 ℝ)
  trilateration sphereCoords (cal.arms.map (· ^ 2))

/-- `_actuator_to_cartesian` of the kinematics that were configured alike -/
noncomputable def actuatorToCartesian (cal : DeltaCalibration) (spos : Abc ℝ) :
    Except MathError (Vec3 ℝ) :=
  trilateration ((cal.towers.zip spos).map fun (t, sp) => ⟨t.1, t.2, sp⟩) (cal.arms.map (· ^ 2))

end DeltaCalibration

/-! ## Trilateration finds the point below the plane -/

section Trilateration

variable {ex ey s31 q : Vec3 ℝ} {d e : ℝ}

/-- The coordinates of `q` in the frame, from its distances to the origin, to a centre on the first
axis and to a centre in the plane of the axes. -/
theorem coordinates_eq (hframe : Vec3.Orthonormal ex ey) (hd : d ≠ 0) (he : e ≠ 0)
    (hj : ey.dot s31 = e) (hs31 : s31.magsq = ex.dot s31 ^ 2 + e ^ 2)
    (hplane : (ex.cross ey).dot s31 = 0) :
    (q.magsq - (q.sub (ex.mul d)).magsq + d ^ 2) / (2 * d) = ex.dot q ∧
      (q.magsq - (q.sub s31).magsq - ex.dot q ^ 2 + (ex.dot q - ex.dot s31) ^ 2 + e ^ 2) /
        (2 * e) = ey.dot q := by
  constructor
  · rw [div_eq_iff (mul_ne_zero two_ne_zero hd), Vec3.magsq_sub, Vec3.magsq_mul, hframe.unit_ex,
      Vec3.dot_mul, q.dot_comm ex]
    ring
  · have hdot : q.dot s31 = ex.dot q * ex.dot s31 + ey.dot q * e := by
      have hexpand := congrArg q.dot (hframe.expand s31)
      rw [Vec3.dot_add, Vec3.dot_add, Vec3.dot_mul, Vec3.dot_mul, Vec3.dot_mul, hj, hplane,
        q.dot_comm ex, q.dot_comm ey] at hexpand
      rw [← hexpand]
      ring
    rw [div_eq_iff (mul_ne_zero two_ne_zero he), Vec3.magsq_sub, hdot, hs31]
    ring

variable {s1 s2 s3 p : Vec3 ℝ}

theorem sub_sub_sub (p s1 s2 : Vec3 ℝ) : (p.sub s1).sub (s2.sub s1) = p.sub s2 := by
  unfold Vec3.sub
  ext
  · dsimp only
    ring
  · dsimp only
    ring
  · dsimp only
    ring

/-- **Trilateration.**  Three spheres through a point `p` meet there, when `p` is not above the
plane of their centres, where the order of the centres tells what is above. -/
theorem trilateration_eq (hnormal : 0 < ((s2.sub s1).cross (s3.sub s1)).magsq)
    (hside : ((s2.sub s1).cross (s3.sub s1)).dot (p.sub s1) ≤ 0) :
    trilateration ⟨s1, s2, s3⟩ ⟨(p.sub s1).magsq, (p.sub s2).magsq, (p.sub s3).magsq⟩ = .ok p := by
  rw [← sub_sub_sub p s1 s2, ← sub_sub_sub p s1 s3]
  unfold trilateration
  dsimp only
  set s21 := s2.sub s1
  set s31 := s3.sub s1
  set q := p.sub s1 with hq
  -- the first axis
  have hd2 : 0 < s21.magsq := Vec3.magsq_pos_of_cross hnormal
  set d := √s21.magsq with hd
  have hdpos : 0 < d := Real.sqrt_pos.mpr hd2
  have hdsq : d ^ 2 = s21.magsq := Real.sq_sqrt hd2.le
  set ex := s21.mul (1 / d) with hex
  have hunit : ex.magsq = 1 := Vec3.magsq_normalize hdpos.ne' hdsq
  have hs21 : s21 = ex.mul d := (Vec3.mul_mul_cancel hdpos.ne' s21).symm
  -- the second axis
  set v := s31.sub (ex.mul (ex.dot s31)) with hv
  have hcross : s21.cross s31 = (ex.cross v).mul d := by
    rw [hv, Vec3.cross_sub_mul, ← Vec3.mul_cross, ← hs21]
  have hv2 : 0 < v.magsq := by
    have hpos : 0 < (ex.cross v).magsq := by
      rw [hcross, Vec3.magsq_mul] at hnormal
      exact pos_of_mul_pos_left hnormal (sq_nonneg d)
    rw [Vec3.magsq_cross, hunit, Vec3.dot_rest hunit] at hpos
    linarith
  set e := √v.magsq with he
  have hepos : 0 < e := Real.sqrt_pos.mpr hv2
  have hesq : e ^ 2 = v.magsq := Real.sq_sqrt hv2.le
  set ey := v.mul (1 / e) with hey
  have hframe : Vec3.Orthonormal ex ey := Vec3.orthonormal_rest hunit hepos.ne' hesq
  have hj : ey.dot s31 = e := Vec3.dot_rest_self hunit hepos.ne' hesq
  -- the third axis
  have hplane : (ex.cross ey).dot s31 = 0 := by
    rw [hey, hv, Vec3.cross_mul, Vec3.cross_sub_mul]
    unfold Vec3.dot Vec3.mul Vec3.cross
    ring
  have hbelow : (ex.cross ey).dot q ≤ 0 := by
    have hdot : (s21.cross s31).dot q = (ex.cross ey).dot q * (e * d) := by
      rw [hcross, hey, Vec3.cross_mul, Vec3.mul_dot, Vec3.mul_dot]
      field_simp
    rw [hdot] at hside
    exact nonpos_of_mul_nonpos_left hside (mul_pos hepos hdpos)
  obtain ⟨hx, hy⟩ := coordinates_eq (q := q) hframe hdpos.ne' hepos.ne' hj
    (Vec3.magsq_rest hunit hesq) hplane
  have hz : q.magsq - ex.dot q ^ 2 - ey.dot q ^ 2 = (ex.cross ey).dot q ^ 2 := by
    rw [hframe.magsq_expand q]
    ring
  have hroot : √((ex.cross ey).dot q ^ 2) = -(ex.cross ey).dot q := by
    rw [Real.sqrt_sq_eq_abs, abs_of_nonpos hbelow]
  have hok : ∀ {α β : Type} (a : α) (f : α → Except MathError β), (Except.ok a >>= f) = f a :=
    fun _ _ => rfl
  rw [realSqrt_ok hd2.le, hok, ← hd, realDiv_ok hdpos.ne', hok, ← hex, ← hv,
    realSqrt_ok hv2.le, hok, ← he, realDiv_ok hepos.ne', hok, ← hey, hs21,
    realDiv_ok (mul_ne_zero two_ne_zero hdpos.ne'), hok, hx, hj,
    realDiv_ok (mul_ne_zero two_ne_zero hepos.ne'), hok, hy, hz, realSqrt_ok (sq_nonneg _), hok,
    hroot, neg_neg, hframe.expand q, hq, Vec3.add_sub_cancel]
  rfl

end Trilateration

/-! ## The towers stand counter-clockwise -/

/-- The angles, up to full turns, are in counter-clockwise order. -/
def CounterClockwise (angles : Abc ℝ) : Prop :=
  ∃ k l : ℤ, angles.a < angles.b + 360 * k ∧ angles.b + 360 * k < angles.c + 360 * l ∧
    angles.c + 360 * l < angles.a + 360

/-- A configuration as `DeltaKinematics.__init__` accepts it, with its towers in order. -/
structure DeltaParams.Accepted (p : DeltaParams) : Prop where
  radius_pos : 0 < p.radius
  arms : p.arms.All (p.radius < ·)
  stepdists : p.stepdists.All (· ≠ 0)
  counterClockwise : CounterClockwise p.angles

/-- Twice the area of the triangle of three points, positive if they are counter-clockwise. -/
def turn (a b c : ℝ × ℝ) : ℝ := (b.1 - a.1) * (c.2 - a.2) - (b.2 - a.2) * (c.1 - a.1)

theorem towerAt_turns (radius angle : ℝ) (k : ℤ) :
    towerAt radius (angle + 360 * k) = towerAt radius angle := by
  have hradians : radians (angle + 360 * k) = radians angle + k * (2 * Real.pi) := by
    unfold radians
    ring
  rw [towerAt, hradians, Real.cos_add_int_mul_two_pi, Real.sin_add_int_mul_two_pi, towerAt]

theorem sin_half_radians_pos {a b : ℝ} (hlt : a < b) (hturn : b < a + 360) :
    0 < Real.sin ((radians b - radians a) / 2) := by
  have hpi := Real.pi_pos
  have hhalf : (radians b - radians a) / 2 = (b - a) / 360 * Real.pi := by
    unfold radians
    ring
  rw [hhalf]
  have hfrac : 0 < (b - a) / 360 := by linarith
  have hone : (b - a) / 360 < 1 := by linarith
  exact Real.sin_pos_of_pos_of_lt_pi (mul_pos hfrac hpi) (by nlinarith)

theorem turn_towerAt (radius a b c : ℝ) :
    turn (towerAt radius a) (towerAt radius b) (towerAt radius c) =
      4 * radius ^ 2 * (Real.sin ((radians b - radians a) / 2) *
        Real.sin ((radians c - radians b) / 2) * Real.sin ((radians c - radians a) / 2)) := by
  unfold turn towerAt
  generalize radians a = α, radians b = β, radians c = γ
  have hmiddle : (γ - β) / 2 = (γ + α) / 2 - (β + α) / 2 := by ring
  rw [← sub_mul, ← sub_mul, ← sub_mul, ← sub_mul, Real.cos_sub_cos, Real.sin_sub_sin,
    Real.sin_sub_sin, Real.cos_sub_cos, hmiddle, Real.sin_sub]
  ring

theorem turn_pos {p : DeltaParams} (h : p.Accepted) :
    0 < turn (towerAt p.radius p.angles.a) (towerAt p.radius p.angles.b)
      (towerAt p.radius p.angles.c) := by
  obtain ⟨k, l, hab, hbc, hca⟩ := h.counterClockwise
  rw [← towerAt_turns p.radius p.angles.b k, ← towerAt_turns p.radius p.angles.c l, turn_towerAt]
  have hu := sin_half_radians_pos hab (hbc.trans hca)
  have hv := sin_half_radians_pos hbc (by linarith)
  have hw := sin_half_radians_pos (hab.trans hbc) hca
  exact mul_pos (mul_pos four_pos (pow_pos h.radius_pos 2)) (mul_pos (mul_pos hu hv) hw)

/-! ## Forward and inverse kinematics -/

/-- The point lies below the plane through three carriages. -/
def BelowPlane (carriages : Abc (Vec3 ℝ)) (p : Vec3 ℝ) : Prop :=
  ∃ α β γ : ℝ, carriages.a.z = α * carriages.a.x + β * carriages.a.y + γ ∧
    carriages.b.z = α * carriages.b.x + β * carriages.b.y + γ ∧
    carriages.c.z = α * carriages.c.x + β * carriages.c.y + γ ∧
    p.z < α * p.x + β * p.y + γ

theorem below_of_plane {s1 s2 s3 p : Vec3 ℝ} (h : BelowPlane ⟨s1, s2, s3⟩ p)
    (hturn : 0 < turn (s1.x, s1.y) (s2.x, s2.y) (s3.x, s3.y)) :
    0 < ((s2.sub s1).cross (s3.sub s1)).magsq ∧
      ((s2.sub s1).cross (s3.sub s1)).dot (p.sub s1) ≤ 0 := by
  obtain ⟨α, β, γ, h1, h2, h3, hp⟩ := h
  set c := turn (s1.x, s1.y) (s2.x, s2.y) (s3.x, s3.y) with hc
  have hz : ((s2.sub s1).cross (s3.sub s1)).z = c := rfl
  constructor
  · refine lt_of_lt_of_le (pow_pos hturn 2) ?_
    rw [← hz]
    exact le_add_of_nonneg_left (add_nonneg (sq_nonneg _) (sq_nonneg _))
  · have hdot : ((s2.sub s1).cross (s3.sub s1)).dot (p.sub s1) =
        c * (p.z - (α * p.x + β * p.y + γ)) := by
      dsimp only at h1 h2 h3
      rw [hc]
      unfold Vec3.dot Vec3.cross Vec3.sub turn
      dsimp only
      rw [h1, h2, h3]
      ring
    rw [hdot]
    exact (mul_neg_of_pos_of_neg hturn (sub_neg.mpr hp)).le

namespace DeltaCalibration

variable {cal : DeltaCalibration} {coord : Vec3 ℝ}

/-- The carriage of a tower when the effector is at a position. -/
noncomputable def carriage (coord : Vec3 ℝ) (t : (ℝ × ℝ) × ℝ) : Vec3 ℝ :=
  ⟨t.1.1, t.1.2, √(t.2 ^ 2 - (t.1.1 - coord.x) ^ 2 - (t.1.2 - coord.y) ^ 2) + coord.z⟩

/-- The carriages of the three towers. -/
noncomputable def carriages (cal : DeltaCalibration) (coord : Vec3 ℝ) : Abc (Vec3 ℝ) :=
  (cal.towers.zip cal.arms).map (carriage coord)

/-- An arm reaches a position. -/
def Reaches (coord : Vec3 ℝ) (t : (ℝ × ℝ) × ℝ) : Prop :=
  0 ≤ t.2 ^ 2 - (t.1.1 - coord.x) ^ 2 - (t.1.2 - coord.y) ^ 2

/-- All three arms reach a position. -/
def InReach (cal : DeltaCalibration) (coord : Vec3 ℝ) : Prop :=
  (cal.towers.zip cal.arms).All (Reaches coord)

theorem steppos_eq {t : (ℝ × ℝ) × ℝ} (h : Reaches coord t) :
    steppos coord t = .ok (carriage coord t).z := by
  rw [steppos, realSqrt_ok h]
  rfl

theorem magsq_carriage {t : (ℝ × ℝ) × ℝ} (h : Reaches coord t) :
    (coord.sub (carriage coord t)).magsq = t.2 ^ 2 := by
  have hroot := Real.sq_sqrt h
  unfold Vec3.magsq Vec3.sub carriage
  dsimp only
  linear_combination hroot

theorem trilateration_carriages (hreach : cal.InReach coord)
    (hturn : 0 < turn cal.towers.a cal.towers.b cal.towers.c)
    (hbelow : BelowPlane (cal.carriages coord) coord) :
    trilateration (cal.carriages coord) (cal.arms.map (· ^ 2)) = .ok coord := by
  obtain ⟨ha, hb, hc⟩ := hreach
  obtain ⟨hnormal, hside⟩ := below_of_plane hbelow hturn
  have heq := trilateration_eq hnormal hside
  rw [magsq_carriage ha, magsq_carriage hb, magsq_carriage hc] at heq
  exact heq

/-- The calibration of an accepted machine. -/
noncomputable def calibrated (p : DeltaParams) : DeltaCalibration :=
  { p with
    towers := p.angles.map (towerAt p.radius)
    absEndstops := p.endstops.zipWith (· + ·) (p.arms.map fun arm => √(arm ^ 2 - p.radius ^ 2)) }

theorem init_eq {p : DeltaParams} (h : p.Accepted) : init p = .ok (calibrated p) := by
  have hroot : ∀ arm, p.radius < arm →
      realSqrt (arm ^ 2 - p.radius ^ 2) = .ok √(arm ^ 2 - p.radius ^ 2) := by
    intro arm harm
    have hradius := h.radius_pos
    exact realSqrt_ok (by nlinarith)
  unfold init
  rw [Abc.mapM_ok h.arms hroot]
  rfl

theorem steps_back {sd ep sp : ℝ} (h : sd ≠ 0) : ep - (ep - sp) / sd * sd = sp := by
  rw [div_mul_cancel₀ _ h, sub_sub_cancel]

/-- **Forward and inverse kinematics.**  For an accepted configuration, and every position in reach
of the arms and below the carriages, the stable position leads back to it, and so do the heights
of the carriages. -/
theorem kinematics_agree {p : DeltaParams} (h : p.Accepted) {coord : Vec3 ℝ}
    (hreach : (calibrated p).InReach coord)
    (hbelow : BelowPlane ((calibrated p).carriages coord) coord) :
    ∃ cal, init p = .ok cal ∧
      (∃ stable, cal.calcStablePosition coord = .ok stable ∧
        cal.getPositionFromStable stable = .ok coord) ∧
      ∃ spos, (cal.towers.zip cal.arms).mapM (steppos coord) = .ok spos ∧
        cal.actuatorToCartesian spos = .ok coord := by
  refine ⟨calibrated p, init_eq h, ?_⟩
  set cal := calibrated p with hcal
  have hspos : (cal.towers.zip cal.arms).mapM (steppos coord) =
      .ok ((cal.towers.zip cal.arms).map fun t => (carriage coord t).z) :=
    Abc.mapM_ok hreach fun _ => steppos_eq
  have htrilateration := trilateration_carriages hreach (turn_pos h) hbelow
  have hsd : cal.stepdists.All (· ≠ 0) := h.stepdists
  refine ⟨?_, _, hspos, htrilateration⟩
  have hstable : cal.calcStablePosition coord =
      .ok ((cal.stepdists.zip (cal.absEndstops.zip ((cal.towers.zip cal.arms).map fun t =>
        (carriage coord t).z))).map fun (sd, ep, sp) => (ep - sp) / sd) := by
    unfold calcStablePosition
    rw [hspos]
    have hall : (cal.stepdists.zip (cal.absEndstops.zip ((cal.towers.zip cal.arms).map fun t =>
        (carriage coord t).z))).All fun t => t.1 ≠ 0 := hsd
    exact Abc.mapM_ok (f := fun t : ℝ × ℝ × ℝ => realDiv (t.2.1 - t.2.2) t.1) hall
      fun _ => realDiv_ok
  refine ⟨_, hstable, ?_⟩
  unfold getPositionFromStable
  rw [← htrilateration]
  unfold carriages Abc.map Abc.zip Abc.zipWith
  dsimp only
  rw [steps_back hsd.1, steps_back hsd.2.1, steps_back hsd.2.2]
  rfl

/-- A delta with arms of length 5 on a radius of 3, at the centre of its bed. -/
theorem kinematics_agree_centre :
    ∃ cal, init ⟨3, ⟨210, 330, 90⟩, ⟨5, 5, 5⟩, ⟨0, 0, 0⟩, ⟨1, 1, 1⟩⟩ = .ok cal ∧
      (∃ stable, cal.calcStablePosition ⟨0, 0, 0⟩ = .ok stable ∧
        cal.getPositionFromStable stable = .ok ⟨0, 0, 0⟩) ∧
      ∃ spos, (cal.towers.zip cal.arms).mapM (steppos ⟨0, 0, 0⟩) = .ok spos ∧
        cal.actuatorToCartesian spos = .ok ⟨0, 0, 0⟩ := by
  have harm : ∀ angle : ℝ, (5 : ℝ) ^ 2 - ((towerAt 3 angle).1 - 0) ^ 2 -
      ((towerAt 3 angle).2 - 0) ^ 2 = 16 := by
    intro angle
    unfold towerAt
    dsimp only
    linear_combination -9 * Real.sin_sq_add_cos_sq (radians angle)
  have hreaches : ∀ angle, Reaches ⟨0, 0, 0⟩ (towerAt 3 angle, 5) := by
    intro angle
    unfold Reaches
    rw [harm]
    norm_num
  have hheight : ∀ angle, (carriage ⟨0, 0, 0⟩ (towerAt 3 angle, 5)).z = √16 := by
    intro angle
    unfold carriage
    dsimp only
    rw [harm, add_zero]
  refine kinematics_agree ⟨?_, ⟨?_, ?_, ?_⟩, ⟨?_, ?_, ?_⟩, 0, 1, ?_⟩
    ⟨hreaches _, hreaches _, hreaches _⟩ ⟨0, 0, √16, ?_, ?_, ?_, ?_⟩
  · norm_num
  · norm_num
  · norm_num
  · norm_num
  · norm_num
  · norm_num
  · norm_num
  · norm_num
  · exact (hheight 210).trans (by ring)
  · exact (hheight 330).trans (by ring)
  · exact (hheight 90).trans (by ring)
  · have hpos : 0 < √(16 : ℝ) := Real.sqrt_pos.mpr (by norm_num)
    dsimp only
    linarith

end DeltaCalibration

end FlsunT1.Klippy
