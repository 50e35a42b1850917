/-
  Klippy/DeltaCalibrate.lean --- the distance measurements of the extended delta calibration
  (klippy/extras/delta_calibrate.py).

  An iterator is the list of the items it has still to give.  The parameters of a calibration,
  a dictionary in the source, are the record `DeltaParams`.
-/
import Mathlib
import FlsunT1.Klippy.DeltaCalibration
import FlsunT1.Klippy.DeltaKinematics
import FlsunT1.Library.Ensures

set_option autoImplicit false

namespace FlsunT1.Klippy

open Library

/-! ## The calibration object -/

/-- `MeasureAngles` -/
noncomputable def measureAngles : List ℝ := [210, 270, 330, 30, 90, 150]

/-- `MeasureOuterRadius` -/
noncomputable def measureOuterRadius : ℝ := 65

/-- `MeasureRidgeRadius` -/
noncomputable def measureRidgeRadius : ℝ := 5 - 1 / 2

/-- The parameters of `DELTA_ANALYZE`, whose numbers of values it checks. -/
structure DeltaMeasurements where
  scale : ℝ
  centerDists : Fin 6 → ℝ
  centerPillarWidths : Fin 3 → ℝ
  outerDists : Fin 6 → ℝ
  outerPillarWidths : Fin 6 → ℝ

/-- An entry of the distances: `(actual_distance, stable_position1, stable_position2)` -/
abbrev StableDistance := ℝ × Abc ℝ × Abc ℝ

/-- `list(zip(map(f, it), map(g, it)))` for one iterator: each of the two maps takes the item that
comes next. -/
def zipShared {α β γ : Type} (f : α → β) (g : α → γ) : List α → List (β × γ)
  | a :: a' :: it => (f a, g a') :: zipShared f g it
  | _ => []

/-- The point `(ax * r + x, ay * r + y, 0.)` -/
def ridgePoint (r : ℝ) (direction center : ℝ × ℝ) : Vec3 ℝ :=
  ⟨direction.1 * r + center.1, direction.2 * r + center.2, 0⟩

namespace DeltaMeasurements

variable (mp : DeltaMeasurements)

/-- `center_widths` -/
def centerWidths : List ℝ :=
  let cpw := mp.centerPillarWidths
  [cpw 0, cpw 2, cpw 1, cpw 0, cpw 2, cpw 1]

/-- `center_dists` -/
def centerDistances : List ℝ := List.zipWith (· - ·) (List.ofFn mp.centerDists) mp.centerWidths

/-- `outer_dists` -/
def outerDistances : List ℝ :=
  List.zipWith (· - ·) (List.ofFn mp.outerDists) (List.ofFn mp.outerPillarWidths)

/-- `inner_ridge` -/
noncomputable def innerRidge : ℝ := measureRidgeRadius * mp.scale

/-- `outer_ridge` -/
noncomputable def outerRidge : ℝ := (measureOuterRadius + measureRidgeRadius) * mp.scale

end DeltaMeasurements

/-- A distance with the stable positions of its two points. -/
noncomputable def stableDistance (dp : DeltaCalibration) (e : ℝ × Vec3 ℝ × Vec3 ℝ) :
    Except MathError StableDistance := do
  let p1 ← dp.calcStablePosition e.2.1
  let p2 ← dp.calcStablePosition e.2.2
  return (e.1, p1, p2)

/-- `measurements_to_distances` -/
noncomputable def measurementsToDistances (mp : DeltaMeasurements) (dp : DeltaCalibration) :
    Except MathError (List StableDistance) := do
  let objAngles := measureAngles.map radians
  let xyAngles := zipShared Real.cos Real.sin objAngles
  let innerPos := xyAngles.map fun a => ridgePoint mp.innerRidge a (0, 0)
  let outerPos := xyAngles.map fun a => ridgePoint mp.outerRidge a (0, 0)
  let centerPositions ←
    (mp.centerDistances.zip (innerPos.zip outerPos)).mapM (stableDistance dp)
  let outerCenter := measureOuterRadius * mp.scale
  let startPos := xyAngles.map fun a => (a.1 * outerCenter, a.2 * outerCenter)
  let shiftedAngles := xyAngles.drop 2 ++ xyAngles.take 2
  let firstPos := List.zipWith (ridgePoint mp.innerRidge) shiftedAngles startPos
  let secondPos := List.zipWith (ridgePoint mp.outerRidge) shiftedAngles startPos
  let outerPositions ←
    (mp.outerDistances.zip (firstPos.zip secondPos)).mapM (stableDistance dp)
  return centerPositions ++ outerPositions

/-! ## The error function -/

/-- The error of a height, added to the sum. -/
noncomputable def addHeightError (dp : DeltaCalibration) (total : ℝ) (e : ℝ × Abc ℝ) :
    Except MathError ℝ := do
  let p ← dp.getPositionFromStable e.2
  return total + (p.z - e.1) ^ 2

/-- The error of a distance, added to the sum. -/
noncomputable def addDistanceError (dp : DeltaCalibration) (total : ℝ) (e : StableDistance) :
    Except MathError ℝ := do
  let p1 ← dp.getPositionFromStable e.2.1
  let p2 ← dp.getPositionFromStable e.2.2
  let d ← realSqrt ((p1.x - p2.x) ^ 2 + (p1.y - p2.y) ^ 2 + (p1.z - p2.z) ^ 2)
  return total + (d - e.1) ^ 2

/-- The body of the `try` of `delta_errorfunc` -/
noncomputable def tryErrorfunc (heights : List (ℝ × Abc ℝ)) (distances : List StableDistance)
    (zWeight : ℝ) (params : DeltaParams) : Except MathError ℝ := do
  let dp ← DeltaCalibration.init params
  let total ← heights.foldlM (addHeightError dp) 0
  distances.foldlM (addDistanceError dp) (total * zWeight)

/-- `delta_errorfunc` of `calculate_params` -/
noncomputable def deltaErrorfunc (heights : List (ℝ × Abc ℝ)) (distances : List StableDistance)
    (zWeight : ℝ) (params : DeltaParams) : Except MathError ℝ :=
  match tryErrorfunc heights distances zWeight params with
  | .error .domain => .ok (9999999999999 + 9 / 10)
  | r => r

/-! ## The fixed point -/

/-- The distance of two points in the plane. -/
noncomputable def planeDistance (p q : Vec3 ℝ) : ℝ := √((p.x - q.x) ^ 2 + (p.y - q.y) ^ 2)

/-- The direction of the pillar `i`, where the angles are counted around. -/
noncomputable def pillarDirection (i : Fin 6) : ℝ × ℝ :=
  let angle := radians (![210, 270, 330, 30, 90, 150] i)
  (Real.cos angle, Real.sin angle)

/-- Each distance is the width of its pillar and the true distance of its two ridge points. -/
structure DeltaMeasurements.Consistent (mp : DeltaMeasurements) : Prop where
  scale_pos : 0 < mp.scale
  center : ∀ i : Fin 6, mp.centerDists i = mp.centerPillarWidths (![0, 2, 1, 0, 2, 1] i) +
    planeDistance (ridgePoint mp.innerRidge (pillarDirection i) (0, 0))
      (ridgePoint mp.outerRidge (pillarDirection i) (0, 0))
  outer : ∀ i : Fin 6, mp.outerDists i = mp.outerPillarWidths i +
    let pillar := ridgePoint (measureOuterRadius * mp.scale) (pillarDirection i) (0, 0)
    planeDistance (ridgePoint mp.innerRidge (pillarDirection (i + 2)) (pillar.x, pillar.y))
      (ridgePoint mp.outerRidge (pillarDirection (i + 2)) (pillar.x, pillar.y))

/-- The measurements are turned into one entry each, and with them and with the heights of the
current positions the error of the current parameters is zero. -/
def DeltaMeasurements.FixedPoint (mp : DeltaMeasurements) (params : DeltaParams) : Prop :=
  ∃ dp distances, DeltaCalibration.init params = .ok dp ∧
    measurementsToDistances mp dp = .ok distances ∧
    distances.map Prod.fst = mp.centerDistances ++ mp.outerDistances ∧
    ∀ (positions : List (Abc ℝ × Vec3 ℝ)) (zWeight : ℝ),
      (∀ e ∈ positions, dp.getPositionFromStable e.1 = .ok e.2) →
      deltaErrorfunc (positions.map fun e => (e.2.z, e.1)) distances zWeight params = .ok 0

/-! ## Half of the measurements is lost -/

theorem length_zipShared {α β γ : Type} (f : α → β) (g : α → γ) (it : List α) :
    (zipShared f g it).length = it.length / 2 := by
  induction it using zipShared.induct with
  | case1 a a' it ih =>
    rw [zipShared, List.length_cons, ih, List.length_cons, List.length_cons]
    omega
  | case2 it hit =>
    cases it with
    | nil => simp [zipShared]
    | cons a it =>
      cases it with
      | nil => simp [zipShared]
      | cons a' it => exact absurd rfl (hit a a' it)

theorem length_of_mapM {α β ε : Type} {f : α → Except ε β} {l : List α} {l' : List β}
    (h : l.mapM f = .ok l') : l'.length = l.length := by
  induction l generalizing l' with
  | nil =>
    rw [List.mapM_nil] at h
    cases h
    rfl
  | cons a l ih =>
    rw [List.mapM_cons] at h
    cases ha : f a with
    | error e =>
      rw [ha] at h
      cases h
    | ok b =>
      rw [ha] at h
      cases hl : l.mapM f with
      | error e =>
        rw [hl] at h
        cases h
      | ok rest =>
        rw [hl] at h
        cases h
        rw [List.length_cons, List.length_cons, ih hl]

theorem length_measurementsToDistances {mp : DeltaMeasurements} {dp : DeltaCalibration}
    {distances : List StableDistance} (h : measurementsToDistances mp dp = .ok distances) :
    distances.length = 6 := by
  unfold measurementsToDistances at h
  dsimp only at h
  set xyAngles := zipShared Real.cos Real.sin (measureAngles.map radians) with hxy
  have hlength : xyAngles.length = 3 := by
    rw [hxy, length_zipShared, List.length_map]
    rfl
  obtain ⟨center, hcenter, h⟩ := bind_eq_ok.mp h
  obtain ⟨outer, houter, h⟩ := bind_eq_ok.mp h
  cases h
  rw [List.length_append, length_of_mapM hcenter, length_of_mapM houter]
  simp [DeltaMeasurements.centerDistances, DeltaMeasurements.outerDistances,
    DeltaMeasurements.centerWidths, hlength]

/-- **The consumed iterator.**  No measurements at all are a fixed point of the calibration: half of
them is lost. -/
theorem fixedPoint_never (mp : DeltaMeasurements) (params : DeltaParams) :
    ¬mp.FixedPoint params := by
  rintro ⟨dp, distances, -, hdistances, hentries, -⟩
  have hlength := congrArg List.length hentries
  rw [List.length_map, length_measurementsToDistances hdistances] at hlength
  simp [DeltaMeasurements.centerDistances, DeltaMeasurements.outerDistances,
    DeltaMeasurements.centerWidths] at hlength

/-! ## A calibration object printed to measure -/

theorem planeDistance_ridgePoint {r r' : ℝ} (hle : r ≤ r') (angle : ℝ) (center : ℝ × ℝ) :
    planeDistance (ridgePoint r (Real.cos angle, Real.sin angle) center)
      (ridgePoint r' (Real.cos angle, Real.sin angle) center) = r' - r := by
  unfold planeDistance ridgePoint
  dsimp only
  have hsq : (Real.cos angle * r + center.1 - (Real.cos angle * r' + center.1)) ^ 2 +
      (Real.sin angle * r + center.2 - (Real.sin angle * r' + center.2)) ^ 2 = (r' - r) ^ 2 := by
    linear_combination (r - r') ^ 2 * Real.sin_sq_add_cos_sq angle
  rw [hsq, Real.sqrt_sq (sub_nonneg.mpr hle)]

/-- An exact object with pillars of 9 mm. -/
noncomputable def exactObject : DeltaMeasurements where
  scale := 1
  centerDists _ := 74
  centerPillarWidths _ := 9
  outerDists _ := 74
  outerPillarWidths _ := 9

theorem exactObject_consistent : exactObject.Consistent := by
  have hridges : exactObject.outerRidge - exactObject.innerRidge = 65 := by
    unfold DeltaMeasurements.outerRidge DeltaMeasurements.innerRidge exactObject measureOuterRadius
      measureRidgeRadius
    norm_num
  have hle : exactObject.innerRidge ≤ exactObject.outerRidge := by linarith
  refine ⟨one_pos, fun i => ?_, fun i => ?_⟩
  · unfold pillarDirection
    rw [planeDistance_ridgePoint hle, hridges]
    norm_num [exactObject]
  · unfold pillarDirection
    dsimp only
    rw [planeDistance_ridgePoint hle, hridges]
    norm_num [exactObject]

/-- A machine as it may be configured. -/
noncomputable def exampleDelta : DeltaParams :=
  ⟨150, ⟨210, 330, 90⟩, ⟨320, 320, 320⟩, ⟨300, 300, 300⟩, ⟨1 / 100, 1 / 100, 1 / 100⟩⟩

/-- The exact measurements of the object lead away from the parameters of the machine. -/
theorem exactObject_lost :
    ¬∀ (params : DeltaParams) (mp : DeltaMeasurements), params.Accepted → mp.Consistent →
      mp.FixedPoint params := by
  intro h
  have haccepted : exampleDelta.Accepted := by
    refine ⟨?_, ⟨?_, ?_, ?_⟩, ⟨?_, ?_, ?_⟩, 0, 1, ?_⟩ <;> norm_num [exampleDelta]
  obtain ⟨dp, distances, -, hdistances, hentries, -⟩ :=
    h exampleDelta exactObject haccepted exactObject_consistent
  have hlength := congrArg List.length hentries
  rw [List.length_map, length_measurementsToDistances hdistances] at hlength
  simp [DeltaMeasurements.centerDistances, DeltaMeasurements.outerDistances,
    DeltaMeasurements.centerWidths] at hlength

end FlsunT1.Klippy
