/-
  Klippy/DeltaSettings.lean --- how the kinematics of a delta are configured
  (klippy/kinematics/delta.py, DeltaKinematics.__init__).

  Options are read as in klippy/configfile.py, where a default is not checked.
-/
import FlsunT1.Klippy.DeltaCalibration
import FlsunT1.Klippy.DeltaKinematics
import Mathlib.Tactic.NormNum

set_option autoImplicit false

namespace FlsunT1.Klippy

open Library

/-! ## Options -/

/-- What stops the configuration: a `config.error` with its option, its section and the limit, or
an error of the arithmetic. -/
inductive DeltaConfigError
  | mustBeSpecified (option sect : String)
  | mustHaveMaximum (option sect : String) (maxval : ℝ)
  | mustBeAbove (option sect : String) (above : ℝ)
  | math (e : MathError)

noncomputable def checkMaxval (option sect : String) (maxval : Option ℝ) (v : ℝ) :
    Except DeltaConfigError Unit :=
  match maxval with
  | some m => if v > m then .error (.mustHaveMaximum option sect m) else .ok ()
  | none => .ok ()

noncomputable def checkAbove (option sect : String) (above : Option ℝ) (v : ℝ) :
    Except DeltaConfigError Unit :=
  match above with
  | some m => if v ≤ m then .error (.mustBeAbove option sect m) else .ok ()
  | none => .ok ()

/-- The checks of an option that is there. -/
noncomputable def checkOption (option sect : String) (maxval above : Option ℝ) (v : ℝ) :
    Except DeltaConfigError ℝ := do
  checkMaxval option sect maxval v
  checkAbove option sect above v
  return v

/-- `getfloat`; without a default the option must be there. -/
noncomputable def getfloat (option sect : String) (value default : Option ℝ)
    (maxval above : Option ℝ) : Except DeltaConfigError ℝ :=
  match value, default with
  | some v, _ => checkOption option sect maxval above v
  | none, some v => .ok v
  | none, none => .error (.mustBeSpecified option sect)

/-- The options that are read, with what the rails, the toolhead and `gcode_move` say. -/
structure DeltaSettings where
  maxVelocity : ℝ
  maxAccel : ℝ
  maxZVelocity : Option ℝ
  maxZAccel : Option ℝ
  deltaRadius : Option ℝ
  printRadius : Option ℝ
  xSizeOffset : ℝ
  ySizeOffset : ℝ
  armLength : Abc (Option ℝ)
  angle : Abc (Option ℝ)
  positionEndstop : Abc ℝ
  stepDist : Abc ℝ
  minimumZPosition : Option ℝ
  normalMinimumZPosition : Option ℝ

namespace DeltaSettings

/-- An error of the arithmetic ends the configuration. -/
def lift {α : Type} (r : Except MathError α) : Except DeltaConfigError α := r.mapError .math

noncomputable def readPrintRadius (s : DeltaSettings) (radius : ℝ) : Except DeltaConfigError ℝ := do
  let printRadius ← getfloat "print_radius" "printer" s.printRadius (some radius) none (some 0)
  return if s.xSizeOffset > 0 ∨ s.ySizeOffset > 0 then
      printRadius * (1 + max s.xSizeOffset s.ySizeOffset)
    else printRadius

noncomputable def readArmLengths (s : DeltaSettings) (radius : ℝ) :
    Except DeltaConfigError (Abc ℝ) := do
  let armLengthA ← getfloat "arm_length" "stepper_a" s.armLength.a none none (some radius)
  let a ← getfloat "arm_length" "stepper_a" s.armLength.a (some armLengthA) none (some radius)
  let b ← getfloat "arm_length" "stepper_b" s.armLength.b (some armLengthA) none (some radius)
  let c ← getfloat "arm_length" "stepper_c" s.armLength.c (some armLengthA) none (some radius)
  return ⟨a, b, c⟩

end DeltaSettings

/-- The least entry. -/
noncomputable def Abc.min (l : Abc ℝ) : ℝ := Min.min (Min.min l.a l.b) l.c

def Abc.toFin {α : Type} (l : Abc α) : Fin 3 → α := ![l.a, l.b, l.c]

/-- `ratio_to_xy` -/
noncomputable def ratioToXy (minArmLength halfMinStepDist radius ratio : ℝ) :
    Except MathError ℝ := do
  let root ← realSqrt (minArmLength ^ 2 / (ratio ^ 2 + 1) - halfMinStepDist ^ 2)
  return ratio * root + halfMinStepDist - radius

/-- `SLOW_RATIO` -/
def slowRatio : ℝ := 3

/-- `DeltaKinematics.__init__`: what it computes, and the `max_z_velocity` it starts with. -/
noncomputable def DeltaSettings.init (s : DeltaSettings) :
    Except DeltaConfigError (DeltaConfig ℝ × ℝ) := do
  let maxZVelocity ← getfloat "max_z_velocity" "printer" s.maxZVelocity (some s.maxVelocity)
    (some s.maxVelocity) (some 0)
  let maxZAccel ← getfloat "max_z_accel" "printer" s.maxZAccel (some s.maxAccel)
    (some s.maxAccel) (some 0)
  -- read radius and arm lengths
  let radius ← getfloat "delta_radius" "printer" s.deltaRadius none none (some 0)
  let printRadius ← s.readPrintRadius radius
  let armLengths ← s.readArmLengths radius
  let arm2 := armLengths.map (· ^ 2)
  let roots ← lift (arm2.mapM fun arm2 => realSqrt (arm2 - radius ^ 2))
  let absEndstops := s.positionEndstop.zipWith (· + ·) roots
  -- determine tower locations in cartesian space
  let angles := s.angle.zipWith Option.getD ⟨210, 330, 90⟩
  let towers := angles.map (towerAt radius)
  -- setup boundary checks
  let homePosition ← lift (trilateration
    ((towers.zip absEndstops).map fun (t, sp) => ⟨t.1, t.2, sp⟩) arm2)
  let maxZ := s.positionEndstop.min
  let minZ ← getfloat "minimum_z_position" "printer" s.minimumZPosition (some 0) (some maxZ) none
  let normalMinZ ← getfloat "normal_minimum_z_position" "printer" s.normalMinimumZPosition (some 0)
    none (some minZ)
  -- the point where an XY move could result in excessive tower movement
  let halfMinStepDist := s.stepDist.min * (1 / 2)
  let minArmLength := armLengths.min
  let ratioToXy := fun ratio => lift (ratioToXy minArmLength halfMinStepDist radius ratio)
  let slow ← ratioToXy slowRatio
  let verySlow ← ratioToXy (2 * slowRatio)
  let extreme ← ratioToXy (4 * slowRatio)
  return ({
    maxVelocity := s.maxVelocity
    maxAccel := s.maxAccel
    maxZAccel := maxZAccel
    arm2 := arm2.toFin
    absEndstops := absEndstops.toFin
    towers := towers.toFin
    homePosition := ![homePosition.x, homePosition.y, homePosition.z]
    maxZ := maxZ
    minZ := minZ
    normalMinZ := normalMinZ
    limitZ := (absEndstops.zipWith (· - ·) armLengths).min
    slowXy2 := slow ^ 2
    verySlowXy2 := verySlow ^ 2
    maxXy2 := (min printRadius (min (minArmLength - radius) extreme)) ^ 2 }, maxZVelocity)

/-! ## What is configured -/

/-- The arms of a configuration, and the height up to which they move freely. -/
structure DeltaConfig.HasArms (cfg : DeltaConfig ℝ) (arm : Fin 3 → ℝ) : Prop where
  pos : ∀ i, 0 < arm i
  arm2 : ∀ i, cfg.arm2 i = arm i ^ 2
  limitZ : ∀ i, cfg.limitZ ≤ cfg.absEndstops i - arm i

theorem above_of_checkOption {option sect : String} {maxval : Option ℝ} {m v v' : ℝ}
    (h : checkOption option sect maxval (some m) v = .ok v') : m < v' := by
  unfold checkOption at h
  obtain ⟨_, -, h⟩ := bind_eq_ok.mp h
  obtain ⟨_, habove, h⟩ := bind_eq_ok.mp h
  obtain rfl := Except.ok.inj h
  unfold checkAbove at habove
  dsimp only at habove
  split at habove
  · cases habove
  · rename_i hle
    exact not_le.mp hle

theorem above_of_getfloat {option sect : String} {value default maxval : Option ℝ} {m v : ℝ}
    (h : getfloat option sect value default maxval (some m) = .ok v)
    (hdefault : ∀ d ∈ default, m < d) : m < v := by
  unfold getfloat at h
  split at h
  · exact above_of_checkOption h
  · obtain rfl := Except.ok.inj h
    exact hdefault _ rfl
  · cases h

theorem Abc.min_le (l : Abc ℝ) (i : Fin 3) : l.min ≤ l.toFin i := by
  unfold Abc.min
  fin_cases i
  · exact (min_le_left _ _).trans (min_le_left _ _)
  · exact (min_le_left _ _).trans (min_le_right _ _)
  · exact min_le_right _ _

theorem DeltaSettings.arms_of_init {s : DeltaSettings} {cfg : DeltaConfig ℝ} {maxZVelocity : ℝ}
    (h : s.init = .ok (cfg, maxZVelocity)) : ∃ arm, cfg.HasArms arm := by
  unfold DeltaSettings.init at h
  obtain ⟨_, -, h⟩ := bind_eq_ok.mp h
  obtain ⟨_, -, h⟩ := bind_eq_ok.mp h
  obtain ⟨radius, hradius, h⟩ := bind_eq_ok.mp h
  obtain ⟨_, -, h⟩ := bind_eq_ok.mp h
  obtain ⟨armLengths, harms, h⟩ := bind_eq_ok.mp h
  obtain ⟨roots, -, h⟩ := bind_eq_ok.mp h
  obtain ⟨_, -, h⟩ := bind_eq_ok.mp h
  obtain ⟨_, -, h⟩ := bind_eq_ok.mp h
  obtain ⟨_, -, h⟩ := bind_eq_ok.mp h
  obtain ⟨_, -, h⟩ := bind_eq_ok.mp h
  obtain ⟨_, -, h⟩ := bind_eq_ok.mp h
  obtain ⟨_, -, h⟩ := bind_eq_ok.mp h
  obtain ⟨rfl, -⟩ := Prod.mk.inj (Except.ok.inj h)
  have hpos : 0 < radius := above_of_getfloat hradius fun _ hd => by cases hd
  unfold readArmLengths at harms
  obtain ⟨armLengthA, hA, harms⟩ := bind_eq_ok.mp harms
  obtain ⟨a, ha, harms⟩ := bind_eq_ok.mp harms
  obtain ⟨b, hb, harms⟩ := bind_eq_ok.mp harms
  obtain ⟨c, hc, harms⟩ := bind_eq_ok.mp harms
  obtain rfl := Except.ok.inj harms
  have hdefault := above_of_getfloat hA fun _ hd => by cases hd
  have hdefault' : ∀ d ∈ some armLengthA, radius < d := by
    intro d hd
    rwa [← Option.some.inj (Option.mem_def.mp hd)]
  refine ⟨![a, b, c], ?_, ?_, ?_⟩
  · intro i
    fin_cases i
    · exact hpos.trans (above_of_getfloat ha hdefault')
    · exact hpos.trans (above_of_getfloat hb hdefault')
    · exact hpos.trans (above_of_getfloat hc hdefault')
  · intro i
    fin_cases i <;> rfl
  · intro i
    have hmin := ((s.positionEndstop.zipWith (· + ·) roots).zipWith (· - ·) ⟨a, b, c⟩).min_le i
    fin_cases i <;> exact hmin

/-! ## A delta -/

theorem getfloat_ok {option sect : String} {default maxval above : Option ℝ} {v : ℝ}
    (hmax : ∀ m ∈ maxval, v ≤ m) (habove : ∀ m ∈ above, m < v) :
    getfloat option sect (some v) default maxval above = .ok v := by
  unfold getfloat checkOption
  refine bind_eq_ok.mpr ⟨(), ?_, bind_eq_ok.mpr ⟨(), ?_, rfl⟩⟩
  · unfold checkMaxval
    split
    · exact if_neg (not_lt.mpr (hmax _ rfl))
    · rfl
  · unfold checkAbove
    split
    · exact if_neg (not_le.mpr (habove _ rfl))
    · rfl

theorem lift_ok {α : Type} {r : Except MathError α} {a : α} (h : r = .ok a) :
    DeltaSettings.lift r = .ok a := by
  rw [h]
  rfl

theorem ratioToXy_ok {minArmLength halfMinStepDist radius ratio : ℝ}
    (h : 0 ≤ minArmLength ^ 2 / (ratio ^ 2 + 1) - halfMinStepDist ^ 2) :
    ratioToXy minArmLength halfMinStepDist radius ratio = .ok (ratio *
      √(minArmLength ^ 2 / (ratio ^ 2 + 1) - halfMinStepDist ^ 2) + halfMinStepDist - radius) := by
  unfold ratioToXy
  rw [realSqrt_ok h]
  rfl

theorem realSqrt_sq {a r : ℝ} (hr : 0 ≤ r) (h : a = r ^ 2) : realSqrt a = .ok r := by
  rw [h, realSqrt_ok (sq_nonneg r), Real.sqrt_sq hr]

/-- A delta with a radius of 300 mm and arms of 500 mm, 1000 mm high. -/
noncomputable def tallDelta : DeltaSettings where
  maxVelocity := 400
  maxAccel := 10000
  maxZVelocity := none
  maxZAccel := none
  deltaRadius := some 300
  printRadius := some 150
  xSizeOffset := 0
  ySizeOffset := 0
  armLength := ⟨some 500, none, none⟩
  angle := ⟨some 180, some 0, none⟩
  positionEndstop := ⟨1000, 1000, 1000⟩
  stepDist := ⟨1 / 100, 1 / 100, 1 / 100⟩
  minimumZPosition := none
  normalMinimumZPosition := none

noncomputable def tallRatioToXy (ratio : ℝ) : ℝ :=
  ratio * √(500 ^ 2 / (ratio ^ 2 + 1) - (1 / 200) ^ 2) + 1 / 200 - 300

noncomputable def tallConfig : DeltaConfig ℝ where
  maxVelocity := 400
  maxAccel := 10000
  maxZAccel := 10000
  arm2 := ![250000, 250000, 250000]
  absEndstops := ![1400, 1400, 1400]
  towers := ![(-300, 0), (300, 0), (0, 300)]
  homePosition := ![0, 0, 1000]
  maxZ := 1000
  minZ := 0
  normalMinZ := 0
  limitZ := 900
  slowXy2 := tallRatioToXy slowRatio ^ 2
  verySlowXy2 := tallRatioToXy (2 * slowRatio) ^ 2
  maxXy2 := 22500

theorem tall_trilateration :
    trilateration ⟨⟨-300, 0, 1400⟩, ⟨300, 0, 1400⟩, ⟨0, 300, 1400⟩⟩ ⟨250000, 250000, 250000⟩ =
      .ok ⟨0, 0, 1000⟩ := by
  unfold trilateration
  simp only [Vec3.sub, Vec3.magsq, Vec3.mul, Vec3.dot, Vec3.cross, Vec3.add]
  refine bind_eq_ok.mpr ⟨600, realSqrt_sq (by norm_num) (by norm_num), ?_⟩
  refine bind_eq_ok.mpr ⟨_, realDiv_ok (by norm_num), ?_⟩
  refine bind_eq_ok.mpr ⟨300, realSqrt_sq (by norm_num) (by norm_num), ?_⟩
  refine bind_eq_ok.mpr ⟨_, realDiv_ok (by norm_num), ?_⟩
  refine bind_eq_ok.mpr ⟨_, realDiv_ok (by norm_num), ?_⟩
  refine bind_eq_ok.mpr ⟨_, realDiv_ok (by norm_num), ?_⟩
  refine bind_eq_ok.mpr ⟨400, realSqrt_sq (by norm_num) (by norm_num), ?_⟩
  refine congrArg Except.ok ?_
  ext <;> norm_num

theorem tall_towers :
    (⟨180, 0, 90⟩ : Abc ℝ).map (towerAt 300) = ⟨(-300, 0), (300, 0), (0, 300)⟩ := by
  have h180 : radians 180 = Real.pi := by unfold radians; ring
  have h0 : radians 0 = 0 := by unfold radians; ring
  have h90 : radians 90 = Real.pi / 2 := by unfold radians; ring
  unfold Abc.map towerAt
  rw [h180, h0, h90]
  simp

theorem tallDelta_init : tallDelta.init = .ok (tallConfig, 400) := by
  unfold DeltaSettings.init
  refine bind_eq_ok.mpr ⟨400, rfl, ?_⟩
  refine bind_eq_ok.mpr ⟨10000, rfl, ?_⟩
  refine bind_eq_ok.mpr ⟨300, getfloat_ok (by simp) (by simp), ?_⟩
  refine bind_eq_ok.mpr ⟨150, ?_, ?_⟩
  · unfold DeltaSettings.readPrintRadius
    refine bind_eq_ok.mpr ⟨150, getfloat_ok (by simp) (by simp), ?_⟩
    simp [tallDelta, pure, Except.pure]
  refine bind_eq_ok.mpr ⟨⟨500, 500, 500⟩, ?_, ?_⟩
  · have hA : ∀ d, getfloat "arm_length" "stepper_a" (some 500) d none (some 300) = .ok 500 :=
      fun d => getfloat_ok (by simp) (by norm_num)
    unfold DeltaSettings.readArmLengths
    exact bind_eq_ok.mpr ⟨500, hA _, bind_eq_ok.mpr ⟨500, hA _, rfl⟩⟩
  refine bind_eq_ok.mpr ⟨⟨400, 400, 400⟩, ?_, ?_⟩
  · refine lift_ok ?_
    have hroot : realSqrt ((500 : ℝ) ^ 2 - 300 ^ 2) = .ok 400 :=
      realSqrt_sq (by norm_num) (by norm_num)
    exact bind_eq_ok.mpr ⟨400, hroot, bind_eq_ok.mpr ⟨400, hroot, bind_eq_ok.mpr ⟨400, hroot, rfl⟩⟩⟩
  refine bind_eq_ok.mpr ⟨⟨0, 0, 1000⟩, ?_, ?_⟩
  · refine lift_ok ?_
    have hangles : (tallDelta.angle.zipWith Option.getD ⟨210, 330, 90⟩).map (towerAt 300) =
        ⟨(-300, 0), (300, 0), (0, 300)⟩ := tall_towers
    have harm2 : (⟨500, 500, 500⟩ : Abc ℝ).map (· ^ 2) = ⟨250000, 250000, 250000⟩ := by
      unfold Abc.map
      norm_num
    have habs : tallDelta.positionEndstop.zipWith (· + ·) ⟨400, 400, 400⟩ =
        ⟨1400, 1400, 1400⟩ := by
      unfold Abc.zipWith tallDelta
      norm_num
    rw [hangles, harm2, habs]
    exact tall_trilateration
  refine bind_eq_ok.mpr ⟨0, rfl, bind_eq_ok.mpr ⟨0, rfl, ?_⟩⟩
  have hratio : ∀ ratio : ℝ, ratio ^ 2 ≤ 1000 →
      DeltaSettings.lift (ratioToXy (⟨500, 500, 500⟩ : Abc ℝ).min
        (tallDelta.stepDist.min * (1 / 2)) 300 ratio) = .ok (tallRatioToXy ratio) := by
    intro ratio hratio
    have harm : (⟨500, 500, 500⟩ : Abc ℝ).min = 500 := by simp [Abc.min]
    have hstep : tallDelta.stepDist.min * (1 / 2) = 1 / 200 := by
      simp only [Abc.min, tallDelta, min_self]
      norm_num
    have hone : (1 : ℝ) ≤ 500 ^ 2 / (ratio ^ 2 + 1) := by
      rw [le_div_iff₀ (by positivity)]
      linarith
    rw [harm, hstep]
    exact lift_ok (ratioToXy_ok (by linarith))
  refine bind_eq_ok.mpr ⟨_, hratio _ (by unfold slowRatio; norm_num), ?_⟩
  refine bind_eq_ok.mpr ⟨_, hratio _ (by unfold slowRatio; norm_num), ?_⟩
  refine bind_eq_ok.mpr ⟨_, hratio _ (by unfold slowRatio; norm_num), ?_⟩
  refine congrArg Except.ok (Prod.ext ?_ rfl)
  have hmin : ∀ x : ℝ, (⟨x, x, x⟩ : Abc ℝ).min = x := fun x => by simp [Abc.min]
  have hextreme : 150 ≤ tallRatioToXy (4 * slowRatio) := by
    have hroot : 41 ≤ √((500 : ℝ) ^ 2 / ((4 * 3) ^ 2 + 1) - (1 / 200) ^ 2) :=
      Real.le_sqrt_of_sq_le (by norm_num)
    unfold tallRatioToXy slowRatio
    linarith
  unfold tallConfig
  simp only [DeltaConfig.mk.injEq]
  refine ⟨rfl, rfl, trivial, ?_, ?_, ?_, trivial, hmin 1000, trivial, trivial, ?_, trivial,
    trivial, ?_⟩
  · unfold Abc.map Abc.toFin
    norm_num
  · unfold Abc.zipWith Abc.toFin tallDelta
    norm_num
  · exact congrArg Abc.toFin tall_towers
  · unfold Abc.zipWith tallDelta
    norm_num [Abc.min]
  · rw [hmin, min_eq_left]
    · norm_num
    · rw [le_min_iff]
      exact ⟨by norm_num, hextreme⟩

end FlsunT1.Klippy
