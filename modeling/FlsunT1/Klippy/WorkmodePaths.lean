/-
  Klippy/WorkmodePaths.lean --- do the settings depend on the path of the work modes?

  A switch works on the settings alone, so its effect is a function on them, and what a
  path leads to is found by composing two such functions.
-/
import FlsunT1.Klippy.PrinterWorkmode
import FlsunT1.Library.Run
import Mathlib.Data.Rat.Floor

set_option autoImplicit false

namespace FlsunT1.Klippy

open Library

variable {K : Type} [Field K] [LinearOrder K] [FloorRing K]

/-! ## Settings -/

/-- The settings of the work modes: the velocity limits in effect, `max_z_velocity`, the
power of the fan, the speed of the heat sink fan and the drivers. -/
structure Settings (K : Type) where
  toolhead : ToolheadLimits K
  maxZVelocity : K
  fanMaxPower : K
  heatSinkFanSpeed : K
  stepperA : Driver K
  stepperB : Driver K
  stepperC : Driver K
  extruder : Driver K

/-- The limits in effect, without the bounds for later requests. -/
def inEffect (t : ToolheadLimits K) : ToolheadLimits K :=
  { t with limit := ToolheadLimits.startLimit }

def WorkState.settings (s : WorkState K) : Settings K :=
  ⟨inEffect s.toolhead, s.maxZVelocity, s.fan.maxPower, s.heatSinkFan.fanSpeed, s.stepperA,
    s.stepperB, s.stepperC, s.extruder⟩

/-- The settings as they are configured. -/
def configured (sqrtTwo : K) (c : WorkmodeConfig K) : Settings K :=
  ⟨inEffect (.init sqrtTwo c.velocity), c.maxZVelocity, c.fanMaxPower, c.heatSinkFanSpeed,
    .init sqrtTwo c.stepperA, .init sqrtTwo c.stepperB, .init sqrtTwo c.stepperC,
    .init sqrtTwo c.extruder⟩

/-- What a switch to the normal mode makes of the settings. -/
def normalSettings (sqrtTwo : K) (c : WorkmodeConfig K) (s : Settings K) : Settings K where
  toolhead := inEffect (s.toolhead.setVelocityLimitx sqrtTwo ToolheadLimits.startLimit)
  maxZVelocity := c.maxZVelocity
  fanMaxPower := c.fanMaxPower
  heatSinkFanSpeed := c.heatSinkFanSpeed
  stepperA := ((s.stepperA.setStealthchop c.stepperA c.stepperA.stealthchopThreshold).setStealthchop
    c.stepperC c.stepperC.stealthchopThreshold).setCurrent sqrtTwo (format1 c.stepperA.runCurrent)
  stepperB := (s.stepperB.setStealthchop c.stepperB c.stepperB.stealthchopThreshold).setCurrent
    sqrtTwo (format1 c.stepperB.runCurrent)
  stepperC := s.stepperC.setCurrent sqrtTwo (format1 c.stepperC.runCurrent)
  extruder := s.extruder.setCurrent sqrtTwo (format1 c.extruder.runCurrent)

/-- The limits of the silent mode, as they reach the toolhead. -/
def silentLimits (c : WorkmodeConfig K) : VelocityValues K :=
  { c.silentVelocity with
    accelToDecel := c.silentVelocity.squareCorner
    squareCorner := c.silentVelocity.accelToDecel }

/-- What a switch to the silent mode makes of the settings. -/
def silentSettings (sqrtTwo : K) (c : WorkmodeConfig K) (s : Settings K) : Settings K where
  toolhead := inEffect (s.toolhead.setVelocityLimitx sqrtTwo (silentLimits c))
  maxZVelocity := 100
  fanMaxPower := c.silentFanMaxPower
  heatSinkFanSpeed := c.silentHeatSinkFanSpeed
  stepperA := ((s.stepperA.setStealthchop c.stepperA c.silentStealthchop).setStealthchop
    c.stepperC c.silentStealthchop).setCurrent sqrtTwo c.silentStepAbcRunCurrent
  stepperB := (s.stepperB.setStealthchop c.stepperB c.silentStealthchop).setCurrent sqrtTwo
    c.silentStepAbcRunCurrent
  stepperC := s.stepperC.setCurrent sqrtTwo c.silentStepAbcRunCurrent
  extruder := s.extruder.setCurrent sqrtTwo c.silentExtruderRunCurrent

/-! ## What a switch does -/

omit [FloorRing K] in

omit [Field K] [LinearOrder K] [FloorRing K] in
theorem runWrites_append {writes writes' : List (Write K)} {s t u : WorkState K}
    (h : runWrites writes s = (t, true)) (h' : runWrites writes' t = (u, true)) :
    runWrites (writes ++ writes') s = (u, true) := by
  induction writes generalizing s with
  | nil =>
    cases h
    exact h'
  | cons write writes ih =>
    rw [List.cons_append, runWrites]
    rw [runWrites] at h
    split
    · rename_i s' hwrite
      rw [hwrite] at h
      exact ih h
    · rename_i s' hwrite
      rw [hwrite] at h
      cases h

theorem runWrites_currents (sqrtTwo : K) {e a b c : K} (he : currentAccepted e = true)
    (ha : currentAccepted a = true) (hb : currentAccepted b = true)
    (hc : currentAccepted c = true) (s : WorkState K) :
    runWrites (writeCurrents sqrtTwo e a b c) s =
      ({ s with
        extruder := s.extruder.setCurrent sqrtTwo e
        stepperA := s.stepperA.setCurrent sqrtTwo a
        stepperB := s.stepperB.setCurrent sqrtTwo b
        stepperC := s.stepperC.setCurrent sqrtTwo c }, true) := by
  simp only [writeCurrents, runWrites, he, ha, hb, hc, if_true]

omit [FloorRing K] in
theorem runWrites_velocities {sqrtTwo : K} {l : VelocityValues K} {maxZVelocity : K}
    {s : WorkState K} (h : (s.toolhead.setVelocityLimitx sqrtTwo l).raised = false) :
    runWrites (writeVelocities sqrtTwo l maxZVelocity) s =
      ({ s with
        toolhead := s.toolhead.setVelocityLimitx sqrtTwo l
        maxZVelocity := maxZVelocity }, true) := by
  simp only [writeVelocities, runWrites, h, Bool.not_false]

omit [FloorRing K] in
/-- The limits leave the normal values, and raise no exception at an acceleration other
than 0. -/
theorem setVelocityLimitx_frame (sqrtTwo : K) {l : VelocityValues K} {t : ToolheadLimits K}
    (haccel : l.maxAccel ≠ 0) (hnormal : t.normal.maxAccel ≠ 0) :
    (t.setVelocityLimitx sqrtTwo l).normal = t.normal ∧
    (t.setVelocityLimitx sqrtTwo l).requestedAccelToDecel = t.requestedAccelToDecel ∧
    (t.setVelocityLimitx sqrtTwo l).raised = t.raised := by
  have hne : (if l.maxAccel < t.normal.maxAccel then l.maxAccel else t.normal.maxAccel) ≠ 0 := by
    split
    · exact haccel
    · exact hnormal
  rw [ToolheadLimits.setVelocityLimitx, ToolheadLimits.calcJunctionDeviation]
  dsimp only
  rw [if_neg hne]
  exact ⟨rfl, rfl, rfl⟩

/-- What the switches rest on: the toolhead has its normal values, and no exception. -/
structure ToolheadReady (sqrtTwo : K) (c : WorkmodeConfig K) (t : ToolheadLimits K) : Prop where
  normal : t.normal = (ToolheadLimits.init sqrtTwo c.velocity).normal
  requested : t.requestedAccelToDecel = c.velocity.accelToDecel
  raised : t.raised = false

omit [FloorRing K] in
theorem init_toolheadReady (sqrtTwo : K) (c : WorkmodeConfig K) :
    ToolheadReady sqrtTwo c (inEffect (.init sqrtTwo c.velocity)) := by
  have hne := c.maxAccel_pos.ne'
  have hinit : (ToolheadLimits.init sqrtTwo c.velocity).requestedAccelToDecel =
      c.velocity.accelToDecel ∧ (ToolheadLimits.init sqrtTwo c.velocity).raised = false := by
    rw [ToolheadLimits.init, ToolheadLimits.calcJunctionDeviation]
    dsimp only
    rw [if_neg hne]
    exact ⟨rfl, rfl⟩
  exact ⟨rfl, hinit.1, hinit.2⟩

omit [FloorRing K] in
theorem ToolheadReady.maxAccel_ne {sqrtTwo : K} {c : WorkmodeConfig K} {t : ToolheadLimits K}
    (h : ToolheadReady sqrtTwo c t) : t.normal.maxAccel ≠ 0 := by
  rw [h.normal]
  exact c.maxAccel_pos.ne'

/-- The silent mode is reached: its acceleration is not 0, and its currents are accepted. -/
structure SilentRuns (c : WorkmodeConfig K) : Prop where
  maxAccel : c.silentVelocity.maxAccel ≠ 0
  extruder : currentAccepted c.silentExtruderRunCurrent = true
  steppers : currentAccepted c.silentStepAbcRunCurrent = true

theorem switchToSilent_settings {sqrtTwo : K} {c : WorkmodeConfig K} (hruns : SilentRuns c)
    {s : WorkState K} (hready : ToolheadReady sqrtTwo c s.toolhead) (heaterOn : Bool) :
    (switchToSilent sqrtTwo c heaterOn s).2 = true ∧
    (switchToSilent sqrtTwo c heaterOn s).1.settings = silentSettings sqrtTwo c s.settings := by
  have haccel : (silentLimits c).maxAccel ≠ 0 := hruns.maxAccel
  have hraised : (s.toolhead.setVelocityLimitx sqrtTwo (silentLimits c)).raised = false :=
    (setVelocityLimitx_frame sqrtTwo haccel hready.maxAccel_ne).2.2.trans hready.raised
  have hcurrents := runWrites_currents sqrtTwo hruns.extruder hruns.steppers hruns.steppers
    hruns.steppers
  have hrun : switchToSilent sqrtTwo c heaterOn s = (_, true) :=
    runWrites_append (runWrites_append (runWrites_append (runWrites_append rfl
      (runWrites_velocities hraised)) rfl) (hcurrents _)) rfl
  rw [hrun]
  exact ⟨rfl, rfl⟩

variable [IsStrictOrderedRing K]

theorem format1_accepted {v : K} (hlow : 0 < v) (hhigh : v ≤ 4) :
    currentAccepted (format1 v) = true := by
  have hten : (0 : K) < 10 := by norm_num
  have hzero : (0 : ℤ) ≤ roundHalfEven (v * 10) :=
    le_roundHalfEven (by rw [Int.cast_zero]; exact (mul_pos hlow hten).le)
  have hforty : roundHalfEven (v * 10) ≤ (40 : ℤ) := by
    refine roundHalfEven_le ((mul_le_mul_of_nonneg_right hhigh hten.le).trans_eq ?_)
    norm_num
  have hlow' : (0 : K) ≤ format1 v :=
    div_nonneg (by exact_mod_cast hzero) hten.le
  have hhigh' : format1 v ≤ 4 := by
    have hcast : ((roundHalfEven (v * 10) : ℤ) : K) ≤ 40 := by exact_mod_cast hforty
    rw [format1, div_le_iff₀ hten]
    exact hcast.trans_eq (by norm_num)
  rw [currentAccepted, decide_eq_true hlow', decide_eq_true hhigh']
  rfl

theorem switchToNormal_settings {sqrtTwo : K} {c : WorkmodeConfig K} {s : WorkState K}
    (hready : ToolheadReady sqrtTwo c s.toolhead) (heaterOn : Bool) :
    (switchToNormal sqrtTwo c heaterOn s).2 = true ∧
    (switchToNormal sqrtTwo c heaterOn s).1.settings = normalSettings sqrtTwo c s.settings := by
  have hraised : (s.toolhead.setVelocityLimitx sqrtTwo
      ⟨99999999, 99999999, 99999999, 99999999⟩).raised = false :=
    (setVelocityLimitx_frame sqrtTwo (by norm_num) hready.maxAccel_ne).2.2.trans hready.raised
  have haccepted (d : DriverConfig K) : currentAccepted (format1 d.runCurrent) = true :=
    format1_accepted d.runCurrent_pos d.runCurrent_le
  have hcurrents := runWrites_currents sqrtTwo (haccepted c.extruder)
    (haccepted c.stepperA) (haccepted c.stepperB) (haccepted c.stepperC)
  have hrun : switchToNormal sqrtTwo c heaterOn s = (_, true) :=
    runWrites_append (runWrites_append (runWrites_append (runWrites_append rfl (hcurrents _)) rfl)
      (runWrites_velocities hraised)) rfl
  rw [hrun]
  exact ⟨rfl, rfl⟩

/-! ## The condition -/

/-- A current that gives the driver the values that it is configured with. -/
def CurrentKept (sqrtTwo : K) (c : DriverConfig K) (current : K) : Prop :=
  (Driver.init sqrtTwo c).currentBits sqrtTwo current =
    (Driver.init sqrtTwo c).currentBits sqrtTwo c.runCurrent ∧
  (Driver.init sqrtTwo c).currentBits sqrtTwo (min c.holdCurrent current) =
    (Driver.init sqrtTwo c).currentBits sqrtTwo (min c.holdCurrent c.runCurrent)

/-- A threshold, for a stepper with the geometry of `c'`, that gives the driver of `c` the
registers that it is configured with. -/
def StealthchopKept (c c' : DriverConfig K) (stealthchop : K) : Prop :=
  (stealthchop = 0 ↔ c.stealthchopThreshold = 0) ∧
  (stealthchop ≠ 0 → Driver.threshold c' c.mres stealthchop =
    Driver.threshold c c.mres c.stealthchopThreshold)

/-- The silent mode is no other than the configured one. -/
structure SilentIsConfigured (sqrtTwo : K) (c : WorkmodeConfig K) : Prop where
  maxVelocity : c.velocity.maxVelocity ≤ c.silentVelocity.maxVelocity
  maxAccel : c.velocity.maxAccel ≤ c.silentVelocity.maxAccel
  squareCorner : c.velocity.squareCorner ≤ c.silentVelocity.accelToDecel
  maxZVelocity : c.maxZVelocity = 100
  fan : c.silentFanMaxPower = c.fanMaxPower
  heatSinkFan : c.silentHeatSinkFanSpeed = c.heatSinkFanSpeed
  stealthchopA : StealthchopKept c.stepperA c.stepperC c.silentStealthchop
  stealthchopB : StealthchopKept c.stepperB c.stepperB c.silentStealthchop
  currentA : CurrentKept sqrtTwo c.stepperA c.silentStepAbcRunCurrent
  currentB : CurrentKept sqrtTwo c.stepperB c.silentStepAbcRunCurrent
  currentC : CurrentKept sqrtTwo c.stepperC c.silentStepAbcRunCurrent
  extruder : CurrentKept sqrtTwo c.extruder c.silentExtruderRunCurrent

/-- The switch to the normal mode writes what is configured: the limits are not above the
bound of the mode, stepper C has the registers of stepper A, and the currents stand one
decimal. -/
structure NormalRestores (sqrtTwo : K) (c : WorkmodeConfig K) : Prop where
  maxVelocity : c.velocity.maxVelocity ≤ 99999999
  maxAccel : c.velocity.maxAccel ≤ 99999999
  squareCorner : c.velocity.squareCorner ≤ 99999999
  stealthchopA : StealthchopKept c.stepperA c.stepperC c.stepperC.stealthchopThreshold
  currentA : CurrentKept sqrtTwo c.stepperA (format1 c.stepperA.runCurrent)
  currentB : CurrentKept sqrtTwo c.stepperB (format1 c.stepperB.runCurrent)
  currentC : CurrentKept sqrtTwo c.stepperC (format1 c.stepperC.runCurrent)
  extruder : CurrentKept sqrtTwo c.extruder (format1 c.extruder.runCurrent)

/-- The threshold of the silent mode does not stay behind in a driver without one. -/
structure SilentErased (c : WorkmodeConfig K) : Prop where
  stepperA : c.silentStealthchop = 0 ∨ c.stepperA.stealthchopThreshold ≠ 0 ∨
    Driver.threshold c.stepperC c.stepperA.mres c.silentStealthchop = 0
  stepperB : c.silentStealthchop = 0 ∨ c.stepperB.stealthchopThreshold ≠ 0 ∨
    Driver.threshold c.stepperB c.stepperB.mres c.silentStealthchop = 0

/-- The condition on a command that changes the mode. -/
def WorkmodeCondition (sqrtTwo : K) (c : WorkmodeConfig K) (s : WorkState K)
    (e : WorkmodeCommand) : Prop :=
  s.workMode ≠ e.mode →
    (e.mode = 0 → NormalRestores sqrtTwo c ∧ (s.workMode = 3 → SilentErased c)) ∧
    (e.mode = 1 ∨ e.mode = 2 → s.workMode = 3 → SilentIsConfigured sqrtTwo c) ∧
    (e.mode = 3 → SilentRuns c)

/-! ## The drivers -/

namespace Driver

omit [IsStrictOrderedRing K]

variable {sqrtTwo : K} {c c' : DriverConfig K} {d : Driver K}

/-- A driver that has the fixed fields of its configuration. -/
structure Of (sqrtTwo : K) (c : DriverConfig K) (d : Driver K) : Prop where
  globalscaler : d.globalscaler = (init sqrtTwo c).globalscaler
  mres : d.mres = c.mres
  senseResistor : d.senseResistor = c.senseResistor
  reqHoldCurrent : d.reqHoldCurrent = c.holdCurrent

theorem Of.setStealthchop (h : Of sqrtTwo c d) (c' : DriverConfig K) (stealthchop : K) :
    Of sqrtTwo c (d.setStealthchop c' stealthchop) := by
  rw [Driver.setStealthchop]
  split
  · exact ⟨h.1, h.2, h.3, h.4⟩
  · exact ⟨h.1, h.2, h.3, h.4⟩

theorem Of.setCurrent (h : Of sqrtTwo c d) (current : K) :
    Of sqrtTwo c (d.setCurrent sqrtTwo current) := ⟨h.1, h.2, h.3, h.4⟩

theorem init_of (sqrtTwo : K) (c : DriverConfig K) : Of sqrtTwo c (init sqrtTwo c) := by
  have h : (init sqrtTwo c).mres = c.mres ∧ (init sqrtTwo c).senseResistor = c.senseResistor ∧
      (init sqrtTwo c).reqHoldCurrent = c.holdCurrent := by
    rw [init, Driver.setStealthchop]
    split
    · exact ⟨rfl, rfl, rfl⟩
    · exact ⟨rfl, rfl, rfl⟩
  exact ⟨rfl, h.1, h.2.1, h.2.2⟩

theorem Of.currentBits_eq (h : Of sqrtTwo c d) (current : K) :
    d.currentBits sqrtTwo current = (init sqrtTwo c).currentBits sqrtTwo current := by
  rw [currentBits, currentBits, h.globalscaler, h.senseResistor, (init_of sqrtTwo c).senseResistor]

theorem init_registers (sqrtTwo : K) (c : DriverConfig K) :
    (init sqrtTwo c).irun = (init sqrtTwo c).currentBits sqrtTwo c.runCurrent ∧
    (init sqrtTwo c).ihold =
      (init sqrtTwo c).currentBits sqrtTwo (min c.holdCurrent c.runCurrent) ∧
    (init sqrtTwo c).enPwmMode = decide (c.stealthchopThreshold ≠ 0) ∧
    (init sqrtTwo c).tpwmthrs = if c.stealthchopThreshold = 0 then 0
      else threshold c c.mres c.stealthchopThreshold := by
  rw [init, Driver.setStealthchop]
  split
  · rename_i hzero
    exact ⟨rfl, rfl, by rw [decide_eq_false (not_not_intro hzero)], rfl⟩
  · rename_i hne
    exact ⟨rfl, rfl, by rw [decide_eq_true hne], rfl⟩

theorem Of.ext {d' : Driver K} (h : Of sqrtTwo c d) (h' : Of sqrtTwo c d')
    (htpwmthrs : d.tpwmthrs = d'.tpwmthrs) (hen : d.enPwmMode = d'.enPwmMode)
    (hirun : d.irun = d'.irun) (hihold : d.ihold = d'.ihold) : d = d' := by
  obtain ⟨tpwmthrs, enPwmMode, irun, ihold, globalscaler, mres, senseResistor, reqHoldCurrent⟩ := d
  obtain ⟨hglobal, hmres, hsense, hhold⟩ := h
  dsimp only at htpwmthrs hen hirun hihold hglobal hmres hsense hhold
  rw [htpwmthrs, hen, hirun, hihold, hglobal, hmres, hsense, hhold, ← h'.globalscaler, ← h'.mres,
    ← h'.senseResistor, ← h'.reqHoldCurrent]

/-- A switch brings a driver back to its configuration. -/
theorem Of.restored (h : Of sqrtTwo c d) {stealthchop current : K}
    (hstealthchop : StealthchopKept c c' stealthchop) (hcurrent : CurrentKept sqrtTwo c current)
    (htpwmthrs : stealthchop = 0 → d.tpwmthrs = 0) :
    (d.setStealthchop c' stealthchop).setCurrent sqrtTwo current = init sqrtTwo c := by
  obtain ⟨hirun, hihold, hen, hthreshold⟩ := init_registers sqrtTwo c
  have hset := h.setStealthchop c' stealthchop
  refine (hset.setCurrent current).ext (init_of sqrtTwo c) ?_ ?_ ?_ ?_
  · show (d.setStealthchop c' stealthchop).tpwmthrs = _
    rw [hthreshold, Driver.setStealthchop]
    split
    · rename_i hzero
      rw [if_pos (hstealthchop.1.mp hzero)]
      exact htpwmthrs hzero
    · rename_i hne
      rw [if_neg (fun hzero => hne (hstealthchop.1.mpr hzero)), ← hstealthchop.2 hne, ← h.mres]
  · show (d.setStealthchop c' stealthchop).enPwmMode = _
    rw [hen, Driver.setStealthchop]
    split
    · rename_i hzero
      have hzero' : ¬c.stealthchopThreshold ≠ 0 := not_not_intro (hstealthchop.1.mp hzero)
      exact (decide_eq_false hzero').symm
    · rename_i hne
      have hne' : c.stealthchopThreshold ≠ 0 := fun hzero => hne (hstealthchop.1.mpr hzero)
      exact (decide_eq_true hne').symm
  · exact (hset.currentBits_eq current).trans (hcurrent.1.trans hirun.symm)
  · show (d.setStealthchop c' stealthchop).currentBits sqrtTwo (min _ current) = _
    rw [hset.reqHoldCurrent, hset.currentBits_eq, hcurrent.2, hihold]

theorem stealthchopKept_own (c : DriverConfig K) :
    StealthchopKept c c c.stealthchopThreshold := ⟨Iff.rfl, fun _ => rfl⟩

theorem Of.setCurrent_eq (h : Of sqrtTwo c d) {current : K}
    (hcurrent : CurrentKept sqrtTwo c current) (htpwmthrs : d.tpwmthrs = (init sqrtTwo c).tpwmthrs)
    (hen : d.enPwmMode = (init sqrtTwo c).enPwmMode) :
    d.setCurrent sqrtTwo current = init sqrtTwo c := by
  obtain ⟨hirun, hihold, -, -⟩ := init_registers sqrtTwo c
  refine (h.setCurrent current).ext (init_of sqrtTwo c) htpwmthrs hen ?_ ?_
  · exact (h.currentBits_eq current).trans (hcurrent.1.trans hirun.symm)
  · show d.currentBits sqrtTwo (min _ current) = _
    rw [h.reqHoldCurrent, h.currentBits_eq, hcurrent.2, hihold]

end Driver

/-! ## The toolhead -/

omit [FloorRing K] [IsStrictOrderedRing K] in
theorem inEffect_setVelocityLimitx_eq {sqrtTwo : K} {c : WorkmodeConfig K} {t : ToolheadLimits K}
    (hready : ToolheadReady sqrtTwo c t) {l : VelocityValues K}
    (hvelocity : c.velocity.maxVelocity ≤ l.maxVelocity)
    (haccel : c.velocity.maxAccel ≤ l.maxAccel)
    (hcorner : c.velocity.squareCorner ≤ l.squareCorner) :
    inEffect (t.setVelocityLimitx sqrtTwo l) = inEffect (.init sqrtTwo c.velocity) := by
  have hne := c.maxAccel_pos.ne'
  have hv : t.normal.maxVelocity = c.velocity.maxVelocity := by rw [hready.normal]; rfl
  have ha : t.normal.maxAccel = c.velocity.maxAccel := by rw [hready.normal]; rfl
  have hs : t.normal.squareCorner = c.velocity.squareCorner := by rw [hready.normal]; rfl
  rw [ToolheadLimits.setVelocityLimitx, ToolheadLimits.calcJunctionDeviation]
  dsimp only
  rw [hv, ha, hs, if_neg (not_lt.mpr hvelocity), if_neg (not_lt.mpr haccel),
    if_neg (not_lt.mpr hcorner), if_neg hne, hready.requested, hready.raised, hready.normal]
  rw [ToolheadLimits.init, ToolheadLimits.calcJunctionDeviation]
  dsimp only
  rw [if_neg hne]
  rfl

/-! ## Two switches after each other -/

omit [IsStrictOrderedRing K] in
theorem tpwmthrs_of_zero (d : Driver K) (c' : DriverConfig K) :
    (d.setStealthchop c' 0).tpwmthrs = d.tpwmthrs := by
  rw [Driver.setStealthchop, if_pos rfl]

omit [IsStrictOrderedRing K] in
theorem tpwmthrs_init_of_zero (sqrtTwo : K) {c : DriverConfig K}
    (h : c.stealthchopThreshold = 0) : (Driver.init sqrtTwo c).tpwmthrs = 0 := by
  rw [(Driver.init_registers sqrtTwo c).2.2.2, if_pos h]

/-- A driver whose stealthchop fields are as configured. -/
structure Quiet (sqrtTwo : K) (c : DriverConfig K) (d : Driver K) : Prop extends
    Driver.Of sqrtTwo c d where
  tpwmthrs : d.tpwmthrs = (Driver.init sqrtTwo c).tpwmthrs
  enPwmMode : d.enPwmMode = (Driver.init sqrtTwo c).enPwmMode

/-- Settings that the switch to the normal mode brings back. -/
structure Recoverable (sqrtTwo : K) (c : WorkmodeConfig K) (s : Settings K) : Prop where
  toolhead : ToolheadReady sqrtTwo c s.toolhead
  stepperA : Driver.Of sqrtTwo c.stepperA s.stepperA
  stepperB : Driver.Of sqrtTwo c.stepperB s.stepperB
  stepperC : Quiet sqrtTwo c.stepperC s.stepperC
  extruder : Quiet sqrtTwo c.extruder s.extruder
  thresholdA : c.stepperA.stealthchopThreshold = 0 → s.stepperA.tpwmthrs = 0
  thresholdB : c.stepperB.stealthchopThreshold = 0 → s.stepperB.tpwmthrs = 0

omit [IsStrictOrderedRing K] in
theorem configured_recoverable (sqrtTwo : K) (c : WorkmodeConfig K) :
    Recoverable sqrtTwo c (configured sqrtTwo c) where
  toolhead := init_toolheadReady sqrtTwo c
  stepperA := Driver.init_of sqrtTwo c.stepperA
  stepperB := Driver.init_of sqrtTwo c.stepperB
  stepperC := ⟨Driver.init_of sqrtTwo c.stepperC, rfl, rfl⟩
  extruder := ⟨Driver.init_of sqrtTwo c.extruder, rfl, rfl⟩
  thresholdA := tpwmthrs_init_of_zero sqrtTwo
  thresholdB := tpwmthrs_init_of_zero sqrtTwo

omit [IsStrictOrderedRing K] in
theorem silent_tpwmthrs {sqrtTwo : K} {c c' : DriverConfig K} {d : Driver K}
    (hd : Driver.Of sqrtTwo c d) {stealthchop : K} (hzero : stealthchop = 0 → d.tpwmthrs = 0)
    (hown : c.stealthchopThreshold = 0)
    (h : stealthchop = 0 ∨ c.stealthchopThreshold ≠ 0 ∨
      Driver.threshold c' c.mres stealthchop = 0) :
    (d.setStealthchop c' stealthchop).tpwmthrs = 0 := by
  rw [Driver.setStealthchop]
  split
  · rename_i hs
    exact hzero hs
  · rename_i hne
    obtain hs | hs | hs := h
    · exact absurd hs hne
    · exact absurd hown hs
    · rw [← hd.mres] at hs
      exact hs

omit [IsStrictOrderedRing K] in
theorem silent_recoverable {sqrtTwo : K} {c : WorkmodeConfig K} (hruns : SilentRuns c)
    (herased : SilentErased c) :
    Recoverable sqrtTwo c (silentSettings sqrtTwo c (configured sqrtTwo c)) := by
  have hready := init_toolheadReady sqrtTwo c
  have hA := (Driver.init_of sqrtTwo c.stepperA).setStealthchop c.stepperA c.silentStealthchop
  have hB := (Driver.init_of sqrtTwo c.stepperB).setStealthchop c.stepperB c.silentStealthchop
  have haccel : (silentLimits c).maxAccel ≠ 0 := hruns.maxAccel
  obtain ⟨hnormal, hrequested, hraised⟩ :=
    setVelocityLimitx_frame sqrtTwo haccel hready.maxAccel_ne
  refine ⟨⟨hnormal.trans hready.normal, hrequested.trans hready.requested,
    hraised.trans hready.raised⟩, (hA.setStealthchop _ _).setCurrent _, hB.setCurrent _,
    ⟨(Driver.init_of sqrtTwo c.stepperC).setCurrent _, rfl, rfl⟩,
    ⟨(Driver.init_of sqrtTwo c.extruder).setCurrent _, rfl, rfl⟩, fun hown => ?_, fun hown => ?_⟩
  · refine silent_tpwmthrs hA (fun hs => ?_) hown herased.stepperA
    rw [hs, tpwmthrs_of_zero]
    exact tpwmthrs_init_of_zero sqrtTwo hown
  · exact silent_tpwmthrs (Driver.init_of sqrtTwo c.stepperB)
      (fun _ => tpwmthrs_init_of_zero sqrtTwo hown) hown herased.stepperB

omit [IsStrictOrderedRing K] in
theorem normalSettings_eq {sqrtTwo : K} {c : WorkmodeConfig K} (hnormal : NormalRestores sqrtTwo c)
    {s : Settings K} (hs : Recoverable sqrtTwo c s) :
    normalSettings sqrtTwo c s = configured sqrtTwo c := by
  have htoolhead := inEffect_setVelocityLimitx_eq hs.toolhead (l := ToolheadLimits.startLimit)
    hnormal.maxVelocity hnormal.maxAccel hnormal.squareCorner
  have hA := (hs.stepperA.setStealthchop c.stepperA c.stepperA.stealthchopThreshold).restored
    hnormal.stealthchopA hnormal.currentA (fun hzero => by
      have hown := hnormal.stealthchopA.1.mp hzero
      rw [hown, tpwmthrs_of_zero]
      exact hs.thresholdA hown)
  have hB := hs.stepperB.restored (Driver.stealthchopKept_own c.stepperB) hnormal.currentB
    hs.thresholdB
  have hC := hs.stepperC.toOf.setCurrent_eq hnormal.currentC hs.stepperC.tpwmthrs
    hs.stepperC.enPwmMode
  have hE := hs.extruder.toOf.setCurrent_eq hnormal.extruder hs.extruder.tpwmthrs
    hs.extruder.enPwmMode
  rw [normalSettings, configured, htoolhead, hA, hB, hC, hE]

omit [IsStrictOrderedRing K] in
theorem silentSettings_eq {sqrtTwo : K} {c : WorkmodeConfig K}
    (hsilent : SilentIsConfigured sqrtTwo c) :
    silentSettings sqrtTwo c (configured sqrtTwo c) = configured sqrtTwo c := by
  have hs := configured_recoverable sqrtTwo c
  have htoolhead := inEffect_setVelocityLimitx_eq hs.toolhead (l := silentLimits c)
    hsilent.maxVelocity hsilent.maxAccel hsilent.squareCorner
  have hA := (hs.stepperA.setStealthchop c.stepperA c.silentStealthchop).restored
    hsilent.stealthchopA hsilent.currentA (fun hzero => by
      rw [hzero, tpwmthrs_of_zero]
      exact hs.thresholdA (hsilent.stealthchopA.1.mp hzero))
  have hB := hs.stepperB.restored hsilent.stealthchopB hsilent.currentB
    fun hzero => hs.thresholdB (hsilent.stealthchopB.1.mp hzero)
  have hC := hs.stepperC.toOf.setCurrent_eq hsilent.currentC hs.stepperC.tpwmthrs
    hs.stepperC.enPwmMode
  have hE := hs.extruder.toOf.setCurrent_eq hsilent.extruder hs.extruder.tpwmthrs
    hs.extruder.enPwmMode
  rw [silentSettings, htoolhead, hA, hB, hC, hE, hsilent.fan, hsilent.heatSinkFan,
    ← hsilent.maxZVelocity, configured]

/-! ## Runs of commands -/

/-- The settings are those that a direct switch to the mode gives, whatever the heaters, and
the configured ones in the normal mode. -/
def PathIndependent (sqrtTwo : K) (c : WorkmodeConfig K) (g : GCodeMove K) (s : WorkState K) :
    Prop :=
  (∀ heaterOn, s.settings =
    ((WorkState.init sqrtTwo c g).command sqrtTwo c ⟨s.workMode, heaterOn⟩).settings) ∧
  (s.workMode = 0 → s.settings = configured sqrtTwo c)

/-- What a mode and the settings have to do with each other. -/
structure ModeSettings (sqrtTwo : K) (c : WorkmodeConfig K) (s : WorkState K) : Prop where
  mode : s.workMode = 0 ∨ s.workMode = 1 ∨ s.workMode = 2 ∨ s.workMode = 3
  loud : s.workMode ≠ 3 → s.settings = configured sqrtTwo c
  silent : s.workMode = 3 →
    SilentRuns c ∧ s.settings = silentSettings sqrtTwo c (configured sqrtTwo c)

omit [IsStrictOrderedRing K] in
theorem modeSettings_of_configured {sqrtTwo : K} {c : WorkmodeConfig K} {s : WorkState K}
    (hmode : s.workMode = 0 ∨ s.workMode = 1 ∨ s.workMode = 2)
    (hs : s.settings = configured sqrtTwo c) : ModeSettings sqrtTwo c s := by
  refine ⟨by omega, fun _ => hs, fun h3 => ?_⟩
  omega

omit [FloorRing K] [IsStrictOrderedRing K] in
theorem ToolheadReady.of_settings {sqrtTwo : K} {c : WorkmodeConfig K} {s : WorkState K}
    (h : ToolheadReady sqrtTwo c s.settings.toolhead) : ToolheadReady sqrtTwo c s.toolhead :=
  ⟨h.normal, h.requested, h.raised⟩

omit [IsStrictOrderedRing K] in
theorem switch_silent {sqrtTwo : K} {c : WorkmodeConfig K} (hruns : SilentRuns c)
    {s : WorkState K} (hs : s.settings = configured sqrtTwo c) (heaterOn : Bool) :
    (s.switch (switchToSilent sqrtTwo c heaterOn) 3).workMode = 3 ∧
    (s.switch (switchToSilent sqrtTwo c heaterOn) 3).settings =
      silentSettings sqrtTwo c (configured sqrtTwo c) := by
  have hready : ToolheadReady sqrtTwo c s.settings.toolhead := by
    rw [hs]
    exact init_toolheadReady sqrtTwo c
  obtain ⟨hends, hsettings⟩ := switchToSilent_settings hruns hready.of_settings heaterOn
  rw [WorkState.switch, if_pos hends]
  exact ⟨rfl, hsettings.trans (by rw [hs])⟩

/-- A command that meets the condition keeps the settings and the mode together. -/
theorem command_modeSettings {sqrtTwo : K} {c : WorkmodeConfig K} {s : WorkState K}
    (hs : ModeSettings sqrtTwo c s) (e : WorkmodeCommand)
    (hcond : WorkmodeCondition sqrtTwo c s e) :
    ModeSettings sqrtTwo c (s.command sqrtTwo c e) := by
  rw [WorkState.command]
  split
  · exact hs
  rename_i hne
  obtain ⟨hnormal, hloud, hsilent⟩ := hcond hne
  split
  · -- to the normal mode
    rename_i hmode
    obtain ⟨hrestores, herased⟩ := hnormal hmode
    have hrecoverable : Recoverable sqrtTwo c s.settings := by
      by_cases h3 : s.workMode = 3
      · rw [(hs.silent h3).2]
        exact silent_recoverable (hs.silent h3).1 (herased h3)
      · rw [hs.loud h3]
        exact configured_recoverable sqrtTwo c
    obtain ⟨hends, hsettings⟩ :=
      switchToNormal_settings hrecoverable.toolhead.of_settings e.heaterOn
    rw [WorkState.switch, if_pos hends]
    exact modeSettings_of_configured (Or.inl rfl)
      (hsettings.trans (normalSettings_eq hrestores hrecoverable))
  have hkept (h : e.mode = 1 ∨ e.mode = 2) : s.settings = configured sqrtTwo c := by
    by_cases h3 : s.workMode = 3
    · rw [(hs.silent h3).2, silentSettings_eq (hloud h h3)]
    · exact hs.loud h3
  split
  · rename_i hmode
    exact modeSettings_of_configured (Or.inr (Or.inl rfl)) (hkept (Or.inl hmode))
  split
  · rename_i hmode
    exact modeSettings_of_configured (Or.inr (Or.inr rfl)) (hkept (Or.inr hmode))
  split
  · -- to the silent mode
    rename_i hmode
    have hconfigured := hs.loud fun h3 => hne (h3.trans hmode.symm)
    obtain ⟨hmode', hsettings⟩ := switch_silent (hsilent hmode) hconfigured e.heaterOn
    exact ⟨Or.inr (Or.inr (Or.inr hmode')), fun h => absurd hmode' h,
      fun _ => ⟨hsilent hmode, hsettings⟩⟩
  · exact hs

omit [IsStrictOrderedRing K] in
theorem ModeSettings.pathIndependent {sqrtTwo : K} {c : WorkmodeConfig K} {s : WorkState K}
    (hs : ModeSettings sqrtTwo c s) (g : GCodeMove K) : PathIndependent sqrtTwo c g s := by
  have hinit : (WorkState.init sqrtTwo c g).settings = configured sqrtTwo c := rfl
  refine ⟨fun heaterOn => ?_, fun h0 => hs.loud fun h3 => absurd (h0.symm.trans h3) (by decide)⟩
  obtain h | h | h | h := hs.mode
  · rw [h]
    exact hs.loud (by rw [h]; decide)
  · rw [h]
    exact hs.loud (by rw [h]; decide)
  · rw [h]
    exact hs.loud (by rw [h]; decide)
  · rw [h]
    obtain ⟨hruns, hsettings⟩ := hs.silent h
    exact hsettings.trans (switch_silent hruns hinit heaterOn).2.symm

/-- **The settings do not depend on the path of the modes**, in every run of commands that
meet the condition. -/
theorem command_pathIndependent {sqrtTwo : K} {c : WorkmodeConfig K} {g : GCodeMove K}
    {l : List WorkmodeCommand} {t : WorkState K}
    (h : Run (fun s e t => t = s.command sqrtTwo c e ∧ WorkmodeCondition sqrtTwo c s e)
      (.init sqrtTwo c g) l t) : PathIndependent sqrtTwo c g t := by
  refine (h.invariant (P := ModeSettings sqrtTwo c)
    (modeSettings_of_configured (Or.inl rfl) rfl)
    fun s e t hs hstep => ?_).pathIndependent g
  obtain ⟨rfl, hcond⟩ := hstep
  exact command_modeSettings hs e hcond

/-! ## The configuration of the printer -/

/-- `[tmc5160 stepper_a]`, and those of the other two steppers. -/
def stepperSection : DriverConfig ℚ where
  rotationDist := 60
  stepsPerRotation := 6400
  mres := 3
  runCurrent := 3
  holdCurrent := 8 / 5
  senseResistor := 3 / 80
  stealthchopThreshold := 0
  runCurrent_pos := by norm_num
  runCurrent_le := by norm_num

/-- `[tmc5160 extruder]` -/
def extruderSection : DriverConfig ℚ where
  rotationDist := 9 / 2
  stepsPerRotation := 3200
  mres := 4
  runCurrent := 6 / 5
  holdCurrent := 3 / 10
  senseResistor := 3 / 80
  stealthchopThreshold := 0
  runCurrent_pos := by norm_num
  runCurrent_le := by norm_num

/-- `printer.cfg` -/
def printerConfig : WorkmodeConfig ℚ where
  velocity := ⟨1000, 30000, 8000, 5⟩
  maxZVelocity := 1000
  fanMaxPower := 3 / 5
  fanOffBelow := 0
  heatSinkFanSpeed := 1
  stepperA := stepperSection
  stepperB := stepperSection
  stepperC := stepperSection
  extruder := extruderSection
  silentVelocity := ⟨300, 6000, 2000, 5⟩
  silentStealthchop := 0
  silentExtruderRunCurrent := 6 / 5
  silentStepAbcRunCurrent := 3
  silentFanMaxPower := 3 / 10
  silentHeatSinkFanSpeed := 1 / 2
  maxAccel_pos := by norm_num

/-- `math.sqrt(2.)`, to a few digits. -/
def sqrtTwoDigits : ℚ := 14142136 / 10000000

omit [IsStrictOrderedRing K] in
theorem currentKept_of_eq {sqrtTwo : K} {c : DriverConfig K} {current : K}
    (h : current = c.runCurrent) : CurrentKept sqrtTwo c current := by
  rw [h]
  exact ⟨rfl, rfl⟩

theorem printerConfig_normalRestores : NormalRestores sqrtTwoDigits printerConfig where
  maxVelocity := by norm_num [printerConfig]
  maxAccel := by norm_num [printerConfig]
  squareCorner := by norm_num [printerConfig]
  stealthchopA := Driver.stealthchopKept_own stepperSection
  currentA := currentKept_of_eq (by decide +kernel)
  currentB := currentKept_of_eq (by decide +kernel)
  currentC := currentKept_of_eq (by decide +kernel)
  extruder := currentKept_of_eq (by decide +kernel)

theorem printerConfig_silentRuns : SilentRuns printerConfig where
  maxAccel := by norm_num [printerConfig]
  extruder := by decide +kernel
  steppers := by decide +kernel

theorem printerConfig_condition (s : WorkState ℚ) {e : WorkmodeCommand}
    (h : e.mode = 0 ∨ e.mode = 3) : WorkmodeCondition sqrtTwoDigits printerConfig s e := by
  intro _
  refine ⟨fun _ => ⟨printerConfig_normalRestores, fun _ => ⟨Or.inl rfl, Or.inl rfl⟩⟩,
    fun hmode _ => ?_, fun _ => printerConfig_silentRuns⟩
  omega

theorem pathIndependent_of_silent_normal :
    PathIndependent sqrtTwoDigits printerConfig (.init fun _ => 0)
      ([⟨3, true⟩, ⟨0, true⟩, ⟨3, false⟩].foldl (WorkState.command sqrtTwoDigits printerConfig)
        (.init sqrtTwoDigits printerConfig (.init fun _ => 0))) := by
  refine command_pathIndependent (l := [⟨3, true⟩, ⟨0, true⟩, ⟨3, false⟩]) ?_
  refine ((Run.iff_foldl.mpr rfl).and_events (C := fun e => e.mode = 0 ∨ e.mode = 3) ?_).mono
    fun s e t h => ⟨h.1, printerConfig_condition s h.2⟩
  decide

/-- After the silent mode, a mode that writes nothing keeps `max_z_velocity` of 100. -/
theorem maxZVelocity_after_silent :
    ¬PathIndependent sqrtTwoDigits printerConfig (.init fun _ => 0)
      ([⟨3, true⟩, ⟨1, true⟩].foldl (WorkState.command sqrtTwoDigits printerConfig)
        (.init sqrtTwoDigits printerConfig (.init fun _ => 0))) := by
  rintro ⟨h, -⟩
  have hz := congrArg Settings.maxZVelocity (h true)
  refine absurd hz ?_
  decide +kernel

end FlsunT1.Klippy
