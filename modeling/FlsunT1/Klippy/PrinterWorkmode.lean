/-
  Klippy/PrinterWorkmode.lean --- the work modes (klippy/extras/printer_workmode.py).

  A switch writes its settings one after the other: the registers and the currents of
  the stepper drivers, the two fans, the limits of the toolhead and the speed factor.
  A write that raises an exception ends the switch; what was written before stays.
-/
import FlsunT1.Klippy.GcodeMove
import FlsunT1.Klippy.VelocityLimits
import FlsunT1.Library.Rounding

set_option autoImplicit false

namespace FlsunT1.Klippy

open Library

variable {K : Type} [Field K] [LinearOrder K] [FloorRing K]

/-! ## A stepper driver (klippy/extras/tmc5160.py) -/

/-- What the configuration says of a stepper and of its driver, with the bounds that are
checked of `run_current`. -/
structure DriverConfig (K : Type) [Field K] [LinearOrder K] where
  rotationDist : K
  stepsPerRotation : K
  mres : ℕ
  runCurrent : K
  holdCurrent : K
  senseResistor : K
  stealthchopThreshold : K
  runCurrent_pos : 0 < runCurrent
  runCurrent_le : runCurrent ≤ 4

/-- The fields of a driver that the modes write, and those that the writes read. -/
structure Driver (K : Type) where
  tpwmthrs : ℤ
  enPwmMode : Bool
  irun : ℤ
  ihold : ℤ
  globalscaler : ℤ
  mres : ℕ
  senseResistor : K
  reqHoldCurrent : K
  deriving DecidableEq

namespace Driver

/-- `tpwmthrs` for a velocity, of a stepper with the geometry of `c`. -/
def threshold (c : DriverConfig K) (mres : ℕ) (velocity : K) : ℤ :=
  max 0 (min 0xfffff
    (truncate (12000000 * (c.rotationDist / c.stepsPerRotation / 2 ^ mres) / velocity + 1 / 2)))

/-- `set_stealthchop`, for a stepper with the geometry of `c`. -/
def setStealthchop (c : DriverConfig K) (stealthchop : K) (d : Driver K) : Driver K :=
  if stealthchop = 0 then { d with enPwmMode := false }
  else { d with tpwmthrs := threshold c d.mres stealthchop, enPwmMode := true }

/-- `_set_globalscaler` -/
def globalscalerOf (sqrtTwo senseResistor current : K) : ℤ :=
  let globalscaler :=
    max 32 (truncate (current * 256 * sqrtTwo * senseResistor / (325 / 1000) + 1 / 2))
  if 256 ≤ globalscaler then 0 else globalscaler

/-- `_calc_current_bits` -/
def currentBits (sqrtTwo : K) (d : Driver K) (current : K) : ℤ :=
  let globalscaler : ℤ := if d.globalscaler = 0 then 256 else d.globalscaler
  let cs := truncate (current * 256 * 32 * sqrtTwo * d.senseResistor /
    (globalscaler * (325 / 1000)) - 1 + 1 / 2)
  max 0 (min 31 cs)

/-- `set_current` -/
def setCurrent (sqrtTwo runCurrent : K) (d : Driver K) : Driver K :=
  { d with
    irun := d.currentBits sqrtTwo runCurrent
    ihold := d.currentBits sqrtTwo (min d.reqHoldCurrent runCurrent) }

/-- The driver as it is configured. -/
def init (sqrtTwo : K) (c : DriverConfig K) : Driver K :=
  setStealthchop c c.stealthchopThreshold <| setCurrent sqrtTwo c.runCurrent
    { tpwmthrs := 0, enPwmMode := false, irun := 0, ihold := 0
      globalscaler := globalscalerOf sqrtTwo c.senseResistor c.runCurrent
      mres := c.mres, senseResistor := c.senseResistor, reqHoldCurrent := c.holdCurrent }

end Driver

/-! ## The printer -/

/-- What the modes read of the configuration. -/
structure WorkmodeConfig (K : Type) [Field K] [LinearOrder K] where
  velocity : VelocityValues K
  maxZVelocity : K
  fanMaxPower : K
  fanOffBelow : K
  heatSinkFanSpeed : K
  stepperA : DriverConfig K
  stepperB : DriverConfig K
  stepperC : DriverConfig K
  extruder : DriverConfig K
  silentVelocity : VelocityValues K
  silentStealthchop : K
  silentExtruderRunCurrent : K
  silentStepAbcRunCurrent : K
  silentFanMaxPower : K
  silentHeatSinkFanSpeed : K
  maxAccel_pos : 0 < velocity.maxAccel

/-- `class Fan` with the speed that it was set to. -/
structure PartFan (K : Type) where
  maxPower : K
  offBelow : K
  curSetSpeed : K
  lastFanValue : K

/-- `set_speed` -/
def PartFan.setSpeed (fan : PartFan K) (value : K) : PartFan K :=
  let power := if value < fan.offBelow then 0 else value
  { fan with
    curSetSpeed := value
    lastFanValue := max 0 (min fan.maxPower (power * fan.maxPower)) }

/-- `class PrinterHeaterFan` -/
structure HeatSinkFan (K : Type) where
  fanSpeed : K
  lastSpeed : K

/-- `callback`; `heaterOn` says that a heater has a target or is warm. -/
def HeatSinkFan.callback (heaterOn : Bool) (fan : HeatSinkFan K) : HeatSinkFan K :=
  { fan with lastSpeed := if heaterOn then fan.fanSpeed else 0 }

/-- `class PrinterWorkMode` and the objects that it sets. -/
structure WorkState (K : Type) where
  workMode : ℤ
  toolhead : ToolheadLimits K
  maxZVelocity : K
  gcodeMove : GCodeMove K
  fan : PartFan K
  heatSinkFan : HeatSinkFan K
  stepperA : Driver K
  stepperB : Driver K
  stepperC : Driver K
  extruder : Driver K

/-- The printer as it is configured. -/
def WorkState.init (sqrtTwo : K) (c : WorkmodeConfig K) (g : GCodeMove K) : WorkState K where
  workMode := 0
  toolhead := .init sqrtTwo c.velocity
  maxZVelocity := c.maxZVelocity
  gcodeMove := g
  fan := ⟨c.fanMaxPower, c.fanOffBelow, 0, 0⟩
  heatSinkFan := ⟨c.heatSinkFanSpeed, 0⟩
  stepperA := .init sqrtTwo c.stepperA
  stepperB := .init sqrtTwo c.stepperB
  stepperC := .init sqrtTwo c.stepperC
  extruder := .init sqrtTwo c.extruder

/-! ## The writes of a switch -/

/-- A write, and whether it ends without an exception. -/
abbrev Write (K : Type) := WorkState K → WorkState K × Bool

/-- The writes in their order, up to one that raises an exception. -/
def runWrites : List (Write K) → Write K
  | [], s => (s, true)
  | write :: writes, s =>
    match write s with
    | (s, true) => runWrites writes s
    | (s, false) => (s, false)

/-- `set_stealthchop` of the three steppers.  The driver that is kept for the third one is
`tmc5160 stepper_a`, too. -/
def writeStealthchop (c : WorkmodeConfig K) (a b c' : K) : List (Write K) :=
  [fun s => ({ s with stepperA := s.stepperA.setStealthchop c.stepperA a }, true),
    fun s => ({ s with stepperB := s.stepperB.setStealthchop c.stepperB b }, true),
    fun s => ({ s with stepperA := s.stepperA.setStealthchop c.stepperC c' }, true)]

/-- The bounds of `CURRENT`, from 0 to `MAX_CURRENT`. -/
def currentAccepted (current : K) : Bool := 0 ≤ current && current ≤ 4

/-- `SET_TMC_CURRENT` of the extruder and of the three steppers. -/
def writeCurrents (sqrtTwo e a b c : K) : List (Write K) :=
  [fun s => if currentAccepted e then
      ({ s with extruder := s.extruder.setCurrent sqrtTwo e }, true) else (s, false),
    fun s => if currentAccepted a then
      ({ s with stepperA := s.stepperA.setCurrent sqrtTwo a }, true) else (s, false),
    fun s => if currentAccepted b then
      ({ s with stepperB := s.stepperB.setCurrent sqrtTwo b }, true) else (s, false),
    fun s => if currentAccepted c then
      ({ s with stepperC := s.stepperC.setCurrent sqrtTwo c }, true) else (s, false)]

/-- The part of a switch for the two fans. -/
def writeFans (maxPower fanSpeed : K) (heaterOn : Bool) : List (Write K) :=
  [fun s => ({ s with fan := { s.fan with maxPower := maxPower }.setSpeed s.fan.curSetSpeed },
      true),
    fun s => ({ s with
      heatSinkFan := { s.heatSinkFan with fanSpeed := fanSpeed }.callback heaterOn }, true)]

/-- `set_velocity_limitx` and `max_z_velocity`. -/
def writeVelocities (sqrtTwo : K) (l : VelocityValues K) (maxZVelocity : K) : List (Write K) :=
  [fun s => ({ s with toolhead := s.toolhead.setVelocityLimitx sqrtTwo l },
      !(s.toolhead.setVelocityLimitx sqrtTwo l).raised),
    fun s => ({ s with maxZVelocity := maxZVelocity }, true)]

/-- `M220 S` -/
def writeSpeed (percent : K) : Write K :=
  fun s => ({ s with gcodeMove := s.gcodeMove.setSpeedFactor (percent / (60 * 100)) }, true)

/-! ## The modes -/

/-- A number after `'{:.1f}'` and back. -/
def format1 (v : K) : K := roundHalfEven (v * 10) / 10

/-- `switch_to_normal` -/
def switchToNormal (sqrtTwo : K) (c : WorkmodeConfig K) (heaterOn : Bool) : Write K :=
  runWrites <|
    writeStealthchop c c.stepperA.stealthchopThreshold c.stepperB.stealthchopThreshold
      c.stepperC.stealthchopThreshold ++
    writeCurrents sqrtTwo (format1 c.extruder.runCurrent) (format1 c.stepperA.runCurrent)
      (format1 c.stepperB.runCurrent) (format1 c.stepperC.runCurrent) ++
    writeFans c.fanMaxPower c.heatSinkFanSpeed heaterOn ++
    writeVelocities sqrtTwo ⟨99999999, 99999999, 99999999, 99999999⟩ c.maxZVelocity ++
    [writeSpeed 100]

/-- `switch_to_violent` -/
def switchToViolent : Write K := fun s => (s, true)

/-- `switch_to_sports` -/
def switchToSports : Write K := fun s => (s, true)

/-- `switch_to_silent`.  The last two arguments of `set_velocity_limitx` come in another order
than its parameters. -/
def switchToSilent (sqrtTwo : K) (c : WorkmodeConfig K) (heaterOn : Bool) : Write K :=
  runWrites <|
    [writeSpeed 66] ++
    writeVelocities sqrtTwo
      { c.silentVelocity with
        accelToDecel := c.silentVelocity.squareCorner
        squareCorner := c.silentVelocity.accelToDecel } 100 ++
    writeStealthchop c c.silentStealthchop c.silentStealthchop c.silentStealthchop ++
    writeCurrents sqrtTwo c.silentExtruderRunCurrent c.silentStepAbcRunCurrent
      c.silentStepAbcRunCurrent c.silentStepAbcRunCurrent ++
    writeFans c.silentFanMaxPower c.silentHeatSinkFanSpeed heaterOn

/-- A switch, and the new mode when it ends without an exception. -/
def WorkState.switch (write : Write K) (mode : ℤ) (s : WorkState K) : WorkState K :=
  if (write s).2 then { (write s).1 with workMode := mode } else (write s).1

/-- `PRINTER_WORKMODE M=`, with the state of the heaters. -/
structure WorkmodeCommand where
  mode : ℤ
  heaterOn : Bool

/-- `cmd_PRINTER_WORKMODE` -/
def WorkState.command (sqrtTwo : K) (c : WorkmodeConfig K) (s : WorkState K)
    (e : WorkmodeCommand) : WorkState K :=
  if s.workMode = e.mode then s
  else if e.mode = 0 then s.switch (switchToNormal sqrtTwo c e.heaterOn) 0
  else if e.mode = 1 then s.switch switchToViolent 1
  else if e.mode = 2 then s.switch switchToSports 2
  else if e.mode = 3 then s.switch (switchToSilent sqrtTwo c e.heaterOn) 3
  else s

end FlsunT1.Klippy
