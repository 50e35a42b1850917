/-
  Mcu/Stepper.lean --- the stepper object of the firmware.

  Source: klipper/src/stepper.c.  Modelled are the commands and callbacks of a
  stepper whose timer function is `stepper_event` (flag `SF_SINGLE_SCHED`), for
  both builds that define `HAVE_SINGLE_SCHEDULE`.  `stepper_event_full`, the
  callback of the steppers without that flag, is not.

  A function that may call `shutdown()` returns an `Option`, with `none` for the
  shutdown.  The pins are kept as the levels that the writes and toggles leave.
-/
import FlsunT1.Mcu.Timer

set_option autoImplicit false

namespace FlsunT1.Mcu

open FlsunT1.Library

/-- The builds of stepper.c that define `HAVE_SINGLE_SCHEDULE`. -/
inductive StepperBuild
  /-- `CONFIG_HAVE_STEPPER_BOTH_EDGE`: `HAVE_EDGE_OPTIMIZATION` -/
  | bothEdge
  /-- `CONFIG_MACH_AVR`: `HAVE_AVR_OPTIMIZATION` -/
  | avr
  deriving DecidableEq, Repr

/-- `HAVE_EDGE_OPTIMIZATION` -/
def StepperBuild.haveEdgeOptimization (b : StepperBuild) : Bool := b == .bothEdge

/-- `HAVE_AVR_OPTIMIZATION` -/
def StepperBuild.haveAvrOptimization (b : StepperBuild) : Bool := b == .avr

/-- `struct stepper_move`, with `flags & MF_DIR` as a Boolean. -/
structure StepperMove where
  interval : Int
  add : Int
  count : Int
  mfDir : Bool
  deriving DecidableEq, Repr

/-- The `SF_*` flags of a stepper. -/
structure StepperFlags where
  lastDir : Bool
  nextDir : Bool
  invertStep : Bool
  needReset : Bool
  singleSched : Bool
  haveAdd : Bool
  deriving DecidableEq, Repr

/-- `struct stepper`.  `timerPending` records whether `time` is on the timer
list, `stepPin` and `dirPin` the levels of the two pins. -/
structure Stepper where
  waketime : Int
  timerPending : Bool
  interval : Int
  add : Int
  count : Int
  nextStepTime : Int
  stepPin : Bool
  dirPin : Bool
  position : Int
  mq : List StepperMove
  flags : StepperFlags
  deriving DecidableEq, Repr

/-- `POSITION_BIAS` -/
def positionBias : Int := 0x40000000

/-- `AVR_STEP_INSNS` -/
def avrStepInsns : Int := 40

/-- `stepper_load_next`: set up the stepper for the next move in its queue. -/
def stepperLoadNext (b : StepperBuild) (s : Stepper) : Stepper × TimerResult :=
  match s.mq with
  | [] => ({ s with count := 0 }, .done)
  | m :: mq =>
      let s := { s with mq := mq, add := m.add, interval := u32 (m.interval + m.add) }
      let s :=
        if s.flags.singleSched then
          { s with
            waketime := u32 (s.waketime + m.interval)
            flags :=
              if b.haveAvrOptimization then { s.flags with haveAdd := m.add != 0 }
              else s.flags
            count := m.count }
        else
          -- twice as many events, for the unstep
          { s with
            nextStepTime := u32 (s.nextStepTime + m.interval)
            waketime := u32 (s.nextStepTime + m.interval)
            count := m.count * 2 }
      -- all steps of the move are added in advance
      let s :=
        if m.mfDir then
          { s with position := u32 (-s.position + m.count), dirPin := !s.dirPin }
        else { s with position := u32 (s.position + m.count) }
      (s, .reschedule)

/-- `stepper_event_edge`: one step on one edge of the step pin. -/
def stepperEventEdge (b : StepperBuild) (s : Stepper) : Stepper × TimerResult :=
  let s := { s with stepPin := !s.stepPin }
  let count := u32 (s.count - 1)
  if count ≠ 0 then
    ({ s with
        count := count
        waketime := u32 (s.waketime + s.interval)
        interval := u32 (s.interval + s.add) }, .reschedule)
  else stepperLoadNext b s

/-- `stepper_event_avr`: a step and an unstep in one event, counting in the low
half of `count`. -/
def stepperEventAvr (b : StepperBuild) (s : Stepper) : Stepper × TimerResult :=
  let s := { s with stepPin := !s.stepPin }
  let count := u16 (s.count - 1)
  if count ≠ 0 then
    ({ s with
        count := s.count - u16 s.count + count
        waketime := u32 (s.waketime + s.interval)
        stepPin := !s.stepPin
        interval := if s.flags.haveAdd then u32 (s.interval + s.add) else s.interval },
      .reschedule)
  else
    let (s, res) := stepperLoadNext b s
    ({ s with stepPin := !s.stepPin }, res)

/-- `stepper_event` -/
def stepperEvent (b : StepperBuild) (s : Stepper) : Stepper × TimerResult :=
  if b.haveEdgeOptimization then stepperEventEdge b s else stepperEventAvr b s

/-- `command_config_stepper`, for the arguments the stepper keeps. -/
def configStepper (b : StepperBuild) (invertStep stepPulseTicks : Int) : Stepper where
  waketime := 0
  timerPending := false
  interval := 0
  add := 0
  count := 0
  nextStepTime := 0
  stepPin := decide (0 < invertStep)
  dirPin := false
  position := u32 (-positionBias)
  mq := []
  flags :=
    { lastDir := false
      nextDir := false
      invertStep := decide (0 < invertStep)
      needReset := false
      singleSched :=
        if b.haveEdgeOptimization then decide (stepPulseTicks = 0 ∧ invertStep < 0)
        else decide (stepPulseTicks ≤ avrStepInsns)
      haveAdd := false }

/-- `command_queue_step`: schedule a set of steps with a given timing. -/
def commandQueueStep (b : StepperBuild) (interval count add : Int) (s : Stepper) :
    Option Stepper :=
  if u16 count = 0 then
    -- shutdown("Invalid count parameter")
    none
  else
    let turn := s.flags.lastDir != s.flags.nextDir
    let m : StepperMove :=
      { interval := u32 interval, count := u16 count, add := i16 add, mfDir := turn }
    let flags := { s.flags with lastDir := if turn then !s.flags.lastDir else s.flags.lastDir }
    if s.count ≠ 0 then
      some { s with flags := flags, mq := s.mq ++ [m] }
    else if flags.needReset then
      -- the move is freed and the flags are left as they were
      some s
    else
      let (s, _) := stepperLoadNext b { s with flags := flags, mq := s.mq ++ [m] }
      some { s with timerPending := true }

/-- `command_set_next_step_dir` -/
def commandSetNextStepDir (dir : Int) (s : Stepper) : Stepper :=
  { s with flags := { s.flags with nextDir := dir != 0 } }

/-- `command_reset_step_clock` -/
def commandResetStepClock (waketime : Int) (s : Stepper) : Option Stepper :=
  if s.count ≠ 0 then
    -- shutdown("Can't reset time when stepper active")
    none
  else
    some
      { s with
        nextStepTime := u32 waketime
        waketime := u32 waketime
        flags := { s.flags with needReset := false } }

/-- `stepper_get_position` -/
def stepperGetPosition (s : Stepper) : Int :=
  let position :=
    if s.flags.singleSched then u32 (s.position - s.count)
    else u32 (s.position - s.count / 2)
  -- the top bit of the position is the reverse direction flag
  if 0x80000000 ≤ position then u32 (-position) else position

/-- The value `command_stepper_get_position` reports as `pos=%i`. -/
def reportedPosition (s : Stepper) : Int := i32 (stepperGetPosition s - positionBias)

/-- `stepper_stop`: stop all moves of the stepper. -/
def stepperStop (b : StepperBuild) (s : Stepper) : Stepper :=
  { s with
    timerPending := false
    nextStepTime := 0
    waketime := 0
    position := u32 (-stepperGetPosition s)
    count := 0
    flags :=
      { lastDir := false
        nextDir := false
        invertStep := s.flags.invertStep
        needReset := true
        singleSched := s.flags.singleSched
        haveAdd := false }
    dirPin := false
    stepPin :=
      if b.haveEdgeOptimization && s.flags.singleSched then s.stepPin
      else s.flags.invertStep
    mq := [] }

end FlsunT1.Mcu
