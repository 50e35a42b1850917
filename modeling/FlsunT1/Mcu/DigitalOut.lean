/-
  Mcu/DigitalOut.lean --- the digital output pins of the firmware.

  Source: klipper/src/gpiocmds.c.  A function that may call `shutdown()` returns
  an `Option`, with `none` for the shutdown; what the shutdown handler then does
  to the pin is `digitalOutShutdown`.  The argument `now` stands for
  `timer_read_time()`.
-/
import FlsunT1.Mcu.Timer

set_option autoImplicit false

namespace FlsunT1.Mcu

open FlsunT1.Library

/-- `struct digital_move` -/
structure DigitalMove where
  waketime : Int
  onDuration : Int
  deriving DecidableEq, Repr

/-- The `DF_*` flags of a digital output. -/
structure DigitalFlags where
  on : Bool
  toggling : Bool
  checkEnd : Bool
  defaultOn : Bool
  deriving DecidableEq, Repr

/-- The two callbacks that `timer.func` may hold. -/
inductive DigitalFunc
  /-- `digital_toggle_event` -/
  | toggle
  /-- `digital_load_event` -/
  | load
  deriving DecidableEq, Repr

/-- `struct digital_out_s`.  `timerPending` records whether `timer` is on the
timer list, `pin` the level of the pin. -/
structure DigitalOut where
  waketime : Int
  func : DigitalFunc
  timerPending : Bool
  onDuration : Int
  offDuration : Int
  endTime : Int
  pin : Bool
  maxDuration : Int
  cycleTime : Int
  mq : List DigitalMove
  flags : DigitalFlags
  deriving DecidableEq, Repr

/-- `digital_toggle_event`: software PWM toggle event. -/
def digitalToggleEvent (d : DigitalOut) : DigitalOut × TimerResult :=
  let d := { d with pin := !d.pin, flags := { d.flags with on := !d.flags.on } }
  let waketime := u32 (d.waketime + if d.flags.on then d.onDuration else d.offDuration)
  if d.flags.checkEnd ∧ ¬ timerIsBefore waketime d.endTime then
    -- end of normal pulsing: the next event loads new settings
    ({ d with func := .load, waketime := d.endTime }, .reschedule)
  else ({ d with waketime := waketime }, .reschedule)

/-- The end time and the flags `digital_load_event` computes for a setting that
is loaded at the timer's waketime, before it looks at the queue. -/
def loadSetting (d : DigitalOut) (onDuration : Int) : Int × DigitalFlags :=
  let on := onDuration != 0
  let flags : DigitalFlags :=
    { on := on, toggling := false, checkEnd := false, defaultOn := d.flags.defaultOn }
  let endTime := u32 (d.waketime + d.maxDuration)
  if !on || decide (d.cycleTime ≤ onDuration) then
    -- the pin is in an always on or always off state
    if on != d.flags.defaultOn && d.maxDuration != 0 then
      (endTime, { flags with checkEnd := true })
    else (0, flags)
  else if d.maxDuration != 0 then
    (endTime, { flags with toggling := true, checkEnd := true })
  else (0, { flags with toggling := true })

/-- The rest of `digital_load_event`: store the end time and the flags, and
schedule the next event. -/
def scheduleSetting (d : DigitalOut) (onDuration endTime : Int) (flags : DigitalFlags) :
    DigitalOut × TimerResult :=
  let d := { d with endTime := endTime, flags := flags }
  if !flags.toggling then
    if !flags.checkEnd then
      -- pin not toggling and nothing scheduled
      (d, .done)
    else ({ d with waketime := endTime }, .reschedule)
  else
    let waketime := u32 (d.waketime + onDuration)
    if flags.checkEnd ∧ ¬ timerIsBefore waketime endTime then
      ({ d with waketime := endTime }, .reschedule)
    else
      ({ d with
          func := .toggle
          waketime := waketime
          onDuration := onDuration
          offDuration := u32 (d.cycleTime - onDuration) }, .reschedule)

/-- `digital_load_event`: load the next pin output setting. -/
def digitalLoadEvent (d : DigitalOut) : Option (DigitalOut × TimerResult) :=
  match d.mq with
  | [] =>
      -- shutdown("Missed scheduling of next digital out event")
      none
  | m :: mq =>
      let d := { d with mq := mq, pin := m.onDuration != 0 }
      let (endTime, flags) := loadSetting d m.onDuration
      match mq with
      | [] => some (scheduleSetting d m.onDuration endTime flags)
      | next :: _ =>
          if flags.checkEnd ∧ timerIsBefore endTime next.waketime then
            -- shutdown("Scheduled digital out event will exceed max_duration")
            none
          else
            some (scheduleSetting d m.onDuration next.waketime { flags with checkEnd := true })

/-- `command_config_digital_out` -/
def configDigitalOut (value defaultValue maxDuration : Int) : DigitalOut where
  waketime := 0
  func := .load
  timerPending := false
  onDuration := 0
  offDuration := 0
  endTime := 0
  pin := value != 0
  maxDuration := u32 maxDuration
  cycleTime := 0
  mq := []
  flags :=
    { on := value != 0, toggling := false, checkEnd := false, defaultOn := defaultValue != 0 }

/-- `command_set_digital_out_pwm_cycle` -/
def commandSetDigitalOutPwmCycle (cycleTicks : Int) (d : DigitalOut) : Option DigitalOut :=
  if d.mq ≠ [] then
    -- shutdown("Can not set soft pwm cycle ticks while updates pending")
    none
  else some { d with cycleTime := u32 cycleTicks }

/-- `command_queue_digital_out` -/
def commandQueueDigitalOut (clock onTicks : Int) (d : DigitalOut) : Option DigitalOut :=
  let m : DigitalMove := { waketime := u32 clock, onDuration := u32 onTicks }
  if d.mq ≠ [] then some { d with mq := d.mq ++ [m] }
  else if d.flags.checkEnd ∧ timerIsBefore d.endTime m.waketime then
    -- shutdown("Scheduled digital out event will exceed max_duration")
    none
  else
    let e := { d with
      mq := [m], endTime := m.waketime, flags := { d.flags with checkEnd := true } }
    if d.flags.toggling ∧ timerIsBefore d.waketime m.waketime then
      -- digital_toggle_event() will schedule a load event when ready
      some e
    else
      some { e with waketime := m.waketime, func := .load, timerPending := true }

/-- `command_update_digital_out` -/
def commandUpdateDigitalOut (now value : Int) (d : DigitalOut) : Option DigitalOut :=
  if d.mq ≠ [] then
    -- shutdown("update_digital_out not valid with active queue")
    none
  else
    let on := value % 256 != 0
    let d := { d with timerPending := false, pin := on }
    if on != d.flags.defaultOn && d.maxDuration != 0 then
      some
        { d with
          waketime := u32 (now + d.maxDuration)
          endTime := u32 (now + d.maxDuration)
          func := .load
          flags :=
            { on := on, toggling := false, checkEnd := true, defaultOn := d.flags.defaultOn }
          timerPending := true }
    else
      some
        { d with
          flags :=
            { on := on, toggling := false, checkEnd := false, defaultOn := d.flags.defaultOn } }

/-- `digital_out_shutdown` -/
def digitalOutShutdown (d : DigitalOut) : DigitalOut :=
  { d with
    pin := d.flags.defaultOn
    flags :=
      { on := d.flags.defaultOn
        toggling := false
        checkEnd := false
        defaultOn := d.flags.defaultOn }
    mq := [] }

/-- The callback that `timer.func` holds. -/
def digitalEvent (d : DigitalOut) : Option (DigitalOut × TimerResult) :=
  match d.func with
  | .toggle => some (digitalToggleEvent d)
  | .load => digitalLoadEvent d

end FlsunT1.Mcu
