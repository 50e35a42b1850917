/-
  Mcu/Timer.lean --- the clock comparison and the timer results of the firmware.

  Source: klipper/src/generic/timer_irq.c (`timer_is_before`) and
  klipper/src/sched.h (`SF_DONE`, `SF_RESCHEDULE`).
-/
import FlsunT1.Library.Word

set_option autoImplicit false

namespace FlsunT1.Mcu

open FlsunT1.Library

/-- `timer_is_before`: the signed comparison of two 32 bit clocks. -/
def timerIsBefore (time1 time2 : Int) : Prop := i32 (time1 - time2) < 0

instance (time1 time2 : Int) : Decidable (timerIsBefore time1 time2) :=
  inferInstanceAs (Decidable (_ < _))

/-- What a timer callback returns. -/
inductive TimerResult
  /-- `SF_DONE` -/
  | done
  /-- `SF_RESCHEDULE` -/
  | reschedule
  deriving DecidableEq, Repr

theorem timerIsBefore_irrefl (time : Int) : ¬ timerIsBefore time time := by
  unfold timerIsBefore i32; omega

end FlsunT1.Mcu
