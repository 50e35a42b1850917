/-
  Mcu/Sched.lean --- the timer list of the firmware.

  Source: klipper/src/sched.c.  The list is the one of the source: a memory of
  `next` pointers and waketimes, reached from `SchedStatus.timer_list`.  The two
  loops take fuel; `none` stands for fuel that ran out, a null pointer that is
  followed, or a shutdown.
-/
import FlsunT1.Mcu.Timer
import Mathlib.Logic.Function.Basic

set_option autoImplicit false

namespace FlsunT1.Mcu

open FlsunT1.Library

/-- A pointer to a `struct timer`: the three timers of sched.c, or a timer of
some other part of the firmware. -/
inductive TimerId
  | periodic
  | sentinel
  | deleted
  | user (n : Nat)
  deriving DecidableEq, Repr

/-- The timers in memory and `SchedStatus`. -/
structure Sched where
  next : TimerId → Option TimerId
  waketime : TimerId → Int
  timerList : TimerId
  lastInsert : TimerId
  shutdownStatus : Nat

/-- The memory before the first timer is added. -/
def Sched.init : Sched where
  next := fun t => if t = .periodic then some .sentinel else none
  waketime := fun t => if t = .sentinel then 0x80000000 else 0
  timerList := .periodic
  lastInsert := .periodic
  shutdownStatus := 0

/-- `periodic_event`, where `ticks` is `timer_from_us(100000)`. -/
def periodicEvent (ticks : Int) (s : Sched) : Sched × TimerResult :=
  let waketime := u32 (s.waketime .periodic + ticks)
  let s := { s with waketime := Function.update s.waketime .periodic waketime }
  ({ s with waketime := Function.update s.waketime .sentinel (u32 (waketime + 0x80000000)) },
    .reschedule)

/-- `insert_timer`: find the position for a timer and insert it. -/
def insertTimer : Nat → TimerId → TimerId → Int → Sched → Option Sched
  | 0, _, _, _, _ => none
  | fuel + 1, prev, t, waketime, s =>
      match s.next prev with
      | none => none
      | some pos =>
          if timerIsBefore waketime (s.waketime pos) then
            some { s with
              next := Function.update (Function.update s.next t (some pos)) prev (some t) }
          else insertTimer fuel pos t waketime s

/-- `sched_add_timer`, at the clock `now`. -/
def schedAddTimer (fuel : Nat) (now : Int) (add : TimerId) (s : Sched) : Option Sched :=
  let waketime := s.waketime add
  let tl := s.timerList
  if timerIsBefore waketime (s.waketime tl) then
    -- this timer is before all other scheduled timers
    if timerIsBefore waketime now ∧ s.shutdownStatus = 0 then
      -- try_shutdown("Timer too close")
      none
    else
      let next :=
        if tl = .deleted then Function.update s.next add (s.next .deleted)
        else Function.update s.next add (some tl)
      some { s with
        next := Function.update next .deleted (some add)
        waketime := Function.update s.waketime .deleted waketime
        timerList := .deleted }
  else insertTimer fuel tl add waketime s

/-- The loop of `sched_del_timer`: find `del` after `pos` and remove it, if present. -/
def unlinkTimer : Nat → TimerId → TimerId → Sched → Option Sched
  | 0, _, _, _ => none
  | fuel + 1, pos, del, s =>
      match s.next pos with
      | none => some s
      | some next =>
          if next = del then some { s with next := Function.update s.next pos (s.next del) }
          else unlinkTimer fuel next del s

/-- `sched_del_timer`: remove a timer that may be live. -/
def schedDelTimer (fuel : Nat) (del : TimerId) (s : Sched) : Option Sched :=
  let removed :=
    if s.timerList = del then
      -- deleting the next active timer - replace with deleted_timer
      some { s with
        waketime := Function.update s.waketime .deleted (s.waketime del)
        next := Function.update s.next .deleted (s.next del)
        timerList := .deleted }
    else unlinkTimer fuel s.timerList del s
  removed.map fun s =>
    { s with lastInsert := if s.lastInsert = del then .periodic else s.lastInsert }

/-- What the callback of a user timer does to the timers: it may delete others,
sets its own waketime and returns a result. -/
structure Callback where
  deletes : List Nat
  waketime : Int
  result : TimerResult
  deriving DecidableEq, Repr

/-- `t->func(t)`, where `callback` says what a user timer does. -/
def timerFunc (fuel : Nat) (ticks : Int) (callback : Callback) (s : Sched) :
    TimerId → Option (Sched × TimerResult)
  | .periodic => some (periodicEvent ticks s)
  -- sentinel_event: shutdown("sentinel timer called")
  | .sentinel => none
  | .deleted => some (s, .done)
  | .user n =>
      (callback.deletes.foldlM (fun s d => schedDelTimer fuel (.user d) s) s).map fun s =>
        ({ s with waketime := Function.update s.waketime (.user n) (u32 callback.waketime) },
          callback.result)

/-- The part of `sched_timer_dispatch` after the callback of `t`: update the list,
rescheduling `t` if necessary.  The second component is the next waketime. -/
def updateTimerList (fuel : Nat) (t : TimerId) (s : Sched) (res : TimerResult) :
    Option (Sched × Int) :=
  let updatedWaketime := s.waketime t
  match s.next t with
  | none => none
  | some next =>
      match res with
      | .done =>
          some
            ({ s with
                timerList := next
                lastInsert := if s.lastInsert = t then next else s.lastInsert },
              s.waketime next)
      | .reschedule =>
          if timerIsBefore updatedWaketime (s.waketime next) then some (s, updatedWaketime)
          else
            let s := { s with timerList := next }
            let pos :=
              if timerIsBefore updatedWaketime (s.waketime s.lastInsert) then s.timerList
              else s.lastInsert
            (insertTimer fuel pos t updatedWaketime s).map fun s =>
              ({ s with lastInsert := t }, s.waketime next)

/-- `sched_timer_dispatch`: invoke the next timer. -/
def schedTimerDispatch (fuel : Nat) (ticks : Int) (callback : Callback) (s : Sched) :
    Option (Sched × Int) :=
  (timerFunc fuel ticks callback s s.timerList).bind fun r =>
    updateTimerList fuel s.timerList r.1 r.2

/-- `sched_timer_reset`: remove all user timers. -/
def schedTimerReset (s : Sched) : Sched :=
  { s with
    timerList := .deleted
    waketime := Function.update s.waketime .deleted (s.waketime .periodic)
    lastInsert := .periodic
    next :=
      Function.update (Function.update s.next .deleted (some .periodic)) .periodic
        (some .sentinel) }

/-- `run_shutdown`, without the shutdown functions of the other parts. -/
def runShutdown (s : Sched) : Sched := { schedTimerReset s with shutdownStatus := 1 }

end FlsunT1.Mcu
