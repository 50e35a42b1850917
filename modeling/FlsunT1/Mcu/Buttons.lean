/-
  Mcu/Buttons.lean --- the button reports of the firmware.

  Source: klipper/src/buttons.c.  `reports` holds the first `report_count`
  entries of the array of that name.  `gpio_in_read` gives the levels that a
  timer event finds on the pins.  A function that may call `shutdown()` returns
  an `Option`.
-/
import FlsunT1.Library.Word

set_option autoImplicit false

namespace FlsunT1.Mcu

open FlsunT1.Library

/-! ## The state -/

/-- `struct buttons`.  `timerPending` records whether `time` is on the timer list. -/
structure Buttons where
  waketime : Int
  timerPending : Bool
  restTicks : Int
  pressed : UInt8
  lastPressed : UInt8
  reports : List UInt8
  ackCount : UInt8
  retransmitState : UInt8
  retransmitCount : UInt8
  deriving DecidableEq, Repr

/-- `sizeof(b->reports)` -/
def reportsSize : Nat := 8

/-- `BF_NO_RETRANSMIT` -/
def noRetransmit : UInt8 := 0x80

/-- `BF_PENDING` -/
def bfPending : UInt8 := 0xff

/-- `BF_ACKED` -/
def bfAcked : UInt8 := 0xfe

/-- The parameters of a `buttons_state` message. -/
structure ButtonsState where
  ackCount : UInt8
  state : List UInt8
  deriving DecidableEq, Repr

/-! ## The timer event -/

/-- The loop of `buttons_event` over the pins, with the bit of the next one. -/
def readPins : List Bool → UInt8 → UInt8
  | [], _ => 0
  | val :: pins, bit => (if val then bit else 0) ||| readPins pins (bit <<< 1)

namespace Buttons

/-- The debouncing of `buttons_event`, and whether it wakes the task. -/
def debounce (status : UInt8) (b : Buttons) : Buttons × Bool :=
  let diff := status ^^^ b.pressed
  let debounced := ~~~(status ^^^ b.lastPressed)
  if diff ≠ 0 ∧ diff &&& debounced ≠ 0 then
    -- pin has been consistently different - report it
    let b := { b with pressed := (b.pressed &&& ~~~debounced) ||| (status &&& debounced) }
    if b.reports.length < reportsSize then
      ({ b with reports := b.reports ++ [b.pressed], retransmitState := bfPending }, true)
    else (b, false)
  else (b, false)

/-- The retransmit check of `buttons_event`, and whether it wakes the task. -/
def countRetransmit (b : Buttons) : Buttons × Bool :=
  if b.retransmitState &&& noRetransmit = 0 then
    let retransmitState := b.retransmitState - 1
    ({ b with retransmitState := retransmitState }, retransmitState &&& noRetransmit ≠ 0)
  else (b, false)

/-- `buttons_event`, and whether it wakes the task. -/
def event (pins : List Bool) (b : Buttons) : Buttons × Bool :=
  let status := readPins pins 1
  let (b, reported) := b.debounce status
  let (b, timeout) := { b with lastPressed := status }.countRetransmit
  ({ b with waketime := u32 (b.waketime + b.restTicks) }, reported || timeout)

/-! ## Commands -/

/-- `command_buttons_query` -/
def query (clock restTicks : Int) (retransmitCount invert : UInt8) (b : Buttons) :
    Option Buttons :=
  let b :=
    { b with
      timerPending := false
      waketime := clock
      restTicks := restTicks
      pressed := invert
      lastPressed := invert
      ackCount := 0
      reports := []
      retransmitState := bfAcked
      retransmitCount := retransmitCount }
  if noRetransmit ≤ retransmitCount then
    -- shutdown("Invalid buttons retransmit count")
    none
  else some { b with timerPending := restTicks != 0 }

/-- `command_buttons_ack` -/
def ack (count : UInt8) (b : Buttons) : Buttons :=
  let b := { b with ackCount := b.ackCount + count }
  if b.reports.length ≤ count.toNat then { b with reports := [], retransmitState := bfAcked }
  else { b with reports := b.reports.drop count.toNat }

/-! ## The task -/

/-- The part of `buttons_task` with interrupts disabled: the number of reports that the
message will carry, if there is one to send. -/
def task (b : Buttons) : Option (Nat × Buttons) :=
  if b.retransmitState ≠ bfPending then none
  else if b.reports = [] then none
  else some (b.reports.length, { b with retransmitState := b.retransmitCount })

/-- The message `buttons_task` then generates. -/
def buttonsState (reportCount : Nat) (b : Buttons) : ButtonsState where
  ackCount := b.ackCount
  state := b.reports.take reportCount

/-! ## What each of them does to the reports -/

theorem debounce_reports (status : UInt8) (b : Buttons) :
    (b.debounce status).1.ackCount = b.ackCount ∧
    ((b.debounce status).1.reports = b.reports ∨
      b.reports.length < reportsSize ∧
        (b.debounce status).1.reports = b.reports ++ [(b.debounce status).1.pressed]) := by
  simp only [debounce]
  split
  · split
    · next hroom => exact ⟨rfl, Or.inr ⟨hroom, rfl⟩⟩
    · exact ⟨rfl, Or.inl rfl⟩
  · exact ⟨rfl, Or.inl rfl⟩

theorem countRetransmit_reports (b : Buttons) :
    b.countRetransmit.1.ackCount = b.ackCount ∧ b.countRetransmit.1.reports = b.reports ∧
      b.countRetransmit.1.pressed = b.pressed := by
  simp only [countRetransmit]
  split <;> exact ⟨rfl, rfl, rfl⟩

theorem event_reports (pins : List Bool) (b : Buttons) :
    (b.event pins).1.ackCount = b.ackCount ∧
    ((b.event pins).1.reports = b.reports ∨
      b.reports.length < reportsSize ∧
        (b.event pins).1.reports = b.reports ++ [(b.event pins).1.pressed]) := by
  obtain ⟨hack, hreports⟩ := b.debounce_reports (readPins pins 1)
  obtain ⟨hack', hreports', hpressed'⟩ := countRetransmit_reports
    { (b.debounce (readPins pins 1)).1 with lastPressed := readPins pins 1 }
  refine ⟨hack'.trans hack, ?_⟩
  rcases hreports with h | ⟨hroom, h⟩
  · exact Or.inl (hreports'.trans h)
  · refine Or.inr ⟨hroom, ?_⟩
    calc (b.event pins).1.reports = (b.debounce (readPins pins 1)).1.reports := hreports'
      _ = _ := h
      _ = b.reports ++ [(b.event pins).1.pressed] := congrArg (b.reports ++ [·]) hpressed'.symm

theorem ack_reports (count : UInt8) (b : Buttons) :
    (b.ack count).ackCount = b.ackCount + count ∧
      (b.ack count).reports = b.reports.drop count.toNat := by
  simp only [ack]
  split
  · next hall => exact ⟨rfl, (List.drop_eq_nil_of_le hall).symm⟩
  · exact ⟨rfl, rfl⟩

theorem task_reports {b b' : Buttons} {n : Nat} (h : b.task = some (n, b')) :
    n = b.reports.length ∧ b'.ackCount = b.ackCount ∧ b'.reports = b.reports := by
  simp only [task] at h
  split at h
  · cases h
  · split at h
    · cases h
    · obtain ⟨rfl, rfl⟩ : b.reports.length = n ∧ _ = b' := by simpa using h
      exact ⟨rfl, rfl, rfl⟩

end Buttons

end FlsunT1.Mcu
