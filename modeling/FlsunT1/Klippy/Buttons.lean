/-
  Klippy/Buttons.lean --- the host side of the button reports.

  Source: klipper/klippy/extras/buttons.py, class MCU_buttons.  A callback is the
  number it was registered under; the events of `handle_button` are the calls it
  makes, each with its state.
-/
import FlsunT1.Mcu.Buttons

set_option autoImplicit false

namespace FlsunT1.Klippy

open FlsunT1.Mcu

/-- An entry of `callbacks`. -/
structure ButtonCallback where
  mask : Nat
  shift : Nat
  callback : Nat
  deriving DecidableEq, Repr

/-- The state of `MCU_buttons`. -/
structure MCUButtons where
  callbacks : List ButtonCallback
  invert : Nat
  lastButton : Nat
  ackCount : Int
  deriving DecidableEq, Repr

namespace MCUButtons

/-- The message `ack_count`, expanded from 8 bits. -/
def msgAckCount (m : ButtonsState) (h : MCUButtons) : Int :=
  let ackDiff := (h.ackCount - m.ackCount.toNat) % 256
  h.ackCount - if 128 ≤ ackDiff then ackDiff - 256 else ackDiff

/-- `handle_buttons_state`: the acknowledgement to send and the states to pass to
`handle_button`, when there are new ones. -/
def handleButtonsState (m : ButtonsState) (h : MCUButtons) :
    Option (Int × List UInt8) × MCUButtons :=
  let newCount := h.msgAckCount m + m.state.length - h.ackCount
  if newCount ≤ 0 then (none, h)
  else
    -- buttons[-new_count:]
    let newButtons := m.state.drop (m.state.length - newCount.toNat)
    (some (newCount, newButtons), { h with ackCount := h.ackCount + newCount })

/-- `handle_button`, with the calls it makes. -/
def handleButton (button : UInt8) (h : MCUButtons) : List (Nat × Nat) × MCUButtons :=
  let button := button.toNat ^^^ h.invert
  let changed := button ^^^ h.lastButton
  let calls := h.callbacks.filterMap fun c =>
    if changed &&& c.mask ≠ 0 then some (c.callback, (button &&& c.mask) >>> c.shift) else none
  (calls, { h with lastButton := button })

/-- A message with an `ack_count` up to 128 behind is expanded to the number it is
the lowest eight bits of. -/
theorem msgAckCount_eq {m : ButtonsState} {h : MCUButtons} {a : Nat}
    (hm : m.ackCount = UInt8.ofNat a) (hle : a ≤ h.ackCount) (hnear : h.ackCount < a + 128) :
    h.msgAckCount m = a := by
  have hmod : (m.ackCount.toNat : Int) = a % 256 := by
    rw [hm]
    simp
  simp only [msgAckCount, hmod]
  have hdiff : (h.ackCount - (a : Int) % 256) % 256 = h.ackCount - a := by omega
  rw [hdiff, if_neg (by omega)]
  omega

theorem handleButtonsState_eq {m : ButtonsState} {h : MCUButtons} {a n : Nat}
    (hm : m.ackCount = UInt8.ofNat a) (hn : h.ackCount = n) (hle : a ≤ n) (hnear : n < a + 128) :
    h.handleButtonsState m =
      if a + m.state.length ≤ n then (none, h)
      else (some (((a + m.state.length - n : Nat) : Int), m.state.drop (n - a)),
        { h with ackCount := (a + m.state.length : Nat) }) := by
  have hcount := msgAckCount_eq hm (by omega) (by omega : h.ackCount < a + 128)
  simp only [handleButtonsState, hcount, hn]
  by_cases hnew : a + m.state.length ≤ n
  · rw [if_pos hnew, if_pos (by omega)]
  · have hsub : (a + m.state.length - n : Int) = ((a + m.state.length - n : Nat) : Int) := by omega
    have hdrop : m.state.length - (a + m.state.length - n) = n - a := by omega
    have hadd : (n + (a + m.state.length - n : Nat) : Int) = (a + m.state.length : Nat) := by omega
    rw [if_neg hnew, if_neg (by omega), hsub, Int.toNat_natCast, hdrop, hadd]

end MCUButtons

end FlsunT1.Klippy
