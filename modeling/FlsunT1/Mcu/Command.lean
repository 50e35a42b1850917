/-
  Mcu/Command.lean --- receiving message blocks in the firmware.

  Source: `command_find_block` and `command_find_and_dispatch`, klipper/src/
  command.c, and `console_task`, klipper/src/generic/serial_irq.c.  The input is
  taken block by block: what is not a block with a correct checksum is one piece
  of garbage.  The sequence number is kept without the `MESSAGE_DEST` bit.
-/
import FlsunT1.Library.Word

set_option autoImplicit false

namespace FlsunT1.Mcu

/-- What `command_find_block` reports: a block to dispatch, a block or garbage that
is answered by a nak, or garbage that is discarded. -/
inductive BlockResult
  | dispatch
  | nak
  | discard
  deriving DecidableEq, Repr

/-- The state of `command_find_block`: `next_sequence` and the flag `CF_NEED_VALID`
of `sync_state`. -/
structure CommandState where
  nextSequence : Int
  needValid : Bool
  deriving DecidableEq, Repr

/-- `command_find_block`, for the sequence number of a block, or `none` for garbage. -/
def commandFindBlock (msgseq : Option Int) (s : CommandState) : CommandState × BlockResult :=
  match msgseq with
  | none =>
      -- discard bytes until the next SYNC, and nak once until a block is valid
      if s.needValid then (s, .discard) else ({ s with needValid := true }, .nak)
  | some msgseq =>
      let s := { s with needValid := false }
      if msgseq ≠ s.nextSequence then
        -- lost message - discard messages until it is retransmitted
        (s, .nak)
      else ({ s with nextSequence := (msgseq + 1) % 16 }, .dispatch)

/-- The two ways in which the consoles of the firmware dispatch a block. -/
inductive Console
  /-- `console_task` of serial_irq.c: pop the input, then send the ack -/
  | serialIrq
  /-- `command_find_and_dispatch`: send the ack, then pop the input -/
  | findAndDispatch
  deriving DecidableEq, Repr

/-- Where the console is with the block at the front of its input. -/
inductive ConsolePhase
  | idle
  /-- in `command_dispatch` -/
  | dispatching
  /-- popped, with the ack still to be sent -/
  | popped
  /-- acked, and still to be popped -/
  | acked
  deriving DecidableEq, Repr

/-- The console task of the mcu. -/
structure ConsoleState where
  command : CommandState
  phase : ConsolePhase
  deriving DecidableEq, Repr

/-- The block at the front of the input was found and is still there. -/
def ConsolePhase.busy : ConsolePhase → Bool
  | .dispatching | .acked => true
  | .idle | .popped => false

end FlsunT1.Mcu
