/-
  Link/World.lean --- the host, the mcu and the two links between them.

  The host is the serialqueue, the mcu its console task.  Both links keep their
  order and may lose any message; a block may also arrive as garbage, which a
  checksum tells.  A message on a link is kept with the number that its sequence
  number is the lowest four bits of; neither side reads that number.

  Events are interleaved in any way.  `command_event` is one round of its loop:
  the blocks that it writes together are put on the link one by one.
-/
import FlsunT1.Chelper.CommandQueues
import FlsunT1.Library.GoBackN
import FlsunT1.Mcu.Command

set_option autoImplicit false

namespace FlsunT1.Link

open FlsunT1.Library FlsunT1.Chelper FlsunT1.Mcu

/-! ## The state -/

/-- A message on a link, with its number. -/
structure Numbered (α : Type) where
  number : Int
  message : α
  deriving DecidableEq, Repr

/-- The two sides, the links, and what happened so far: the blocks built, the blocks
dispatched and the messages pulled.  The head of `toMcu` stays there until the
mcu has popped it.  A `none` is garbage. -/
structure World where
  host : SerialQueue
  mcu : ConsoleState
  toMcu : List (Numbered (Option Block))
  toHost : List (Numbered Response)
  built : List Built
  dispatched : List Block
  pulled : List Received

/-- Nothing is in flight and both sides agree on the next block. -/
structure Synchronised (w : World) : Prop where
  sentQueue : w.host.sentQueue = []
  sendSeq : w.host.sendSeq = w.host.receiveSeq
  nonneg : 0 ≤ w.host.receiveSeq
  nextSequence : w.mcu.command.nextSequence = w.host.receiveSeq % 16
  phase : w.mcu.phase = .idle
  toMcu : w.toMcu = []
  toHost : w.toHost = []
  built : w.built = []
  dispatched : w.dispatched = []

/-! ## Events -/

/-- The events of the host, of the mcu and of the links. -/
inductive Event
  | sendBatch (queue : Nat) (msgs : List QueueMessage)
  | command (r : ClockReading)
  | receive
  | retransmit
  | pull
  | findBlock
  | respond (payload : List Nat)
  | pop
  | ack
  | loseToMcu (i : Nat)
  | garble (i : Nat)
  | loseToHost (i : Nat)
  deriving DecidableEq, Repr

namespace World

/-- The number of the block the mcu waits for, when the first one had `start`. -/
def next (start : Int) (w : World) : Int := start + w.dispatched.length

/-- The mcu sends a message with its `next_sequence`.  Data that is sent in
`command_dispatch` belongs to the block dispatched. -/
def emit (start : Int) (payload : List Nat) (w : World) : World :=
  { w with
    toHost := w.toHost ++
      [{ number := w.next start
         message :=
          { seq := w.mcu.command.nextSequence
            payload := payload
            origin :=
              if w.mcu.phase = .dispatching ∧ payload ≠ [] then some (w.next start - 1)
              else none } }] }

/-- The front of the input, when the mcu may look at it. -/
def findBlock (start : Int) (w : World) : Option World :=
  match w.mcu.phase, w.toMcu with
  | .idle, m :: rest =>
      match commandFindBlock (m.message.map Block.seq) w.mcu.command with
      | (command, .dispatch) =>
          m.message.map fun block =>
            { w with
              mcu := { command := command, phase := .dispatching }
              dispatched := w.dispatched ++ [block] }
      | (command, .nak) =>
          some ({ w with mcu := { w.mcu with command := command }, toMcu := rest }.emit start [])
      | (command, .discard) =>
          some { w with mcu := { w.mcu with command := command }, toMcu := rest }
  | _, _ => none

/-- A round of `command_event`, with the block it writes. -/
def command (r : ClockReading) (w : World) : Option World :=
  match commandEvent r w.host with
  | .error _ => none
  | .ok (host, none) => some { w with host := host }
  | .ok (host, some built) =>
      some { w with
        host := host
        toMcu := w.toMcu ++ [{ number := w.host.sendSeq, message := some built.block }]
        built := w.built ++ [built] }

/-- `retransmit_event`, while its timer is set. -/
def retransmit (w : World) : Option World :=
  if w.host.retransmitTimer = .never then none
  else
    let (host, blocks) := retransmitEvent w.host
    some { w with
      host := host
      toMcu := w.toMcu ++ blocks.mapIdx fun i block =>
        { number := w.host.receiveSeq + i, message := some block } }

/-- A block that the mcu is at work on is not on the link any more. -/
def onLink (w : World) (i : Nat) : Bool := !w.mcu.phase.busy || i != 0

/-- One event, for the first block number `start` and a console. -/
def step (start : Int) (console : Console) (w : World) : Event → Option World
  | .sendBatch q msgs => some { w with host := serialqueueSendBatch q msgs w.host }
  | .command r => w.command r
  | .receive =>
      match w.toHost with
      | [] => none
      | m :: rest => some { w with host := handleMessage m.message w.host, toHost := rest }
  | .retransmit => w.retransmit
  | .pull => (serialqueuePull w.host).map fun (qm, host) =>
      { w with host := host, pulled := w.pulled ++ [qm] }
  | .findBlock => w.findBlock start
  | .respond payload => if payload = [] then none else some (w.emit start payload)
  | .pop =>
      match console, w.mcu.phase with
      | .serialIrq, .dispatching =>
          some { w with mcu := { w.mcu with phase := .popped }, toMcu := w.toMcu.tail }
      | .findAndDispatch, .acked =>
          some { w with mcu := { w.mcu with phase := .idle }, toMcu := w.toMcu.tail }
      | _, _ => none
  | .ack =>
      match console, w.mcu.phase with
      | .serialIrq, .popped =>
          some { w.emit start [] with mcu := { w.mcu with phase := .idle } }
      | .findAndDispatch, .dispatching =>
          some { w.emit start [] with mcu := { w.mcu with phase := .acked } }
      | _, _ => none
  | .loseToMcu i => if w.onLink i then some { w with toMcu := w.toMcu.eraseIdx i } else none
  | .garble i =>
      if w.onLink i then
        some { w with toMcu := w.toMcu.modify i fun m => { m with message := none } }
      else none
  | .loseToHost i => some { w with toHost := w.toHost.eraseIdx i }

end World

/-- Runs of the events, in which the 64 bit sequence numbers do not wrap. -/
def LinkRun (start : Int) (console : Console) : World → List Event → World → Prop :=
  Run fun w e w' => w.host.sendSeq < noReceiveSeq - 1 ∧ w.step start console e = some w'

end FlsunT1.Link
