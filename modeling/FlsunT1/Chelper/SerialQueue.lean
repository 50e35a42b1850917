/-
  Chelper/SerialQueue.lean --- serial port command queuing on the host.

  Source: klipper/klippy/chelper/serialqueue.c.  Message blocks are kept as a
  sequence number and a payload, without the framing bytes that `msgblock.h`
  puts around them.  The sequence numbers and clocks of 64 bits and the byte
  counters are integers; differences of `uint64_t` are wrapped by `u64`.

  What the code reads from the clock estimate and from the time, in floating
  point, is an argument: a `ClockReading` for one call of `check_send_command`.
  Of the time of the retransmit timer only its kind is kept.  The baud rate, the
  round trip times, the statistics and the debugging queues are left out.
-/
import FlsunT1.Library.Word
import Mathlib.Logic.Function.Basic

set_option autoImplicit false

namespace FlsunT1.Chelper

open FlsunT1.Library

/-! ## Data -/

/-- `MESSAGE_MIN` -/
def messageMin : Int := 5

/-- `MESSAGE_MAX` -/
def messageMax : Int := 64

/-- `MESSAGE_HEADER_SIZE` -/
def messageHeaderSize : Int := 2

/-- `MESSAGE_TRAILER_SIZE` -/
def messageTrailerSize : Int := 3

/-- `MESSAGE_PAYLOAD_MAX` -/
def messagePayloadMax : Int := messageMax - messageMin

/-- `MAX_PENDING_BLOCKS` -/
def maxPendingBlocks : Int := 12

/-- `MAX_CLOCK` of serialqueue.h -/
def serialMaxClock : Int := 0x7fffffffffffffff

/-- `BACKGROUND_PRIORITY_CLOCK` -/
def backgroundPriorityClock : Int := 0x7fffffff00000000

/-- `(uint64_t)-1`, the `receive_seq` of debug file output. -/
def noReceiveSeq : Int := 0xffffffffffffffff

/-- A `struct queue_message` to be sent. -/
structure QueueMessage where
  msg : List Nat
  minClock : Int
  reqClock : Int
  notifyId : Int
  deriving DecidableEq, Repr

/-- `qm->len` -/
def QueueMessage.len (qm : QueueMessage) : Int := qm.msg.length

/-- `struct command_queue` -/
structure CommandQueue where
  stalledQueue : List QueueMessage
  readyQueue : List QueueMessage
  deriving DecidableEq, Repr

/-- A message block for the mcu; `seq` is the sequence number that is sent. -/
structure Block where
  seq : Int
  payload : List Nat
  deriving DecidableEq, Repr

/-- The bytes of a block, with its header and trailer. -/
def Block.len (b : Block) : Int := messageHeaderSize + b.payload.length + messageTrailerSize

/-- A message from the mcu.  The `origin` is no part of the message: it says which
block the mcu was dispatching when it sent the message. -/
structure Response where
  seq : Int
  payload : List Nat
  origin : Option Int
  deriving DecidableEq, Repr

/-- The bytes of a message, with its header and trailer. -/
def Response.len (m : Response) : Int := messageHeaderSize + m.payload.length + messageTrailerSize

/-- An entry of `receive_queue`: a data message, or a message that was sent whose
notification is due and which has the length 0 then. -/
inductive Received
  | data (m : Response)
  | notify (qm : QueueMessage)
  deriving DecidableEq, Repr

/-- The time of a timer: `PR_NEVER`, `PR_NOW`, or any other. -/
inductive WakeTime
  | never
  | now
  | later
  deriving DecidableEq, Repr

/-- `struct serialqueue`, with the command queues that may be linked. -/
structure SerialQueue where
  receiveWindow : Int
  sendSeq : Int
  receiveSeq : Int
  ignoreNakSeq : Int
  lastAckSeq : Int
  retransmitSeq : Int
  sentQueue : List Block
  commandQueues : Nat → CommandQueue
  pendingQueues : List Nat
  readyBytes : Int
  stalledBytes : Int
  needAckBytes : Int
  lastAckBytes : Int
  needKickClock : Int
  notifyQueue : List QueueMessage
  receiveQueue : List Received
  retransmitTimer : WakeTime

/-- `serialqueue_alloc`, for a serial port or for debug file output. -/
def serialqueueAlloc (debugFile : Bool) : SerialQueue where
  receiveWindow := 0
  sendSeq := 1
  receiveSeq := if debugFile then noReceiveSeq else 1
  ignoreNakSeq := 0
  lastAckSeq := 0
  retransmitSeq := 0
  sentQueue := []
  commandQueues := fun _ => { stalledQueue := [], readyQueue := [] }
  pendingQueues := []
  readyBytes := 0
  stalledBytes := 0
  needAckBytes := 0
  lastAckBytes := 0
  needKickClock := serialMaxClock
  notifyQueue := []
  receiveQueue := []
  retransmitTimer := .never

/-- What may go wrong in a call. -/
inductive SerialFault
  /-- the scan of `build_and_send_command` finds no message -/
  | nullMessage
  /-- a loop of the model ran out of rounds -/
  | rounds
  deriving DecidableEq, Repr

/-! ## Receiving -/

/-- The loop of `update_receive_seq` that removes blocks from the sent queue. -/
def removeSent (rseq : Int) : Int → List Block → SerialQueue → SerialQueue
  | _, [], sq =>
      -- got an ack for a message not sent; must be connection init
      { sq with sentQueue := [], sendSeq := rseq }
  | sentSeq, sent :: rest, sq =>
      let sq := { sq with needAckBytes := sq.needAckBytes - sent.len, sentQueue := rest }
      if rseq = sentSeq + 1 then { sq with lastAckBytes := sent.len }
      else removeSent rseq (sentSeq + 1) rest sq

/-- `update_receive_seq`: update internal state when the receive sequence
increases. -/
def updateReceiveSeq (rseq : Int) (sq : SerialQueue) : SerialQueue :=
  let sq := removeSent rseq sq.receiveSeq sq.sentQueue sq
  { sq with
    receiveSeq := rseq
    retransmitTimer := if sq.sentQueue = [] then .never else .later }

/-- Check for pending messages on `notify_queue`. -/
def checkNotify (wakeSeq : Int) (sq : SerialQueue) : SerialQueue :=
  let due := fun qm : QueueMessage => decide (qm.reqClock ≤ wakeSeq)
  { sq with
    notifyQueue := sq.notifyQueue.dropWhile due
    receiveQueue := sq.receiveQueue ++ (sq.notifyQueue.takeWhile due).map .notify }

/-- The second half of `handle_message`, for the sequence number `rseq`. -/
def processMessage (rseq : Int) (m : Response) (sq : SerialQueue) : SerialQueue :=
  let sq := checkNotify (u64 (rseq - 1 - if m.len > messageMin then 1 else 0)) sq
  if m.len = messageMin then
    -- ack/nak message
    if sq.lastAckSeq < rseq then { sq with lastAckSeq := rseq }
    else if rseq > sq.ignoreNakSeq ∧ sq.sentQueue ≠ [] then
      -- duplicate ack is a nak - do fast retransmit
      { sq with retransmitTimer := .now }
    else sq
  else { sq with receiveQueue := sq.receiveQueue ++ [.data m] }

/-- `handle_message`: process a well formed input message. -/
def handleMessage (m : Response) (sq : SerialQueue) : SerialQueue :=
  let rseq := sq.receiveSeq / 16 * 16 + m.seq % 16
  if rseq = sq.receiveSeq then processMessage rseq m sq
  else
    let rseq := if rseq < sq.receiveSeq then rseq + 16 else rseq
    if rseq > sq.sendSeq ∧ sq.receiveSeq ≠ 1 then
      -- an ack for a message not sent?  out of order message?
      sq
    else processMessage rseq m (updateReceiveSeq rseq sq)

/-- `serialqueue_pull`, when a message is available. -/
def serialqueuePull (sq : SerialQueue) : Option (Received × SerialQueue) :=
  match sq.receiveQueue with
  | [] => none
  | qm :: rest => some (qm, { sq with receiveQueue := rest })

/-! ## Sending -/

/-- `retransmit_event`: the blocks written are all pending ones. -/
def retransmitEvent (sq : SerialQueue) : SerialQueue × List Block :=
  let ignoreNakSeq :=
    if sq.retransmitTimer = .now then
      -- retransmit due to nak; don't allow a third one
      if sq.receiveSeq < sq.retransmitSeq then sq.retransmitSeq else sq.receiveSeq
    else sq.sendSeq
  ({ sq with
      ignoreNakSeq := ignoreNakSeq
      retransmitSeq := sq.sendSeq
      retransmitTimer := .later }, sq.sentQueue)

/-- A message that was copied into a block, with its command queue. -/
structure Copied where
  queue : Nat
  message : QueueMessage
  deriving DecidableEq, Repr

/-- A block that was built, with the messages copied into it. -/
structure Built where
  block : Block
  copied : List Copied
  deriving DecidableEq, Repr

/-- Find the highest priority message (the message with the lowest `req_clock`). -/
def findReady (commandQueues : Nat → CommandQueue) : List Nat → Int → Option Copied →
    Option Copied
  | [], _, found => found
  | q :: rest, minClock, found =>
      match (commandQueues q).readyQueue with
      | [] => findReady commandQueues rest minClock found
      | m :: _ =>
          if m.reqClock < minClock then
            findReady commandQueues rest m.reqClock (some { queue := q, message := m })
          else findReady commandQueues rest minClock found

/-- Append a message to the outgoing command. -/
def copyMessage (c : Copied) (sq : SerialQueue) : SerialQueue :=
  let cq := sq.commandQueues c.queue
  let cq := { cq with readyQueue := cq.readyQueue.tail }
  { sq with
    commandQueues := Function.update sq.commandQueues c.queue cq
    pendingQueues :=
      if cq.readyQueue = [] ∧ cq.stalledQueue = [] then sq.pendingQueues.erase c.queue
      else sq.pendingQueues
    readyBytes := sq.readyBytes - c.message.len
    notifyQueue :=
      if c.message.notifyId ≠ 0 then
        -- message requires notification - add to notify list
        sq.notifyQueue ++ [{ c.message with reqClock := sq.sendSeq }]
      else sq.notifyQueue }

/-- The variables of the loop of `build_and_send_command`: the length of the block so
far, and the messages copied into it. -/
structure BlockLoop where
  sq : SerialQueue
  len : Int
  copied : List Copied

/-- The loop of `build_and_send_command`; every round copies a message. -/
def fillBlock : Nat → BlockLoop → Except SerialFault BlockLoop
  | 0, _ => .error .rounds
  | rounds + 1, l =>
      if l.sq.readyBytes = 0 then .ok l
      else
        match findReady l.sq.commandQueues l.sq.pendingQueues serialMaxClock none with
        | none => .error .nullMessage
        | some c =>
            if l.len + c.message.len > messageMax - messageTrailerSize then .ok l
            else
              fillBlock rounds
                { sq := copyMessage c l.sq
                  len := l.len + c.message.len
                  copied := l.copied ++ [c] }

/-- The number of messages that are ready. -/
def SerialQueue.readyCount (sq : SerialQueue) : Nat :=
  (sq.pendingQueues.map fun q => (sq.commandQueues q).readyQueue.length).sum

/-- `build_and_send_command`: construct a block of data to be sent. -/
def buildAndSendCommand (sq : SerialQueue) : Except SerialFault (SerialQueue × Built) :=
  (fillBlock (sq.readyCount + 1) { sq := sq, len := messageHeaderSize, copied := [] }).map
    fun l =>
      let sq := l.sq
      let len := l.len + messageTrailerSize
      let block := { seq := sq.sendSeq % 16, payload := l.copied.flatMap (·.message.msg) }
      ({ sq with
          retransmitTimer := if sq.sentQueue = [] then .later else sq.retransmitTimer
          sendSeq := sq.sendSeq + 1
          needAckBytes := sq.needAckBytes + len
          sentQueue := sq.sentQueue ++ [block] }, { block := block, copied := l.copied })

/-- What `check_send_command` reads from the time and the clock estimate: the mcu
clock at which a block sent now is acknowledged, the clock that stands for
`BACKGROUND_PRIORITY_CLOCK`, `MIN_REQTIME_DELTA` in ticks, and whether there is
an estimate. -/
structure ClockReading where
  ackClock : Int
  backgroundClock : Int
  reqclockDelta : Int
  estFreq : Bool
  deriving DecidableEq, Repr

/-- The variables of the loop of `check_send_command` over the pending queues. -/
structure CheckLoop where
  sq : SerialQueue
  minStalledClock : Int
  minReadyClock : Int

/-- A command queue with the counters of its messages. -/
structure MoveLoop where
  cq : CommandQueue
  stalledBytes : Int
  readyBytes : Int

/-- Move messages from the stalled queue to the ready queue. -/
def moveStalled (ackClock : Int) : List QueueMessage → List QueueMessage → Int → Int → MoveLoop
  | [], ready, stalledBytes, readyBytes =>
      { cq := { stalledQueue := [], readyQueue := ready }
        stalledBytes := stalledBytes
        readyBytes := readyBytes }
  | qm :: rest, ready, stalledBytes, readyBytes =>
      if ackClock < qm.minClock then
        { cq := { stalledQueue := qm :: rest, readyQueue := ready }
          stalledBytes := stalledBytes
          readyBytes := readyBytes }
      else
        moveStalled ackClock rest (ready ++ [qm]) (stalledBytes - qm.len) (readyBytes + qm.len)

/-- One round of the loop of `check_send_command` over the pending queues. -/
def checkQueue (r : ClockReading) (l : CheckLoop) (q : Nat) : CheckLoop :=
  let old := l.sq.commandQueues q
  let moved := moveStalled r.ackClock old.stalledQueue old.readyQueue l.sq.stalledBytes
    l.sq.readyBytes
  let cq := moved.cq
  { sq :=
      { l.sq with
        commandQueues := Function.update l.sq.commandQueues q cq
        stalledBytes := moved.stalledBytes
        readyBytes := moved.readyBytes }
    minStalledClock :=
      match cq.stalledQueue with
      | [] => l.minStalledClock
      | qm :: _ => if qm.minClock < l.minStalledClock then qm.minClock else l.minStalledClock
    minReadyClock :=
      match cq.readyQueue with
      | [] => l.minReadyClock
      | qm :: _ =>
          let reqClock :=
            if qm.reqClock = backgroundPriorityClock then r.backgroundClock else qm.reqClock
          if reqClock < l.minReadyClock then reqClock else l.minReadyClock }

/-- An ack is needed before more messages can be sent. -/
def SerialQueue.mustWait (sq : SerialQueue) : Bool :=
  decide (u64 (sq.sendSeq - sq.receiveSeq) ≥ maxPendingBlocks ∧ sq.receiveSeq ≠ noReceiveSeq) ||
    (decide (sq.sendSeq > sq.receiveSeq ∧ sq.receiveWindow ≠ 0) &&
      let needAckBytes := sq.needAckBytes + messageMax
      let needAckBytes :=
        if sq.lastAckSeq < sq.receiveSeq then needAckBytes + sq.lastAckBytes else needAckBytes
      decide (needAckBytes > sq.receiveWindow))

/-- `check_send_command`: determine the time the next serial data should be sent. -/
def checkSendCommand (r : ClockReading) (sq : SerialQueue) : SerialQueue × WakeTime :=
  if sq.mustWait then (sq, .never)
  else
    let l := sq.pendingQueues.foldl (checkQueue r)
      { sq := sq, minStalledClock := serialMaxClock, minReadyClock := serialMaxClock }
    let sq := l.sq
    -- check for messages to send
    if sq.readyBytes ≥ messagePayloadMax then (sq, .now)
    else if !r.estFreq then
      if sq.readyBytes ≠ 0 then (sq, .now)
      else ({ sq with needKickClock := serialMaxClock }, .never)
    else if l.minReadyClock ≤ u64 (r.ackClock + r.reqclockDelta) then (sq, .now)
    else
      let wantclock := u64 (l.minReadyClock - r.reqclockDelta)
      let wantclock := if l.minStalledClock < wantclock then l.minStalledClock else wantclock
      ({ sq with needKickClock := wantclock }, .later)

/-- One round of the loop of `command_event`, which ends when nothing is to be sent
now. -/
def commandEvent (r : ClockReading) (sq : SerialQueue) :
    Except SerialFault (SerialQueue × Option Built) :=
  let (sq, waketime) := checkSendCommand r sq
  if waketime = .now then
    (buildAndSendCommand sq).map fun (sq, built) => (sq, some built)
  else .ok (sq, none)

/-! ## Queuing -/

/-- Make sure `min_clock` is set. -/
def setMinClock (qm : QueueMessage) : QueueMessage :=
  if u64 (qm.minClock + 0x80000000) < qm.reqClock ∧ qm.reqClock ≠ backgroundPriorityClock then
    { qm with minClock := qm.reqClock - 0x80000000 }
  else qm

/-- The bytes of a list of messages. -/
def totalLen (msgs : List QueueMessage) : Int := (msgs.map QueueMessage.len).sum

/-- `serialqueue_send_batch`: add a batch of messages to the given command queue. -/
def serialqueueSendBatch (q : Nat) (msgs : List QueueMessage) (sq : SerialQueue) :
    SerialQueue :=
  let msgs := msgs.map setMinClock
  if totalLen msgs = 0 then sq
  else
    match msgs with
    | [] => sq
    | qm :: _ =>
        let cq := sq.commandQueues q
        { sq with
          pendingQueues :=
            if cq.readyQueue = [] ∧ cq.stalledQueue = [] then sq.pendingQueues ++ [q]
            else sq.pendingQueues
          commandQueues := Function.update sq.commandQueues q
            { cq with stalledQueue := cq.stalledQueue ++ msgs }
          stalledBytes := sq.stalledBytes + totalLen msgs
          needKickClock := if qm.minClock < sq.needKickClock then 0 else sq.needKickClock }

end FlsunT1.Chelper
