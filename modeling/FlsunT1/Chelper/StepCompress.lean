/-
  Chelper/StepCompress.lean --- stepper pulse schedule compression on the host.

  Source: klipper/klippy/chelper/stepcompress.c.  The queue is the list of the
  `uint32_t` between `queue_pos` and `queue_next`; `pos` and `cap` are the
  distances of `queue_pos` and `queue_end` from `queue`.  Each `int32_t`
  expression is computed on the integers and wrapped by `i32`.  Clocks of 64 bits
  are integers.  A step is appended by its clock: the conversion of print times,
  which is done in floating point, is left out, and so the two tick counts that
  depend on the mcu frequency are parameters of the object.
-/
import FlsunT1.Library.Word

set_option autoImplicit false

namespace FlsunT1.Chelper

open FlsunT1.Library

/-! ## Data -/

/-- `struct step_move` -/
structure StepMove where
  interval : Int
  count : Int
  add : Int
  deriving DecidableEq, Repr

/-- The commands a stepcompress object encodes into messages. -/
inductive StepCommand
  | queueStep (interval count add : Int)
  | setNextStepDir (dir : Bool)
  /-- a command of `stepcompress_queue_msg` -/
  | other (data : List Int)
  deriving DecidableEq, Repr

/-- A `struct queue_message` with the command it encodes. -/
structure StepMessage where
  command : StepCommand
  minClock : Int
  reqClock : Int
  deriving DecidableEq, Repr

/-- `struct history_steps` -/
structure HistorySteps where
  firstClock : Int
  lastClock : Int
  startPosition : Int
  stepCount : Int
  interval : Int
  add : Int
  deriving DecidableEq, Repr

/-- `struct stepcompress`.  `sdir` is `none` for -1; a `nextStepClock` of 0 means
that no step is pending.  `filterTicks` is `SDS_FILTER_TIME` and `historyTicks`
is `HISTORY_EXPIRE` in clock ticks. -/
structure StepCompress where
  queue : List Int
  pos : Nat
  cap : Nat
  maxError : Int
  lastStepClock : Int
  msgQueue : List StepMessage
  sdir : Option Bool
  invertSdir : Bool
  nextStepClock : Int
  nextStepDir : Bool
  lastPosition : Int
  historyList : List HistorySteps
  filterTicks : Int
  historyTicks : Int
  deriving DecidableEq, Repr

/-- What may go wrong in a call. -/
inductive StepFault
  /-- `ERROR_RET` -/
  | errorRet
  /-- a write behind the end of the queue -/
  | overrun
  /-- a loop of the model ran out of rounds -/
  | rounds
  deriving DecidableEq, Repr

/-- `UINT64_MAX` -/
def uint64Max : Int := 18446744073709551615

/-- `QUEUE_START_SIZE` -/
def queueStartSize : Nat := 1024

/-! ## Step compression -/

/-- `idiv_up` -/
def idivUp (n d : Int) : Int :=
  if 0 ≤ n then (i32 (n + d - 1)).tdiv d else n.tdiv d

/-- `idiv_down` -/
def idivDown (n d : Int) : Int :=
  if 0 ≤ n then n.tdiv d else (i32 (n - d + 1)).tdiv d

/-- `struct points` -/
structure Points where
  minp : Int
  maxp : Int
  deriving DecidableEq, Repr

/-- `minmax_point`: the acceptable times of the step at `queue_pos + i`. -/
def minmaxPoint (sc : StepCompress) (i : Nat) : Points :=
  let lsc := u32 sc.lastStepClock
  let point := u32 (sc.queue.getD i 0 - lsc)
  let prevpoint := if 0 < i then u32 (sc.queue.getD (i - 1) 0 - lsc) else 0
  let maxError := u32 (point - prevpoint) / 2
  let maxError := if maxError > sc.maxError then sc.maxError else maxError
  { minp := i32 (point - maxError), maxp := i32 point }

/-- `QUADRATIC_DEV` -/
def quadraticDev : Int := 11

/-- The variables of the inner loop of `compress_bisect_add` where it stops. -/
structure Sequence where
  nextcount : Int
  nextmininterval : Int
  nextmaxinterval : Int
  interval : Int
  nextpoint : Points
  deriving DecidableEq, Repr

/-- The inner loop of `compress_bisect_add`: the longest valid sequence with the
given `add`.  The list holds the points after the first `count` ones; when none
is left the whole queue is covered and the search is over. -/
def findSequence (add : Int) : List Points → Int → Int → Int → Int → StepMove ⊕ Sequence
  | [], count, _, _, interval => .inl { interval := interval, count := count, add := add }
  | nextpoint :: rest, count, nextmininterval, nextmaxinterval, interval =>
      let nextcount := count + 1
      let nextaddfactor := (i32 (nextcount * (nextcount - 1))).tdiv 2
      let c := i32 (add * nextaddfactor)
      let nextmininterval :=
        if i32 (nextmininterval * nextcount) < i32 (nextpoint.minp - c) then
          idivUp (i32 (nextpoint.minp - c)) nextcount
        else nextmininterval
      let nextmaxinterval :=
        if i32 (nextmaxinterval * nextcount) > i32 (nextpoint.maxp - c) then
          idivDown (i32 (nextpoint.maxp - c)) nextcount
        else nextmaxinterval
      if nextmininterval > nextmaxinterval then
        .inr
          { nextcount := nextcount
            nextmininterval := nextmininterval
            nextmaxinterval := nextmaxinterval
            interval := interval
            nextpoint := nextpoint }
      else findSequence add rest nextcount nextmininterval nextmaxinterval nextmaxinterval

/-- The variables of the outer loop of `compress_bisect_add`. -/
structure Bisect where
  outerMininterval : Int
  outerMaxinterval : Int
  add : Int
  minadd : Int
  maxadd : Int
  bestinterval : Int
  bestcount : Int
  bestadd : Int
  bestreach : Int
  zerointerval : Int
  zerocount : Int
  deriving DecidableEq, Repr

namespace Bisect

/-- Before the first round, for the first point of the queue. -/
def init (point : Points) : Bisect where
  outerMininterval := point.minp
  outerMaxinterval := point.maxp
  add := 0
  minadd := -0x8000
  maxadd := 0x7fff
  bestinterval := 0
  bestcount := 1
  bestadd := 1
  bestreach := -0x80000000
  zerointerval := 0
  zerocount := 0

/-- How far a sequence reaches. -/
def reach (b : Bisect) (q : Sequence) : Int :=
  let count := q.nextcount - 1
  let addfactor := (i32 (count * (count - 1))).tdiv 2
  i32 (b.add * addfactor + q.interval * count)

/-- This is the best sequence found so far. -/
def isBest (b : Bisect) (q : Sequence) : Bool :=
  decide (b.reach q > b.bestreach) ||
    (b.reach q == b.bestreach && decide (q.interval > b.bestinterval))

/-- Remember the sequence. -/
def keepBest (b : Bisect) (q : Sequence) : Bisect :=
  { b with
    bestinterval := q.interval
    bestcount := q.nextcount - 1
    bestadd := b.add
    bestreach := b.reach q
    zerointerval := if b.add = 0 then q.interval else b.zerointerval
    zerocount := if b.add = 0 then q.nextcount - 1 else b.zerocount }

/-- Check if a greater or lesser add could extend the sequence. -/
def narrowSide (b : Bisect) (q : Sequence) : Bisect :=
  let nextaddfactor := (i32 (q.nextcount * (q.nextcount - 1))).tdiv 2
  let nextreach := i32 (b.add * nextaddfactor + q.interval * q.nextcount)
  if nextreach < q.nextpoint.minp then
    { b with minadd := i32 (b.add + 1), outerMaxinterval := q.nextmaxinterval }
  else { b with maxadd := i32 (b.add - 1), outerMininterval := q.nextmininterval }

/-- The maximum valid deviation between two quadratic sequences limits the range. -/
def narrowDeviation (maxError : Int) (b : Bisect) (q : Sequence) : Bisect :=
  let count := q.nextcount - 1
  if count > 1 then
    let errdelta := i32 (u32 (maxError * quadraticDev) / u32 (i32 (count * count)))
    let minadd := if b.minadd < i32 (b.add - errdelta) then i32 (b.add - errdelta) else b.minadd
    let maxadd := if b.maxadd > i32 (b.add + errdelta) then i32 (b.add + errdelta) else b.maxadd
    { b with minadd := minadd, maxadd := maxadd }
  else b

/-- See if the next point would further limit the range. -/
def narrowPoint (b : Bisect) (q : Sequence) : Bisect :=
  let nextaddfactor := (i32 (q.nextcount * (q.nextcount - 1))).tdiv 2
  let c := i32 (b.outerMaxinterval * q.nextcount)
  let minadd :=
    if i32 (b.minadd * nextaddfactor) < i32 (q.nextpoint.minp - c) then
      idivUp (i32 (q.nextpoint.minp - c)) nextaddfactor
    else b.minadd
  let c := i32 (b.outerMininterval * q.nextcount)
  let maxadd :=
    if i32 (b.maxadd * nextaddfactor) > i32 (q.nextpoint.maxp - c) then
      idivDown (i32 (q.nextpoint.maxp - c)) nextaddfactor
    else b.maxadd
  { b with minadd := minadd, maxadd := maxadd }

/-- The range of add after a round. -/
def narrow (maxError : Int) (b : Bisect) (q : Sequence) : Bisect :=
  narrowPoint (narrowDeviation maxError (narrowSide b q) q) q

/-- Bisect the range of add. -/
def bisectAdd (b : Bisect) : Bisect :=
  { b with add := i32 (b.maxadd - (i32 (b.maxadd - b.minadd)).tdiv 4) }

/-- The sequence to use: prefer `add = 0` if it is similar to the best one. -/
def choose (b : Bisect) : StepMove :=
  if b.zerocount + b.zerocount / 16 ≥ b.bestcount then
    { interval := b.zerointerval, count := b.zerocount, add := 0 }
  else { interval := b.bestinterval, count := b.bestcount, add := b.bestadd }

end Bisect

/-- The outer loop of `compress_bisect_add`; the list holds the points after the
first one. -/
def bisectLoop (maxError : Int) (rest : List Points) : Nat → Bisect → Option StepMove
  | 0, _ => none
  | rounds + 1, b =>
      match findSequence b.add rest 1 b.outerMininterval b.outerMaxinterval b.outerMaxinterval with
      | .inl move => some move
      | .inr q =>
          let best := b.isBest q
          let b := if best then b.keepBest q else b
          if best && decide (q.nextcount - 1 > 0x200) then
            -- no 'add' will improve the sequence
            some b.choose
          else
            let b := b.narrow maxError q
            if b.minadd > b.maxadd then some b.choose
            else bisectLoop maxError rest rounds b.bisectAdd

/-- `compress_bisect_add`: find a `step_move` that covers a series of step times.
Each round shrinks the range of add, so `0x10000` rounds are enough. -/
def compressBisectAdd (sc : StepCompress) : Option StepMove :=
  match (List.range (min sc.queue.length 65535)).map (minmaxPoint sc) with
  | [] => none
  | point :: rest => bisectLoop sc.maxError rest 0x10000 (.init point)

/-! ## Step compress checking -/

/-- The loop of `check_line` from the step `i` on. -/
def checkSteps (sc : StepCompress) (add : Int) : Nat → Nat → Int → Int → Bool
  | 0, _, _, _ => true
  | n + 1, i, interval, p =>
      let point := minmaxPoint sc i
      let p := u32 (p + interval)
      if p < u32 point.minp ∨ p > u32 point.maxp then false
      else if interval ≥ 0x80000000 then false
      else checkSteps sc add n (i + 1) (u32 (interval + add)) p

/-- `check_line`: verify that a `step_move` matches the actual step times. -/
def checkLine (sc : StepCompress) (move : StepMove) : Bool :=
  if move.count = 0 ∨ (move.interval = 0 ∧ move.add = 0 ∧ move.count > 1) ∨
      move.interval ≥ 0x80000000 then false
  else checkSteps sc move.add move.count.toNat 0 move.interval 0

/-! ## Step compress interface -/

/-- `stepcompress_alloc` and `stepcompress_fill`, for an mcu frequency in which
the two times are the given tick counts. -/
def StepCompress.alloc (maxError filterTicks historyTicks : Int) : StepCompress where
  queue := []
  pos := 0
  cap := 0
  maxError := maxError
  lastStepClock := 0
  msgQueue := []
  sdir := none
  invertSdir := false
  nextStepClock := 0
  nextStepDir := false
  lastPosition := 0
  historyList := []
  filterTicks := filterTicks
  historyTicks := historyTicks

/-- `stepcompress_set_invert_sdir` -/
def stepcompressSetInvertSdir (invertSdir : Bool) (sc : StepCompress) : StepCompress :=
  if invertSdir ≠ sc.invertSdir then
    { sc with invertSdir := invertSdir, sdir := sc.sdir.map (!·) }
  else sc

/-- `free_history`: the list is kept with the latest entry first. -/
def freeHistory (endClock : Int) (history : List HistorySteps) : List HistorySteps :=
  (history.reverse.dropWhile fun hs => decide (hs.lastClock ≤ endClock)).reverse

/-- `calc_last_step_print_time`, of which only the expiry of the history is left. -/
def calcLastStepPrintTime (sc : StepCompress) : StepCompress :=
  if sc.lastStepClock > sc.historyTicks then
    { sc with historyList := freeHistory (sc.lastStepClock - sc.historyTicks) sc.historyList }
  else sc

/-- `CLOCK_DIFF_MAX`: the maximum clock delta between messages in the queue -/
def clockDiffMax : Int := 805306368

/-- `add_move`: create a queue_step command from a `step_move`. -/
def addMove (firstClock : Int) (move : StepMove) (sc : StepCompress) : StepCompress :=
  let addfactor := (i32 (move.count * (move.count - 1))).tdiv 2
  let ticks := u32 (i32 (move.add * addfactor) + move.interval * (move.count - 1))
  let lastClock := firstClock + ticks
  let reqClock :=
    if move.count = 1 ∧ firstClock ≥ sc.lastStepClock + clockDiffMax then firstClock
    else sc.lastStepClock
  let stepCount := if sc.sdir = some false then -move.count else move.count
  { sc with
    msgQueue := sc.msgQueue ++
      [{ command := .queueStep move.interval move.count move.add
         minClock := sc.lastStepClock
         reqClock := reqClock }]
    lastStepClock := lastClock
    historyList :=
      { firstClock := firstClock
        lastClock := lastClock
        startPosition := sc.lastPosition
        stepCount := stepCount
        interval := move.interval
        add := move.add } :: sc.historyList
    lastPosition := sc.lastPosition + stepCount }

/-- The loop of `queue_flush`; every round takes a step off the queue. -/
def queueFlushLoop (moveClock : Int) : Nat → StepCompress → Except StepFault StepCompress
  | 0, _ => .error .rounds
  | rounds + 1, sc =>
      if sc.lastStepClock < moveClock then
        match compressBisectAdd sc with
        | none => .error .rounds
        | some move =>
            if checkLine sc move then
              let sc := addMove (sc.lastStepClock + move.interval) move sc
              if move.count ≥ sc.queue.length then .ok { sc with queue := [], pos := 0 }
              else
                queueFlushLoop moveClock rounds
                  { sc with
                    queue := sc.queue.drop move.count.toNat
                    pos := sc.pos + move.count.toNat }
            else .error .errorRet
      else .ok sc

/-- `queue_flush`: convert previously scheduled steps into commands for the mcu. -/
def queueFlush (moveClock : Int) (sc : StepCompress) : Except StepFault StepCompress :=
  if sc.queue = [] then .ok sc
  else (queueFlushLoop moveClock (sc.queue.length + 1) sc).map calcLastStepPrintTime

/-- `stepcompress_flush_far`: a queue_step for a step far in the future. -/
def stepcompressFlushFar (absStepClock : Int) (sc : StepCompress) : StepCompress :=
  let move := { interval := u32 (absStepClock - sc.lastStepClock), count := 1, add := 0 }
  calcLastStepPrintTime (addMove absStepClock move sc)

/-- `set_next_step_dir` -/
def setNextStepDir (sdir : Bool) (sc : StepCompress) : Except StepFault StepCompress :=
  if sc.sdir = some sdir then .ok sc
  else
    (queueFlush uint64Max sc).map fun sc =>
      { sc with
        sdir := some sdir
        msgQueue := sc.msgQueue ++
          [{ command := .setNextStepDir (sdir != sc.invertSdir)
             minClock := 0
             reqClock := sc.lastStepClock }] }

/-- `*sc->queue_next++ = clock` -/
def queuePut (clock : Int) (sc : StepCompress) : Except StepFault StepCompress :=
  if sc.pos + sc.queue.length < sc.cap then .ok { sc with queue := sc.queue ++ [u32 clock] }
  else .error .overrun

/-- `queue_append_far`: handle a next step far in the future. -/
def queueAppendFar (sc : StepCompress) : Except StepFault StepCompress :=
  let stepClock := sc.nextStepClock
  (queueFlush (stepClock - clockDiffMax + 1) { sc with nextStepClock := 0 }).bind fun sc =>
    if stepClock ≥ sc.lastStepClock + clockDiffMax then .ok (stepcompressFlushFar stepClock sc)
    else queuePut stepClock sc

/-- `while (in_use >= alloc) alloc *= 2` -/
def growAlloc (inUse : Nat) : Nat → Nat → Nat
  | 0, alloc => alloc
  | rounds + 1, alloc => if inUse ≥ alloc then growAlloc inUse rounds (alloc * 2) else alloc

/-- Make room in the queue: move it to the front of its storage, or expand that. -/
def queueMakeRoom (sc : StepCompress) : StepCompress :=
  if sc.pos + sc.queue.length ≥ sc.cap then
    if sc.pos > 0 then { sc with pos := 0 }
    else
      let alloc := if sc.cap = 0 then queueStartSize else sc.cap
      { sc with pos := 0, cap := growAlloc sc.queue.length (sc.queue.length + 1) alloc }
  else sc

/-- `queue_append_extend`: expand the internal queue storage. -/
def queueAppendExtend (sc : StepCompress) : Except StepFault StepCompress :=
  let flushed :=
    if sc.queue.length > 65535 + 2000 then
      let flush := u32 (sc.queue.getD (sc.queue.length - 65535) 0 - u32 sc.lastStepClock)
      queueFlush (sc.lastStepClock + flush) sc
    else .ok sc
  flushed.bind fun sc =>
    (queuePut sc.nextStepClock (queueMakeRoom sc)).map fun sc => { sc with nextStepClock := 0 }

/-- `queue_append`: add a step time to the queue (flushing the queue if needed). -/
def queueAppend (sc : StepCompress) : Except StepFault StepCompress :=
  (setNextStepDir sc.nextStepDir sc).bind fun sc =>
    if sc.nextStepClock ≥ sc.lastStepClock + clockDiffMax then queueAppendFar sc
    else if sc.pos + sc.queue.length ≥ sc.cap then queueAppendExtend sc
    else (queuePut sc.nextStepClock sc).map fun sc => { sc with nextStepClock := 0 }

/-- The step+dir+step filter of `stepcompress_append` would take the pending step
back. -/
def rollsBack (sdir : Bool) (stepClock : Int) (sc : StepCompress) : Bool :=
  sc.nextStepClock != 0 && sdir != sc.nextStepDir &&
    decide (stepClock - sc.nextStepClock < sc.filterTicks)

/-- `stepcompress_append`: add the next step time. -/
def stepcompressAppend (sdir : Bool) (stepClock : Int) (sc : StepCompress) :
    Except StepFault StepCompress :=
  if rollsBack sdir stepClock sc then .ok { sc with nextStepClock := 0, nextStepDir := sdir }
  else
    let flushed := if sc.nextStepClock ≠ 0 then queueAppend sc else .ok sc
    flushed.map fun sc => { sc with nextStepClock := stepClock, nextStepDir := sdir }

/-- `stepcompress_commit` -/
def stepcompressCommit (sc : StepCompress) : Except StepFault StepCompress :=
  if sc.nextStepClock ≠ 0 then queueAppend sc else .ok sc

/-- `stepcompress_flush` -/
def stepcompressFlush (moveClock : Int) (sc : StepCompress) : Except StepFault StepCompress :=
  let flushed :=
    if sc.nextStepClock ≠ 0 ∧ moveClock ≥ sc.nextStepClock then queueAppend sc else .ok sc
  flushed.bind (queueFlush moveClock)

/-- `stepcompress_reset` -/
def stepcompressReset (lastStepClock : Int) (sc : StepCompress) :
    Except StepFault StepCompress :=
  (stepcompressFlush uint64Max sc).map fun sc =>
    calcLastStepPrintTime { sc with lastStepClock := lastStepClock, sdir := none }

/-- `stepcompress_set_last_position` -/
def stepcompressSetLastPosition (clock lastPosition : Int) (sc : StepCompress) :
    Except StepFault StepCompress :=
  (stepcompressFlush uint64Max sc).map fun sc =>
    { sc with
      lastPosition := lastPosition
      historyList :=
        { firstClock := clock
          lastClock := clock
          startPosition := lastPosition
          stepCount := 0
          interval := 0
          add := 0 } :: sc.historyList }

/-- `stepcompress_queue_msg` -/
def stepcompressQueueMsg (data : List Int) (sc : StepCompress) : Except StepFault StepCompress :=
  (stepcompressFlush uint64Max sc).map fun sc =>
    { sc with
      msgQueue := sc.msgQueue ++
        [{ command := .other data, minClock := 0, reqClock := sc.lastStepClock }] }

end FlsunT1.Chelper
