/-
  Klippy/ToolHead.lean --- the print time and the generation of steps
  (class ToolHead, klippy/toolhead.py).

  What the toolhead does is the trace of its calls of the trapezoid queue, of the step generators
  and of the micro-controllers, with the values it gives to `print_time` and `kin_flush_delay`.
  The moves that the look-ahead queue hands over, and the estimated print times that a call reads,
  come with the call.  The gaps that the trapezoid queue fills are left out.
-/
import Mathlib.Algebra.Order.Field.Basic
import Mathlib.Algebra.Order.Floor.Semiring
import FlsunT1.Library.Instances
import FlsunT1.Library.Monitor
import FlsunT1.Library.Run

set_option autoImplicit false

namespace FlsunT1.Klippy

open Library

variable {K : Type} [Field K] [LinearOrder K] [IsStrictOrderedRing K] [FloorSemiring K]

/-! ## Moves -/

/-- The times of a move, and whether it is one of the kinematics. -/
structure MoveTimes (K : Type) [Field K] [LinearOrder K] where
  accelT : K
  cruiseT : K
  decelT : K
  isKinematicMove : Bool
  accelT_nonneg : 0 ≤ accelT
  cruiseT_nonneg : 0 ≤ cruiseT
  decelT_nonneg : 0 ≤ decelT
  deriving DecidableEq

/-- A part of a move in the trapezoid queue. -/
structure Trapezoid (K : Type) where
  startTime : K
  endTime : K
  deriving DecidableEq

/-- A part of a move, if it takes time. -/
def part (startTime t : K) : List (Trapezoid K) :=
  if t = 0 then [] else [⟨startTime, startTime + t⟩]

/-- `trapq_append` -/
def trapqAppend (printTime : K) (m : MoveTimes K) : List (Trapezoid K) :=
  part printTime m.accelT ++ part (printTime + m.accelT) m.cruiseT ++
    part (printTime + m.accelT + m.cruiseT) m.decelT

/-! ## The trace -/

/-- What the toolhead assigns and calls. -/
inductive HeadAction (K : Type) [Field K] [LinearOrder K]
  | printTime (t : K)
  | kinFlushDelay (d : K)
  /-- `sg(sg_flush_time)`, for each step generator -/
  | generateSteps (t : K)
  | trapqAppend (printTime : K) (m : MoveTimes K)
  | trapqFinalizeMoves (t : K)
  /-- `trapq_finalize_moves` of all moves, after a drip move that was cut short -/
  | dripEnd
  /-- `trapq_set_position`, which finalizes all moves -/
  | trapqSetPosition
  | flushMoves (t : K)
  deriving DecidableEq

/-- What is known after some actions: the values that were assigned, the largest flush time, and the
moves that are not finalized. -/
structure HeadTrace (K : Type) where
  printTime : K
  kinFlushDelay : K
  flushTime : Option K
  moves : List (Trapezoid K)

namespace HeadTrace

/-- Steps are generated up to a time. -/
def Reaches (s : HeadTrace K) (t : K) : Prop := ∃ u, s.flushTime = some u ∧ t ≤ u

def next (s : HeadTrace K) : HeadAction K → HeadTrace K
  | .printTime t => { s with printTime := t }
  | .kinFlushDelay d => { s with kinFlushDelay := d }
  | .generateSteps t => { s with flushTime := some (s.flushTime.elim t (max t)) }
  | .trapqAppend t m => { s with moves := s.moves ++ Klippy.trapqAppend t m }
  | .trapqFinalizeMoves t => { s with moves := s.moves.dropWhile fun m => decide (m.endTime ≤ t) }
  | .dripEnd => { s with moves := [] }
  | .trapqSetPosition => { s with moves := [] }
  | .flushMoves _ => s

/-- What an action is to keep to: times do not decrease, a move is appended behind the largest flush
time and finalized after its steps are generated, each by the kinematic delay, and the
micro-controllers do not flush more than was generated. -/
def Ok (s : HeadTrace K) : HeadAction K → Prop
  | .printTime t => s.printTime ≤ t
  | .kinFlushDelay _ => True
  | .generateSteps t => ∀ u, s.flushTime = some u → u ≤ t
  | .trapqAppend t _ => ∀ u, s.flushTime = some u → u + s.kinFlushDelay ≤ t
  | .trapqFinalizeMoves t => ∀ m ∈ s.moves.takeWhile fun m => decide (m.endTime ≤ t),
      s.Reaches (m.endTime + s.kinFlushDelay)
  | .dripEnd => True
  | .trapqSetPosition => ∀ m ∈ s.moves, s.Reaches (m.endTime + s.kinFlushDelay)
  | .flushMoves t => s.Reaches t

end HeadTrace

/-- The monitor of the toolhead. -/
def headMonitor : Monitor (HeadTrace K) (HeadAction K) where
  next := HeadTrace.next
  ok := HeadTrace.Ok

/-! ## The toolhead -/

/-- `MIN_KIN_TIME` -/
def minKinTime : K := 1 / 10

/-- `MOVE_BATCH_TIME` -/
def moveBatchTime : K := 1 / 2

/-- `SDS_CHECK_TIME` -/
def sdsCheckTime : K := 1 / 1000

/-- `DRIP_SEGMENT_TIME` -/
def dripSegmentTime : K := 1 / 20

/-- The states of the queue; `main` is the empty string. -/
inductive QueuingState
  | main | flushed | priming | drip
  deriving DecidableEq

/-- The times that are configured. -/
structure BufferTimes (K : Type) [Field K] [LinearOrder K] where
  bufferTimeLow : K
  bufferTimeStart : K
  moveFlushTime : K
  moveFlushTime_pos : 0 < moveFlushTime

/-- The state of `ToolHead`, with the trace so far. -/
structure ToolHead (K : Type) [Field K] [LinearOrder K] where
  printTime : K
  specialQueuingState : QueuingState
  kinFlushDelay : K
  kinFlushTimes : List K
  lastKinFlushTime : K
  lastKinMoveTime : K
  trace : List (HeadAction K)

namespace ToolHead

/-- `__init__` -/
def init : ToolHead K where
  printTime := 0
  specialQueuingState := .flushed
  kinFlushDelay := sdsCheckTime
  kinFlushTimes := []
  lastKinFlushTime := 0
  lastKinMoveTime := 0
  trace := []

/-- What is known before the first action. -/
def initTrace : HeadTrace K := ⟨0, sdsCheckTime, none, []⟩

variable (cfg : BufferTimes K)

/-- An action of the toolhead. -/
def act (a : HeadAction K) (s : ToolHead K) : ToolHead K := { s with trace := s.trace ++ [a] }

/-- `self.print_time = t` -/
def setPrintTime (t : K) (s : ToolHead K) : ToolHead K :=
  act (.printTime t) { s with printTime := t }

/-- One pass of the loop of `_update_move_time`. -/
def updateBatch (nextPrintTime : K) (s : ToolHead K) : ToolHead K :=
  let lkft := s.lastKinFlushTime
  let s := s.setPrintTime (min (s.printTime + moveBatchTime) nextPrintTime)
  let sgFlushTime := max lkft (s.printTime - s.kinFlushDelay)
  let freeTime := max lkft (sgFlushTime - s.kinFlushDelay)
  let mcuFlushTime := max lkft (sgFlushTime - cfg.moveFlushTime)
  act (.flushMoves mcuFlushTime) (act (.trapqFinalizeMoves freeTime)
    (act (.generateSteps sgFlushTime) s))

/-- The loop of `_update_move_time`, for a number of passes at most. -/
def updateLoop (nextPrintTime : K) : ℕ → ToolHead K → ToolHead K
  | 0, s => s
  | n + 1, s =>
    let s := updateBatch cfg nextPrintTime s
    if nextPrintTime ≤ s.printTime then s else updateLoop nextPrintTime n s

/-- `_update_move_time` -/
def updateMoveTime (nextPrintTime : K) (s : ToolHead K) : ToolHead K :=
  updateLoop cfg nextPrintTime (⌈(nextPrintTime - s.printTime) / moveBatchTime⌉₊ + 1) s

/-- `_calc_print_time` -/
def calcPrintTime (estPrintTime : K) (s : ToolHead K) : ToolHead K :=
  let kinTime := max (estPrintTime + minKinTime) s.lastKinFlushTime + s.kinFlushDelay
  let minPrintTime := max (estPrintTime + cfg.bufferTimeStart) kinTime
  if s.printTime < minPrintTime then s.setPrintTime minPrintTime else s

/-- The moves are appended one after another, up to the time that is returned. -/
def appendMoves : List (MoveTimes K) → K → ToolHead K → ToolHead K × K
  | [], t, s => (s, t)
  | m :: moves, t, s =>
    appendMoves moves (t + m.accelT + m.cruiseT + m.decelT)
      (if m.isKinematicMove then act (.trapqAppend t m) s else s)

/-- `_update_drip_move_time`, for a number of segments at most.  It ends early when the completion
tests true, before the segment `cut`. -/
def updateDripMoveTime (nextPrintTime : K) : ℕ → Option ℕ → ToolHead K → ToolHead K × Bool
  | 0, _, s => (s, false)
  | n + 1, cut, s =>
    if s.printTime < nextPrintTime then
      if cut = some 0 then (s, true)
      else
        updateDripMoveTime nextPrintTime n (cut.map Nat.pred)
          (updateMoveTime cfg (min (s.printTime + dripSegmentTime) nextPrintTime) s)
    else (s, false)

/-- How `_process_moves` resyncs `print_time`, if necessary. -/
def resync (estPrintTime : K) (s : ToolHead K) : ToolHead K :=
  if s.specialQueuingState = .main then s
  else if s.specialQueuingState = .drip then calcPrintTime cfg estPrintTime s
  else calcPrintTime cfg estPrintTime { s with specialQueuingState := .main }

/-- How `_process_moves` generates the steps of the moves, with whether a drip move ended early. -/
def generateMoves (nextMoveTime : K) (cut : Option ℕ) (s : ToolHead K) : ToolHead K × Bool :=
  let (s, ended) :=
    if s.specialQueuingState = .main then (s, false)
    else
      updateDripMoveTime cfg nextMoveTime
        (⌈(nextMoveTime - s.printTime) / dripSegmentTime⌉₊ + 1) cut s
  if ended then (s, true)
  else ({ updateMoveTime cfg nextMoveTime s with lastKinMoveTime := nextMoveTime }, false)

/-- `_process_moves`, with whether a drip move ended early. -/
def processMoves (estPrintTime : K) (cut : Option ℕ) (moves : List (MoveTimes K))
    (s : ToolHead K) : ToolHead K × Bool :=
  let s := resync cfg estPrintTime s
  let (s, nextMoveTime) := appendMoves moves s.printTime s
  generateMoves cfg nextMoveTime cut s

/-- `move_queue.flush`, which has nothing to process if there are no moves. -/
def flushQueue (estPrintTime : K) (cut : Option ℕ) (moves : List (MoveTimes K))
    (s : ToolHead K) : ToolHead K × Bool :=
  if moves.isEmpty then (s, false) else processMoves cfg estPrintTime cut moves s

/-- What `flush_step_generation` does once the look-ahead queue is flushed. -/
def finishGeneration (s : ToolHead K) : ToolHead K :=
  let flushTime := max (s.lastKinMoveTime + s.kinFlushDelay) (s.printTime - s.kinFlushDelay)
  let s := { s with
    specialQueuingState := .flushed
    lastKinFlushTime := max s.lastKinFlushTime flushTime }
  updateMoveTime cfg (max s.printTime s.lastKinFlushTime) s

/-- `flush_step_generation` -/
def flushStepGeneration (estPrintTime : K) (moves : List (MoveTimes K)) (s : ToolHead K) :
    ToolHead K :=
  finishGeneration cfg (flushQueue cfg estPrintTime none moves s).1

/-- `_flush_lookahead` -/
def flushLookahead (estPrintTime : K) (moves : List (MoveTimes K)) (s : ToolHead K) :
    ToolHead K :=
  if s.specialQueuingState = .main then (flushQueue cfg estPrintTime none moves s).1
  else flushStepGeneration cfg estPrintTime moves s

/-- `get_last_move_time` -/
def getLastMoveTime (estPrintTime estPrintTime' : K) (moves : List (MoveTimes K))
    (s : ToolHead K) : ToolHead K :=
  let s := flushLookahead cfg estPrintTime moves s
  if s.specialQueuingState = .main then s else calcPrintTime cfg estPrintTime' s

/-- `_check_stall`, once the buffer is small enough. -/
def checkStall (s : ToolHead K) : ToolHead K :=
  if s.specialQueuingState = .main then s else { s with specialQueuingState := .priming }

/-- `dwell` -/
def dwell (estPrintTime estPrintTime' : K) (moves : List (MoveTimes K)) (delay : K)
    (s : ToolHead K) : ToolHead K :=
  let s := getLastMoveTime cfg estPrintTime estPrintTime' moves s
  checkStall (updateMoveTime cfg (s.printTime + max 0 delay) s)

/-- `drip_move`; `rejected` is an error of the move. -/
def dripMove (estPrintTime estPrintTime' estPrintTime'' : K) (moves : List (MoveTimes K))
    (rejected : Bool) (drip : List (MoveTimes K)) (cut : Option ℕ) (s : ToolHead K) : ToolHead K :=
  let s := dwell cfg estPrintTime estPrintTime' moves s.kinFlushDelay s
  let s := { s with specialQueuingState := .drip }
  if rejected then flushStepGeneration cfg estPrintTime'' [] s
  else
    let (s, ended) := flushQueue cfg estPrintTime'' cut drip s
    let s := if ended then act .dripEnd s else s
    flushStepGeneration cfg estPrintTime'' [] s

/-- `note_step_generation_scan_time`; an old delay that is not noted raises an exception. -/
def noteStepGenerationScanTime (estPrintTime : K) (moves : List (MoveTimes K)) (delay oldDelay : K)
    (s : ToolHead K) : ToolHead K :=
  let s := flushStepGeneration cfg estPrintTime moves s
  if oldDelay ≠ 0 ∧ oldDelay ∉ s.kinFlushTimes then s
  else
    let times := if oldDelay = 0 then s.kinFlushTimes else s.kinFlushTimes.erase oldDelay
    let times := if delay = 0 then times else times ++ [delay]
    let newDelay := (times ++ [sdsCheckTime]).foldr max sdsCheckTime
    act (.kinFlushDelay newDelay) { s with kinFlushTimes := times, kinFlushDelay := newDelay }

/-- `_flush_handler` -/
def flushHandler (estPrintTime estPrintTime' : K) (moves : List (MoveTimes K)) (s : ToolHead K) :
    ToolHead K :=
  if cfg.bufferTimeLow < s.printTime - estPrintTime then s
  else flushStepGeneration cfg estPrintTime' moves s

end ToolHead

/-- The calls of the toolhead, each with the estimated print times it reads and the moves that the
look-ahead queue hands over.  After a move, `_check_stall` may be called. -/
inductive HeadEvent (K : Type) [Field K] [LinearOrder K]
  | move (estPrintTime : K) (moves : List (MoveTimes K)) (stall : Bool)
  | dwell (estPrintTime estPrintTime' : K) (moves : List (MoveTimes K)) (delay : K)
  | getLastMoveTime (estPrintTime estPrintTime' : K) (moves : List (MoveTimes K))
  | flushStepGeneration (estPrintTime : K) (moves : List (MoveTimes K))
  | waitMoves (estPrintTime : K) (moves : List (MoveTimes K))
  | setPosition (estPrintTime : K) (moves : List (MoveTimes K))
  | dripMove (estPrintTime estPrintTime' estPrintTime'' : K) (moves : List (MoveTimes K))
      (rejected : Bool) (drip : List (MoveTimes K)) (cut : Option ℕ)
  | noteStepGenerationScanTime (estPrintTime : K) (moves : List (MoveTimes K)) (delay oldDelay : K)
  | noteKinematicActivity (kinTime : K)
  | flushHandler (estPrintTime estPrintTime' : K) (moves : List (MoveTimes K))

namespace ToolHead

variable (cfg : BufferTimes K)

def step (s : ToolHead K) : HeadEvent K → ToolHead K
  | .move estPrintTime moves stall =>
    let s := (flushQueue cfg estPrintTime none moves s).1
    if stall then checkStall s else s
  | .dwell estPrintTime estPrintTime' moves delay =>
    dwell cfg estPrintTime estPrintTime' moves delay s
  | .getLastMoveTime estPrintTime estPrintTime' moves =>
    getLastMoveTime cfg estPrintTime estPrintTime' moves s
  | .flushStepGeneration estPrintTime moves => flushStepGeneration cfg estPrintTime moves s
  | .waitMoves estPrintTime moves => flushLookahead cfg estPrintTime moves s
  | .setPosition estPrintTime moves =>
    act .trapqSetPosition (flushStepGeneration cfg estPrintTime moves s)
  | .dripMove estPrintTime estPrintTime' estPrintTime'' moves rejected drip cut =>
    dripMove cfg estPrintTime estPrintTime' estPrintTime'' moves rejected drip cut s
  | .noteStepGenerationScanTime estPrintTime moves delay oldDelay =>
    noteStepGenerationScanTime cfg estPrintTime moves delay oldDelay s
  | .noteKinematicActivity kinTime =>
    { s with lastKinMoveTime := max s.lastKinMoveTime kinTime }
  | .flushHandler estPrintTime estPrintTime' moves =>
    flushHandler cfg estPrintTime estPrintTime' moves s

end ToolHead

end FlsunT1.Klippy
