/-
  Klippy/LookAhead.lean --- the look-ahead queue (class MoveQueue, klippy/toolhead.py).

  Moves wait in a queue until the speeds at their junctions are known.  `flush` goes through
  the queue from its last move to the first with two profiles, the real one and a smoothed
  one, and sets the junctions of the moves that it hands over to `_process_moves`.
-/
import FlsunT1.Klippy.DeltaKinematics

set_option autoImplicit false

namespace FlsunT1.Klippy

open Library

variable {K : Type} [Field K] [LinearOrder K]

/-! ## Moves -/

/-- `math.sqrt`, of a number that is not negative. -/
structure SquareRoot (K : Type) [Field K] [LinearOrder K] where
  sqrt : K → K
  nonneg : ∀ x, 0 ≤ sqrt x
  mul_self : ∀ x, 0 ≤ x → sqrt x * sqrt x = x

/-- The velocities that `set_junction` is called with. -/
structure Junction (K : Type) where
  startV2 : K
  cruiseV2 : K
  endV2 : K
  deriving DecidableEq

/-- A move in the look-ahead queue, with its junction speeds, and all calls of
`set_junction` for it. -/
structure QueuedMove (K : Type) extends Move K where
  maxStartV2 : K
  maxSmoothedV2 : K
  junctions : List (Junction K)

/-- `axes_r`; the quotient by 0 of a move without a distance is 0, as in the source. -/
def Move.axesR (m : Move K) (i : Fin 4) : K := m.axesD i * (1 / m.moveD)

/-- A move as `__init__` leaves it. -/
def Move.queued (m : Move K) : QueuedMove K :=
  { m with maxStartV2 := 0, maxSmoothedV2 := 0, junctions := [] }

/-- `calc_junction` of the extruder, with its `instant_corner_v`, or of a dummy one. -/
def extruderCalcJunction (instantCornerV : Option K) (prevMove move : Move K) : K :=
  match instantCornerV with
  | none => move.maxCruiseV2
  | some v =>
    let diffR := move.axesR 3 - prevMove.axesR 3
    if diffR ≠ 0 then (v / |diffR|) ^ 2 else move.maxCruiseV2

namespace QueuedMove

/-- `calc_junction` -/
def calcJunction (root : SquareRoot K) (junctionDeviation : K) (instantCornerV : Option K)
    (move prevMove : QueuedMove K) : QueuedMove K :=
  if move.isKinematicMove = false ∨ prevMove.isKinematicMove = false then move
  else
    let extruderV2 := extruderCalcJunction instantCornerV prevMove.toMove move.toMove
    let cosTheta := -(move.axesR 0 * prevMove.axesR 0 + move.axesR 1 * prevMove.axesR 1 +
      move.axesR 2 * prevMove.axesR 2)
    if cosTheta > 1 - 1 / 10 ^ 6 then move
    else
      let cosTheta := max cosTheta (-(1 - 1 / 10 ^ 6))
      let sinThetaD2 := root.sqrt (1 / 2 * (1 - cosTheta))
      let r := junctionDeviation * sinThetaD2 / (1 - sinThetaD2)
      let tanThetaD2 := sinThetaD2 / root.sqrt (1 / 2 * (1 + cosTheta))
      let moveCentripetalV2 := 1 / 2 * move.moveD * tanThetaD2 * move.accel
      let prevMoveCentripetalV2 := 1 / 2 * prevMove.moveD * tanThetaD2 * prevMove.accel
      let maxStartV2 := min (r * move.accel) (min (r * prevMove.accel)
        (min moveCentripetalV2 (min prevMoveCentripetalV2 (min extruderV2
          (min move.maxCruiseV2 (min prevMove.maxCruiseV2
            (prevMove.maxStartV2 + prevMove.deltaV2)))))))
      { move with
        maxStartV2 := maxStartV2
        maxSmoothedV2 := min maxStartV2 (prevMove.maxSmoothedV2 + prevMove.smoothDeltaV2) }

end QueuedMove

namespace Junction

variable (root : SquareRoot K) (j : Junction K) (m : Move K)

/-- `accel_d` of `set_junction` -/
def accelD : K := (j.cruiseV2 - j.startV2) * (1 / 2 / m.accel)

/-- `decel_d` -/
def decelD : K := (j.cruiseV2 - j.endV2) * (1 / 2 / m.accel)

/-- `cruise_d` -/
def cruiseD : K := m.moveD - j.accelD m - j.decelD m

/-- `accel_t`: the distance divided by the average velocity -/
def accelT : K := j.accelD m / ((root.sqrt j.startV2 + root.sqrt j.cruiseV2) * (1 / 2))

/-- `cruise_t` -/
def cruiseT : K := j.cruiseD m / root.sqrt j.cruiseV2

/-- `decel_t` -/
def decelT : K := j.decelD m / ((root.sqrt j.endV2 + root.sqrt j.cruiseV2) * (1 / 2))

end Junction

/-! ## Flushing -/

/-- An entry of `delayed`, with the place of its move in the queue. -/
structure DelayedMove (K : Type) where
  index : ℕ
  startV2 : K
  endV2 : K

/-- The variables of the loop of `flush`, and the calls of `set_junction` so far. -/
structure FlushLoop (K : Type) where
  nextEndV2 : K
  nextSmoothedV2 : K
  peakCruiseV2 : K
  delayed : List (DelayedMove K)
  flushCount : ℕ
  updateFlushCount : Bool
  calls : List (ℕ × Junction K)

/-- Propagate `peak_cruise_v2` to the delayed moves, the last one first. -/
def propagate : K → List (DelayedMove K) → List (ℕ × Junction K)
  | _, [] => []
  | mcV2, d :: rest =>
      let mcV2 := min mcV2 d.startV2
      (d.index, ⟨min d.startV2 mcV2, mcV2, min d.endV2 mcV2⟩) :: propagate mcV2 rest

namespace FlushLoop

/-- The junctions of moves from `i` on are set. -/
def commits (l : FlushLoop K) (i : ℕ) : Prop := l.updateFlushCount = false ∧ i < l.flushCount

instance (l : FlushLoop K) (i : ℕ) : Decidable (l.commits i) :=
  inferInstanceAs (Decidable (_ ∧ _))

/-- A move that can decelerate, or a full accel move after a full decel move. -/
def notePeak (i : ℕ) (peakCruiseV2 : K) (l : FlushLoop K) : FlushLoop K :=
  let stop := l.updateFlushCount = true ∧ l.peakCruiseV2 ≠ 0
  let l := { l with
    flushCount := if stop then i else l.flushCount
    updateFlushCount := if stop then false else l.updateFlushCount
    peakCruiseV2 := peakCruiseV2 }
  { l with
    calls := if l.commits i then l.calls ++ propagate peakCruiseV2 l.delayed.reverse else l.calls
    delayed := [] }

/-- One round of the loop of `flush`. -/
def visit (i : ℕ) (move : QueuedMove K) (l : FlushLoop K) : FlushLoop K :=
  let reachableStartV2 := l.nextEndV2 + move.deltaV2
  let startV2 := min move.maxStartV2 reachableStartV2
  let reachableSmoothedV2 := l.nextSmoothedV2 + move.smoothDeltaV2
  let smoothedV2 := min move.maxSmoothedV2 reachableSmoothedV2
  if smoothedV2 < reachableSmoothedV2 then
    -- it's possible for this move to accelerate
    let peaked :=
      if l.nextSmoothedV2 < smoothedV2 + move.smoothDeltaV2 ∨ l.delayed ≠ [] then
        l.notePeak i (min move.maxCruiseV2 ((smoothedV2 + reachableSmoothedV2) * (1 / 2)))
      else l
    let cruiseV2 := min ((startV2 + reachableStartV2) * (1 / 2))
      (min move.maxCruiseV2 peaked.peakCruiseV2)
    { peaked with
      nextEndV2 := startV2
      nextSmoothedV2 := smoothedV2
      calls :=
        if peaked.commits i then
          peaked.calls ++ [(i, ⟨min startV2 cruiseV2, cruiseV2, min l.nextEndV2 cruiseV2⟩)]
        else peaked.calls }
  else
    -- delay calculating this move until peak_cruise_v2 is known
    { l with
      nextEndV2 := startV2
      nextSmoothedV2 := smoothedV2
      delayed := l.delayed ++ [⟨i, startV2, l.nextEndV2⟩] }

/-- The loop of `flush` over the moves from place `i` on, from the last one to the first. -/
def loop (start : FlushLoop K) : ℕ → List (QueuedMove K) → FlushLoop K
  | _, [] => start
  | i, move :: rest => visit i move (loop start (i + 1) rest)

/-- The variables before the loop. -/
def init (isLazy : Bool) (count : ℕ) : FlushLoop K := ⟨0, 0, 0, [], count, isLazy, []⟩

end FlushLoop

/-- The calls of `set_junction` for the move at a place of the queue. -/
def callsOf (i : ℕ) (calls : List (ℕ × Junction K)) : List (Junction K) :=
  (calls.filter fun c => c.1 = i).map Prod.snd

/-! ## The queue -/

/-- `class MoveQueue`, with the moves submitted and those handed over to `_process_moves`, and
the position where the next move starts. -/
structure MoveQueue (K : Type) where
  queue : List (QueuedMove K)
  junctionFlush : K
  commandedPos : Position K
  submitted : List (Move K)
  processed : List (QueuedMove K)

namespace MoveQueue

/-- `LOOKAHEAD_FLUSH_TIME` -/
def lookaheadFlushTime : K := 1 / 4

/-- A new queue. -/
def init (commandedPos : Position K) : MoveQueue K := ⟨[], lookaheadFlushTime, commandedPos, [], []⟩

/-- `flush` -/
def flush (isLazy : Bool) (s : MoveQueue K) : MoveQueue K :=
  let l := FlushLoop.loop (.init isLazy s.queue.length) 0 s.queue
  let queue := s.queue.mapIdx fun i m => { m with junctions := m.junctions ++ callsOf i l.calls }
  let s := { s with junctionFlush := lookaheadFlushTime, queue := queue }
  if l.updateFlushCount = true ∨ l.flushCount = 0 then s
  else
    { s with
      queue := s.queue.drop l.flushCount
      processed := s.processed ++ s.queue.take l.flushCount }

/-- `add_move` -/
def addMove (root : SquareRoot K) (junctionDeviation : K) (instantCornerV : Option K)
    (move : Move K) (s : MoveQueue K) : MoveQueue K :=
  let s := { s with submitted := s.submitted ++ [move] }
  match s.queue.getLast? with
  | none => { s with queue := [move.queued] }
  | some prevMove =>
    let move := move.queued.calcJunction root junctionDeviation instantCornerV prevMove
    let s := { s with
      queue := s.queue ++ [move]
      junctionFlush := s.junctionFlush - move.minMoveT }
    if s.junctionFlush ≤ 0 then s.flush true else s

/-- `ToolHead.move`, with the speeds and accelerations that the checks of the move give to
`limit_speed`. -/
def move (root : SquareRoot K) (limits : ToolheadLimits K) (instantCornerV : Option K)
    (newpos : Position K) (speed : K) (limitings : List (K × K)) (s : MoveQueue K) : MoveQueue K :=
  let m := Move.init root.sqrt limits s.commandedPos newpos speed
  if m.moveD = 0 then s
  else
    let m := limitings.foldl (fun m l => m.limitSpeed l.1 l.2) m
    { s with commandedPos := m.endPos }.addMove root limits.junctionDeviation instantCornerV m

end MoveQueue

end FlsunT1.Klippy
