/-
  Klippy/GcodeMove.lean --- moves and coordinates of g-code
  (klippy/extras/gcode_move.py).

  The handlers of `GCodeMove` are functions on its state that also give what they ask
  of the rest of the program, in order.  Numbers are those of an ordered field.  The
  machine puts the toolhead under them: the toolhead is the move transform.
-/
import Mathlib.Algebra.Order.Field.Basic
import Mathlib.Data.Fin.VecNotation
import FlsunT1.Klippy.GcodeCommand
import FlsunT1.Library.Ensures

set_option autoImplicit false

namespace FlsunT1.Klippy

open Library

/-- A list of X, Y, Z and E. -/
abbrev Position (K : Type) := Fin 4 → K

/-! The numerals of axes and of speeds rest on the following instances. -/

instance neZeroAxes : NeZero 4 := ⟨four_ne_zero⟩

instance atLeastTwoSixty : Nat.AtLeastTwo 60 := ⟨Nat.le_of_ble_eq_true rfl⟩

instance atLeastTwoTwentyFive : Nat.AtLeastTwo 25 := ⟨Nat.le_of_ble_eq_true rfl⟩

@[elab_as_elim]
theorem forall_xyz {P : Fin 4 → Prop} {i : Fin 4} (hi : i ≠ 3) (hx : P 0) (hy : P 1) (hz : P 2) :
    P i := by
  have hcases : i = 0 ∨ i = 1 ∨ i = 2 ∨ i = 3 := by
    revert i
    decide
  obtain rfl | rfl | rfl | rfl := hcases
  · exact hx
  · exact hy
  · exact hz
  · exact absurd rfl hi

/-- The names of the axes, in the order of a position. -/
def axisName : Fin 4 → String := !["X", "Y", "Z", "E"]

/-! ## The state of the module -/

/-- What `SAVE_GCODE_STATE` saves. -/
structure GcodeState (K : Type) where
  absoluteCoord : Bool
  absoluteExtrude : Bool
  basePosition : Position K
  lastPosition : Position K
  homingPosition : Position K
  speed : K
  speedFactor : K
  extrudeFactor : K

/-- `class GCodeMove` -/
structure GCodeMove (K : Type) extends GcodeState K where
  isPrinterReady : Bool
  preSpeed : K
  ePos : K
  zPos : K
  lastAiZ : K
  maxZ : K
  firstLayerDetect : Bool
  savedStates : String → Option (GcodeState K)

/-- What the module reads of the configuration and of the kinematics. -/
structure PrinterConfig (K : Type) [Field K] [LinearOrder K] where
  xSizeOffset : K
  ySizeOffset : K
  sizeFlag : Bool
  /-- `get_size_offset` of the size table, at an X and a Y. -/
  sizeOffset : K → K → K × K
  paceSpeed : K
  /-- `toolhead.get_kinematics().axes_max[2]` -/
  axesMaxZ : K
  x_above : -(35 / 1000) < xSizeOffset
  x_below : xSizeOffset < 35 / 1000
  y_above : -(35 / 1000) < ySizeOffset
  y_below : ySizeOffset < 35 / 1000

/-- What a handler asks of the rest of the program. -/
inductive Action (K : Type)
  /-- `run_script_from_command` -/
  | runScript (script : String)
  /-- `subprocess.Popen` -/
  | popen (argv : List String)
  /-- `move_with_transform` -/
  | moveWithTransform (newpos : Position K) (speed : K)

/-- The moves that a handler asks for, with their speeds. -/
def moves {K : Type} (actions : List (Action K)) : List (Position K × K) :=
  actions.filterMap fun
    | .moveWithTransform newpos speed => some (newpos, speed)
    | _ => none

/-- What `cmd_G1` reads of `idle_timeout` and `pause_resume`. -/
structure PrintStatus where
  isPrinting : Bool
  isPaused : Bool
  deriving DecidableEq, Repr

variable {K : Type} [Field K] [LinearOrder K]

namespace GCodeMove

/-- The module after `_handle_ready` over a toolhead at `commanded`. -/
def init (commanded : Position K) : GCodeMove K :=
  { absoluteCoord := true, absoluteExtrude := true
    basePosition := 0, lastPosition := commanded, homingPosition := 0
    speed := 25, speedFactor := 1 / 60, extrudeFactor := 1
    isPrinterReady := true, preSpeed := -1, ePos := 0, zPos := 0, lastAiZ := 0
    maxZ := 330, firstLayerDetect := false, savedStates := fun _ => none }

/-- `_get_gcode_speed` -/
def getGcodeSpeed (g : GCodeMove K) : K := g.speed / g.speedFactor

/-- `reset_last_position` -/
def resetLastPosition (g : GCodeMove K) (commanded : Position K) : GCodeMove K :=
  if g.isPrinterReady then { g with lastPosition := commanded } else g

omit [Field K] [LinearOrder K] in
theorem resetLastPosition_eq (g : GCodeMove K) (commanded : Position K) :
    g.resetLastPosition commanded =
      { g with lastPosition := (g.resetLastPosition commanded).lastPosition } := by
  rw [resetLastPosition]
  split <;> rfl

/-! ## G1 -/

/-- The parameters of `G1`: the four axes and `F`. -/
structure MoveParams (K : Type) where
  axes : Fin 4 → Option K
  feed : Option K

/-- `float(params[name])`, where the command has it. -/
def floatParam (num : Numerals K) (gcmd : GCodeCommand) (name : String) :
    Except String (Option K) :=
  match gcmd.param name with
  | none => .ok none
  | some text =>
    match num.float text with
    | none => .error ("Unable to parse move '" ++ gcmd.commandline ++ "'")
    | some v => .ok (some v)

/-- What `cmd_G1` reads of its command. -/
def readMove (num : Numerals K) (gcmd : GCodeCommand) : Except String (MoveParams K) := do
  let x ← floatParam num gcmd (axisName 0)
  let y ← floatParam num gcmd (axisName 1)
  let z ← floatParam num gcmd (axisName 2)
  let e ← floatParam num gcmd (axisName 3)
  let feed ← floatParam num gcmd "F"
  match feed with
  | none => .ok ⟨![x, y, z, e], none⟩
  | some gcodeSpeed =>
    if gcodeSpeed ≤ 0 then
      .error ("Invalid speed in '" ++ gcmd.commandline ++ "'")
    else .ok ⟨![x, y, z, e], some gcodeSpeed⟩

theorem readMove_feed_pos {num : Numerals K} {gcmd : GCodeCommand} {p : MoveParams K} {f : K}
    (h : readMove num gcmd = .ok p) (hf : p.feed = some f) : 0 < f := by
  obtain ⟨x, -, h⟩ := bind_eq_ok.mp h
  obtain ⟨y, -, h⟩ := bind_eq_ok.mp h
  obtain ⟨z, -, h⟩ := bind_eq_ok.mp h
  obtain ⟨e, -, h⟩ := bind_eq_ok.mp h
  obtain ⟨feed, -, h⟩ := bind_eq_ok.mp h
  cases feed with
  | none =>
    cases h
    cases hf
  | some gcodeSpeed =>
    dsimp only at h
    split at h
    · cases h
    · rename_i hpos
      cases h
      cases hf
      exact not_le.mp hpos

/-- One coordinate of `last_position` after a move, relative or from its base. -/
def axisTarget (relative : Bool) (base last : K) : Option K → K
  | none => last
  | some v => if relative then last + v else v + base

/-- `last_position` after the parameters of the move are read. -/
def target (g : GCodeMove K) (p : MoveParams K) : Position K :=
  ![axisTarget (!g.absoluteCoord) (g.basePosition 0) (g.lastPosition 0) (p.axes 0),
    axisTarget (!g.absoluteCoord) (g.basePosition 1) (g.lastPosition 1) (p.axes 1),
    axisTarget (!g.absoluteCoord) (g.basePosition 2) (g.lastPosition 2) (p.axes 2),
    axisTarget (!g.absoluteCoord || !g.absoluteExtrude) (g.basePosition 3) (g.lastPosition 3)
      ((p.axes 3).map (· * g.extrudeFactor))]

/-- `z_pos`, and the save for a power loss at a new layer. -/
def notePowerLoss (g : GCodeMove K) (status : PrintStatus) (hasZ : Bool) :
    GCodeMove K × List (Action K) :=
  if hasZ then
    ({ g with zPos := g.lastPosition 2 },
      if g.zPos + 9 / 100 ≤ g.lastPosition 2 ∧ status.isPrinting ∧ ¬ status.isPaused then
        [.runScript "F103"]
      else [])
  else (g, [])

/-- `e_pos` at the start of a print. -/
def noteExtruder (g : GCodeMove K) : GCodeMove K :=
  if g.lastPosition 3 < 10 then { g with ePos := g.lastPosition 3 } else g

/-- Enough was extruded and the layer is a new one. -/
def aiDetectDue (g : GCodeMove K) : Bool :=
  70 < g.lastPosition 3 - g.ePos ∧ 100 < g.lastPosition 3 ∧
    10 / 100 ≤ g.lastPosition 2 - g.lastAiZ

/-- The detection that a due move starts while printing. -/
def aiDetect (g : GCodeMove K) (status : PrintStatus) : GCodeMove K × List (Action K) :=
  if g.aiDetectDue ∧ status.isPrinting then
    let firstLayer : Bool := 20 / 100 ≤ g.lastAiZ ∧ g.firstLayerDetect
    ({ g with
        firstLayerDetect := g.firstLayerDetect && !firstLayer
        ePos := g.lastPosition 3
        lastAiZ := g.lastPosition 2 },
      (if firstLayer then [.runScript "RESTORE_E_CURRENT"] else []) ++
        [.popen ["bash", "/home/pi/flsun_func/time_lapse/time_lapse.sh"]])
  else (g, [])

/-- `real_x_size_offset` and `real_y_size_offset` -/
def realSizeOffset (cfg : PrinterConfig K) (maxZ : K) (last : Position K) : K × K :=
  if maxZ - 25 / 10 < last 2 then (0, 0)
  else if cfg.sizeFlag then cfg.sizeOffset (last 0) (last 1)
  else (cfg.xSizeOffset, cfg.ySizeOffset)

/-- `cali_position` -/
def caliPosition (cfg : PrinterConfig K) (maxZ : K) (last : Position K) : Position K :=
  ![last 0 * (1 + (realSizeOffset cfg maxZ last).1),
    last 1 * (1 + (realSizeOffset cfg maxZ last).2), last 2, last 3]

/-- `F` of a move. -/
def setFeed (g : GCodeMove K) : Option K → GCodeMove K
  | none => g
  | some gcodeSpeed => { g with speed := gcodeSpeed * g.speedFactor, preSpeed := -1 }

/-- The slower pace of travel in silent mode, and its end. -/
def pace (cfg : PrinterConfig K) (g : GCodeMove K) (hasE : Bool) (workMode : Int) :
    GCodeMove K :=
  if ¬ hasE ∧ workMode = 3 then
    if cfg.paceSpeed < g.speed then
      { g with preSpeed := g.speed, speed := cfg.paceSpeed }
    else g
  else if 0 < g.preSpeed then { g with speed := g.preSpeed, preSpeed := -1 }
  else g

/-- `cmd_G1`, its parameters read. -/
def moveTo (cfg : PrinterConfig K) (workMode : Int) (status : PrintStatus) (p : MoveParams K)
    (g : GCodeMove K) : GCodeMove K × List (Action K) :=
  let (g, save) :=
    { g with lastPosition := g.target p }.notePowerLoss status (p.axes 2).isSome
  let (g, detect) := g.noteExtruder.aiDetect status
  let g := (g.setFeed p.feed).pace cfg (p.axes 3).isSome workMode
  (g, save ++ detect ++
    [.moveWithTransform (caliPosition cfg g.maxZ g.lastPosition) g.speed])

/-- Nothing that decides a move is changed. -/
structure SameMotion (g g' : GCodeMove K) : Prop where
  state : g'.toGcodeState = g.toGcodeState
  isPrinterReady : g'.isPrinterReady = g.isPrinterReady
  preSpeed : g'.preSpeed = g.preSpeed
  maxZ : g'.maxZ = g.maxZ
  savedStates : g'.savedStates = g.savedStates

/-- What `cmd_G1` notes besides the move leaves the motion alone. -/
theorem notes_sameMotion (g : GCodeMove K) (status : PrintStatus) (hasZ : Bool) :
    SameMotion g ((g.notePowerLoss status hasZ).1.noteExtruder.aiDetect status).1 := by
  have hpower : SameMotion g (g.notePowerLoss status hasZ).1 := by
    rw [notePowerLoss]
    split
    · exact ⟨rfl, rfl, rfl, rfl, rfl⟩
    · exact ⟨rfl, rfl, rfl, rfl, rfl⟩
  have hextruder (g' : GCodeMove K) (h : SameMotion g g') : SameMotion g g'.noteExtruder := by
    rw [noteExtruder]
    split
    · exact ⟨h.1, h.2, h.3, h.4, h.5⟩
    · exact h
  have hdetect (g' : GCodeMove K) (h : SameMotion g g') :
      SameMotion g (g'.aiDetect status).1 := by
    rw [aiDetect]
    split
    · exact ⟨h.1, h.2, h.3, h.4, h.5⟩
    · exact h
  exact hdetect _ (hextruder _ hpower)

omit [LinearOrder K] in
theorem setFeed_eq (g : GCodeMove K) (feed : Option K) :
    g.setFeed feed =
      { g with speed := (g.setFeed feed).speed, preSpeed := (g.setFeed feed).preSpeed } := by
  cases feed <;> rfl

theorem pace_eq (cfg : PrinterConfig K) (g : GCodeMove K) (hasE : Bool) (workMode : Int) :
    g.pace cfg hasE workMode =
      { g with
        speed := (g.pace cfg hasE workMode).speed
        preSpeed := (g.pace cfg hasE workMode).preSpeed } := by
  rw [pace]
  split
  · split <;> rfl
  · split <;> rfl

theorem moveTo_state (cfg : PrinterConfig K) (workMode : Int) (status : PrintStatus)
    (p : MoveParams K) (g : GCodeMove K) :
    ∃ g', SameMotion { g with lastPosition := g.target p } g' ∧
      (g.moveTo cfg workMode status p).1 =
        (g'.setFeed p.feed).pace cfg (p.axes 3).isSome workMode :=
  ⟨_, notes_sameMotion _ status (p.axes 2).isSome, rfl⟩

theorem moveTo_frame (cfg : PrinterConfig K) (workMode : Int) (status : PrintStatus)
    (p : MoveParams K) (g : GCodeMove K) :
    (g.moveTo cfg workMode status p).1.lastPosition = g.target p ∧
    (g.moveTo cfg workMode status p).1.speedFactor = g.speedFactor ∧
    (g.moveTo cfg workMode status p).1.maxZ = g.maxZ ∧
    (g.moveTo cfg workMode status p).1.savedStates = g.savedStates := by
  obtain ⟨g', hsame, heq⟩ := g.moveTo_state cfg workMode status p
  have hlast : g'.lastPosition = g.target p := by rw [hsame.state]
  have hfactor : g'.speedFactor = g.speedFactor := by rw [hsame.state]
  rw [heq, pace_eq, setFeed_eq]
  exact ⟨hlast, hfactor, hsame.maxZ, hsame.savedStates⟩

/-- A move asks for one move: to the scaled position, at the speed it leaves. -/
theorem moves_moveTo (cfg : PrinterConfig K) (workMode : Int) (status : PrintStatus)
    (p : MoveParams K) (g : GCodeMove K) :
    moves (g.moveTo cfg workMode status p).2 =
      [(caliPosition cfg g.maxZ (g.target p), (g.moveTo cfg workMode status p).1.speed)] := by
  obtain ⟨hlast, -, hmax, -⟩ := g.moveTo_frame cfg workMode status p
  have hsave (g' : GCodeMove K) (hasZ : Bool) : moves (g'.notePowerLoss status hasZ).2 = [] := by
    rw [notePowerLoss]
    split
    · dsimp only
      split <;> rfl
    · rfl
  have hdetect (g' : GCodeMove K) : moves (g'.aiDetect status).2 = [] := by
    rw [aiDetect]
    split
    · dsimp only
      split <;> rfl
    · rfl
  have happend (as bs : List (Action K)) : moves (as ++ bs) = moves as ++ moves bs :=
    List.filterMap_append
  rw [← hlast, ← hmax, moveTo]
  simp only [happend, hsave, hdetect, List.nil_append]
  rfl

/-- `cmd_G1` -/
def cmdG1 (cfg : PrinterConfig K) (num : Numerals K) (workMode : Int) (status : PrintStatus)
    (gcmd : GCodeCommand) (g : GCodeMove K) :
    Except String (GCodeMove K × List (Action K)) := do
  let p ← readMove num gcmd
  return g.moveTo cfg workMode status p

/-! ## Coordinates -/

/-- `cmd_M82` and `cmd_M83` -/
def setAbsoluteExtrude (g : GCodeMove K) (absolute : Bool) : GCodeMove K :=
  { g with absoluteExtrude := absolute }

/-- `cmd_G90` and `cmd_G91` -/
def setAbsoluteCoord (g : GCodeMove K) (absolute : Bool) : GCodeMove K :=
  { g with absoluteCoord := absolute }

/-- The parameters of a command, one for each axis. -/
def axesParam (num : Numerals K) (gcmd : GCodeCommand) (suffix : String) :
    Except String (Fin 4 → Option K) := do
  let x ← gcmd.getFloat num (axisName 0 ++ suffix) .free
  let y ← gcmd.getFloat num (axisName 1 ++ suffix) .free
  let z ← gcmd.getFloat num (axisName 2 ++ suffix) .free
  let e ← gcmd.getFloat num (axisName 3 ++ suffix) .free
  return ![x, y, z, e]

/-- `cmd_G92`, its parameters read. -/
def setBase (g : GCodeMove K) (offsets : Fin 4 → Option K) : GCodeMove K :=
  if offsets 0 = none ∧ offsets 1 = none ∧ offsets 2 = none ∧ offsets 3 = none then
    { g with basePosition := g.lastPosition }
  else
    { g with
      basePosition := fun i =>
        match offsets i with
        | none => g.basePosition i
        | some offset => g.lastPosition i - (if i = 3 then offset * g.extrudeFactor else offset) }

/-- `cmd_G92` -/
def cmdG92 (num : Numerals K) (gcmd : GCodeCommand) (g : GCodeMove K) :
    Except String (GCodeMove K) := do
  let offsets ← axesParam num gcmd ""
  return g.setBase offsets

/-- `cmd_M220`, its parameter read: `value` is the new factor. -/
def setSpeedFactor (g : GCodeMove K) (value : K) : GCodeMove K :=
  { g with speed := g.getGcodeSpeed * value, speedFactor := value }

/-- `cmd_M220` -/
def cmdM220 (num : Numerals K) (gcmd : GCodeCommand) (g : GCodeMove K) :
    Except String (GCodeMove K) := do
  let s ← gcmd.getFloat num "S" .aboveZero
  return g.setSpeedFactor (s.getD 100 / (60 * 100))

/-- `cmd_M221`, its parameter read. -/
def setExtrudeFactor (g : GCodeMove K) (newExtrudeFactor : K) : GCodeMove K :=
  let lastEPos := g.lastPosition 3
  let eValue := (lastEPos - g.basePosition 3) / g.extrudeFactor
  { g with
    basePosition := Function.update g.basePosition 3 (lastEPos - eValue * newExtrudeFactor)
    extrudeFactor := newExtrudeFactor }

/-- `cmd_M221` -/
def cmdM221 (num : Numerals K) (gcmd : GCodeCommand) (g : GCodeMove K) :
    Except String (GCodeMove K) := do
  let s ← gcmd.getFloat num "S" .aboveZero
  return g.setExtrudeFactor (s.getD 100 / 100)

/-- The speed of a requested move: `MOVE_SPEED` or the current speed; there is no move
when `MOVE` is missing or 0. -/
def moveSpeed (num : Numerals K) (gcmd : GCodeCommand) (speed : K) :
    Except String (Option K) := do
  let move ← gcmd.getInt num "MOVE"
  if move.getD 0 = 0 then return none
  else
    let moveSpeed ← gcmd.getFloat num "MOVE_SPEED" .aboveZero
    return some (moveSpeed.getD speed)

/-- The offset that `SET_GCODE_OFFSET` asks for on one axis. -/
def offsetParam (num : Numerals K) (gcmd : GCodeCommand) (homing : Position K) (i : Fin 4) :
    Except String (Option K) := do
  match ← gcmd.getFloat num (axisName i) .free with
  | some offset => return some offset
  | none =>
    let adjust ← gcmd.getFloat num (axisName i ++ "_ADJUST") .free
    return adjust.map (· + homing i)

/-- `move_delta` -/
def moveDelta (g : GCodeMove K) (offsets : Fin 4 → Option K) : Position K := fun i =>
  match offsets i with
  | none => 0
  | some offset => offset - g.homingPosition i

/-- The offsets of `cmd_SET_GCODE_OFFSET` take effect. -/
def setOffset (g : GCodeMove K) (offsets : Fin 4 → Option K) : GCodeMove K :=
  { g with
    basePosition := fun i => g.basePosition i + g.moveDelta offsets i
    homingPosition := fun i => (offsets i).getD (g.homingPosition i) }

/-- `last_position` after a move by the offsets. -/
def offsetTarget (g : GCodeMove K) (offsets : Fin 4 → Option K) : Position K := fun i =>
  g.lastPosition i + g.moveDelta offsets i

/-- `cmd_SET_GCODE_OFFSET`, its parameters read. -/
def setGcodeOffset (g : GCodeMove K) (offsets : Fin 4 → Option K) :
    Option K → GCodeMove K × List (Action K)
  | none => (g.setOffset offsets, [])
  | some speed =>
      ({ g.setOffset offsets with lastPosition := g.offsetTarget offsets },
        [.moveWithTransform (g.offsetTarget offsets) speed])

/-- The offsets that `SET_GCODE_OFFSET` asks for. -/
def readOffsets (num : Numerals K) (gcmd : GCodeCommand) (homing : Position K) :
    Except String (Fin 4 → Option K) := do
  let x ← offsetParam num gcmd homing 0
  let y ← offsetParam num gcmd homing 1
  let z ← offsetParam num gcmd homing 2
  let e ← offsetParam num gcmd homing 3
  return ![x, y, z, e]

/-- `cmd_SET_GCODE_OFFSET` -/
def cmdSetGcodeOffset (num : Numerals K) (gcmd : GCodeCommand) (g : GCodeMove K) :
    Except String (GCodeMove K × List (Action K)) := do
  let offsets ← readOffsets num gcmd g.homingPosition
  let speed ← moveSpeed num gcmd g.speed
  return g.setGcodeOffset offsets speed

/-! ## Saved states -/

/-- The `NAME` of a state. -/
def stateName (gcmd : GCodeCommand) : String := (gcmd.param "NAME").getD "default"

/-- `cmd_SAVE_GCODE_STATE` -/
def cmdSaveGcodeState (gcmd : GCodeCommand) (g : GCodeMove K) : GCodeMove K :=
  { g with savedStates := Function.update g.savedStates (stateName gcmd) (some g.toGcodeState) }

/-- What `cmd_RESTORE_GCODE_STATE` restores: not the speed factor. -/
def restore (g : GCodeMove K) (state : GcodeState K) : GCodeMove K :=
  { g with
    absoluteCoord := state.absoluteCoord
    absoluteExtrude := state.absoluteExtrude
    basePosition := Function.update state.basePosition 3
      (state.basePosition 3 + (g.lastPosition 3 - state.lastPosition 3))
    homingPosition := state.homingPosition
    speed := state.speed
    extrudeFactor := state.extrudeFactor }

/-- `position_xy`: the saved X and Y at the current height. -/
def positionXy (g : GCodeMove K) (state : GcodeState K) : Position K :=
  ![state.lastPosition 0, state.lastPosition 1, g.lastPosition 2, g.lastPosition 3]

/-- `last_position` after the move back: a height out of range becomes the origin at the
top. -/
def restoreTarget (cfg : PrinterConfig K) (g : GCodeMove K) (state : GcodeState K) :
    Position K :=
  if cfg.axesMaxZ ≤ state.lastPosition 2 then ![0, 0, cfg.axesMaxZ, g.lastPosition 3]
  else ![state.lastPosition 0, state.lastPosition 1, state.lastPosition 2, g.lastPosition 3]

/-- The room below `axis_maximum_z - homing_origin_z` is larger than `margin`. -/
def hasRoom (cfg : PrinterConfig K) (state : GcodeState K) (z margin : K) : Bool :=
  z < cfg.axesMaxZ - state.homingPosition 2 - margin

/-- The moves back, X and Y first. -/
def restoreMoves (cfg : PrinterConfig K) (g : GCodeMove K) (state : GcodeState K) (speed : K) :
    List (Action K) :=
  (if hasRoom cfg state (g.restoreTarget cfg state 2) 60 then
    [.moveWithTransform (g.positionXy state) speed] else []) ++
  (if hasRoom cfg state (g.restoreTarget cfg state 2) 1 then
    [.moveWithTransform (g.restoreTarget cfg state) speed] else [])

/-- `cmd_RESTORE_GCODE_STATE`, its parameters read. -/
def restoreGcodeState (cfg : PrinterConfig K) (g : GCodeMove K) (state : GcodeState K) :
    Option K → GCodeMove K × List (Action K)
  | none => (g.restore state, [])
  | some speed =>
      ({ g.restore state with lastPosition := g.restoreTarget cfg state },
        g.restoreMoves cfg state speed)

/-- `cmd_RESTORE_GCODE_STATE` -/
def cmdRestoreGcodeState (cfg : PrinterConfig K) (num : Numerals K) (gcmd : GCodeCommand)
    (g : GCodeMove K) : Except String (GCodeMove K × List (Action K)) :=
  match g.savedStates (stateName gcmd) with
  | none => .error ("Unknown g-code state: " ++ stateName gcmd)
  | some state => do
      let speed ← moveSpeed num gcmd state.speed
      return g.restoreGcodeState cfg state speed

end GCodeMove

end FlsunT1.Klippy
