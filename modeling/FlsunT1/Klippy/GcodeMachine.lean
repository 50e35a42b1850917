/-
  Klippy/GcodeMachine.lean --- g-code commands over the toolhead.

  The state is that of `GCodeMove`, the commanded position of the toolhead
  (klippy/toolhead.py) and the work mode (klippy/extras/printer_workmode.py).  A step is
  a command that succeeds, a `reset_last_position`, or a switch of the work mode.  The
  scripts that a move starts only read this state, and do not appear in it.
-/
import Mathlib.Analysis.Real.Sqrt
import Mathlib.Algebra.Order.Ring.Rat
import FlsunT1.Klippy.GcodeMove
import FlsunT1.Library.Run

set_option autoImplicit false

namespace FlsunT1.Klippy

open Library

variable {K : Type} [Field K] [LinearOrder K]

/-! ## The toolhead -/

/-- What a command meets in the rest of the program: the status of the print, and the
checks of the kinematics and of the extruder on a move. -/
structure Surroundings (K : Type) where
  status : PrintStatus
  kinCheckMove : Position K → Position K → K → Except String Unit
  extruderCheckMove : Position K → Position K → K → Except String Unit

/-- `move_d`, squared. -/
def moveDSq (start newpos : Position K) : K :=
  (newpos 0 - start 0) ^ 2 + (newpos 1 - start 1) ^ 2 + (newpos 2 - start 2) ^ 2

/-- `move_d < .000000001`: the move is not a kinematic one. -/
def ExtrudeOnly (start newpos : Position K) : Prop :=
  moveDSq start newpos < (1 / 10 ^ 9) ^ 2

instance (start newpos : Position K) : Decidable (ExtrudeOnly start newpos) :=
  inferInstanceAs (Decidable (_ < _))

theorem extrudeOnly_iff_sqrt (start newpos : Position ℝ) :
    ExtrudeOnly start newpos ↔ √(moveDSq start newpos) < 1 / 10 ^ 9 := by
  rw [ExtrudeOnly, Real.sqrt_lt' (by positivity)]

/-- `end_pos` of a move. -/
def endPos (start newpos : Position K) : Position K :=
  if ExtrudeOnly start newpos then Function.update start 3 (newpos 3) else newpos

/-- `ToolHead.move`, as far as it sets `commanded_pos`. -/
def toolheadMove (sur : Surroundings K) (commandedPos newpos : Position K) (speed : K) :
    Except String (Position K) :=
  if ExtrudeOnly commandedPos newpos ∧ newpos 3 - commandedPos 3 = 0 then .ok commandedPos
  else do
    (if ExtrudeOnly commandedPos newpos then .ok ()
      else sur.kinCheckMove commandedPos (endPos commandedPos newpos) speed)
    (if newpos 3 - commandedPos 3 = 0 then .ok ()
      else sur.extruderCheckMove commandedPos (endPos commandedPos newpos) speed)
    return endPos commandedPos newpos

theorem toolheadMove_eq {sur : Surroundings K} {commandedPos newpos p : Position K} {speed : K}
    (h : toolheadMove sur commandedPos newpos speed = .ok p) :
    p = endPos commandedPos newpos := by
  rw [toolheadMove] at h
  split at h
  · rename_i hshort
    rw [Except.ok.injEq] at h
    rw [endPos, if_pos hshort.1, sub_eq_zero.mp hshort.2, Function.update_eq_self, h]
  · obtain ⟨_, -, h⟩ := bind_eq_ok.mp h
    obtain ⟨_, -, h⟩ := bind_eq_ok.mp h
    exact (Except.ok.inj h).symm

/-- What a handler asks for, in order; only its moves change the commanded position. -/
def perform (sur : Surroundings K) (actions : List (Action K)) (commandedPos : Position K) :
    Except String (Position K) :=
  (moves actions).foldlM (fun pos move => toolheadMove sur pos move.1 move.2) commandedPos

/-- Where a list of accepted moves leads. -/
def endPosOf (commandedPos : Position K) (targets : List (Position K × K)) : Position K :=
  targets.foldl (fun pos move => endPos pos move.1) commandedPos

theorem perform_eq {sur : Surroundings K} {actions : List (Action K)} {commandedPos p : Position K}
    (h : perform sur actions commandedPos = .ok p) :
    p = endPosOf commandedPos (moves actions) := by
  rw [perform] at h
  generalize moves actions = targets at h ⊢
  induction targets generalizing commandedPos with
  | nil => exact (Except.ok.inj h).symm
  | cons move rest ih =>
    rw [List.foldlM_cons] at h
    obtain ⟨q, hq, h⟩ := bind_eq_ok.mp h
    rw [ih h, toolheadMove_eq hq]
    rfl

/-! ## Commands -/

/-- The commands of `GCodeMove` that change its state; `G0` is `G1`. -/
inductive Command
  | g1 | m82 | m83 | g90 | g91 | g92 | m220 | m221
  | setGcodeOffset | saveGcodeState | restoreGcodeState
  deriving DecidableEq, Repr

/-- The handler of a command. -/
def GCodeMove.run (cfg : PrinterConfig K) (num : Numerals K) (workMode : Int)
    (status : PrintStatus) (gcmd : GCodeCommand) (g : GCodeMove K) :
    Command → Except String (GCodeMove K × List (Action K))
  | .g1 => g.cmdG1 cfg num workMode status gcmd
  | .m82 => .ok (g.setAbsoluteExtrude true, [])
  | .m83 => .ok (g.setAbsoluteExtrude false, [])
  | .g90 => .ok (g.setAbsoluteCoord true, [])
  | .g91 => .ok (g.setAbsoluteCoord false, [])
  | .g92 => (g.cmdG92 num gcmd).map (·, [])
  | .m220 => (g.cmdM220 num gcmd).map (·, [])
  | .m221 => (g.cmdM221 num gcmd).map (·, [])
  | .setGcodeOffset => g.cmdSetGcodeOffset num gcmd
  | .saveGcodeState => .ok (g.cmdSaveGcodeState gcmd, [])
  | .restoreGcodeState => g.cmdRestoreGcodeState cfg num gcmd

omit [Field K] [LinearOrder K] in
theorem map_pair_eq {r : Except String (GCodeMove K)} {g : GCodeMove K}
    {actions : List (Action K)} (h : r.map (·, []) = .ok (g, actions)) :
    r = .ok g ∧ actions = [] := by
  cases r with
  | error e => cases h
  | ok a =>
    cases h
    exact ⟨rfl, rfl⟩

/-- `cmd_PRINTER_WORKMODE`, as far as it sets `work_mode`. -/
def cmdPrinterWorkmode (workMode m : Int) : Int :=
  if m = 0 ∨ m = 1 ∨ m = 2 ∨ m = 3 then m else workMode

/-! ## The machine -/

structure Machine (K : Type) where
  gcodeMove : GCodeMove K
  commandedPos : Position K
  workMode : Int

inductive Event (K : Type)
  | command (name : Command) (gcmd : GCodeCommand) (sur : Surroundings K)
  | resetLastPosition
  | printerWorkmode (m : Int)

/-- The printer after `_handle_ready`, its toolhead at `commandedPos`. -/
def Machine.init (commandedPos : Position K) (workMode : Int) : Machine K :=
  ⟨.init commandedPos, commandedPos, workMode⟩

/-- One event; an error is that of a command that fails. -/
def Machine.step (cfg : PrinterConfig K) (num : Numerals K) (m : Machine K) :
    Event K → Except String (Machine K)
  | .command name gcmd sur => do
      let (g, actions) ← m.gcodeMove.run cfg num m.workMode sur.status gcmd name
      let commandedPos ← perform sur actions m.commandedPos
      return { m with gcodeMove := g, commandedPos := commandedPos }
  | .resetLastPosition =>
      .ok { m with gcodeMove := m.gcodeMove.resetLastPosition m.commandedPos }
  | .printerWorkmode mode => .ok { m with workMode := cmdPrinterWorkmode m.workMode mode }

theorem Machine.step_command {cfg : PrinterConfig K} {num : Numerals K} {m t : Machine K}
    {name : Command} {gcmd : GCodeCommand} {sur : Surroundings K}
    (h : Machine.step cfg num m (.command name gcmd sur) = .ok t) :
    ∃ actions,
      m.gcodeMove.run cfg num m.workMode sur.status gcmd name = .ok (t.gcodeMove, actions) ∧
      perform sur actions m.commandedPos = .ok t.commandedPos ∧ t.workMode = m.workMode := by
  obtain ⟨⟨g, actions⟩, hrun, h⟩ := bind_eq_ok.mp h
  obtain ⟨commandedPos, hperform, h⟩ := bind_eq_ok.mp h
  cases h
  exact ⟨actions, hrun, hperform, rfl⟩

/-! ## A printer -/

/-- Not printing, and every move accepted. -/
def Surroundings.idle : Surroundings ℚ :=
  ⟨⟨false, false⟩, fun _ _ _ => .ok (), fun _ _ _ => .ok ()⟩

/-- A printer whose X is scaled by one percent. -/
def scaledPrinter : PrinterConfig ℚ where
  xSizeOffset := 1 / 100
  ySizeOffset := 0
  sizeFlag := false
  sizeOffset := fun _ _ => (0, 0)
  paceSpeed := 100
  axesMaxZ := 330
  x_above := by norm_num
  x_below := by norm_num
  y_above := by norm_num
  y_below := by norm_num

end FlsunT1.Klippy
