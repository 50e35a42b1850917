/-
  Klippy/PowerLoss.lean --- saving a print and taking it up again
  (klippy/extras/power_loss_recover.py).

  `F103` saves what the print is at, and `F102` runs lines of g-code that bring the
  printer back to it.  The lines are texts: how Python writes a number is a parameter
  of the model, and each line goes through `_process_commands`.
-/
import FlsunT1.Klippy.GcodeLine
import FlsunT1.Klippy.GcodeMachine
import FlsunT1.Library.Dict
import FlsunT1.Library.Rounding

set_option autoImplicit false

namespace FlsunT1.Klippy

open Library

variable {K : Type} [Field K] [LinearOrder K]

/-! ## The fan -/

/-- `class Fan`, as far as it sets the value of the pin. -/
structure Fan (K : Type) [Field K] [LinearOrder K] where
  maxPower : K
  offBelow : K
  lastFanValue : K
  maxPower_pos : 0 < maxPower
  offBelow_nonneg : 0 ≤ offBelow

namespace Fan

/-- `set_speed` -/
def setSpeed (fan : Fan K) (value : K) : Fan K :=
  let value := if value < fan.offBelow then 0 else value
  { fan with lastFanValue := max 0 (min fan.maxPower (value * fan.maxPower)) }

/-- `fan_speed` of `F103`. -/
def fraction (fan : Fan K) : K := fan.lastFanValue / max (1 / 10) fan.maxPower

end Fan

/-! ## The printer -/

/-- What `F103` saves of a printer, and what `F102` sets.  `zMoves` has the Z of every
move of `F102` that is made, in g-code coordinates. -/
structure Printer (K : Type) [Field K] [LinearOrder K] where
  gcodeMove : GCodeMove K
  workMode : Int
  status : PrintStatus
  fan : Fan K
  nozzleTarget : K
  bedTarget : K
  isPrinting : Bool
  filePath : String
  filePosition : Nat
  printDuration : K
  filamentUsed : K
  excludedObjects : List String
  excludeEnabled : Bool
  zMoves : List K

/-- `_get_gcode_position` -/
def GCodeMove.gcodePosition (g : GCodeMove K) : Position K := fun i =>
  if i = 3 then (g.lastPosition i - g.basePosition i) / g.extrudeFactor
  else g.lastPosition i - g.basePosition i

/-! ## F103 -/

/-- The values of saved variables. -/
inductive Value (K : Type)
  | boolean (b : Bool)
  | number (v : K)
  | text (s : String)
  | texts (names : List String)

/-- `newvars` of `cmd_F103`. -/
def newvars (p : Printer K) : Dict String (Value K) :=
  Dict.empty.setAll [
    ("was_interrupted", .boolean true),
    ("sd_filename", .text p.filePath),
    ("file_position", .number p.filePosition),
    ("e_pos", .number (p.gcodeMove.gcodePosition 3)),
    ("x_pos", .number (p.gcodeMove.gcodePosition 0)),
    ("y_pos", .number (p.gcodeMove.gcodePosition 1)),
    ("z_pos", .number (p.gcodeMove.gcodePosition 2)),
    ("absolute_extrude", .boolean p.gcodeMove.absoluteExtrude),
    ("absolute_coordinates", .boolean p.gcodeMove.absoluteCoord),
    ("print_duration", .number p.printDuration),
    ("filament_used", .number p.filamentUsed),
    ("fan_speed", .number p.fan.fraction),
    ("nozzle_temp", .number p.nozzleTarget),
    ("bed_temp", .number p.bedTarget),
    ("excluded_objects", .texts p.excludedObjects),
    ("objects_enabled", .boolean p.excludeEnabled)]

/-- `cmd_F103`, with the variables before and after it. -/
def cmdF103 (p : Printer K) (allVariables : Dict String (Value K)) : Dict String (Value K) :=
  if p.isPrinting then allVariables.update (newvars p) else allVariables

/-! ## The variables that F102 reads -/

namespace Value

def number? : Value K → Option K
  | number v => some v
  | _ => none

def boolean? : Value K → Option Bool
  | boolean b => some b
  | _ => none

def texts? : Value K → Option (List String)
  | texts names => some names
  | _ => none

end Value

/-- The variables that `cmd_F102` reads, each of the type that `F103` saves. -/
structure Variables (K : Type) where
  ePos : Option K
  xPos : Option K
  yPos : Option K
  zPos : Option K
  fanSpeed : Option K
  nozzleTemp : Option K
  bedTemp : Option K
  absoluteExtrude : Option Bool
  absoluteCoordinates : Option Bool
  filamentUsed : Option K
  excludedObjects : Option (List String)
  objectsEnabled : Option Bool

/-- `variables.get` -/
def readVariables (vars : Dict String (Value K)) : Variables K where
  ePos := (vars.get "e_pos").bind Value.number?
  xPos := (vars.get "x_pos").bind Value.number?
  yPos := (vars.get "y_pos").bind Value.number?
  zPos := (vars.get "z_pos").bind Value.number?
  fanSpeed := (vars.get "fan_speed").bind Value.number?
  nozzleTemp := (vars.get "nozzle_temp").bind Value.number?
  bedTemp := (vars.get "bed_temp").bind Value.number?
  absoluteExtrude := (vars.get "absolute_extrude").bind Value.boolean?
  absoluteCoordinates := (vars.get "absolute_coordinates").bind Value.boolean?
  filamentUsed := (vars.get "filament_used").bind Value.number?
  excludedObjects := (vars.get "excluded_objects").bind Value.texts?
  objectsEnabled := (vars.get "objects_enabled").bind Value.boolean?

/-! ## Lines of g-code -/

/-- What the rest of the printer gives to `F102`: the temperatures it reads, the position
of the toolhead after homing and the upper end of the Z axis. -/
structure Recovery (K : Type) where
  nozzleAtStart : K
  bedAtStart : K
  nozzleAfterBed : K
  bedAfterHoming : K
  nozzleAfterHoming : K
  homePosition : Position K
  axisMaximumZ : K

/-- `G28`, as far as it changes `gcode_move`: `set_first_layer_detect`, then
`_handle_home_rails_end` with all three axes. -/
def GCodeMove.home (g : GCodeMove K) (homePosition : Position K) : GCodeMove K :=
  let g := { g with firstLayerDetect := true }.resetLastPosition homePosition
  { g with
    maxZ := g.lastPosition 2
    basePosition := fun i => if i = 3 then g.basePosition i else g.homingPosition i }

/-- The handlers of the commands that `F102` runs.  Those without a case of their own leave
the fields of the model alone. -/
def Printer.runCommand (cfg : PrinterConfig K) (num : Numerals K) (r : Recovery K)
    (p : Printer K) (name : String) (gcmd : GCodeCommand) : Except String (Printer K) :=
  match name with
  | "G1" => do
      let (g, _) ← p.gcodeMove.run cfg num p.workMode p.status gcmd .g1
      return { p with gcodeMove := g, zMoves := p.zMoves ++ [g.gcodePosition 2] }
  | "G28" => return { p with gcodeMove := p.gcodeMove.home r.homePosition }
  | "G90" => return { p with gcodeMove := p.gcodeMove.setAbsoluteCoord true }
  | "G91" => return { p with gcodeMove := p.gcodeMove.setAbsoluteCoord false }
  | "M82" => return { p with gcodeMove := p.gcodeMove.setAbsoluteExtrude true }
  | "M83" => return { p with gcodeMove := p.gcodeMove.setAbsoluteExtrude false }
  | "G92" => do
      let g ← p.gcodeMove.cmdG92 num gcmd
      return { p with gcodeMove := g }
  | "M104" | "M109" => do
      let temp ← gcmd.getFloat num "S" .free
      return { p with nozzleTarget := temp.getD 0 }
  | "M140" | "M190" => do
      let temp ← gcmd.getFloat num "S" .free
      return { p with bedTarget := temp.getD 0 }
  | "M106" => do
      let value ← gcmd.getFloat num "S" .minZero
      return { p with fan := p.fan.setSpeed (value.getD 255 / 255) }
  | _ => return p

/-- `run_script_from_command`, for one line. -/
def Printer.runLine (cfg : PrinterConfig K) (num : Numerals K) (r : Recovery K) (p : Printer K)
    (line : String) : Except String (Printer K) :=
  p.runCommand cfg num r (processLine line).1 (processLine line).2

/-- One line after the other. -/
def Printer.runLines (cfg : PrinterConfig K) (num : Numerals K) (r : Recovery K) (p : Printer K)
    (lines : List String) : Except String (Printer K) :=
  lines.foldlM (fun p line => p.runLine cfg num r line) p

/-! ## F102 -/

section F102

variable [FloorRing K]

/-- `round(v, 4)` -/
def round4 (v : K) : K := roundHalfEven (v * 10 ^ 4) / 10 ^ 4

/-- The lines for the target temperatures, in the four branches. -/
def heatLines (str : K → String) (nozzleTemp bedTemp : K) (r : Recovery K) : List String :=
  let needPreheatingNozzle : Bool := r.nozzleAtStart < 140
  let needPreheatingBed : Bool := r.bedAtStart < 50
  (if needPreheatingNozzle then
    if needPreheatingBed then ["M104 S140"] else ["M140 S" ++ str bedTemp]
  else ("M104 S" ++ str nozzleTemp) ::
    (if needPreheatingBed then [] else ["M140 S" ++ str bedTemp])) ++
  (if needPreheatingBed then ["M190 S50"] else []) ++
  (if needPreheatingNozzle && r.nozzleAfterBed < 140 then ["M109 S140"] else []) ++
  (if needPreheatingBed then ["M140 S" ++ str bedTemp] else []) ++
  (if needPreheatingNozzle then ["M104 S" ++ str nozzleTemp] else [])

/-- The lines from the excluded objects to `G92`. -/
def prepareLines (str : K → String) (ePos fanSpeed nozzleTemp bedTemp : K)
    (absoluteExtrude objectsEnabled : Bool) (excludedObjects : List String) (r : Recovery K) :
    List String :=
  (if objectsEnabled then [] else ["SET_EXCLUDE_ENABLE ENABLE=0"]) ++
  excludedObjects.map ("EXCLUDE_OBJECT NAME=" ++ ·) ++
  heatLines str nozzleTemp bedTemp r ++
  [if absoluteExtrude then "M82" else "M83", "G28",
    "SAVE_VARIABLE VARIABLE=plr_flag VALUE=True"] ++
  (if r.bedAfterHoming < bedTemp - 3 then ["M190 S" ++ str bedTemp] else []) ++
  (if r.nozzleAfterHoming < nozzleTemp - 3 then ["M109 S" ++ str nozzleTemp] else []) ++
  ["M106 S" ++ str (min (max (fanSpeed * 255) 0) 255), "G92 E" ++ str ePos]

/-- `limit_z` -/
def limitZ (axisMaximumZ homedZ : K) : K := round4 (axisMaximumZ - homedZ) - 1 / 1000

/-- `z_pos`, not above the limit. -/
def usedZ (limit zPos : K) : K := if zPos < limit then zPos else limit

/-- The moves: up to 0.6 over the print when there is room, then to the position. -/
def moveLines (str : K → String) (xPos yPos zPos limit : K) : List String :=
  (if zPos + 6 / 10 < limit then ["G1 Z" ++ str (zPos + 6 / 10)] else []) ++
  ["G1 X" ++ toString (truncate xPos) ++ " Y" ++ toString (truncate yPos) ++
    " Z" ++ toString (truncate zPos) ++ " F3000"]

/-- The lines after the moves. -/
def finishLines (str : K → String) (filamentUsed : K) (absoluteCoordinates : Bool) :
    List String :=
  ["SET_FILAMENT_USED S=" ++ str filamentUsed, "M400",
    if absoluteCoordinates then "G90" else "G91", "CLEAR_PAUSE"]

/-- `cmd_F102` -/
def cmdF102 (cfg : PrinterConfig K) (num : Numerals K) (str : K → String) (r : Recovery K)
    (v : Variables K) (p : Printer K) : Except String (Printer K) :=
  match v.fanSpeed, v.nozzleTemp, v.bedTemp, v.excludedObjects with
  | some fanSpeed, some nozzleTemp, some bedTemp, some excludedObjects => do
      let p ← { p with zMoves := [] }.runLines cfg num r <|
        prepareLines str (v.ePos.getD 0) fanSpeed nozzleTemp bedTemp
          (v.absoluteExtrude.getD true) (v.objectsEnabled.getD false) excludedObjects r
      let limit := limitZ r.axisMaximumZ (p.gcodeMove.homingPosition 2)
      let zPos := usedZ limit (v.zPos.getD 0)
      let p ← p.runLines cfg num r <|
        moveLines str (v.xPos.getD 0) (v.yPos.getD 0) zPos limit
      p.runLines cfg num r <|
        finishLines str (v.filamentUsed.getD 0) (v.absoluteCoordinates.getD true)
  | some _, some _, some _, none => .error "object of type 'NoneType' has no len()"
  | _, _, _, _ => .error "save_variables e_pos x_pos y_pos z_pos incomplete"

end F102

end FlsunT1.Klippy
