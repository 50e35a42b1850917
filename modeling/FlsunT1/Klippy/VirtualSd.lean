/-
  Klippy/VirtualSd.lean --- printing a file from the virtual sd card
  (klippy/extras/virtual_sdcard.py).

  `VirtualSD.work_handler` is written as the step of its loop, so that a print is a
  run of the handler, of pauses and of resumes.  What it calls in the rest of the
  program is a parameter: scripts, the tasks that run while the reactor is paused, the
  g-code lock.  They may change the fields of the virtual sd card too.
-/
import Mathlib.Data.List.Infix
import FlsunT1.Library.Utf8

set_option autoImplicit false

namespace FlsunT1.Klippy

open Library

abbrev Bytes := List UInt8

/-! ## The state of the module -/

/-- A file opened for reading. -/
structure SdFile where
  data : Bytes
  offset : Nat
  deriving DecidableEq, Repr

/-- The states of a print in print_stats.py. -/
inductive PrintState
  | standby | printing | paused | complete | error | cancelled
  deriving DecidableEq, Repr

/-- `class PrintStats`; `started` says that there is a `print_start_time`. -/
structure PrintStats where
  started : Bool
  state : PrintState
  errorMessage : String
  deriving DecidableEq, Repr

/-- `reset` -/
def PrintStats.reset : PrintStats := ⟨false, .standby, ""⟩

/-- `note_start` -/
def PrintStats.noteStart (_ : PrintStats) : PrintStats := ⟨true, .printing, ""⟩

/-- `note_pause` -/
def PrintStats.notePause (s : PrintStats) : PrintStats :=
  if s.state ≠ .error then { s with state := .paused } else s

/-- `_note_finish` -/
def PrintStats.noteFinish (s : PrintStats) (state : PrintState) (errorMessage : String) :
    PrintStats :=
  if s.started then ⟨false, state, errorMessage⟩ else s

/-- `note_complete` -/
def PrintStats.noteComplete (s : PrintStats) : PrintStats := s.noteFinish .complete ""

/-- `note_error` -/
def PrintStats.noteError (s : PrintStats) (message : String) : PrintStats :=
  s.noteFinish .error message

/-- `class VirtualSD`; `workTimer` says that there is a `work_timer`. -/
structure VirtualSd where
  currentFile : Option SdFile
  filePosition : Nat
  fileSize : Nat
  powerLossRestart : Bool
  mustPauseWork : Bool
  cmdFromSd : Bool
  nextFilePosition : Nat
  workTimer : Bool
  printStats : PrintStats
  deriving DecidableEq, Repr

/-- The module after `__init__`. -/
def VirtualSd.init : VirtualSd :=
  { currentFile := none, filePosition := 0, fileSize := 0, powerLossRestart := false
    mustPauseWork := false, cmdFromSd := false, nextFilePosition := 0, workTimer := false
    printStats := .reset }

/-- `_load_file`, up to the scripts it runs. -/
def VirtualSd.loadFile (sd : VirtualSd) (data : Bytes) (fileposition : Nat) : VirtualSd :=
  { sd with
    currentFile := some ⟨data, 0⟩, filePosition := fileposition, fileSize := data.length
    printStats := .reset, powerLossRestart := fileposition ≠ 0 }

/-- `do_pause`, up to its wait for the handler. -/
def VirtualSd.doPause (sd : VirtualSd) : VirtualSd :=
  if sd.workTimer then { sd with mustPauseWork := true } else sd

/-- `do_resume`; there is no result when the card is busy. -/
def VirtualSd.doResume (sd : VirtualSd) : Option VirtualSd :=
  if sd.workTimer then none else some { sd with mustPauseWork := false, workTimer := true }

/-- `get_file_position` -/
def VirtualSd.getFilePosition (sd : VirtualSd) : Nat := sd.nextFilePosition

/-- `set_file_position` -/
def VirtualSd.setFilePosition (sd : VirtualSd) (pos : Nat) : VirtualSd :=
  { sd with nextFilePosition := pos }

/-- `current_file.seek` -/
def VirtualSd.seek (sd : VirtualSd) (f : SdFile) (pos : Nat) : VirtualSd :=
  { sd with currentFile := some { f with offset := pos } }

/-! ## What the handler calls -/

/-- What a script may raise: `self.gcode.error`, or another exception. -/
inductive Raised
  | error (message : String)
  | exception (message : String)
  deriving DecidableEq, Repr

/-- `str(e)` -/
def Raised.message : Raised → String
  | .error message => message
  | .exception message => message

/-- The virtual sd card in a program whose other state is `σ`. -/
structure World (σ : Type*) where
  sd : VirtualSd
  host : σ

/-- The rest of the program, as the handler uses it. -/
structure Host (σ : Type*) where
  /-- `gcode_mutex.test` -/
  mutexTest : σ → Bool
  /-- What runs while the handler is in `reactor.pause`. -/
  reactorPause : World σ → World σ
  /-- What runs from the end of a run of the handler to the next `do_resume`. -/
  idle : World σ → World σ
  /-- The wait of `_read_data` for the thread that reads. -/
  readWait : World σ → World σ
  /-- Whether `current_file.read` fails. -/
  readFails : σ → Bool
  /-- `gcode.run_script` -/
  runScript : String → World σ → Option Raised × World σ
  /-- `gcode.run_script_from_command` -/
  runScriptFromCommand : String → World σ → Option Raised × World σ
  /-- Looking up the filament sensor, and its `check_to_pause`. -/
  checkToPause : World σ → Except Raised Bool × World σ
  /-- `locate_printing_gcode.record_gcode_begin`, where that module is configured. -/
  recordGcodeBegin : String → Nat → σ → σ
  /-- `locate_printing_gcode.record_gcode_end`, where that module is configured. -/
  recordGcodeEnd : σ → σ
  /-- `on_error_gcode.render`, which may raise. -/
  onErrorGcode : σ → Option String
  /-- `exclude_object_gcode.render`, which may raise. -/
  excludeObjectGcode : σ → Option String
  /-- Whether `exclude_object.excluded_objects` has any. -/
  hasExcludedObjects : σ → Bool
  /-- `exclude_object.initial_extrusion_moves = 0` -/
  clearInitialExtrusionMoves : σ → σ

/-- `b'\n'` -/
def newline : UInt8 := 10

/-! ## The position after a power loss -/

/-- The loop of `_recover_file_position` over the lines of a block, the first of them at
`nextFilePosition`: the flag and the position of the last label.  There is no result
when `line.decode('utf-8')` raises. -/
def lastLabel (nextFilePosition : Nat) (found : Bool × Nat) : List Bytes → Option (Bool × Nat)
  | [] => some found
  | line :: lines =>
      (decodeUtf8 line).bind fun s =>
        lastLabel (nextFilePosition + line.length + 1)
          (if 25 < s.length ∧ s.toList.take 25 = "EXCLUDE_OBJECT_START NAME".toList then
            (true, nextFilePosition) else found) lines

/-- `_recover_file_position` -/
def recoverFilePositionFrom (data : Bytes) (filePosition : Nat) : Option (Bool × Nat) :=
  match ((data.drop filePosition).take (8192 + 25)).splitOn newline with
  | [] => some (false, filePosition)
  | partialInput :: lines =>
      lastLabel (filePosition + partialInput.length + 1) (false, filePosition) lines

/-- The loop of `recover_file_position`: the position of a label, if there is one. -/
def recoverLoop (data : Bytes) (filePosition : Nat) : Option (Option Nat) :=
  match recoverFilePositionFrom data filePosition with
  | none => none
  | some (true, endPosition) => some (some endPosition)
  | some (false, _) => if filePosition = 0 then some none else recoverLoop data (filePosition - 8192)
termination_by filePosition
decreasing_by omega

section Handler

variable {σ : Type*}

/-- `recover_file_position`, and `file_position` set to its result.  There is no result
when it raises. -/
def recoverFilePosition (h : Host σ) (w : World σ) : Option (World σ) :=
  if h.hasExcludedObjects w.host then
    match w.sd.currentFile with
    | none => none
    | some f =>
        (recoverLoop f.data w.sd.filePosition).map fun
          | some endPosition =>
              { sd := { w.sd.seek f endPosition with filePosition := endPosition }
                host := h.clearInitialExtrusionMoves w.host }
          | none => { w with sd := w.sd.seek f w.sd.filePosition }
  else some w

/-! ## The loop of the handler -/

/-- `partial_input`: bytes, or the text `""` that it is after a change of position. -/
inductive PartialInput
  | bytes (b : Bytes)
  | str
  deriving DecidableEq, Repr

/-- `partial_input + lines[0]`; there is no result when the types differ. -/
def PartialInput.add : PartialInput → Bytes → Option Bytes
  | .bytes b, line => some (b ++ line)
  | .str, _ => none

/-- The handler at the top of its loop.  `lines` has the next line first, where the code
keeps the list reversed.  No code reads `log`, the lines given to `run_script` so far,
each with `file_position` at that time. -/
structure Loop (σ : Type*) extends World σ where
  lines : List Bytes
  partialInput : PartialInput
  errorMessage : Option String
  hasPreCheck : Bool
  log : List (Nat × String)

/-- How a pass through the loop ends: with the next pass, with `break`, by leaving the
handler, or with an exception that the handler does not catch. -/
inductive Flow (σ : Type*)
  | next (l : Loop σ)
  | done (l : Loop σ)
  | returned (l : Loop σ)
  | raised (l : Loop σ)

/-- The handler after scripts and tasks that change the world. -/
def Loop.withWorld (l : Loop σ) (w : World σ) : Loop σ := { l with toWorld := w }

/-- The handler with another state of the virtual sd card. -/
def Loop.withSd (l : Loop σ) (sd : VirtualSd) : Loop σ := { l with sd := sd }

/-- A script whose exceptions are caught, like `on_error_gcode`. -/
def runCaught (h : Host σ) (script : Option String) (w : World σ) : World σ :=
  match script with
  | none => w
  | some script => (h.runScript script w).2

/-- `_read_data`: there is no data when it raises. -/
def readData (h : Host σ) (w : World σ) : Option Bytes × World σ :=
  match w.sd.currentFile with
  | none => (none, h.readWait w)
  | some f =>
      if h.readFails w.host then (none, h.readWait w)
      else
        let data := (f.data.drop f.offset).take 8192
        (some data, h.readWait { w with sd := w.sd.seek f (f.offset + data.length) })

/-- The text of what `_read_data` raises, which is given a `str` to raise. -/
def readErrorMessage : String := "exceptions must derive from BaseException"

/-- The pass of the loop that reads more data. -/
def readRound (h : Host σ) (l : Loop σ) : Flow σ :=
  match readData h l.toWorld with
  | (none, w) =>
      .done { l with
        toWorld := runCaught h (h.onErrorGcode w.host) w, errorMessage := some readErrorMessage }
  | (some data, w) =>
      let l := l.withWorld w
      if data = [] then
        match l.sd.currentFile with
        | none => .raised l
        | some _ => .done (l.withSd { l.sd with currentFile := none })
      else
        let lines := data.splitOn newline
        match l.partialInput.add (lines.headD []) with
        | none => .raised l
        | some first =>
            let lines := first :: lines.tail
            .next { l with
              toWorld := h.reactorPause l.toWorld
              lines := lines.dropLast
              partialInput := .bytes (lines.getLastD []) }

/-- The filament check before the first line of a run: whether it stops the run. -/
def preCheck (h : Host σ) (l : Loop σ) : Except Raised Bool × Loop σ :=
  if l.hasPreCheck then (.ok false, l)
  else
    let r := h.checkToPause l.toWorld
    (r.1, { l with toWorld := r.2, hasPreCheck := true })

/-- Running one line: what that raises, and the handler after it. -/
def runLine (h : Host σ) (l : Loop σ) (line : Bytes) : Option Raised × Loop σ :=
  match decodeUtf8 line with
  | none => (some (.exception "'utf-8' codec can't decode"), l)
  | some text =>
      let host := h.recordGcodeBegin text l.sd.filePosition l.host
      let r := h.runScript text { l.toWorld with host := host }
      let l := { l with log := l.log ++ [(l.sd.filePosition, text)] }
      match r.1 with
      | some e => (some e, l.withWorld r.2)
      | none => (none, l.withWorld { r.2 with host := h.recordGcodeEnd r.2.host })

/-- `sub in s` -/
def isSubstring (sub s : String) : Bool := decide (sub.toList <:+: s.toList)

/-- The end of the print when all objects are excluded. -/
def excludeObjectOver (h : Host σ) (l : Loop σ) : Flow σ :=
  let w := runCaught h (h.excludeObjectGcode l.host)
    { l.toWorld with sd := { l.sd with filePosition := l.sd.fileSize } }
  match w.sd.currentFile with
  | none => .raised (l.withWorld w)
  | some f =>
      .next { l with
        toWorld := { w with sd := w.sd.seek f w.sd.filePosition }, errorMessage := none }

/-- The `except` clauses around a line. -/
def lineRaised (h : Host σ) (l : Loop σ) : Raised → Flow σ
  | .error message =>
      if isSubstring "exclude_object over" message then excludeObjectOver h l
      else
        .done { l with
          toWorld := runCaught h (h.onErrorGcode l.host) l.toWorld, errorMessage := some message }
  | .exception _ => .done l

/-- What follows a line that raised nothing. -/
def lineDone (l : Loop σ) (nextFilePosition : Nat) : Flow σ :=
  let l := l.withSd { l.sd with cmdFromSd := false, filePosition := l.sd.nextFilePosition }
  -- Do we need to skip around?
  if l.sd.nextFilePosition ≠ nextFilePosition then
    match l.sd.currentFile with
    | none => .returned (l.withSd { l.sd with workTimer := false })
    | some f =>
        .next { l with
          sd := l.sd.seek f l.sd.filePosition, lines := [], partialInput := .str }
  else .next l

/-- The pass of the loop that dispatches a line. -/
def dispatchRound (h : Host σ) (l : Loop σ) (line : Bytes) (lines : List Bytes) : Flow σ :=
  let nextFilePosition := l.sd.filePosition + line.length + 1
  let l := { l with
    sd := { l.sd with cmdFromSd := true, nextFilePosition := nextFilePosition }, lines := lines }
  match preCheck h l with
  | (.error e, l) => lineRaised h l e
  | (.ok true, l) => .done l
  | (.ok false, l) =>
      match runLine h l line with
      | (some e, l) => lineRaised h l e
      | (none, l) => lineDone l nextFilePosition

/-- A pass through the loop. -/
def round (h : Host σ) (l : Loop σ) : Flow σ :=
  match l.lines with
  | [] => readRound h l
  | line :: lines =>
      if h.mutexTest l.host then .next (l.withWorld (h.reactorPause l.toWorld))
      else dispatchRound h l line lines

/-! ## Runs of the handler -/

/-- A print: between two runs of the handler, in a run, noted complete (in the world
`w`, with what `END_PRINT` then gave), or ended by an exception. -/
inductive Print (σ : Type*)
  | idle (w : World σ) (log : List (Nat × String))
  | working (l : Loop σ)
  | complete (w : World σ) (log : List (Nat × String)) (after : Option Raised × World σ)
  | crashed (w : World σ) (log : List (Nat × String))

/-- The handler as it enters its loop. -/
def Loop.enter (w : World σ) (log : List (Nat × String)) : Loop σ :=
  { toWorld := w, lines := [], partialInput := .bytes [], errorMessage := none
    hasPreCheck := false, log := log }

/-- What the handler does first after a power loss. -/
def restartWork (h : Host σ) (w : World σ) (log : List (Nat × String)) : Print σ :=
  match h.runScript "F102" { w with sd := { w.sd with powerLossRestart := false } } with
  | (some e, w) =>
      .idle { w with
        sd := { w.sd with workTimer := false, printStats := w.sd.printStats.noteError e.message } }
        log
  | (none, w) =>
      match recoverFilePosition h w with
      | none => .crashed w log
      | some w => .working (.enter w log)

/-- `work_handler`, up to its loop. -/
def startWork (h : Host σ) (w : World σ) (log : List (Nat × String)) : Print σ :=
  match w.sd.currentFile with
  | none =>
      .idle { w with sd := { w.sd with workTimer := false, powerLossRestart := false } } log
  | some f =>
      let sd := w.sd.seek f w.sd.filePosition
      let w := { w with sd := { sd with printStats := sd.printStats.noteStart } }
      if w.sd.powerLossRestart then restartWork h w log else .working (.enter w log)

/-- `work_handler`, after its loop. -/
def endWork (h : Host σ) (l : Loop σ) : Print σ :=
  let sd := { l.sd with workTimer := false, cmdFromSd := false }
  match l.errorMessage with
  | some message =>
      .idle ⟨{ sd with printStats := sd.printStats.noteError message }, l.host⟩ l.log
  | none =>
      if sd.currentFile.isSome then
        .idle ⟨{ sd with printStats := sd.printStats.notePause }, l.host⟩ l.log
      else
        let w := ⟨{ sd with printStats := sd.printStats.noteComplete }, l.host⟩
        .complete w l.log (h.runScriptFromCommand "END_PRINT" w)

/-- The print after a pass of the loop. -/
def Flow.print (h : Host σ) : Flow σ → Print σ
  | .next l => .working l
  | .done l => endWork h l
  | .returned l => .idle l.toWorld l.log
  | .raised l => .crashed l.toWorld l.log

/-- The print goes on: a pass of the loop, or a resume with what runs before it.  A print
that has ended stays as it is. -/
def step (h : Host σ) : Print σ → Print σ
  | .working l => if l.sd.mustPauseWork then endWork h l else (round h l).print h
  | .idle w log =>
      if w.sd.currentFile.isNone then .idle w log
      else
        let w := h.idle w
        match w.sd.doResume with
        | none => .idle w log
        | some sd => startWork h (h.reactorPause { w with sd := sd }) log
  | .complete w log after => .complete w log after
  | .crashed w log => .crashed w log

/-- The lines dispatched so far. -/
def Print.log : Print σ → List (Nat × String)
  | .idle _ log => log
  | .working l => l.log
  | .complete _ log _ => log
  | .crashed _ log => log

/-- The world of a print, when it was noted complete if it was. -/
def Print.world : Print σ → World σ
  | .idle w _ => w
  | .working l => l.toWorld
  | .complete w _ _ => w
  | .crashed w _ => w

/-- The print was noted complete. -/
def Print.Complete : Print σ → Prop
  | .complete w _ _ => w.sd.printStats.state = .complete
  | _ => False

instance (p : Print σ) : Decidable p.Complete :=
  match p with
  | .complete w _ _ => inferInstanceAs (Decidable (w.sd.printStats.state = .complete))
  | .idle .. | .working _ | .crashed .. => inferInstanceAs (Decidable False)

/-- A file that was loaded, to be printed from its beginning. -/
def loaded (data : Bytes) (host : σ) : Print σ :=
  .idle ⟨VirtualSd.init.loadFile data 0, host⟩ []

end Handler

end FlsunT1.Klippy
