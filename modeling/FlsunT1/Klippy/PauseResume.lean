/-
  Klippy/PauseResume.lean --- pausing a print and resuming it
  (klippy/extras/pause_resume.py and the commands of klippy/extras/virtual_sdcard.py).

  Three flags follow what the virtual sd card does.  The worker of the card takes its steps
  between the commands, and within one line of the file when the command is from that line; a
  command that waits for the worker is one step with the end of the worker.  Files are told apart
  by the number of files that were opened before.
-/
import FlsunT1.Library.Run

set_option autoImplicit false

namespace FlsunT1.Klippy

open Library

/-! ## The virtual sd card -/

/-- Where `work_handler` is. -/
inductive WorkPhase
  /-- before its first step -/
  | start
  /-- at the head of its loop -/
  | loop
  /-- in `_read_data` -/
  | reading
  /-- in a line of the file -/
  | line
  deriving DecidableEq

/-- What pausing touches of `VirtualSD`; `opened` counts the files that were opened. -/
structure SdWork where
  currentFile : Option ℕ
  opened : ℕ
  workTimer : Option WorkPhase
  mustPauseWork : Bool
  cmdFromSd : Bool
  deriving DecidableEq

/-- How a file is loaded: it is not found, `START_PRINT` fails, or all goes well. -/
inductive Loading
  | failed | startFailed | started
  deriving DecidableEq

namespace SdWork

/-- `is_active` -/
def isActive (w : SdWork) : Bool := w.workTimer.isSome

/-- The worker does not go on with the loaded file. -/
def Halted (w : SdWork) : Prop := w.workTimer = none ∨ w.mustPauseWork = true

/-- The worker starts between two states. -/
def Starts (w w' : SdWork) : Prop := w.workTimer = none ∧ w'.workTimer ≠ none

instance (w w' : SdWork) : Decidable (Starts w w') := by
  unfold Starts
  infer_instance

/-- `work_handler` after its loop. -/
def exit (w : SdWork) : SdWork := { w with workTimer := none, cmdFromSd := false }

/-- `do_pause`, with the worker that it waits for.  The file may end in the read that the worker
is in. -/
def doPause (ended : Bool) (w : SdWork) : SdWork :=
  if w.isActive then
    if w.cmdFromSd then { w with mustPauseWork := true }
    else
      { w with
        mustPauseWork := true
        workTimer := none
        currentFile := if ended && w.workTimer == some .reading then none else w.currentFile }
  else w

/-- `do_resume`, or `SD busy` -/
def doResume (w : SdWork) : Option SdWork :=
  if w.isActive then none else some { w with mustPauseWork := false, workTimer := some .start }

/-- A file that is loaded is paused and closed.  That there is no file any more after the pause
raises an exception. -/
def closeFile (ended : Bool) (w : SdWork) : SdWork × Bool :=
  if w.currentFile.isSome then
    let w := w.doPause ended
    ({ w with currentFile := none }, w.currentFile.isSome)
  else (w, true)

/-- `do_cancel` -/
def doCancel : Bool → SdWork → SdWork × Bool := closeFile

/-- `_reset_file` -/
def resetFile : Bool → SdWork → SdWork × Bool := closeFile

/-- `_load_file`, of a file that is there. -/
def loadFile (w : SdWork) : SdWork :=
  { w with currentFile := some w.opened, opened := w.opened + 1 }

/-- `cmd_SDCARD_RESET_FILE` -/
def cmdSdcardResetFile (ended : Bool) (w : SdWork) : SdWork × Bool :=
  if w.cmdFromSd then (w, false) else w.resetFile ended

/-- `cmd_SDCARD_PRINT_FILE` -/
def cmdSdcardPrintFile (loading : Loading) (w : SdWork) : SdWork × Bool :=
  if w.isActive then (w, false)
  else
    let w := (w.resetFile false).1
    match loading with
    | .failed => (w, false)
    | .startFailed => (w.loadFile, false)
    | .started =>
      match w.loadFile.doResume with
      | none => (w.loadFile, false)
      | some w => (w, true)

end SdWork

/-- The steps of the worker. -/
inductive WorkStep
  | start
  | read
  | data
  | endOfFile
  | dispatch
  | lineDone
  /-- the line excluded the last object, and the loop goes on at the end of the file -/
  | excludeOver
  /-- the loop is left: for a pause, an error, or a filament that is not there -/
  | exit
  deriving DecidableEq

namespace SdWork

/-- A step of the worker, if it is where the step begins. -/
def work (w : SdWork) : WorkStep → Option SdWork
  | .start =>
    if w.workTimer = some .start ∧ w.currentFile.isSome then
      some { w with workTimer := some .loop }
    else none
  | .read =>
    if w.workTimer = some .loop ∧ w.mustPauseWork = false ∧ w.currentFile.isSome then
      some { w with workTimer := some .reading }
    else none
  | .data =>
    if w.workTimer = some .reading then some { w with workTimer := some .loop } else none
  | .endOfFile =>
    if w.workTimer = some .reading then some { w.exit with currentFile := none } else none
  | .dispatch =>
    if w.workTimer = some .loop ∧ w.mustPauseWork = false then
      some { w with workTimer := some .line, cmdFromSd := true }
    else none
  | .lineDone =>
    if w.workTimer = some .line then
      some { w with workTimer := some .loop, cmdFromSd := false }
    else none
  | .excludeOver =>
    if w.workTimer = some .line then some { w with workTimer := some .loop } else none
  | .exit => if w.isActive then some w.exit else none

end SdWork

/-! ## The flags -/

/-- `class PauseResume` -/
structure PauseResume where
  vSd : SdWork
  isPaused : Bool
  sdPaused : Bool
  pauseCommandSent : Bool
  deriving DecidableEq

namespace PauseResume

def init : PauseResume where
  vSd := ⟨none, 0, none, false, false⟩
  isPaused := false
  sdPaused := false
  pauseCommandSent := false

/-- `send_pause_command` -/
def sendPauseCommand (ended : Bool) (p : PauseResume) : PauseResume :=
  if p.pauseCommandSent then p
  else if p.vSd.isActive then
    { p with vSd := p.vSd.doPause ended, sdPaused := true, pauseCommandSent := true }
  else { p with sdPaused := false, pauseCommandSent := true }

/-- `cmd_PAUSE` -/
def cmdPause (ended : Bool) (p : PauseResume) : PauseResume :=
  if p.isPaused then p else { p.sendPauseCommand ended with isPaused := true }

/-- `send_resume_command` -/
def sendResumeCommand (p : PauseResume) : Option PauseResume :=
  if p.sdPaused then
    p.vSd.doResume.map fun w =>
      { p with vSd := w, sdPaused := false, pauseCommandSent := false }
  else some { p with pauseCommandSent := false }

/-- `cmd_RESUME`; the move of `RESTORE_GCODE_STATE` may fail. -/
def cmdResume (moveFails : Bool) (p : PauseResume) : Option PauseResume :=
  if !p.isPaused then some p
  else if moveFails then none
  else p.sendResumeCommand.map fun p => { p with isPaused := false }

/-- `cmd_CLEAR_PAUSE` -/
def cmdClearPause (p : PauseResume) : PauseResume :=
  { p with isPaused := false, pauseCommandSent := false }

/-- `cmd_CANCEL_PRINT` -/
def cmdCancelPrint (ended : Bool) (p : PauseResume) : PauseResume × Bool :=
  if p.vSd.isActive || p.sdPaused then
    let (w, returned) := p.vSd.doCancel ended
    if returned then ({ p with vSd := w }.cmdClearPause, true) else ({ p with vSd := w }, false)
  else (p.cmdClearPause, true)

end PauseResume

/-- The commands, the call of `send_pause_command` for a runout, and the worker. -/
inductive PauseEvent
  | pause (ended : Bool)
  | resume (moveFails : Bool)
  | clearPause
  | cancelPrint (ended : Bool)
  | m24
  | m25 (ended : Bool)
  | sdcardPrintFile (loading : Loading)
  | sdcardResetFile (ended : Bool)
  | runout (ended : Bool)
  | work (step : WorkStep)

/-- The event is a command of the card, or a step of its worker. -/
def PauseEvent.ofCard : PauseEvent → Bool
  | .m24 | .m25 _ | .sdcardPrintFile _ | .sdcardResetFile _ | .work _ => true
  | _ => false

namespace PauseResume

/-- The state after an event, and whether the command returns. -/
def handle (p : PauseResume) : PauseEvent → Option (PauseResume × Bool)
  | .pause ended => some (p.cmdPause ended, true)
  | .resume moveFails =>
    match p.cmdResume moveFails with
    | none => some (p, false)
    | some q => some (q, true)
  | .clearPause => some (p.cmdClearPause, true)
  | .cancelPrint ended => some (p.cmdCancelPrint ended)
  | .m24 =>
    match p.vSd.doResume with
    | none => some (p, false)
    | some w => some ({ p with vSd := w }, true)
  | .m25 ended => some ({ p with vSd := p.vSd.doPause ended }, true)
  | .sdcardPrintFile loading =>
    let (w, returned) := p.vSd.cmdSdcardPrintFile loading
    some ({ p with vSd := w }, returned)
  | .sdcardResetFile ended =>
    let (w, returned) := p.vSd.cmdSdcardResetFile ended
    some ({ p with vSd := w }, returned)
  | .runout ended => some (p.sendPauseCommand ended, true)
  | .work step => (p.vSd.work step).map fun w => ({ p with vSd := w }, true)

/-- The event calls `send_pause_command`, and this is the first call of the pause. -/
def sends (p : PauseResume) : PauseEvent → Bool
  | .pause _ => !p.isPaused && !p.pauseCommandSent
  | .runout _ => !p.pauseCommandSent
  | _ => false

end PauseResume

/-! ## What was paused -/

/-- The state with the print that `send_pause_command` has stopped, until it is started again or
closed, and the print that the pause in force has stopped. -/
structure PauseHistory where
  now : PauseResume
  stopped : Option ℕ
  pausedPrint : Option ℕ
  deriving DecidableEq

namespace PauseHistory

def init : PauseHistory := ⟨.init, none, none⟩

/-- The print that a call of `send_pause_command` stops. -/
def stops (p : PauseResume) : Option ℕ := if p.vSd.isActive then p.vSd.currentFile else none

/-- The state after an event. -/
def step (s : PauseHistory) (e : PauseEvent) : Option PauseHistory :=
  (s.now.handle e).map fun (q, _) =>
    let stopped := if s.now.sends e && s.now.vSd.isActive then s.now.vSd.currentFile else s.stopped
    { now := q
      stopped := if s.now.vSd.Starts q.vSd ∨ q.vSd.currentFile ≠ stopped then none else stopped
      pausedPrint :=
        if s.now.sends e then stops s.now
        else if q.pauseCommandSent then s.pausedPrint else none }

/-- No line of a file is dispatched until a `RESUME` or `M24`. -/
def Silent (file : ℕ) (s : PauseHistory) : Prop :=
  ∀ es u v, Run (fun s e t => s.step e = some t) s es u →
    (∀ e ∈ es, (∀ moveFails, e ≠ .resume moveFails) ∧ e ≠ .m24) →
    u.step (.work .dispatch) = some v → u.now.vSd.currentFile ≠ some file

/-- With `sd_paused`, the loaded print is stopped, by `send_pause_command`. -/
def SdStopped (s : PauseHistory) : Prop :=
  s.now.sdPaused = true → s.now.vSd.Halted ∧
    ∃ file, s.now.vSd.currentFile = some file ∧ s.stopped = some file

/-- What a step keeps:
* after a `PAUSE`, no line of the loaded file is dispatched until a `RESUME` or `M24`;
* with `sd_paused`, the loaded print is stopped, by `send_pause_command`;
* a `RESUME` that returns starts the worker if and only if the loaded print is that of the pause;
* `CANCEL_PRINT` closes a file only if it is printed or was stopped by a pause;
* after a `RESUME` that raises, nothing has changed, and once the worker has left its loop, a later
  `RESUME` and a later `CANCEL_PRINT` do what they are for. -/
structure Keeps (s : PauseHistory) (e : PauseEvent) (t : PauseHistory) : Prop where
  pause : ∀ ended file, e = .pause ended → t.now.vSd.currentFile = some file → Silent file t
  sdPaused : t.SdStopped
  resume : ∀ moveFails q, e = .resume moveFails → s.now.handle e = some (q, true) →
    (s.now.vSd.Starts q.vSd ↔ s.now.isPaused = true ∧
      ∃ file, s.now.vSd.currentFile = some file ∧ s.pausedPrint = some file)
  cancel : ∀ ended file, e = .cancelPrint ended → s.now.vSd.currentFile = some file →
    t.now.vSd.currentFile ≠ some file → s.now.vSd.isActive = true ∨ s.stopped = some file
  raised : ∀ moveFails, e = .resume moveFails → s.now.handle e = some (t.now, false) →
    t.now = s.now ∧ (t.now.sdPaused = true → t.now.vSd.Halted) ∧
    let left := { t.now with vSd := t.now.vSd.exit }
    (∃ q, left.handle (.resume false) = some (q, true) ∧ q.isPaused = false ∧
      (left.vSd.Starts q.vSd ↔ t.now.sdPaused = true)) ∧
    ∀ ended, ∃ q, left.handle (.cancelPrint ended) = some (q, true) ∧ q.isPaused = false ∧
      (t.now.sdPaused = true → q.vSd.currentFile = none)

/-- A call of `send_pause_command` does not find the worker without a file, and the file does not
end while the call waits. -/
def SendCondition (ended : Bool) (p : PauseResume) : Prop :=
  p.vSd.isActive = true → p.vSd.currentFile ≠ none ∧
    (ended = true → p.vSd.cmdFromSd = false → p.vSd.workTimer ≠ some .reading)

/-- The condition on a step for `sd_paused`: while it is set, the file is neither closed nor
started by a command that does not clear it. -/
def FlagCondition (s : PauseHistory) : PauseEvent → Prop
  | .pause ended => s.now.sends (.pause ended) = true → SendCondition ended s.now
  | .runout ended => s.now.sends (.runout ended) = true → SendCondition ended s.now
  | .resume _ => True
  | .clearPause => True
  | .cancelPrint _ => s.now.sdPaused = false
  | .m24 => s.now.sdPaused = true → s.now.vSd.isActive = true
  | .m25 ended => s.now.sdPaused = true → ended = true → s.now.vSd.cmdFromSd = false →
      s.now.vSd.workTimer ≠ some .reading
  | .sdcardPrintFile _ => s.now.sdPaused = true → s.now.vSd.isActive = true
  | .sdcardResetFile _ => s.now.sdPaused = true → s.now.vSd.cmdFromSd = true
  | .work step => step = .endOfFile → s.now.sdPaused = false

/-- The condition on a step: a `PAUSE` that finds a pause in force finds the worker stopped,
too. -/
def Condition (s : PauseHistory) (e : PauseEvent) : Prop :=
  s.FlagCondition e ∧ ∀ ended, e = .pause ended → s.now.sends e = false →
    s.now.vSd.currentFile ≠ none → s.now.vSd.Halted

end PauseHistory

/-! ## The card -/

namespace SdWork

variable {w w' : SdWork} {ended : Bool}

theorem halted_doPause : (w.doPause ended).Halted := by
  rw [doPause]
  split
  · split
    · exact .inr rfl
    · exact .inl rfl
  · rename_i h
    exact .inl (Option.not_isSome_iff_eq_none.mp h)

theorem opened_doPause : (w.doPause ended).opened = w.opened := by
  rw [doPause]
  split
  · split
    · rfl
    · rfl
  · rfl

theorem currentFile_doPause (w : SdWork) (ended : Bool) :
    (w.doPause ended).currentFile = w.currentFile ∨ (w.doPause ended).currentFile = none := by
  rw [doPause]
  split
  · split
    · exact .inl rfl
    · by_cases h : (ended && w.workTimer == some .reading) = true
      · exact .inr (if_pos h)
      · exact .inl (if_neg h)
  · exact .inl rfl

theorem currentFile_doPause_iff (hactive : w.isActive = true) (hfile : w.currentFile ≠ none) :
    (w.doPause ended).currentFile ≠ none ↔
      (ended = true → w.cmdFromSd = false → w.workTimer ≠ some .reading) := by
  rw [doPause, if_pos hactive]
  cases hcmd : w.cmdFromSd with
  | true => simp [hfile]
  | false =>
    cases ended with
    | false => simp [hfile]
    | true => simp [hfile]

theorem not_starts_doPause : ¬w.Starts (w.doPause ended) := by
  rintro ⟨hnone, hsome⟩
  rw [doPause, if_neg (by simp [isActive, hnone])] at hsome
  exact hsome hnone

theorem not_starts_self : ¬w.Starts w := fun h => h.2 h.1

theorem closeFile_currentFile : (w.closeFile ended).1.currentFile = none := by
  rw [closeFile]
  split
  · rfl
  · rename_i h
    exact Option.not_isSome_iff_eq_none.mp h

theorem opened_closeFile : (w.closeFile ended).1.opened = w.opened := by
  rw [closeFile]
  split
  · exact opened_doPause
  · rfl

/-- The worker does not go on from where it is to pause. -/
theorem work_spec {e : WorkStep} (h : w.work e = some w') :
    w'.opened = w.opened ∧ (w'.currentFile = w.currentFile ∨ e = .endOfFile ∧
      w'.currentFile = none) ∧ (w.Halted → w'.Halted) ∧ ¬w.Starts w' := by
  have hnot : ∀ {ph : WorkPhase}, w.workTimer = some ph → ¬w.Starts w' := fun hph hstarts => by
    have hnone := hstarts.1
    rw [hph] at hnone
    cases hnone
  have hmust : ∀ {ph : WorkPhase}, w.workTimer = some ph → w.Halted → w.mustPauseWork = true :=
    fun hph hhalted => hhalted.resolve_left fun hnone => by rw [hph] at hnone; cases hnone
  cases e with
  | start | read | dispatch =>
    rw [work, Option.ite_none_right_eq_some] at h
    obtain ⟨⟨hph, -⟩, h⟩ := h
    obtain rfl := Option.some.inj h
    exact ⟨rfl, .inl rfl, fun hhalted => .inr (hmust hph hhalted), hnot hph⟩
  | data | lineDone | excludeOver =>
    rw [work, Option.ite_none_right_eq_some] at h
    obtain ⟨hph, h⟩ := h
    obtain rfl := Option.some.inj h
    exact ⟨rfl, .inl rfl, fun hhalted => .inr (hmust hph hhalted), hnot hph⟩
  | endOfFile =>
    rw [work, Option.ite_none_right_eq_some] at h
    obtain ⟨hph, h⟩ := h
    obtain rfl := Option.some.inj h
    exact ⟨rfl, .inr ⟨rfl, rfl⟩, fun _ => .inl rfl, hnot hph⟩
  | exit =>
    rw [work, Option.ite_none_right_eq_some] at h
    obtain ⟨hactive, h⟩ := h
    obtain rfl := Option.some.inj h
    obtain ⟨ph, hph⟩ := Option.isSome_iff_exists.mp hactive
    exact ⟨rfl, .inl rfl, fun _ => .inl rfl, hnot hph⟩

/-- What is done to the card, apart from `do_resume`. -/
inductive Moves (w : SdWork) : SdWork → Prop
  | same : Moves w w
  | paused (ended : Bool) : Moves w (w.doPause ended)
  | closed {w' : SdWork} (hfile : w'.currentFile = none) (hopened : w'.opened = w.opened) :
      Moves w w'
  | loaded {w' : SdWork} (hfile : w'.currentFile = some w.opened)
      (hopened : w'.opened = w.opened + 1) : Moves w w'
  | worked {e : WorkStep} {w' : SdWork} (h : w.work e = some w') : Moves w w'

theorem moves_closeFile : Moves w (w.closeFile ended).1 :=
  .closed closeFile_currentFile opened_closeFile

theorem moves_cmdSdcardResetFile : Moves w (w.cmdSdcardResetFile ended).1 := by
  rw [cmdSdcardResetFile]
  split
  · exact .same
  · exact moves_closeFile

/-- `SDCARD_PRINT_FILE` closes the file, or loads another. -/
theorem cmdSdcardPrintFile_idle (loading : Loading) (h : ¬w.isActive = true) :
    (w.cmdSdcardPrintFile loading).1.currentFile = none ∧
        (w.cmdSdcardPrintFile loading).1.opened = w.opened ∨
      (w.cmdSdcardPrintFile loading).1.currentFile = some w.opened ∧
        (w.cmdSdcardPrintFile loading).1.opened = w.opened + 1 := by
  have hopened : (w.resetFile false).1.opened = w.opened := opened_closeFile
  rw [cmdSdcardPrintFile, if_neg h]
  cases loading with
  | failed => exact .inl ⟨closeFile_currentFile, hopened⟩
  | startFailed => exact .inr ⟨congrArg some hopened, congrArg (· + 1) hopened⟩
  | started =>
    simp only [doResume]
    split
    · exact .inr ⟨congrArg some hopened, congrArg (· + 1) hopened⟩
    · rename_i hresume
      split at hresume
      · cases hresume
      · obtain rfl := Option.some.inj hresume
        exact .inr ⟨congrArg some hopened, congrArg (· + 1) hopened⟩

theorem moves_cmdSdcardPrintFile (loading : Loading) :
    Moves w (w.cmdSdcardPrintFile loading).1 := by
  by_cases hactive : w.isActive = true
  · rw [cmdSdcardPrintFile, if_pos hactive]
    exact .same
  · rcases cmdSdcardPrintFile_idle loading hactive with ⟨hfile, hopened⟩ | ⟨hfile, hopened⟩
    · exact .closed hfile hopened
    · exact .loaded hfile hopened

/-- A file that is loaded was opened before. -/
def Opened (w : SdWork) : Prop := ∀ file, w.currentFile = some file → file < w.opened

theorem Opened.moves (h : w.Opened) (hmoves : w.Moves w') : w'.Opened := by
  intro file hfile
  cases hmoves with
  | same => exact h file hfile
  | paused ended =>
    rw [opened_doPause]
    rcases currentFile_doPause w ended with hsame | hnone
    · exact h file (hsame ▸ hfile)
    · rw [hnone] at hfile
      cases hfile
  | closed hnone =>
    rw [hnone] at hfile
    cases hfile
  | loaded hloaded hopened =>
    rw [hopened, Option.some.inj (hfile.symm.trans hloaded)]
    exact Nat.lt_succ_self _
  | worked hwork =>
    obtain ⟨hopened, hcurrent, -⟩ := work_spec hwork
    rw [hopened]
    rcases hcurrent with hsame | ⟨-, hnone⟩
    · exact h file (hsame ▸ hfile)
    · rw [hnone] at hfile
      cases hfile

/-- What holds of a file until it is printed on: it was opened before, and the worker does not go
on with it. -/
def Rests (file : ℕ) (w : SdWork) : Prop :=
  file < w.opened ∧ (w.currentFile = some file → w.Halted)

/-- Only `do_resume` makes the worker go on with a file; a file that is loaded is another file. -/
theorem Rests.moves {file : ℕ} (h : w.Rests file) (hmoves : w.Moves w') : w'.Rests file := by
  obtain ⟨hlt, hhalted⟩ := h
  cases hmoves with
  | same => exact ⟨hlt, hhalted⟩
  | paused ended => exact ⟨by rw [opened_doPause]; exact hlt, fun _ => halted_doPause⟩
  | closed hnone hopened =>
    refine ⟨by rw [hopened]; exact hlt, fun hfile => ?_⟩
    rw [hnone] at hfile
    cases hfile
  | loaded hloaded hopened =>
    rw [Rests, hopened, hloaded]
    exact ⟨Nat.lt_succ_of_lt hlt, fun hfile => absurd (Option.some.inj hfile) (Nat.ne_of_gt hlt)⟩
  | worked hwork =>
    obtain ⟨hopened, hcurrent, hkept, -⟩ := work_spec hwork
    refine ⟨by rw [hopened]; exact hlt, fun hfile => hkept (hhalted ?_)⟩
    rcases hcurrent with hsame | ⟨-, hnone⟩
    · exact hsame ▸ hfile
    · rw [hnone] at hfile
      cases hfile

/-- The worker is stopped, with the same file. -/
def Stays (w w' : SdWork) : Prop :=
  w'.Halted ∧ w'.currentFile = w.currentFile ∧ ¬w.Starts w'

theorem stays_self (h : w.Halted) : w.Stays w := ⟨h, rfl, not_starts_self⟩

theorem not_stays_of_none (hfile : w.currentFile ≠ none) (hnone : w'.currentFile = none) :
    ¬w.Stays w' := fun h => hfile (h.2.1 ▸ hnone)

theorem stays_doPause_iff (hfile : w.currentFile ≠ none) :
    w.Stays (w.doPause ended) ↔
      (ended = true → w.cmdFromSd = false → w.workTimer ≠ some .reading) := by
  by_cases hactive : w.isActive = true
  · rw [← currentFile_doPause_iff hactive hfile, Stays, and_iff_right halted_doPause,
      and_iff_left not_starts_doPause]
    constructor
    · intro hsame
      rw [hsame]
      exact hfile
    · exact (currentFile_doPause w ended).resolve_right
  · have hidle : w.workTimer = none := Option.not_isSome_iff_eq_none.mp hactive
    rw [doPause, if_neg hactive]
    refine iff_of_true (stays_self (.inl hidle)) fun _ _ hreading => ?_
    rw [hidle] at hreading
    cases hreading

theorem stays_cmdSdcardResetFile_iff (h : w.Halted) (hfile : w.currentFile ≠ none) :
    w.Stays (w.cmdSdcardResetFile ended).1 ↔ w.cmdFromSd = true := by
  rw [cmdSdcardResetFile]
  split
  · rename_i hcmd
    exact iff_of_true (stays_self h) hcmd
  · rename_i hcmd
    exact iff_of_false (not_stays_of_none hfile closeFile_currentFile) hcmd

theorem stays_cmdSdcardPrintFile_iff {loading : Loading} (h : w.Halted) (hopened : w.Opened)
    (hfile : w.currentFile ≠ none) :
    w.Stays (w.cmdSdcardPrintFile loading).1 ↔ w.isActive = true := by
  rw [cmdSdcardPrintFile]
  split
  · rename_i hactive
    exact iff_of_true (stays_self h) hactive
  · rename_i hidle
    refine iff_of_false (fun hstays => ?_) hidle
    rcases cmdSdcardPrintFile_idle loading hidle with ⟨hnone, -⟩ | ⟨hloaded, -⟩
    · rw [cmdSdcardPrintFile, if_neg hidle] at hnone
      exact not_stays_of_none hfile hnone hstays
    · rw [cmdSdcardPrintFile, if_neg hidle] at hloaded
      exact Nat.lt_irrefl _ (hopened _ (hstays.2.1.symm.trans hloaded))

theorem stays_work_iff {e : WorkStep} (h : w.Halted) (hfile : w.currentFile ≠ none)
    (hwork : w.work e = some w') : w.Stays w' ↔ e ≠ .endOfFile := by
  obtain ⟨-, hcurrent, hhalted, hstarts⟩ := work_spec hwork
  constructor
  · rintro hstays rfl
    refine not_stays_of_none hfile ?_ hstays
    rw [work, Option.ite_none_right_eq_some] at hwork
    rw [← Option.some.inj hwork.2]
  · exact fun he => ⟨hhalted h, hcurrent.resolve_right fun hend => he hend.1, hstarts⟩

end SdWork

/-! ## The commands -/

namespace PauseResume

variable {p q : PauseResume} {e : PauseEvent} {returned ended : Bool}

theorem sendPauseCommand_sent (h : p.pauseCommandSent = true) : p.sendPauseCommand ended = p :=
  if_pos h

theorem sendPauseCommand_eq (h : p.pauseCommandSent = false) :
    p.sendPauseCommand ended = ⟨p.vSd.doPause ended, p.isPaused, p.vSd.isActive, true⟩ := by
  rw [sendPauseCommand, h, if_neg Bool.false_ne_true]
  split
  · rename_i hactive
    rw [hactive]
  · rename_i hidle
    rw [SdWork.doPause, if_neg hidle, Bool.eq_false_iff.mpr hidle]

/-- `CANCEL_PRINT` closes the file, or finds nothing to cancel; the flags are cleared unless an
exception is raised. -/
theorem cmdCancelPrint_eq :
    p.cmdCancelPrint ended =
      if p.vSd.isActive = true ∨ p.sdPaused = true then
        (⟨(p.vSd.closeFile ended).1, !(p.vSd.closeFile ended).2 && p.isPaused, p.sdPaused,
          !(p.vSd.closeFile ended).2 && p.pauseCommandSent⟩, (p.vSd.closeFile ended).2)
      else (p.cmdClearPause, true) := by
  rw [cmdCancelPrint]
  simp only [Bool.or_eq_true, SdWork.doCancel, cmdClearPause]
  split
  · by_cases hreturned : (p.vSd.closeFile ended).2 = true
    · simp [hreturned]
    · simp [hreturned]
  · rfl

/-- What `RESUME` comes to. -/
inductive Resumed (p : PauseResume) : PauseResume → Bool → Prop
  | notPaused (h : p.isPaused = false) : Resumed p p true
  | raised (h : p.isPaused = true) : Resumed p p false
  | restarted (h : p.isPaused = true) (hsd : p.sdPaused = true) (hidle : p.vSd.isActive = false) :
      Resumed p ⟨{ p.vSd with mustPauseWork := false, workTimer := some .start }, false, false,
        false⟩ true
  | announced (h : p.isPaused = true) (hsd : p.sdPaused = false) :
      Resumed p ⟨p.vSd, false, false, false⟩ true

theorem resumed_of_handle {moveFails : Bool}
    (h : p.handle (.resume moveFails) = some (q, returned)) : Resumed p q returned := by
  rw [handle, cmdResume, sendResumeCommand, SdWork.doResume] at h
  cases hpaused : p.isPaused with
  | false =>
    simp only [hpaused, Bool.not_false, if_true] at h
    obtain ⟨rfl, rfl⟩ := Prod.mk.inj (Option.some.inj h)
    exact .notPaused hpaused
  | true =>
    simp only [hpaused, Bool.not_true, Bool.false_eq_true, if_false] at h
    cases moveFails with
    | true =>
      simp only [if_true] at h
      obtain ⟨rfl, rfl⟩ := Prod.mk.inj (Option.some.inj h)
      exact .raised hpaused
    | false =>
      cases hsd : p.sdPaused with
      | false =>
        simp only [hsd, Bool.false_eq_true, if_false, Option.map_some] at h
        obtain ⟨rfl, rfl⟩ := Prod.mk.inj (Option.some.inj h)
        exact .announced hpaused hsd
      | true =>
        cases hactive : p.vSd.isActive with
        | true =>
          simp only [hsd, hactive, Bool.false_eq_true, if_false, if_true, Option.map_none] at h
          obtain ⟨rfl, rfl⟩ := Prod.mk.inj (Option.some.inj h)
          exact .raised hpaused
        | false =>
          simp only [hsd, hactive, Bool.false_eq_true, if_false, if_true, Option.map_some] at h
          obtain ⟨rfl, rfl⟩ := Prod.mk.inj (Option.some.inj h)
          exact .restarted hpaused hsd hactive

theorem handle_sends (hsends : p.sends e = true) (h : p.handle e = some (q, returned)) :
    ∃ ended, (e = .pause ended ∨ e = .runout ended) ∧ q.vSd = p.vSd.doPause ended ∧
      q.sdPaused = p.vSd.isActive ∧ q.pauseCommandSent = true := by
  cases e with
  | pause ended =>
    rw [sends, Bool.and_eq_true, Bool.not_eq_true', Bool.not_eq_true'] at hsends
    obtain ⟨rfl, -⟩ := Prod.mk.inj (Option.some.inj h)
    rw [cmdPause, hsends.1, if_neg Bool.false_ne_true, sendPauseCommand_eq hsends.2]
    exact ⟨ended, .inl rfl, rfl, rfl, rfl⟩
  | runout ended =>
    rw [sends, Bool.not_eq_true'] at hsends
    obtain ⟨rfl, -⟩ := Prod.mk.inj (Option.some.inj h)
    rw [sendPauseCommand_eq hsends]
    exact ⟨ended, .inr rfl, rfl, rfl, rfl⟩
  | _ => cases hsends

theorem pause_of_not_sends (hsends : p.sends (.pause ended) = false)
    (h : p.handle (.pause ended) = some (q, returned)) :
    q = { p with isPaused := true } := by
  obtain ⟨rfl, -⟩ := Prod.mk.inj (Option.some.inj h)
  rw [sends, Bool.and_eq_false_iff, Bool.not_eq_false', Bool.not_eq_false'] at hsends
  by_cases hpaused : p.isPaused = true
  · rw [cmdPause, if_pos hpaused, ← hpaused]
  · rw [cmdPause, if_neg hpaused, sendPauseCommand_sent (hsends.resolve_left hpaused)]

theorem moves_sendPauseCommand (p : PauseResume) (ended : Bool) :
    p.vSd.Moves (p.sendPauseCommand ended).vSd := by
  cases hsent : p.pauseCommandSent with
  | true =>
    rw [sendPauseCommand_sent hsent]
    exact .same
  | false =>
    rw [sendPauseCommand_eq hsent]
    exact .paused ended

/-- What an event does to the card. -/
theorem handle_moves (h : p.handle e = some (q, returned)) :
    p.vSd.Moves q.vSd ∨ (∃ moveFails, e = .resume moveFails) ∨ e = .m24 := by
  cases e with
  | pause ended =>
    obtain ⟨rfl, -⟩ := Prod.mk.inj (Option.some.inj h)
    rw [cmdPause]
    split
    · exact .inl .same
    · exact .inl (moves_sendPauseCommand p ended)
  | resume moveFails => exact .inr (.inl ⟨moveFails, rfl⟩)
  | clearPause =>
    obtain ⟨rfl, -⟩ := Prod.mk.inj (Option.some.inj h)
    exact .inl .same
  | cancelPrint ended =>
    have hq : p.cmdCancelPrint ended = (q, returned) := Option.some.inj h
    rw [cmdCancelPrint_eq] at hq
    split at hq
    · obtain ⟨rfl, -⟩ := Prod.mk.inj hq
      exact .inl SdWork.moves_closeFile
    · obtain ⟨rfl, -⟩ := Prod.mk.inj hq
      exact .inl .same
  | m24 => exact .inr (.inr rfl)
  | m25 ended =>
    obtain ⟨rfl, -⟩ := Prod.mk.inj (Option.some.inj h)
    exact .inl (.paused ended)
  | sdcardPrintFile loading =>
    obtain ⟨rfl, -⟩ := Prod.mk.inj (Option.some.inj h)
    exact .inl (SdWork.moves_cmdSdcardPrintFile loading)
  | sdcardResetFile ended =>
    obtain ⟨rfl, -⟩ := Prod.mk.inj (Option.some.inj h)
    exact .inl SdWork.moves_cmdSdcardResetFile
  | runout ended =>
    obtain ⟨rfl, -⟩ := Prod.mk.inj (Option.some.inj h)
    exact .inl (moves_sendPauseCommand p ended)
  | work step =>
    obtain ⟨w, hw, hq⟩ := Option.map_eq_some_iff.mp h
    obtain ⟨rfl, -⟩ := Prod.mk.inj hq
    exact .inl (.worked hw)

theorem opened_handle (hp : p.vSd.Opened) (h : p.handle e = some (q, returned)) :
    q.vSd.Opened := by
  rcases handle_moves h with hmoves | ⟨moveFails, rfl⟩ | rfl
  · exact hp.moves hmoves
  · cases resumed_of_handle h with
    | notPaused => exact hp
    | raised => exact hp
    | restarted => exact hp
    | announced => exact hp
  · rw [handle, SdWork.doResume] at h
    cases hactive : p.vSd.isActive with
    | true =>
      simp only [hactive, if_true] at h
      obtain ⟨rfl, -⟩ := Prod.mk.inj (Option.some.inj h)
      exact hp
    | false =>
      simp only [hactive, Bool.false_eq_true, if_false] at h
      obtain ⟨rfl, -⟩ := Prod.mk.inj (Option.some.inj h)
      exact hp

theorem handle_card (he : e.ofCard = true) (h : p.handle e = some (q, returned)) :
    q = { p with vSd := q.vSd } := by
  cases e with
  | m24 =>
    rw [handle] at h
    split at h
    · obtain ⟨rfl, -⟩ := Prod.mk.inj (Option.some.inj h)
      rfl
    · obtain ⟨rfl, -⟩ := Prod.mk.inj (Option.some.inj h)
      rfl
  | m25 | sdcardPrintFile | sdcardResetFile =>
    obtain ⟨rfl, -⟩ := Prod.mk.inj (Option.some.inj h)
    rfl
  | work step =>
    obtain ⟨w, -, hq⟩ := Option.map_eq_some_iff.mp h
    obtain ⟨rfl, -⟩ := Prod.mk.inj hq
    rfl
  | _ => cases he

/-- Other events keep what was taken down, and `RESUME` clears it with the pause. -/
theorem handle_flags (hsends : p.sends e = false) (h : p.handle e = some (q, returned)) :
    q.sdPaused = p.sdPaused ∧ (q.pauseCommandSent = true → p.pauseCommandSent = true) ∨
      q.sdPaused = false ∧ q.pauseCommandSent = false := by
  cases e with
  | pause ended =>
    rw [pause_of_not_sends hsends h]
    exact .inl ⟨rfl, id⟩
  | resume moveFails =>
    cases resumed_of_handle h with
    | notPaused => exact .inl ⟨rfl, id⟩
    | raised => exact .inl ⟨rfl, id⟩
    | restarted => exact .inr ⟨rfl, rfl⟩
    | announced => exact .inr ⟨rfl, rfl⟩
  | clearPause =>
    obtain ⟨rfl, -⟩ := Prod.mk.inj (Option.some.inj h)
    exact .inl ⟨rfl, fun hsent => by cases hsent⟩
  | cancelPrint ended =>
    have hq : p.cmdCancelPrint ended = (q, returned) := Option.some.inj h
    rw [cmdCancelPrint_eq] at hq
    split at hq
    · obtain ⟨rfl, -⟩ := Prod.mk.inj hq
      exact .inl ⟨rfl, fun hsent => (Bool.and_eq_true_iff.mp hsent).2⟩
    · obtain ⟨rfl, -⟩ := Prod.mk.inj hq
      exact .inl ⟨rfl, fun hsent => by cases hsent⟩
  | runout ended =>
    obtain ⟨rfl, -⟩ := Prod.mk.inj (Option.some.inj h)
    rw [sends, Bool.not_eq_false'] at hsends
    rw [sendPauseCommand_sent hsends]
    exact .inl ⟨rfl, id⟩
  | _ =>
    rw [handle_card rfl h]
    exact .inl ⟨rfl, id⟩

/-- The printer is paused officially only after `send_pause_command`. -/
theorem handle_isPaused (hp : p.isPaused = true → p.pauseCommandSent = true)
    (h : p.handle e = some (q, returned)) (hpaused : q.isPaused = true) :
    q.pauseCommandSent = true := by
  cases hsends : p.sends e with
  | true =>
    obtain ⟨ended, -, -, -, hsent⟩ := handle_sends hsends h
    exact hsent
  | false =>
    cases e with
    | pause ended =>
      have hnow := pause_of_not_sends hsends h
      rw [sends, Bool.and_eq_false_iff, Bool.not_eq_false', Bool.not_eq_false'] at hsends
      rw [hnow]
      exact hsends.elim hp id
    | resume moveFails =>
      cases resumed_of_handle h with
      | notPaused => exact hp hpaused
      | raised => exact hp hpaused
      | restarted => cases hpaused
      | announced => cases hpaused
    | clearPause =>
      obtain ⟨rfl, -⟩ := Prod.mk.inj (Option.some.inj h)
      cases hpaused
    | cancelPrint ended =>
      have hq : p.cmdCancelPrint ended = (q, returned) := Option.some.inj h
      rw [cmdCancelPrint_eq] at hq
      split at hq
      · obtain ⟨rfl, -⟩ := Prod.mk.inj hq
        obtain ⟨hraised, hpaused⟩ := Bool.and_eq_true_iff.mp hpaused
        exact Bool.and_eq_true_iff.mpr ⟨hraised, hp hpaused⟩
      · obtain ⟨rfl, -⟩ := Prod.mk.inj hq
        cases hpaused
    | runout ended =>
      obtain ⟨rfl, -⟩ := Prod.mk.inj (Option.some.inj h)
      rw [sends, Bool.not_eq_false'] at hsends
      rw [sendPauseCommand_sent hsends]
      exact hsends
    | _ =>
      rw [handle_card rfl h] at hpaused ⊢
      exact hp hpaused

end PauseResume

/-! ## Histories -/

namespace PauseHistory

variable {s t : PauseHistory} {e : PauseEvent}

theorem step_spec (h : s.step e = some t) : ∃ returned,
    s.now.handle e = some (t.now, returned) ∧
    (t.stopped = let stopped := if s.now.sends e && s.now.vSd.isActive then s.now.vSd.currentFile
        else s.stopped
      if s.now.vSd.Starts t.now.vSd ∨ t.now.vSd.currentFile ≠ stopped then none else stopped) ∧
    t.pausedPrint = if s.now.sends e then stops s.now
      else if t.now.pauseCommandSent then s.pausedPrint else none := by
  obtain ⟨⟨q, returned⟩, hhandle, hq⟩ := Option.map_eq_some_iff.mp h
  obtain rfl := hq
  exact ⟨returned, hhandle, rfl, rfl⟩

/-- What holds of every history in which `sd_paused` tells the truth. -/
structure Inv (s : PauseHistory) : Prop where
  sdStopped : s.SdStopped
  opened : s.now.vSd.Opened
  isPaused : s.now.isPaused = true → s.now.pauseCommandSent = true
  pausedPrint : s.now.pauseCommandSent = true →
    s.pausedPrint = if s.now.sdPaused then s.now.vSd.currentFile else none

theorem inv_init : init.Inv where
  sdStopped := fun h => by cases h
  opened := fun _ hfile => by cases hfile
  isPaused := fun h => by cases h
  pausedPrint := fun h => by cases h

/-- The print that is stopped stays the same while `sd_paused` tells the truth. -/
theorem Inv.step (hs : s.Inv) (h : s.step e = some t) (ht : t.SdStopped) : t.Inv := by
  obtain ⟨returned, hhandle, hstopped, hpaused⟩ := step_spec h
  refine ⟨ht, PauseResume.opened_handle hs.opened hhandle,
    PauseResume.handle_isPaused hs.isPaused hhandle, fun hsent => ?_⟩
  cases hsends : s.now.sends e with
  | true =>
    obtain ⟨ended, -, hvSd, hsd, -⟩ := PauseResume.handle_sends hsends hhandle
    rw [hpaused, hsends, if_pos rfl, stops, hsd]
    by_cases hactive : s.now.vSd.isActive = true
    · rw [if_pos hactive, if_pos hactive]
      obtain ⟨-, file, hfile, -⟩ := ht (hsd.trans hactive)
      rcases SdWork.currentFile_doPause s.now.vSd ended with hsame | hnone
      · rw [hvSd, hsame]
      · rw [hvSd, hnone] at hfile
        cases hfile
    · rw [if_neg hactive, if_neg hactive]
  | false =>
    obtain ⟨hsd, hsent'⟩ := (PauseResume.handle_flags hsends hhandle).resolve_right
      fun hcleared => by rw [hsent] at hcleared; cases hcleared.2
    rw [hpaused, hsends, if_neg Bool.false_ne_true, if_pos hsent, hs.pausedPrint (hsent' hsent),
      hsd]
    by_cases hflag : s.now.sdPaused = true
    · rw [if_pos hflag, if_pos hflag]
      obtain ⟨-, file, hfile, hfile'⟩ := hs.sdStopped hflag
      obtain ⟨-, file', hcurrent, hcurrent'⟩ := ht (hsd.trans hflag)
      rw [hsends, Bool.false_and, if_neg Bool.false_ne_true, hfile'] at hstopped
      dsimp only at hstopped
      split at hstopped
      · rw [hstopped] at hcurrent'
        cases hcurrent'
      · rw [hfile, hcurrent, ← hcurrent', hstopped]
    · rw [if_neg hflag, if_neg hflag]

/-- The first call of a pause takes down the print that it stops. -/
theorem sdStopped_sends_iff {ended : Bool} (h : s.step e = some t)
    (hsends : s.now.sends e = true) (he : e = .pause ended ∨ e = .runout ended) :
    t.SdStopped ↔ SendCondition ended s.now := by
  obtain ⟨returned, hhandle, hstopped, -⟩ := step_spec h
  obtain ⟨ended', he', hvSd, hsd, -⟩ := PauseResume.handle_sends hsends hhandle
  obtain rfl : ended' = ended := by
    rcases he with rfl | rfl <;> rcases he' with he' | he' <;> cases he' <;> rfl
  rw [SdStopped, SendCondition, hsd]
  refine imp_congr_right fun hactive => ?_
  rw [hsends, hactive, Bool.and_self, if_pos rfl, hvSd] at hstopped
  dsimp only at hstopped
  rw [hstopped, hvSd, and_iff_right SdWork.halted_doPause]
  have hfile := SdWork.currentFile_doPause s.now.vSd ended'
  constructor
  · rintro ⟨file, hcurrent, -⟩
    have hsame := hfile.resolve_right fun hnone => by rw [hnone] at hcurrent; cases hcurrent
    have hloaded : s.now.vSd.currentFile ≠ none := by
      rw [← hsame, hcurrent]
      exact Option.some_ne_none file
    refine ⟨hloaded, (SdWork.currentFile_doPause_iff hactive hloaded).mp ?_⟩
    rw [hsame]
    exact hloaded
  · rintro ⟨hloaded, hended⟩
    have hkept := (SdWork.currentFile_doPause_iff hactive hloaded).mpr hended
    have hsame := hfile.resolve_right hkept
    obtain ⟨file, hcurrent⟩ := Option.ne_none_iff_exists'.mp hloaded
    refine ⟨file, hsame.trans hcurrent, ?_⟩
    rw [if_neg (fun hnot => hnot.elim SdWork.not_starts_doPause fun hother => hother hsame)]
    exact hcurrent

/-- While a print is stopped, the other events are not to go on with it or to close it. -/
theorem sdStopped_iff_of_not_sends (hs : s.Inv) (h : s.step e = some t)
    (hsends : s.now.sends e = false) (hflag : s.now.sdPaused = true) :
    t.SdStopped ↔ (t.now.sdPaused = true → s.now.vSd.Stays t.now.vSd) := by
  obtain ⟨returned, -, hstopped, -⟩ := step_spec h
  obtain ⟨-, file, hfile, hfile'⟩ := hs.sdStopped hflag
  rw [hsends, Bool.false_and, if_neg Bool.false_ne_true, hfile'] at hstopped
  dsimp only at hstopped
  refine imp_congr_right fun _ => and_congr_right fun _ => ?_
  rw [hstopped, hfile]
  constructor
  · rintro ⟨file', hcurrent, hsame⟩
    split at hsame
    · cases hsame
    · rename_i hnot
      obtain rfl := Option.some.inj hsame
      exact ⟨hcurrent, fun hstarts => hnot (.inl hstarts)⟩
  · rintro ⟨hcurrent, hstarts⟩
    refine ⟨file, hcurrent, if_neg ?_⟩
    rintro (hstarts' | hother)
    · exact hstarts hstarts'
    · exact hother hcurrent

theorem sdStopped_of_vSd (hs : s.Inv) (h : s.step e = some t) (hsends : s.now.sends e = false)
    (hvSd : t.now.vSd = s.now.vSd) : t.SdStopped := by
  obtain ⟨returned, hhandle, -⟩ := step_spec h
  intro hsd
  have hflag : s.now.sdPaused = true := by
    rcases PauseResume.handle_flags hsends hhandle with ⟨hsame, -⟩ | ⟨hnone, -⟩
    · exact hsame ▸ hsd
    · rw [hsd] at hnone
      cases hnone
  refine (sdStopped_iff_of_not_sends hs h hsends hflag).mpr (fun _ => ?_) hsd
  rw [hvSd]
  exact SdWork.stays_self (hs.sdStopped hflag).1

theorem not_sdStopped_of_none (hsd : t.now.sdPaused = true)
    (hnone : t.now.vSd.currentFile = none) : ¬t.SdStopped := by
  intro ht
  obtain ⟨-, file, hfile, -⟩ := ht hsd
  rw [hnone] at hfile
  cases hfile

/-- `sd_paused` tells the truth after a step exactly if the step meets its condition. -/
theorem sdStopped_iff (hs : s.Inv) (h : s.step e = some t) : t.SdStopped ↔ s.FlagCondition e := by
  obtain ⟨returned, hhandle, -⟩ := step_spec h
  cases hsends : s.now.sends e with
  | true =>
    obtain ⟨ended, he, -⟩ := PauseResume.handle_sends hsends hhandle
    rw [sdStopped_sends_iff h hsends he]
    rcases he with rfl | rfl
    · exact ⟨fun hcond _ => hcond, fun hcond => hcond hsends⟩
    · exact ⟨fun hcond _ => hcond, fun hcond => hcond hsends⟩
  | false =>
    by_cases hflag : s.now.sdPaused = true
    · have hiff := sdStopped_iff_of_not_sends hs h hsends hflag
      obtain ⟨hhalted, file, hloaded, -⟩ := hs.sdStopped hflag
      have hfile : s.now.vSd.currentFile ≠ none := hloaded ▸ Option.some_ne_none file
      cases e with
      | pause ended =>
        refine iff_of_true (sdStopped_of_vSd hs h hsends ?_) fun hyes => ?_
        · rw [PauseResume.pause_of_not_sends hsends hhandle]
        · rw [hsends] at hyes
          cases hyes
      | runout ended =>
        refine iff_of_true (sdStopped_of_vSd hs h hsends ?_) fun hyes => ?_
        · obtain ⟨hnow, -⟩ := Prod.mk.inj (Option.some.inj hhandle)
          rw [PauseResume.sends, Bool.not_eq_false'] at hsends
          rw [← hnow, PauseResume.sendPauseCommand_sent hsends]
        · rw [hsends] at hyes
          cases hyes
      | resume moveFails =>
        refine iff_of_true ?_ trivial
        generalize hnow : t.now = q at hhandle
        cases PauseResume.resumed_of_handle hhandle with
        | notPaused => exact sdStopped_of_vSd hs h hsends (congrArg PauseResume.vSd hnow)
        | raised => exact sdStopped_of_vSd hs h hsends (congrArg PauseResume.vSd hnow)
        | restarted =>
          intro hsd
          rw [hnow] at hsd
          cases hsd
        | announced _ hsd => rw [hflag] at hsd; cases hsd
      | clearPause =>
        obtain ⟨hnow, -⟩ := Prod.mk.inj (Option.some.inj hhandle)
        exact iff_of_true (sdStopped_of_vSd hs h hsends (hnow ▸ rfl)) trivial
      | cancelPrint ended =>
        have hq : s.now.cmdCancelPrint ended = (t.now, returned) := Option.some.inj hhandle
        rw [PauseResume.cmdCancelPrint_eq, if_pos (.inr hflag)] at hq
        obtain ⟨hnow, -⟩ := Prod.mk.inj hq
        refine iff_of_false (not_sdStopped_of_none ?_ ?_) (fun hnot => ?_)
        · rw [← hnow]
          exact hflag
        · rw [← hnow]
          exact SdWork.closeFile_currentFile
        · have hnone : s.now.sdPaused = false := hnot
          rw [hflag] at hnone
          cases hnone
      | m24 =>
        rw [PauseResume.handle, SdWork.doResume] at hhandle
        cases hactive : s.now.vSd.isActive with
        | true =>
          simp only [hactive, if_true] at hhandle
          obtain ⟨hnow, -⟩ := Prod.mk.inj (Option.some.inj hhandle)
          exact iff_of_true (sdStopped_of_vSd hs h hsends (hnow ▸ rfl)) fun _ => hactive
        | false =>
          simp only [hactive, Bool.false_eq_true, if_false] at hhandle
          obtain ⟨hnow, -⟩ := Prod.mk.inj (Option.some.inj hhandle)
          refine iff_of_false (fun ht => ?_) fun hcond => ?_
          · have hhalted := (ht (hnow ▸ hflag)).1
            rw [← hnow] at hhalted
            rcases hhalted with hhalted | hhalted <;> cases hhalted
          · rw [hcond hflag] at hactive
            cases hactive
      | m25 ended =>
        obtain ⟨hnow, -⟩ := Prod.mk.inj (Option.some.inj hhandle)
        rw [hiff, FlagCondition, ← hnow]
        exact imp_congr_right fun _ => SdWork.stays_doPause_iff hfile
      | sdcardPrintFile loading =>
        obtain ⟨hnow, -⟩ := Prod.mk.inj (Option.some.inj hhandle)
        rw [hiff, FlagCondition, ← hnow]
        exact imp_congr_right fun _ =>
          SdWork.stays_cmdSdcardPrintFile_iff hhalted hs.opened hfile
      | sdcardResetFile ended =>
        obtain ⟨hnow, -⟩ := Prod.mk.inj (Option.some.inj hhandle)
        rw [hiff, FlagCondition, ← hnow]
        exact imp_congr_right fun _ => SdWork.stays_cmdSdcardResetFile_iff hhalted hfile
      | work step =>
        obtain ⟨w, hw, hq⟩ := Option.map_eq_some_iff.mp hhandle
        obtain ⟨hnow, -⟩ := Prod.mk.inj hq
        rw [hiff, FlagCondition, ← hnow, SdWork.stays_work_iff hhalted hfile hw, hflag]
        exact ⟨fun hnot hend => absurd hend (hnot rfl),
          fun hcond _ hend => Bool.noConfusion (hcond hend)⟩
    · have hnot := Bool.eq_false_iff.mpr hflag
      refine iff_of_true (fun hsd => ?_) ?_
      · rcases PauseResume.handle_flags hsends hhandle with ⟨hsame, -⟩ | ⟨hnone, -⟩
        · rw [hsame] at hsd
          exact absurd hsd hflag
        · rw [hsd] at hnone
          cases hnone
      · cases e with
        | pause ended => exact fun hyes => by rw [hsends] at hyes; cases hyes
        | runout ended => exact fun hyes => by rw [hsends] at hyes; cases hyes
        | resume moveFails => trivial
        | clearPause => trivial
        | cancelPrint ended => exact hnot
        | m24 => exact fun hsd => absurd hsd hflag
        | m25 ended => exact fun hsd => absurd hsd hflag
        | sdcardPrintFile loading => exact fun hsd => absurd hsd hflag
        | sdcardResetFile ended => exact fun hsd => absurd hsd hflag
        | work step => exact fun _ => hnot

/-! ## Lines after a pause -/

/-- A file that rests is not printed on before a `RESUME` or `M24`. -/
theorem silent_of_rests {file : ℕ} (h : t.now.vSd.Rests file) : Silent file t := by
  intro es u v hrun hes hdispatch hcurrent
  have hrests : u.now.vSd.Rests file :=
    (hrun.and_events hes).invariant (P := fun u => u.now.vSd.Rests file) h
      fun s e t hs hstep => by
        obtain ⟨returned, hhandle, -⟩ := step_spec hstep.1
        rcases PauseResume.handle_moves hhandle with hmoves | ⟨moveFails, hresume⟩ | hm24
        · exact hs.moves hmoves
        · exact absurd hresume (hstep.2.1 moveFails)
        · exact absurd hm24 hstep.2.2
  obtain ⟨returned, hhandle, -⟩ := step_spec hdispatch
  obtain ⟨w, hw, -⟩ := Option.map_eq_some_iff.mp hhandle
  rw [SdWork.work, Option.ite_none_right_eq_some] at hw
  rcases hrests.2 hcurrent with hidle | hmust
  · rw [hidle] at hw
    cases hw.1.1
  · rw [hmust] at hw
    cases hw.1.2

theorem exists_step_work (step : WorkStep) {w : SdWork} (hw : s.now.vSd.work step = some w) :
    ∃ u, s.step (.work step) = some u ∧ u.now.vSd = w := by
  rw [PauseHistory.step, PauseResume.handle, hw]
  exact ⟨_, rfl, rfl⟩

theorem dispatches_of_loop {file : ℕ} (hloop : s.now.vSd.workTimer = some .loop)
    (hmust : s.now.vSd.mustPauseWork = false) (hfile : s.now.vSd.currentFile = some file) :
    ¬Silent file s := by
  obtain ⟨v, hv, -⟩ := exists_step_work .dispatch (if_pos ⟨hloop, hmust⟩)
  exact fun h => h [] s v .nil (fun e he => absurd he List.not_mem_nil) hv hfile

/-- A worker that is not to pause goes on. -/
theorem halted_of_silent {file : ℕ} (hfile : s.now.vSd.currentFile = some file)
    (h : Silent file s) : s.now.vSd.Halted := by
  by_contra hgoes
  obtain ⟨hactive, hmust⟩ := not_or.mp hgoes
  have hmust := Bool.eq_false_iff.mpr hmust
  obtain ⟨ph, hph⟩ := Option.ne_none_iff_exists'.mp hactive
  -- one step leads the worker to the head of its loop
  have hreach : ∀ (step : WorkStep) {w : SdWork}, s.now.vSd.work step = some w →
      w.workTimer = some .loop → w.mustPauseWork = false → w.currentFile = some file → False := by
    intro step w hw hloop hmust hfile
    obtain ⟨u, hu, rfl⟩ := exists_step_work step hw
    refine dispatches_of_loop hloop hmust hfile fun es x v hrun hes => ?_
    refine h (.work step :: es) x v (Run.cons hu hrun) fun e he => ?_
    rcases List.mem_cons.mp he with rfl | he
    · exact ⟨(fun _ hresume => by cases hresume), fun hm24 => by cases hm24⟩
    · exact hes e he
  cases ph with
  | start => exact hreach .start (if_pos ⟨hph, by rw [hfile]; rfl⟩) rfl hmust hfile
  | loop => exact dispatches_of_loop hph hmust hfile h
  | reading => exact hreach .data (if_pos hph) rfl hmust hfile
  | line => exact hreach .lineDone (if_pos hph) rfl hmust hfile

/-! ## The bookkeeping -/

/-- After a `RESUME` that raises, a later `RESUME` and a later `CANCEL_PRINT` do what they are
for. -/
theorem retry {p : PauseResume} (hpaused : p.isPaused = true)
    (hfile : p.sdPaused = true → p.vSd.currentFile ≠ none) :
    let left := { p with vSd := p.vSd.exit }
    (∃ q, left.handle (.resume false) = some (q, true) ∧ q.isPaused = false ∧
      (left.vSd.Starts q.vSd ↔ p.sdPaused = true)) ∧
    ∀ ended, ∃ q, left.handle (.cancelPrint ended) = some (q, true) ∧ q.isPaused = false ∧
      (p.sdPaused = true → q.vSd.currentFile = none) := by
  intro left
  cases hsd : p.sdPaused with
  | true =>
    refine ⟨⟨⟨{ left.vSd with mustPauseWork := false, workTimer := some .start }, false, false,
      false⟩, ?_, rfl, ?_⟩, fun ended => ⟨⟨{ left.vSd with currentFile := none }, false, true,
        false⟩, ?_, rfl, fun _ => rfl⟩⟩
    · simp [PauseResume.handle, PauseResume.cmdResume, PauseResume.sendResumeCommand, left, hsd,
        hpaused, SdWork.doResume, SdWork.isActive, SdWork.exit]
    · exact iff_of_true ⟨rfl, Option.some_ne_none _⟩ rfl
    · have hloaded : p.vSd.currentFile.isSome = true :=
        Option.isSome_iff_ne_none.mpr (hfile hsd)
      have hclose : left.vSd.closeFile ended = ({ left.vSd with currentFile := none }, true) := by
        simp [SdWork.closeFile, left, hloaded, SdWork.doPause, SdWork.isActive, SdWork.exit]
      rw [PauseResume.handle, PauseResume.cmdCancelPrint_eq, if_pos (.inr hsd), hclose]
      rw [Bool.not_true, Bool.false_and, Bool.false_and, hsd]
  | false =>
    refine ⟨⟨⟨left.vSd, false, false, false⟩, ?_, rfl, ?_⟩,
      fun ended => ⟨left.cmdClearPause, ?_, rfl, fun hnot => by cases hnot⟩⟩
    · simp [PauseResume.handle, PauseResume.cmdResume, PauseResume.sendResumeCommand, left, hsd,
        hpaused]
    · exact iff_of_false SdWork.not_starts_self Bool.false_ne_true
    · rw [PauseResume.handle, PauseResume.cmdCancelPrint_eq, if_neg]
      rintro (hactive | hflag)
      · cases hactive
      · rw [hsd] at hflag
        cases hflag

theorem keeps_of_condition (hs : s.Inv) (h : s.step e = some t) (hcond : s.Condition e) :
    s.Keeps e t := by
  have ht : t.SdStopped := (sdStopped_iff hs h).mpr hcond.1
  have hinv := hs.step h ht
  obtain ⟨returned, hhandle, -⟩ := step_spec h
  refine ⟨?_, ht, ?_, ?_, ?_⟩
  · rintro ended file rfl hfile
    refine silent_of_rests ⟨hinv.opened file hfile, fun _ => ?_⟩
    cases hsends : s.now.sends (.pause ended) with
    | true =>
      obtain ⟨ended', -, hvSd, -⟩ := PauseResume.handle_sends hsends hhandle
      rw [hvSd]
      exact SdWork.halted_doPause
    | false =>
      rw [PauseResume.pause_of_not_sends hsends hhandle] at hfile ⊢
      exact hcond.2 ended rfl hsends (hfile ▸ Option.some_ne_none file)
  · rintro moveFails q rfl hq
    cases PauseResume.resumed_of_handle hq with
    | notPaused hnot =>
      refine iff_of_false SdWork.not_starts_self fun hyes => ?_
      rw [hnot] at hyes
      cases hyes.1
    | restarted hpaused hsd hidle =>
      obtain ⟨-, file, hfile, -⟩ := hs.sdStopped hsd
      refine iff_of_true ⟨Option.not_isSome_iff_eq_none.mp (Bool.eq_false_iff.mp hidle),
        Option.some_ne_none _⟩ ⟨hpaused, file, hfile, ?_⟩
      rw [hs.pausedPrint (hs.isPaused hpaused), if_pos hsd]
      exact hfile
    | announced hpaused hsd =>
      refine iff_of_false SdWork.not_starts_self ?_
      rintro ⟨-, file, -, hprint⟩
      rw [hs.pausedPrint (hs.isPaused hpaused), if_neg (Bool.eq_false_iff.mp hsd)] at hprint
      cases hprint
  · rintro ended file rfl hfile hclosed
    have hq : s.now.cmdCancelPrint ended = (t.now, returned) := Option.some.inj hhandle
    rw [PauseResume.cmdCancelPrint_eq] at hq
    split at hq
    · rename_i hcancels
      refine hcancels.imp_right fun hsd => ?_
      obtain ⟨-, file', hfile', hstopped⟩ := hs.sdStopped hsd
      rw [hstopped, ← hfile', hfile]
    · obtain ⟨hnow, -⟩ := Prod.mk.inj hq
      rw [← hnow] at hclosed
      exact absurd hfile hclosed
  · rintro moveFails rfl hraised
    generalize hnow : t.now = q at hraised
    cases PauseResume.resumed_of_handle hraised with
    | raised hpaused =>
      refine ⟨rfl, fun hsd => (hs.sdStopped hsd).1, retry hpaused fun hsd => ?_⟩
      obtain ⟨-, file, hfile, -⟩ := hs.sdStopped hsd
      rw [hfile]
      exact Option.some_ne_none file

theorem condition_of_keeps (hs : s.Inv) (h : s.step e = some t) (hk : s.Keeps e t) :
    s.Condition e := by
  refine ⟨(sdStopped_iff hs h).mp hk.sdPaused, ?_⟩
  rintro ended rfl hsends hloaded
  obtain ⟨returned, hhandle, -⟩ := step_spec h
  have hvSd : t.now.vSd = s.now.vSd := by
    rw [PauseResume.pause_of_not_sends hsends hhandle]
  obtain ⟨file, hfile⟩ := Option.ne_none_iff_exists'.mp hloaded
  rw [← hvSd] at hfile ⊢
  exact halted_of_silent hfile (hk.pause ended file rfl hfile)

/-- **The bookkeeping of pauses** is kept by each step of exactly the runs in which each step meets
its condition: none of them starts or closes a file while `sd_paused` is set, except that `RESUME`
starts it, and none pauses a worker that runs behind a pause in force. -/
theorem keeps_iff_condition {es : List PauseEvent} {t : PauseHistory} :
    Run (fun s e t => s.step e = some t ∧ s.Keeps e t) init es t ↔
      Run (fun s e t => s.step e = some t ∧ s.Condition e) init es t :=
  Run.restrict_iff inv_init
    (fun _ _ _ hs hstep => ⟨condition_of_keeps hs hstep, keeps_of_condition hs hstep⟩)
    fun _ _ _ hs hstep hk => hs.step hstep hk.sdPaused

/-! ## A print that M24 starts again -/

/-- A print is paused and started again by `M24`. -/
def startedAgain : List PauseEvent :=
  [.sdcardPrintFile .started, .work .start, .pause false, .m24, .work .start]

/-- A second `PAUSE` returns, and the next line is dispatched. -/
theorem dispatched_after_pause : ∃ s t u, Run (fun s e t => s.step e = some t) init startedAgain s ∧
    s.step (.pause false) = some t ∧ t.step (.work .dispatch) = some u ∧
    t.now.vSd.currentFile = some 0 ∧ ¬s.Keeps (.pause false) t := by
  let p : PauseResume := ⟨⟨some 0, 1, some .loop, false, false⟩, true, true, true⟩
  let s : PauseHistory := ⟨p, none, some 0⟩
  have hdispatch : s.now.vSd.work .dispatch =
      some { s.now.vSd with workTimer := some .line, cmdFromSd := true } := rfl
  obtain ⟨u, hu, -⟩ := exists_step_work .dispatch hdispatch
  refine ⟨s, s, u, Run.iff_foldlM.mpr (by decide), by decide, hu, rfl, fun hk => ?_⟩
  have hsilent : Silent 0 s := hk.pause false 0 rfl rfl
  exact hsilent [] s u .nil (fun e he => absurd he List.not_mem_nil) hu rfl

end PauseHistory

end FlsunT1.Klippy
