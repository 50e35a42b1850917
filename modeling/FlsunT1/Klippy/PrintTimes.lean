/-
  Klippy/PrintTimes.lean --- the duration of a print (klippy/extras/print_stats.py).

  `PrintTimes` is `class PrintStats` with its times.  Beside it stands an account of the print that
  counts the time in the state printing as it goes on, and says what is to be reported.  A status
  that has not seen extrusion yet sets that time back to zero.
-/
import Mathlib.Algebra.Order.Field.Basic
import Mathlib.Algebra.Order.Ring.Rat
import Mathlib.Tactic.Ring
import FlsunT1.Klippy.VirtualSd
import FlsunT1.Library.Instances
import FlsunT1.Library.Run

set_option autoImplicit false

namespace FlsunT1.Klippy

open Library

variable {K : Type} [Field K] [LinearOrder K]

/-! ## The statistics -/

/-- What the module reads of `gcode_move.get_status`. -/
structure GcStatus (K : Type) where
  positionE : K
  extrudeFactor : K

/-- `class PrintStats`. -/
structure PrintTimes (K : Type) where
  filename : String
  errorMessage : String
  state : PrintState
  prevPauseDuration : K
  lastEpos : K
  filamentUsed : K
  totalDuration : K
  printStartTime : Option K
  lastPauseTime : Option K
  initDuration : K
  duration : K

/-- What `get_status` returns. -/
structure PrintTimesStatus (K : Type) where
  filename : String
  totalDuration : K
  printDuration : K
  filamentUsed : K
  state : PrintState
  message : String

/-- The filament from which on extrusion is detected. -/
def detected : K := 1 / 10 ^ 7

namespace PrintTimes

/-- `reset` -/
def reset (s : PrintTimes K) : PrintTimes K where
  filename := ""
  errorMessage := ""
  state := .standby
  prevPauseDuration := 0
  lastEpos := 0
  filamentUsed := 0
  totalDuration := 0
  printStartTime := none
  lastPauseTime := none
  initDuration := 0
  duration := s.duration

/-- The state after `__init__`. -/
def init : PrintTimes K :=
  ⟨"", "", .standby, 0, 0, 0, 0, none, none, 0, 0⟩

/-- `_update_filament_usage` -/
def updateFilamentUsage (gc : GcStatus K) (s : PrintTimes K) : PrintTimes K :=
  { s with
    filamentUsed := s.filamentUsed + (gc.positionE - s.lastEpos) / gc.extrudeFactor
    lastEpos := gc.positionE }

/-- `set_current_file` -/
def setCurrentFile (filename : String) (s : PrintTimes K) : PrintTimes K :=
  { s.reset with filename := filename }

/-- How `note_start` starts or goes on counting. -/
def startTimes (curtime : K) (s : PrintTimes K) : PrintTimes K :=
  match s.printStartTime, s.lastPauseTime with
  | none, _ => { s with printStartTime := some curtime }
  | some _, some pauseTime =>
    { s with
      prevPauseDuration := s.prevPauseDuration + (curtime - pauseTime)
      lastPauseTime := none }
  | some _, none => s

/-- `note_start` -/
def noteStart (curtime : K) (gc : GcStatus K) (s : PrintTimes K) : PrintTimes K :=
  { s.startTimes curtime with lastEpos := gc.positionE, state := .printing, errorMessage := "" }

/-- `note_pause` -/
def notePause (curtime : K) (gc : GcStatus K) (s : PrintTimes K) : PrintTimes K :=
  let s :=
    if s.lastPauseTime = none then
      { s with lastPauseTime := some curtime }.updateFilamentUsage gc
    else s
  if s.state ≠ .error then { s with state := .paused } else s

/-- `_note_finish` -/
def noteFinish (state : PrintState) (errorMessage : String) (eventtime : K) (s : PrintTimes K) :
    PrintTimes K :=
  match s.printStartTime with
  | none => s
  | some startTime =>
    let total := eventtime - startTime
    { s with
      state := state
      errorMessage := errorMessage
      initDuration := if s.filamentUsed < detected then total - s.prevPauseDuration
        else s.initDuration
      totalDuration := total + s.duration
      duration := 0
      printStartTime := none }

/-- The time of the pauses up to now, for a print that is started. -/
def timePaused (eventtime : K) (s : PrintTimes K) : K :=
  match s.lastPauseTime with
  | some pauseTime => s.prevPauseDuration + (eventtime - pauseTime)
  | none => s.prevPauseDuration

/-- How `get_status` counts the filament, if the print is not paused. -/
def countFilament (gc : GcStatus K) (s : PrintTimes K) : PrintTimes K :=
  if s.lastPauseTime = none then s.updateFilamentUsage gc else s

/-- What `get_status` returns, with the time of the pauses. -/
def status (timePaused : K) (s : PrintTimes K) : PrintTimesStatus K where
  filename := s.filename
  totalDuration := s.totalDuration
  printDuration := s.totalDuration - s.initDuration - timePaused
  filamentUsed := s.filamentUsed
  state := s.state
  message := s.errorMessage

/-- `get_status` -/
def getStatus (eventtime : K) (gc : GcStatus K) (s : PrintTimes K) :
    PrintTimes K × PrintTimesStatus K :=
  match s.printStartTime with
  | none => (s, s.status s.prevPauseDuration)
  | some startTime =>
    let timePaused := s.timePaused eventtime
    let s := s.countFilament gc
    let total := eventtime - startTime
    let s := { s with
      initDuration := if s.filamentUsed < detected then total - timePaused else s.initDuration
      totalDuration := total + s.duration }
    (s, s.status timePaused)

/-- `modify_print_time` -/
def modifyPrintTime (time : K) (s : PrintTimes K) : PrintTimes K := { s with duration := time }

end PrintTimes

/-- How a print finishes: `note_complete`, `note_error` or `note_cancel`. -/
inductive Finish
  | complete
  | error (message : String)
  | cancel

/-- The calls of the module, each with the time that it reads. -/
inductive StatsEvent (K : Type)
  | setCurrentFile (filename : String)
  | reset
  | noteStart (curtime : K) (gc : GcStatus K)
  | notePause (curtime : K) (gc : GcStatus K)
  | noteFinish (how : Finish) (eventtime : K)
  | getStatus (eventtime : K) (gc : GcStatus K)
  | modifyPrintTime (time : K)

/-- The time of a call. -/
def StatsEvent.time : StatsEvent K → Option K
  | .noteStart t _ | .notePause t _ | .noteFinish _ t | .getStatus t _ => some t
  | .setCurrentFile _ | .reset | .modifyPrintTime _ => none

/-- The statistics after a call. -/
def PrintTimes.apply (s : PrintTimes K) : StatsEvent K → PrintTimes K
  | .setCurrentFile filename => s.setCurrentFile filename
  | .reset => s.reset
  | .noteStart t gc => s.noteStart t gc
  | .notePause t gc => s.notePause t gc
  | .noteFinish .complete t => s.noteFinish .complete "" t
  | .noteFinish (.error message) t => s.noteFinish .error message t
  | .noteFinish .cancel t => s.noteFinish .cancelled "" t
  | .getStatus t gc => (s.getStatus t gc).1
  | .modifyPrintTime time => s.modifyPrintTime time

/-! ## The account -/

/-- What a print is doing; `printing` has the time up to which it is counted. -/
inductive PrintPhase (K : Type)
  | idle
  | printing (since : K)
  | paused

/-- The account of a print, which stays as it is when the print has finished. -/
structure PrintAccount (K : Type) where
  phase : PrintPhase K
  /-- the recovered duration that the print starts with -/
  base : K
  /-- the time in the state printing, since a status last saw no extrusion -/
  printed : K
  extruded : Bool
  extrusion : K
  lastE : K
  /-- the recovered duration that the next print is to start with -/
  recovered : K
  /-- what was reported last of this print -/
  reported : Option K
  now : Option K

namespace PrintAccount

/-- Before the first print. -/
def init : PrintAccount K := ⟨.idle, 0, 0, false, 0, 0, 0, none, none⟩

/-- What is to be reported. -/
def value (a : PrintAccount K) : K := a.base + a.printed

/-- The time is counted up to now. -/
def count (t : K) (a : PrintAccount K) : PrintAccount K :=
  match a.phase with
  | .printing since => { a with phase := .printing t, printed := a.printed + (t - since) }
  | .idle | .paused => a

/-- The extruder is looked at, if it prints. -/
def look (gc : GcStatus K) (a : PrintAccount K) : PrintAccount K :=
  match a.phase with
  | .printing _ =>
    { a with
      extrusion := a.extrusion + (gc.positionE - a.lastE) / gc.extrudeFactor
      lastE := gc.positionE }
  | .idle | .paused => a

/-- Extrusion is seen, if there was any so far. -/
def see (a : PrintAccount K) : PrintAccount K :=
  { a with extruded := a.extruded || decide (detected ≤ a.extrusion) }

/-- The time does not count as long as no extrusion is seen. -/
def settle (a : PrintAccount K) : PrintAccount K :=
  if a.see.extruded then a.see else { a.see with printed := 0 }

/-- There is no print any more. -/
def clear (a : PrintAccount K) : PrintAccount K :=
  { a with phase := .idle, base := 0, printed := 0, extruded := false, reported := none }

/-- The print starts or goes on. -/
def start (t : K) (gc : GcStatus K) (a : PrintAccount K) : PrintAccount K :=
  match a.phase with
  | .idle =>
    { a.clear with
      phase := .printing t, base := a.recovered, recovered := 0, extrusion := 0
      lastE := gc.positionE }
  | .printing _ => { a.count t with lastE := gc.positionE }
  | .paused => { a with phase := .printing t, lastE := gc.positionE }

/-- The print is paused. -/
def pause (t : K) (gc : GcStatus K) (a : PrintAccount K) : PrintAccount K :=
  match a.phase with
  | .printing _ => { ((a.count t).look gc).see with phase := .paused }
  | .idle | .paused => a

/-- The print finishes. -/
def finish (t : K) (a : PrintAccount K) : PrintAccount K :=
  match a.phase with
  | .idle => a
  | .printing _ | .paused => { (a.count t).settle with phase := .idle }

/-- The print is looked at. -/
def observe (t : K) (gc : GcStatus K) (a : PrintAccount K) : PrintAccount K :=
  match a.phase with
  | .idle => a
  | .printing _ | .paused => ((a.count t).look gc).settle

/-- The account after a call. -/
def apply (a : PrintAccount K) (e : StatsEvent K) : PrintAccount K :=
  let b := match e with
    | .setCurrentFile _ => a.clear
    | .reset => { a.clear with recovered := 0 }
    | .noteStart t gc => a.start t gc
    | .notePause t gc => a.pause t gc
    | .noteFinish _ t => a.finish t
    | .getStatus t gc => { a.observe t gc with reported := some (a.observe t gc).value }
    | .modifyPrintTime time => { a with recovered := time }
  { b with now := e.time.or b.now }

end PrintAccount

/-! ## Runs -/

/-- The call is no earlier than those before it. -/
def OnTime (a : PrintAccount K) (e : StatsEvent K) : Prop :=
  ∀ t ∈ e.time, ∀ u ∈ a.now, u ≤ t

instance (a : PrintAccount K) (e : StatsEvent K) : Decidable (OnTime a e) :=
  inferInstanceAs (Decidable (∀ t ∈ e.time, _))

/-- A call, with the account beside the statistics. -/
def StatsStep (w : PrintTimes K × PrintAccount K) (e : StatsEvent K)
    (w' : PrintTimes K × PrintAccount K) : Prop :=
  OnTime w.2 e ∧ w' = (w.1.apply e, w.2.apply e)

/-- A status reports what the account says, and no less than before of the same print. -/
def ReportsAccount (w : PrintTimes K × PrintAccount K) : StatsEvent K → Prop
  | .getStatus t gc =>
    (w.1.getStatus t gc).2.printDuration = (w.2.observe t gc).value ∧
      ∀ v, w.2.reported = some v → v ≤ (w.1.getStatus t gc).2.printDuration
  | _ => True

/-- When the durations are kept.

A print starts with the statistics reset; it is not finished while it is paused, unless it has not
extruded; the filament does not fall below what is detected once extrusion was seen; and a recovered
duration is set between prints, and is used before the statistics are reset. -/
def KeepsDurations (w : PrintTimes K × PrintAccount K) : StatsEvent K → Prop
  | .setCurrentFile _ => w.1.printStartTime ≠ none → w.1.duration = 0
  | .reset => w.1.duration = 0
  | .noteStart _ _ => w.1.printStartTime = none →
      w.1.lastPauseTime = none ∧ w.1.prevPauseDuration = 0 ∧ w.1.initDuration = 0 ∧
        w.1.filamentUsed = 0
  | .notePause _ _ => True
  | .noteFinish _ _ => w.1.printStartTime ≠ none →
      if w.1.filamentUsed < detected then w.2.extruded = false else w.1.lastPauseTime = none
  | .getStatus _ gc => w.1.printStartTime ≠ none →
      (w.1.countFilament gc).filamentUsed < detected → w.2.extruded = false
  | .modifyPrintTime _ => w.1.printStartTime = none

instance (w : PrintTimes K × PrintAccount K) : DecidablePred (KeepsDurations w)
  | .setCurrentFile _ | .noteStart _ _ | .noteFinish _ _ | .getStatus _ _ =>
    inferInstanceAs (Decidable (_ → _))
  | .reset | .modifyPrintTime _ => inferInstanceAs (Decidable (_ = _))
  | .notePause _ _ => inferInstanceAs (Decidable True)

/-! ## The account goes on -/

namespace PrintAccount

variable {a : PrintAccount K} {t : K} {gc : GcStatus K}

/-- What has been reported is not more than what counts for certain: the time counts when extrusion
was seen. -/
structure Ordered (a : PrintAccount K) : Prop where
  printed_nonneg : 0 ≤ a.printed
  reported : ∀ v, a.reported = some v → v ≤ a.base + if a.extruded then a.printed else 0

theorem ordered_init : (init : PrintAccount K).Ordered := ⟨le_rfl, fun v h => by cases h⟩

theorem ordered_clear : a.clear.Ordered := ⟨le_rfl, fun v h => by cases h⟩

theorem Ordered.look (h : a.Ordered) : (a.look gc).Ordered := by
  unfold PrintAccount.look
  split
  · exact ⟨h.printed_nonneg, h.reported⟩
  · exact h
  · exact h

variable [IsStrictOrderedRing K]

theorem Ordered.count (h : a.Ordered) (hsince : ∀ u, a.phase = .printing u → u ≤ t) :
    (a.count t).Ordered := by
  unfold PrintAccount.count
  split
  · rename_i u hphase
    have hle : a.printed ≤ a.printed + (t - u) :=
      le_add_of_nonneg_right (sub_nonneg.mpr (hsince u hphase))
    refine ⟨h.printed_nonneg.trans hle, fun v hv => (h.reported v hv).trans ?_⟩
    dsimp only
    split
    · exact add_le_add_right hle a.base
    · exact le_rfl
  · exact h
  · exact h

theorem Ordered.see (h : a.Ordered) : a.see.Ordered := by
  refine ⟨h.printed_nonneg, fun v hv => (h.reported v hv).trans ?_⟩
  unfold PrintAccount.see
  dsimp only
  cases a.extruded with
  | false =>
    cases decide (detected ≤ a.extrusion) with
    | false => exact le_rfl
    | true => exact add_le_add_right h.printed_nonneg a.base
  | true => exact le_rfl

theorem Ordered.settle (h : a.Ordered) : a.settle.Ordered := by
  unfold PrintAccount.settle
  split
  · exact h.see
  · rename_i hnot
    refine ⟨le_rfl, fun v hv => (h.see.reported v hv).trans ?_⟩
    dsimp only
    rw [if_neg hnot, if_neg hnot]

end PrintAccount

/-! ## The statistics agree with the account -/

/-- The statistics agree with the account of the print. -/
def Agrees (s : PrintTimes K) (a : PrintAccount K) : Prop :=
  match a.phase with
  | .idle =>
    s.printStartTime = none ∧ s.duration = a.recovered ∧
      s.totalDuration - s.initDuration - s.prevPauseDuration = a.value ∧
      (a.extruded = false → a.printed = 0)
  | .printing since => ∃ startTime,
    s.printStartTime = some startTime ∧ s.lastPauseTime = none ∧ s.duration = a.base ∧
      a.recovered = 0 ∧ since - startTime - s.prevPauseDuration - s.initDuration = a.printed ∧
      s.filamentUsed = a.extrusion ∧ s.lastEpos = a.lastE
  | .paused => ∃ startTime pauseTime,
    s.printStartTime = some startTime ∧ s.lastPauseTime = some pauseTime ∧ s.duration = a.base ∧
      a.recovered = 0 ∧
      pauseTime - startTime - s.prevPauseDuration - s.initDuration = a.printed ∧
      s.filamentUsed = a.extrusion

variable {s : PrintTimes K} {a : PrintAccount K} {t : K} {gc : GcStatus K}

omit [LinearOrder K] in
/-- Both start a print, or go on with it. -/
theorem Agrees.noteStart (h : Agrees s a)
    (hfresh : s.printStartTime = none → s.lastPauseTime = none ∧ s.prevPauseDuration = 0 ∧
      s.initDuration = 0 ∧ s.filamentUsed = 0) :
    Agrees (s.noteStart t gc) (a.start t gc) := by
  unfold PrintTimes.noteStart PrintTimes.startTimes PrintAccount.start
  unfold Agrees at h
  cases hphase : a.phase with
  | idle =>
    rw [hphase] at h
    obtain ⟨hstart, hduration, -, -⟩ := h
    obtain ⟨hpause, hprev, hinit, hfilament⟩ := hfresh hstart
    rw [hstart]
    refine ⟨t, rfl, hpause, hduration, rfl, ?_, hfilament, rfl⟩
    dsimp only [PrintAccount.clear]
    rw [hprev, hinit]
    ring
  | printing since =>
    rw [hphase] at h
    obtain ⟨startTime, hstart, hpause, hduration, hrecovered, hprinted, hfilament, -⟩ := h
    rw [hstart, hpause]
    unfold Agrees PrintAccount.count
    rw [hphase]
    refine ⟨startTime, hstart, hpause, hduration, hrecovered, ?_, hfilament, rfl⟩
    dsimp only
    rw [← hprinted]
    ring
  | paused =>
    rw [hphase] at h
    obtain ⟨startTime, pauseTime, hstart, hpause, hduration, hrecovered, hprinted, hfilament⟩ := h
    rw [hstart, hpause]
    refine ⟨startTime, rfl, rfl, hduration, hrecovered, ?_, hfilament, rfl⟩
    dsimp only
    rw [← hprinted]
    ring

/-- Both pause. -/
theorem Agrees.notePause (h : Agrees s a) : Agrees (s.notePause t gc) (a.pause t gc) := by
  have hstate : ∀ (s : PrintTimes K) (b : PrintAccount K), Agrees s b →
      Agrees (if s.state ≠ .error then { s with state := .paused } else s) b := by
    intro s b hb
    split
    · exact hb
    · exact hb
  unfold PrintTimes.notePause
  apply hstate
  unfold PrintAccount.pause
  unfold Agrees at h
  cases hphase : a.phase with
  | idle =>
    rw [hphase] at h
    dsimp only
    unfold Agrees
    rw [hphase]
    dsimp only
    split
    · exact h
    · exact h
  | printing since =>
    rw [hphase] at h
    obtain ⟨startTime, hstart, hpause, hduration, hrecovered, hprinted, hfilament, hlast⟩ := h
    rw [if_pos hpause]
    dsimp only [PrintAccount.count, PrintAccount.look]
    rw [hphase]
    refine ⟨startTime, t, hstart, rfl, hduration, hrecovered, ?_, ?_⟩
    · dsimp only [PrintAccount.see, PrintTimes.updateFilamentUsage]
      rw [← hprinted]
      ring
    · dsimp only [PrintAccount.see, PrintTimes.updateFilamentUsage]
      rw [hfilament, hlast]
  | paused =>
    rw [hphase] at h
    obtain ⟨startTime, pauseTime, hstart, hpause, h⟩ := h
    unfold Agrees
    rw [hphase, hpause, if_neg (Option.some_ne_none pauseTime)]
    exact ⟨startTime, pauseTime, hstart, hpause, h⟩

omit [LinearOrder K] in
theorem count_printing {u : K} (h : a.phase = .printing u) :
    a.count t = { a with phase := .printing t, printed := a.printed + (t - u) } := by
  unfold PrintAccount.count
  rw [h]

omit [LinearOrder K] in
theorem count_paused (h : a.phase = .paused) : a.count t = a := by
  unfold PrintAccount.count
  rw [h]

omit [LinearOrder K] in
theorem look_printing {u : K} (h : a.phase = .printing u) :
    a.look gc = { a with
      extrusion := a.extrusion + (gc.positionE - a.lastE) / gc.extrudeFactor
      lastE := gc.positionE } := by
  unfold PrintAccount.look
  rw [h]

omit [LinearOrder K] in
theorem look_paused (h : a.phase = .paused) : a.look gc = a := by
  unfold PrintAccount.look
  rw [h]

theorem settle_frame (a : PrintAccount K) :
    a.settle.phase = a.phase ∧ a.settle.base = a.base ∧ a.settle.recovered = a.recovered ∧
      a.settle.extrusion = a.extrusion ∧ a.settle.lastE = a.lastE ∧
      a.settle.reported = a.reported := by
  unfold PrintAccount.settle
  split
  · exact ⟨rfl, rfl, rfl, rfl, rfl, rfl⟩
  · exact ⟨rfl, rfl, rfl, rfl, rfl, rfl⟩

theorem settle_printed (h : a.extrusion < detected → a.extruded = false) :
    a.settle.printed = if a.extrusion < detected then 0 else a.printed := by
  unfold PrintAccount.settle
  split
  · rename_i hseen
    split
    · rename_i hlt
      unfold PrintAccount.see at hseen
      rw [h hlt, Bool.false_or, decide_eq_true_eq] at hseen
      exact absurd hlt (not_lt_of_ge hseen)
    · rfl
  · rename_i hnot
    unfold PrintAccount.see at hnot
    rw [Bool.or_eq_true, decide_eq_true_eq, not_or, not_le] at hnot
    rw [if_pos hnot.2]

theorem printed_settle (h : a.settle.extruded = false) : a.settle.printed = 0 := by
  unfold PrintAccount.settle at h ⊢
  split at h
  · rename_i hseen
    exact absurd (hseen.symm.trans h) Bool.true_eq_false.mp
  · rename_i hnot
    rw [if_neg hnot]

theorem agrees_finished {b : PrintAccount K} {total init : K}
    (hrecovered : b.recovered = 0) (hextruded : b.extrusion < detected → b.extruded = false)
    (htotal : total - init - s.prevPauseDuration =
      b.base + if b.extrusion < detected then 0 else b.printed)
    (state : PrintState) (message : String) :
    Agrees { s with
        state := state, errorMessage := message, initDuration := init, totalDuration := total
        duration := 0, printStartTime := none }
      { b.settle with phase := .idle } := by
  obtain ⟨-, hbase, hrecovered', -⟩ := settle_frame b
  refine ⟨rfl, (hrecovered'.trans hrecovered).symm, htotal.trans ?_, printed_settle⟩
  unfold PrintAccount.value
  dsimp only
  rw [hbase, settle_printed hextruded]

/-- Both finish. -/
theorem Agrees.noteFinish (h : Agrees s a) (state : PrintState) (message : String)
    (hfinish : s.printStartTime ≠ none →
      if s.filamentUsed < detected then a.extruded = false else s.lastPauseTime = none) :
    Agrees (s.noteFinish state message t) (a.finish t) := by
  unfold PrintTimes.noteFinish PrintAccount.finish
  unfold Agrees at h
  cases hphase : a.phase with
  | idle =>
    rw [hphase] at h
    rw [h.1]
    unfold Agrees
    rw [hphase]
    exact h
  | printing since =>
    rw [hphase] at h
    obtain ⟨startTime, hstart, hpause, hduration, hrecovered, hprinted, hfilament, -⟩ := h
    have hcond := hfinish (hstart ▸ Option.some_ne_none startTime)
    rw [hstart, count_printing hphase]
    refine agrees_finished (b := { a with
      phase := .printing t, printed := a.printed + (t - since) }) hrecovered (fun hlt => ?_) ?_
      state message
    · rwa [if_pos (hfilament.trans_lt hlt)] at hcond
    · dsimp only
      rw [← hduration, ← hprinted, hfilament]
      split
      · ring
      · ring
  | paused =>
    rw [hphase] at h
    obtain ⟨startTime, pauseTime, hstart, hpause, hduration, hrecovered, hprinted, hfilament⟩ := h
    have hcond := hfinish (hstart ▸ Option.some_ne_none startTime)
    have hlt : s.filamentUsed < detected := by
      by_contra hge
      rw [if_neg hge, hpause] at hcond
      cases hcond
    rw [if_pos hlt] at hcond
    rw [hstart, count_paused hphase]
    refine agrees_finished hrecovered (fun _ => hcond) ?_ state message
    rw [if_pos hlt, if_pos (hfilament ▸ hlt), ← hduration]
    ring

/-- Both look at the print, and the status reports what the account says. -/
theorem Agrees.getStatus (h : Agrees s a)
    (hseen : s.printStartTime ≠ none →
      (s.countFilament gc).filamentUsed < detected → a.extruded = false) :
    Agrees (s.getStatus t gc).1 (a.observe t gc) ∧
      (s.getStatus t gc).2.printDuration = (a.observe t gc).value := by
  unfold PrintTimes.getStatus PrintAccount.observe
  unfold Agrees at h
  cases hphase : a.phase with
  | idle =>
    rw [hphase] at h
    rw [h.1]
    unfold Agrees
    rw [hphase]
    exact ⟨h, h.2.2.1⟩
  | printing since =>
    rw [hphase] at h
    obtain ⟨startTime, hstart, hpause, hduration, hrecovered, hprinted, hfilament, hlast⟩ := h
    have hcond := hseen (hstart ▸ Option.some_ne_none startTime)
    have hcount : s.countFilament gc = s.updateFilamentUsage gc := if_pos hpause
    have hused : (s.updateFilamentUsage gc).filamentUsed =
        a.extrusion + (gc.positionE - a.lastE) / gc.extrudeFactor := by
      rw [← hfilament, ← hlast]
      rfl
    rw [hcount, hused] at hcond
    have hpaused : s.timePaused t = s.prevPauseDuration := by
      unfold PrintTimes.timePaused
      rw [hpause]
    rw [hstart, count_printing hphase, look_printing rfl, hpaused, hcount]
    dsimp only
    generalize hb : ({ a with
      phase := .printing t, printed := a.printed + (t - since)
      extrusion := a.extrusion + (gc.positionE - a.lastE) / gc.extrudeFactor
      lastE := gc.positionE } : PrintAccount K) = b
    obtain ⟨hbphase, hbbase, hbrecovered, hbextrusion, hblast, -⟩ := settle_frame b
    have hprinted' : b.settle.printed = if b.extrusion < detected then 0 else b.printed :=
      settle_printed (by rw [← hb]; exact hcond)
    have hduration' : s.duration = b.settle.base := by rw [hbbase, ← hb, hduration]
    have hinit : t - startTime - s.prevPauseDuration -
        (if (s.updateFilamentUsage gc).filamentUsed < detected then
          t - startTime - s.prevPauseDuration else s.initDuration) = b.settle.printed := by
      rw [hprinted', hused, ← hb]
      dsimp only
      rw [← hprinted]
      split
      · ring
      · ring
    have hphase' : b.settle.phase = .printing t := hbphase.trans (by rw [← hb])
    have hrecovered' : b.settle.recovered = 0 := hbrecovered.trans (by rw [← hb]; exact hrecovered)
    have hextrusion' : (s.updateFilamentUsage gc).filamentUsed = b.settle.extrusion := by
      rw [hbextrusion, ← hb]
      exact hused
    have hlast' : gc.positionE = b.settle.lastE := by
      rw [hblast, ← hb]
    constructor
    · unfold Agrees
      rw [hphase']
      exact ⟨startTime, hstart, hpause, hduration', hrecovered', hinit, hextrusion', hlast'⟩
    · unfold PrintTimes.status PrintAccount.value
      rw [← hduration', ← hinit]
      dsimp only [PrintTimes.updateFilamentUsage]
      ring
  | paused =>
    rw [hphase] at h
    obtain ⟨startTime, pauseTime, hstart, hpause, hduration, hrecovered, hprinted, hfilament⟩ := h
    have hcond := hseen (hstart ▸ Option.some_ne_none startTime)
    have hcount : s.countFilament gc = s := if_neg (hpause ▸ Option.some_ne_none pauseTime)
    rw [hcount, hfilament] at hcond
    have hpaused : s.timePaused t = s.prevPauseDuration + (t - pauseTime) := by
      unfold PrintTimes.timePaused
      rw [hpause]
    obtain ⟨hbphase, hbbase, hbrecovered, hbextrusion, -, -⟩ := settle_frame a
    have hprinted' := settle_printed hcond
    have hinit : pauseTime - startTime - s.prevPauseDuration -
        (if s.filamentUsed < detected then
          t - startTime - (s.prevPauseDuration + (t - pauseTime)) else s.initDuration) =
        a.settle.printed := by
      rw [hprinted', hfilament, ← hprinted]
      split
      · ring
      · ring
    rw [hstart, count_paused hphase, look_paused hphase, hpaused, hcount]
    dsimp only
    constructor
    · unfold Agrees
      rw [hbphase, hphase]
      exact ⟨startTime, pauseTime, hstart, hpause, hduration.trans hbbase.symm,
        hbrecovered.trans hrecovered, hinit, hfilament.trans hbextrusion.symm⟩
    · unfold PrintTimes.status PrintAccount.value
      rw [hbbase, ← hduration, ← hinit]
      dsimp only
      ring

/-! ## Runs that keep the durations -/

/-- What holds between two calls. -/
structure Accounted (w : PrintTimes K × PrintAccount K) : Prop where
  agrees : Agrees w.1 w.2
  ordered : w.2.Ordered
  since : ∀ u, w.2.phase = .printing u → ∃ n, w.2.now = some n ∧ u ≤ n

theorem accounted_init : Accounted ((PrintTimes.init, PrintAccount.init) : PrintTimes K × _) where
  agrees := by
    refine ⟨rfl, rfl, ?_, fun _ => rfl⟩
    dsimp only [PrintTimes.init, PrintAccount.value, PrintAccount.init]
    ring
  ordered := PrintAccount.ordered_init
  since := fun u h => by cases h

/-- A print that is going on is counted up to the last call. -/
theorem since_apply {e : StatsEvent K} {u : K} (h : (a.apply e).phase = .printing u) :
    e.time = some u ∨ (e.time = none ∧ a.phase = .printing u) := by
  cases e with
  | setCurrentFile filename => cases h
  | reset => cases h
  | noteStart t gc =>
    left
    dsimp only [PrintAccount.apply, PrintAccount.start] at h
    split at h
    · cases h
      rfl
    · rename_i since hphase
      rw [count_printing hphase] at h
      cases h
      rfl
    · cases h
      rfl
  | notePause t gc =>
    dsimp only [PrintAccount.apply, PrintAccount.pause] at h
    split at h
    · cases h
    · rename_i hphase
      rw [hphase] at h
      cases h
    · rename_i hphase
      rw [hphase] at h
      cases h
  | noteFinish how t =>
    dsimp only [PrintAccount.apply, PrintAccount.finish] at h
    split at h
    · rename_i hphase
      rw [hphase] at h
      cases h
    · cases h
    · cases h
  | getStatus t gc =>
    dsimp only [PrintAccount.apply, PrintAccount.observe] at h
    split at h
    · rename_i hphase
      rw [hphase] at h
      cases h
    · rename_i since hphase
      rw [(settle_frame _).1, count_printing hphase, look_printing rfl] at h
      cases h
      exact .inl rfl
    · rename_i hphase
      rw [(settle_frame _).1, count_paused hphase, look_paused hphase, hphase] at h
      cases h
  | modifyPrintTime time => exact .inr ⟨rfl, h⟩

omit [LinearOrder K] in
theorem value_of_printed (h : a.extruded = false → a.printed = 0) :
    a.value = a.base + if a.extruded then a.printed else 0 := by
  unfold PrintAccount.value
  split
  · rfl
  · rename_i hnot
    rw [h (Bool.not_eq_true _ ▸ hnot)]

theorem printed_observe {s : PrintTimes K} (h : Agrees s a) :
    (a.observe t gc).extruded = false → (a.observe t gc).printed = 0 := by
  unfold PrintAccount.observe
  split
  · rename_i hphase
    unfold Agrees at h
    rw [hphase] at h
    exact h.2.2.2
  · exact printed_settle
  · exact printed_settle

omit [LinearOrder K] in
theorem Agrees.duration_eq (h : Agrees s a)
    (hduration : s.printStartTime ≠ none → s.duration = 0) : s.duration = a.recovered := by
  unfold Agrees at h
  cases hphase : a.phase with
  | idle =>
    rw [hphase] at h
    exact h.2.1
  | printing since =>
    rw [hphase] at h
    obtain ⟨startTime, hstart, -, -, hrecovered, -⟩ := h
    rw [hduration (hstart ▸ Option.some_ne_none startTime), hrecovered]
  | paused =>
    rw [hphase] at h
    obtain ⟨startTime, pauseTime, hstart, -, -, hrecovered, -⟩ := h
    rw [hduration (hstart ▸ Option.some_ne_none startTime), hrecovered]

omit [LinearOrder K] in
theorem Agrees.phase_eq (h : Agrees s a) (hstart : s.printStartTime = none) : a.phase = .idle := by
  unfold Agrees at h
  cases hphase : a.phase with
  | idle => rfl
  | printing since =>
    rw [hphase] at h
    obtain ⟨startTime, hsome, -⟩ := h
    cases hstart.symm.trans hsome
  | paused =>
    rw [hphase] at h
    obtain ⟨startTime, pauseTime, hsome, -⟩ := h
    cases hstart.symm.trans hsome

theorem Agrees.apply (h : Agrees s a) {e : StatsEvent K} (hkeeps : KeepsDurations (s, a) e) :
    Agrees (s.apply e) (a.apply e) := by
  have hzero : (0 : K) - 0 - 0 = 0 + 0 := by ring
  cases e with
  | setCurrentFile filename => exact ⟨rfl, h.duration_eq hkeeps, hzero, fun _ => rfl⟩
  | reset => exact ⟨rfl, hkeeps, hzero, fun _ => rfl⟩
  | noteStart t gc => exact h.noteStart hkeeps
  | notePause t gc => exact h.notePause
  | noteFinish how t =>
    cases how with
    | complete => exact h.noteFinish _ _ hkeeps
    | error message => exact h.noteFinish _ _ hkeeps
    | cancel => exact h.noteFinish _ _ hkeeps
  | getStatus t gc => exact (h.getStatus hkeeps).1
  | modifyPrintTime time =>
    have hphase := h.phase_eq hkeeps
    unfold Agrees at h ⊢
    dsimp only [PrintTimes.apply, PrintTimes.modifyPrintTime, PrintAccount.apply]
    rw [hphase] at h ⊢
    exact ⟨h.1, rfl, h.2.2⟩

theorem reported_observe : (a.observe t gc).reported = a.reported := by
  unfold PrintAccount.observe
  split
  · rfl
  · rename_i since hphase
    rw [(settle_frame _).2.2.2.2.2, count_printing hphase, look_printing rfl]
  · rename_i hphase
    rw [(settle_frame _).2.2.2.2.2, count_paused hphase, look_paused hphase]

variable [IsStrictOrderedRing K]

theorem PrintAccount.Ordered.observe (h : a.Ordered)
    (hsince : ∀ u, a.phase = .printing u → u ≤ t) : (a.observe t gc).Ordered := by
  unfold PrintAccount.observe
  split
  · exact h
  · exact ((h.count hsince).look).settle
  · exact ((h.count hsince).look).settle

theorem PrintAccount.Ordered.apply (h : a.Ordered) {s : PrintTimes K} (hagrees : Agrees s a)
    {e : StatsEvent K} (hsince : ∀ t, e.time = some t → ∀ u, a.phase = .printing u → u ≤ t) :
    (a.apply e).Ordered := by
  cases e with
  | setCurrentFile filename => exact ⟨ordered_clear.printed_nonneg, ordered_clear.reported⟩
  | reset => exact ⟨ordered_clear.printed_nonneg, ordered_clear.reported⟩
  | noteStart t gc =>
    suffices (a.start t gc).Ordered from ⟨this.printed_nonneg, this.reported⟩
    unfold PrintAccount.start
    split
    · exact ⟨le_rfl, fun v hv => by cases hv⟩
    · have hcount := h.count (hsince t rfl)
      exact ⟨hcount.printed_nonneg, hcount.reported⟩
    · exact ⟨h.printed_nonneg, h.reported⟩
  | notePause t gc =>
    suffices (a.pause t gc).Ordered from ⟨this.printed_nonneg, this.reported⟩
    unfold PrintAccount.pause
    split
    · have hlook : ((a.count t).look gc).Ordered := (h.count (hsince t rfl)).look
      exact ⟨hlook.see.printed_nonneg, hlook.see.reported⟩
    · exact h
    · exact h
  | noteFinish how t =>
    suffices (a.finish t).Ordered from ⟨this.printed_nonneg, this.reported⟩
    unfold PrintAccount.finish
    split
    · exact h
    · have hsettle := (h.count (hsince t rfl)).settle
      exact ⟨hsettle.printed_nonneg, hsettle.reported⟩
    · have hsettle := (h.count (hsince t rfl)).settle
      exact ⟨hsettle.printed_nonneg, hsettle.reported⟩
  | getStatus t gc =>
    have hobserve : (a.observe t gc).Ordered := h.observe (hsince t rfl)
    refine ⟨hobserve.printed_nonneg, fun v hv => ?_⟩
    rw [← Option.some.inj hv]
    exact (value_of_printed (printed_observe hagrees)).le
  | modifyPrintTime time => exact ⟨h.printed_nonneg, h.reported⟩

variable {w w' : PrintTimes K × PrintAccount K} {e : StatsEvent K} {es : List (StatsEvent K)}

theorem Accounted.step (h : Accounted w) (hstep : StatsStep w e w')
    (hkeeps : KeepsDurations w e) : Accounted w' := by
  obtain ⟨hlater, rfl⟩ := hstep
  have hsince : ∀ t, e.time = some t → ∀ u, w.2.phase = .printing u → u ≤ t := by
    intro t ht u hu
    obtain ⟨n, hn, hle⟩ := h.since u hu
    exact hle.trans (hlater t ht n hn)
  refine ⟨h.agrees.apply hkeeps, h.ordered.apply h.agrees hsince, fun u hu => ?_⟩
  obtain htime | ⟨htime, hphase⟩ := since_apply hu
  · refine ⟨u, ?_, le_rfl⟩
    unfold PrintAccount.apply
    rw [htime]
    rfl
  · obtain ⟨n, hn, hle⟩ := h.since u hphase
    refine ⟨n, ?_, hle⟩
    cases e with
    | setCurrentFile filename => exact hn
    | reset => exact hn
    | modifyPrintTime time => exact hn
    | noteStart t gc => cases htime
    | notePause t gc => cases htime
    | noteFinish how t => cases htime
    | getStatus t gc => cases htime

theorem Accounted.reports (h : Accounted w) (hstep : StatsStep w e w')
    (hkeeps : KeepsDurations w e) : ReportsAccount w e := by
  cases e with
  | getStatus t gc =>
    have hstatus := (h.agrees.getStatus (t := t) hkeeps).2
    refine ⟨hstatus, fun v hv => ?_⟩
    have hsince : ∀ u, w.2.phase = .printing u → u ≤ t := by
      intro u hu
      obtain ⟨n, hn, hle⟩ := h.since u hu
      exact hle.trans (hstep.1 t rfl n hn)
    have hreported : (w.2.observe t gc).reported = w.2.reported := reported_observe
    rw [hstatus, value_of_printed (printed_observe h.agrees)]
    exact (h.ordered.observe hsince).reported v (hreported.trans hv)
  | setCurrentFile _ | reset | noteStart _ _ | notePause _ _ | noteFinish _ _
  | modifyPrintTime _ => trivial

/-- **When the durations are right.**  In every run whose calls keep the durations, each status
reports the recovered duration and the time in the state printing, and no less than before. -/
theorem reportsAccount_of_run
    (h : Run (fun w e w' => StatsStep w e w' ∧ KeepsDurations w e)
      ((PrintTimes.init, PrintAccount.init) : PrintTimes K × PrintAccount K) es w) :
    Run (fun w e w' => StatsStep w e w' ∧ ReportsAccount w e)
      ((PrintTimes.init, PrintAccount.init) : PrintTimes K × PrintAccount K) es w := by
  have hreports := h.forall_steps (P := fun w e _ => ReportsAccount w e) accounted_init
    (fun _ _ _ hw hs => hw.step hs.1 hs.2) fun _ _ _ hw hs => hw.reports hs.1 hs.2
  exact hreports.mono fun _ _ _ hs => ⟨hs.1.1, hs.2⟩

/-- A print with a pause, and statuses before and after it. -/
theorem reportsAccount_of_run_paused :
    let gc : ℚ → GcStatus ℚ := fun e => ⟨e, 1⟩
    ∃ w : PrintTimes ℚ × PrintAccount ℚ,
      Run (fun w e w' => StatsStep w e w' ∧ ReportsAccount w e) (PrintTimes.init, PrintAccount.init)
        [.modifyPrintTime 60, .setCurrentFile "a.gcode", .noteStart 10 (gc 0), .getStatus 11 (gc 0),
          .getStatus 12 (gc 5), .notePause 15 (gc 8), .noteStart 100 (gc 8), .getStatus 101 (gc 9),
          .noteFinish .complete 102, .getStatus 200 (gc 9)] w ∧ w.2.value = 66 := by
  intro gc
  have hrun := Run.of_checks (f := fun w e => ((w.1.apply e, w.2.apply e) : PrintTimes ℚ × _))
    (C := fun w e => OnTime w.2 e ∧ KeepsDurations w e) (s := (PrintTimes.init, PrintAccount.init))
    (l := [.modifyPrintTime 60, .setCurrentFile "a.gcode", .noteStart 10 (gc 0),
      .getStatus 11 (gc 0), .getStatus 12 (gc 5), .notePause 15 (gc 8), .noteStart 100 (gc 8),
      .getStatus 101 (gc 9), .noteFinish .complete 102, .getStatus 200 (gc 9)]) (by decide +kernel)
  refine ⟨_, reportsAccount_of_run (hrun.mono fun _ _ _ hs => ⟨⟨hs.1.1, hs.2⟩, hs.1.2⟩), ?_⟩
  decide +kernel

/-- A print that is cancelled while it is paused: the time of the pause is reported too. -/
theorem cancelled_while_paused :
    let gc : ℚ → GcStatus ℚ := fun e => ⟨e, 1⟩
    ∃ w : PrintTimes ℚ × PrintAccount ℚ,
      Run StatsStep (PrintTimes.init, PrintAccount.init)
        [.setCurrentFile "a.gcode", .noteStart 0 (gc 0), .getStatus 1 (gc 0), .getStatus 2 (gc 5),
          .notePause 3 (gc 5), .noteFinish .cancel 100] w ∧
        (w.1.getStatus 101 (gc 5)).2.printDuration = 99 ∧ (w.2.observe 101 (gc 5)).value = 2 ∧
        ¬ ReportsAccount w (.getStatus 101 (gc 5)) := by
  intro gc
  have hrun := Run.of_checks (f := fun w e => ((w.1.apply e, w.2.apply e) : PrintTimes ℚ × _))
    (C := fun w e => OnTime w.2 e) (s := (PrintTimes.init, PrintAccount.init))
    (l := [.setCurrentFile "a.gcode", .noteStart 0 (gc 0), .getStatus 1 (gc 0),
      .getStatus 2 (gc 5), .notePause 3 (gc 5), .noteFinish .cancel 100]) (by decide +kernel)
  refine ⟨_, hrun, by decide +kernel, by decide +kernel, ?_⟩
  rintro ⟨hvalue, -⟩
  exact absurd hvalue (by decide +kernel)

end FlsunT1.Klippy
