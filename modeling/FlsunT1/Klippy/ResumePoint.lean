/-
  Klippy/ResumePoint.lean --- where a print goes on after a runout
  (klippy/extras/locate_printing_gcode.py).

  The lines of a print are recorded in a queue, and a filament edge saves where the extruder
  is.  `F108` looks for the line at which the filament ended, from the newest line back.
  The module is not told of the prints: the queue and the edge may be those of an earlier one.
  The prints are counted here, and what is recorded carries the number of its print.
-/
import Mathlib.Algebra.Field.Rat
import Mathlib.Algebra.Order.Group.Abs
import Mathlib.Algebra.Order.Ring.Rat
import FlsunT1.Klippy.GcodeMove
import FlsunT1.Library.Run

set_option autoImplicit false

namespace FlsunT1.Klippy

open Library

variable {K : Type} [Field K] [LinearOrder K]

/-! ## What is recorded -/

/-- What is read of `gcode_move.get_status`. -/
structure MoveStatus (K : Type) where
  position : Position K
  gcodePosition : Position K

/-- `parseinfo` after `record_gcode_begin`; `print` is the print that is open then. -/
structure GcodeBegin (K : Type) where
  offset : Nat
  gcodeMoveBefore : MoveStatus K
  gcodeState : GcodeState K
  print : Option Nat

/-- `parseinfo` after `record_gcode_end`. -/
structure GcodeItem (K : Type) extends GcodeBegin K where
  gcodeMoveAfter : MoveStatus K

/-- What `save_runing_info` saves; `print` is the print that is open then. -/
structure RuningInfo (K : Type) where
  livePosition : Position K
  print : Option Nat

/-- The numbers of the configuration, which `F109` sets. -/
structure LocateConfig (K : Type) where
  eOffset : K
  gravityMin : K
  gravityTarget : K

/-! ## The scan -/

/-- `class RollbackCheckZChange` -/
structure RollbackCheckZChange (K : Type) where
  lock : Bool
  printingHeight : K

/-- `is_break` -/
def RollbackCheckZChange.isBreak (c : RollbackCheckZChange K) (item : GcodeItem K) :
    RollbackCheckZChange K × Bool :=
  let startPos := item.gcodeMoveBefore.gcodePosition
  let endPos := item.gcodeMoveAfter.gcodePosition
  let threshold : K := 1 / 10 ^ 9
  let deltaZ := endPos 2 - startPos 2
  let deltaE := endPos 3 - startPos 3
  if |deltaZ| < threshold then
    (if threshold < deltaE ∧ c.lock = false then ⟨true, endPos 2⟩ else c, false)
  else if deltaZ < 0 ∧ c.lock = true ∧ endPos 2 < c.printingHeight then (c, true)
  else if ¬deltaZ < 0 ∧ startPos 2 < c.printingHeight then (c, true)
  else (c, decide (threshold < |deltaE|))

/-- `check_rollback` -/
def checkRollback (cfg : LocateConfig K) (eOffset : K) : Int :=
  if eOffset < cfg.gravityMin then
    if eOffset < cfg.gravityTarget then 1 else -1
  else if eOffset < cfg.gravityTarget then 1
  else 0

/-- The variables of the loop of `set_resume_pos`. -/
structure Scan (K : Type) where
  checkZ : RollbackCheckZChange K
  compensateGravityValue : K
  isRollback : Bool
  loopContinue : Bool
  extrudeLocate : Option (GcodeItem K)

/-- The loop before its first pass. -/
def Scan.init : Scan K := ⟨⟨false, 0⟩, 0, false, true, none⟩

/-- The end of a pass, where the loop goes on. -/
def Scan.goOn (s : Scan K) (item : GcodeItem K) : Scan K :=
  if 0 < item.gcodeMoveAfter.position 3 - item.gcodeMoveBefore.position 3 then
    { s with isRollback := true, extrudeLocate := some item }
  else s

/-- A pass of the loop, with whether it ends with `break`. -/
def Scan.item (cfg : LocateConfig K) (posE : K) (s : Scan K) (item : GcodeItem K) :
    Scan K × Bool :=
  let posELack := posE + cfg.eOffset
  let startE := item.gcodeMoveBefore.position 3
  let endE := item.gcodeMoveAfter.position 3
  let (checkZ, isBreak) := s.checkZ.isBreak item
  let s := { s with checkZ := checkZ, loopContinue := s.loopContinue && !isBreak }
  if 0 < posELack - endE then
    if s.loopContinue = false then (s, true)
    else if 0 < cfg.gravityMin then
      let s := { s with compensateGravityValue := s.compensateGravityValue + (endE - startE) }
      let checkResult := checkRollback cfg s.compensateGravityValue
      if checkResult < 0 then (s, true)
      else if checkResult = 0 ∧ s.isRollback = false then
        ({ s with isRollback := true, extrudeLocate := some item }, true)
      else (s.goOn item, false)
    else (s, true)
  else if posELack < startE then
    if endE < posE then (s, true) else (s.goOn item, false)
  else ({ s with extrudeLocate := some item }, true)

/-- The loop over items, the newest first, with whether it ends with `break`. -/
def Scan.items (cfg : LocateConfig K) (posE : K) (s : Scan K) :
    List (GcodeItem K) → Scan K × Bool
  | [] => (s, false)
  | item :: items =>
    let (s, broke) := s.item cfg posE item
    if broke then (s, true) else s.items cfg posE items

/-- `extrude_locate` after the loop. -/
def locate (cfg : LocateConfig K) (posE : K) (queue : List (GcodeItem K)) :
    Option (GcodeItem K) :=
  (Scan.init.items cfg posE queue).1.extrudeLocate

/-! ## The module and the prints -/

/-- `class LocatePrintingGcode` with what it changes.  The queue has its newest item first.
`runoutState` is that of the filament sensor, `filePosition` that of the virtual sd card, and
`pauseState` the g-code state `PAUSE_STATE`.  `prints` counts the files that were loaded,
`openPrint` has the number of the one that is open, and `edgeSinceLoad` says that a filament
edge was saved since it was loaded. -/
structure LocatePrintingGcode (K : Type) where
  config : LocateConfig K
  maxSize : Nat
  queue : List (GcodeItem K)
  parseinfo : Option (GcodeBegin K)
  savedState : Option (RuningInfo K)
  runoutState : Bool
  filePosition : Nat
  pauseState : Option (GcodeState K)
  prints : Nat
  openPrint : Option Nat
  edgeSinceLoad : Bool

/-- What happens. -/
inductive LocateEvent (K : Type)
  /-- A file is loaded: `SDCARD_PRINT_FILE`, `M23` or `recover_print`. -/
  | load (fileposition : Nat)
  /-- The file is closed and its position set to 0: a reset or a cancel. -/
  | close
  /-- The file is closed at its end. -/
  | finish
  /-- The position of the file changes otherwise. -/
  | setFilePosition (position : Nat)
  | recordGcodeBegin (before : MoveStatus K) (gcodeState : GcodeState K)
  | recordGcodeEnd (after : MoveStatus K)
  /-- A filament edge calls `save_runing_info`. -/
  | edge (livePosition : Position K)
  /-- The handler of the runout begins, and ends. -/
  | runoutBegin
  | runoutEnd
  | f108
  | f109 (size : Option Int) (eOffset gravityMin gravityTarget : Option K)
  /-- `SAVE_GCODE_STATE NAME=PAUSE_STATE` -/
  | saveGcodeState (state : GcodeState K)

namespace LocatePrintingGcode

/-- The module at its start. -/
def init (config : LocateConfig K) (maxSize : Nat) : LocatePrintingGcode K where
  config := config
  maxSize := maxSize
  queue := []
  parseinfo := none
  savedState := none
  runoutState := false
  filePosition := 0
  pauseState := none
  prints := 0
  openPrint := none
  edgeSinceLoad := false

/-- `set_resume_pos` -/
def setResumePos (s : LocatePrintingGcode K) (info : RuningInfo K) : LocatePrintingGcode K :=
  match locate s.config (info.livePosition 3) s.queue with
  | none => s
  | some item => { s with filePosition := item.offset, pauseState := some item.gcodeState }

/-- `restore_runing_info` -/
def restoreRuningInfo (s : LocatePrintingGcode K) : LocatePrintingGcode K :=
  match s.savedState with
  | none => s
  | some info => { s with savedState := none }.setResumePos info

/-- `cmd_F108` -/
def cmdF108 (s : LocatePrintingGcode K) : LocatePrintingGcode K :=
  if s.runoutState then s.restoreRuningInfo else s

/-- The queue of `cmd_F109` with a size; there is no result when it raises an error. -/
def setSize (s : LocatePrintingGcode K) (size : Int) : Option (LocatePrintingGcode K) :=
  if size = s.maxSize then some s
  else if size < s.queue.length then
    if size < 0 then none
    else some { s with queue := s.queue.take size.toNat, maxSize := size.toNat }
  else some { s with maxSize := size.toNat }

/-- `cmd_F109`, its parameters read. -/
def cmdF109 (s : LocatePrintingGcode K) (size : Option Int)
    (eOffset gravityMin gravityTarget : Option K) : LocatePrintingGcode K :=
  match size.elim (some s) s.setSize with
  | none => s
  | some t =>
    { t with config :=
        ⟨eOffset.getD t.config.eOffset, gravityMin.getD t.config.gravityMin,
          gravityTarget.getD t.config.gravityTarget⟩ }

/-- What happens to the module. -/
def step (s : LocatePrintingGcode K) : LocateEvent K → LocatePrintingGcode K
  | .load fileposition =>
    { s with
      filePosition := fileposition
      prints := s.prints + 1, openPrint := some (s.prints + 1), edgeSinceLoad := false }
  | .close => { s with filePosition := 0, openPrint := none, edgeSinceLoad := false }
  | .finish => { s with openPrint := none, edgeSinceLoad := false }
  | .setFilePosition position => { s with filePosition := position }
  | .recordGcodeBegin before gcodeState =>
    { s with parseinfo := some ⟨s.filePosition, before, gcodeState, s.openPrint⟩ }
  | .recordGcodeEnd after =>
    match s.parseinfo with
    | none => s
    | some parseinfo =>
      { s with queue := (⟨parseinfo, after⟩ :: s.queue).take s.maxSize, parseinfo := none }
  | .edge livePosition =>
    { s with savedState := some ⟨livePosition, s.openPrint⟩, edgeSinceLoad := true }
  | .runoutBegin => { s with runoutState := true }
  | .runoutEnd => { s with runoutState := false }
  | .f108 => s.cmdF108
  | .f109 size eOffset gravityMin gravityTarget =>
    s.cmdF109 size eOffset gravityMin gravityTarget
  | .saveGcodeState state => { s with pauseState := some state }

/-- The item and the running info by which `F108` changes the position of the file. -/
def used (s : LocatePrintingGcode K) : Option (GcodeItem K × RuningInfo K) :=
  if s.runoutState then do
    let info ← s.savedState
    let item ← locate s.config (info.livePosition 3) s.queue
    return (item, info)
  else none

/-- A step of the module leaves the position of the file and the state to resume from alone, or
takes them from what belongs to the print that is open. -/
def ResumesPrint (s : LocatePrintingGcode K) : LocateEvent K → Prop
  | .f108 => ∀ item info, s.used = some (item, info) →
      ∃ n, s.openPrint = some n ∧ item.print = some n ∧ info.print = some n
  | _ => True

/-- The items that were recorded since the file was loaded. -/
def ofPrint (s : LocatePrintingGcode K) : List (GcodeItem K) :=
  s.queue.filter fun item => item.print = s.openPrint

/-- What `F108` is to meet: a file is open, a filament edge was saved since it was loaded, and the
scan ends among the lines that were recorded since then, or there are no others. -/
structure Fresh (s : LocatePrintingGcode K) (info : RuningInfo K) : Prop where
  isOpen : s.openPrint ≠ none
  edge : s.edgeSinceLoad = true
  stops : (Scan.init.items s.config (info.livePosition 3) s.ofPrint).2 = true ∨
    s.ofPrint = s.queue

/-- The condition on a step. -/
def Condition (s : LocatePrintingGcode K) : LocateEvent K → Prop
  | .f108 => s.runoutState = true → ∀ info, s.savedState = some info → s.Fresh info
  | _ => True

end LocatePrintingGcode

/-! ## What the scan locates -/

section Scan

variable {cfg : LocateConfig K} {posE : K} {scan : Scan K}

theorem goOn_extrudeLocate {last item : GcodeItem K}
    (h : (scan.goOn last).extrudeLocate = some item) :
    scan.extrudeLocate = some item ∨ item = last := by
  rw [Scan.goOn] at h
  split at h
  · exact Or.inr (Option.some.inj h).symm
  · exact Or.inl h

/-- A pass locates its own item or none. -/
theorem item_extrudeLocate {last item : GcodeItem K}
    (h : (scan.item cfg posE last).1.extrudeLocate = some item) :
    scan.extrudeLocate = some item ∨ item = last := by
  rw [Scan.item] at h
  dsimp only at h
  split at h
  · split at h
    · exact Or.inl h
    · split at h
      · split at h
        · exact Or.inl h
        · split at h
          · exact Or.inr (Option.some.inj h).symm
          · have hgo := goOn_extrudeLocate h
            exact hgo
      · exact Or.inl h
  · split at h
    · split at h
      · exact Or.inl h
      · have hgo := goOn_extrudeLocate h
        exact hgo
    · exact Or.inr (Option.some.inj h).symm

theorem mem_of_items {items : List (GcodeItem K)} {item : GcodeItem K}
    (h : (scan.items cfg posE items).1.extrudeLocate = some item) :
    scan.extrudeLocate = some item ∨ item ∈ items := by
  induction items generalizing scan with
  | nil => exact Or.inl h
  | cons first items ih =>
    rw [Scan.items] at h
    dsimp only at h
    have hfirst : (scan.item cfg posE first).1.extrudeLocate = some item →
        scan.extrudeLocate = some item ∨ item ∈ first :: items := fun hitem =>
      (item_extrudeLocate hitem).imp_right fun hlast => by rw [hlast]; exact List.mem_cons_self
    split at h
    · exact hfirst h
    · rcases ih h with hitem | hmem
      · exact hfirst hitem
      · exact Or.inr (List.mem_cons_of_mem _ hmem)

theorem items_append {newer : List (GcodeItem K)} (h : (scan.items cfg posE newer).2 = true)
    (older : List (GcodeItem K)) :
    scan.items cfg posE (newer ++ older) = scan.items cfg posE newer := by
  induction newer generalizing scan with
  | nil => cases h
  | cons first newer ih =>
    rw [Scan.items] at h
    rw [List.cons_append, Scan.items, Scan.items]
    dsimp only at h ⊢
    split
    · rfl
    · rename_i hgoes
      rw [if_neg hgoes] at h
      exact ih h

theorem mem_of_locate {newer older : List (GcodeItem K)} {item : GcodeItem K}
    (hstops : (Scan.init.items cfg posE newer).2 = true ∨ older = [])
    (h : locate cfg posE (newer ++ older) = some item) : item ∈ newer := by
  have hnewer : (Scan.init.items cfg posE newer).1.extrudeLocate = some item := by
    rcases hstops with hstops | rfl
    · rw [← items_append hstops older]
      exact h
    · rw [locate, List.append_nil] at h
      exact h
  exact (mem_of_items hnewer).resolve_left (Option.some_ne_none item).symm

end Scan

/-! ## Runs -/

namespace LocatePrintingGcode

/-- The numbers of prints in what is recorded: none is greater than the number of prints, those of
the open print are the newest in the queue, and a line that is not yet recorded belongs to it,
unless none of its lines is recorded yet. -/
structure Inv (s : LocatePrintingGcode K) : Prop where
  queue_le : ∀ item ∈ s.queue, ∀ n, item.print = some n → n ≤ s.prints
  parseinfo_le : ∀ p, s.parseinfo = some p → ∀ n, p.print = some n → n ≤ s.prints
  open_le : ∀ n, s.openPrint = some n → n ≤ s.prints
  newest : ∀ n, s.openPrint = some n →
    s.queue.Pairwise fun newer older => older.print = some n → newer.print = some n
  pending : ∀ n p, s.openPrint = some n → s.parseinfo = some p →
    p.print = some n ∨ ∀ item ∈ s.queue, item.print ≠ some n
  edge : s.edgeSinceLoad = true → ∀ info, s.savedState = some info → info.print = s.openPrint

variable {s t : LocatePrintingGcode K}

omit [Field K] [LinearOrder K] in
theorem Inv.shrink (h : s.Inv) (hqueue : t.queue.Sublist s.queue)
    (hparseinfo : t.parseinfo = s.parseinfo) (hprints : t.prints = s.prints)
    (hopen : t.openPrint = s.openPrint) (hedge : t.edgeSinceLoad = s.edgeSinceLoad)
    (hsaved : ∀ info, t.savedState = some info → s.savedState = some info) : t.Inv where
  queue_le item hitem := by
    rw [hprints]
    exact h.queue_le item (hqueue.mem hitem)
  parseinfo_le := by
    rw [hparseinfo, hprints]
    exact h.parseinfo_le
  open_le := by
    rw [hopen, hprints]
    exact h.open_le
  newest n hn := (h.newest n (hopen ▸ hn)).sublist hqueue
  pending n p hn hp := (h.pending n p (hopen ▸ hn) (hparseinfo ▸ hp)).imp_right
    fun hnone item hitem => hnone item (hqueue.mem hitem)
  edge hsince info hinfo := by
    rw [hopen]
    exact h.edge (hedge ▸ hsince) info (hsaved info hinfo)

theorem Inv.setResumePos (h : s.Inv) (info : RuningInfo K) : (s.setResumePos info).Inv := by
  rw [LocatePrintingGcode.setResumePos]
  split
  · exact h
  · exact h.shrink (.refl _) rfl rfl rfl rfl fun _ hinfo => hinfo

theorem Inv.cmdF108 (h : s.Inv) : s.cmdF108.Inv := by
  rw [LocatePrintingGcode.cmdF108]
  split
  · rw [restoreRuningInfo]
    split
    · exact h
    · have hnone : Inv { s with savedState := none } := h.shrink (.refl _) rfl rfl rfl rfl
        fun _ hinfo => absurd hinfo (Option.some_ne_none _).symm
      exact hnone.setResumePos _
  · exact h

omit [Field K] [LinearOrder K] in
theorem Inv.cmdF109 (h : s.Inv) (size : Option Int) (eOffset gravityMin gravityTarget : Option K) :
    (s.cmdF109 size eOffset gravityMin gravityTarget).Inv := by
  have hsize {t : LocatePrintingGcode K} (ht : size.elim (some s) s.setSize = some t) : t.Inv := by
    cases size with
    | none => exact Option.some.inj ht ▸ h
    | some size =>
      rw [Option.elim_some, setSize] at ht
      split at ht
      · exact Option.some.inj ht ▸ h
      · split at ht
        · split at ht
          · cases ht
          · rw [← Option.some.inj ht]
            exact h.shrink (List.take_sublist _ _) rfl rfl rfl rfl fun _ hinfo => hinfo
        · rw [← Option.some.inj ht]
          exact h.shrink (.refl _) rfl rfl rfl rfl fun _ hinfo => hinfo
  rw [LocatePrintingGcode.cmdF109]
  split
  · exact h
  · rename_i t ht
    exact (hsize ht).shrink (.refl _) rfl rfl rfl rfl fun _ hinfo => hinfo

omit [Field K] [LinearOrder K] in
theorem Inv.recordGcodeEnd (h : s.Inv) {parseinfo : GcodeBegin K}
    (hparseinfo : s.parseinfo = some parseinfo) (after : MoveStatus K) :
    Inv { s with
      queue := (⟨parseinfo, after⟩ :: s.queue).take s.maxSize, parseinfo := none } where
  queue_le item hitem := by
    rcases List.mem_cons.mp (List.mem_of_mem_take hitem) with rfl | hitem
    · exact h.parseinfo_le parseinfo hparseinfo
    · exact h.queue_le item hitem
  parseinfo_le _ hp := absurd hp (Option.some_ne_none _).symm
  open_le := h.open_le
  newest n hn := by
    refine List.Pairwise.sublist (List.take_sublist _ _) (List.pairwise_cons.mpr
      ⟨fun older holder hprint => ?_, h.newest n hn⟩)
    exact (h.pending n parseinfo hn hparseinfo).resolve_right fun hnone =>
      hnone older holder hprint
  pending _ _ _ hp := absurd hp (Option.some_ne_none _).symm
  edge := h.edge

/-- What happens keeps the numbers in order. -/
theorem Inv.step (h : s.Inv) (e : LocateEvent K) : (s.step e).Inv := by
  cases e with
  | load fileposition =>
    have hnone : ∀ item ∈ s.queue, item.print ≠ some (s.prints + 1) := fun item hitem hprint =>
      absurd (h.queue_le item hitem _ hprint) (Nat.not_succ_le_self _)
    refine ⟨fun item hitem n hn => Nat.le_succ_of_le (h.queue_le item hitem n hn),
      fun p hp n hn => Nat.le_succ_of_le (h.parseinfo_le p hp n hn),
      fun n hn => (Option.some.inj hn).ge, fun n hn => ?_, fun n p hn _ => Or.inr ?_, fun hedge => absurd hedge Bool.false_ne_true⟩
    · obtain rfl := Option.some.inj hn
      exact List.pairwise_of_forall_mem_list fun _ _ older holder hprint =>
        absurd hprint (hnone older holder)
    · obtain rfl := Option.some.inj hn
      exact hnone
  | close | finish =>
    exact ⟨h.queue_le, h.parseinfo_le, fun n hn => absurd hn (Option.some_ne_none n).symm,
      fun n hn => absurd hn (Option.some_ne_none n).symm, fun n _ hn => absurd hn (Option.some_ne_none n).symm,
      fun hedge => absurd hedge Bool.false_ne_true⟩
  | setFilePosition | runoutBegin | runoutEnd | saveGcodeState =>
    exact h.shrink (.refl _) rfl rfl rfl rfl fun _ hinfo => hinfo
  | recordGcodeBegin before gcodeState =>
    refine ⟨h.queue_le, fun p hp n hn => ?_, h.open_le, h.newest, fun n p hn hp => Or.inl ?_,
      h.edge⟩
    · rw [← Option.some.inj hp] at hn
      exact h.open_le n hn
    · rw [← Option.some.inj hp]
      exact hn
  | recordGcodeEnd after =>
    rw [LocatePrintingGcode.step]
    split
    · exact h
    · rename_i hparseinfo
      exact h.recordGcodeEnd hparseinfo after
  | edge livePosition =>
    refine ⟨h.queue_le, h.parseinfo_le, h.open_le, h.newest, h.pending, fun _ info hinfo => ?_⟩
    rw [← Option.some.inj hinfo]
    rfl
  | f108 => exact h.cmdF108
  | f109 size eOffset gravityMin gravityTarget => exact h.cmdF109 size eOffset gravityMin gravityTarget

omit [Field K] [LinearOrder K] in
theorem inv_init (config : LocateConfig K) (maxSize : Nat) : (init config maxSize).Inv where
  queue_le _ hitem := absurd hitem List.not_mem_nil
  parseinfo_le _ hp := absurd hp (Option.some_ne_none _).symm
  open_le _ hn := absurd hn (Option.some_ne_none _).symm
  newest _ hn := absurd hn (Option.some_ne_none _).symm
  pending _ _ hn := absurd hn (Option.some_ne_none _).symm
  edge hedge := absurd hedge Bool.false_ne_true

omit [Field K] [LinearOrder K] in
theorem Inv.queue_eq (h : s.Inv) (hopen : s.openPrint ≠ none) :
    s.queue = s.ofPrint ++ s.queue.filter fun item => ¬item.print = s.openPrint := by
  obtain ⟨n, hn⟩ := Option.ne_none_iff_exists'.mp hopen
  rw [ofPrint, hn]
  have hnewest := h.newest n hn
  generalize s.queue = queue at hnewest ⊢
  induction queue with
  | nil => rfl
  | cons item queue ih =>
    obtain ⟨hitem, hqueue⟩ := List.pairwise_cons.mp hnewest
    by_cases hprint : item.print = some n
    · rw [List.filter_cons_of_pos (by simpa using hprint),
        List.filter_cons_of_neg (by simpa using hprint), List.cons_append, ← ih hqueue]
    · have hnone : queue.filter (fun item => decide (item.print = some n)) = [] :=
        List.filter_eq_nil_iff.mpr fun older holder heq =>
          hprint (hitem older holder (of_decide_eq_true heq))
      have hrest := ih hqueue
      rw [hnone, List.nil_append] at hrest
      rw [List.filter_cons_of_neg (by simpa using hprint), hnone, List.nil_append,
        List.filter_cons_of_pos (by simpa using hprint), ← hrest]

/-- A step that meets the condition resumes the print that is open. -/
theorem Inv.resumesPrint (h : s.Inv) {e : LocateEvent K} (hcond : s.Condition e) :
    s.ResumesPrint e := by
  cases e with
  | f108 =>
    intro item info hused
    rw [used] at hused
    split at hused
    · rename_i hrunout
      obtain ⟨info', hinfo, hused⟩ := Option.bind_eq_some_iff.mp hused
      obtain ⟨item', hitem, hused⟩ := Option.bind_eq_some_iff.mp hused
      obtain ⟨rfl, rfl⟩ := Prod.mk.inj (Option.some.inj hused)
      have hfresh := hcond hrunout info' hinfo
      obtain ⟨n, hn⟩ := Option.ne_none_iff_exists'.mp hfresh.isOpen
      have hqueue := h.queue_eq hfresh.isOpen
      rw [hqueue] at hitem
      have hmem := mem_of_locate (hfresh.stops.imp_right fun hall => by
        rw [hall] at hqueue
        exact List.append_right_eq_self.mp hqueue.symm) hitem
      have hprint : item'.print = s.openPrint := of_decide_eq_true (List.mem_filter.mp hmem).2
      exact ⟨n, hn, hprint.trans hn, (h.edge hfresh.edge info' hinfo).trans hn⟩
    · cases hused
  | _ => trivial

/-- **The resume point belongs to the open print**, in every run in which each `F108` that finds a
running info meets the condition. -/
theorem resumesPrint_of_condition {config : LocateConfig K} {maxSize : Nat}
    {es : List (LocateEvent K)}
    (h : Run (fun s e t => t = s.step e ∧ s.Condition e) (init config maxSize) es t) :
    Run (fun s e t => t = s.step e ∧ s.ResumesPrint e) (init config maxSize) es t := by
  have hstep : ∀ (s : LocatePrintingGcode K) (e : LocateEvent K) t, s.Inv →
      (t = s.step e ∧ s.Condition e) → t.Inv := by
    rintro s e _ hs ⟨rfl, -⟩
    exact hs.step e
  have hresumes : ∀ (s : LocatePrintingGcode K) (e : LocateEvent K) (t : LocatePrintingGcode K),
      s.Inv → (t = s.step e ∧ s.Condition e) → s.ResumesPrint e := fun s e t hs hcond =>
    hs.resumesPrint hcond.2
  exact (h.forall_steps (inv_init config maxSize) hstep hresumes).mono
    fun s e t hstep => ⟨hstep.1.1, hstep.2⟩

end LocatePrintingGcode

/-! ## A print and the next one -/

def noOffset : LocateConfig ℚ := ⟨27 / 2, 0, 0⟩

/-- The status with the extruder at a position. -/
def extrudedTo (e : ℚ) : MoveStatus ℚ := ⟨![0, 0, 1, e], ![0, 0, 1, e]⟩

/-- A line is printed to 100 mm of filament. -/
def firstPrint : List (LocateEvent ℚ) :=
  [.load 0, .setFilePosition 700, .recordGcodeBegin (extrudedTo 95) (GCodeMove.init 0).toGcodeState,
    .recordGcodeEnd (extrudedTo 100)]

/-- A runout right behind the line. -/
def firstRunout : List (LocateEvent ℚ) :=
  firstPrint ++ [.edge ![0, 0, 1, 98], .runoutBegin, .f108]

theorem resumesPrint_of_condition_first :
    Run (fun s e t => t = s.step e ∧ s.ResumesPrint e) (.init noOffset 500) firstRunout
      (firstRunout.foldl LocatePrintingGcode.step (.init noOffset 500)) := by
  refine LocatePrintingGcode.resumesPrint_of_condition (Run.cons ⟨rfl, trivial⟩
    (Run.cons ⟨rfl, trivial⟩ (Run.cons ⟨rfl, trivial⟩ (Run.cons ⟨rfl, trivial⟩
      (Run.cons ⟨rfl, trivial⟩ (Run.cons ⟨rfl, trivial⟩
        (Run.single ⟨rfl, fun _ info hinfo => ?_⟩)))))))
  exact ⟨Option.some_ne_none 1, rfl, Or.inr rfl⟩

/-- The file ends and 80 mm of filament are taken back; the next file is loaded, and the filament
ends before one of its lines is recorded. -/
def nextRunout : List (LocateEvent ℚ) :=
  firstPrint ++ [.finish, .load 0, .edge ![0, 0, 1, 20], .runoutBegin]

/-- The next print goes on at the line of the first one. -/
theorem resumes_earlier_print :
    let s := nextRunout.foldl LocatePrintingGcode.step (.init noOffset 500)
    Run (fun s e t => t = s.step e) (.init noOffset 500) nextRunout s ∧
      s.openPrint = some 2 ∧ s.used.map (fun u => u.1.print) = some (some 1) ∧
      (s.step .f108).filePosition = 700 := by
  exact ⟨Run.iff_foldl.mpr rfl, rfl, by decide +kernel, by decide +kernel⟩

end FlsunT1.Klippy
