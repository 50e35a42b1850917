/-
  Klippy/GcodePosition.lean --- the toolhead stands at the scaled g-code position.

  `cmd_G1` scales the position it sends to the toolhead; `SET_GCODE_OFFSET` and
  `RESTORE_GCODE_STATE` send theirs as it is, and `reset_last_position` reads the
  commanded position back as it is.  The tie between the two positions therefore
  survives these exactly where the scaling does nothing.
-/
import Mathlib.Tactic.FinCases
import Mathlib.Tactic.Linarith
import FlsunT1.Klippy.GcodeMachine

set_option autoImplicit false

namespace FlsunT1.Klippy

open Library GCodeMove

variable {K : Type} [Field K] [LinearOrder K] {cfg : PrinterConfig K} {num : Numerals K}

/-! ## Positions -/

/-- The same X, Y and Z. -/
def SameXyz (p q : Position K) : Prop := p 0 = q 0 ∧ p 1 = q 1 ∧ p 2 = q 2

/-- The scaling leaves the position alone: it is at the top, or on the axes that have a
size offset it is 0. -/
def Unscaled (cfg : PrinterConfig K) (maxZ : K) (p : Position K) : Prop :=
  maxZ - 25 / 10 < p 2 ∨ (p 0 * cfg.xSizeOffset = 0 ∧ p 1 * cfg.ySizeOffset = 0)

theorem caliPosition_e (maxZ : K) (p : Position K) : caliPosition cfg maxZ p 3 = p 3 := rfl

omit [Field K] [LinearOrder K] in
theorem position_ext {p q : Position K} (h : SameXyz p q) (he : p 3 = q 3) : p = q := by
  obtain ⟨h0, h1, h2⟩ := h
  funext i
  fin_cases i
  · exact h0
  · exact h1
  · exact h2
  · exact he

theorem caliPosition_eq_self_iff (hflag : cfg.sizeFlag = false) (maxZ : K) (p : Position K) :
    caliPosition cfg maxZ p = p ↔ Unscaled cfg maxZ p := by
  have hxy : caliPosition cfg maxZ p = p ↔
      p 0 * (realSizeOffset cfg maxZ p).1 = 0 ∧ p 1 * (realSizeOffset cfg maxZ p).2 = 0 := by
    constructor
    · intro h
      have h0 : p 0 * (1 + (realSizeOffset cfg maxZ p).1) = p 0 := congrFun h 0
      have h1 : p 1 * (1 + (realSizeOffset cfg maxZ p).2) = p 1 := congrFun h 1
      rw [mul_add, mul_one, add_eq_left] at h0 h1
      exact ⟨h0, h1⟩
    · rintro ⟨h0, h1⟩
      refine position_ext ⟨?_, ?_, rfl⟩ (caliPosition_e maxZ p)
      · show p 0 * (1 + (realSizeOffset cfg maxZ p).1) = p 0
        rw [mul_add, mul_one, h0, add_zero]
      · show p 1 * (1 + (realSizeOffset cfg maxZ p).2) = p 1
        rw [mul_add, mul_one, h1, add_zero]
  rw [hxy, Unscaled, realSizeOffset, hflag]
  split
  · simp [*]
  · simp [*]

/-- A move ends at a position when it is a move there, or when it is too short to be one
and starts there. -/
theorem endPos_eq_iff {start newpos p : Position K} (he : newpos 3 = p 3) :
    endPos start newpos = p ↔
      if ExtrudeOnly start newpos then SameXyz start p else newpos = p := by
  rw [endPos]
  split
  · constructor
    · rintro rfl
      exact ⟨rfl, rfl, rfl⟩
    · intro h
      exact position_ext h he
  · rfl

/-! ## The tie and what keeps it -/

/-- The toolhead is where the scaled position of the g-code is. -/
def Tied (cfg : PrinterConfig K) (m : Machine K) : Prop :=
  m.commandedPos = caliPosition cfg m.gcodeMove.maxZ m.gcodeMove.lastPosition

/-- An unscaled move from `start` to `p` leads to the scaled `p`. -/
def MoveKeeps (cfg : PrinterConfig K) (maxZ : K) (start p : Position K) : Prop :=
  if ExtrudeOnly start p then SameXyz start (caliPosition cfg maxZ p) else Unscaled cfg maxZ p

theorem endPos_cali_iff (hflag : cfg.sizeFlag = false) {maxZ : K} {start p : Position K} :
    endPos start p = caliPosition cfg maxZ p ↔ MoveKeeps cfg maxZ start p := by
  rw [endPos_eq_iff (caliPosition_e maxZ p).symm, MoveKeeps]
  split
  · rfl
  · rw [eq_comm, caliPosition_eq_self_iff hflag]

/-- Where the toolhead is before the second of the moves back. -/
def restoreStart (cfg : PrinterConfig K) (m : Machine K) (state : GcodeState K) : Position K :=
  if hasRoom cfg state (m.gcodeMove.restoreTarget cfg state 2) 60 then
    endPos m.commandedPos (m.gcodeMove.positionXy state)
  else m.commandedPos

/-- The condition on a restore with its moves: the move back keeps the tie, or where there
is no room for it the toolhead is at the restored position already. -/
def RestoreKeeps (cfg : PrinterConfig K) (m : Machine K) (state : GcodeState K) : Prop :=
  if hasRoom cfg state (m.gcodeMove.restoreTarget cfg state 2) 1 then
    MoveKeeps cfg m.gcodeMove.maxZ (restoreStart cfg m state) (m.gcodeMove.restoreTarget cfg state)
  else
    SameXyz m.commandedPos
      (caliPosition cfg m.gcodeMove.maxZ (m.gcodeMove.restoreTarget cfg state))

/-- The condition on an event, on its command and on the state before it. -/
def EventKeeps (cfg : PrinterConfig K) (num : Numerals K) (m : Machine K) : Event K → Prop
  | .command .g1 gcmd _ => ∀ p, readMove num gcmd = .ok p →
      ExtrudeOnly m.commandedPos
        (caliPosition cfg m.gcodeMove.maxZ (m.gcodeMove.target p)) →
      SameXyz m.commandedPos (caliPosition cfg m.gcodeMove.maxZ (m.gcodeMove.target p))
  | .command .setGcodeOffset gcmd _ => ∀ offsets speed,
      readOffsets num gcmd m.gcodeMove.homingPosition = .ok offsets →
      moveSpeed num gcmd m.gcodeMove.speed = .ok (some speed) →
      MoveKeeps cfg m.gcodeMove.maxZ m.commandedPos (m.gcodeMove.offsetTarget offsets)
  | .command .restoreGcodeState gcmd _ => ∀ state speed,
      m.gcodeMove.savedStates (stateName gcmd) = some state →
      moveSpeed num gcmd state.speed = .ok (some speed) → RestoreKeeps cfg m state
  | .resetLastPosition =>
      m.gcodeMove.isPrinterReady = true →
      Unscaled cfg m.gcodeMove.maxZ m.gcodeMove.lastPosition
  | _ => True

/-- What an event is to leave: the tie, and after a reset the g-code position it met. -/
def KeepsPosition (cfg : PrinterConfig K) (m : Machine K) (e : Event K) (t : Machine K) : Prop :=
  Tied cfg t ∧ (e = .resetLastPosition → t.gcodeMove.lastPosition = m.gcodeMove.lastPosition)

/-! ## One step -/

theorem still_keeps {m : Machine K} (hm : Tied cfg m) {g : GCodeMove K}
    (hlast : g.lastPosition = m.gcodeMove.lastPosition) (hmax : g.maxZ = m.gcodeMove.maxZ) :
    endPosOf m.commandedPos [] = caliPosition cfg g.maxZ g.lastPosition := by
  rw [hlast, hmax]
  exact hm

theorem cmdG1_keeps_iff {m : Machine K} {gcmd : GCodeCommand} {sur : Surroundings K}
    {g : GCodeMove K} {actions : List (Action K)}
    (h : m.gcodeMove.cmdG1 cfg num m.workMode sur.status gcmd = .ok (g, actions)) :
    endPosOf m.commandedPos (moves actions) = caliPosition cfg g.maxZ g.lastPosition ↔
      EventKeeps cfg num m (.command .g1 gcmd sur) := by
  obtain ⟨p, hread, hmove⟩ := bind_eq_ok.mp h
  have hg : g = (m.gcodeMove.moveTo cfg m.workMode sur.status p).1 :=
    (congrArg Prod.fst (Except.ok.inj hmove)).symm
  have hactions : actions = (m.gcodeMove.moveTo cfg m.workMode sur.status p).2 :=
    (congrArg Prod.snd (Except.ok.inj hmove)).symm
  obtain ⟨hlast, -, hmax, -⟩ := m.gcodeMove.moveTo_frame cfg m.workMode sur.status p
  rw [hg, hactions, moves_moveTo, hlast, hmax]
  show endPos m.commandedPos _ = _ ↔ _
  rw [endPos_eq_iff rfl]
  constructor
  · intro hif p' hread' hshort
    cases hread.symm.trans hread'
    rwa [if_pos hshort] at hif
  · intro hkeeps
    split
    · exact hkeeps p hread ‹_›
    · rfl

theorem cmdSetGcodeOffset_keeps_iff (hflag : cfg.sizeFlag = false) {m : Machine K}
    (hm : Tied cfg m) {gcmd : GCodeCommand} {sur : Surroundings K} {g : GCodeMove K}
    {actions : List (Action K)}
    (h : m.gcodeMove.cmdSetGcodeOffset num gcmd = .ok (g, actions)) :
    endPosOf m.commandedPos (moves actions) = caliPosition cfg g.maxZ g.lastPosition ↔
      EventKeeps cfg num m (.command .setGcodeOffset gcmd sur) := by
  obtain ⟨offsets, hoffsets, h⟩ := bind_eq_ok.mp h
  obtain ⟨speed, hspeed, h⟩ := bind_eq_ok.mp h
  cases speed with
  | none =>
    cases h
    refine iff_of_true (still_keeps hm rfl rfl) ?_
    intro offsets' speed' _ hspeed'
    cases hspeed.symm.trans hspeed'
  | some speed =>
    cases h
    refine (endPos_cali_iff hflag).trans ?_
    constructor
    · intro hend offsets' speed' hoffsets' _
      cases hoffsets.symm.trans hoffsets'
      exact hend
    · intro hkeeps
      exact hkeeps offsets speed hoffsets hspeed

/-- The moves back lead from the start of the second one to the restored position, or,
where there is no room for it, nowhere. -/
theorem endPosOf_restoreMoves [IsStrictOrderedRing K] (m : Machine K) (state : GcodeState K)
    (speed : K) :
    endPosOf m.commandedPos (moves (m.gcodeMove.restoreMoves cfg state speed)) =
      if hasRoom cfg state (m.gcodeMove.restoreTarget cfg state 2) 1 then
        endPos (restoreStart cfg m state) (m.gcodeMove.restoreTarget cfg state)
      else m.commandedPos := by
  have hroom (z : K) (h60 : hasRoom cfg state z 60 = true) : hasRoom cfg state z 1 = true := by
    simp only [hasRoom, decide_eq_true_eq] at h60 ⊢
    linarith
  rw [restoreMoves, restoreStart]
  cases h60 : hasRoom cfg state (m.gcodeMove.restoreTarget cfg state 2) 60 with
  | true =>
    rw [hroom _ h60]
    rfl
  | false =>
    cases hasRoom cfg state (m.gcodeMove.restoreTarget cfg state 2) 1 <;> rfl

theorem cmdRestoreGcodeState_keeps_iff [IsStrictOrderedRing K] (hflag : cfg.sizeFlag = false)
    {m : Machine K} (hm : Tied cfg m) {gcmd : GCodeCommand} {sur : Surroundings K}
    {g : GCodeMove K} {actions : List (Action K)}
    (h : m.gcodeMove.cmdRestoreGcodeState cfg num gcmd = .ok (g, actions)) :
    endPosOf m.commandedPos (moves actions) = caliPosition cfg g.maxZ g.lastPosition ↔
      EventKeeps cfg num m (.command .restoreGcodeState gcmd sur) := by
  rw [cmdRestoreGcodeState] at h
  cases hstate : m.gcodeMove.savedStates (stateName gcmd) with
  | none => rw [hstate] at h; cases h
  | some state =>
    rw [hstate] at h
    obtain ⟨speed, hspeed, h⟩ := bind_eq_ok.mp h
    cases speed with
    | none =>
      cases h
      refine iff_of_true (still_keeps hm rfl rfl) ?_
      intro state' speed' hstate' hspeed'
      cases hstate.symm.trans hstate'
      cases hspeed.symm.trans hspeed'
    | some speed =>
      have hkeeps : EventKeeps cfg num m (.command .restoreGcodeState gcmd sur) ↔
          RestoreKeeps cfg m state := by
        constructor
        · intro hall
          exact hall state speed hstate hspeed
        · intro hkeeps state' speed' hstate' _
          cases hstate.symm.trans hstate'
          exact hkeeps
      rw [hkeeps, RestoreKeeps]
      cases h
      show endPosOf m.commandedPos (moves (m.gcodeMove.restoreMoves cfg state speed)) =
        caliPosition cfg m.gcodeMove.maxZ (m.gcodeMove.restoreTarget cfg state) ↔ _
      rw [endPosOf_restoreMoves]
      split
      · exact endPos_cali_iff hflag
      · constructor
        · intro hpos
          rw [hpos]
          exact ⟨rfl, rfl, rfl⟩
        · intro hpos
          apply position_ext hpos
          have he : m.gcodeMove.restoreTarget cfg state 3 = m.gcodeMove.lastPosition 3 := by
            rw [restoreTarget]
            split <;> rfl
          rw [hm, caliPosition_e, caliPosition_e, he]

theorem cmdG92_still {gcmd : GCodeCommand} {g g' : GCodeMove K} (h : g.cmdG92 num gcmd = .ok g') :
    g'.lastPosition = g.lastPosition ∧ g'.maxZ = g.maxZ := by
  obtain ⟨offsets, -, h⟩ := bind_eq_ok.mp h
  cases h
  rw [setBase]
  split <;> exact ⟨rfl, rfl⟩

theorem cmdM220_still {gcmd : GCodeCommand} {g g' : GCodeMove K}
    (h : g.cmdM220 num gcmd = .ok g') :
    g'.lastPosition = g.lastPosition ∧ g'.maxZ = g.maxZ := by
  obtain ⟨s, -, h⟩ := bind_eq_ok.mp h
  cases h
  exact ⟨rfl, rfl⟩

theorem cmdM221_still {gcmd : GCodeCommand} {g g' : GCodeMove K}
    (h : g.cmdM221 num gcmd = .ok g') :
    g'.lastPosition = g.lastPosition ∧ g'.maxZ = g.maxZ := by
  obtain ⟨s, -, h⟩ := bind_eq_ok.mp h
  cases h
  exact ⟨rfl, rfl⟩

/-- Reading the commanded position back keeps the tie, and the g-code position, if and
only if the position is unscaled. -/
theorem resetLastPosition_keeps_iff (hflag : cfg.sizeFlag = false) {m t : Machine K}
    (hm : Tied cfg m) (h : m.step cfg num .resetLastPosition = .ok t) :
    KeepsPosition cfg m .resetLastPosition t ↔ EventKeeps cfg num m .resetLastPosition := by
  cases h
  rw [KeepsPosition, Tied, EventKeeps, ← caliPosition_eq_self_iff hflag, resetLastPosition]
  cases m.gcodeMove.isPrinterReady with
  | false => exact iff_of_true ⟨hm, fun _ => rfl⟩ (fun hready => absurd hready Bool.false_ne_true)
  | true =>
    constructor
    · rintro ⟨-, hlast⟩ _
      exact hm.symm.trans (hlast rfl)
    · intro hself
      have hpos : m.commandedPos = m.gcodeMove.lastPosition := hm.trans (hself rfl)
      refine ⟨?_, fun _ => hpos⟩
      show m.commandedPos = caliPosition cfg m.gcodeMove.maxZ m.commandedPos
      rw [hpos, hself rfl]

/-- One step from a state with the tie: it leaves what it is to leave if and only if its
condition holds. -/
theorem keepsPosition_iff [IsStrictOrderedRing K] (hflag : cfg.sizeFlag = false) {m t : Machine K}
    {e : Event K} (hm : Tied cfg m) (h : m.step cfg num e = .ok t) :
    KeepsPosition cfg m e t ↔ EventKeeps cfg num m e := by
  cases e with
  | command name gcmd sur =>
    obtain ⟨actions, hrun, hperform, -⟩ := Machine.step_command h
    have htied : KeepsPosition cfg m (.command name gcmd sur) t ↔
        endPosOf m.commandedPos (moves actions) =
          caliPosition cfg t.gcodeMove.maxZ t.gcodeMove.lastPosition := by
      rw [KeepsPosition, Tied, perform_eq hperform]
      refine and_iff_left ?_
      intro hreset
      cases hreset
    rw [htied]
    generalize t.gcodeMove = g at hrun
    cases name with
    | g1 => exact cmdG1_keeps_iff hrun
    | setGcodeOffset => exact cmdSetGcodeOffset_keeps_iff hflag hm hrun
    | restoreGcodeState => exact cmdRestoreGcodeState_keeps_iff hflag hm hrun
    | g92 =>
      obtain ⟨hcmd, rfl⟩ := map_pair_eq hrun
      obtain ⟨hlast, hmax⟩ := cmdG92_still hcmd
      exact iff_of_true (still_keeps hm hlast hmax) trivial
    | m220 =>
      obtain ⟨hcmd, rfl⟩ := map_pair_eq hrun
      obtain ⟨hlast, hmax⟩ := cmdM220_still hcmd
      exact iff_of_true (still_keeps hm hlast hmax) trivial
    | m221 =>
      obtain ⟨hcmd, rfl⟩ := map_pair_eq hrun
      obtain ⟨hlast, hmax⟩ := cmdM221_still hcmd
      exact iff_of_true (still_keeps hm hlast hmax) trivial
    | m82 | m83 | g90 | g91 | saveGcodeState =>
      cases hrun
      exact iff_of_true hm trivial
  | resetLastPosition => exact resetLastPosition_keeps_iff hflag hm h
  | printerWorkmode mode =>
    cases h
    exact iff_of_true ⟨hm, fun hreset => nomatch hreset⟩ trivial

/-! ## Runs -/

/-- From a state with the tie, a run keeps the toolhead at the scaled position after each
of its steps, and the g-code position at each reset, if and only if each of its events
meets its condition. -/
theorem keepsPosition_run_iff [IsStrictOrderedRing K] (cfg : PrinterConfig K)
    (num : Numerals K) (hflag : cfg.sizeFlag = false) {m : Machine K} (hm : Tied cfg m)
    (es : List (Event K)) (t : Machine K) :
    Run (fun m e t => Machine.step cfg num m e = .ok t ∧ KeepsPosition cfg m e t) m es t ↔
      Run (fun m e t => Machine.step cfg num m e = .ok t ∧ EventKeeps cfg num m e) m es t := by
  apply Run.restrict_iff hm
  · intro m e t hm hstep
    exact keepsPosition_iff hflag hm hstep
  · intro m e t _ _ hkeeps
    exact hkeeps.1

theorem init_tied (hflag : cfg.sizeFlag = false) (workMode : Int) : Tied cfg (.init 0 workMode) :=
  ((caliPosition_eq_self_iff hflag _ _).mpr (.inr ⟨zero_mul _, zero_mul _⟩)).symm

/-- `G1 X100` -/
def moveX : Event ℚ := .command .g1 ⟨"G1 X100", [("X", "100")]⟩ .idle

/-- `SET_GCODE_OFFSET Z_ADJUST=1 MOVE=1` -/
def moveOffset : Event ℚ := .command .setGcodeOffset
  ⟨"SET_GCODE_OFFSET Z_ADJUST=1 MOVE=1", [("Z_ADJUST", "1"), ("MOVE", "1")]⟩ .idle

/-- The numerals of the two commands. -/
def moveNumerals : Numerals ℚ := numerals [("100", 100), ("1", 1)]

theorem exists_run_moves :
    ∃ t, Run (fun m e t => Machine.step scaledPrinter moveNumerals m e = .ok t) (.init 0 0)
        [moveX, moveOffset] t ∧
      t.commandedPos 0 ≠ caliPosition scaledPrinter t.gcodeMove.maxZ t.gcodeMove.lastPosition 0 := by
  have hany : ([moveX, moveOffset].foldlM
      (fun m e => (Machine.step scaledPrinter moveNumerals m e).toOption)
      (Machine.init 0 0)).any (fun t => t.commandedPos 0 ≠
        caliPosition scaledPrinter t.gcodeMove.maxZ t.gcodeMove.lastPosition 0) = true := by
    decide +kernel
  obtain ⟨t, hrun, hpos⟩ := Run.exists_of_any hany
  exact ⟨t, by simpa only [toOption_eq_some] using hrun, of_decide_eq_true hpos⟩

theorem keepsPosition_moveX :
    ∃ t, Run (fun m e t => Machine.step scaledPrinter moveNumerals m e = .ok t ∧
      KeepsPosition scaledPrinter m e t) (.init 0 0) [moveX] t := by
  obtain ⟨s, hmoves, -⟩ := exists_run_moves
  obtain ⟨t, ht, -⟩ := hmoves.exists_last [moveX]
  refine ⟨t, (keepsPosition_run_iff scaledPrinter _ rfl (init_tied rfl 0) [moveX] t).mpr ?_⟩
  obtain ⟨u, hu, hstep⟩ := ht.exists_last []
  rw [hu.eq_of_nil] at hstep
  refine .single ⟨hstep, ?_⟩
  intro p hread hshort
  cases hread
  exact absurd hshort (by decide +kernel)

/-- The move of an offset goes to the unscaled position. -/
theorem keepsPosition_offset_lost :
    ¬ ∀ es t,
      Run (fun m e t => Machine.step scaledPrinter moveNumerals m e = .ok t) (.init 0 0) es t →
      Run (fun m e t => Machine.step scaledPrinter moveNumerals m e = .ok t ∧
        KeepsPosition scaledPrinter m e t) (.init 0 0) es t := by
  intro hall
  obtain ⟨t, hrun, hpos⟩ := exists_run_moves
  have hkeeps := hall _ t hrun
  have htied : Tied scaledPrinter t :=
    hkeeps.invariant (init_tied rfl 0) (fun _ _ _ _ h => h.2.1)
  exact hpos (congrFun htied 0)

end FlsunT1.Klippy
