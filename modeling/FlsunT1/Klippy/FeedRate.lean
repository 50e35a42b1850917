/-
  Klippy/FeedRate.lean --- the speed of moves and the feed rate in effect.

  `GCodeMove` keeps one speed, already multiplied by the speed factor, and a second one
  while the travel of silent mode is held back.  Beside them goes the feed rate that the
  commands set, save and restore; the speeds of the moves are compared with it.
-/
import FlsunT1.Klippy.GcodeMachine
import Mathlib.Tactic.Linarith

set_option autoImplicit false

namespace FlsunT1.Klippy

open Library GCodeMove

variable {K : Type} [Field K] [LinearOrder K] {cfg : PrinterConfig K} {num : Numerals K}

/-! ## The feed rate in effect -/

/-- The last `F`, and the one in effect at each save. -/
structure Feed (K : Type) where
  feed : K
  saved : String → K

/-- The feed rate of a printer that starts: 25 at a factor of a sixtieth. -/
def Feed.init : Feed K := ⟨1500, fun _ => 1500⟩

/-- The feed rate after an event. -/
def Feed.next (num : Numerals K) (F : Feed K) : Event K → Feed K
  | .command .g1 gcmd _ =>
      match readMove num gcmd with
      | .ok p => { F with feed := p.feed.getD F.feed }
      | .error _ => F
  | .command .saveGcodeState gcmd _ =>
      { F with saved := Function.update F.saved (stateName gcmd) F.feed }
  | .command .restoreGcodeState gcmd _ => { F with feed := F.saved (stateName gcmd) }
  | _ => F

/-- One event, beside the feed rate. -/
def FeedStep (cfg : PrinterConfig K) (num : Numerals K) (s : Machine K × Feed K) (e : Event K)
    (t : Machine K × Feed K) : Prop :=
  s.1.step cfg num e = .ok t.1 ∧ t.2 = s.2.next num e

/-- The one move of a G1 has the speed that its parameters and the feed rate ask for. -/
def FeedMoves (cfg : PrinterConfig K) (num : Numerals K) (s : Machine K × Feed K) :
    Event K → Prop
  | .command .g1 gcmd sur => ∀ p g actions,
      readMove num gcmd = .ok p →
      s.1.gcodeMove.cmdG1 cfg num s.1.workMode sur.status gcmd = .ok (g, actions) →
      ∃ newpos speed, moves actions = [(newpos, speed)] ∧
        (p.axes 3 ≠ none → speed = p.feed.getD s.2.feed * s.1.gcodeMove.speedFactor) ∧
        (p.axes 3 = none → s.1.workMode = 3 →
          speed = min (p.feed.getD s.2.feed * s.1.gcodeMove.speedFactor) cfg.paceSpeed)
  | _ => True

/-- The condition on an event: a new speed factor only while no travel is held back, and a
restore only of the speed that belongs to its feed rate and the current factor. -/
def FeedCondition (num : Numerals K) (s : Machine K × Feed K) : Event K → Prop
  | .command .m220 gcmd _ => ∀ value, gcmd.getFloat num "S" .aboveZero = .ok value →
      s.1.gcodeMove.preSpeed ≤ 0 ∨ value.getD 100 / (60 * 100) = s.1.gcodeMove.speedFactor
  | .command .restoreGcodeState gcmd _ => ∀ state,
      s.1.gcodeMove.savedStates (stateName gcmd) = some state →
      (s.1.gcodeMove.preSpeed ≤ 0 ∧
        state.speed = s.2.saved (stateName gcmd) * s.1.gcodeMove.speedFactor) ∨
      (0 < s.1.gcodeMove.preSpeed ∧ state.speed = s.1.gcodeMove.speed ∧
        s.2.saved (stateName gcmd) = s.2.feed)
  | _ => True

/-! ## The invariant -/

/-- The speed is the feed rate times the factor, or it is the pace of a travel and the
other copy is that product. -/
def SpeedKept (cfg : PrinterConfig K) (g : GCodeMove K) (feed : K) : Prop :=
  (g.preSpeed ≤ 0 ∧ g.speed = feed * g.speedFactor) ∨
  (0 < g.preSpeed ∧ g.preSpeed = feed * g.speedFactor ∧
    g.speed = cfg.paceSpeed ∧ cfg.paceSpeed < g.preSpeed)

structure FeedKept (cfg : PrinterConfig K) (s : Machine K × Feed K) : Prop where
  feed_pos : 0 < s.2.feed
  saved_pos : ∀ name, 0 < s.2.saved name
  factor_pos : 0 < s.1.gcodeMove.speedFactor
  speedKept : SpeedKept cfg s.1.gcodeMove s.2.feed

/-! ## A move -/

theorem pace_speed_extrude {g : GCodeMove K} {feed : K} (h : SpeedKept cfg g feed)
    (workMode : Int) : (g.pace cfg true workMode).speed = feed * g.speedFactor := by
  rw [pace, if_neg (by simp)]
  obtain ⟨hneg, hspeed⟩ | ⟨hpos, hpre, -, -⟩ := h
  · rw [if_neg hneg.not_gt, hspeed]
  · rw [if_pos hpos]
    exact hpre

theorem pace_speed_travel {g : GCodeMove K} {feed : K} (h : SpeedKept cfg g feed) :
    (g.pace cfg false 3).speed = min (feed * g.speedFactor) cfg.paceSpeed := by
  rw [pace, if_pos (by simp)]
  obtain ⟨-, hspeed⟩ | ⟨-, hpre, hspeed, hslow⟩ := h
  · rw [← hspeed]
    split
    · rename_i hfast
      exact (min_eq_right hfast.le).symm
    · rename_i hslow
      exact (min_eq_left (not_lt.mp hslow)).symm
  · rw [hspeed, if_neg (lt_irrefl _), ← hpre, min_eq_right hslow.le, hspeed]

variable [IsStrictOrderedRing K]

theorem setFeed_speedKept {g : GCodeMove K} {feed : K} (h : SpeedKept cfg g feed)
    (f : Option K) : SpeedKept cfg (g.setFeed f) (f.getD feed) := by
  cases f with
  | none => exact h
  | some gcodeSpeed => exact .inl ⟨by simp [setFeed], rfl⟩

theorem pace_speedKept {g : GCodeMove K} {feed : K} (hfeed : 0 < feed * g.speedFactor)
    (h : SpeedKept cfg g feed) (hasE : Bool) (workMode : Int) :
    SpeedKept cfg (g.pace cfg hasE workMode) feed := by
  rw [pace]
  split
  · split
    · rename_i hfast
      obtain ⟨hpre, hspeed⟩ | ⟨-, -, hspeed, -⟩ := h
      · exact .inr ⟨hspeed ▸ hfeed, hspeed, rfl, hfast⟩
      · exact absurd hspeed hfast.ne'
    · exact h
  · split
    · rename_i hpre
      obtain ⟨hneg, -⟩ | ⟨-, hpre', -, -⟩ := h
      · exact absurd hpre hneg.not_gt
      · exact .inl ⟨by simp, hpre'⟩
    · exact h

/-- What a move leaves and the speed it asks for. -/
theorem moveTo_speedKept {g : GCodeMove K} {feed : K} (hfeed : 0 < feed)
    (hfactor : 0 < g.speedFactor) (h : SpeedKept cfg g feed) {p : MoveParams K}
    (hp : ∀ f, p.feed = some f → 0 < f) (workMode : Int) (status : PrintStatus) :
    SpeedKept cfg (g.moveTo cfg workMode status p).1 (p.feed.getD feed) ∧
    (p.axes 3 ≠ none →
      (g.moveTo cfg workMode status p).1.speed = p.feed.getD feed * g.speedFactor) ∧
    (p.axes 3 = none → workMode = 3 →
      (g.moveTo cfg workMode status p).1.speed =
        min (p.feed.getD feed * g.speedFactor) cfg.paceSpeed) := by
  obtain ⟨g', hsame, heq⟩ := g.moveTo_state cfg workMode status p
  have hspeed : g'.speed = g.speed := by rw [hsame.state]
  have hfactor' : g'.speedFactor = g.speedFactor := by rw [hsame.state]
  have hkept : SpeedKept cfg g' feed := by
    rw [SpeedKept, hsame.preSpeed, hspeed, hfactor']
    exact h
  have hfed := setFeed_speedKept hkept p.feed
  have hfedFactor : (g'.setFeed p.feed).speedFactor = g.speedFactor := by
    rw [setFeed_eq, ← hfactor']
  have hpos : 0 < p.feed.getD feed := by
    cases hf : p.feed with
    | none => exact hfeed
    | some f => exact hp f hf
  rw [heq, ← hfedFactor]
  refine ⟨?_, ?_, ?_⟩
  · apply pace_speedKept _ hfed
    rw [hfedFactor]
    exact mul_pos hpos hfactor
  · intro he
    rw [Option.isSome_iff_ne_none.mpr he]
    exact pace_speed_extrude hfed workMode
  · intro he hmode
    rw [he, hmode]
    exact pace_speed_travel hfed

/-! ## One step -/

omit [IsStrictOrderedRing K] in
theorem FeedKept.congr {m t : Machine K} {F : Feed K} (h : FeedKept cfg (m, F))
    (hpre : t.gcodeMove.preSpeed = m.gcodeMove.preSpeed)
    (hspeed : t.gcodeMove.speed = m.gcodeMove.speed)
    (hfactor : t.gcodeMove.speedFactor = m.gcodeMove.speedFactor) : FeedKept cfg (t, F) := by
  refine ⟨h.feed_pos, h.saved_pos, hfactor ▸ h.factor_pos, ?_⟩
  rw [SpeedKept, hpre, hspeed, hfactor]
  exact h.speedKept

theorem cmdG1_feedKept {m t : Machine K} {F : Feed K} (hs : FeedKept cfg (m, F))
    {gcmd : GCodeCommand} {sur : Surroundings K} {actions : List (Action K)}
    (h : m.gcodeMove.cmdG1 cfg num m.workMode sur.status gcmd = .ok (t.gcodeMove, actions)) :
    FeedKept cfg (t, F.next num (.command .g1 gcmd sur)) := by
  obtain ⟨p, hread, hmove⟩ := bind_eq_ok.mp h
  have hg : t.gcodeMove = (m.gcodeMove.moveTo cfg m.workMode sur.status p).1 :=
    (congrArg Prod.fst (Except.ok.inj hmove)).symm
  have hfeed (f : K) (hf : p.feed = some f) : 0 < f := readMove_feed_pos hread hf
  obtain ⟨hkept, -⟩ := moveTo_speedKept hs.feed_pos hs.factor_pos hs.speedKept hfeed
    m.workMode sur.status
  obtain ⟨-, hfactor, -⟩ := m.gcodeMove.moveTo_frame cfg m.workMode sur.status p
  have hnext : F.next num (.command .g1 gcmd sur) = { F with feed := p.feed.getD F.feed } := by
    rw [Feed.next, hread]
  rw [hnext]
  refine ⟨?_, hs.saved_pos, ?_, hg ▸ hkept⟩
  · show 0 < p.feed.getD F.feed
    cases hf : p.feed with
    | none => exact hs.feed_pos
    | some f => exact hfeed f hf
  · show 0 < t.gcodeMove.speedFactor
    rw [hg, hfactor]
    exact hs.factor_pos

theorem feedMoves_of_feedKept {s : Machine K × Feed K} (hs : FeedKept cfg s) (e : Event K) :
    FeedMoves cfg num s e := by
  cases e with
  | command name gcmd sur =>
    cases name with
    | g1 =>
      intro p g actions hread h
      obtain ⟨p', hread', hmove⟩ := bind_eq_ok.mp h
      cases hread.symm.trans hread'
      cases hmove
      have hfeed (f : K) (hf : p.feed = some f) : 0 < f := readMove_feed_pos hread hf
      obtain ⟨-, hextrude, htravel⟩ := moveTo_speedKept hs.feed_pos hs.factor_pos hs.speedKept
        hfeed s.1.workMode sur.status
      exact ⟨_, _, moves_moveTo .., hextrude, htravel⟩
    | _ => trivial
  | resetLastPosition => trivial
  | printerWorkmode mode => trivial

/-- A new speed factor scales the speed, and not the one that travel holds back. -/
theorem cmdM220_feedKept_iff {m t : Machine K} {F : Feed K} (hs : FeedKept cfg (m, F))
    {gcmd : GCodeCommand} {sur : Surroundings K}
    (h : m.gcodeMove.cmdM220 num gcmd = .ok t.gcodeMove) :
    FeedKept cfg (t, F) ↔ FeedCondition num (m, F) (.command .m220 gcmd sur) := by
  obtain ⟨value, hvalue, h⟩ := bind_eq_ok.mp h
  have hg : t.gcodeMove = m.gcodeMove.setSpeedFactor (value.getD 100 / (60 * 100)) :=
    (Except.ok.inj h).symm
  have hpos : 0 < value.getD 100 / (60 * 100) := by
    cases value with
    | none => simp
    | some v =>
      have hv : 0 < v := GCodeCommand.getFloat_aboveZero hvalue
      exact div_pos hv (by norm_num)
  have hcond : FeedCondition num (m, F) (.command .m220 gcmd sur) ↔
      m.gcodeMove.preSpeed ≤ 0 ∨ value.getD 100 / (60 * 100) = m.gcodeMove.speedFactor := by
    constructor
    · intro hall
      exact hall value hvalue
    · intro hc value' hvalue'
      cases hvalue.symm.trans hvalue'
      exact hc
  rw [hcond]
  generalize value.getD 100 / (60 * 100) = factor at hg hpos
  have hne : m.gcodeMove.speedFactor ≠ 0 := hs.factor_pos.ne'
  have hkept : FeedKept cfg (t, F) ↔ SpeedKept cfg (m.gcodeMove.setSpeedFactor factor) F.feed := by
    constructor
    · intro h
      exact hg ▸ h.speedKept
    · intro h
      refine ⟨hs.feed_pos, hs.saved_pos, ?_, hg ▸ h⟩
      show 0 < t.gcodeMove.speedFactor
      rw [hg]
      exact hpos
  rw [hkept]
  show (m.gcodeMove.preSpeed ≤ 0 ∧
      m.gcodeMove.speed / m.gcodeMove.speedFactor * factor = F.feed * factor) ∨
    (0 < m.gcodeMove.preSpeed ∧ m.gcodeMove.preSpeed = F.feed * factor ∧
      m.gcodeMove.speed / m.gcodeMove.speedFactor * factor = cfg.paceSpeed ∧
      cfg.paceSpeed < m.gcodeMove.preSpeed) ↔ _
  obtain ⟨hneg, hspeed⟩ | ⟨hpre, hpre', hspeed, hslow⟩ := hs.speedKept
  · refine iff_of_true (.inl ⟨hneg, ?_⟩) (.inl hneg)
    rw [hspeed, mul_div_cancel_right₀ _ hne]
  · constructor
    · rintro (⟨hneg, -⟩ | ⟨-, hfactor, -⟩)
      · exact .inl hneg
      · right
        exact mul_left_cancel₀ hs.feed_pos.ne' (hfactor.symm.trans hpre')
    · rintro (hneg | rfl)
      · exact absurd hpre hneg.not_gt
      · rw [div_mul_cancel₀ _ hne]
        exact .inr ⟨hpre, hpre', hspeed, hslow⟩

/-- A restore brings a speed back and leaves the factor and the speed that travel holds
back. -/
theorem cmdRestoreGcodeState_feedKept_iff {m t : Machine K} {F : Feed K}
    (hs : FeedKept cfg (m, F)) {gcmd : GCodeCommand} {sur : Surroundings K}
    {actions : List (Action K)}
    (h : m.gcodeMove.cmdRestoreGcodeState cfg num gcmd = .ok (t.gcodeMove, actions)) :
    FeedKept cfg (t, F.next num (.command .restoreGcodeState gcmd sur)) ↔
      FeedCondition num (m, F) (.command .restoreGcodeState gcmd sur) := by
  rw [cmdRestoreGcodeState] at h
  cases hstate : m.gcodeMove.savedStates (stateName gcmd) with
  | none => rw [hstate] at h; cases h
  | some state =>
    rw [hstate] at h
    obtain ⟨speed, -, h⟩ := bind_eq_ok.mp h
    have hg : t.gcodeMove = (m.gcodeMove.restoreGcodeState cfg state speed).1 :=
      (congrArg Prod.fst (Except.ok.inj h)).symm
    have hspeeds : t.gcodeMove.preSpeed = m.gcodeMove.preSpeed ∧
        t.gcodeMove.speed = state.speed ∧
        t.gcodeMove.speedFactor = m.gcodeMove.speedFactor := by
      rw [hg]
      cases speed <;> exact ⟨rfl, rfl, rfl⟩
    obtain ⟨hpre, hspeed, hfactor⟩ := hspeeds
    have hcond : FeedCondition num (m, F) (.command .restoreGcodeState gcmd sur) ↔
        (m.gcodeMove.preSpeed ≤ 0 ∧
          state.speed = F.saved (stateName gcmd) * m.gcodeMove.speedFactor) ∨
        (0 < m.gcodeMove.preSpeed ∧ state.speed = m.gcodeMove.speed ∧
          F.saved (stateName gcmd) = F.feed) := by
      constructor
      · intro hall
        exact hall state hstate
      · intro hc state' hstate'
        cases hstate.symm.trans hstate'
        exact hc
    have hkept : FeedKept cfg (t, F.next num (.command .restoreGcodeState gcmd sur)) ↔
        SpeedKept cfg t.gcodeMove (F.saved (stateName gcmd)) := by
      constructor
      · exact FeedKept.speedKept
      · intro h
        exact ⟨hs.saved_pos _, hs.saved_pos, hfactor ▸ hs.factor_pos, h⟩
    rw [hcond, hkept, SpeedKept, hpre, hspeed, hfactor]
    obtain ⟨hneg, -⟩ | ⟨hpos, hpre', hspeed', hslow⟩ := hs.speedKept
    · have hnot : ¬ 0 < m.gcodeMove.preSpeed := hneg.not_gt
      simp only [hneg, hnot, true_and, false_and, or_false]
    · have hnot : ¬ m.gcodeMove.preSpeed ≤ 0 := hpos.not_ge
      have hpace : cfg.paceSpeed < m.gcodeMove.preSpeed := hslow
      have hsaved : m.gcodeMove.preSpeed = F.saved (stateName gcmd) * m.gcodeMove.speedFactor ↔
          F.saved (stateName gcmd) = F.feed := by
        rw [hpre', mul_left_inj' hs.factor_pos.ne', eq_comm]
      have hpaced : m.gcodeMove.speed = cfg.paceSpeed := hspeed'
      simp only [hpos, hnot, hpace, hsaved, hpaced, true_and, false_and, false_or, and_true]
      exact and_comm

omit [IsStrictOrderedRing K] in
theorem coordinates_speeds {m : Machine K} {name : Command} {gcmd : GCodeCommand}
    {status : PrintStatus} {g : GCodeMove K} {actions : List (Action K)}
    (h : m.gcodeMove.run cfg num m.workMode status gcmd name = .ok (g, actions))
    (hname : name ≠ .g1 ∧ name ≠ .m220 ∧ name ≠ .restoreGcodeState) :
    g.preSpeed = m.gcodeMove.preSpeed ∧ g.speed = m.gcodeMove.speed ∧
      g.speedFactor = m.gcodeMove.speedFactor := by
  cases name with
  | g1 => exact absurd rfl hname.1
  | m220 => exact absurd rfl hname.2.1
  | restoreGcodeState => exact absurd rfl hname.2.2
  | g92 =>
    obtain ⟨offsets, -, h⟩ := bind_eq_ok.mp (map_pair_eq h).1
    cases h
    rw [setBase]
    split <;> exact ⟨rfl, rfl, rfl⟩
  | m221 =>
    obtain ⟨value, -, h⟩ := bind_eq_ok.mp (map_pair_eq h).1
    cases h
    exact ⟨rfl, rfl, rfl⟩
  | setGcodeOffset =>
    obtain ⟨offsets, -, h⟩ := bind_eq_ok.mp h
    obtain ⟨speed, -, h⟩ := bind_eq_ok.mp h
    cases speed <;> cases h <;> exact ⟨rfl, rfl, rfl⟩
  | m82 | m83 | g90 | g91 | saveGcodeState =>
    cases h
    exact ⟨rfl, rfl, rfl⟩

/-- One event from a state with the invariant keeps it if and only if its condition
holds. -/
theorem feedKept_iff {s t : Machine K × Feed K} {e : Event K} (hs : FeedKept cfg s)
    (h : FeedStep cfg num s e t) : FeedKept cfg t ↔ FeedCondition num s e := by
  obtain ⟨m, F⟩ := s
  obtain ⟨t, F'⟩ := t
  obtain ⟨hstep, rfl⟩ := h
  cases e with
  | command name gcmd sur =>
    obtain ⟨actions, hrun, -, -⟩ := Machine.step_command hstep
    dsimp only at hrun
    cases name with
    | g1 => exact iff_of_true (cmdG1_feedKept hs hrun) trivial
    | m220 => exact cmdM220_feedKept_iff hs (map_pair_eq hrun).1
    | restoreGcodeState => exact cmdRestoreGcodeState_feedKept_iff hs hrun
    | saveGcodeState =>
      obtain ⟨hpre, hspeed, hfactor⟩ := coordinates_speeds hrun (by simp)
      have hkept := hs.congr hpre hspeed hfactor
      refine iff_of_true ⟨hkept.feed_pos, fun name => ?_, hkept.factor_pos, hkept.speedKept⟩ trivial
      show 0 < Function.update F.saved (stateName gcmd) F.feed name
      by_cases hname : name = stateName gcmd
      · rw [hname, Function.update_self]
        exact hs.feed_pos
      · rw [Function.update_of_ne hname]
        exact hs.saved_pos name
    | m82 | m83 | g90 | g91 | g92 | m221 | setGcodeOffset =>
      obtain ⟨hpre, hspeed, hfactor⟩ := coordinates_speeds hrun (by simp)
      exact iff_of_true (hs.congr hpre hspeed hfactor) trivial
  | resetLastPosition =>
    cases hstep
    have hreset := m.gcodeMove.resetLastPosition_eq m.commandedPos
    refine iff_of_true (hs.congr ?_ ?_ ?_) trivial
    · show (m.gcodeMove.resetLastPosition m.commandedPos).preSpeed = _
      rw [hreset]
    · show (m.gcodeMove.resetLastPosition m.commandedPos).speed = _
      rw [hreset]
    · show (m.gcodeMove.resetLastPosition m.commandedPos).speedFactor = _
      rw [hreset]
  | printerWorkmode mode =>
    cases hstep
    exact iff_of_true (hs.congr rfl rfl rfl) trivial

/-! ## Runs -/

theorem init_feedKept (commandedPos : Position K) (workMode : Int) :
    FeedKept cfg (.init commandedPos workMode, .init) := by
  refine ⟨?_, fun name => ?_, ?_, .inl ⟨?_, ?_⟩⟩
  · show (0 : K) < 1500
    norm_num
  · show (0 : K) < 1500
    norm_num
  · show (0 : K) < 1 / 60
    norm_num
  · show (-1 : K) ≤ 0
    norm_num
  · show (25 : K) = 1500 * (1 / 60)
    norm_num

/-- In every run from the start whose events meet their conditions, each G1 asks for a move
at the speed of the feed rate in effect. -/
theorem run_feedMoves (cfg : PrinterConfig K) (num : Numerals K) (commandedPos : Position K)
    (workMode : Int) {es : List (Event K)} {t : Machine K × Feed K}
    (h : Run (fun s e t => FeedStep cfg num s e t ∧ FeedCondition num s e)
      (.init commandedPos workMode, .init) es t) :
    Run (fun s e t => (FeedStep cfg num s e t ∧ FeedCondition num s e) ∧ FeedMoves cfg num s e)
      (.init commandedPos workMode, .init) es t := by
  apply h.forall_steps (init_feedKept commandedPos workMode)
  · intro s e t hs hstep
    exact (feedKept_iff hs hstep.1).mpr hstep.2
  · intro s e t hs _
    exact feedMoves_of_feedKept hs e

/-- `FeedStep`, computed. -/
def feedStep (cfg : PrinterConfig K) (num : Numerals K) (s : Machine K × Feed K) (e : Event K) :
    Option (Machine K × Feed K) :=
  (s.1.step cfg num e).toOption.map (·, s.2.next num e)

omit [IsStrictOrderedRing K] in
theorem feedStep_eq_some {s t : Machine K × Feed K} {e : Event K} :
    feedStep cfg num s e = some t ↔ FeedStep cfg num s e t := by
  rw [feedStep, Option.map_eq_some_iff]
  simp only [toOption_eq_some, FeedStep]
  constructor
  · rintro ⟨m, h, rfl⟩
    exact ⟨h, rfl⟩
  · rintro ⟨h, hnext⟩
    exact ⟨t.1, h, Prod.ext rfl hnext.symm⟩

/-- `G1 X1 F12000`, a travel. -/
def travel : Event ℚ := .command .g1 ⟨"G1 X1 F12000", [("X", "1"), ("F", "12000")]⟩ .idle

/-- `G1 X2 E1` -/
def extrudeCommand : GCodeCommand := ⟨"G1 X2 E1", [("X", "2"), ("E", "1")]⟩

/-- An extrusion. -/
def extrude : Event ℚ := .command .g1 extrudeCommand .idle

/-- Save, `M220 S200`, and restore. -/
def restoreAfterFactor : List (Event ℚ) :=
  [.command .saveGcodeState ⟨"SAVE_GCODE_STATE", []⟩ .idle,
    .command .m220 ⟨"M220 S200", [("S", "200")]⟩ .idle,
    .command .restoreGcodeState ⟨"RESTORE_GCODE_STATE", []⟩ .idle]

/-- The numerals of these commands. -/
def feedNumerals : Numerals ℚ := numerals [("1", 1), ("2", 2), ("200", 200), ("12000", 12000)]

/-- A travel of silent mode and an extrusion after it. -/
theorem run_feedMoves_silent :
    ∃ t, Run (fun s e t => (FeedStep scaledPrinter feedNumerals s e t ∧
        FeedCondition feedNumerals s e) ∧ FeedMoves scaledPrinter feedNumerals s e)
      (.init 0 3, .init) [travel, extrude] t ∧
      t.1.gcodeMove.speed = 200 := by
  have hany : ([travel, extrude].foldlM (feedStep scaledPrinter feedNumerals)
      (.init 0 3, .init)).any (fun t => t.1.gcodeMove.speed = 200) = true := by
    decide +kernel
  obtain ⟨t, hrun, hspeed⟩ := Run.exists_of_any hany
  have hsteps := hrun.mono (fun _ _ _ h => feedStep_eq_some.mp h)
  refine ⟨t, run_feedMoves scaledPrinter feedNumerals 0 3 ?_, of_decide_eq_true hspeed⟩
  obtain ⟨u, hu, hextrude⟩ := hsteps.exists_last [travel]
  obtain ⟨v, hv, htravel⟩ := hu.exists_last []
  rw [hv.eq_of_nil] at htravel
  exact .snoc (.single ⟨htravel, trivial⟩) ⟨hextrude, trivial⟩

/-- A restore after a new speed factor brings back a speed of the factor before it. -/
theorem feedMoves_restore_lost :
    ¬ ∀ es t, Run (FeedStep scaledPrinter feedNumerals) (.init 0 0, .init) es t →
      Run (fun s e t => FeedStep scaledPrinter feedNumerals s e t ∧
        FeedMoves scaledPrinter feedNumerals s e) (.init 0 0, .init) es t := by
  intro hall
  have hany : ((restoreAfterFactor ++ [extrude]).foldlM
      (feedStep scaledPrinter feedNumerals) (.init 0 0, .init)).any (fun _ => true) = true := by
    decide +kernel
  have hlost : (restoreAfterFactor.foldlM (feedStep scaledPrinter feedNumerals)
      (.init 0 0, .init)).all (fun u =>
        (u.1.gcodeMove.cmdG1 scaledPrinter feedNumerals u.1.workMode
          Surroundings.idle.status extrudeCommand).toOption.all
            (fun r => (moves r.2).map (·.2) = [25]) ∧
        u.2.feed * u.1.gcodeMove.speedFactor = 50) = true := by
    decide +kernel
  obtain ⟨t, hrun, -⟩ := Run.exists_of_any hany
  have hmoves := hall _ t (hrun.mono (fun _ _ _ h => feedStep_eq_some.mp h))
  obtain ⟨u, hu, hstep, hextrude⟩ := hmoves.exists_last restoreAfterFactor
  have hfold := Run.iff_foldlM.mp (hu.mono (fun _ _ _ h => feedStep_eq_some.mpr h.1))
  rw [hfold] at hlost
  obtain ⟨hspeeds, hfeed⟩ := of_decide_eq_true hlost
  obtain ⟨actions, hg1, -, -⟩ := Machine.step_command hstep.1
  obtain ⟨newpos, speed, hmove, hspeed, -⟩ := hextrude _ _ actions rfl hg1
  have h50 : speed = 50 := (hspeed (by simp)).trans hfeed
  have h25 : [speed] = [25] := by
    rw [show u.1.gcodeMove.cmdG1 scaledPrinter feedNumerals u.1.workMode
      Surroundings.idle.status extrudeCommand = _ from hg1] at hspeeds
    have := of_decide_eq_true hspeeds
    rwa [hmove] at this
  rw [h50] at h25
  norm_num at h25

end FlsunT1.Klippy
