/-
  Klippy/DeltaKinematics.lean --- the checks of a move by the kinematics of a delta
  (klippy/kinematics/delta.py).

  A move is built as in klippy/toolhead.py and is checked where the toolhead submits it.  The
  square root is a parameter: what is proved here does not depend on it.
-/
import FlsunT1.Klippy.GcodeMachine
import FlsunT1.Klippy.ToolHead
import FlsunT1.Klippy.VelocityLimits

set_option autoImplicit false

namespace FlsunT1.Klippy

open Library

/-- The numerals of the towers rest on this instance. -/
instance neZeroTowers : NeZero 3 := ⟨three_ne_zero⟩

variable {K : Type} [Field K] [LinearOrder K]

/-! ## Moves -/

/-- `class Move`, up to its place in the look-ahead queue. -/
structure Move (K : Type) where
  startPos : Position K
  endPos : Position K
  accel : K
  axesD : Position K
  moveD : K
  isKinematicMove : Bool
  minMoveT : K
  maxCruiseV2 : K
  deltaV2 : K
  smoothDeltaV2 : K

namespace Move

/-- `Move.__init__` -/
def init (sqrt : K → K) (limits : ToolheadLimits K) (startPos endPos : Position K) (speed : K) :
    Move K :=
  let moveD := sqrt (moveDSq startPos endPos)
  if moveD < 1 / 10 ^ 9 then
    let moveD := |endPos 3 - startPos 3|
    { startPos := startPos
      endPos := Function.update startPos 3 (endPos 3)
      accel := 99999999 + 9 / 10
      axesD := ![0, 0, 0, endPos 3 - startPos 3]
      moveD := moveD
      isKinematicMove := false
      minMoveT := moveD / speed
      maxCruiseV2 := speed ^ 2
      deltaV2 := 2 * moveD * (99999999 + 9 / 10)
      smoothDeltaV2 := 2 * moveD * limits.maxAccelToDecel }
  else
    let velocity := min speed limits.maxVelocity
    { startPos := startPos
      endPos := endPos
      accel := limits.maxAccel
      axesD := fun i => endPos i - startPos i
      moveD := moveD
      isKinematicMove := true
      minMoveT := moveD / velocity
      maxCruiseV2 := velocity ^ 2
      deltaV2 := 2 * moveD * limits.maxAccel
      smoothDeltaV2 := 2 * moveD * limits.maxAccelToDecel }

/-- `limit_speed` -/
def limitSpeed (move : Move K) (speed accel : K) : Move K :=
  let slower := speed ^ 2 < move.maxCruiseV2
  let newAccel := min move.accel accel
  let deltaV2 := 2 * move.moveD * newAccel
  { move with
    maxCruiseV2 := if slower then speed ^ 2 else move.maxCruiseV2
    minMoveT := if slower then move.moveD / speed else move.minMoveT
    accel := newAccel
    deltaV2 := deltaV2
    smoothDeltaV2 := min move.smoothDeltaV2 deltaV2 }

end Move

/-- What stops a check: a `move_error` with its text and end position, or the error of `math.sqrt`
at a negative number. -/
inductive CheckError (K : Type)
  | moveError (msg : String) (endPos : Position K)
  | mathDomain

/-! ## The kinematics -/

/-- What `DeltaKinematics.__init__` computes from the configuration. -/
structure DeltaConfig (K : Type) where
  maxVelocity : K
  maxAccel : K
  maxZAccel : K
  arm2 : Fin 3 → K
  absEndstops : Fin 3 → K
  towers : Fin 3 → K × K
  homePosition : Fin 3 → K
  maxZ : K
  minZ : K
  normalMinZ : K
  limitZ : K
  slowXy2 : K
  verySlowXy2 : K
  maxXy2 : K

/-- What changes of `DeltaKinematics`. -/
structure DeltaKinematics (K : Type) where
  needHome : Bool
  limitXy2 : K
  maxZVelocity : K

/-- `pos[0]**2 + pos[1]**2` -/
def xy2 (pos : Position K) : K := pos 0 ^ 2 + pos 1 ^ 2

namespace DeltaKinematics

/-- The state after `__init__`. -/
def init (maxZVelocity : K) : DeltaKinematics K := ⟨true, -1, maxZVelocity⟩

/-- `limit_xy2` is reset. -/
def reset (kin : DeltaKinematics K) : DeltaKinematics K := { kin with limitXy2 := -1 }

/-- `set_position`, without the positions of the steppers. -/
def setPosition (homingAxes : List ℕ) (kin : DeltaKinematics K) : DeltaKinematics K :=
  { kin.reset with needHome := if homingAxes = [0, 1, 2] then false else kin.needHome }

/-- `_motor_off` -/
def motorOff (kin : DeltaKinematics K) : DeltaKinematics K := { kin.reset with needHome := true }

variable (cfg : DeltaConfig K) (sqrt : K → K)

/-- A Z that only a drip move may go to. -/
def Lowered (queuing : QueuingState) (z : K) : Prop := queuing ≠ .drip ∧ z < cfg.normalMinZ

instance (queuing : QueuingState) (z : K) : Decidable (Lowered cfg queuing z) :=
  inferInstanceAs (Decidable (_ ∧ _))

/-- The move is out of range, which the end of a homing move may be. -/
def OutOfRange (queuing : QueuingState) (endPos : Position K) : Prop :=
  cfg.maxXy2 < xy2 endPos ∨ cfg.maxZ < endPos 2 ∨ endPos 2 < cfg.minZ ∨
    Lowered cfg queuing (endPos 2)

instance (queuing : QueuingState) (endPos : Position K) :
    Decidable (OutOfRange cfg queuing endPos) :=
  inferInstanceAs (Decidable (_ ∨ _))

/-- The move does not end above the towers within the home position. -/
def NotHoming (queuing : QueuingState) (endPos : Position K) : Prop :=
  (endPos 0, endPos 1) ≠ (cfg.homePosition 0, cfg.homePosition 1) ∨ endPos 2 < cfg.minZ ∨
    Lowered cfg queuing (endPos 2) ∨ cfg.homePosition 2 < endPos 2

instance (queuing : QueuingState) (endPos : Position K) :
    Decidable (NotHoming cfg queuing endPos) :=
  inferInstanceAs (Decidable (_ ∨ _))

/-- The first part of `check_move` after its fast path: the range, with the value of `limit_xy2`. -/
def checkRange (queuing : QueuingState) (endPos : Position K) : Except (CheckError K) K :=
  if OutOfRange cfg queuing endPos then
    if NotHoming cfg queuing endPos then .error (.moveError "Move out of range" endPos)
    else .ok (-1)
  else .ok cfg.maxXy2

/-- `math.sqrt` -/
def mathSqrt (x : K) : Except (CheckError K) K := if x < 0 then .error .mathDomain else .ok (sqrt x)

/-- The height of the carriage of a tower: `ha`, `hb` and `hc`. -/
def carriageHeight (i : Fin 3) (endPos : Position K) : Except (CheckError K) K := do
  let root ← mathSqrt sqrt (cfg.arm2 i - (endPos 0 - (cfg.towers i).1) ^ 2 -
    (endPos 1 - (cfg.towers i).2) ^ 2)
  return root + endPos 2

/-- The second part: the heights of the carriages, above `limit_z`. -/
def checkHeight (endPos : Position K) (limitXy2 : K) : Except (CheckError K) K :=
  if cfg.limitZ < endPos 2 then do
    let ha ← carriageHeight cfg sqrt 0 endPos
    let hb ← carriageHeight cfg sqrt 1 endPos
    let hc ← carriageHeight cfg sqrt 2 endPos
    if cfg.absEndstops 0 + 1 / 100 < ha ∨ cfg.absEndstops 1 + 1 / 100 < hb ∨
        cfg.absEndstops 2 + 1 / 100 < hc then
      .error (.moveError "Move out of range" endPos)
    else .ok (-1)
  else .ok limitXy2

/-- The third part: the limits of Z. -/
def limitZMove (kin : DeltaKinematics K) (move : Move K) (limitXy2 : K) : Move K × K :=
  if move.axesD 2 = 0 then (move, limitXy2)
  else
    let zRatio := move.moveD / |move.axesD 2|
    (move.limitSpeed (kin.maxZVelocity * zRatio) (cfg.maxZAccel * zRatio), -1)

/-- The last part: the limits at the extreme end of the build envelope. -/
def limitExtreme (move : Move K) (limitXy2 : K) : Move K × K :=
  let extremeXy2 := max (xy2 move.endPos) (xy2 move.startPos)
  if cfg.slowXy2 < extremeXy2 then
    let r : K := if cfg.verySlowXy2 < extremeXy2 then 1 / 4 else 1 / 2
    (move.limitSpeed (cfg.maxVelocity * r) (cfg.maxAccel * r), -1)
  else (move, limitXy2)

/-- `check_move` after its fast path. -/
def checkSlow (queuing : QueuingState) (kin : DeltaKinematics K) (move : Move K) :
    Except (CheckError K) (DeltaKinematics K × Move K) := do
  if kin.needHome then .error (.moveError "Must home first" move.endPos)
  let limitXy2 ← checkRange cfg queuing move.endPos
  let limitXy2 ← checkHeight cfg sqrt move.endPos limitXy2
  let limited := limitZMove cfg kin move limitXy2
  let limited := limitExtreme cfg limited.1 limited.2
  return ({ kin with limitXy2 := min limited.2 cfg.slowXy2 }, limited.1)

/-- `check_move` -/
def checkMove (queuing : QueuingState) (kin : DeltaKinematics K) (move : Move K) :
    Except (CheckError K) (DeltaKinematics K × Move K) :=
  if xy2 move.endPos ≤ kin.limitXy2 ∧ move.axesD 2 = 0 then .ok (kin, move)
  else checkSlow cfg sqrt queuing kin move

/-- How a move is judged: what stops it, or the move with its limits. -/
def judge (queuing : QueuingState) (kin : DeltaKinematics K) (move : Move K) :
    Except (CheckError K) (Move K) :=
  (checkMove cfg sqrt queuing kin move).map Prod.snd

end DeltaKinematics

/-! ## The toolhead over the kinematics -/

/-- The toolhead, as far as the checks read it. -/
structure DeltaToolhead (K : Type) where
  commandedPos : Position K
  kin : DeltaKinematics K

/-- What reaches the toolhead and its kinematics.  Homing and probing are made of these: the
positions that they set, their drip moves and the retracting move between. -/
inductive KinEvent (K : Type)
  /-- `move`, with what the toolhead and the extruder say at that time -/
  | move (newpos : Position K) (speed : K) (queuing : QueuingState) (limits : ToolheadLimits K)
      (extruderAccepts : Move K → Bool)
  | setPosition (newpos : Position K) (homingAxes : List ℕ)
  | setExtruder (extrudePos : K)
  | motorOff
  /-- the work mode sets `max_z_velocity` -/
  | setMaxZVelocity (v : K)

namespace DeltaToolhead

variable (cfg : DeltaConfig K) (sqrt : K → K)

/-- The toolhead after the kinematics are built. -/
def init (maxZVelocity : K) : DeltaToolhead K := ⟨0, .init maxZVelocity⟩

/-- `move`, from a state of the kinematics. -/
def move (kin : DeltaKinematics K) (newpos : Position K) (speed : K) (queuing : QueuingState)
    (limits : ToolheadLimits K) (extruderAccepts : Move K → Bool) (s : DeltaToolhead K) :
    DeltaToolhead K :=
  let move := Move.init sqrt limits s.commandedPos newpos speed
  if move.moveD = 0 then s
  else
    let checked :=
      if move.isKinematicMove then kin.checkMove cfg sqrt queuing move else .ok (kin, move)
    match checked with
    | .error _ => s
    | .ok (kin, checkedMove) =>
      if move.axesD 3 ≠ 0 ∧ !extruderAccepts checkedMove then { s with kin := kin }
      else ⟨move.endPos, kin⟩

/-- The toolhead takes an event. -/
def apply (s : DeltaToolhead K) : KinEvent K → DeltaToolhead K
  | .move newpos speed queuing limits extruderAccepts =>
    s.move cfg sqrt s.kin newpos speed queuing limits extruderAccepts
  | .setPosition newpos homingAxes => ⟨newpos, s.kin.setPosition homingAxes⟩
  | .setExtruder extrudePos => { s with commandedPos := Function.update s.commandedPos 3 extrudePos }
  | .motorOff => { s with kin := s.kin.motorOff }
  | .setMaxZVelocity v => { s with kin := { s.kin with maxZVelocity := v } }

/-- A drip move changes Z. -/
def DripMovesZ (s : DeltaToolhead K) : KinEvent K → Prop
  | .move newpos _ queuing _ _ => queuing = .drip → newpos 2 ≠ s.commandedPos 2
  | _ => True

/-- A step of the toolhead. -/
def Step (s : DeltaToolhead K) (e : KinEvent K) (t : DeltaToolhead K) : Prop :=
  s.DripMovesZ e ∧ t = s.apply cfg sqrt e

end DeltaToolhead

/-! ## What the cache stands for -/

/-- A height at which an XY move is neither out of range nor slowed. -/
structure InHeight (cfg : DeltaConfig K) (z : K) : Prop where
  minZ : cfg.minZ ≤ z
  maxZ : z ≤ cfg.maxZ
  normalMinZ : cfg.normalMinZ ≤ z
  limitZ : z ≤ cfg.limitZ

namespace Move

variable {sqrt : K → K} {limits : ToolheadLimits K} {startPos endPos : Position K} {speed : K}

@[simp] theorem startPos_init : (init sqrt limits startPos endPos speed).startPos = startPos := by
  unfold init
  dsimp only
  split <;> rfl

theorem endPos_init (h : (init sqrt limits startPos endPos speed).isKinematicMove = true) :
    (init sqrt limits startPos endPos speed).endPos = endPos := by
  unfold init at h ⊢
  dsimp only at h ⊢
  split at h
  · cases h
  · rename_i hlong
    rw [if_neg hlong]

theorem axesD_init (h : (init sqrt limits startPos endPos speed).isKinematicMove = true) :
    (init sqrt limits startPos endPos speed).axesD 2 = endPos 2 - startPos 2 := by
  unfold init at h ⊢
  dsimp only at h ⊢
  split at h
  · cases h
  · rename_i hlong
    rw [if_neg hlong]

theorem endPos_init_still
    (h : (init sqrt limits startPos endPos speed).isKinematicMove = false) :
    (init sqrt limits startPos endPos speed).endPos =
      Function.update startPos 3 (endPos 3) := by
  unfold init at h ⊢
  dsimp only at h ⊢
  split at h
  · rename_i hshort
    rw [if_pos hshort]
  · cases h

end Move

namespace DeltaKinematics

variable {cfg : DeltaConfig K} {sqrt : K → K} {queuing : QueuingState} {kin kin' : DeltaKinematics K}
variable {move move' : Move K}

theorem outOfRange_of_inHeight {endPos : Position K} (hz : InHeight cfg (endPos 2))
    (hxy : xy2 endPos ≤ cfg.maxXy2) : ¬ OutOfRange cfg queuing endPos := by
  rintro (h | h | h | h)
  · exact absurd h (not_lt_of_ge hxy)
  · exact absurd h (not_lt_of_ge hz.maxZ)
  · exact absurd h (not_lt_of_ge hz.minZ)
  · exact absurd h.2 (not_lt_of_ge hz.normalMinZ)

theorem checkSlow_of_inHeight (hhome : kin.needHome = false) (hz : InHeight cfg (move.endPos 2))
    (hmax : xy2 move.endPos ≤ cfg.maxXy2) (hend : xy2 move.endPos ≤ cfg.slowXy2)
    (hstart : xy2 move.startPos ≤ cfg.slowXy2) (hd : move.axesD 2 = 0) :
    checkSlow cfg sqrt queuing kin move =
      .ok ({ kin with limitXy2 := min cfg.maxXy2 cfg.slowXy2 }, move) := by
  have hrange : checkRange cfg queuing move.endPos = .ok cfg.maxXy2 :=
    if_neg (outOfRange_of_inHeight hz hmax)
  have hheight : checkHeight cfg sqrt move.endPos cfg.maxXy2 = .ok cfg.maxXy2 :=
    if_neg (not_lt_of_ge hz.limitZ)
  have hextreme : limitExtreme cfg move cfg.maxXy2 = (move, cfg.maxXy2) :=
    if_neg (not_lt_of_ge (max_le hend hstart))
  have hzmove : limitZMove cfg kin move cfg.maxXy2 = (move, cfg.maxXy2) := if_pos hd
  unfold checkSlow
  rw [hhome, if_neg Bool.false_ne_true]
  refine bind_eq_ok.mpr ⟨_, hrange, bind_eq_ok.mpr ⟨_, hheight, ?_⟩⟩
  dsimp only
  rw [hzmove, hextreme]
  rfl

variable [IsStrictOrderedRing K]

theorem not_outOfRange_of_checkRange {limitXy2 : K} {endPos : Position K}
    (h : checkRange cfg queuing endPos = .ok limitXy2) (hpos : 0 ≤ limitXy2) :
    ¬ OutOfRange cfg queuing endPos ∧ limitXy2 = cfg.maxXy2 := by
  unfold checkRange at h
  split at h
  · split at h
    · cases h
    · obtain rfl := Except.ok.inj h
      exact absurd hpos (not_le_of_gt neg_one_lt_zero)
  · rename_i hin
    exact ⟨hin, (Except.ok.inj h).symm⟩

/-- Above `limit_z` nothing is cached. -/
theorem le_limitZ_of_checkHeight {limitXy2 limitXy2' : K} {endPos : Position K}
    (h : checkHeight cfg sqrt endPos limitXy2 = .ok limitXy2') (hpos : 0 ≤ limitXy2') :
    endPos 2 ≤ cfg.limitZ ∧ limitXy2' = limitXy2 := by
  unfold checkHeight at h
  split at h
  · obtain ⟨ha, -, h⟩ := bind_eq_ok.mp h
    obtain ⟨hb, -, h⟩ := bind_eq_ok.mp h
    obtain ⟨hc, -, h⟩ := bind_eq_ok.mp h
    split at h
    · cases h
    · obtain rfl := Except.ok.inj h
      exact absurd hpos (not_le_of_gt neg_one_lt_zero)
  · rename_i hle
    exact ⟨le_of_not_gt hle, (Except.ok.inj h).symm⟩

theorem axesD_of_limitZMove {limitXy2 : K} (hpos : 0 ≤ (limitZMove cfg kin move limitXy2).2) :
    move.axesD 2 = 0 ∧ limitZMove cfg kin move limitXy2 = (move, limitXy2) := by
  unfold limitZMove at hpos ⊢
  split at hpos
  · rename_i hd
    exact ⟨hd, if_pos hd⟩
  · exact absurd hpos (not_le_of_gt neg_one_lt_zero)

theorem extreme_of_limitExtreme {limitXy2 : K} (hpos : 0 ≤ (limitExtreme cfg move limitXy2).2) :
    xy2 move.endPos ≤ cfg.slowXy2 ∧ xy2 move.startPos ≤ cfg.slowXy2 ∧
      limitExtreme cfg move limitXy2 = (move, limitXy2) := by
  unfold limitExtreme at hpos ⊢
  dsimp only at hpos ⊢
  split at hpos
  · exact absurd hpos (not_le_of_gt neg_one_lt_zero)
  · rename_i hle
    obtain ⟨hend, hstart⟩ := max_le_iff.mp (le_of_not_gt hle)
    exact ⟨hend, hstart, if_neg hle⟩

/-- What a check has established that leaves a cache. -/
structure Cached (cfg : DeltaConfig K) (queuing : QueuingState) (kin kin' : DeltaKinematics K)
    (move : Move K) : Prop where
  homed : kin.needHome = false
  inRange : ¬ OutOfRange cfg queuing move.endPos
  limitZ : move.endPos 2 ≤ cfg.limitZ
  axesD : move.axesD 2 = 0
  endPos : xy2 move.endPos ≤ cfg.slowXy2
  startPos : xy2 move.startPos ≤ cfg.slowXy2
  kin_eq : kin' = { kin with limitXy2 := min cfg.maxXy2 cfg.slowXy2 }

theorem cached_of_checkSlow (h : checkSlow cfg sqrt queuing kin move = .ok (kin', move'))
    (hpos : 0 ≤ kin'.limitXy2) : Cached cfg queuing kin kin' move := by
  unfold checkSlow at h
  split at h
  · cases h
  · rename_i hhome
    obtain ⟨r₁, hrange, h⟩ := bind_eq_ok.mp h
    obtain ⟨r₂, hheight, h⟩ := bind_eq_ok.mp h
    obtain ⟨hkin, -⟩ := Prod.mk.inj (Except.ok.inj h)
    rw [← hkin] at hpos
    obtain ⟨hlast, -⟩ := le_min_iff.mp hpos
    obtain ⟨hend, hstart, hextreme⟩ := extreme_of_limitExtreme hlast
    rw [hextreme] at hlast hkin
    obtain ⟨hd, hzmove⟩ := axesD_of_limitZMove hlast
    rw [hzmove] at hlast hkin hstart hend
    obtain ⟨hz, rfl⟩ := le_limitZ_of_checkHeight hheight hlast
    obtain ⟨hin, rfl⟩ := not_outOfRange_of_checkRange hrange hlast
    exact ⟨Bool.not_eq_true _ |>.mp hhome, hin, hz, hd, hend, hstart, hkin.symm⟩

end DeltaKinematics

/-! ## The invariant -/

namespace DeltaToolhead

variable {cfg : DeltaConfig K} {sqrt : K → K} {s t : DeltaToolhead K} {es : List (KinEvent K)}

/-- What a cache that is set tells of the kinematics and of the commanded position. -/
structure Trusted (cfg : DeltaConfig K) (s : DeltaToolhead K) : Prop where
  homed : s.kin.needHome = false
  limit : s.kin.limitXy2 = min cfg.maxXy2 cfg.slowXy2
  height : InHeight cfg (s.commandedPos 2)
  slow : xy2 s.commandedPos ≤ cfg.slowXy2

/-- A cache is trusted unless it is reset. -/
def Sound (cfg : DeltaConfig K) (s : DeltaToolhead K) : Prop :=
  0 ≤ s.kin.limitXy2 → Trusted cfg s

/-- What a move leaves: the state as it was, or the kinematics after its check with the commanded
position as it was, as it was in X, Y and Z, or where the move ends. -/
theorem move_cases (kin : DeltaKinematics K) (newpos : Position K) (speed : K)
    (queuing : QueuingState) (limits : ToolheadLimits K) (extruderAccepts : Move K → Bool)
    (ht : t = s.move cfg sqrt kin newpos speed queuing limits extruderAccepts) :
    t = s ∨
    (t.kin = kin ∧ ∃ e, t.commandedPos = Function.update s.commandedPos 3 e) ∨
    ((Move.init sqrt limits s.commandedPos newpos speed).isKinematicMove = true ∧
      ∃ checked, kin.checkMove cfg sqrt queuing
          (Move.init sqrt limits s.commandedPos newpos speed) = .ok (t.kin, checked) ∧
        (t.commandedPos = s.commandedPos ∨ t.commandedPos = newpos)) := by
  unfold move at ht
  dsimp only at ht
  generalize hm : Move.init sqrt limits s.commandedPos newpos speed = m at ht ⊢
  split at ht
  · exact .inl ht
  · split at ht
    · exact .inl ht
    · rename_i kin' checked hchecked
      cases hkm : m.isKinematicMove with
      | false =>
        rw [hkm, if_neg Bool.false_ne_true] at hchecked
        obtain ⟨rfl, rfl⟩ := Prod.mk.inj (Except.ok.inj hchecked)
        refine .inr (.inl ?_)
        split at ht
        · rw [ht]
          exact ⟨rfl, s.commandedPos 3, (Function.update_eq_self _ _).symm⟩
        · rw [ht]
          refine ⟨rfl, newpos 3, ?_⟩
          rw [← hm] at hkm ⊢
          exact Move.endPos_init_still hkm
      | true =>
        rw [hkm, if_pos rfl] at hchecked
        refine .inr (.inr ⟨rfl, checked, ?_⟩)
        split at ht
        · rw [ht]
          exact ⟨hchecked, .inl rfl⟩
        · rw [ht]
          refine ⟨hchecked, .inr ?_⟩
          rw [← hm] at hkm ⊢
          exact Move.endPos_init hkm

theorem Trusted.update (h : Trusted cfg s) (hkin : t.kin.needHome = s.kin.needHome)
    (hlimit : t.kin.limitXy2 = s.kin.limitXy2) {e : K}
    (hpos : t.commandedPos = Function.update s.commandedPos 3 e) : Trusted cfg t where
  homed := hkin.trans h.homed
  limit := hlimit.trans h.limit
  height := by
    rw [hpos]
    exact h.height
  slow := by
    rw [hpos]
    exact h.slow

theorem Trusted.fast (h : Trusted cfg s) {newpos : Position K} (hz : newpos 2 = s.commandedPos 2)
    (hxy : xy2 newpos ≤ s.kin.limitXy2) :
    InHeight cfg (newpos 2) ∧ xy2 newpos ≤ cfg.maxXy2 ∧ xy2 newpos ≤ cfg.slowXy2 := by
  rw [h.limit] at hxy
  obtain ⟨hmax, hslow⟩ := le_min_iff.mp hxy
  rw [hz]
  exact ⟨h.height, hmax, hslow⟩

variable [IsStrictOrderedRing K]

theorem xy2_nonneg (pos : Position K) : 0 ≤ xy2 pos := add_nonneg (sq_nonneg _) (sq_nonneg _)

theorem sound_of_reset (h : s.kin.limitXy2 = -1) : Sound cfg s := by
  intro hpos
  rw [h] at hpos
  exact absurd hpos (not_le_of_gt neg_one_lt_zero)

/-- A move of the toolhead is judged as it is with the cache reset. -/
theorem judge_reset (h : Sound cfg s) {newpos : Position K} {speed : K} {queuing : QueuingState}
    {limits : ToolheadLimits K}
    (hkm : (Move.init sqrt limits s.commandedPos newpos speed).isKinematicMove = true) :
    s.kin.judge cfg sqrt queuing (Move.init sqrt limits s.commandedPos newpos speed) =
      s.kin.reset.judge cfg sqrt queuing (Move.init sqrt limits s.commandedPos newpos speed) := by
  have hend := Move.endPos_init hkm
  have hdz := Move.axesD_init hkm
  have hstart : (Move.init sqrt limits s.commandedPos newpos speed).startPos = s.commandedPos :=
    Move.startPos_init
  generalize Move.init sqrt limits s.commandedPos newpos speed = m at *
  have hreset : s.kin.reset.checkMove cfg sqrt queuing m = s.kin.checkSlow cfg sqrt queuing m := by
    refine if_neg fun hfast => absurd ((xy2_nonneg _).trans hfast.1) ?_
    exact not_le_of_gt neg_one_lt_zero
  unfold DeltaKinematics.judge
  rw [hreset]
  unfold DeltaKinematics.checkMove
  split
  · rename_i hfast
    have htrusted := h ((xy2_nonneg _).trans hfast.1)
    rw [hend] at hfast
    obtain ⟨hz, hmax, hslow⟩ := htrusted.fast (sub_eq_zero.mp (hdz.symm.trans hfast.2)) hfast.1
    rw [← hend] at hz hmax hslow
    have hslow' : xy2 m.startPos ≤ cfg.slowXy2 := by
      rw [hstart]
      exact htrusted.slow
    rw [DeltaKinematics.checkSlow_of_inHeight htrusted.homed hz hmax hslow hslow' hfast.2]
    rfl
  · rfl

/-- A check that leaves a cache can be trusted with it, whether the move is made or not. -/
theorem sound_checked {newpos : Position K} {speed : K} {queuing : QueuingState}
    {limits : ToolheadLimits K} {checked : Move K} (h : Sound cfg s)
    (hdrip : queuing = .drip → newpos 2 ≠ s.commandedPos 2)
    (hkm : (Move.init sqrt limits s.commandedPos newpos speed).isKinematicMove = true)
    (hcheck : s.kin.checkMove cfg sqrt queuing
      (Move.init sqrt limits s.commandedPos newpos speed) = .ok (t.kin, checked))
    (ht : t.commandedPos = s.commandedPos ∨ t.commandedPos = newpos) : Sound cfg t := by
  have hend := Move.endPos_init hkm
  have hdz := Move.axesD_init hkm
  have hstart : (Move.init sqrt limits s.commandedPos newpos speed).startPos = s.commandedPos :=
    Move.startPos_init
  generalize Move.init sqrt limits s.commandedPos newpos speed = m at *
  intro hpos
  unfold DeltaKinematics.checkMove at hcheck
  split at hcheck
  · rename_i hfast
    obtain ⟨hkin, -⟩ := Prod.mk.inj (Except.ok.inj hcheck)
    rw [← hkin] at hpos
    have htrusted := h hpos
    rw [hend] at hfast
    have hz := sub_eq_zero.mp (hdz.symm.trans hfast.2)
    obtain ⟨hheight, -, hslow⟩ := htrusted.fast hz hfast.1
    constructor
    · rw [← hkin]
      exact htrusted.homed
    · rw [← hkin]
      exact htrusted.limit
    · obtain ht | ht := ht
      · rw [ht]
        exact htrusted.height
      · rw [ht]
        exact hheight
    · obtain ht | ht := ht
      · rw [ht]
        exact htrusted.slow
      · rw [ht]
        exact hslow
  · have hcached := DeltaKinematics.cached_of_checkSlow hcheck hpos
    have hz : newpos 2 = s.commandedPos 2 := sub_eq_zero.mp (hdz.symm.trans hcached.axesD)
    have hmain : queuing ≠ .drip := fun hq => hdrip hq hz
    have hrange := hcached.inRange
    simp only [DeltaKinematics.OutOfRange, DeltaKinematics.Lowered, hend, not_or, not_and,
      not_lt] at hrange
    have hheight : InHeight cfg (newpos 2) :=
      ⟨hrange.2.2.1, hrange.2.1, hrange.2.2.2 hmain, hend ▸ hcached.limitZ⟩
    constructor
    · rw [hcached.kin_eq]
      exact hcached.homed
    · rw [hcached.kin_eq]
    · obtain ht | ht := ht
      · rw [ht, ← hz]
        exact hheight
      · rw [ht]
        exact hheight
    · obtain ht | ht := ht
      · rw [ht, ← hstart]
        exact hcached.startPos
      · rw [ht, ← hend]
        exact hcached.endPos

theorem sound_init (maxZVelocity : K) : Sound cfg (init maxZVelocity) := sound_of_reset rfl

theorem sound_step {e : KinEvent K} (h : Sound cfg s) (hstep : Step cfg sqrt s e t) :
    Sound cfg t := by
  obtain ⟨hdrip, ht⟩ := hstep
  cases e with
  | move newpos speed queuing limits extruderAccepts =>
    obtain rfl | ⟨hkin, e, hpos⟩ | ⟨hkm, checked, hcheck, hpos⟩ := move_cases _ _ _ _ _ _ ht
    · exact h
    · intro hlimit
      rw [hkin] at hlimit
      exact (h hlimit).update (by rw [hkin]) (by rw [hkin]) hpos
    · exact sound_checked h hdrip hkm hcheck hpos
  | setPosition newpos homingAxes =>
    rw [ht]
    exact sound_of_reset rfl
  | setExtruder extrudePos =>
    rw [ht]
    exact fun hlimit => (h hlimit).update rfl rfl rfl
  | motorOff =>
    rw [ht]
    exact sound_of_reset rfl
  | setMaxZVelocity v =>
    rw [ht]
    refine fun hlimit => (h hlimit).update (e := s.commandedPos 3) rfl rfl ?_
    exact (Function.update_eq_self _ _).symm

theorem sound_of_run {maxZVelocity : K} (h : Run (Step cfg sqrt) (init maxZVelocity) es s) :
    Sound cfg s :=
  h.invariant (sound_init maxZVelocity) fun _ _ _ hsound hstep => sound_step hsound hstep

/-- After every run, the next move of the toolhead is accepted, rejected and limited by `check_move`
as it is with `limit_xy2` reset to -1. -/
theorem checkMove_transparent {maxZVelocity : K}
    (h : Run (Step cfg sqrt) (init maxZVelocity) es s) (newpos : Position K) (speed : K)
    (queuing : QueuingState) (limits : ToolheadLimits K)
    (hkm : (Move.init sqrt limits s.commandedPos newpos speed).isKinematicMove = true) :
    s.kin.judge cfg sqrt queuing (Move.init sqrt limits s.commandedPos newpos speed) =
      s.kin.reset.judge cfg sqrt queuing (Move.init sqrt limits s.commandedPos newpos speed) :=
  judge_reset (sound_of_run h) hkm

/-- After a home and a move to (3, 4) the move back is judged on the fast path. -/
theorem checkMove_transparent_back :
    let cfg : DeltaConfig ℚ :=
      { maxVelocity := 400, maxAccel := 10000, maxZAccel := 1000, arm2 := fun _ => 100000
        absEndstops := fun _ => 600, towers := ![(-100, -50), (100, -50), (0, 110)]
        homePosition := ![0, 0, 330], maxZ := 330, minZ := -10, normalMinZ := -1, limitZ := 280
        slowXy2 := 64, verySlowXy2 := 81, maxXy2 := 100 }
    let sqrt : ℚ → ℚ := fun x => x.num.toNat.sqrt / x.den.sqrt
    let limits : ToolheadLimits ℚ := .init (141 / 100) ⟨400, 10000, 5000, 5⟩
    ∃ s : DeltaToolhead ℚ, s.commandedPos = ![3, 4, 0, 0] ∧ s.kin.limitXy2 = 64 ∧
      s.kin.judge cfg sqrt .main (Move.init sqrt limits s.commandedPos 0 100) =
        s.kin.reset.judge cfg sqrt .main (Move.init sqrt limits s.commandedPos 0 100) := by
  intro cfg sqrt limits
  have h : Run (Step cfg sqrt) (init 50)
      [.setPosition 0 [0, 1, 2], .move ![3, 4, 0, 0] 100 .main limits fun _ => true] _ :=
    (Run.single ⟨trivial, rfl⟩).append (.single ⟨fun hq => absurd hq (by decide), rfl⟩)
  exact ⟨_, by decide +kernel, by decide +kernel,
    checkMove_transparent h 0 100 .main limits (by decide +kernel)⟩

end DeltaToolhead

end FlsunT1.Klippy
