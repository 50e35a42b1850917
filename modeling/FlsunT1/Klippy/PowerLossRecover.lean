/-
  Klippy/PowerLossRecover.lean --- what `F102` brings back of a saved print.

  The lines of `F102` are followed one after the other.  In absolute coordinates the
  last move ends at the integer parts of the saved position, so it ends at the position
  itself when that is made of integers.
-/
import FlsunT1.Klippy.PowerLossLines
import FlsunT1.Klippy.SaveVariables

set_option autoImplicit false

namespace FlsunT1.Klippy

open Library

variable {K : Type} [Field K] [LinearOrder K]

/-! ## What is saved is read -/

/-- The variables that `F103` saves of a printer. -/
def captured (p : Printer K) : Variables K where
  ePos := some (p.gcodeMove.gcodePosition 3)
  xPos := some (p.gcodeMove.gcodePosition 0)
  yPos := some (p.gcodeMove.gcodePosition 1)
  zPos := some (p.gcodeMove.gcodePosition 2)
  fanSpeed := some p.fan.fraction
  nozzleTemp := some p.nozzleTarget
  bedTemp := some p.bedTarget
  absoluteExtrude := some p.gcodeMove.absoluteExtrude
  absoluteCoordinates := some p.gcodeMove.absoluteCoord
  filamentUsed := some p.filamentUsed
  excludedObjects := some p.excludedObjects
  objectsEnabled := some p.excludeEnabled

theorem readVariables_cmdF103 {p : Printer K} (hprinting : p.isPrinting = true)
    (allVariables : Dict String (Value K)) :
    readVariables (cmdF103 p allVariables) = captured p := by
  rw [cmdF103, if_pos hprinting]
  simp only [readVariables, Dict.get_update, newvars, Dict.get_setAll, List.reverse_cons,
    List.reverse_nil, List.nil_append, List.cons_append, List.lookup_cons]
  simp
  rfl

omit [Field K] [LinearOrder K] in
theorem readVariables_congr {d d' : Dict String (Value K)} (h : ∀ name, d.get name = d'.get name) :
    readVariables d = readVariables d' := by
  simp only [readVariables, h]

/-! ## The lines before the moves -/

variable {cfg : PrinterConfig K} {num : Numerals K} {r : Recovery K}

/-- The printer after the lines before the moves, with what the numbers in them are
read as. -/
def Printer.prepared (r : Recovery K) (absoluteExtrude : Bool) (an ab af ae : K)
    (p : Printer K) : Printer K :=
  { p with
    nozzleTarget := an
    bedTarget := ab
    fan := p.fan.setSpeed (af / 255)
    gcodeMove := ((p.gcodeMove.setAbsoluteExtrude absoluteExtrude).home r.homePosition).setBase
      ![none, none, none, some ae] }

theorem processLine_bare : ∀ line ∈ ["M82", "M83", "G90", "G91", "G28", "M400", "CLEAR_PAUSE"],
    (processLine line).1 = line := by
  decide +kernel

theorem runLine_M82_M83 (p : Printer K) (absoluteExtrude : Bool) :
    p.runLine cfg num r (if absoluteExtrude then "M82" else "M83") =
      .ok { p with gcodeMove := p.gcodeMove.setAbsoluteExtrude absoluteExtrude } := by
  cases absoluteExtrude with
  | true =>
    rw [Printer.runLine, if_pos rfl, processLine_bare _ (by decide)]
    rfl
  | false =>
    rw [Printer.runLine, if_neg Bool.false_ne_true, processLine_bare _ (by decide)]
    rfl

theorem runLine_G90_G91 (p : Printer K) (absolute : Bool) :
    p.runLine cfg num r (if absolute then "G90" else "G91") =
      .ok { p with gcodeMove := p.gcodeMove.setAbsoluteCoord absolute } := by
  cases absolute with
  | true =>
    rw [Printer.runLine, if_pos rfl, processLine_bare _ (by decide)]
    rfl
  | false =>
    rw [Printer.runLine, if_neg Bool.false_ne_true, processLine_bare _ (by decide)]
    rfl

theorem runLine_G28 (p : Printer K) :
    p.runLine cfg num r "G28" = .ok { p with gcodeMove := p.gcodeMove.home r.homePosition } := by
  rw [Printer.runLine, processLine_bare _ (by decide)]
  rfl

/-- The lines for the excluded objects leave the printer alone. -/
theorem runLines_exclude (p : Printer K) (objectsEnabled : Bool) (excludedObjects : List String) :
    p.runLines cfg num r ((if objectsEnabled then [] else ["SET_EXCLUDE_ENABLE ENABLE=0"]) ++
      excludedObjects.map ("EXCLUDE_OBJECT NAME=" ++ ·)) = .ok p := by
  have henable : (processLine "SET_EXCLUDE_ENABLE ENABLE=0").1 = "SET_EXCLUDE_ENABLE" := by
    decide +kernel
  have hexclude (name : String) :
      p.runLine cfg num r ("EXCLUDE_OBJECT NAME=" ++ name) = .ok p := by
    refine runLine_other (processLine_name "EXCLUDE_OBJECT".toList "NAME".toList (by decide) (by decide) (by decide) (by decide)) ?_
    decide
  have hobjects : p.runLines cfg num r (excludedObjects.map ("EXCLUDE_OBJECT NAME=" ++ ·)) =
      .ok p := by
    induction excludedObjects with
    | nil => rfl
    | cons name names ih => rw [List.map_cons, runLines_cons (hexclude name), ih]
  have hstart : p.runLines cfg num r
      (if objectsEnabled then [] else ["SET_EXCLUDE_ENABLE ENABLE=0"]) = .ok p := by
    cases objectsEnabled with
    | true => rfl
    | false =>
      exact (runLines_cons (runLine_other henable List.mem_cons_self) []).trans runLines_nil
  rw [runLines_append hstart, hobjects]

theorem runLines_prepareLines {str : K → String} {ePos fanSpeed nozzleTemp bedTemp an ab af ae : K}
    {p : Printer K} (h140 : ReadsInt num 140) (h50 : ReadsInt num 50)
    (hn : ReadsAs num (str nozzleTemp) an) (hb : ReadsAs num (str bedTemp) ab)
    (hf : ReadsAs num (str (min (max (fanSpeed * 255) 0) 255)) af) (haf : 0 ≤ af)
    (he : ∀ q : Printer K, q.runLine cfg num r ("G92 E" ++ str ePos) =
      .ok { q with gcodeMove := q.gcodeMove.setBase ![none, none, none, some ae] })
    (absoluteExtrude objectsEnabled : Bool) (excludedObjects : List String) :
    p.runLines cfg num r (prepareLines str ePos fanSpeed nozzleTemp bedTemp absoluteExtrude
      objectsEnabled excludedObjects r) = .ok (p.prepared r absoluteExtrude an ab af ae) := by
  have hname : (processLine "SAVE_VARIABLE VARIABLE=plr_flag VALUE=True").1 =
      "SAVE_VARIABLE" := by decide +kernel
  have hsave (q : Printer K) :
      q.runLine cfg num r "SAVE_VARIABLE VARIABLE=plr_flag VALUE=True" = .ok q :=
    runLine_other hname (by decide)
  have hmode (q : Printer K) : q.runLines cfg num r
      [if absoluteExtrude then "M82" else "M83", "G28",
        "SAVE_VARIABLE VARIABLE=plr_flag VALUE=True"] =
      .ok { q with
        gcodeMove := (q.gcodeMove.setAbsoluteExtrude absoluteExtrude).home r.homePosition } := by
    rw [runLines_cons (runLine_M82_M83 _ _), runLines_cons (runLine_G28 _),
      runLines_cons (hsave _), runLines_nil]
  have hfan : (processLine ("M106 S" ++ str (min (max (fanSpeed * 255) 0) 255))).1 = "M106" :=
    (hf opening_M106).1
  rw [prepareLines]
  simp only [List.append_assoc]
  rw [← List.append_assoc (if objectsEnabled then _ else _),
    runLines_append (runLines_exclude p objectsEnabled excludedObjects),
    runLines_append (runLines_heatLines h140 h50 hn hb), runLines_append (hmode _),
    runLines_append (runLines_ite _ (fun _ => runLine_M190 hb) fun _ => rfl),
    runLines_append (runLines_ite _ (fun _ => runLine_M109 hn) fun _ => rfl),
    runLines_cons (runLine_M106 hfan (hf opening_M106).2 haf), runLines_cons (he _), runLines_nil]
  rfl

/-! ## Moves in absolute coordinates -/

namespace GCodeMove

/-- What decides where a move in g-code coordinates ends, the position apart. -/
structure SameCoordinates (g g' : GCodeMove K) : Prop where
  absoluteCoord : g'.absoluteCoord = g.absoluteCoord
  absoluteExtrude : g'.absoluteExtrude = g.absoluteExtrude
  basePosition : g'.basePosition = g.basePosition
  homingPosition : g'.homingPosition = g.homingPosition
  extrudeFactor : g'.extrudeFactor = g.extrudeFactor

theorem moveTo_sameCoordinates (cfg : PrinterConfig K) (workMode : Int) (status : PrintStatus)
    (params : MoveParams K) (g : GCodeMove K) :
    SameCoordinates g (g.moveTo cfg workMode status params).1 := by
  obtain ⟨g', hsame, heq⟩ := g.moveTo_state cfg workMode status params
  have habsolute : g'.absoluteCoord = g.absoluteCoord := by rw [hsame.state]
  have hextrude : g'.absoluteExtrude = g.absoluteExtrude := by rw [hsame.state]
  have hbase : g'.basePosition = g.basePosition := by rw [hsame.state]
  have hhoming : g'.homingPosition = g.homingPosition := by rw [hsame.state]
  have hfactor : g'.extrudeFactor = g.extrudeFactor := by rw [hsame.state]
  rw [heq, pace_eq, setFeed_eq]
  exact ⟨habsolute, hextrude, hbase, hhoming, hfactor⟩

theorem gcodePosition_moveTo (cfg : PrinterConfig K) (workMode : Int) (status : PrintStatus)
    (params : MoveParams K) {g : GCodeMove K} (habsolute : g.absoluteCoord = true) {i : Fin 4}
    (hi : i ≠ 3) :
    (g.moveTo cfg workMode status params).1.gcodePosition i =
      (params.axes i).getD (g.gcodePosition i) := by
  obtain ⟨hlast, -⟩ := g.moveTo_frame cfg workMode status params
  have hbase := (g.moveTo_sameCoordinates cfg workMode status params).basePosition
  rw [gcodePosition, if_neg hi, gcodePosition, if_neg hi, hlast, hbase]
  have htarget : g.target params i =
      axisTarget false (g.basePosition i) (g.lastPosition i) (params.axes i) := by
    rw [target, habsolute]
    exact forall_xyz hi rfl rfl rfl
  rw [htarget]
  cases params.axes i with
  | none => rfl
  | some v => exact add_sub_cancel_right v _

theorem gcodePosition_moveTo_e (cfg : PrinterConfig K) (workMode : Int) (status : PrintStatus)
    (params : MoveParams K) (g : GCodeMove K) (he : params.axes 3 = none) :
    (g.moveTo cfg workMode status params).1.gcodePosition 3 = g.gcodePosition 3 := by
  obtain ⟨hlast, -⟩ := g.moveTo_frame cfg workMode status params
  have hsame := g.moveTo_sameCoordinates cfg workMode status params
  have htarget : g.target params 3 = g.lastPosition 3 := by
    show axisTarget _ _ _ ((params.axes 3).map _) = _
    rw [he]
    rfl
  rw [gcodePosition, if_pos rfl, gcodePosition, if_pos rfl, hlast, hsame.basePosition,
    hsame.extrudeFactor, htarget]

omit [LinearOrder K] in
theorem gcodePosition_setAbsoluteCoord (g : GCodeMove K) (absolute : Bool) :
    (g.setAbsoluteCoord absolute).gcodePosition = g.gcodePosition := rfl

end GCodeMove

namespace GCodeMove

omit [Field K] [LinearOrder K] in
theorem home_modes (g : GCodeMove K) (homePosition : Position K) :
    (g.home homePosition).absoluteCoord = g.absoluteCoord ∧
    (g.home homePosition).absoluteExtrude = g.absoluteExtrude ∧
    (g.home homePosition).homingPosition = g.homingPosition ∧
    (g.home homePosition).extrudeFactor = g.extrudeFactor := by
  rw [home, resetLastPosition]
  split
  · exact ⟨rfl, rfl, rfl, rfl⟩
  · exact ⟨rfl, rfl, rfl, rfl⟩

omit [LinearOrder K] in
theorem setBase_e (g : GCodeMove K) (a : K) (hfactor : g.extrudeFactor ≠ 0) :
    (g.setBase ![none, none, none, some a]).absoluteCoord = g.absoluteCoord ∧
    (g.setBase ![none, none, none, some a]).absoluteExtrude = g.absoluteExtrude ∧
    (g.setBase ![none, none, none, some a]).homingPosition = g.homingPosition ∧
    (g.setBase ![none, none, none, some a]).gcodePosition 3 = a := by
  rw [setBase, if_neg (fun h => nomatch h.2.2.2)]
  refine ⟨rfl, rfl, rfl, ?_⟩
  rw [gcodePosition, if_pos rfl, div_eq_iff hfactor]
  exact sub_sub_cancel (g.lastPosition 3) (a * g.extrudeFactor)

end GCodeMove

theorem prepared_coordinates (p : Printer K) (absoluteExtrude : Bool) (an ab af ae : K)
    (hfactor : p.gcodeMove.extrudeFactor ≠ 0) :
    (p.prepared r absoluteExtrude an ab af ae).gcodeMove.absoluteCoord =
      p.gcodeMove.absoluteCoord ∧
    (p.prepared r absoluteExtrude an ab af ae).gcodeMove.absoluteExtrude = absoluteExtrude ∧
    (p.prepared r absoluteExtrude an ab af ae).gcodeMove.homingPosition =
      p.gcodeMove.homingPosition ∧
    (p.prepared r absoluteExtrude an ab af ae).gcodeMove.gcodePosition 3 = ae := by
  obtain ⟨hcoord, hextrude, hhoming, hhomeFactor⟩ :=
    (p.gcodeMove.setAbsoluteExtrude absoluteExtrude).home_modes r.homePosition
  obtain ⟨hcoord', hextrude', hhoming', he⟩ :=
    ((p.gcodeMove.setAbsoluteExtrude absoluteExtrude).home r.homePosition).setBase_e ae
      (by rw [hhomeFactor]; exact hfactor)
  exact ⟨hcoord'.trans hcoord, hextrude'.trans hextrude, hhoming'.trans hhoming, he⟩

/-! ## The position that is asked for -/

section Recover

variable [IsStrictOrderedRing K] [FloorRing K]

/-- The Z that a print is taken up at: the saved one, or one just below the end of the axis. -/
def destinationZ (r : Recovery K) (homingOrigin zPos : K) : K :=
  if zPos < r.axisMaximumZ - homingOrigin - 1 / 1000 then zPos
  else r.axisMaximumZ - homingOrigin - 1 / 1000

omit [FloorRing K] in
theorem scale_round4 (n : ℤ) : ((n : K) + 1 / 1000) * 10 ^ 4 = ((n * 10 ^ 4 + 10 : ℤ) : K) := by
  push_cast
  ring

theorem le_round4 {n : ℤ} {v : K} (h : n + 1 / 1000 ≤ v) : n + 1 / 1000 ≤ round4 v := by
  have hscaled : ((n * 10 ^ 4 + 10 : ℤ) : K) ≤ v * 10 ^ 4 := by
    rw [← scale_round4]
    exact mul_le_mul_of_nonneg_right h (by positivity)
  rw [round4, le_div_iff₀ (by positivity), scale_round4]
  exact_mod_cast le_roundHalfEven hscaled

theorem round4_le {n : ℤ} {v : K} (h : v ≤ n + 1 / 1000) : round4 v ≤ n + 1 / 1000 := by
  have hscaled : v * 10 ^ 4 ≤ ((n * 10 ^ 4 + 10 : ℤ) : K) := by
    rw [← scale_round4]
    exact mul_le_mul_of_nonneg_right h (by positivity)
  rw [round4, div_le_iff₀ (by positivity), scale_round4]
  exact_mod_cast roundHalfEven_le hscaled

/-- An integer destination is the Z that is used; the rounding of the limit does not
matter then. -/
theorem usedZ_eq {r : Recovery K} {homingOrigin zPos : K} {n : ℤ}
    (hn : destinationZ r homingOrigin zPos = n) :
    usedZ (limitZ r.axisMaximumZ homingOrigin) zPos = destinationZ r homingOrigin zPos := by
  rw [hn]
  rw [destinationZ] at hn
  rw [usedZ, limitZ]
  split at hn
  · rename_i hbelow
    have hround := le_round4 (n := n) (v := r.axisMaximumZ - homingOrigin) (by linarith)
    split
    · exact hn
    · rename_i habove
      linarith
  · rename_i habove
    have hlimit : r.axisMaximumZ - homingOrigin = n + 1 / 1000 := by linarith
    have hround := le_antisymm (round4_le hlimit.le) (le_round4 hlimit.ge)
    rw [hround, if_neg (by rw [hlimit] at habove; exact habove)]
    linarith

theorem truncate_usedZ_iff (r : Recovery K) (homingOrigin zPos : K) :
    (truncate (usedZ (limitZ r.axisMaximumZ homingOrigin) zPos) : K) =
      destinationZ r homingOrigin zPos ↔ ∃ n : ℤ, destinationZ r homingOrigin zPos = n := by
  constructor
  · exact fun h => ⟨_, h.symm⟩
  · rintro ⟨n, hn⟩
    rw [usedZ_eq hn, hn, truncate_intCast]

/-! ## The fan -/

/-- The value that `M106` is given: the fraction, of 255 and between 0 and 255. -/
def fanValue (fanSpeed : K) : K := min (max (fanSpeed * 255) 0) 255

/-- When `M106` brings a fraction back: it is 0, or the fan does not turn it off or cut it,
its power is not below the tenth that `F103` divides by, and it is written plainly. -/
def FanKept (str : K → String) (fan : Fan K) (fanSpeed : K) : Prop :=
  fanSpeed = 0 ∨ (fan.offBelow ≤ fanSpeed ∧ fanSpeed ≤ 1 ∧ 1 / 10 ≤ fan.maxPower ∧
    PlainText (str (fanValue fanSpeed)))

omit [FloorRing K] in
theorem fanValue_nonneg (fanSpeed : K) : 0 ≤ fanValue fanSpeed :=
  le_min (le_max_right _ _) (by norm_num)

omit [FloorRing K] in
theorem fanValue_eq {fanSpeed : K} (hlow : 0 ≤ fanSpeed) (hhigh : fanSpeed ≤ 1) :
    fanValue fanSpeed = fanSpeed * 255 := by
  rw [fanValue, max_eq_left (by positivity), min_eq_left (by linarith)]

omit [FloorRing K] in
theorem fraction_setSpeed {fan : Fan K} {value : K} (hoff : fan.offBelow ≤ value)
    (hhigh : value ≤ 1) :
    (fan.setSpeed value).fraction = value * fan.maxPower / max (1 / 10) fan.maxPower := by
  have hvalue : 0 ≤ value := fan.offBelow_nonneg.trans hoff
  have hpower : value * fan.maxPower ≤ fan.maxPower :=
    mul_le_of_le_one_left fan.maxPower_pos.le hhigh
  rw [Fan.fraction, Fan.setSpeed, if_neg (not_lt.mpr hoff)]
  dsimp only
  rw [min_eq_right hpower, max_eq_right (mul_nonneg hvalue fan.maxPower_pos.le)]

omit [IsStrictOrderedRing K] [FloorRing K] in
theorem fraction_setSpeed_off {fan : Fan K} {value : K} (hoff : value < fan.offBelow) :
    (fan.setSpeed value).fraction = 0 := by
  rw [Fan.fraction, Fan.setSpeed, if_pos hoff]
  dsimp only
  rw [zero_mul, min_eq_right fan.maxPower_pos.le, max_self, zero_div]

omit [FloorRing K] in
theorem fraction_bounds (fan : Fan K) (value : K) :
    0 ≤ (fan.setSpeed value).fraction ∧ (fan.setSpeed value).fraction ≤ 1 := by
  have hmax : 0 < max (1 / 10) fan.maxPower := lt_max_of_lt_right fan.maxPower_pos
  rw [Fan.fraction, Fan.setSpeed]
  dsimp only
  refine ⟨div_nonneg (le_max_left _ _) hmax.le, (div_le_one hmax).mpr ?_⟩
  exact max_le hmax.le ((min_le_left _ _).trans (le_max_right _ _))

omit [FloorRing K] in
theorem fan_kept {str : K → String} {fan : Fan K} {fanSpeed a : K}
    (hstart : StartValue (str (fanValue fanSpeed)) (fanValue fanSpeed) a)
    (h : FanKept str fan fanSpeed) : (fan.setSpeed (a / 255)).fraction = fanSpeed := by
  obtain rfl | ⟨hoff, hhigh, hpower, htext⟩ := h
  · have hzero : fanValue (0 : K) = 0 := by rw [fanValue_eq le_rfl zero_le_one, zero_mul]
    rw [hzero] at hstart
    have ha : a = 0 := hstart.eq_iff.mpr hstart.plain_of_zero
    rw [ha, zero_div]
    obtain hoff | hoff := lt_or_ge 0 fan.offBelow
    · exact fraction_setSpeed_off hoff
    · rw [fraction_setSpeed hoff zero_le_one, zero_mul, zero_div]
  · have hlow : 0 ≤ fanSpeed := fan.offBelow_nonneg.trans hoff
    have ha : a / 255 = fanSpeed := by
      rw [hstart.eq_iff.mpr htext, fanValue_eq hlow hhigh, mul_div_cancel_right₀ _ (by norm_num)]
    rw [ha, fraction_setSpeed hoff hhigh, max_eq_right hpower,
      mul_div_cancel_right₀ _ fan.maxPower_pos.ne']

omit [FloorRing K] in
theorem fan_kept_of_eq {str : K → String} {fan : Fan K} {fanSpeed a : K}
    (hstart : StartValue (str (fanValue fanSpeed)) (fanValue fanSpeed) a)
    (hpower : 1 / 10 ^ 5 ≤ fan.maxPower) (h : (fan.setSpeed (a / 255)).fraction = fanSpeed) :
    FanKept str fan fanSpeed := by
  obtain ⟨hlow, hhigh⟩ := fraction_bounds fan (a / 255)
  rw [h] at hlow hhigh
  obtain hzero | hpos := hlow.eq_or_lt
  · exact Or.inl hzero.symm
  have hvalue := fanValue_eq hlow hhigh
  rw [hvalue] at hstart
  have hoff : fan.offBelow ≤ a / 255 := by
    by_contra hoff
    rw [fraction_setSpeed_off (not_le.mp hoff)] at h
    exact absurd h hpos.ne
  have hratio : 0 < max (1 / 10) fan.maxPower := lt_max_of_lt_right fan.maxPower_pos
  right
  cases hstart with
  | plain htext ha =>
    have hsame : a / 255 = fanSpeed := by rw [ha, mul_div_cancel_right₀ _ (by norm_num)]
    rw [hsame] at h hoff
    rw [fraction_setSpeed hoff hhigh, mul_div_assoc] at h
    have hone : fan.maxPower / max (1 / 10) fan.maxPower = 1 :=
      mul_left_cancel₀ hpos.ne' (h.trans (mul_one _).symm)
    have hmax := (div_eq_one_iff_eq hratio.ne').mp hone
    refine ⟨hoff, hhigh, ?_, hvalue ▸ htext⟩
    rw [hmax]
    exact le_max_left _ _
  | exponent x htext hlowA hhighA hrange hv =>
    -- the mantissa would have to be cut down by the power of a fan weaker than any here
    exfalso
    have hapos : 0 < a := pos_of_mul_pos_left (hv ▸ mul_pos hpos (by norm_num))
      (zpow_nonneg (by norm_num) x)
    have hasmall : a / 255 ≤ 1 := by
      rw [abs_of_pos hapos] at hhighA
      rw [div_le_one (by norm_num)]
      linarith
    rw [fraction_setSpeed hoff hasmall] at h
    have hpow : fan.maxPower / max (1 / 10) fan.maxPower = 10 ^ x := by
      refine mul_left_cancel₀ hapos.ne' ?_
      rw [← hv, ← h]
      ring
    have hpowle : (10 : K) ^ x ≤ 1 := hpow ▸ (div_le_one hratio).mpr (le_max_right _ _)
    have hx : x ≤ -5 := by
      obtain hx | hx := hrange
      · exact hx
      · have hbig : (10 : K) ^ (1 : ℤ) ≤ 10 ^ x := zpow_le_zpow_right₀ (by norm_num) (by omega)
        rw [zpow_one] at hbig
        exact absurd (hbig.trans hpowle) (by norm_num)
    have hsmall : (10 : K) ^ x ≤ 10 ^ (-5 : ℤ) := zpow_le_zpow_right₀ (by norm_num) hx
    have hnum : (10 : K) ^ (-5 : ℤ) = 1 / 10 ^ 5 := by norm_num
    rw [← hpow, hnum, div_le_iff₀ hratio] at hsmall
    obtain hle | hle := le_total fan.maxPower (1 / 10)
    · rw [max_eq_left hle] at hsmall
      exact absurd (hpower.trans hsmall) (by norm_num)
    · rw [max_eq_right hle] at hsmall
      exact absurd (le_of_mul_le_mul_right ((one_mul _).le.trans hsmall) fan.maxPower_pos)
        (by norm_num)

/-! ## F102 -/

/-- What `F102` brings back in `t` of the printer `saved`, when `p` is the printer before it:
the position, on a way that does not go below its Z, the modes, the targets and the fan. -/
structure Restored (r : Recovery K) (saved p t : Printer K) : Prop where
  x : t.gcodeMove.gcodePosition 0 = saved.gcodeMove.gcodePosition 0
  y : t.gcodeMove.gcodePosition 1 = saved.gcodeMove.gcodePosition 1
  z : t.gcodeMove.gcodePosition 2 =
    destinationZ r (p.gcodeMove.homingPosition 2) (saved.gcodeMove.gcodePosition 2)
  e : t.gcodeMove.gcodePosition 3 = saved.gcodeMove.gcodePosition 3
  notBelow : ∀ z ∈ t.zMoves,
    destinationZ r (p.gcodeMove.homingPosition 2) (saved.gcodeMove.gcodePosition 2) ≤ z
  absoluteExtrude : t.gcodeMove.absoluteExtrude = saved.gcodeMove.absoluteExtrude
  absoluteCoord : t.gcodeMove.absoluteCoord = saved.gcodeMove.absoluteCoord
  nozzleTarget : t.nozzleTarget = saved.nozzleTarget
  bedTarget : t.bedTarget = saved.bedTarget
  fanSpeed : t.fan.fraction = saved.fan.fraction

/-- The condition: `F102` starts in absolute coordinates, the X, Y and Z it goes to are
integers, and what it writes of the other numbers has no exponent. -/
structure RecoverCondition (str : K → String) (r : Recovery K) (saved p : Printer K) : Prop where
  absolute : p.gcodeMove.absoluteCoord = true
  x : ∃ n : ℤ, saved.gcodeMove.gcodePosition 0 = n
  y : ∃ n : ℤ, saved.gcodeMove.gcodePosition 1 = n
  z : ∃ n : ℤ,
    destinationZ r (p.gcodeMove.homingPosition 2) (saved.gcodeMove.gcodePosition 2) = n
  e : PlainText (str (saved.gcodeMove.gcodePosition 3))
  up : destinationZ r (p.gcodeMove.homingPosition 2) (saved.gcodeMove.gcodePosition 2) + 6 / 10 <
      limitZ r.axisMaximumZ (p.gcodeMove.homingPosition 2) →
    PlainText (str (destinationZ r (p.gcodeMove.homingPosition 2)
      (saved.gcodeMove.gcodePosition 2) + 6 / 10))
  nozzleTarget : PlainText (str saved.nozzleTarget)
  bedTarget : PlainText (str saved.bedTarget)
  fanSpeed : FanKept str p.fan saved.fan.fraction

/-- The numbers that `F102` writes with `str`. -/
def writtenNumbers (r : Recovery K) (saved p : Printer K) : List K :=
  [saved.gcodeMove.gcodePosition 3, saved.nozzleTarget, saved.bedTarget,
    fanValue saved.fan.fraction,
    usedZ (limitZ r.axisMaximumZ (p.gcodeMove.homingPosition 2))
      (saved.gcodeMove.gcodePosition 2) + 6 / 10]

/-- The integers in the lines of `F102`. -/
def writtenInts (r : Recovery K) (saved p : Printer K) : List ℤ :=
  [140, 50, 3000, truncate (saved.gcodeMove.gcodePosition 0),
    truncate (saved.gcodeMove.gcodePosition 1),
    truncate (usedZ (limitZ r.axisMaximumZ (p.gcodeMove.homingPosition 2))
      (saved.gcodeMove.gcodePosition 2))]

/-- The last move of `F102`. -/
def lastMove (r : Recovery K) (saved p : Printer K) : GCodeMove.MoveParams K :=
  ⟨![some (truncate (saved.gcodeMove.gcodePosition 0) : K),
    some (truncate (saved.gcodeMove.gcodePosition 1) : K),
    some (truncate (usedZ (limitZ r.axisMaximumZ (p.gcodeMove.homingPosition 2))
      (saved.gcodeMove.gcodePosition 2)) : K), none], some 3000⟩

/-- The printer after the last move and the lines after it. -/
def Printer.finished (cfg : PrinterConfig K) (r : Recovery K) (q saved p : Printer K) : Printer K :=
  { q.moved cfg (lastMove r saved p) with
    gcodeMove := (q.moved cfg (lastMove r saved p)).gcodeMove.setAbsoluteCoord
      saved.gcodeMove.absoluteCoord }

/-- What the last move brings back, from a printer `q` before it in absolute coordinates. -/
theorem restored_finished_iff {saved p q : Printer K} (habsolute : q.gcodeMove.absoluteCoord = true)
    (hextrude : q.gcodeMove.absoluteExtrude = saved.gcodeMove.absoluteExtrude) :
    Restored r saved p (q.finished cfg r saved p) ↔
      (∃ n : ℤ, saved.gcodeMove.gcodePosition 0 = n) ∧
      (∃ n : ℤ, saved.gcodeMove.gcodePosition 1 = n) ∧
      (∃ n : ℤ, destinationZ r (p.gcodeMove.homingPosition 2)
        (saved.gcodeMove.gcodePosition 2) = n) ∧
      q.gcodeMove.gcodePosition 3 = saved.gcodeMove.gcodePosition 3 ∧
      (∀ z ∈ q.zMoves, destinationZ r (p.gcodeMove.homingPosition 2)
        (saved.gcodeMove.gcodePosition 2) ≤ z) ∧
      q.nozzleTarget = saved.nozzleTarget ∧ q.bedTarget = saved.bedTarget ∧
      q.fan.fraction = saved.fan.fraction := by
  have hend : (q.finished cfg r saved p).gcodeMove.gcodePosition =
      (q.gcodeMove.moveTo cfg q.workMode q.status (lastMove r saved p)).1.gcodePosition :=
    GCodeMove.gcodePosition_setAbsoluteCoord _ _
  have hmove {i : Fin 4} (hi : i ≠ 3) := GCodeMove.gcodePosition_moveTo cfg q.workMode q.status
    (lastMove r saved p) habsolute hi
  have hx : (q.finished cfg r saved p).gcodeMove.gcodePosition 0 =
      truncate (saved.gcodeMove.gcodePosition 0) := by
    rw [hend]
    exact hmove (by decide)
  have hy : (q.finished cfg r saved p).gcodeMove.gcodePosition 1 =
      truncate (saved.gcodeMove.gcodePosition 1) := by
    rw [hend]
    exact hmove (by decide)
  have hz : (q.finished cfg r saved p).gcodeMove.gcodePosition 2 =
      truncate (usedZ (limitZ r.axisMaximumZ (p.gcodeMove.homingPosition 2))
        (saved.gcodeMove.gcodePosition 2)) := by
    rw [hend]
    exact hmove (by decide)
  have he : (q.finished cfg r saved p).gcodeMove.gcodePosition 3 =
      q.gcodeMove.gcodePosition 3 := by
    rw [hend]
    exact GCodeMove.gcodePosition_moveTo_e cfg q.workMode q.status _ q.gcodeMove rfl
  have hsame := q.gcodeMove.moveTo_sameCoordinates cfg q.workMode q.status (lastMove r saved p)
  have hmoves : (q.finished cfg r saved p).zMoves =
      q.zMoves ++ [(q.finished cfg r saved p).gcodeMove.gcodePosition 2] := rfl
  constructor
  · intro h
    refine ⟨truncate_eq_self_iff.mp (hx.symm.trans h.x), truncate_eq_self_iff.mp (hy.symm.trans h.y),
      (truncate_usedZ_iff r _ _).mp (hz.symm.trans h.z), he.symm.trans h.e, fun z hmem => ?_,
      h.nozzleTarget, h.bedTarget, h.fanSpeed⟩
    exact h.notBelow z (by rw [hmoves]; exact List.mem_append_left _ hmem)
  · rintro ⟨hxInt, hyInt, hzInt, heSame, hbelow, hnozzle, hbed, hfan⟩
    have hzEnd := hz.trans ((truncate_usedZ_iff r _ _).mpr hzInt)
    refine ⟨hx.trans (truncate_eq_self_iff.mpr hxInt), hy.trans (truncate_eq_self_iff.mpr hyInt),
      hzEnd, he.trans heSame, fun z hmem => ?_, hsame.absoluteExtrude.trans hextrude, rfl, hnozzle,
      hbed, hfan⟩
    rw [hmoves, List.mem_append, List.mem_singleton] at hmem
    obtain hmem | rfl := hmem
    · exact hbelow z hmem
    · exact hzEnd.ge

theorem runLines_moveLines_last {str : K → String} {xPos yPos zPos limit : K} (q : Printer K)
    (hx : ReadsInt num (truncate xPos)) (hy : ReadsInt num (truncate yPos))
    (hz : ReadsInt num (truncate zPos)) (hfeed : ReadsInt num 3000)
    (hroom : ¬zPos + 6 / 10 < limit) :
    q.runLines cfg num r (moveLines str xPos yPos zPos limit) =
      .ok (q.moved cfg ⟨![some (truncate xPos : K), some (truncate yPos : K),
        some (truncate zPos : K), none], some 3000⟩) := by
  rw [moveLines, if_neg hroom]
  exact (runLines_cons (runLine_G1_position hx hy hz hfeed) []).trans runLines_nil

theorem runLines_moveLines_up {str : K → String} {xPos yPos zPos limit : K} {q q' : Printer K}
    (hx : ReadsInt num (truncate xPos)) (hy : ReadsInt num (truncate yPos))
    (hz : ReadsInt num (truncate zPos)) (hfeed : ReadsInt num 3000)
    (hroom : zPos + 6 / 10 < limit)
    (hup : q.runLine cfg num r ("G1 Z" ++ str (zPos + 6 / 10)) = .ok q') :
    q.runLines cfg num r (moveLines str xPos yPos zPos limit) =
      .ok (q'.moved cfg ⟨![some (truncate xPos : K), some (truncate yPos : K),
        some (truncate zPos : K), none], some 3000⟩) := by
  rw [moveLines, if_pos hroom]
  exact (runLines_cons hup _).trans
    ((runLines_cons (runLine_G1_position hx hy hz hfeed) []).trans runLines_nil)

omit [IsStrictOrderedRing K] [FloorRing K] in
theorem runLines_finishLines (str : K → String) (filamentUsed : K) (absolute : Bool)
    (q : Printer K) :
    q.runLines cfg num r (finishLines str filamentUsed absolute) =
      .ok { q with gcodeMove := q.gcodeMove.setAbsoluteCoord absolute } := by
  have hused : (processLine ("SET_FILAMENT_USED S=" ++ str filamentUsed)).1 =
      "SET_FILAMENT_USED" :=
    processLine_name "SET_FILAMENT_USED".toList ['S'] (by decide) (by decide)
      (by decide) (by decide)
  have hM400 : (processLine "M400").1 = "M400" := processLine_bare _ (by decide)
  have hclear : (processLine "CLEAR_PAUSE").1 = "CLEAR_PAUSE" := processLine_bare _ (by decide)
  rw [finishLines, runLines_cons (runLine_other hused (by decide)),
    runLines_cons (runLine_other hM400 (by decide)), runLines_cons (runLine_G90_G91 _ _),
    runLines_cons (runLine_other hclear (by decide)), runLines_nil]

/-- What is known of the printer before the moves of `F102`. -/
structure Ready (str : K → String) (saved p q : Printer K) : Prop where
  absoluteCoord : q.gcodeMove.absoluteCoord = p.gcodeMove.absoluteCoord
  absoluteExtrude : q.gcodeMove.absoluteExtrude = saved.gcodeMove.absoluteExtrude
  zMoves : q.zMoves = []
  e : EndValue (str (saved.gcodeMove.gcodePosition 3)) (saved.gcodeMove.gcodePosition 3)
    (q.gcodeMove.gcodePosition 3)
  nozzleTarget : StartValue (str saved.nozzleTarget) saved.nozzleTarget q.nozzleTarget
  bedTarget : StartValue (str saved.bedTarget) saved.bedTarget q.bedTarget
  fan : ∃ a, StartValue (str (fanValue saved.fan.fraction)) (fanValue saved.fan.fraction) a ∧
    q.fan = p.fan.setSpeed (a / 255)

/-- How `F102` runs: the lines before the moves, the move up when there is room for it, and
the last move. -/
theorem cmdF102_run (cfg : PrinterConfig K) {str : K → String} {saved p : Printer K}
    (hfloat : ∀ v ∈ writtenNumbers r saved p, FloatText num (str v) v)
    (hint : ∀ n ∈ writtenInts r saved p, ReadsInt num n)
    (hfactor : p.gcodeMove.extrudeFactor ≠ 0) :
    ∃ q, Ready str saved p q ∧
      let zPos := usedZ (limitZ r.axisMaximumZ (p.gcodeMove.homingPosition 2))
        (saved.gcodeMove.gcodePosition 2)
      (¬zPos + 6 / 10 < limitZ r.axisMaximumZ (p.gcodeMove.homingPosition 2) ∧
        cmdF102 cfg num str r (captured saved) p = .ok (q.finished cfg r saved p)) ∨
      (zPos + 6 / 10 < limitZ r.axisMaximumZ (p.gcodeMove.homingPosition 2) ∧
        ∃ a e, ZValue (str (zPos + 6 / 10)) (zPos + 6 / 10) a e ∧
          cmdF102 cfg num str r (captured saved) p =
            .ok ((q.moved cfg ⟨![none, none, some a, e], none⟩).finished cfg r saved p)) := by
  simp only [writtenNumbers, List.forall_mem_cons] at hfloat
  simp only [writtenInts, List.forall_mem_cons] at hint
  obtain ⟨hePos, hnozzle, hbed, hfan, hup, -⟩ := hfloat
  obtain ⟨h140, h50, hfeed, hx, hy, hz, -⟩ := hint
  obtain ⟨an, hn, hnReads⟩ := hnozzle.readsS
  obtain ⟨ab, hb, hbReads⟩ := hbed.readsS
  obtain ⟨af, hf, hfReads⟩ := hfan.readsS
  obtain ⟨ae, he, heRun⟩ := runLine_G92 cfg r hePos
  have haf := hf.nonneg (fanValue_nonneg _)
  have hprepare := runLines_prepareLines (p := { p with zMoves := [] }) h140 h50 hnReads hbReads
    hfReads haf heRun saved.gcodeMove.absoluteExtrude saved.excludeEnabled saved.excludedObjects
  obtain ⟨hcoord, hextrude, hhoming, hePrepared⟩ := prepared_coordinates (r := r)
    { p with zMoves := [] } saved.gcodeMove.absoluteExtrude an ab af ae hfactor
  refine ⟨_, ⟨hcoord, hextrude, rfl, by rw [hePrepared]; exact he, hn, hb, af, hf, rfl⟩, ?_⟩
  generalize Printer.prepared r _ an ab af ae _ = q at hprepare hhoming
  have hrun {q' : Printer K}
      (hmoves : q.runLines cfg num r (moveLines str (saved.gcodeMove.gcodePosition 0)
          (saved.gcodeMove.gcodePosition 1)
          (usedZ (limitZ r.axisMaximumZ (p.gcodeMove.homingPosition 2))
            (saved.gcodeMove.gcodePosition 2))
          (limitZ r.axisMaximumZ (p.gcodeMove.homingPosition 2))) = .ok q') :
      cmdF102 cfg num str r (captured saved) p =
        .ok { q' with gcodeMove :=
          q'.gcodeMove.setAbsoluteCoord saved.gcodeMove.absoluteCoord } := by
    rw [← hhoming] at hmoves
    exact bind_eq_ok.mpr ⟨q, hprepare, bind_eq_ok.mpr ⟨q', hmoves,
      runLines_finishLines str saved.filamentUsed saved.gcodeMove.absoluteCoord q'⟩⟩
  dsimp only
  by_cases hroom : usedZ (limitZ r.axisMaximumZ (p.gcodeMove.homingPosition 2))
      (saved.gcodeMove.gcodePosition 2) + 6 / 10 <
        limitZ r.axisMaximumZ (p.gcodeMove.homingPosition 2)
  · obtain ⟨a, e, hvalue, hupRun⟩ := runLine_G1_up cfg r hup
    exact Or.inr ⟨hroom, a, e, hvalue,
      hrun (runLines_moveLines_up hx hy hz hfeed hroom (hupRun q))⟩
  · exact Or.inl ⟨hroom, hrun (runLines_moveLines_last q hx hy hz hfeed hroom)⟩

omit [FloorRing K] in
/-- Six tenths over an integer are not written with an exponent, unless the move goes to a
Z below the integer or the integer is out of all bounds. -/
theorem not_exponent_up {n x : ℤ} {a : K} (hlow : 1 ≤ |a|) (hhigh : |a| < 10)
    (hrange : x ≤ -5 ∨ 16 ≤ x) (hv : (n : K) + 6 / 10 = a * 10 ^ x) (hbelow : (n : K) ≤ a)
    (hbound : -10 ^ 16 < (n : K)) : False := by
  have habs : |(n : K) + 6 / 10| = |a| * 10 ^ x := by
    rw [hv, abs_mul, abs_of_pos (zpow_pos (by norm_num : (0 : K) < 10) x)]
  obtain hx | hx := hrange
  · have hpow : (10 : K) ^ x ≤ 10 ^ (-5 : ℤ) := zpow_le_zpow_right₀ (by norm_num) hx
    have hsmall : |a| * 10 ^ x ≤ 10 * 10 ^ (-5 : ℤ) :=
      mul_le_mul hhigh.le hpow (zpow_nonneg (by norm_num) x) (by norm_num)
    have hnum : (10 : K) * 10 ^ (-5 : ℤ) < 4 / 10 := by norm_num
    have hfar : (4 : K) / 10 ≤ |(n : K) + 6 / 10| := by
      obtain hn | hn := lt_or_ge n 0
      · have hcast : (n : K) ≤ -1 := by exact_mod_cast Int.le_sub_one_of_lt hn
        exact le_abs.mpr (Or.inr (by linarith))
      · have hcast : (0 : K) ≤ n := by exact_mod_cast hn
        exact le_abs.mpr (Or.inl (by linarith))
    exact absurd (hfar.trans habs.le) (not_le.mpr (hsmall.trans_lt hnum))
  · have hpow : (10 : K) ^ (16 : ℤ) ≤ 10 ^ x := zpow_le_zpow_right₀ (by norm_num) hx
    have hbig : (10 : K) ^ 16 ≤ |(n : K) + 6 / 10| := by
      rw [habs]
      exact (by exact_mod_cast hpow : (10 : K) ^ 16 ≤ 10 ^ x).trans
        (le_mul_of_one_le_left (zpow_nonneg (by norm_num) x) hlow)
    obtain hpos | hneg := le_abs.mp hbig
    · have hten : (n : K) < 10 := hbelow.trans_lt ((le_abs_self a).trans_lt hhigh)
      linarith
    · linarith

theorem usedZ_of_room {limit zPos : K} (h : usedZ limit zPos + 6 / 10 < limit) :
    usedZ limit zPos = zPos := by
  rw [usedZ] at h ⊢
  split
  · rfl
  · rename_i hnot
    rw [if_neg hnot] at h
    linarith

/-- `F102` runs to its end from what `F103` saved.  When its condition holds, the print is
brought back; a printer that is in absolute coordinates, whose fan has at least a hundred
thousandth of its power and whose Z was above -10 ^ 16 is brought back only then. -/
theorem cmdF102_restores (cfg : PrinterConfig K) (saved p : Printer K) {str : K → String}
    (allVariables : Dict String (Value K)) {vars : Dict String (Value K)} (hprinting : saved.isPrinting = true)
    (hvars : ∀ name, vars.get name = (cmdF103 saved allVariables).get name)
    (hfloat : ∀ v ∈ writtenNumbers r saved p, FloatText num (str v) v)
    (hint : ∀ n ∈ writtenInts r saved p, ReadsInt num n)
    (hfactor : p.gcodeMove.extrudeFactor ≠ 0) :
    ∃ t, cmdF102 cfg num str r (readVariables vars) p = .ok t ∧
      (RecoverCondition str r saved p → Restored r saved p t) ∧
      (p.gcodeMove.absoluteCoord = true → -10 ^ 16 < saved.gcodeMove.gcodePosition 2 →
        1 / 10 ^ 5 ≤ p.fan.maxPower → Restored r saved p t → RecoverCondition str r saved p) := by
  rw [readVariables_congr hvars, readVariables_cmdF103 hprinting]
  obtain ⟨q, hq, hrun⟩ := cmdF102_run cfg hfloat hint hfactor
  obtain ⟨af, hf, hfanEq⟩ := hq.fan
  obtain ⟨hroom, hrun⟩ | ⟨hroom, a, e, hvalue, hrun⟩ := hrun
  · refine ⟨_, hrun, fun hc => ?_, fun habsolute hz hpower hrestored => ?_⟩
    · refine (restored_finished_iff (hq.absoluteCoord.trans hc.absolute) hq.absoluteExtrude).mpr
        ⟨hc.x, hc.y, hc.z, hq.e.eq_iff.mpr hc.e, ?_, hq.nozzleTarget.eq_iff.mpr hc.nozzleTarget,
          hq.bedTarget.eq_iff.mpr hc.bedTarget, hfanEq ▸ fan_kept hf hc.fanSpeed⟩
      rw [hq.zMoves]
      exact fun z hmem => nomatch hmem
    · obtain ⟨hx, hy, ⟨n, hn⟩, he, -, hnozzle, hbed, hfan⟩ :=
        (restored_finished_iff (hq.absoluteCoord.trans habsolute) hq.absoluteExtrude).mp hrestored
      refine ⟨habsolute, hx, hy, ⟨n, hn⟩, hq.e.eq_iff.mp he, fun hup => ?_,
        hq.nozzleTarget.eq_iff.mp hnozzle, hq.bedTarget.eq_iff.mp hbed,
        fan_kept_of_eq hf hpower (hfanEq ▸ hfan)⟩
      rw [usedZ_eq hn] at hroom
      exact absurd hup hroom
  · have hsame := q.gcodeMove.moveTo_sameCoordinates cfg q.workMode q.status
      ⟨![none, none, some a, e], none⟩
    have hmoves (habsolute : p.gcodeMove.absoluteCoord = true) :
        (q.moved cfg ⟨![none, none, some a, e], none⟩).zMoves = [a] := by
      have hpos := GCodeMove.gcodePosition_moveTo cfg q.workMode q.status
        ⟨![none, none, some a, e], none⟩ (hq.absoluteCoord.trans habsolute)
        (by decide : (2 : Fin 4) ≠ 3)
      rw [Printer.moved, hq.zMoves, List.nil_append, hpos]
      rfl
    refine ⟨_, hrun, fun hc => ?_, fun habsolute hz hpower hrestored => ?_⟩
    · have hcoord := hsame.absoluteCoord.trans (hq.absoluteCoord.trans hc.absolute)
      obtain ⟨n, hn⟩ := hc.z
      rw [usedZ_eq hn] at hvalue hroom
      cases hvalue with
      | exponent x htext _ _ _ _ => exact absurd (hc.up hroom) htext
      | plain _ ha =>
        have he := GCodeMove.gcodePosition_moveTo_e cfg q.workMode q.status
          ⟨![none, none, some a, none], none⟩ q.gcodeMove rfl
        refine (restored_finished_iff hcoord (hsame.absoluteExtrude.trans hq.absoluteExtrude)).mpr
          ⟨hc.x, hc.y, hc.z, he.trans (hq.e.eq_iff.mpr hc.e), ?_,
            hq.nozzleTarget.eq_iff.mpr hc.nozzleTarget, hq.bedTarget.eq_iff.mpr hc.bedTarget,
            hfanEq ▸ fan_kept hf hc.fanSpeed⟩
        rw [hmoves hc.absolute, ha]
        intro z hmem
        rw [List.mem_singleton.mp hmem]
        exact le_add_of_nonneg_right (by norm_num)
    · have hcoord := hsame.absoluteCoord.trans (hq.absoluteCoord.trans habsolute)
      obtain ⟨hx, hy, ⟨n, hn⟩, he, hbelow, hnozzle, hbed, hfan⟩ :=
        (restored_finished_iff hcoord (hsame.absoluteExtrude.trans hq.absoluteExtrude)).mp
          hrestored
      have hsaved := (usedZ_eq hn).symm.trans (usedZ_of_room hroom)
      rw [usedZ_eq hn] at hvalue
      rw [hmoves habsolute] at hbelow
      cases hvalue with
      | exponent x _ hlow hhigh hrange hv =>
        have hle := hbelow a List.mem_cons_self
        rw [← hsaved, hn] at hz
        rw [hn] at hv hle
        exact (not_exponent_up hlow hhigh hrange hv hle hz).elim
      | plain htext _ =>
        have hePos := GCodeMove.gcodePosition_moveTo_e cfg q.workMode q.status
          ⟨![none, none, some a, none], none⟩ q.gcodeMove rfl
        exact ⟨habsolute, hx, hy, ⟨n, hn⟩, hq.e.eq_iff.mp (hePos.symm.trans he), fun _ => htext,
          hq.nozzleTarget.eq_iff.mp hnozzle, hq.bedTarget.eq_iff.mp hbed,
          fan_kept_of_eq hf hpower (hfanEq ▸ hfan)⟩

end Recover

/-! ## A print on a first layer -/

/-- The texts of the numbers of a print. -/
def printTexts : List (ℚ × String) :=
  [(0, "0.0"), (200, "200.0"), (60, "60.0"), (255 / 2, "127.5"), (4 / 5, "0.8"), (8 / 5, "1.6")]

def printStr (v : ℚ) : String := (printTexts.lookup v).getD ""

def printNumerals : Numerals ℚ :=
  numerals (printTexts.map Prod.swap ++
    [("140", 140), ("50", 50), ("3000", 3000), ("10", 10), ("0", 0), ("1", 1)])

/-- A print at a Z, with its fan at one half. -/
def printAt (z : ℚ) : Printer ℚ where
  gcodeMove := { GCodeMove.init 0 with lastPosition := ![10, 0, z, 0] }
  workMode := 0
  status := ⟨false, false⟩
  fan := ⟨1, 0, 1 / 2, by norm_num, le_rfl⟩
  nozzleTarget := 200
  bedTarget := 60
  isPrinting := true
  filePath := "part.gcode"
  filePosition := 1000
  printDuration := 0
  filamentUsed := 0
  excludedObjects := []
  excludeEnabled := true
  zMoves := []

/-- The printer after the power is back. -/
def printerRestarted : Printer ℚ where
  gcodeMove := .init 0
  workMode := 0
  status := ⟨false, false⟩
  fan := ⟨1, 0, 0, by norm_num, le_rfl⟩
  nozzleTarget := 0
  bedTarget := 0
  isPrinting := false
  filePath := ""
  filePosition := 0
  printDuration := 0
  filamentUsed := 0
  excludedObjects := []
  excludeEnabled := true
  zMoves := []

def coldRecovery : Recovery ℚ where
  nozzleAtStart := 20
  bedAtStart := 20
  nozzleAfterBed := 20
  bedAfterHoming := 60
  nozzleAfterHoming := 200
  homePosition := ![0, 0, 400, 0]
  axisMaximumZ := 400

/-- A Z of 0.2 is written as `Z0`: the last move goes to 0, into the layer. -/
theorem cmdF102_below_saved :
    (printAt (1 / 5)).isPrinting = true ∧
    (printAt (1 / 5)).gcodeMove.absoluteCoord = true ∧
    printerRestarted.gcodeMove.absoluteCoord = true ∧
    (cmdF102 scaledPrinter printNumerals printStr coldRecovery
        (readVariables (cmdF103 (printAt (1 / 5)) .empty)) printerRestarted).toOption.map
      (fun t => (t.zMoves, t.gcodeMove.gcodePosition 2)) = some ([4 / 5, 0], 0) ∧
    destinationZ coldRecovery (printerRestarted.gcodeMove.homingPosition 2)
      ((printAt (1 / 5)).gcodeMove.gcodePosition 2) = 1 / 5 := by
  decide +kernel

/-- A print at a Z of 1 is brought back. -/
theorem cmdF102_restores_one :
    ∃ t, cmdF102 scaledPrinter printNumerals printStr coldRecovery
        (readVariables (cmdF103 (printAt 1) .empty)) printerRestarted = .ok t ∧
      Restored coldRecovery (printAt 1) printerRestarted t := by
  have hfloat : ∀ v ∈ writtenNumbers coldRecovery (printAt 1) printerRestarted,
      PlainText (printStr v) ∧ printNumerals.float (printStr v) = some v := by
    decide +kernel
  have hint : ∀ n ∈ writtenInts coldRecovery (printAt 1) printerRestarted,
      printNumerals.float (toString n) = some (n : ℚ) := by
    decide +kernel
  obtain ⟨t, hrun, hrestored, -⟩ := cmdF102_restores scaledPrinter (printAt 1)
    printerRestarted .empty rfl (fun _ => rfl)
    (fun v hv => .plain (hfloat v hv).1 (hfloat v hv).2) hint (by decide +kernel)
  refine ⟨t, hrun, hrestored ⟨rfl, ⟨10, by decide +kernel⟩, ⟨0, by decide +kernel⟩,
    ⟨1, by decide +kernel⟩, by decide +kernel, fun _ => by decide +kernel, by decide +kernel,
    by decide +kernel, Or.inr (by decide +kernel)⟩⟩

end FlsunT1.Klippy
