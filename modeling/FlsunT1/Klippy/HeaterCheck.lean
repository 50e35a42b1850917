/-
  Klippy/HeaterCheck.lean --- the verification of a heater (klippy/extras/verify_heater.py).

  Once per second `check_event` compares the temperature with the target.  A heater that
  approaches a new target has to gain some degrees in some time; away from that its error adds up
  until it is a fault.  Times and temperatures are exact.  A fault invokes the shutdown; a run of
  the model has no other one.
-/
import FlsunT1.Klippy.HeaterOutput
import FlsunT1.Library.Run
import Mathlib.Tactic.Ring

set_option autoImplicit false

namespace FlsunT1.Klippy

open Library

variable {K : Type} [Field K] [LinearOrder K]

/-! ## The check -/

/-- What `__init__` reads, with the limits that it checks. -/
structure HeaterCheckConfig (K : Type) [Field K] [LinearOrder K] where
  heaterName : String
  hysteresisOption : Option K
  maxErrorOption : Option K
  heatingGainOption : Option K
  checkGainTimeOption : Option K
  hysteresis_minval : ∀ x ∈ hysteresisOption, 0 ≤ x
  maxError_minval : ∀ x ∈ maxErrorOption, 0 ≤ x
  heatingGain_above : ∀ x ∈ heatingGainOption, 0 < x
  checkGainTime_minval : ∀ x ∈ checkGainTimeOption, 1 ≤ x

namespace HeaterCheckConfig

variable (cfg : HeaterCheckConfig K)

/-- `self.hysteresis`; the option does not count for the extruder. -/
def hysteresis : K := if cfg.heaterName = "extruder" then 6 else cfg.hysteresisOption.getD 5

/-- `self.max_error`; the option does not count for the extruder. -/
def maxError : K := if cfg.heaterName = "extruder" then 150 else cfg.maxErrorOption.getD 120

/-- `self.heating_gain` -/
def heatingGain : K := cfg.heatingGainOption.getD 2

/-- `default_gain_time` -/
def defaultGainTime : K := if cfg.heaterName = "heater_bed" then 60 else 20

/-- `self.check_gain_time` -/
def checkGainTime : K := cfg.checkGainTimeOption.getD cfg.defaultGainTime

end HeaterCheckConfig

/-- What `get_temp` returns at the time of a check. -/
structure HeaterReading (K : Type) where
  time : K
  temp : K
  target : K
  deriving DecidableEq

/-- `HeaterCheck`; `goalSystime` counts only while `approachingTarget`. -/
structure HeaterCheck (K : Type) where
  approachingTarget : Bool
  startingApproach : Bool
  lastTarget : K
  goalTemp : K
  error : K
  goalSystime : K
  deriving DecidableEq

/-- `get_temp`, where the estimated print time is `printTime`. -/
def Heater.getTemp (time printTime : K) (s : Heater K) : HeaterReading K :=
  if s.lastTempTime < printTime - 5 then ⟨time, 0, s.targetTemp⟩
  else ⟨time, s.smoothedTemp, s.targetTemp⟩

/-- The temperature is out of the range of the target. -/
def HeaterReading.Below (cfg : HeaterCheckConfig K) (r : HeaterReading K) : Prop :=
  r.temp < r.target - cfg.hysteresis

instance (cfg : HeaterCheckConfig K) (r : HeaterReading K) : Decidable (r.Below cfg) :=
  inferInstanceAs (Decidable (_ < _))

namespace HeaterCheck

variable (cfg : HeaterCheckConfig K)

/-- `reactor.NEVER` -/
def never : K := 9999999999999999

/-- `__init__` -/
def init : HeaterCheck K where
  approachingTarget := false
  startingApproach := false
  lastTarget := 0
  goalTemp := 0
  error := 0
  goalSystime := never

/-- `check_event`, with the time of the next one; `none` is the `NEVER` of `heater_fault`. -/
def checkEvent (r : HeaterReading K) (s : HeaterCheck K) : HeaterCheck K × Option K :=
  if r.target - cfg.hysteresis ≤ r.temp ∨ r.target ≤ 0 then
    -- temperature near target - reset checks
    ({ s with
        approachingTarget := false
        startingApproach := false
        error := if r.temp ≤ r.target + cfg.hysteresis then 0 else s.error
        lastTarget := r.target },
      some (r.time + 1))
  else
    let s := { s with error := s.error + (r.target - cfg.hysteresis - r.temp) }
    if s.approachingTarget = false then
      if r.target ≠ s.lastTarget then
        -- target changed - reset checks
        ({ s with
            approachingTarget := true
            startingApproach := true
            goalTemp := r.temp + cfg.heatingGain
            goalSystime := r.time + cfg.checkGainTime
            lastTarget := r.target },
          some (r.time + 1))
      else if cfg.maxError ≤ s.error then (s, none)
      else ({ s with lastTarget := r.target }, some (r.time + 1))
    else if s.goalTemp ≤ r.temp then
      -- temperature approaching target - reset checks
      ({ s with
          startingApproach := false
          error := 0
          goalTemp := r.temp + cfg.heatingGain
          goalSystime := r.time + cfg.checkGainTime
          lastTarget := r.target },
        some (r.time + 1))
    else if s.goalSystime ≤ r.time then
      -- temperature is no longer approaching target
      ({ s with approachingTarget := false, lastTarget := r.target }, some (r.time + 1))
    else if s.startingApproach = true then
      ({ s with goalTemp := min s.goalTemp (r.temp + cfg.heatingGain), lastTarget := r.target },
        some (r.time + 1))
    else ({ s with lastTarget := r.target }, some (r.time + 1))

end HeaterCheck

/-! ## Runs -/

/-- What happens to a heater that is verified. -/
inductive HeaterWatchEvent (K : Type) where
  | heater (e : HeaterEvent K)
  /-- `check_event`, at its time -/
  | check (printTime : K)

/-- A heater that is verified, with the readings of the checks. -/
structure HeaterWatch (K : Type) where
  heater : Heater K
  check : HeaterCheck K
  /-- The wake time of `check_timer`, or `NEVER`. -/
  nextCheck : Option K
  readings : List (HeaterReading K)

namespace HeaterWatch

variable (hcfg : HeaterConfig K) (cfg : HeaterCheckConfig K)

/-- `handle_connect` at the time `start` -/
def init (fileOutput : Bool) (start : K) : HeaterWatch K where
  heater := .init hcfg fileOutput
  check := .init
  nextCheck := some start
  readings := []

/-- One event; there is no check after a fault. -/
def step (s : HeaterWatch K) : HeaterWatchEvent K → Option (HeaterWatch K)
  | .heater e => some { s with heater := s.heater.next hcfg e }
  | .check printTime =>
    s.nextCheck.map fun time =>
      let r := s.heater.getTemp time printTime
      { s with
        check := (s.check.checkEvent cfg r).1
        nextCheck := (s.check.checkEvent cfg r).2
        readings := s.readings ++ [r] }

/-- `heater_fault` was called. -/
def Faulted (s : HeaterWatch K) : Prop := s.nextCheck = none

/-- The states that a run can reach. -/
abbrev Runs (s : HeaterWatch K) (es : List (HeaterWatchEvent K)) (t : HeaterWatch K) : Prop :=
  Run (fun s e t => step hcfg cfg s e = some t) s es t

/-- The heater is dead: it stays well below a target that does not change, and gains too little in
any time that counts. -/
structure Dead (target margin : K) (readings : List (HeaterReading K)) : Prop where
  below : ∀ r ∈ readings, r.target = target ∧ r.temp ≤ target - cfg.hysteresis - margin
  gain : ∀ r ∈ readings, ∀ r' ∈ readings, r.time ≤ r'.time →
    r'.time - r.time ≤ cfg.checkGainTime + 1 → r'.temp - r.temp < cfg.heatingGain

/-- The heater works: it is out of range from a change of the target on, and as long as it is, it
gains enough in the time that it is given. -/
structure Works (readings : List (HeaterReading K)) : Prop where
  starts : ∀ (i : ℕ) r r', readings[i]? = some r → readings[i + 1]? = some r' →
    ¬ r.Below cfg → r'.Below cfg → r'.target ≠ r.target
  gain : ∀ (i j : ℕ) r r', i ≤ j → readings[i]? = some r → readings[j]? = some r' →
    (∀ k x, i ≤ k → k ≤ j → readings[k]? = some x → x.Below cfg) →
    cfg.checkGainTime ≤ r'.time - r.time → cfg.heatingGain ≤ r'.temp - r.temp

end HeaterWatch

variable {hcfg : HeaterConfig K} {cfg : HeaterCheckConfig K}

/-! ## One check -/

namespace HeaterCheck

/-- The temperature counts as out of range. -/
def Out (cfg : HeaterCheckConfig K) (r : HeaterReading K) : Prop := r.Below cfg ∧ 0 < r.target

variable (cfg) in
/-- What a check makes of a reading. -/
inductive Outcome (r : HeaterReading K) (s t : HeaterCheck K) : Option K → Prop
  /-- the heater is in range -/
  | near (hnear : ¬ Out cfg r) (happroach : t.approachingTarget = false)
      (herror : t.error = 0 ∨ t.error = s.error) (hlast : t.lastTarget = r.target) :
      Outcome r s t (some (r.time + 1))
  /-- it begins to approach a new target -/
  | starts (hout : Out cfg r) (hnot : s.approachingTarget = false)
      (hnew : r.target ≠ s.lastTarget) (happroach : t.approachingTarget = true)
      (herror : t.error = s.error + (r.target - cfg.hysteresis - r.temp))
      (hgoal : t.goalTemp = r.temp + cfg.heatingGain)
      (htime : t.goalSystime = r.time + cfg.checkGainTime) (hlast : t.lastTarget = r.target) :
      Outcome r s t (some (r.time + 1))
  /-- its error is too large -/
  | faults (hout : Out cfg r) (hnot : s.approachingTarget = false)
      (hsame : r.target = s.lastTarget)
      (herror : t.error = s.error + (r.target - cfg.hysteresis - r.temp)) : Outcome r s t none
  /-- its error adds up -/
  | holds (hout : Out cfg r) (hnot : s.approachingTarget = false)
      (hsame : r.target = s.lastTarget) (happroach : t.approachingTarget = false)
      (herror : t.error = s.error + (r.target - cfg.hysteresis - r.temp))
      (hsmall : t.error < cfg.maxError) (hlast : t.lastTarget = r.target) :
      Outcome r s t (some (r.time + 1))
  /-- it reaches its goal -/
  | gains (hout : Out cfg r) (hwas : s.approachingTarget = true) (hreached : s.goalTemp ≤ r.temp)
      (happroach : t.approachingTarget = true) (herror : t.error = 0)
      (hgoal : t.goalTemp = r.temp + cfg.heatingGain)
      (htime : t.goalSystime = r.time + cfg.checkGainTime) (hlast : t.lastTarget = r.target) :
      Outcome r s t (some (r.time + 1))
  /-- it misses its goal -/
  | stops (hout : Out cfg r) (hwas : s.approachingTarget = true) (hmissed : r.temp < s.goalTemp)
      (hlate : s.goalSystime ≤ r.time) (happroach : t.approachingTarget = false)
      (herror : t.error = s.error + (r.target - cfg.hysteresis - r.temp))
      (hlast : t.lastTarget = r.target) : Outcome r s t (some (r.time + 1))
  /-- it has time left -/
  | waits (hout : Out cfg r) (hwas : s.approachingTarget = true) (hmissed : r.temp < s.goalTemp)
      (hearly : r.time < s.goalSystime) (happroach : t.approachingTarget = true)
      (herror : t.error = s.error + (r.target - cfg.hysteresis - r.temp))
      (hgoal : t.goalTemp = s.goalTemp ∨ t.goalTemp = r.temp + cfg.heatingGain)
      (hlower : t.goalTemp ≤ s.goalTemp) (htime : t.goalSystime = s.goalSystime)
      (hlast : t.lastTarget = r.target) : Outcome r s t (some (r.time + 1))

theorem not_out_iff {r : HeaterReading K} :
    ¬ Out cfg r ↔ r.target - cfg.hysteresis ≤ r.temp ∨ r.target ≤ 0 := by
  unfold Out HeaterReading.Below
  rw [not_and_or, not_lt, not_lt]

theorem outcome (r : HeaterReading K) (s : HeaterCheck K) :
    Outcome cfg r s (s.checkEvent cfg r).1 (s.checkEvent cfg r).2 := by
  unfold checkEvent
  by_cases hnear : r.target - cfg.hysteresis ≤ r.temp ∨ r.target ≤ 0
  · rw [if_pos hnear]
    refine .near (not_out_iff.mpr hnear) rfl ?_ rfl
    by_cases hreset : r.temp ≤ r.target + cfg.hysteresis
    · exact .inl (if_pos hreset)
    · exact .inr (if_neg hreset)
  rw [if_neg hnear]
  have hout : Out cfg r := by
    by_contra h
    exact hnear (not_out_iff.mp h)
  dsimp only
  split
  · rename_i hnot
    split
    · rename_i hnew
      exact .starts hout hnot hnew rfl rfl rfl rfl rfl
    rename_i hsame
    split
    · exact .faults hout hnot (not_not.mp hsame) rfl
    · rename_i hsmall
      exact .holds hout hnot (not_not.mp hsame) hnot rfl (not_le.mp hsmall) rfl
  rename_i hnot
  have hwas : s.approachingTarget = true := by
    cases h : s.approachingTarget with
    | false => exact absurd h hnot
    | true => rfl
  split
  · rename_i hreached
    exact .gains hout hwas hreached hwas rfl rfl rfl rfl
  rename_i hmissed
  split
  · rename_i hlate
    exact .stops hout hwas (not_le.mp hmissed) hlate rfl rfl rfl
  rename_i hearly
  split
  · refine .waits hout hwas (not_le.mp hmissed) (not_le.mp hearly) hwas rfl ?_
      (min_le_left _ _) rfl rfl
    exact min_choice _ _
  · exact .waits hout hwas (not_le.mp hmissed) (not_le.mp hearly) hwas rfl (.inl rfl) (le_refl _)
      rfl rfl

end HeaterCheck

namespace HeaterWatch

open HeaterCheck

theorem step_cases {s t : HeaterWatch K} {e : HeaterWatchEvent K}
    (h : step hcfg cfg s e = some t) :
    (t.check = s.check ∧ t.nextCheck = s.nextCheck ∧ t.readings = s.readings) ∨
      ∃ time r, s.nextCheck = some time ∧ r.time = time ∧ t.readings = s.readings ++ [r] ∧
        Outcome cfg r s.check t.check t.nextCheck := by
  cases e with
  | heater e =>
    obtain rfl := Option.some.inj h
    exact .inl ⟨rfl, rfl, rfl⟩
  | check printTime =>
    obtain ⟨time, htime, rfl⟩ := Option.map_eq_some_iff.mp h
    refine .inr ⟨time, s.heater.getTemp time printTime, htime, ?_, rfl, outcome _ _⟩
    unfold Heater.getTemp
    split <;> rfl

end HeaterWatch

variable [IsStrictOrderedRing K]

namespace HeaterCheckConfig

theorem one_le_checkGainTime : 1 ≤ cfg.checkGainTime := by
  unfold checkGainTime defaultGainTime
  cases h : cfg.checkGainTimeOption with
  | some x => exact cfg.checkGainTime_minval x h
  | none =>
    rw [Option.getD_none]
    split <;> norm_num

theorem maxError_nonneg : 0 ≤ cfg.maxError := by
  unfold maxError
  split
  · norm_num
  · cases h : cfg.maxErrorOption with
    | some x => exact cfg.maxError_minval x h
    | none => rw [Option.getD_none]; norm_num

end HeaterCheckConfig

namespace HeaterWatch

open HeaterCheck HeaterCheckConfig

/-! ## A dead heater -/

/-- What holds after every run: the goal of an approach is due in time. -/
structure Steady (cfg : HeaterCheckConfig K) (s : HeaterWatch K) : Prop where
  error : 0 ≤ s.check.error
  goal : ∀ time, s.nextCheck = some time → s.check.approachingTarget = true →
    time - 1 < s.check.goalSystime ∧ s.check.goalSystime ≤ time - 1 + cfg.checkGainTime

theorem Steady.step {s t : HeaterWatch K} {e : HeaterWatchEvent K} (h : Steady cfg s)
    (hstep : step hcfg cfg s e = some t) : Steady cfg t := by
  have herror := h.error
  have hgain : 1 ≤ cfg.checkGainTime := one_le_checkGainTime
  rcases step_cases hstep with ⟨hcheck, hnext, -⟩ | ⟨time, r, hnext, rfl, -, hout⟩
  · exact ⟨by rw [hcheck]; exact herror, by rw [hcheck, hnext]; exact h.goal⟩
  generalize ht : t.nextCheck = next at hout
  have hgoal := h.goal r.time hnext
  have hadd : Out cfg r → 0 ≤ s.check.error + (r.target - cfg.hysteresis - r.temp) := by
    intro hr
    have := hr.1
    unfold HeaterReading.Below at this
    linarith
  cases hout with
  | near hnear happroach herr hlast =>
    refine ⟨?_, fun time _ hwas => by rw [happroach] at hwas; cases hwas⟩
    rcases herr with herr | herr
    · exact herr.ge
    · rw [herr]
      exact herror
  | starts hr hnot hnew happroach herr hg htime hlast =>
    refine ⟨by rw [herr]; exact hadd hr, fun time hsome _ => ?_⟩
    obtain rfl := Option.some.inj (ht.symm.trans hsome)
    rw [htime]
    constructor <;> linarith
  | faults hr hnot hsame herr =>
    exact ⟨by rw [herr]; exact hadd hr, fun time hsome _ => by rw [ht] at hsome; cases hsome⟩
  | holds hr hnot hsame happroach herr hsmall hlast =>
    exact ⟨by rw [herr]; exact hadd hr, fun time _ hwas => by rw [happroach] at hwas; cases hwas⟩
  | gains hr hwas hreached happroach herr hg htime hlast =>
    refine ⟨herr.ge, fun time hsome _ => ?_⟩
    obtain rfl := Option.some.inj (ht.symm.trans hsome)
    rw [htime]
    constructor <;> linarith
  | stops hr hwas hmissed hlate happroach herr hlast =>
    exact ⟨by rw [herr]; exact hadd hr, fun time _ hwas => by rw [happroach] at hwas; cases hwas⟩
  | waits hr hwas hmissed hearly happroach herr hg hlower htime hlast =>
    refine ⟨by rw [herr]; exact hadd hr, fun time hsome _ => ?_⟩
    obtain rfl := Option.some.inj (ht.symm.trans hsome)
    have := hgoal hwas
    rw [htime]
    constructor <;> linarith

omit [IsStrictOrderedRing K] in
theorem steady_init (fileOutput : Bool) (start : K) :
    Steady cfg (init hcfg fileOutput start) :=
  ⟨le_refl _, fun _ _ h => by cases h⟩

/-- After the readings of a dead heater, the first of them at `start`: the goal was set last at the
check number `j`, and the error has added up since. -/
structure Dying (cfg : HeaterCheckConfig K) (start target margin : K)
    (readings : List (HeaterReading K)) (c : HeaterCheck K) : Prop where
  target : readings ≠ [] → c.lastTarget = target
  past : ∀ x ∈ readings, x.time < start + readings.length
  goal : ∃ j ≤ readings.length, (j : K) ≤ cfg.checkGainTime ∧
    ((readings.length : K) - 1 - j) * margin ≤ c.error ∧
    (c.approachingTarget = true ∧ (readings.length : K) - 1 + start < c.goalSystime ∧
        c.goalSystime ≤ start + j + cfg.checkGainTime ∧
        (c.goalSystime ≤ start - 1 + cfg.checkGainTime ∨
          ∃ x ∈ readings, start + j ≤ x.time ∧ c.goalTemp = x.temp + cfg.heatingGain) ∨
      c.approachingTarget = false ∧
        ((readings.length : K) - 1 < j + cfg.checkGainTime + 1 ∨ c.error < cfg.maxError))

theorem Dead.error {target margin : K} {readings : List (HeaterReading K)}
    (h : Dead cfg target margin readings) {r : HeaterReading K} (hr : r ∈ readings) :
    margin ≤ r.target - cfg.hysteresis - r.temp := by
  obtain ⟨htarget, htemp⟩ := h.below r hr
  linarith

omit [IsStrictOrderedRing K] in
theorem Dead.of_append {target margin : K} {readings more : List (HeaterReading K)}
    (h : Dead cfg target margin (readings ++ more)) : Dead cfg target margin readings :=
  ⟨fun r hr => h.below r (List.mem_append_left _ hr),
    fun r hr r' hr' => h.gain r (List.mem_append_left _ hr) r' (List.mem_append_left _ hr')⟩

/-- One more check of a dead heater, unless it is a fault. -/
theorem Dying.check {start target margin : K} {readings : List (HeaterReading K)}
    {r : HeaterReading K} {c c' : HeaterCheck K} {next : Option K}
    (h : Dying cfg start target margin readings c) (hnonneg : 0 ≤ c.error) (htarget : 0 < target)
    (hmargin : 0 < margin) (hdead : Dead cfg target margin (readings ++ [r]))
    (htime : r.time = start + readings.length) (hout : Outcome cfg r c c' next)
    (hnext : next ≠ none) :
    Dying cfg start target margin (readings ++ [r]) c' := by
  have hr : r ∈ readings ++ [r] := List.mem_append_right _ (List.mem_singleton_self r)
  have hbelow := hdead.below r hr
  have herror := hdead.error hr
  have hgain : 1 ≤ cfg.checkGainTime := one_le_checkGainTime
  obtain ⟨j, hjle, hj, hsum, hphase⟩ := h.goal
  have hlength : ((readings ++ [r]).length : K) = readings.length + 1 := by
    rw [List.length_append, List.length_singleton, Nat.cast_add, Nat.cast_one]
  have hlength' : (readings ++ [r]).length = readings.length + 1 := by
    rw [List.length_append, List.length_singleton]
  have hjcast : (j : K) ≤ readings.length := Nat.cast_le.mpr hjle
  have hpast : ∀ x ∈ readings ++ [r], x.time < start + ((readings ++ [r]).length : K) := by
    intro x hx
    rw [hlength]
    rcases List.mem_append.mp hx with hx | hx
    · have := h.past x hx
      linarith
    · rw [List.mem_singleton.mp hx, htime]
      linarith
  -- the error of one more check
  have hsum' : ∀ x, x = c.error + (r.target - cfg.hysteresis - r.temp) →
      (((readings ++ [r]).length : K) - 1 - j) * margin ≤ x := by
    rintro x rfl
    rw [hlength]
    have hexp : ((readings.length : K) + 1 - 1 - j) * margin =
        ((readings.length : K) - 1 - j) * margin + margin := by ring
    linarith
  cases hout with
  | near hnear =>
    refine absurd ⟨?_, by rw [hbelow.1]; exact htarget⟩ hnear
    unfold HeaterReading.Below
    linarith
  | starts hrout hnot hnew happroach herr hg hgoal hlast =>
    -- the target is new at the first check only
    have hnil : readings = [] := by
      by_contra hne
      exact hnew (hbelow.1.trans (h.target hne).symm)
    subst hnil
    refine ⟨fun _ => hlast.trans hbelow.1, hpast, 0, Nat.zero_le _, ?_, ?_,
      .inl ⟨happroach, ?_, ?_, ?_⟩⟩
    · rw [Nat.cast_zero]
      linarith
    · rw [hlength, herr, List.length_nil]
      simp only [Nat.cast_zero, zero_add, sub_self, zero_mul]
      linarith
    · rw [hlength, hgoal, htime]
      linarith
    · rw [hgoal, htime]
      simp only [List.length_nil, Nat.cast_zero]
      linarith
    · exact .inr ⟨r, hr, by rw [htime]; simp, hg⟩
  | faults => exact absurd rfl hnext
  | holds hrout hnot hsame happroach herr hsmall hlast =>
    exact ⟨fun _ => hlast.trans hbelow.1, hpast, j, hjle.trans (by omega), hj, hsum' _ herr,
      .inr ⟨happroach, .inr hsmall⟩⟩
  | gains hrout hwas hreached happroach herr hg hgoal hlast =>
    rcases hphase with ⟨-, hearly, hdue, hset⟩ | ⟨hnot, -⟩
    · rcases hset with hold | ⟨x, hx, hxtime, hxgoal⟩
      · -- the goal is from before
        refine ⟨fun _ => hlast.trans hbelow.1, hpast, readings.length, by omega, by linarith, ?_,
          .inl ⟨happroach, ?_, ?_, .inr ⟨r, hr, htime.ge, hg⟩⟩⟩
        · rw [hlength, herr]
          have hzero : ((readings.length : K) + 1 - 1 - readings.length) * margin = 0 := by ring
          rw [hzero]
        · rw [hlength, hgoal, htime]
          linarith
        · rw [hgoal, htime]
      · -- the temperature does not rise so far in this time
        have hpast' := h.past x hx
        have hrise := hdead.gain x (List.mem_append_left _ hx) r hr (by linarith) (by linarith)
        linarith
    · rw [hwas] at hnot
      cases hnot
  | stops hrout hwas hmissed hlate happroach herr hlast =>
    rcases hphase with ⟨-, hearly, hdue, -⟩ | ⟨hnot, -⟩
    · refine ⟨fun _ => hlast.trans hbelow.1, hpast, j, by omega, hj, hsum' _ herr,
        .inr ⟨happroach, .inl ?_⟩⟩
      rw [hlength]
      linarith
    · rw [hwas] at hnot
      cases hnot
  | waits hrout hwas hmissed hearly happroach herr hg hlower hgoal hlast =>
    rcases hphase with ⟨-, -, hdue, hset⟩ | ⟨hnot, -⟩
    · refine ⟨fun _ => hlast.trans hbelow.1, hpast, j, by omega, hj, hsum' _ herr,
        .inl ⟨happroach, ?_, ?_, ?_⟩⟩
      · rw [hlength, hgoal]
        linarith
      · rw [hgoal]
        exact hdue
      · rw [hgoal]
        rcases hset with hold | ⟨x, hx, hxtime, hxgoal⟩
        · exact .inl hold
        · right
          rcases hg with hg | hg
          · exact ⟨x, List.mem_append_left _ hx, hxtime, hg.trans hxgoal⟩
          · refine ⟨r, hr, ?_, hg⟩
            rw [htime]
            linarith
    · rw [hwas] at hnot
      cases hnot

theorem Dying.length_le {start target margin : K} {readings : List (HeaterReading K)}
    {c : HeaterCheck K} (h : Dying cfg start target margin readings c) (hmargin : 0 < margin) :
    (readings.length : K) + 1 ≤ 2 * cfg.checkGainTime + cfg.maxError / margin + 4 := by
  obtain ⟨j, -, hj, hsum, hphase⟩ := h.goal
  have herror : 0 ≤ cfg.maxError / margin := div_nonneg maxError_nonneg hmargin.le
  rcases hphase with ⟨-, hearly, hdue, -⟩ | ⟨-, hstopped | hsmall⟩
  · linarith
  · linarith
  · have hlt : (readings.length : K) - 1 - j < cfg.maxError / margin := by
      rw [lt_div_iff₀ hmargin]
      linarith
    have hgain : 1 ≤ cfg.checkGainTime := one_le_checkGainTime
    linarith

/-- The checks of a dead heater, after any others. -/
theorem dying_run {s t : HeaterWatch K} {es : List (HeaterWatchEvent K)} {start target margin : K}
    (hrun : Runs hcfg cfg s es t) (hsteady : Steady cfg s) (hstart : s.nextCheck = some start)
    (htarget : 0 < target) (hmargin : 0 < margin) :
    ∃ readings, t.readings = s.readings ++ readings ∧ Steady cfg t ∧
      (Dead cfg target margin readings → ∀ time, t.nextCheck = some time →
        time = start + readings.length ∧ Dying cfg start target margin readings t.check) := by
  have hgain : 1 ≤ cfg.checkGainTime := one_le_checkGainTime
  apply hrun.invariant (P := fun t => ∃ readings, t.readings = s.readings ++ readings ∧
    Steady cfg t ∧ (Dead cfg target margin readings → ∀ time, t.nextCheck = some time →
      time = start + readings.length ∧ Dying cfg start target margin readings t.check))
  · refine ⟨[], (List.append_nil _).symm, hsteady, fun _ time htime => ?_⟩
    obtain rfl := Option.some.inj (hstart.symm.trans htime)
    have hgoal := hsteady.goal start hstart
    have herror := hsteady.error
    refine ⟨by simp, fun h => absurd rfl h, ?_, 0, le_refl _, ?_, ?_, ?_⟩
    · intro x hx
      cases hx
    · rw [Nat.cast_zero]
      linarith
    · simp only [List.length_nil, Nat.cast_zero]
      linarith
    · cases happroach : s.check.approachingTarget with
      | false =>
        refine .inr ⟨rfl, .inl ?_⟩
        simp only [List.length_nil, Nat.cast_zero]
        linarith
      | true =>
        have := hgoal happroach
        refine .inl ⟨rfl, ?_, ?_, .inl this.2⟩
        · simp only [List.length_nil, Nat.cast_zero]
          linarith
        · rw [Nat.cast_zero]
          linarith
  · rintro t e u ⟨readings, hreadings, ht, hdying⟩ hstep
    have hu := ht.step hstep
    rcases step_cases hstep with ⟨hcheck, hnext, hsame⟩ | ⟨time, r, hnext, rfl, hmore, hout⟩
    · refine ⟨readings, hsame.trans hreadings, hu, fun hdead time htime => ?_⟩
      rw [hcheck]
      exact hdying hdead time (hnext.symm.trans htime)
    · refine ⟨readings ++ [r], by rw [hmore, hreadings, List.append_assoc], hu, ?_⟩
      intro hdead time htime
      obtain ⟨hrtime, hbefore⟩ := hdying hdead.of_append r.time hnext
      have hafter := hbefore.check ht.error htarget hmargin hdead hrtime hout (by rw [htime]; simp)
      refine ⟨?_, hafter⟩
      have hlast : u.nextCheck = some (r.time + 1) := by
        generalize u.nextCheck = next at hout htime
        cases hout with
        | faults => cases htime
        | _ => rfl
      rw [hlast] at htime
      rw [← Option.some.inj htime, hrtime, List.length_append, List.length_singleton]
      push_cast
      ring

/-! ## A working heater -/

/-- What holds while a heater works: out of range it approaches its target, and its goal is one
that it reaches in time. -/
structure Calm (cfg : HeaterCheckConfig K) (s : HeaterWatch K) : Prop where
  running : ¬ s.Faulted
  lastTarget : s.check.lastTarget = (s.readings.getLast?.map HeaterReading.target).getD 0
  out : ∀ r, s.readings.getLast? = some r → Out cfg r → s.check.approachingTarget = true
  goal : s.check.approachingTarget = true → ∃ (i : ℕ) (x : HeaterReading K),
    s.readings[i]? = some x ∧ (∀ (k : ℕ) y, i ≤ k → s.readings[k]? = some y → y.Below cfg) ∧
      s.check.goalSystime = x.time + cfg.checkGainTime ∧
      s.check.goalTemp ≤ x.temp + cfg.heatingGain

omit [IsStrictOrderedRing K] in
theorem Works.of_append {readings more : List (HeaterReading K)}
    (h : Works cfg (readings ++ more)) : Works cfg readings := by
  have hget : ∀ {i : ℕ} {r : HeaterReading K}, readings[i]? = some r →
      (readings ++ more)[i]? = some r := by
    intro i r hr
    obtain ⟨hi, -⟩ := List.getElem?_eq_some_iff.mp hr
    rw [List.getElem?_append_left hi, hr]
  constructor
  · intro i r r' hr hr'
    exact h.starts i r r' (hget hr) (hget hr')
  · intro i j r r' hij hr hr' hbelow
    refine h.gain i j r r' hij (hget hr) (hget hr') fun k x hik hkj hx => ?_
    obtain ⟨hj, -⟩ := List.getElem?_eq_some_iff.mp hr'
    rw [List.getElem?_append_left (by omega)] at hx
    exact hbelow k x hik hkj hx

omit [IsStrictOrderedRing K] in
theorem calm_init (fileOutput : Bool) (start : K) : Calm cfg (init hcfg fileOutput start) where
  running := fun h => by cases h
  lastTarget := rfl
  out := fun r h => by cases h
  goal := fun h => by cases h

omit [IsStrictOrderedRing K] in
theorem below_append {readings : List (HeaterReading K)} {r : HeaterReading K} {i : ℕ}
    (h : ∀ (k : ℕ) y, i ≤ k → readings[k]? = some y → y.Below cfg) (hr : r.Below cfg) :
    ∀ (k : ℕ) y, i ≤ k → (readings ++ [r])[k]? = some y → y.Below cfg := by
  intro k y hik hy
  rw [List.getElem?_append] at hy
  split at hy
  · exact h k y hik hy
  · rw [List.getElem?_singleton] at hy
    split at hy
    · exact Option.some.inj hy ▸ hr
    · cases hy

/-- One more check of a working heater. -/
theorem Calm.check {s t : HeaterWatch K} {r : HeaterReading K} (h : Calm cfg s)
    (hworks : Works cfg (s.readings ++ [r])) (hreadings : t.readings = s.readings ++ [r])
    (hout : Outcome cfg r s.check t.check t.nextCheck) : Calm cfg t := by
  have hget : (s.readings ++ [r])[s.readings.length]? = some r := List.getElem?_concat_length
  have hlast : t.readings.getLast? = some r := by rw [hreadings, List.getLast?_concat]
  have hlastTarget : t.check.lastTarget = r.target →
      t.check.lastTarget = (t.readings.getLast?.map HeaterReading.target).getD 0 := by
    intro htarget
    rw [hlast]
    exact htarget
  -- out of range without an approach, the target is new
  have hnew : Out cfg r → s.check.approachingTarget = false → r.target ≠ s.check.lastTarget := by
    intro hr hnot
    rw [h.lastTarget]
    cases hbefore : s.readings.getLast? with
    | none => exact hr.2.ne'
    | some x =>
      have hnotOut : ¬ Out cfg x := by
        intro hx
        rw [h.out x hbefore hx] at hnot
        cases hnot
      by_cases hx : x.Below cfg
      · have hle : x.target ≤ 0 := not_lt.mp fun hpos => hnotOut ⟨hx, hpos⟩
        exact (hle.trans_lt hr.2).ne'
      · rw [List.getLast?_eq_getElem?] at hbefore
        obtain ⟨hi, -⟩ := List.getElem?_eq_some_iff.mp hbefore
        have hindex : s.readings.length - 1 + 1 = s.readings.length := by omega
        refine hworks.starts (s.readings.length - 1) x r ?_ ?_ hx hr.1
        · rw [List.getElem?_append_left hi, hbefore]
        · rw [hindex, hget]
  -- a goal that is set now
  have hset : r.Below cfg → t.check.goalTemp = r.temp + cfg.heatingGain →
      t.check.goalSystime = r.time + cfg.checkGainTime →
      ∃ (i : ℕ) (x : HeaterReading K), t.readings[i]? = some x ∧
        (∀ (k : ℕ) y, i ≤ k → t.readings[k]? = some y → y.Below cfg) ∧
        t.check.goalSystime = x.time + cfg.checkGainTime ∧
        t.check.goalTemp ≤ x.temp + cfg.heatingGain := by
    intro hr hgoal htime
    refine ⟨s.readings.length, r, by rw [hreadings, hget], ?_, htime, hgoal.le⟩
    rw [hreadings]
    apply below_append _ hr
    intro k y hk hy
    obtain ⟨hlt, -⟩ := List.getElem?_eq_some_iff.mp hy
    omega
  generalize hnext : t.nextCheck = next at hout
  cases hout with
  | near hnear happroach herr htarget =>
    refine ⟨by simp [Faulted, hnext], hlastTarget htarget, fun x hx hxout => ?_, fun hwas => ?_⟩
    · rw [hlast] at hx
      exact absurd (Option.some.inj hx ▸ hxout) hnear
    · rw [happroach] at hwas
      cases hwas
  | starts hr hnot hchange happroach herr hgoal htime htarget =>
    exact ⟨by simp [Faulted, hnext], hlastTarget htarget, fun _ _ _ => happroach,
      fun _ => hset hr.1 hgoal htime⟩
  | faults hr hnot hsame => exact absurd hsame (hnew hr hnot)
  | holds hr hnot hsame => exact absurd hsame (hnew hr hnot)
  | gains hr hwas hreached happroach herr hgoal htime htarget =>
    exact ⟨by simp [Faulted, hnext], hlastTarget htarget, fun _ _ _ => happroach,
      fun _ => hset hr.1 hgoal htime⟩
  | stops hr hwas hmissed hlate =>
    -- the time was enough to reach the goal
    obtain ⟨i, x, hx, hbelow, htime, hgoal⟩ := h.goal hwas
    obtain ⟨hi, -⟩ := List.getElem?_eq_some_iff.mp hx
    have hx' : (s.readings ++ [r])[i]? = some x := by rw [List.getElem?_append_left hi, hx]
    have hrise := hworks.gain i s.readings.length x r hi.le hx' hget
      (fun k y hik _ hy => below_append hbelow hr.1 k y hik hy) (by linarith)
    linarith
  | waits hr hwas hmissed hearly happroach herr hg hlower htime htarget =>
    obtain ⟨i, x, hx, hbelow, hsys, hgoal⟩ := h.goal hwas
    obtain ⟨hi, -⟩ := List.getElem?_eq_some_iff.mp hx
    refine ⟨by simp [Faulted, hnext], hlastTarget htarget, fun _ _ _ => happroach, fun _ => ?_⟩
    refine ⟨i, x, ?_, ?_, htime.trans hsys, hlower.trans hgoal⟩
    · rw [hreadings, List.getElem?_append_left hi, hx]
    · rw [hreadings]
      exact below_append hbelow hr.1

/-- A working heater is calm after every run. -/
theorem calm_run {t : HeaterWatch K} {es : List (HeaterWatchEvent K)} {fileOutput : Bool}
    {start : K} (hrun : Runs hcfg cfg (init hcfg fileOutput start) es t)
    (hworks : Works cfg t.readings) : Calm cfg t := by
  have hcalm := hrun.invariant (P := fun t => Works cfg t.readings → Calm cfg t)
    (fun _ => calm_init fileOutput start) ?_
  · exact hcalm hworks
  · intro s e t hs hstep hworks
    rcases step_cases hstep with ⟨hcheck, hnext, hsame⟩ | ⟨time, r, hnext, -, hmore, hout⟩
    · rw [hsame] at hworks
      have hcalm := hs hworks
      refine ⟨?_, ?_, ?_, ?_⟩
      · unfold Faulted
        rw [hnext]
        exact hcalm.running
      · rw [hcheck, hsame]
        exact hcalm.lastTarget
      · rw [hcheck, hsame]
        exact hcalm.out
      · rw [hcheck, hsame]
        exact hcalm.goal
    · rw [hmore] at hworks
      exact (hs hworks.of_append).check hworks hmore hout

/-! ## Both sides -/

theorem steady_run {t : HeaterWatch K} {es : List (HeaterWatchEvent K)} {fileOutput : Bool}
    {start : K} (hrun : Runs hcfg cfg (init hcfg fileOutput start) es t) : Steady cfg t :=
  hrun.invariant (P := Steady cfg) (steady_init fileOutput start) fun _ _ _ hs hstep =>
    hs.step hstep

omit [IsStrictOrderedRing K] in
theorem Faulted.run {s t : HeaterWatch K} {es : List (HeaterWatchEvent K)} (h : s.Faulted)
    (hrun : Runs hcfg cfg s es t) : t.Faulted := by
  apply hrun.invariant (P := Faulted) h
  intro s e t hs hstep
  rcases step_cases hstep with ⟨-, hnext, -⟩ | ⟨time, r, hnext, -⟩
  · exact hnext.trans hs
  · rw [hs] at hnext
    cases hnext

/-- A dead heater is a fault: without one, whatever was before, there are fewer checks than the
bound.  A working heater never is. -/
theorem heaterFault_run (hcfg : HeaterConfig K) (cfg : HeaterCheckConfig K) (fileOutput : Bool)
    (start : K) :
    (∀ es s es' t, Runs hcfg cfg (init hcfg fileOutput start) es s → Runs hcfg cfg s es' t →
      ∀ readings, t.readings = s.readings ++ readings → ∀ target margin : K, 0 < target →
        0 < margin → Dead cfg target margin readings →
        t.Faulted ∨ (readings.length : K) + 1 ≤
          2 * cfg.checkGainTime + cfg.maxError / margin + 4) ∧
    ∀ es t, Runs hcfg cfg (init hcfg fileOutput start) es t → Works cfg t.readings →
      ¬ t.Faulted := by
  constructor
  · intro es s es' t hrun hrun' readings hreadings target margin htarget hmargin hdead
    have hsteady := steady_run hrun
    cases hs : s.nextCheck with
    | none => exact .inl (Faulted.run hs hrun')
    | some time =>
      obtain ⟨readings', hreadings', -, hdying⟩ := dying_run hrun' hsteady hs htarget hmargin
      obtain rfl := List.append_cancel_left (hreadings'.symm.trans hreadings)
      by_cases hfault : t.Faulted
      · exact .inl hfault
      · obtain ⟨time, htime⟩ := Option.ne_none_iff_exists'.mp hfault
        exact .inr ((hdying hdead time htime).2.length_le hmargin)
  · intro es t hrun hworks
    exact (calm_run hrun hworks).running

end HeaterWatch

/-! ## A bed -/

theorem forall_mem_none {p : ℚ → Prop} : ∀ x ∈ (none : Option ℚ), p x := by simp

/-- A bed with the default options. -/
def bedCheck : HeaterCheckConfig ℚ where
  heaterName := "heater_bed"
  hysteresisOption := none
  maxErrorOption := none
  heatingGainOption := none
  checkGainTimeOption := none
  hysteresis_minval := forall_mem_none
  maxError_minval := forall_mem_none
  heatingGain_above := forall_mem_none
  checkGainTime_minval := forall_mem_none

namespace HeaterWatch

/-- The bed gets a target and stays cold. -/
def coldBed : List (HeaterWatchEvent ℚ) :=
  [.heater (.setTemp 60), .check 0, .check 1]

/-- The bed gets a target and reaches it. -/
def warmBed : List (HeaterWatchEvent ℚ) :=
  [.heater (.setTemp 60), .check 0, .heater (.callback 1 30), .check 1,
    .heater (.callback 2 58), .check 2]

/-- The bed is out of range from its target on, and no time to gain passes. -/
theorem works_warmBed : Works bedCheck [⟨0, 0, 60⟩, ⟨1, 30, 60⟩, ⟨2, 58, 60⟩] := by
  have htimes : ∀ x ∈ ([⟨0, 0, 60⟩, ⟨1, 30, 60⟩, ⟨2, 58, 60⟩] : List (HeaterReading ℚ)),
      0 ≤ x.time ∧ x.time ≤ 2 := by decide +kernel
  constructor
  · intro i r r' hr hr' hnot
    obtain ⟨hi, -⟩ := List.getElem?_eq_some_iff.mp hr'
    have hfirst : ∀ x ∈ ([⟨0, 0, 60⟩, ⟨1, 30, 60⟩] : List (HeaterReading ℚ)), x.Below bedCheck := by
      decide +kernel
    have hmem : r ∈ ([⟨0, 0, 60⟩, ⟨1, 30, 60⟩] : List (HeaterReading ℚ)) := by
      apply List.mem_of_getElem? (i := i)
      rcases i with _ | _ | i
      · exact hr
      · exact hr
      · have hi' : i + 1 + 1 + 1 < 3 := hi
        omega
    exact absurd (hfirst r hmem) hnot
  · intro i j r r' _ hr hr' _ hlong
    have htime := htimes r (List.mem_of_getElem? hr)
    have htime' := htimes r' (List.mem_of_getElem? hr')
    have hgain : bedCheck.checkGainTime = 60 := by decide +kernel
    linarith

theorem heaterFault_run_bed :
    (∃ t, Runs hotend bedCheck (init hotend false 0) coldBed t ∧
      (t.Faulted ∨ (2 : ℚ) + 1 ≤ 2 * 60 + 120 / 55 + 4)) ∧
    ∃ t, Runs hotend bedCheck (init hotend false 0) warmBed t ∧ ¬ t.Faulted := by
  constructor
  · obtain ⟨t, hrun, ht⟩ := Run.exists_of_any (f := step hotend bedCheck)
      (P := fun t => decide (t.readings = [⟨0, 0, 60⟩, ⟨1, 0, 60⟩])) (l := coldBed)
      (s := init hotend false 0) (by decide +kernel)
    refine ⟨t, hrun, ?_⟩
    have hreadings := of_decide_eq_true ht
    have hdead : Dead bedCheck 60 55 [⟨0, 0, 60⟩, ⟨1, 0, 60⟩] :=
      ⟨by decide +kernel, by decide +kernel⟩
    exact (heaterFault_run hotend bedCheck false 0).1 [] _ coldBed t .nil hrun _ hreadings 60 55
      (by norm_num) (by norm_num) hdead
  · obtain ⟨t, hrun, ht⟩ := Run.exists_of_any (f := step hotend bedCheck)
      (P := fun t => decide (t.readings = [⟨0, 0, 60⟩, ⟨1, 30, 60⟩, ⟨2, 58, 60⟩])) (l := warmBed)
      (s := init hotend false 0) (by decide +kernel)
    refine ⟨t, hrun, ?_⟩
    apply (heaterFault_run hotend bedCheck false 0).2 warmBed t hrun
    rw [of_decide_eq_true ht]
    exact works_warmBed

end HeaterWatch

end FlsunT1.Klippy
