/-
  Klippy/HeaterOutput.lean --- the output of a heater (klippy/extras/heaters.py).

  A sensor reports temperatures, the control algorithm makes a power of each, and `set_pwm`
  sends it to the micro-controller unless nothing much changes.  Times and powers are exact.
-/
import FlsunT1.Klippy.GcodeMove
import FlsunT1.Library.Instances
import Mathlib.Data.List.Chain
import Mathlib.Data.List.Induction
import Mathlib.Tactic.Linarith

set_option autoImplicit false

namespace FlsunT1.Klippy

variable {K : Type} [Field K] [LinearOrder K]

/-! ## The heater -/

/-- `MAX_HEAT_TIME` -/
def maxHeatTime : K := 5

/-- `AMBIENT_TEMP` -/
def ambientTemp : K := 25

/-- The options of the control algorithm; `pid` has its factors divided by `PID_PARAM_BASE`. -/
inductive HeaterAlgorithm (K : Type) where
  | watermark (maxDelta : K)
  | pid (kp ki kd : K)

/-- What `__init__` reads.  The delay of the output is positive as the cycle time of the pin is
positive and at most as long. -/
structure HeaterConfig (K : Type) [Field K] [LinearOrder K] where
  minTemp : K
  maxTemp : K
  minExtrudeTemp : K
  maxPower : K
  smoothTime : K
  pwmDelay : K
  algorithm : HeaterAlgorithm K
  maxPower_pos : 0 < maxPower
  maxPower_le : maxPower ≤ 1
  smoothTime_pos : 0 < smoothTime
  pwmDelay_pos : 0 < pwmDelay

/-- What `ControlBangBang` and `ControlPID` remember. -/
inductive HeaterControl (K : Type) where
  | watermark (maxDelta : K) (heating : Bool)
  | pid (kp ki kd prevTemp prevTempTime prevTempDeriv prevTempInteg : K)

/-- What `mcu_pwm.set_pwm` is called with. -/
structure PwmCommand (K : Type) where
  time : K
  value : K
  deriving DecidableEq

/-- The heater, with the commands that it has sent. -/
structure Heater (K : Type) where
  control : HeaterControl K
  lastTemp : K
  smoothedTemp : K
  targetTemp : K
  lastTempTime : K
  nextPwmTime : K
  lastPwmValue : K
  canExtrude : Bool
  sent : List (PwmCommand K)

namespace HeaterControl

variable (cfg : HeaterConfig K)

/-- `ControlBangBang.__init__` and `ControlPID.__init__` -/
def init : HeaterAlgorithm K → HeaterControl K
  | .watermark maxDelta => .watermark maxDelta false
  | .pid kp ki kd => .pid kp ki kd ambientTemp 0 0 0

/-- `temperature_update`, with the power that it passes to `set_pwm`. -/
def temperatureUpdate (readTime temp targetTemp : K) : HeaterControl K → HeaterControl K × K
  | .watermark maxDelta heating =>
    let heating :=
      if heating = true ∧ targetTemp + maxDelta ≤ temp then false
      else if heating = false ∧ temp ≤ targetTemp - maxDelta then true
      else heating
    (.watermark maxDelta heating, if heating then cfg.maxPower else 0)
  | .pid kp ki kd prevTemp prevTempTime prevTempDeriv prevTempInteg =>
    let timeDiff := readTime - prevTempTime
    let tempDiff := temp - prevTemp
    let tempDeriv :=
      if cfg.smoothTime ≤ timeDiff then tempDiff / timeDiff
      else (prevTempDeriv * (cfg.smoothTime - timeDiff) + tempDiff) / cfg.smoothTime
    let tempErr := targetTemp - temp
    let tempIntegMax := if ki = 0 then 0 else cfg.maxPower / ki
    let tempInteg := max 0 (min tempIntegMax (prevTempInteg + tempErr * timeDiff))
    let co := kp * tempErr + ki * tempInteg - kd * tempDeriv
    let boundedCo := max 0 (min cfg.maxPower co)
    (.pid kp ki kd temp readTime tempDeriv (if co = boundedCo then tempInteg else prevTempInteg),
      boundedCo)

end HeaterControl

namespace Heater

variable (cfg : HeaterConfig K)

/-- `__init__`; `fileOutput` says that the commands go to a file. -/
def init (fileOutput : Bool) : Heater K where
  control := .init cfg.algorithm
  lastTemp := 0
  smoothedTemp := 0
  targetTemp := 0
  lastTempTime := 0
  nextPwmTime := 0
  lastPwmValue := 0
  canExtrude := decide (cfg.minExtrudeTemp ≤ 0) || fileOutput
  sent := []

/-- What `set_pwm` makes of the power it is asked for. -/
def asked (s : Heater K) (value : K) : K := if s.targetTemp ≤ 0 then 0 else value

/-- `set_pwm` -/
def setPwm (readTime value : K) (s : Heater K) : Heater K :=
  let value := s.asked value
  if (readTime < s.nextPwmTime ∨ s.lastPwmValue = 0) ∧ |value - s.lastPwmValue| < 1 / 20 then s
  else
    let pwmTime := readTime + cfg.pwmDelay
    { s with
      nextPwmTime := pwmTime + 3 / 4 * maxHeatTime
      lastPwmValue := value
      sent := s.sent ++ [⟨pwmTime, value⟩] }

/-- `temperature_callback` -/
def temperatureCallback (readTime temp : K) (s : Heater K) : Heater K :=
  let timeDiff := readTime - s.lastTempTime
  let updated := s.control.temperatureUpdate cfg readTime temp s.targetTemp
  let s := { s with lastTemp := temp, lastTempTime := readTime, control := updated.1 }
  let s := s.setPwm cfg readTime updated.2
  let tempDiff := temp - s.smoothedTemp
  let adjTime := min (timeDiff * (1 / cfg.smoothTime)) 1
  let smoothedTemp := s.smoothedTemp + tempDiff * adjTime
  { s with
    smoothedTemp := smoothedTemp
    canExtrude := decide (cfg.minExtrudeTemp ≤ smoothedTemp) }

end Heater

/-- The temperature that `set_temp` raises at. -/
def HeaterConfig.Rejects (cfg : HeaterConfig K) (degrees : K) : Prop :=
  degrees ≠ 0 ∧ (degrees < cfg.minTemp ∨ cfg.maxTemp < degrees)

instance (cfg : HeaterConfig K) (degrees : K) : Decidable (cfg.Rejects degrees) :=
  inferInstanceAs (Decidable (_ ∧ _))

namespace Heater

variable (cfg : HeaterConfig K)

/-- `set_temp`; it leaves the heater alone where it raises. -/
def setTemp (degrees : K) (s : Heater K) : Heater K :=
  if cfg.Rejects degrees then s else { s with targetTemp := degrees }

end Heater

/-! ## Runs -/

/-- What happens to a heater. -/
inductive HeaterEvent (K : Type) where
  | callback (readTime temp : K)
  | setTemp (degrees : K)

/-- The read time of a temperature. -/
def HeaterEvent.readTime : HeaterEvent K → Option K
  | .callback readTime _ => some readTime
  | .setTemp _ => none

/-- The read times of the temperatures, in order. -/
def readTimes (es : List (HeaterEvent K)) : List K := es.filterMap HeaterEvent.readTime

/-- The read times increase by at most `period`. -/
def Timely (period : K) (es : List (HeaterEvent K)) : Prop :=
  (readTimes es).IsChain fun r r' => r < r' ∧ r' ≤ r + period

namespace Heater

variable (cfg : HeaterConfig K) (fileOutput : Bool)

/-- One event. -/
def next (s : Heater K) : HeaterEvent K → Heater K
  | .callback readTime temp => s.temperatureCallback cfg readTime temp
  | .setTemp degrees => s.setTemp cfg degrees

/-- The heater after some events. -/
def after (es : List (HeaterEvent K)) : Heater K := es.foldl (next cfg) (init cfg fileOutput)

/-- The power that was last sent. -/
def lastSent (s : Heater K) : K := (s.sent.getLast?.map PwmCommand.value).getD 0

/-- The last command that heats. -/
def lastHeating (s : Heater K) : Option (PwmCommand K) :=
  (s.sent.filter fun c => c.value ≠ 0).getLast?

/-- The power that a temperature asks for. -/
def callbackAsks (readTime temp : K) (s : Heater K) : K :=
  s.asked (s.control.temperatureUpdate cfg readTime temp s.targetTemp).2

end Heater

variable {cfg : HeaterConfig K} {s : Heater K}

/-! ## One call -/

theorem HeaterControl.temperatureUpdate_range (c : HeaterControl K) (readTime temp target : K) :
    0 ≤ (c.temperatureUpdate cfg readTime temp target).2 ∧
      (c.temperatureUpdate cfg readTime temp target).2 ≤ cfg.maxPower := by
  cases c with
  | watermark maxDelta heating =>
    have hrange : ∀ b : Bool, 0 ≤ (if b then cfg.maxPower else 0) ∧
        (if b then cfg.maxPower else 0) ≤ cfg.maxPower := by
      intro b
      cases b with
      | true => exact ⟨cfg.maxPower_pos.le, le_rfl⟩
      | false => exact ⟨le_rfl, cfg.maxPower_pos.le⟩
    exact hrange _
  | pid kp ki kd prevTemp prevTempTime prevTempDeriv prevTempInteg =>
    exact ⟨le_max_left _ _, max_le cfg.maxPower_pos.le (min_le_left _ _)⟩

namespace Heater

theorem asked_range {value : K} (h : 0 ≤ value ∧ value ≤ cfg.maxPower) :
    0 ≤ s.asked value ∧ s.asked value ≤ cfg.maxPower := by
  unfold asked
  split
  · exact ⟨le_rfl, cfg.maxPower_pos.le⟩
  · exact h

variable (cfg) in
theorem setPwm_cases (readTime value : K) (s : Heater K) :
    (s.setPwm cfg readTime value = s ∧ (s.lastPwmValue ≠ 0 → readTime < s.nextPwmTime) ∧
      |s.asked value - s.lastPwmValue| < 1 / 20) ∨
    s.setPwm cfg readTime value =
      { s with
        nextPwmTime := readTime + cfg.pwmDelay + 3 / 4 * maxHeatTime
        lastPwmValue := s.asked value
        sent := s.sent ++ [⟨readTime + cfg.pwmDelay, s.asked value⟩] } := by
  unfold setPwm
  dsimp only
  split
  · rename_i hkeep
    exact Or.inl ⟨rfl, fun hne => hkeep.1.resolve_right hne, hkeep.2⟩
  · exact Or.inr rfl

variable (cfg) in
/-- What a temperature does to the output. -/
theorem temperatureCallback_cases (readTime temp : K) (s : Heater K) :
    (s.temperatureCallback cfg readTime temp).targetTemp = s.targetTemp ∧
    (s.temperatureCallback cfg readTime temp).lastTempTime = readTime ∧
    (((s.temperatureCallback cfg readTime temp).sent = s.sent ∧
        (s.temperatureCallback cfg readTime temp).nextPwmTime = s.nextPwmTime ∧
        (s.temperatureCallback cfg readTime temp).lastPwmValue = s.lastPwmValue ∧
        (s.lastPwmValue ≠ 0 → readTime < s.nextPwmTime) ∧
        |s.callbackAsks cfg readTime temp - s.lastPwmValue| < 1 / 20) ∨
      ((s.temperatureCallback cfg readTime temp).sent =
          s.sent ++ [⟨readTime + cfg.pwmDelay, s.callbackAsks cfg readTime temp⟩] ∧
        (s.temperatureCallback cfg readTime temp).nextPwmTime =
          readTime + cfg.pwmDelay + 3 / 4 * maxHeatTime ∧
        (s.temperatureCallback cfg readTime temp).lastPwmValue =
          s.callbackAsks cfg readTime temp)) := by
  unfold temperatureCallback
  dsimp only
  rcases setPwm_cases cfg readTime _ _ with ⟨hkept, hdue, hclose⟩ | hsent
  · rw [hkept]
    exact ⟨rfl, rfl, Or.inl ⟨rfl, rfl, rfl, hdue, hclose⟩⟩
  · rw [hsent]
    exact ⟨rfl, rfl, Or.inr ⟨rfl, rfl, rfl⟩⟩

variable (cfg) in
theorem setTemp_frame (degrees : K) (s : Heater K) :
    (s.setTemp cfg degrees).sent = s.sent ∧
      (s.setTemp cfg degrees).nextPwmTime = s.nextPwmTime ∧
      (s.setTemp cfg degrees).lastPwmValue = s.lastPwmValue ∧
      (s.setTemp cfg degrees).lastTempTime = s.lastTempTime := by
  unfold setTemp
  split <;> exact ⟨rfl, rfl, rfl, rfl⟩

/-! ## The output in a run -/

variable {fileOutput : Bool} {es : List (HeaterEvent K)} {period : K} {l : List (PwmCommand K)}

theorem after_append (es : List (HeaterEvent K)) (e : HeaterEvent K) :
    after cfg fileOutput (es ++ [e]) = (after cfg fileOutput es).next cfg e := by
  unfold after
  rw [List.foldl_append, List.foldl_cons, List.foldl_nil]

omit [Field K] [LinearOrder K] in
theorem readTimes_callback (es : List (HeaterEvent K)) (readTime temp : K) :
    readTimes (es ++ [.callback readTime temp]) = readTimes es ++ [readTime] := by
  unfold readTimes
  rw [List.filterMap_append]
  rfl

omit [Field K] [LinearOrder K] in
theorem readTimes_setTemp (es : List (HeaterEvent K)) (degrees : K) :
    readTimes (es ++ [.setTemp degrees]) = readTimes es := by
  unfold readTimes
  rw [List.filterMap_append]
  exact List.append_nil _

/-- What the heater keeps: a command that heats is refreshed before the next temperature is
late. -/
structure Refreshed (cfg : HeaterConfig K) (es : List (HeaterEvent K)) (s : Heater K) : Prop where
  last : s.lastSent = s.lastPwmValue
  range : ∀ c ∈ s.sent, 0 ≤ c.value ∧ c.value ≤ cfg.maxPower
  gaps : s.sent.IsChain fun c c' => c.value ≠ 0 → c'.time ≤ c.time + maxHeatTime
  due : ∀ c ∈ s.sent.getLast?, s.nextPwmTime = c.time + 3 / 4 * maxHeatTime
  fresh : s.lastPwmValue ≠ 0 → s.lastTempTime < s.nextPwmTime
  read : s.sent ≠ [] → s.lastTempTime ∈ (readTimes es).getLast?

theorem Refreshed.init : Refreshed cfg [] (init cfg fileOutput) where
  last := rfl
  range c hc := absurd hc List.not_mem_nil
  gaps := .nil
  due c hc := by cases hc
  fresh hne := absurd rfl hne
  read hne := absurd rfl hne

theorem Refreshed.setTemp (h : Refreshed cfg es s) (degrees : K) :
    Refreshed cfg (es ++ [.setTemp degrees]) (s.setTemp cfg degrees) := by
  obtain ⟨hsent, hnext, hlast, htime⟩ := setTemp_frame cfg degrees s
  constructor
  · rw [lastSent, hsent, hlast]
    exact h.last
  · rw [hsent]
    exact h.range
  · rw [hsent]
    exact h.gaps
  · rw [hsent, hnext]
    exact h.due
  · rw [hlast, hnext, htime]
    exact h.fresh
  · rw [hsent, htime, readTimes_setTemp]
    exact h.read

omit [LinearOrder K] in
theorem lastSent_append (c : PwmCommand K) (h : s.sent = l ++ [c]) : s.lastSent = c.value := by
  rw [lastSent, h, List.getLast?_concat]
  rfl

/-! ## Switching off -/

/-- The target is not positive, and a command that heats is refreshed at the time `t`. -/
structure Cooling (t : K) (s : Heater K) : Prop where
  target : s.targetTemp ≤ 0
  due : s.lastPwmValue = 0 ∨ s.nextPwmTime = t

variable {t : K}

variable (cfg) in
theorem Cooling.callback (h : Cooling t s) (readTime temp : K) :
    Cooling t (s.temperatureCallback cfg readTime temp) ∧
      (s.lastPwmValue = 0 ∨ t ≤ readTime →
        (s.temperatureCallback cfg readTime temp).lastPwmValue = 0) := by
  have hasks : s.callbackAsks cfg readTime temp = 0 := if_pos h.target
  obtain ⟨htarget, -, ⟨-, hnext, hlast, hdue, -⟩ | ⟨-, -, hlast⟩⟩ :=
    temperatureCallback_cases cfg readTime temp s
  · refine ⟨⟨htarget.trans_le h.target, ?_⟩, fun hor => ?_⟩
    · rw [hlast, hnext]
      exact h.due
    · rw [hlast]
      by_contra hne
      have hread := hdue hne
      rw [h.due.resolve_left hne] at hread
      exact (hor.resolve_left hne).not_gt hread
  · rw [hasks] at hlast
    exact ⟨⟨htarget.trans_le h.target, Or.inl hlast⟩, fun _ => hlast⟩

theorem Cooling.setTemp (h : Cooling t s) {degrees : K}
    (hdegrees : degrees = 0 ∨ cfg.Rejects degrees) : Cooling t (s.setTemp cfg degrees) := by
  unfold Heater.setTemp
  split
  · exact h
  · rename_i haccepted
    exact ⟨(hdegrees.resolve_right haccepted).le, h.due⟩

/-- As long as the target stays, a temperature at `t` or later switches the heater off. -/
theorem Cooling.run (h : Cooling t s) {es : List (HeaterEvent K)}
    (hes : ∀ degrees, .setTemp degrees ∈ es → degrees = 0 ∨ cfg.Rejects degrees) :
    Cooling t (es.foldl (next cfg) s) ∧
      ((s.lastPwmValue = 0 ∨ ∃ readTime temp, .callback readTime temp ∈ es ∧ t ≤ readTime) →
        (es.foldl (next cfg) s).lastPwmValue = 0) := by
  induction es using List.reverseRecOn with
  | nil =>
    refine ⟨h, fun hor => hor.resolve_right ?_⟩
    rintro ⟨_, _, hmem, -⟩
    exact List.not_mem_nil hmem
  | append_singleton es e ih =>
    obtain ⟨hcooling, hoff⟩ := ih fun degrees hmem =>
      hes degrees (List.mem_append_left _ hmem)
    rw [List.foldl_append, List.foldl_cons, List.foldl_nil]
    cases e with
    | callback readTime temp =>
      obtain ⟨hcooling', hoff'⟩ := hcooling.callback cfg readTime temp
      refine ⟨hcooling', fun hor => hoff' ?_⟩
      rcases hor with hzero | ⟨r, temp', hmem, hr⟩
      · exact Or.inl (hoff (Or.inl hzero))
      · rcases List.mem_append.mp hmem with hmem | hmem
        · exact Or.inl (hoff (Or.inr ⟨r, temp', hmem, hr⟩))
        · cases List.mem_singleton.mp hmem
          exact Or.inr hr
    | setTemp degrees =>
      have hdegrees := hes degrees (List.mem_append_right _ List.mem_cons_self)
      refine ⟨hcooling.setTemp hdegrees, fun hor => ?_⟩
      change ((es.foldl (next cfg) s).setTemp cfg degrees).lastPwmValue = 0
      rw [(setTemp_frame cfg degrees _).2.2.1]
      apply hoff
      refine hor.imp_right ?_
      rintro ⟨r, temp, hmem, hr⟩
      rcases List.mem_append.mp hmem with hmem | hmem
      · exact ⟨r, temp, hmem, hr⟩
      · cases List.mem_singleton.mp hmem

theorem lastHeating_of_getLast? {c : PwmCommand K} (hc : c ∈ s.sent.getLast?) (hne : c.value ≠ 0) :
    c ∈ s.lastHeating := by
  obtain ⟨l, hl⟩ := List.getLast?_eq_some_iff.mp hc
  unfold lastHeating
  rw [hl, List.filter_append, List.filter_singleton, decide_eq_true hne, cond_true,
    List.getLast?_concat]
  exact rfl

theorem Refreshed.cooling (h : Refreshed cfg es s) :
    ∃ t, Cooling t (s.setTemp cfg 0) ∧ (s.lastPwmValue ≠ 0 →
      ∃ c ∈ s.lastHeating, t = c.time + 3 / 4 * maxHeatTime) := by
  have hzero : s.setTemp cfg 0 = { s with targetTemp := 0 } := if_neg fun hr => hr.1 rfl
  refine ⟨s.nextPwmTime, ?_, fun hne => ?_⟩
  · rw [hzero]
    exact ⟨le_rfl, Or.inr rfl⟩
  · rw [← h.last, lastSent] at hne
    cases hc : s.sent.getLast? with
    | none =>
      rw [hc] at hne
      exact absurd rfl hne
    | some c =>
      rw [hc] at hne
      exact ⟨c, lastHeating_of_getLast? hc hne, h.due c hc⟩

/-! ## Temperatures that come in time -/

variable [IsStrictOrderedRing K]

/-- A temperature that comes in time finds the last command that heats not yet due, or refreshes
it within `MAX_HEAT_TIME`. -/
theorem Refreshed.callback (h : Refreshed cfg es s)
    (hperiod : period + cfg.pwmDelay ≤ 1 / 4 * maxHeatTime) (readTime temp : K)
    (hread : ∀ r ∈ (readTimes es).getLast?, readTime ≤ r + period) :
    Refreshed cfg (es ++ [.callback readTime temp]) (s.temperatureCallback cfg readTime temp) := by
  have htimes : readTime ∈ (readTimes (es ++ [.callback readTime temp])).getLast? := by
    rw [readTimes_callback, List.getLast?_concat]
    exact rfl
  have hmax : (0 : K) < maxHeatTime := by
    unfold maxHeatTime
    positivity
  obtain ⟨-, htime, ⟨hsent, hnext, hlast, hdue, -⟩ | ⟨hsent, hnext, hlast⟩⟩ :=
    temperatureCallback_cases cfg readTime temp s
  · constructor
    · rw [lastSent, hsent, hlast]
      exact h.last
    · rw [hsent]
      exact h.range
    · rw [hsent]
      exact h.gaps
    · rw [hsent, hnext]
      exact h.due
    · rw [hlast, hnext, htime]
      exact hdue
    · rw [htime]
      exact fun _ => htimes
  · constructor
    · rw [lastSent_append _ hsent, hlast]
    · rw [hsent]
      refine List.forall_mem_append.mpr ⟨h.range, List.forall_mem_singleton.mpr ?_⟩
      exact asked_range (s.control.temperatureUpdate_range readTime temp s.targetTemp)
    · rw [hsent]
      refine h.gaps.append (.singleton _) fun c hc c' hc' hne => ?_
      obtain rfl : c' = _ := (Option.mem_some.mp hc').symm
      have hvalue : s.lastPwmValue ≠ 0 := by
        rw [← h.last, lastSent, Option.mem_def.mp hc]
        exact hne
      -- the heater was read before this command, at a time before its next one
      have hmem : s.sent ≠ [] := List.ne_nil_of_mem (List.mem_of_mem_getLast? hc)
      have hlate := hread _ (h.read hmem)
      have hfresh := h.fresh hvalue
      rw [h.due c hc] at hfresh
      change readTime + cfg.pwmDelay ≤ c.time + maxHeatTime
      linarith
    · rw [hsent, hnext, List.getLast?_concat]
      rintro c ⟨⟩
      rfl
    · rw [hnext, htime]
      intro _
      have := cfg.pwmDelay_pos
      linarith
    · rw [htime]
      exact fun _ => htimes

variable (fileOutput) in
theorem refreshed_after (hperiod : period + cfg.pwmDelay ≤ 1 / 4 * maxHeatTime)
    (h : Timely period es) : Refreshed cfg es (after cfg fileOutput es) := by
  induction es using List.reverseRecOn with
  | nil => exact .init
  | append_singleton es e ih =>
    rw [after_append]
    cases e with
    | callback readTime temp =>
      rw [Timely, readTimes_callback, List.isChain_append] at h
      exact (ih h.1).callback hperiod readTime temp fun r hr => (h.2.2 r hr readTime rfl).2
    | setTemp degrees =>
      rw [Timely, readTimes_setTemp] at h
      exact (ih h).setTemp degrees

theorem Refreshed.close (h : Refreshed cfg es s)
    (hperiod : period + cfg.pwmDelay ≤ 1 / 4 * maxHeatTime) (readTime temp : K)
    (hread : ∀ r ∈ (readTimes es).getLast?, readTime ≤ r + period) :
    |(s.temperatureCallback cfg readTime temp).lastSent - s.callbackAsks cfg readTime temp| <
      1 / 20 := by
  rw [(h.callback hperiod readTime temp hread).last]
  obtain ⟨-, -, ⟨-, -, hlast, -, hclose⟩ | ⟨-, -, hlast⟩⟩ :=
    temperatureCallback_cases cfg readTime temp s
  · rw [hlast, abs_sub_comm]
    exact hclose
  · rw [hlast, sub_self, abs_zero]
    positivity

theorem Refreshed.before_watchdog (h : Refreshed cfg es s)
    (hperiod : period + cfg.pwmDelay ≤ 1 / 4 * maxHeatTime) {c : PwmCommand K}
    (hc : c ∈ s.sent.getLast?) (hne : c.value ≠ 0) {r : K} (hr : r ∈ (readTimes es).getLast?) :
    r + period + cfg.pwmDelay < c.time + maxHeatTime := by
  have hvalue : s.lastPwmValue ≠ 0 := by
    rw [← h.last, lastSent, Option.mem_def.mp hc]
    exact hne
  have hfresh := h.fresh hvalue
  have hmem := h.read (List.ne_nil_of_mem (List.mem_of_mem_getLast? hc))
  rw [h.due c hc, ← Option.mem_unique hr hmem] at hfresh
  linarith

/-- What is sent of a heater whose temperatures come in time: it is in range, it is close to what
the last temperature asked for, a command that heats is followed by the next one before the
watchdog of the micro-controller ends it, and a target of zero switches the heater off at the
latest where that refresh is due. -/
theorem output_refreshed (cfg : HeaterConfig K) (fileOutput : Bool) {period : K}
    (hperiod : period + cfg.pwmDelay ≤ 1 / 4 * maxHeatTime) {es : List (HeaterEvent K)}
    (h : Timely period es) :
    (∀ c ∈ (after cfg fileOutput es).sent, 0 ≤ c.value ∧ c.value ≤ cfg.maxPower) ∧
    (∀ es' readTime temp, es = es' ++ [.callback readTime temp] →
      |(after cfg fileOutput es).lastSent -
        (after cfg fileOutput es').callbackAsks cfg readTime temp| < 1 / 20) ∧
    ((after cfg fileOutput es).sent.IsChain
      fun c c' => c.value ≠ 0 → c'.time ≤ c.time + maxHeatTime) ∧
    (∀ c ∈ (after cfg fileOutput es).sent.getLast?, c.value ≠ 0 →
      ∀ r ∈ (readTimes es).getLast?, r + period + cfg.pwmDelay < c.time + maxHeatTime) ∧
    (∀ es₁ es₂, es = es₁ ++ .setTemp 0 :: es₂ →
      (∀ degrees, .setTemp degrees ∈ es₂ → degrees = 0 ∨ cfg.Rejects degrees) →
      (∃ readTime temp, .callback readTime temp ∈ es₂ ∧
        ∀ c ∈ (after cfg fileOutput es₁).lastHeating,
          c.time + 3 / 4 * maxHeatTime ≤ readTime) →
      (after cfg fileOutput es).lastSent = 0) := by
  have hrefreshed := refreshed_after fileOutput hperiod h
  refine ⟨hrefreshed.range, ?_, hrefreshed.gaps, ?_, ?_⟩
  · rintro es' readTime temp rfl
    rw [Timely, readTimes_callback, List.isChain_append] at h
    rw [after_append]
    exact (refreshed_after fileOutput hperiod h.1).close hperiod readTime temp
      fun r hr => (h.2.2 r hr readTime rfl).2
  · exact fun c hc hne r hr => hrefreshed.before_watchdog hperiod hc hne hr
  · rintro es₁ es₂ rfl hkept ⟨readTime, temp, hmem, hlate⟩
    have hbefore : Timely period es₁ := by
      rw [Timely, readTimes, List.filterMap_append] at h
      exact h.left_of_append
    obtain ⟨t, hcooling, hdue⟩ := (refreshed_after fileOutput hperiod hbefore).cooling
    rw [hrefreshed.last]
    have hafter : after cfg fileOutput (es₁ ++ .setTemp 0 :: es₂) =
        es₂.foldl (next cfg) ((after cfg fileOutput es₁).setTemp cfg 0) := by
      unfold after
      rw [List.foldl_append, List.foldl_cons]
      rfl
    rw [hafter]
    apply (hcooling.run hkept).2
    rw [(setTemp_frame cfg 0 _).2.2.1]
    by_cases hzero : (after cfg fileOutput es₁).lastPwmValue = 0
    · exact Or.inl hzero
    · obtain ⟨c, hc, rfl⟩ := hdue hzero
      exact Or.inr ⟨readTime, temp, hmem, hlate c hc⟩

end Heater

theorem hotend_unit_pos : (0 : ℚ) < 1 := by norm_num

/-- A hotend with a watermark. -/
def hotend : HeaterConfig ℚ where
  minTemp := 0
  maxTemp := 300
  minExtrudeTemp := 160
  maxPower := 1
  smoothTime := 1
  pwmDelay := 3 / 10
  algorithm := .watermark 2
  maxPower_pos := hotend_unit_pos
  maxPower_le := by norm_num
  smoothTime_pos := hotend_unit_pos
  pwmDelay_pos := by norm_num

/-- It is heated and switched off. -/
def hotendEvents : List (HeaterEvent ℚ) :=
  [.setTemp 200, .callback 1 20] ++ .setTemp 0 ::
    [.callback (19 / 10) 25, .callback (28 / 10) 25, .callback (37 / 10) 25,
      .callback (46 / 10) 25, .callback (55 / 10) 25]

open Heater in
theorem output_refreshed_hotend :
    (∀ c ∈ (after hotend false hotendEvents).sent, 0 ≤ c.value ∧ c.value ≤ 1) ∧
      (after hotend false hotendEvents).lastSent = 0 := by
  have hperiod : (9 / 10 : ℚ) + hotend.pwmDelay ≤ 1 / 4 * maxHeatTime := by
    norm_num [hotend, maxHeatTime]
  have htimes : readTimes hotendEvents =
      [1, 19 / 10, 28 / 10, 37 / 10, 46 / 10, 55 / 10] := rfl
  have htimely : Timely (9 / 10 : ℚ) hotendEvents := by
    rw [Timely, htimes]
    norm_num
  have hheating : (after hotend false [.setTemp 200, .callback 1 20]).lastHeating =
      some ⟨13 / 10, 1⟩ := by decide +kernel
  obtain ⟨hrange, -, -, -, hoff⟩ := output_refreshed hotend false hperiod htimely
  refine ⟨hrange, hoff _ _ rfl (by simp) ⟨55 / 10, 25, by simp, fun c hc => ?_⟩⟩
  rw [hheating] at hc
  obtain rfl := Option.mem_some.mp hc
  norm_num [maxHeatTime]

end FlsunT1.Klippy
