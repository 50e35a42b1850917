/-
  Mcu/Endstop.lean --- the sampling of an endstop, and the time of its trigger.

  Source: klipper/src/endstop.c, with `MCU_endstop.home_wait` of klipper/klippy/mcu.py and
  `clock32_to_clock64` of klipper/klippy/clocksync.py on the host.

  Time is a clock in ℕ that never wraps; the firmware sees it modulo 2^32.  A timer runs at the
  first clock that agrees with its `waketime`.  `pin` is the level that the callback of a clock
  reads first, `reread` the level that it reads when it reads again.  `homings` notes, for each
  `endstop_home`, the calls of `trsync_do_trigger` until the next one.
-/
import FlsunT1.Library.Run
import FlsunT1.Mcu.Timer

set_option autoImplicit false

namespace FlsunT1.Mcu

open Library

/-! ## The endstop -/

/-- The two callbacks that `time.func` may hold. -/
inductive EndstopFunc
  /-- `endstop_event` -/
  | event
  /-- `endstop_oversample_event` -/
  | oversample
  deriving DecidableEq

/-- `struct endstop`; `pending` says whether `time` is on the timer list. -/
structure Endstop where
  waketime : UInt32
  func : EndstopFunc
  pending : Bool
  restTime : UInt32
  sampleTime : UInt32
  nextwake : UInt32
  /-- The oid of the trsync, or `NULL`. -/
  ts : Option UInt8
  /-- `ESF_PIN_HIGH` -/
  pinHigh : Bool
  /-- `ESF_HOMING` -/
  homing : Bool
  sampleCount : UInt8
  triggerCount : UInt8
  triggerReason : UInt8
  deriving DecidableEq

/-- The parameters of `endstop_home`. -/
structure EndstopHome where
  clock : UInt32
  sampleTicks : UInt32
  sampleCount : UInt32
  restTicks : UInt32
  pinValue : UInt32
  trsyncOid : UInt32
  triggerReason : UInt32
  deriving DecidableEq

/-- A call of `trsync_do_trigger`, at a clock. -/
structure TriggerCall where
  clock : ℕ
  ts : Option UInt8
  reason : UInt8
  deriving DecidableEq

/-- The answer `endstop_state`, without the level of the pin. -/
structure EndstopState where
  homing : Bool
  nextClock : UInt32
  deriving DecidableEq

namespace Endstop

/-- `command_config_endstop`: memory is cleared by `oid_alloc`. -/
def config : Endstop where
  waketime := 0
  func := .event
  pending := false
  restTime := 0
  sampleTime := 0
  nextwake := 0
  ts := none
  pinHigh := false
  homing := false
  sampleCount := 0
  triggerCount := 0
  triggerReason := 0

/-- `(val ? ~e->flags : e->flags) & ESF_PIN_HIGH` -/
def mismatch (val : Bool) (e : Endstop) : Bool := if val then !e.pinHigh else e.pinHigh

/-- `endstop_oversample_event`; the flag says whether `trsync_do_trigger` is called. -/
def endstopOversampleEvent (val : Bool) (e : Endstop) : Endstop × TimerResult × Bool :=
  if e.mismatch val then
    -- no longer matching: the next attempt takes all samples again
    ({ e with func := .event, waketime := e.nextwake, triggerCount := e.sampleCount },
      .reschedule, false)
  else
    let count := e.triggerCount - 1
    if count = 0 then (e, .done, true)
    else
      ({ e with triggerCount := count, waketime := e.waketime + e.sampleTime },
        .reschedule, false)

/-- `endstop_event` -/
def endstopEvent (val val' : Bool) (e : Endstop) : Endstop × TimerResult × Bool :=
  let nextwake := e.waketime + e.restTime
  if e.mismatch val then ({ e with waketime := nextwake }, .reschedule, false)
  else endstopOversampleEvent val' { e with nextwake := nextwake, func := .oversample }

/-- The call of `time.func`. -/
def callback (val val' : Bool) (e : Endstop) : Endstop × TimerResult × Bool :=
  match e.func with
  | .event => e.endstopEvent val val'
  | .oversample => e.endstopOversampleEvent val

/-- `command_endstop_home` -/
def endstopHome (cmd : EndstopHome) (e : Endstop) : Endstop :=
  let e := { e with
    pending := false
    waketime := cmd.clock
    sampleTime := cmd.sampleTicks
    sampleCount := cmd.sampleCount.toUInt8 }
  if e.sampleCount = 0 then
    -- disable end stop checking
    { e with ts := none, pinHigh := false, homing := false }
  else
    { e with
      restTime := cmd.restTicks
      func := .event
      triggerCount := e.sampleCount
      homing := true
      pinHigh := cmd.pinValue != 0
      ts := some cmd.trsyncOid.toUInt8
      triggerReason := cmd.triggerReason.toUInt8
      pending := true }

/-- `command_endstop_query_state` -/
def endstopQueryState (e : Endstop) : EndstopState where
  homing := e.homing
  nextClock := e.nextwake

end Endstop

/-! ## The host -/

/-- `clock32_to_clock64` -/
def clock32ToClock64 (lastClock : ℤ) (clock32 : UInt32) : ℤ :=
  let clockDiff := (lastClock - clock32.toNat) % 4294967296
  if 2147483648 ≤ clockDiff then lastClock + 4294967296 - clockDiff else lastClock - clockDiff

/-- `REASON_ENDSTOP_HIT` -/
def reasonEndstopHit : ℕ := 1

/-- `REASON_COMMS_TIMEOUT` -/
def reasonCommsTimeout : ℕ := 2

/-- What `home_wait` returns; a trigger by the clock that is converted to a print time. -/
inductive HomeWait
  /-- `-1.` -/
  | commsTimeout
  /-- `0.` -/
  | noTrigger
  /-- `home_end_time` -/
  | homeEndTime
  | triggered (clock : ℤ)
  deriving DecidableEq

/-- `home_wait`, once the trsyncs are stopped with the reasons `res` and the endstop is queried. -/
def homeWait (isFileoutput : Bool) (res : List ℕ) (params : EndstopState) (lastClock : ℤ)
    (restTicks : ℤ) : HomeWait :=
  if reasonCommsTimeout ∈ res then .commsTimeout
  else if res.head? ≠ some reasonEndstopHit then .noTrigger
  else if isFileoutput then .homeEndTime
  else .triggered (clock32ToClock64 lastClock params.nextClock - restTicks)

/-! ## Runs -/

/-- An `endstop_home` that runs at the clock `time`, and the triggers that follow it. -/
structure Homing where
  time : ℕ
  cmd : EndstopHome
  calls : List TriggerCall
  deriving DecidableEq

/-- The endstop and the clock of the last event; the homings are newest first. -/
structure EndstopWorld where
  now : ℕ
  endstop : Endstop
  homings : List Homing
  deriving DecidableEq

inductive EndstopEvent
  /-- `endstop_home`, at a clock -/
  | home (time : ℕ) (cmd : EndstopHome)
  /-- the timer `time` -/
  | timer
  deriving DecidableEq

/-- A clock as the firmware sees it. -/
def clock32 (clock : ℕ) : UInt32 := UInt32.ofNat clock

/-- The first clock from `now` on that agrees with a 32 bit clock. -/
def firstClock (now : ℕ) (waketime : UInt32) : ℕ := now + (waketime - clock32 now).toNat

namespace EndstopWorld

def init (now : ℕ) : EndstopWorld where
  now := now
  endstop := .config
  homings := []

/-- The clock at which the timer runs. -/
def due (w : EndstopWorld) : ℕ := firstClock w.now w.endstop.waketime

/-- A call of `trsync_do_trigger` is noted with the last homing. -/
def noteCall (call : TriggerCall) : List Homing → List Homing
  | [] => []
  | h :: older => { h with calls := h.calls ++ [call] } :: older

def runHome (time : ℕ) (cmd : EndstopHome) (w : EndstopWorld) : EndstopWorld where
  now := time
  endstop := w.endstop.endstopHome cmd
  homings := { time := time, cmd := cmd, calls := [] } :: w.homings

/-- The timer is dispatched at the clock at which it is due. -/
def runTimer (pin reread : ℕ → Bool) (w : EndstopWorld) : EndstopWorld :=
  let (e, result, trigger) := w.endstop.callback (pin w.due) (reread w.due)
  { now := w.due
    endstop := { e with pending := result == .reschedule }
    homings :=
      if trigger then noteCall { clock := w.due, ts := e.ts, reason := e.triggerReason } w.homings
      else w.homings }

def next (pin reread : ℕ → Bool) (w : EndstopWorld) : EndstopEvent → EndstopWorld
  | .home time cmd => w.runHome time cmd
  | .timer => w.runTimer pin reread

/-- A timer runs when it is due: no command comes after that before the timer. -/
def Enabled (w : EndstopWorld) : EndstopEvent → Prop
  | .home time _ => w.now ≤ time ∧ (w.endstop.pending = true → time ≤ w.due)
  | .timer => w.endstop.pending = true

instance (w : EndstopWorld) (e : EndstopEvent) : Decidable (w.Enabled e) := by
  cases e <;> unfold Enabled <;> infer_instance

def Step (pin reread : ℕ → Bool) (w : EndstopWorld) (e : EndstopEvent) (t : EndstopWorld) : Prop :=
  w.Enabled e ∧ t = w.next pin reread e

end EndstopWorld

/-! ## Clocks -/

theorem clock32_add (clock : ℕ) (ticks : UInt32) :
    clock32 clock + ticks = clock32 (clock + ticks.toNat) := by
  rw [clock32, clock32, UInt32.ofNat_add, UInt32.ofNat_toNat]

theorem firstClock_clock32 {now clock : ℕ} (h : now ≤ clock) (h' : clock < now + 4294967296) :
    firstClock now (clock32 clock) = clock := by
  unfold firstClock clock32
  rw [UInt32.toNat_sub, UInt32.toNat_ofNat', UInt32.toNat_ofNat']
  omega

theorem le_firstClock (now : ℕ) (waketime : UInt32) : now ≤ firstClock now waketime :=
  Nat.le_add_right _ _

theorem clock32_firstClock (now : ℕ) (waketime : UInt32) :
    clock32 (firstClock now waketime) = waketime := by
  rw [firstClock, ← clock32_add, UInt32.add_comm, UInt32.sub_add_cancel]

/-- The 64 bit clock is found again as long as it is within half the range of `lastClock`. -/
theorem clock32ToClock64_iff (lastClock : ℤ) (clock : ℕ) :
    clock32ToClock64 lastClock (clock32 clock) = clock ↔
      -2147483648 ≤ lastClock - clock ∧ lastClock - clock < 2147483648 := by
  have hmod : (lastClock - (clock32 clock).toNat) % 4294967296 =
      (lastClock - clock) % 4294967296 := by
    rw [clock32, UInt32.toNat_ofNat']
    omega
  unfold clock32ToClock64
  rw [hmod]
  dsimp only
  split <;> omega

/-! ## The samples of a homing -/

namespace Homing

variable (pin reread : ℕ → Bool) (h : Homing)

def sampleCount : UInt8 := h.cmd.sampleCount.toUInt8

def pinHigh : Bool := h.cmd.pinValue != 0

/-- The first grid point. -/
def start : ℕ := firstClock h.time h.cmd.clock

/-- The clock of sample `j` of the attempt that starts at grid point `k`. -/
def sampleClock (k j : ℕ) : ℕ :=
  h.start + k * h.cmd.restTicks.toNat + j * h.cmd.sampleTicks.toNat

/-- A sample matches; at a grid point the pin is read twice. -/
def SampleMatches (k j : ℕ) : Prop :=
  pin (h.sampleClock k j) = h.pinHigh ∧ (j = 0 → reread (h.sampleClock k j) = h.pinHigh)

instance (k j : ℕ) : Decidable (h.SampleMatches pin reread k j) :=
  inferInstanceAs (Decidable (_ ∧ _))

/-- All samples of an attempt match. -/
def Matches (k : ℕ) : Prop := ∀ j < h.sampleCount.toNat, h.SampleMatches pin reread k j

/-- The first attempt whose samples all match. -/
def FirstMatch (k : ℕ) : Prop :=
  h.Matches pin reread k ∧ ∀ i < k, ¬ h.Matches pin reread i

/-- The clock of the last sample of an attempt. -/
def triggerClock (k : ℕ) : ℕ := h.sampleClock k (h.sampleCount.toNat - 1)

/-- The call that an attempt ends with. -/
def triggerCall (k : ℕ) : TriggerCall where
  clock := h.triggerClock k
  ts := some h.cmd.trsyncOid.toUInt8
  reason := h.cmd.triggerReason.toUInt8

/-- There are samples to take, and they end before the next attempt. -/
def Paced : Prop :=
  h.sampleCount ≠ 0 ∧ h.sampleCount.toNat * h.cmd.sampleTicks.toNat < h.cmd.restTicks.toNat

instance : Decidable h.Paced := inferInstanceAs (Decidable (_ ∧ _))

variable {pin reread} {h}

theorem sampleClock_succ (k j : ℕ) :
    h.sampleClock k (j + 1) = h.sampleClock k j + h.cmd.sampleTicks.toNat := by
  unfold sampleClock
  rw [Nat.succ_mul]
  omega

theorem sampleClock_rest (k : ℕ) :
    h.sampleClock (k + 1) 0 = h.sampleClock k 0 + h.cmd.restTicks.toNat := by
  unfold sampleClock
  rw [Nat.succ_mul]
  omega

theorem sampleClock_mono {k i j : ℕ} (hij : i ≤ j) : h.sampleClock k i ≤ h.sampleClock k j :=
  Nat.add_le_add_left (Nat.mul_le_mul_right _ hij) _

theorem sampleClock_lt_rest {k j : ℕ} (hpaced : h.Paced) (hj : j ≤ h.sampleCount.toNat) :
    h.sampleClock k j < h.sampleClock (k + 1) 0 := by
  have hticks := Nat.mul_le_mul_right h.cmd.sampleTicks.toNat hj
  have hlt := hpaced.2
  rw [sampleClock_rest]
  unfold sampleClock
  omega

theorem sampleCount_pos (hpaced : h.Paced) : 0 < h.sampleCount.toNat := by
  rw [Nat.pos_iff_ne_zero]
  intro hzero
  exact hpaced.1 (UInt8.toNat_inj.mp hzero)

theorem triggerClock_mono {i k : ℕ} (hik : i ≤ k) : h.triggerClock i ≤ h.triggerClock k := by
  unfold triggerClock sampleClock
  have := Nat.mul_le_mul_right h.cmd.restTicks.toNat hik
  omega

end Homing

/-- The endstop holds the parameters of a homing. -/
structure Configured (h : Homing) (e : Endstop) : Prop where
  restTime : e.restTime = h.cmd.restTicks
  sampleTime : e.sampleTime = h.cmd.sampleTicks
  sampleCount : e.sampleCount = h.sampleCount
  pinHigh : e.pinHigh = h.pinHigh
  ts : e.ts = some h.cmd.trsyncOid.toUInt8
  triggerReason : e.triggerReason = h.cmd.triggerReason.toUInt8

/-- The next sample to take is sample `j` of attempt `k`. -/
structure Sampling (pin reread : ℕ → Bool) (h : Homing) (w : EndstopWorld) (k j : ℕ) : Prop where
  lt : j < h.sampleCount.toNat
  unmatched : ∀ i < k, ¬ h.Matches pin reread i
  matched : ∀ i < j, h.SampleMatches pin reread k i
  due : w.due = h.sampleClock k j
  func : w.endstop.func = if j = 0 then .event else .oversample
  triggerCount : w.endstop.triggerCount.toNat + j = h.sampleCount.toNat
  nextwake : j ≠ 0 → w.endstop.nextwake = clock32 (h.sampleClock (k + 1) 0)

/-- What the timer does to the endstop when the sample does not match. -/
structure Restarted (h : Homing) (k : ℕ) (r : Endstop × TimerResult × Bool) : Prop where
  result : r.2 = (.reschedule, false)
  configured : Configured h r.1
  func : r.1.func = .event
  waketime : r.1.waketime = clock32 (h.sampleClock (k + 1) 0)
  triggerCount : r.1.triggerCount = h.sampleCount

theorem mismatch_eq (val : Bool) (e : Endstop) : e.mismatch val = (val != e.pinHigh) := by
  unfold Endstop.mismatch
  cases val <;> cases e.pinHigh <;> rfl

theorem mismatch_iff {h : Homing} {e : Endstop} (hconf : Configured h e) (val : Bool) :
    e.mismatch val = true ↔ val ≠ h.pinHigh := by
  rw [mismatch_eq, hconf.pinHigh, bne_iff_ne]

theorem Configured.oversample_mismatch {h : Homing} {e : Endstop} {k : ℕ} {val : Bool}
    (hconf : Configured h e) (hnext : e.nextwake = clock32 (h.sampleClock (k + 1) 0))
    (hval : val ≠ h.pinHigh) : Restarted h k (e.endstopOversampleEvent val) := by
  unfold Endstop.endstopOversampleEvent
  rw [if_pos ((mismatch_iff hconf val).mpr hval)]
  exact
    { result := rfl
      configured := ⟨hconf.1, hconf.2, hconf.3, hconf.4, hconf.5, hconf.6⟩
      func := rfl
      waketime := hnext
      triggerCount := hconf.sampleCount }

/-- What the timer does after the last sample. -/
structure Triggered (h : Homing) (k : ℕ) (r : Endstop × TimerResult × Bool) : Prop where
  result : r.2 = (.done, true)
  configured : Configured h r.1
  nextwake : r.1.nextwake = clock32 (h.sampleClock (k + 1) 0)

/-- What the timer does after a sample that is not the last one. -/
structure Advanced (h : Homing) (k j : ℕ) (r : Endstop × TimerResult × Bool) : Prop where
  result : r.2 = (.reschedule, false)
  configured : Configured h r.1
  func : r.1.func = .oversample
  waketime : r.1.waketime = clock32 (h.sampleClock k (j + 1))
  triggerCount : r.1.triggerCount.toNat + (j + 1) = h.sampleCount.toNat
  nextwake : r.1.nextwake = clock32 (h.sampleClock (k + 1) 0)

namespace Configured

variable {h : Homing} {e : Endstop} {k j : ℕ}

theorem oversample_last {val : Bool} (hconf : Configured h e)
    (hnext : e.nextwake = clock32 (h.sampleClock (k + 1) 0)) (hval : val = h.pinHigh)
    (hcount : e.triggerCount.toNat + j = h.sampleCount.toNat)
    (hlast : j + 1 = h.sampleCount.toNat) : Triggered h k (e.endstopOversampleEvent val) := by
  have hone : e.triggerCount - 1 = 0 := by
    rw [← UInt8.toNat_inj, UInt8.toNat_sub]
    have : e.triggerCount.toNat = 1 := by omega
    rw [this]
    rfl
  unfold Endstop.endstopOversampleEvent
  rw [if_neg (fun hne => (mismatch_iff hconf val).mp hne hval)]
  dsimp only
  rw [if_pos hone]
  exact { result := rfl, configured := hconf, nextwake := hnext }

theorem oversample_more {val : Bool} (hconf : Configured h e) (hfunc : e.func = .oversample)
    (hwake : e.waketime = clock32 (h.sampleClock k j))
    (hnext : e.nextwake = clock32 (h.sampleClock (k + 1) 0)) (hval : val = h.pinHigh)
    (hcount : e.triggerCount.toNat + j = h.sampleCount.toNat)
    (hmore : j + 1 < h.sampleCount.toNat) : Advanced h k j (e.endstopOversampleEvent val) := by
  have hless : (e.triggerCount - 1).toNat = e.triggerCount.toNat - 1 := by
    have := e.triggerCount.toNat_lt
    rw [UInt8.toNat_sub]
    change (256 - 1 + e.triggerCount.toNat) % 256 = _
    omega
  have hne : e.triggerCount - 1 ≠ 0 := by
    intro hzero
    have : (e.triggerCount - 1).toNat = 0 := by rw [hzero]; rfl
    omega
  unfold Endstop.endstopOversampleEvent
  rw [if_neg (fun hne => (mismatch_iff hconf val).mp hne hval)]
  dsimp only
  rw [if_neg hne]
  exact
    { result := rfl
      configured := ⟨hconf.1, hconf.2, hconf.3, hconf.4, hconf.5, hconf.6⟩
      func := hfunc
      waketime := by
        dsimp only
        rw [hwake, hconf.sampleTime, clock32_add, Homing.sampleClock_succ]
      triggerCount := by
        dsimp only
        omega
      nextwake := hnext }

theorem event_match {val val' : Bool} (hconf : Configured h e) (hval : val = h.pinHigh) :
    e.endstopEvent val val' = Endstop.endstopOversampleEvent val'
      { e with nextwake := e.waketime + e.restTime, func := .oversample } := by
  unfold Endstop.endstopEvent
  dsimp only
  rw [if_neg (fun hne => (mismatch_iff hconf val).mp hne hval)]

theorem handedOver (hconf : Configured h e) (nextwake : UInt32) :
    Configured h { e with nextwake := nextwake, func := .oversample } :=
  ⟨hconf.1, hconf.2, hconf.3, hconf.4, hconf.5, hconf.6⟩

end Configured

namespace Sampling

variable {pin reread : ℕ → Bool} {h : Homing} {w : EndstopWorld} {k j : ℕ}

theorem waketime (hs : Sampling pin reread h w k j) :
    w.endstop.waketime = clock32 (h.sampleClock k j) := by
  rw [← hs.due, EndstopWorld.due, clock32_firstClock]

theorem waketime_rest (hs : Sampling pin reread h w k 0) (hconf : Configured h w.endstop) :
    w.endstop.waketime + w.endstop.restTime = clock32 (h.sampleClock (k + 1) 0) := by
  rw [hs.waketime, hconf.restTime, clock32_add, Homing.sampleClock_rest]

theorem callback_mismatch (hs : Sampling pin reread h w k j) (hconf : Configured h w.endstop)
    (hno : ¬ h.SampleMatches pin reread k j) :
    Restarted h k (w.endstop.callback (pin w.due) (reread w.due)) := by
  have hfunc := hs.func
  unfold Endstop.callback
  rw [hfunc, hs.due]
  by_cases hj : j = 0
  · rw [if_pos hj]
    subst hj
    have hrest := hs.waketime_rest hconf
    by_cases hval : pin (h.sampleClock k 0) = h.pinHigh
    · -- the first reading matches, but not the second
      have hval' : reread (h.sampleClock k 0) ≠ h.pinHigh := fun heq => hno ⟨hval, fun _ => heq⟩
      dsimp only
      rw [hconf.event_match hval]
      exact (hconf.handedOver _).oversample_mismatch hrest hval'
    · dsimp only
      unfold Endstop.endstopEvent
      dsimp only
      rw [if_pos ((mismatch_iff hconf _).mpr hval)]
      have hcount := hs.triggerCount
      exact
        { result := rfl
          configured := ⟨hconf.1, hconf.2, hconf.3, hconf.4, hconf.5, hconf.6⟩
          func := by rw [hfunc, if_pos rfl]
          waketime := hrest
          triggerCount := UInt8.toNat_inj.mp hcount }
  · rw [if_neg hj]
    apply hconf.oversample_mismatch (hs.nextwake hj)
    intro hval
    exact hno ⟨hval, fun hzero => absurd hzero hj⟩

theorem callback_last (hs : Sampling pin reread h w k j) (hconf : Configured h w.endstop)
    (hmatch : h.SampleMatches pin reread k j) (hlast : j + 1 = h.sampleCount.toNat) :
    Triggered h k (w.endstop.callback (pin w.due) (reread w.due)) := by
  unfold Endstop.callback
  rw [hs.func, hs.due]
  by_cases hj : j = 0
  · rw [if_pos hj]
    subst hj
    dsimp only
    rw [hconf.event_match hmatch.1]
    exact (hconf.handedOver _).oversample_last (hs.waketime_rest hconf) (hmatch.2 rfl)
      hs.triggerCount hlast
  · rw [if_neg hj]
    exact hconf.oversample_last (hs.nextwake hj) hmatch.1 hs.triggerCount hlast

theorem callback_more (hs : Sampling pin reread h w k j) (hconf : Configured h w.endstop)
    (hmatch : h.SampleMatches pin reread k j) (hmore : j + 1 < h.sampleCount.toNat) :
    Advanced h k j (w.endstop.callback (pin w.due) (reread w.due)) := by
  unfold Endstop.callback
  rw [hs.func, hs.due]
  by_cases hj : j = 0
  · rw [if_pos hj]
    subst hj
    dsimp only
    rw [hconf.event_match hmatch.1]
    exact (hconf.handedOver _).oversample_more rfl hs.waketime (hs.waketime_rest hconf)
      (hmatch.2 rfl) hs.triggerCount hmore
  · have hfunc := hs.func
    rw [if_neg hj] at hfunc ⊢
    exact hconf.oversample_more hfunc hs.waketime (hs.nextwake hj) hmatch.1 hs.triggerCount hmore

end Sampling

/-! ## The invariant -/

section Invariant

variable (pin reread : ℕ → Bool)

/-- What a homing has come to by the clock `now`: there is one call, at the end of the first
attempt that matches, or there is none and no attempt has matched before. -/
def Answered (now : ℕ) (h : Homing) : Prop :=
  (h.sampleCount = 0 → h.calls = []) ∧
    (h.Paced →
      (h.calls = [] ∧ ∀ k, h.FirstMatch pin reread k → now ≤ h.triggerClock k) ∨
      ∃ k, h.FirstMatch pin reread k ∧ h.triggerClock k ≤ now ∧ h.calls = [h.triggerCall k])

/-- Each homing is answered by the time of the next one. -/
def Logged : ℕ → List Homing → Prop
  | _, [] => True
  | now, h :: older => Answered pin reread now h ∧ Logged h.time older

/-- After a trigger, `nextwake` is the grid point that follows it, also when the endstop is
disabled since. -/
def Reported (nextwake : UInt32) : List Homing → Prop
  | [] => True
  | h :: older =>
    (h.Paced → h.calls ≠ [] →
      ∃ k, h.FirstMatch pin reread k ∧ nextwake = clock32 (h.sampleClock (k + 1) 0)) ∧
    (h.sampleCount = 0 → Reported nextwake older)

/-- While the timer is on the list, the samples of the last homing are taken. -/
structure Waiting (h : Homing) (w : EndstopWorld) : Prop where
  pending : w.endstop.pending = true
  count : h.sampleCount ≠ 0
  sampling : h.Paced → Configured h w.endstop ∧ h.calls = [] ∧ ∃ k j, Sampling pin reread h w k j

/-- Otherwise the last homing has triggered, or it disables the endstop. -/
structure Ended (h : Homing) (w : EndstopWorld) : Prop where
  pending : w.endstop.pending = false
  disabled : h.sampleCount = 0 → h.calls = []
  triggered : h.Paced →
    ∃ k, h.FirstMatch pin reread k ∧ h.triggerClock k ≤ w.now ∧ h.calls = [h.triggerCall k]

structure Inv (w : EndstopWorld) : Prop where
  idle : w.homings = [] → w.endstop.pending = false
  last : ∀ h older, w.homings = h :: older →
    (Waiting pin reread h w ∨ Ended pin reread h w) ∧ Logged pin reread h.time older
  reported : Reported pin reread w.endstop.nextwake w.homings

end Invariant

section Invariant

variable {pin reread : ℕ → Bool} {h : Homing} {w : EndstopWorld}

theorem Inv.init (now : ℕ) : Inv pin reread (.init now) where
  idle _ := rfl
  last _ _ hnil := by cases hnil
  reported := trivial

theorem Sampling.due_le {k j i : ℕ} (hs : Sampling pin reread h w k j)
    (hfirst : h.FirstMatch pin reread i) : w.due ≤ h.triggerClock i := by
  have hki : k ≤ i := by
    by_contra hlt
    exact hs.unmatched i (not_le.mp hlt) hfirst.1
  have hlt := hs.lt
  calc w.due = h.sampleClock k j := hs.due
    _ ≤ h.triggerClock k := Homing.sampleClock_mono (by omega)
    _ ≤ h.triggerClock i := Homing.triggerClock_mono hki

theorem Waiting.answered (hw : Waiting pin reread h w) {time : ℕ} (htime : time ≤ w.due) :
    Answered pin reread time h := by
  refine ⟨fun hzero => absurd hzero hw.count, fun hpaced => Or.inl ?_⟩
  obtain ⟨-, hcalls, k, j, hs⟩ := hw.sampling hpaced
  exact ⟨hcalls, fun i hfirst => htime.trans (hs.due_le hfirst)⟩

theorem Ended.answered (he : Ended pin reread h w) {time : ℕ} (htime : w.now ≤ time) :
    Answered pin reread time h := by
  refine ⟨he.disabled, fun hpaced => Or.inr ?_⟩
  obtain ⟨k, hfirst, hclock, hcalls⟩ := he.triggered hpaced
  exact ⟨k, hfirst, hclock.trans htime, hcalls⟩

theorem Inv.logged (hinv : Inv pin reread w) {time : ℕ} (hnow : w.now ≤ time)
    (hdue : w.endstop.pending = true → time ≤ w.due) : Logged pin reread time w.homings := by
  cases heq : w.homings with
  | nil => trivial
  | cons h older =>
    obtain ⟨hphase, hlogged⟩ := hinv.last h older heq
    refine ⟨?_, hlogged⟩
    rcases hphase with hw | he
    · exact hw.answered (hdue hw.pending)
    · exact he.answered hnow

/-- A command starts to sample at its clock, or disables the endstop. -/
theorem Inv.runHome (hinv : Inv pin reread w) {time : ℕ} {cmd : EndstopHome} (hnow : w.now ≤ time)
    (hdue : w.endstop.pending = true → time ≤ w.due) : Inv pin reread (w.runHome time cmd) := by
  have hlogged := hinv.logged hnow hdue
  have hreported := hinv.reported
  by_cases hcount : cmd.sampleCount.toUInt8 = 0
  · have hendstop : w.endstop.endstopHome cmd =
        { w.endstop with
          pending := false
          waketime := cmd.clock
          sampleTime := cmd.sampleTicks
          sampleCount := cmd.sampleCount.toUInt8
          ts := none
          pinHigh := false
          homing := false } := if_pos hcount
    unfold EndstopWorld.runHome
    rw [hendstop]
    exact
      { idle := fun _ => rfl
        last := by
          intro h older heq
          obtain ⟨rfl, rfl⟩ := List.cons.inj heq
          refine ⟨Or.inr ⟨rfl, fun _ => rfl, fun hpaced => absurd hcount hpaced.1⟩, hlogged⟩
        reported := ⟨fun _ hne => absurd rfl hne, fun _ => hreported⟩ }
  · have hendstop : w.endstop.endstopHome cmd =
        { w.endstop with
          pending := true
          waketime := cmd.clock
          sampleTime := cmd.sampleTicks
          sampleCount := cmd.sampleCount.toUInt8
          restTime := cmd.restTicks
          func := .event
          triggerCount := cmd.sampleCount.toUInt8
          homing := true
          pinHigh := cmd.pinValue != 0
          ts := some cmd.trsyncOid.toUInt8
          triggerReason := cmd.triggerReason.toUInt8 } := if_neg hcount
    unfold EndstopWorld.runHome
    rw [hendstop]
    refine
      { idle := fun hnil => by cases hnil
        last := ?_
        reported := ⟨fun _ hne => absurd rfl hne, fun hzero => absurd hzero hcount⟩ }
    intro h older heq
    obtain ⟨rfl, rfl⟩ := List.cons.inj heq
    refine ⟨Or.inl ⟨rfl, hcount, fun hpaced => ⟨⟨rfl, rfl, rfl, rfl, rfl, rfl⟩, rfl, 0, 0, ?_⟩⟩,
      hlogged⟩
    exact
      { lt := Homing.sampleCount_pos hpaced
        unmatched := fun _ hlt => absurd hlt (Nat.not_lt_zero _)
        matched := fun _ hlt => absurd hlt (Nat.not_lt_zero _)
        due := by
          unfold Homing.sampleClock
          rw [Nat.zero_mul, Nat.zero_mul]
          rfl
        func := rfl
        triggerCount := rfl
        nextwake := fun hne => absurd rfl hne }

/-- After a mismatch all samples are taken again, from the next grid point on. -/
theorem Sampling.restart {k j : ℕ} (hs : Sampling pin reread h w k j) (hpaced : h.Paced)
    (hno : ¬ h.SampleMatches pin reread k j)
    (hr : Restarted h k (w.endstop.callback (pin w.due) (reread w.due))) :
    Sampling pin reread h (w.runTimer pin reread) (k + 1) 0 where
  lt := Homing.sampleCount_pos hpaced
  unmatched := by
    intro i hi hmatches
    rcases Nat.lt_succ_iff_lt_or_eq.mp hi with hlt | rfl
    · exact hs.unmatched i hlt hmatches
    · exact hno (hmatches j hs.lt)
  matched := fun _ hlt => absurd hlt (Nat.not_lt_zero _)
  due := by
    have hlt := Homing.sampleClock_lt_rest (k := k) hpaced hs.lt.le
    have hticks := h.cmd.restTicks.toNat_lt
    have hfirst := Homing.sampleClock_mono (h := h) (k := k) (Nat.zero_le j)
    change firstClock w.due (w.endstop.callback (pin w.due) (reread w.due)).1.waketime = _
    rw [hr.waketime, hs.due]
    apply firstClock_clock32 hlt.le
    rw [Homing.sampleClock_rest]
    omega
  func := hr.func
  triggerCount := congrArg UInt8.toNat hr.triggerCount
  nextwake := fun hne => absurd rfl hne

/-- After a sample that matches, the next one is taken. -/
theorem Sampling.advance {k j : ℕ} (hs : Sampling pin reread h w k j)
    (hmatch : h.SampleMatches pin reread k j) (hmore : j + 1 < h.sampleCount.toNat)
    (hr : Advanced h k j (w.endstop.callback (pin w.due) (reread w.due))) :
    Sampling pin reread h (w.runTimer pin reread) k (j + 1) where
  lt := hmore
  unmatched := hs.unmatched
  matched := by
    intro i hi
    rcases Nat.lt_succ_iff_lt_or_eq.mp hi with hlt | rfl
    · exact hs.matched i hlt
    · exact hmatch
  due := by
    have hticks := h.cmd.sampleTicks.toNat_lt
    change firstClock w.due (w.endstop.callback (pin w.due) (reread w.due)).1.waketime = _
    rw [hr.waketime, hs.due]
    apply firstClock_clock32 (Homing.sampleClock_mono (Nat.le_succ j))
    rw [Homing.sampleClock_succ]
    omega
  func := hr.func
  triggerCount := hr.triggerCount
  nextwake := fun _ => hr.nextwake

theorem runTimer_of_reschedule {r : Endstop × TimerResult × Bool}
    (hr : w.endstop.callback (pin w.due) (reread w.due) = r) (hresult : r.2 = (.reschedule, false)) :
    w.runTimer pin reread =
      { now := w.due, endstop := { r.1 with pending := true }, homings := w.homings } := by
  unfold EndstopWorld.runTimer
  obtain ⟨e, result, trigger⟩ := r
  obtain ⟨rfl, rfl⟩ := Prod.mk.inj hresult
  rw [hr]
  rfl

theorem runTimer_of_done {r : Endstop × TimerResult × Bool}
    (hr : w.endstop.callback (pin w.due) (reread w.due) = r) (hresult : r.2 = (.done, true)) :
    w.runTimer pin reread =
      { now := w.due
        endstop := { r.1 with pending := false }
        homings := EndstopWorld.noteCall
          { clock := w.due, ts := r.1.ts, reason := r.1.triggerReason } w.homings } := by
  unfold EndstopWorld.runTimer
  obtain ⟨e, result, trigger⟩ := r
  obtain ⟨rfl, rfl⟩ := Prod.mk.inj hresult
  rw [hr]
  rfl

theorem callback_result (val val' : Bool) (e : Endstop) :
    (e.callback val val').2 = (.reschedule, false) ∨ (e.callback val val').2 = (.done, true) := by
  have hover (val : Bool) (e : Endstop) :
      (e.endstopOversampleEvent val).2 = (.reschedule, false) ∨
        (e.endstopOversampleEvent val).2 = (.done, true) := by
    unfold Endstop.endstopOversampleEvent
    split
    · exact Or.inl rfl
    · dsimp only
      split
      · exact Or.inr rfl
      · exact Or.inl rfl
  unfold Endstop.callback
  split
  · unfold Endstop.endstopEvent
    dsimp only
    split
    · exact Or.inl rfl
    · exact hover _ _
  · exact hover _ _

theorem noteCall_of_nil (hcalls : h.calls = []) (call : TriggerCall) (older : List Homing) :
    EndstopWorld.noteCall call (h :: older) = { h with calls := [call] } :: older := by
  unfold EndstopWorld.noteCall
  dsimp only
  rw [hcalls, List.nil_append]

theorem Sampling.firstMatch {k j : ℕ} (hs : Sampling pin reread h w k j)
    (hmatch : h.SampleMatches pin reread k j) (hlast : j + 1 = h.sampleCount.toNat) :
    h.FirstMatch pin reread k := by
  refine ⟨fun i hi => ?_, hs.unmatched⟩
  rcases Nat.lt_succ_iff_lt_or_eq.mp (hlast ▸ hi) with hlt | rfl
  · exact hs.matched i hlt
  · exact hmatch

theorem Sampling.triggerCall {k j : ℕ} (hs : Sampling pin reread h w k j)
    (hlast : j + 1 = h.sampleCount.toNat) {e : Endstop} (hconf : Configured h e) :
    { clock := w.due, ts := e.ts, reason := e.triggerReason } = h.triggerCall k := by
  rw [Homing.triggerCall, Homing.triggerClock, hs.due, hconf.ts, hconf.triggerReason, ← hlast]
  rfl

/-- One event of the timer, for a homing whose samples are paced. -/
theorem Sampling.runTimer {k j : ℕ} {older : List Homing} (hs : Sampling pin reread h w k j)
    (hpaced : h.Paced) (hconf : Configured h w.endstop) (hcalls : h.calls = [])
    (heq : w.homings = h :: older) :
    ((w.runTimer pin reread).homings = h :: older ∧
      (w.runTimer pin reread).endstop.pending = true ∧
      Configured h (w.runTimer pin reread).endstop ∧
      ∃ k j, Sampling pin reread h (w.runTimer pin reread) k j) ∨
    ((w.runTimer pin reread).homings = { h with calls := [h.triggerCall k] } :: older ∧
      (w.runTimer pin reread).endstop.pending = false ∧
      (w.runTimer pin reread).now = h.triggerClock k ∧ h.FirstMatch pin reread k ∧
      (w.runTimer pin reread).endstop.nextwake = clock32 (h.sampleClock (k + 1) 0)) := by
  have hkept {r : Endstop × TimerResult × Bool} (hr : Configured h r.1) (b : Bool) :
      Configured h { r.1 with pending := b } := ⟨hr.1, hr.2, hr.3, hr.4, hr.5, hr.6⟩
  by_cases hmatch : h.SampleMatches pin reread k j
  · rcases Nat.lt_or_eq_of_le hs.lt with hmore | hlast
    · have hr := hs.callback_more hconf hmatch hmore
      have hs' := hs.advance hmatch hmore hr
      have hrun := runTimer_of_reschedule rfl hr.result
      left
      rw [hrun] at hs' ⊢
      exact ⟨heq, rfl, hkept hr.configured true, k, j + 1, hs'⟩
    · have hr := hs.callback_last hconf hmatch hlast
      right
      rw [runTimer_of_done rfl hr.result, hs.triggerCall hlast hr.configured, heq]
      refine ⟨?_, rfl, ?_, hs.firstMatch hmatch hlast, hr.nextwake⟩
      · exact noteCall_of_nil hcalls _ older
      · dsimp only
        rw [hs.due, Homing.triggerClock, ← hlast]
        rfl
  · have hr := hs.callback_mismatch hconf hmatch
    have hs' := hs.restart hpaced hmatch hr
    have hrun := runTimer_of_reschedule rfl hr.result
    left
    rw [hrun] at hs' ⊢
    exact ⟨heq, rfl, hkept hr.configured true, k + 1, 0, hs'⟩

theorem Inv.runTimer (hinv : Inv pin reread w) (hpending : w.endstop.pending = true) :
    Inv pin reread (w.runTimer pin reread) := by
  cases heq : w.homings with
  | nil => exact absurd (hinv.idle heq) (by rw [hpending]; exact Bool.true_eq_false_eq_False)
  | cons h older =>
    obtain ⟨hphase, hlogged⟩ := hinv.last h older heq
    rcases hphase with hw | he
    · by_cases hpaced : h.Paced
      · obtain ⟨hconf, hcalls, k, j, hs⟩ := hw.sampling hpaced
        rcases hs.runTimer hpaced hconf hcalls heq with
          ⟨heq', hpending', hconf', hs'⟩ | ⟨heq', hpending', hnow', hfirst, hnext⟩
        · exact
            { idle := fun hnil => by rw [heq'] at hnil; cases hnil
              last := by
                intro h' older' hcons
                rw [heq'] at hcons
                obtain ⟨rfl, rfl⟩ := List.cons.inj hcons
                exact ⟨Or.inl ⟨hpending', hw.count, fun _ => ⟨hconf', hcalls, hs'⟩⟩, hlogged⟩
              reported := by
                rw [heq']
                exact ⟨fun _ hne => absurd hcalls hne, fun hzero => absurd hzero hw.count⟩ }
        · exact
            { idle := fun hnil => by rw [heq'] at hnil; cases hnil
              last := by
                intro h' older' hcons
                rw [heq'] at hcons
                obtain ⟨rfl, rfl⟩ := List.cons.inj hcons
                refine ⟨Or.inr ⟨hpending', fun hzero => absurd hzero hw.count, fun _ => ?_⟩,
                  hlogged⟩
                exact ⟨k, hfirst, hnow'.ge, rfl⟩
              reported := by
                rw [heq']
                exact ⟨fun _ _ => ⟨k, hfirst, hnext⟩, fun hzero => absurd hzero hw.count⟩ }
      · -- nothing is said about the samples of this homing
        rcases callback_result (pin w.due) (reread w.due) w.endstop with hr | hr
        · rw [runTimer_of_reschedule rfl hr, heq]
          exact
            { idle := fun hnil => by cases hnil
              last := by
                intro h' older' hcons
                obtain ⟨rfl, rfl⟩ := List.cons.inj hcons
                exact ⟨Or.inl ⟨rfl, hw.count, fun hp => absurd hp hpaced⟩, hlogged⟩
              reported :=
                ⟨fun hp => absurd hp hpaced, fun hzero => absurd hzero hw.count⟩ }
        · rw [runTimer_of_done rfl hr, heq]
          exact
            { idle := fun hnil => by cases hnil
              last := by
                intro h' older' hcons
                obtain ⟨rfl, rfl⟩ := List.cons.inj hcons
                exact ⟨Or.inr ⟨rfl, fun hzero => absurd hzero hw.count,
                  fun hp => absurd hp hpaced⟩, hlogged⟩
              reported :=
                ⟨fun hp => absurd hp hpaced, fun hzero => absurd hzero hw.count⟩ }
    · rw [he.pending] at hpending
      cases hpending

theorem Inv.step {e : EndstopEvent} {t : EndstopWorld} (hinv : Inv pin reread w)
    (hstep : w.Step pin reread e t) : Inv pin reread t := by
  obtain ⟨henabled, rfl⟩ := hstep
  cases e with
  | home time cmd => exact hinv.runHome henabled.1 henabled.2
  | timer => exact hinv.runTimer henabled

theorem Reported.of_disabled {nextwake : UInt32} {older : List Homing} :
    ∀ {disabled : List Homing}, Reported pin reread nextwake (disabled ++ h :: older) →
      (∀ d ∈ disabled, d.sampleCount = 0) → h.Paced → h.calls ≠ [] →
      ∃ k, h.FirstMatch pin reread k ∧ nextwake = clock32 (h.sampleClock (k + 1) 0)
  | [], hreported, _, hpaced, hcalls => hreported.1 hpaced hcalls
  | d :: _, hreported, hzero, hpaced, hcalls =>
    Reported.of_disabled (hreported.2 (hzero d List.mem_cons_self))
      (fun d' hd' => hzero d' (List.mem_cons_of_mem d hd')) hpaced hcalls

/-- The clock that `home_wait` finds is the first sample of the attempt, as long as the host's
clock is within half the range of the clock from the next grid point. -/
theorem homeWait_iff {k : ℕ} {params : EndstopState} {res : List ℕ} (lastClock : ℤ)
    (hnext : params.nextClock = clock32 (h.sampleClock (k + 1) 0))
    (htimeout : reasonCommsTimeout ∉ res) (hhit : res.head? = some reasonEndstopHit) :
    homeWait false res params lastClock h.cmd.restTicks.toNat = .triggered (h.sampleClock k 0) ↔
      -2147483648 ≤ lastClock - h.sampleClock (k + 1) 0 ∧
        lastClock - h.sampleClock (k + 1) 0 < 2147483648 := by
  rw [← clock32ToClock64_iff, homeWait, if_neg htimeout, if_neg (fun hne => hne hhit),
    if_neg Bool.false_ne_true, HomeWait.triggered.injEq, hnext, Homing.sampleClock_rest]
  omega

end Invariant

/-- In every run, each homing calls `trsync_do_trigger` at most once, at the end of the first
attempt that matches; until then the samples are taken in order, all of them again after a
mismatch; and from the answer to a later query `home_wait` finds the first sample of that attempt
if and only if the host's clock is within half the range of the clock. -/
theorem endstop_run {pin reread : ℕ → Bool} {start : ℕ} {events : List EndstopEvent}
    {w : EndstopWorld} (hrun : Run (EndstopWorld.Step pin reread) (.init start) events w) :
    Logged pin reread w.now w.homings ∧
    (∀ h older, w.homings = h :: older → h.Paced → h.calls = [] →
      w.endstop.pending = true ∧ ∃ k j, Sampling pin reread h w k j) ∧
    (∀ disabled h older, w.homings = disabled ++ h :: older →
      (∀ d ∈ disabled, d.sampleCount = 0) → h.Paced → h.calls ≠ [] →
      ∃ k, h.FirstMatch pin reread k ∧
        ∀ (res : List ℕ) (lastClock : ℤ), reasonCommsTimeout ∉ res →
          res.head? = some reasonEndstopHit →
          (homeWait false res w.endstop.endstopQueryState lastClock h.cmd.restTicks.toNat =
              .triggered (h.sampleClock k 0) ↔
            -2147483648 ≤ lastClock - h.sampleClock (k + 1) 0 ∧
              lastClock - h.sampleClock (k + 1) 0 < 2147483648)) := by
  have hinv : Inv pin reread w :=
    hrun.invariant (Inv.init start) fun _ _ _ hinv hstep => hinv.step hstep
  refine ⟨hinv.logged le_rfl fun _ => le_firstClock _ _, ?_, ?_⟩
  · intro h older heq hpaced hcalls
    rcases (hinv.last h older heq).1 with hw | he
    · exact ⟨hw.pending, (hw.sampling hpaced).2.2⟩
    · obtain ⟨k, -, -, hone⟩ := he.triggered hpaced
      rw [hcalls] at hone
      cases hone
  · intro disabled h older heq hzero hpaced hcalls
    obtain ⟨k, hfirst, hnext⟩ :=
      Reported.of_disabled (heq ▸ hinv.reported) hzero hpaced hcalls
    exact ⟨k, hfirst, fun res lastClock => homeWait_iff lastClock hnext⟩

/-- Two samples, ten clocks apart, of an endstop that is always triggered. -/
def twoSamples : EndstopHome where
  clock := 100
  sampleTicks := 10
  sampleCount := 2
  restTicks := 50
  pinValue := 1
  trsyncOid := 3
  triggerReason := 1

/-- No sampling follows. -/
def disableEndstop : EndstopHome where
  clock := 0
  sampleTicks := 0
  sampleCount := 0
  restTicks := 0
  pinValue := 0
  trsyncOid := 0
  triggerReason := 0

/-- The two samples are taken, and the endstop is disabled. -/
def sampledEvents : List EndstopEvent :=
  [.home 0 twoSamples, .timer, .timer, .home 120 disableEndstop]

theorem run_sampledEvents :
    Run (EndstopWorld.Step (fun _ => true) (fun _ => true)) (.init 0) sampledEvents
      (sampledEvents.foldl (EndstopWorld.next (fun _ => true) fun _ => true) (.init 0)) :=
  Run.of_checks (by decide +kernel)

theorem endstop_run_twoSamples :
    ∃ w, Run (EndstopWorld.Step (fun _ => true) (fun _ => true)) (.init 0) sampledEvents w ∧
      Logged (fun _ => true) (fun _ => true) w.now w.homings :=
  ⟨_, run_sampledEvents, (endstop_run run_sampledEvents).1⟩

/-- The claim that `home_wait` always finds the clock of the first sample is false: the host's
clock may be half the range of the clock later. -/
theorem not_homeWait :
    ¬ ∀ (events : List EndstopEvent) (w : EndstopWorld) (disabled older : List Homing) (h : Homing)
        (k : ℕ) (lastClock : ℤ),
      Run (EndstopWorld.Step (fun _ => true) (fun _ => true)) (.init 0) events w →
      w.homings = disabled ++ h :: older → (∀ d ∈ disabled, d.sampleCount = 0) → h.Paced →
      h.calls = [h.triggerCall k] →
      homeWait false [reasonEndstopHit] w.endstop.endstopQueryState lastClock
        h.cmd.restTicks.toNat = .triggered (h.sampleClock k 0) := by
  intro h
  have hfound := h sampledEvents _ [{ time := 120, cmd := disableEndstop, calls := [] }] []
    { time := 0, cmd := twoSamples, calls := [{ clock := 110, ts := some 3, reason := 1 }] } 0
    (150 + 2147483648) run_sampledEvents (by decide +kernel) (by decide +kernel)
    (by decide +kernel) (by decide +kernel)
  revert hfound
  decide +kernel

end FlsunT1.Mcu
