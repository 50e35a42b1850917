/-
  Mcu/Uptime.lean --- the uptime that the firmware reports, from its 32 bit counter.

  Source: klipper/src/basecmd.c (`command_get_uptime`, `stats_update`) and
  klipper/src/generic/timer_irq.c (`timer_from_us`).

  Time is the count of ticks since the counter was 0; `timer_read_time` sees it modulo 2^32.
  `clockFreq` is `CONFIG_CLOCK_FREQ`.
-/
import FlsunT1.Library.Run
import FlsunT1.Mcu.Timer

set_option autoImplicit false

namespace FlsunT1.Mcu

open Library

/-- `timer_from_us` -/
def timerFromUs (clockFreq us : Int) : Int := u32 (us * (clockFreq / 1000000))

/-- `SUMSQ_BASE` -/
def sumsqBase : Int := 256

/-- The static variables of `basecmd.c` that hold the statistics. -/
structure Stats where
  count : Int
  sum : Int
  sumsq : Int
  statsSendTime : Int
  statsSendTimeHigh : Int
  deriving DecidableEq, Repr

/-- The message `stats` -/
structure StatsMessage where
  count : Int
  sum : Int
  sumsq : Int
  deriving DecidableEq, Repr

/-- The message `uptime` -/
structure UptimeMessage where
  high : Int
  clock : Int
  deriving DecidableEq, Repr

namespace Stats

/-- Static memory is cleared. -/
def init : Stats where
  count := 0
  sum := 0
  sumsq := 0
  statsSendTime := 0
  statsSendTimeHigh := 0

/-- `command_get_uptime`, where `timer_read_time` returns `cur`. -/
def getUptime (s : Stats) (cur : Int) : UptimeMessage :=
  let high := u32 (s.statsSendTimeHigh + if cur < s.statsSendTime then 1 else 0)
  { high := high, clock := cur }

/-- What `stats_update` makes of the sum of squares; it stays at its largest value. -/
def nextSumsq (sumsq diff : Int) : Int :=
  let nextsumsq :=
    if diff ≤ 0xffff then u32 (sumsq + u32 (u32 (diff * diff) + sumsqBase - 1) / sumsqBase)
    else if diff ≤ 0xfffff then u32 (sumsq + u32 (diff + sumsqBase - 1) / sumsqBase * diff)
    else 0xffffffff
  if nextsumsq < sumsq then 0xffffffff else nextsumsq

/-- `stats_update`: the variables after it, and the message if it is time for one. -/
def update (clockFreq : Int) (s : Stats) (start cur : Int) : Stats × Option StatsMessage :=
  let diff := u32 (cur - start)
  let s := { s with
    count := u32 (s.count + 1)
    sum := u32 (s.sum + diff)
    sumsq := nextSumsq s.sumsq diff }
  if timerIsBefore cur (u32 (s.statsSendTime + timerFromUs clockFreq 5000000)) then (s, none)
  else
    let high := if cur < s.statsSendTime then u32 (s.statsSendTimeHigh + 1) else s.statsSendTimeHigh
    ({ count := 0, sum := 0, sumsq := 0, statsSendTime := cur, statsSendTimeHigh := high },
      some { count := s.count, sum := s.sum, sumsq := s.sumsq })

end Stats

/-! ## Runs -/

/-- The firmware at `now`; it called `stats_update` last at `updated`. -/
structure StatsClock where
  stats : Stats
  now : Int
  updated : Int

namespace StatsClock

/-- The counter starts. -/
def init : StatsClock where
  stats := .init
  now := 0
  updated := 0

/-- What happens. -/
inductive Event
  /-- `stats_update` with the time of the previous call, without the time slept since -/
  | statsUpdate (start ticks : Int)
  /-- `command_get_uptime` -/
  | getUptime (ticks : Int)

/-- An event happens: time does not go back, and no more than 2^30 ticks pass without a call of
`stats_update`. -/
inductive Step (clockFreq : Int) (s : StatsClock) : Event → StatsClock → Prop
  | statsUpdate (start ticks : Int) (hnow : s.now ≤ ticks) (hlate : ticks ≤ s.updated + 2 ^ 30) :
      Step clockFreq s (.statsUpdate start ticks)
        { stats := (s.stats.update clockFreq start (u32 ticks)).1, now := ticks, updated := ticks }
  | getUptime (ticks : Int) (hnow : s.now ≤ ticks) (hlate : ticks ≤ s.updated + 2 ^ 30) :
      Step clockFreq s (.getUptime ticks) { s with now := ticks }

/-- Both words together are the time of the last message, up to 2^64, and that is less than five
seconds before the last call. -/
structure Sent (clockFreq sent : Int) (s : StatsClock) : Prop where
  nonneg : 0 ≤ sent
  updated : sent ≤ s.updated ∧ s.updated ≤ s.now
  recent : s.updated = sent ∨ s.updated < sent + timerFromUs clockFreq 5000000
  time : s.stats.statsSendTime = u32 sent
  high : s.stats.statsSendTimeHigh = u32 (sent / 2 ^ 32)

variable {clockFreq : Int}

theorem sent_init : Sent clockFreq 0 init :=
  ⟨le_refl _, ⟨le_refl _, le_refl _⟩, .inl rfl, rfl, rfl⟩

theorem u32_div_of_lt (sent ticks : Int) (hle : sent ≤ ticks) (hlt : ticks < sent + 2 ^ 32) :
    ticks / 2 ^ 32 = sent / 2 ^ 32 + if u32 ticks < u32 sent then 1 else 0 := by
  unfold u32
  split <;> omega

theorem timerIsBefore_iff (sent ticks : Int) {delay : Int} (hdelay : 0 ≤ delay ∧ delay < 2 ^ 31)
    (hle : sent ≤ ticks) (hlt : ticks < sent + 2 ^ 31) :
    timerIsBefore (u32 ticks) (u32 (u32 sent + delay)) ↔ ticks < sent + delay := by
  unfold timerIsBefore i32 u32
  omega

/-- A call of `stats_update` keeps the time of the last message, or makes it the present. -/
theorem Sent.update {sent start ticks : Int} {s : StatsClock} (h : Sent clockFreq sent s)
    (hfive : timerFromUs clockFreq 5000000 < 2 ^ 31 - 2 ^ 30) (hnow : s.now ≤ ticks)
    (hlate : ticks ≤ s.updated + 2 ^ 30) :
    ∃ sent', Sent clockFreq sent'
      { stats := (s.stats.update clockFreq start (u32 ticks)).1, now := ticks, updated := ticks } := by
  have hnonneg : 0 ≤ timerFromUs clockFreq 5000000 := u32_nonneg _
  have hupdated := h.updated
  have hrecent := h.recent
  have hbefore := timerIsBefore_iff sent ticks ⟨hnonneg, by omega⟩
    (by omega) (by omega)
  rw [← h.time] at hbefore
  unfold Stats.update
  dsimp only
  split
  · rename_i hwait
    refine ⟨sent, h.nonneg, ⟨by dsimp only; omega, le_refl _⟩, .inr (hbefore.mp hwait), h.time, h.high⟩
  · refine ⟨ticks, ?_, ⟨le_refl _, le_refl _⟩, .inl rfl, rfl, ?_⟩
    · have := h.nonneg
      omega
    · have hhigh := u32_div_of_lt sent ticks (by omega) (by omega)
      rw [h.time, h.high, hhigh]
      dsimp only
      split
      · unfold u32
        omega
      · rw [add_zero]

theorem Sent.step {sent : Int} {s t : StatsClock} {e : Event} (h : Sent clockFreq sent s)
    (hfive : timerFromUs clockFreq 5000000 < 2 ^ 31 - 2 ^ 30) (hstep : Step clockFreq s e t) :
    ∃ sent', Sent clockFreq sent' t := by
  cases hstep with
  | statsUpdate start ticks hnow hlate => exact h.update hfive hnow hlate
  | getUptime ticks hnow hlate =>
    have hupdated := h.updated
    exact ⟨sent, h.nonneg, ⟨hupdated.1, hupdated.2.trans hnow⟩, h.recent, h.time, h.high⟩

theorem exists_sent {es : List Event} {s : StatsClock}
    (hfive : timerFromUs clockFreq 5000000 < 2 ^ 31 - 2 ^ 30)
    (hrun : Run (Step clockFreq) init es s) : ∃ sent, Sent clockFreq sent s := by
  apply hrun.invariant (P := fun s => ∃ sent, Sent clockFreq sent s) ⟨0, sent_init⟩
  rintro s e t ⟨sent, hsent⟩ hstep
  exact hsent.step hfive hstep

/-- From the time of the last message, the report is right up to 2^64. -/
theorem Sent.getUptime {sent ticks : Int} {s : StatsClock} (h : Sent clockFreq sent s)
    (hfive : timerFromUs clockFreq 5000000 < 2 ^ 31 - 2 ^ 30) (hnow : s.now ≤ ticks)
    (hlate : ticks ≤ s.updated + 2 ^ 30) :
    (s.stats.getUptime (u32 ticks)).high * 2 ^ 32 + (s.stats.getUptime (u32 ticks)).clock =
      ticks % 2 ^ 64 := by
  have hupdated := h.updated
  have hrecent := h.recent
  have hhigh := u32_div_of_lt sent ticks (by omega) (by omega)
  have hword : (s.stats.getUptime (u32 ticks)).high = u32 (ticks / 2 ^ 32) := by
    unfold Stats.getUptime
    dsimp only
    rw [h.time, h.high, hhigh]
    unfold u32
    split <;> omega
  have hclock : (s.stats.getUptime (u32 ticks)).clock = u32 ticks := rfl
  have hdiv : ticks / 2 ^ 32 / 2 ^ 32 = ticks / 2 ^ 64 := by
    rw [Int.ediv_ediv_of_nonneg (by decide)]
    norm_num
  rw [hword, hclock]
  unfold u32
  omega

/-- After every run, whenever `command_get_uptime` is called, both words are the count of ticks
up to 2^64. -/
theorem getUptime_run (clockFreq : Int)
    (hfive : timerFromUs clockFreq 5000000 < 2 ^ 31 - 2 ^ 30) (es : List Event) (s : StatsClock)
    (hrun : Run (Step clockFreq) init es s) (ticks : Int) (hnow : s.now ≤ ticks)
    (hlate : ticks ≤ s.updated + 2 ^ 30) :
    (s.stats.getUptime (u32 ticks)).high * 2 ^ 32 + (s.stats.getUptime (u32 ticks)).clock =
      ticks % 2 ^ 64 := by
  obtain ⟨sent, hsent⟩ := exists_sent hfive hrun
  exact hsent.getUptime hfive hnow hlate

/-- A counter of 180 MHz that wraps between the two words of a report. -/
theorem getUptime_run_wraps :
    ∃ es s, Run (Step 180000000) init es s ∧ s.now = 4000000000 ∧
      (s.stats.getUptime (u32 4500000000)).high * 2 ^ 32 +
        (s.stats.getUptime (u32 4500000000)).clock = 4500000000 := by
  have hstep : Step 180000000 init (.statsUpdate 0 1000000000) _ :=
    .statsUpdate 0 1000000000 (by decide) (by decide)
  have h1 := Run.single hstep
  have h2 := h1.snoc (.statsUpdate 0 2000000000 (by decide) (by decide))
  have h3 := h2.snoc (.statsUpdate 0 3000000000 (by decide) (by decide))
  have h4 := h3.snoc (.statsUpdate 0 4000000000 (by decide) (by decide))
  refine ⟨_, _, h4, rfl, ?_⟩
  exact getUptime_run 180000000 (by decide) _ _ h4 4500000000 (by decide) (by decide)

theorem exists_run (clockFreq : Int) (n : ℕ) :
    ∃ es s, Run (Step clockFreq) init es s ∧ s.now = n * 2 ^ 30 ∧ s.updated = n * 2 ^ 30 := by
  induction n with
  | zero => exact ⟨[], init, .nil, rfl, rfl⟩
  | succ n ih =>
    obtain ⟨es, s, hrun, hnow, hupdated⟩ := ih
    have hstep : Step clockFreq s (.statsUpdate s.now ((n + 1) * 2 ^ 30)) _ :=
      .statsUpdate s.now ((n + 1) * 2 ^ 30) (by omega) (by omega)
    refine ⟨_, _, hrun.snoc hstep, ?_, ?_⟩ <;> dsimp only <;> push_cast <;> rfl

/-- The claim that the report is the count of ticks for ever is false: after 2^64 ticks, all the
bits of both words are used up. -/
theorem not_getUptime :
    ¬ ∀ clockFreq : Int, timerFromUs clockFreq 5000000 < 2 ^ 31 - 2 ^ 30 →
      ∀ (es : List Event) (s : StatsClock), Run (Step clockFreq) init es s →
        ∀ ticks : Int, s.now ≤ ticks → ticks ≤ s.updated + 2 ^ 30 →
          (s.stats.getUptime (u32 ticks)).high * 2 ^ 32 +
            (s.stats.getUptime (u32 ticks)).clock = ticks := by
  intro h
  have hfive : timerFromUs 180000000 5000000 < 2 ^ 31 - 2 ^ 30 := by decide
  obtain ⟨es, s, hrun, hnow, hupdated⟩ := exists_run 180000000 (2 ^ 34)
  obtain ⟨sent, hsent⟩ := exists_sent hfive hrun
  have hclaim := h 180000000 hfive es s hrun (2 ^ 64) (by omega) (by omega)
  have hright := hsent.getUptime hfive (show s.now ≤ 2 ^ 64 by omega) (by omega)
  omega

end StatsClock

end FlsunT1.Mcu
