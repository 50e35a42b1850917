/-
  Mcu/DigitalWatchdog.lean --- the maximum duration of a digital output.

  An output configured with a maximum duration may be driven away from its
  default level only for so long: the update that does it starts a timer, and
  the event at its end either loads a queued update or shuts the firmware down.
  The world below adds to the output the clock, counted without wrap-around, and
  the moment its current setting was loaded.  Timer events run when they are
  due: the clock does not advance past a pending timer.
-/
import Mathlib.Data.List.Chain
import FlsunT1.Library.Run
import FlsunT1.Mcu.DigitalOut

set_option autoImplicit false

namespace FlsunT1.Mcu

open FlsunT1.Library

/-! ## The world of one output -/

/-- What happens to an output. -/
inductive DigitalStep
  /-- the clock advances -/
  | tick
  /-- the timer of the output runs -/
  | event
  | queueDigitalOut (clock onTicks : Int)
  | updateDigitalOut (value : Int)
  | setDigitalOutPwmCycle (cycleTicks : Int)
  deriving DecidableEq, Repr

/-- An output, the clock, and when the current setting was loaded: by the clock,
and by the waketime of the event that loaded it. -/
structure DigitalWorld where
  now : Int
  out : DigitalOut
  loadNow : Int
  loadClock : Int
  deriving DecidableEq, Repr

namespace DigitalWorld

/-- The timer is pending and its time has come. -/
def due (w : DigitalWorld) : Prop :=
  w.out.timerPending = true ∧ ¬ timerIsBefore (u32 w.now) w.out.waketime

instance (w : DigitalWorld) : Decidable w.due := inferInstanceAs (Decidable (_ ∧ _))

/-- The pin is driven away from its default value, steadily or by toggling. -/
def driven (w : DigitalWorld) : Prop :=
  w.out.pin ≠ w.out.flags.defaultOn ∨ w.out.flags.toggling = true

instance (w : DigitalWorld) : Decidable w.driven := inferInstanceAs (Decidable (_ ∨ _))

/-- One step; `none` is a shutdown, an event that is not due, or a clock that
would pass a pending timer. -/
def next (w : DigitalWorld) : DigitalStep → Option DigitalWorld
  | .tick => if w.due then none else some { w with now := w.now + 1 }
  | .event =>
      if w.due then
        (digitalEvent w.out).map fun r =>
          let out := { r.1 with timerPending := r.2 == .reschedule }
          match w.out.func with
          | .toggle => { w with out := out }
          | .load => { w with out := out, loadNow := w.now, loadClock := w.out.waketime }
      else none
  | .queueDigitalOut clock onTicks =>
      (commandQueueDigitalOut clock onTicks w.out).map fun d => { w with out := d }
  | .updateDigitalOut value =>
      (commandUpdateDigitalOut w.now value w.out).map fun d =>
        { w with out := d, loadNow := w.now, loadClock := u32 w.now }
  | .setDigitalOutPwmCycle cycleTicks =>
      (commandSetDigitalOutPwmCycle cycleTicks w.out).map fun d => { w with out := d }

/-- A freshly configured output. -/
def config (now value defaultValue maxDuration : Int) : DigitalWorld where
  now := now
  out := configDigitalOut value defaultValue maxDuration
  loadNow := now
  loadClock := u32 now

/-- The order the host keeps: an update is queued for a clock that is neither
past nor before the clocks already queued, and a cycle is below `2^31` ticks. -/
def orderly (w : DigitalWorld) : DigitalStep → Prop
  | .queueDigitalOut clock _ =>
      ¬ timerIsBefore (u32 clock) (u32 w.now) ∧
        ∀ m ∈ w.out.mq.getLast?, ¬ timerIsBefore (u32 clock) m.waketime
  | .setDigitalOutPwmCycle cycleTicks => u32 cycleTicks < 2147483648
  | _ => True

instance (w : DigitalWorld) : (e : DigitalStep) → Decidable (w.orderly e)
  | .queueDigitalOut _ _ => inferInstanceAs (Decidable (_ ∧ _))
  | .setDigitalOutPwmCycle _ => inferInstanceAs (Decidable (_ < _))
  | .tick | .event | .updateDigitalOut _ => inferInstanceAs (Decidable True)

end DigitalWorld

/-- Runs of an output. -/
def DigitalRun : DigitalWorld → List DigitalStep → DigitalWorld → Prop :=
  Run fun w e w' => w.next e = some w'

/-- Runs in which the host keeps its order. -/
def OrderlyRun : DigitalWorld → List DigitalStep → DigitalWorld → Prop :=
  Run fun w e w' => w.next e = some w' ∧ w.orderly e

/-! ## The invariant -/

/-- How the timer stands in a setting that ends `e` ticks after it was loaded. -/
inductive Pending (w : DigitalWorld) (e : Int) : Prop
  /-- the next event loads a setting, at the end of this one -/
  | atEnd (hfunc : w.out.func = .load) (hwake : w.out.waketime = w.out.endTime)
  /-- the next event toggles the pin, `x` ticks after the load -/
  | toggle (x : Int) (hfunc : w.out.func = .toggle) (htog : w.out.flags.toggling = true)
      (hwake : w.out.waketime = u32 (w.loadNow + x)) (hnow : w.now ≤ w.loadNow + x) (hx : x < e)
      (hon : 0 < w.out.onDuration ∧ w.out.onDuration < 2147483648)
      (hoff : 0 < w.out.offDuration ∧ w.out.offDuration < 2147483648)

/-- The three phases of an output with maximum duration `max`. -/
inductive Phase (max : Int) (w : DigitalWorld) : Prop
  /-- at the default level, nothing scheduled -/
  | idle (hcheck : w.out.flags.checkEnd = false) (htimer : w.out.timerPending = false)
      (hmq : w.out.mq = []) (hdriven : ¬ w.driven)
  /-- at the default level until the first queued update -/
  | waiting (a : Int) (hcheck : w.out.flags.checkEnd = true)
      (htimer : w.out.timerPending = true) (hmq : w.out.mq ≠ []) (hdriven : ¬ w.driven)
      (hfunc : w.out.func = .load) (hwake : w.out.waketime = w.out.endTime)
      (hend : w.out.endTime = u32 (w.now + a)) (ha : 0 ≤ a ∧ a < 2147483648)
  /-- a setting that has to end `e` ticks after it was loaded -/
  | timed (e : Int) (hcheck : w.out.flags.checkEnd = true) (htimer : w.out.timerPending = true)
      (hend : w.out.endTime = u32 (w.loadNow + e)) (he : 0 ≤ e ∧ e ≤ max)
      (hnow : w.loadNow ≤ w.now ∧ w.now ≤ w.loadNow + e) (hmq : w.out.mq = [] → e = max)
      (hpending : Pending w e)

/-- The invariant of an output with maximum duration `max`. -/
structure Watched (max : Int) (w : DigitalWorld) : Prop where
  max_eq : w.out.maxDuration = max
  cycle : 0 ≤ w.out.cycleTime ∧ w.out.cycleTime < 2147483648
  pin : w.out.pin = w.out.flags.on
  load : w.loadClock = u32 w.loadNow
  /-- a queue that is not empty ends the current setting at its first clock -/
  head : ∀ m ∈ w.out.mq.head?, w.out.endTime = m.waketime
  ordered : w.out.mq.IsChain fun a b => ¬ timerIsBefore b.waketime a.waketime
  words : ∀ m ∈ w.out.mq, u32 m.waketime = m.waketime ∧ 0 ≤ m.onDuration
  phase : Phase max w

theorem Watched.config {now value defaultValue maxDuration : Int} (hmax0 : 0 < maxDuration)
    (hmax1 : maxDuration < 2147483648) (hvalue : (value != 0) = (defaultValue != 0)) :
    Watched maxDuration (.config now value defaultValue maxDuration) where
  max_eq := u32_of_range (by omega) (by omega)
  cycle := ⟨le_refl _, by show (0 : Int) < 2147483648; decide⟩
  pin := rfl
  load := rfl
  head := by simp [DigitalWorld.config, configDigitalOut]
  ordered := List.isChain_nil
  words := by simp [DigitalWorld.config, configDigitalOut]
  phase := .idle rfl rfl rfl (by
    simp [DigitalWorld.driven, DigitalWorld.config, configDigitalOut, hvalue])

/-! ## The clock -/

section Steps

variable {max : Int} {w w' : DigitalWorld}

theorem pos_of_not_due {now a : Int} (ha : 0 ≤ a) (ha' : a < 2147483648) :
    timerIsBefore (u32 now) (u32 (now + a)) ↔ 0 < a := by
  unfold timerIsBefore i32 u32; omega

theorem Watched.tick (h : Watched max w) (hw : w.next .tick = some w') : Watched max w' := by
  simp only [DigitalWorld.next] at hw
  split at hw
  · cases hw
  rename_i hdue
  cases hw
  refine ⟨h.max_eq, h.cycle, h.pin, h.load, h.head, h.ordered, h.words, ?_⟩
  cases h.phase with
  | idle hcheck htimer hmq hdriven => exact .idle hcheck htimer hmq hdriven
  | waiting a hcheck htimer hmq hdriven hfunc hwake hend ha =>
    have hpos : 0 < a := by
      rw [DigitalWorld.due, hwake, hend, pos_of_not_due ha.1 ha.2] at hdue
      by_contra hle
      exact hdue ⟨htimer, hle⟩
    refine .waiting (a - 1) hcheck htimer hmq hdriven hfunc hwake ?_ (by omega)
    simp only [hend]
    congr 1; omega
  | timed e hcheck htimer hend he hnow hmq hpending =>
    cases hpending with
    | atEnd hfunc hwake =>
      have hlt : w.now < w.loadNow + e := by
        by_contra hle
        have heq : w.loadNow + e = w.now + 0 := by omega
        rw [DigitalWorld.due, hwake, hend, heq, pos_of_not_due (le_refl _) (by decide)] at hdue
        exact hdue ⟨htimer, by decide⟩
      exact .timed e hcheck htimer hend he ⟨by simp only; omega, by simp only; omega⟩ hmq
        (.atEnd hfunc hwake)
    | toggle x hfunc htog hwake hnowx hx hon hoff =>
      have hlt : w.now < w.loadNow + x := by
        by_contra hle
        have heq : w.loadNow + x = w.now + 0 := by omega
        rw [DigitalWorld.due, hwake, heq, pos_of_not_due (le_refl _) (by decide)] at hdue
        exact hdue ⟨htimer, by decide⟩
      exact .timed e hcheck htimer hend he ⟨by simp only; omega, by simp only; omega⟩ hmq
        (.toggle x hfunc htog hwake (by simp only; omega) hx hon hoff)

/-! ## The timer events -/

/-- What `scheduleSetting` leaves alone. -/
@[simp] theorem scheduleSetting_frame (d : DigitalOut) (on endTime : Int) (flags : DigitalFlags) :
    (scheduleSetting d on endTime flags).1.maxDuration = d.maxDuration ∧
      (scheduleSetting d on endTime flags).1.cycleTime = d.cycleTime ∧
      (scheduleSetting d on endTime flags).1.pin = d.pin ∧
      (scheduleSetting d on endTime flags).1.mq = d.mq ∧
      (scheduleSetting d on endTime flags).1.flags = flags ∧
      (scheduleSetting d on endTime flags).1.endTime = endTime := by
  unfold scheduleSetting
  dsimp only
  split <;> split <;> exact ⟨rfl, rfl, rfl, rfl, rfl, rfl⟩

theorem scheduleSetting_pending {d : DigitalOut} {now e on : Int} (clock : Int) {flags : DigitalFlags}
    (hfunc : d.func = .load) (hwake : d.waketime = u32 now) (he : 0 ≤ e ∧ e < 2147483648)
    (hcheck : flags.checkEnd = true)
    (htog : flags.toggling = true → 0 < on ∧ on < d.cycleTime ∧ d.cycleTime < 2147483648) :
    (scheduleSetting d on (u32 (now + e)) flags).2 = .reschedule ∧
      Pending
        { now := now
          out := { (scheduleSetting d on (u32 (now + e)) flags).1 with timerPending := true }
          loadNow := now
          loadClock := clock } e := by
  unfold scheduleSetting
  cases ht : flags.toggling with
  | false => exact ⟨by simp [hcheck], by simpa [hcheck] using .atEnd hfunc rfl⟩
  | true =>
    obtain ⟨hon0, hon1, hcycle⟩ := htog ht
    by_cases hend : timerIsBefore (u32 (d.waketime + on)) (u32 (now + e))
    · simp only [hcheck, Bool.not_true, Bool.false_eq_true, if_false, true_and, hend,
        not_true_eq_false]
      refine .toggle on rfl ht ?_ (by simp only; omega) ?_ (by simp only; omega) ?_
      · simp only [hwake, u32]; omega
      · rw [hwake] at hend
        unfold timerIsBefore i32 u32 at hend
        omega
      · simp only [u32]; omega
    · simp only [hcheck, Bool.not_true, Bool.false_eq_true, if_false, true_and, hend,
        not_false_eq_true, if_true]
      exact .atEnd hfunc rfl

/-- The flags a load computes: a setting at the default level and not toggling
needs no end, any other ends after the maximum duration. -/
theorem loadSetting_cases {d : DigitalOut} (on : Int) (hmax : d.maxDuration ≠ 0) :
    (loadSetting d on).2.on = (on != 0) ∧
      (loadSetting d on).2.defaultOn = d.flags.defaultOn ∧
      ((loadSetting d on).2.toggling = true → on ≠ 0 ∧ on < d.cycleTime) ∧
      (((loadSetting d on).2.checkEnd = true ∧
          (loadSetting d on).1 = u32 (d.waketime + d.maxDuration)) ∨
        ((loadSetting d on).2.checkEnd = false ∧ (loadSetting d on).2.toggling = false ∧
          (on != 0) = d.flags.defaultOn)) := by
  unfold loadSetting
  dsimp only
  by_cases hsteady : (!(on != 0) || decide (d.cycleTime ≤ on)) = true
  · rw [if_pos hsteady]
    by_cases hdefault : (on != 0) = d.flags.defaultOn
    · simp [hdefault]
    · simp [hdefault, hmax]
  · rw [if_neg hsteady]
    simp only [Bool.or_eq_true, Bool.not_eq_true', bne_eq_false_iff_eq, decide_eq_true_eq,
      not_or, not_le] at hsteady
    simp [hmax, hsteady]

/-- A due load event runs at the end of the setting, when the clock shows the
waketime of the timer. -/
theorem Watched.load_due (h : Watched max w) (hmax : max < 2147483648) (hdue : w.due)
    (hfunc : w.out.func = .load) : w.out.waketime = u32 w.now := by
  obtain ⟨htimer, hdue⟩ := hdue
  cases h.phase with
  | idle _ hoff => simp [hoff] at htimer
  | waiting a _ _ _ _ _ hwake hend ha =>
    rw [hwake, hend, pos_of_not_due ha.1 ha.2] at hdue
    rw [hwake, hend]
    congr 1; omega
  | timed e _ _ hend he hnow _ hpending =>
    cases hpending with
    | toggle _ hfunc' => rw [hfunc] at hfunc'; cases hfunc'
    | atEnd _ hwake =>
      rw [hwake, hend] at hdue ⊢
      unfold timerIsBefore i32 u32 at hdue
      unfold u32
      omega

/-- An output in the middle of a load: the setting `on` has been taken off the
queue and its flags computed, and the next event is still to be scheduled. -/
structure Loading (max now : Int) (d : DigitalOut) (on : Int) (flags : DigitalFlags) : Prop where
  max_eq : d.maxDuration = max
  cycle : 0 ≤ d.cycleTime ∧ d.cycleTime < 2147483648
  pin : d.pin = flags.on
  func : d.func = .load
  wake : d.waketime = u32 now
  toggling : flags.toggling = true → 0 < on ∧ on < d.cycleTime
  ordered : d.mq.IsChain fun a b => ¬ timerIsBefore b.waketime a.waketime
  words : ∀ m ∈ d.mq, u32 m.waketime = m.waketime ∧ 0 ≤ m.onDuration

theorem Loading.idle {now on endTime : Int} {d : DigitalOut} {flags : DigitalFlags}
    (h : Loading max now d on flags) (hcheck : flags.checkEnd = false)
    (htog : flags.toggling = false) (hpin : d.pin = flags.defaultOn) (hmq : d.mq = []) :
    Watched max
      { now := now
        out :=
          { (scheduleSetting d on endTime flags).1 with
            timerPending := (scheduleSetting d on endTime flags).2 == .reschedule }
        loadNow := now
        loadClock := d.waketime } := by
  simp only [scheduleSetting, htog, hcheck, Bool.not_false, if_true]
  exact
    { max_eq := h.max_eq
      cycle := h.cycle
      pin := h.pin
      load := h.wake
      head := by simp [hmq]
      ordered := h.ordered
      words := h.words
      phase := .idle hcheck rfl hmq (by simp [DigitalWorld.driven, hpin, htog]) }

/-- A setting with an end is scheduled to end there: it lasts no longer than the
maximum duration, or else it is at the default level until the next one. -/
theorem Loading.timed {now on e : Int} {d : DigitalOut} {flags : DigitalFlags}
    (h : Loading max now d on flags) (hcheck : flags.checkEnd = true)
    (he : 0 ≤ e ∧ e < 2147483648) (hhead : ∀ m ∈ d.mq.head?, u32 (now + e) = m.waketime)
    (hphase : (e ≤ max ∧ (d.mq = [] → e = max)) ∨
      (flags.toggling = false ∧ d.pin = flags.defaultOn ∧ d.mq ≠ [])) :
    Watched max
      { now := now
        out :=
          { (scheduleSetting d on (u32 (now + e)) flags).1 with
            timerPending := (scheduleSetting d on (u32 (now + e)) flags).2 == .reschedule }
        loadNow := now
        loadClock := d.waketime } := by
  obtain ⟨f1, f2, f3, f4, f5, f6⟩ := scheduleSetting_frame d on (u32 (now + e)) flags
  obtain ⟨hres, hpending⟩ := scheduleSetting_pending d.waketime h.func h.wake he hcheck
    fun ht => ⟨(h.toggling ht).1, (h.toggling ht).2, h.cycle.2⟩
  simp only [hres, beq_self_eq_true]
  refine
    { max_eq := f1.trans h.max_eq
      cycle := by simp only [f2]; exact h.cycle
      pin := by simp only [f3, f5, h.pin]
      load := h.wake
      head := by simp only [f4, f6]; exact hhead
      ordered := by simp only [f4]; exact h.ordered
      words := by simp only [f4]; exact h.words
      phase := ?_ }
  rcases hphase with ⟨hmax, hmq⟩ | ⟨htog, hpin, hmq⟩
  · exact .timed e (by simp only [f5, hcheck]) rfl f6 ⟨he.1, hmax⟩
      ⟨le_refl _, by simp only; omega⟩ (by simpa only [f4] using hmq) hpending
  · refine .waiting e (by simp only [f5, hcheck]) rfl (by simpa only [f4] using hmq) ?_ ?_ ?_ f6 he
    · rw [DigitalWorld.driven, f3, f5, hpin, htog]
      simp
    · simp only [scheduleSetting, htog, hcheck, Bool.not_false, Bool.not_true, if_true]
      exact h.func
    · simp only [scheduleSetting, htog, hcheck, Bool.not_false, Bool.not_true, if_true]
      rfl

theorem Watched.head_clock {m : DigitalMove} (h : Watched max w) (hmax : max < 2147483648)
    (hdue : w.due) (hfunc : w.out.func = .load) (hm : m ∈ w.out.mq.head?) :
    m.waketime = u32 w.now := by
  rw [← h.load_due hmax hdue hfunc, ← h.head m hm]
  cases h.phase with
  | idle _ hoff => simp [hdue.1] at hoff
  | waiting _ _ _ _ _ _ hw => exact hw.symm
  | timed _ _ _ _ _ _ _ hpending =>
    cases hpending with
    | atEnd _ hw => exact hw.symm
    | toggle _ hfunc' => rw [hfunc] at hfunc'; cases hfunc'

theorem Watched.loadEvent {r : DigitalOut × TimerResult} (h : Watched max w) (hmax0 : 0 < max)
    (hmax1 : max < 2147483648) (hdue : w.due) (hfunc : w.out.func = .load)
    (hr : digitalLoadEvent w.out = some r) :
    Watched max
      { now := w.now
        out := { r.1 with timerPending := r.2 == .reschedule }
        loadNow := w.now
        loadClock := w.out.waketime } := by
  have hwake := h.load_due hmax1 hdue hfunc
  unfold digitalLoadEvent at hr
  cases hmq : w.out.mq with
  | nil => rw [hmq] at hr; cases hr
  | cons m mq =>
    have hhead := h.head_clock hmax1 hdue hfunc (m := m) (by simp [hmq])
    have hword := h.words
    have hordered := h.ordered
    rw [hmq] at hr hword hordered
    have hon := (hword m (by simp)).2
    simp only at hr
    obtain ⟨hflagOn, hflagDefault, htog, hend⟩ :=
      loadSetting_cases (d := { w.out with mq := mq, pin := m.onDuration != 0 })
        m.onDuration (by simp only [h.max_eq]; omega)
    generalize loadSetting { w.out with mq := mq, pin := m.onDuration != 0 } m.onDuration = setting
      at hr hflagOn hflagDefault htog hend
    obtain ⟨endTime, flags⟩ := setting
    simp only at hr hflagOn hflagDefault htog
    simp only [h.max_eq] at hend
    have hloading : ∀ check, Loading max w.now
        { w.out with mq := mq, pin := m.onDuration != 0 } m.onDuration
        { flags with checkEnd := check } := fun check =>
      { max_eq := h.max_eq
        cycle := h.cycle
        pin := hflagOn.symm
        func := hfunc
        wake := hwake
        toggling := fun ht => ⟨by have := (htog ht).1; omega, (htog ht).2⟩
        ordered := hordered.tail
        words := fun m' hm' => hword m' (by simp [hm']) }
    have hloaded : Loading max w.now
        { w.out with mq := mq, pin := m.onDuration != 0 } m.onDuration flags :=
      hloading flags.checkEnd
    cases mq with
    | nil =>
      simp only [Option.some.injEq] at hr
      subst hr
      rcases hend with ⟨hcheck, hend⟩ | ⟨hcheck, hnotog, hdefault⟩
      · have hend' : endTime = u32 (w.now + max) := by rw [hend, hwake]; unfold u32; omega
        subst hend'
        exact hloaded.timed hcheck ⟨by omega, hmax1⟩ (by simp)
          (.inl ⟨le_refl _, fun _ => rfl⟩)
      · exact hloaded.idle hcheck hnotog
          (by simp only [hflagDefault, hdefault]) rfl
    | cons next rest =>
      obtain ⟨b, hb, hb0, hb1⟩ : ∃ b, next.waketime = u32 (w.now + b) ∧ 0 ≤ b ∧
          b < 2147483648 := by
        have hnextWord := (hword next (by simp)).1
        have hord := (List.isChain_cons_cons.mp hordered).1
        rw [hhead] at hord
        refine ⟨i32 (next.waketime - w.now), ?_, ?_, ?_⟩ <;>
          unfold timerIsBefore at hord <;> unfold i32 u32 at * <;> omega
      simp only at hr
      split at hr
      · cases hr
      rename_i hfits
      simp only [Option.some.injEq] at hr
      subst hr
      rw [hb]
      refine (hloading true).timed rfl ⟨hb0, hb1⟩ (by simp [hb]) ?_
      rcases hend with ⟨hcheck, hend⟩ | ⟨hcheck, hnotog, hdefault⟩
      · refine .inl ⟨?_, by simp⟩
        simp only [hcheck, hend, hwake, hb, true_and] at hfits
        unfold timerIsBefore i32 u32 at hfits
        omega
      · exact .inr ⟨hnotog, by simp only [hflagDefault, hdefault], by simp⟩

@[simp] theorem digitalToggleEvent_timerPending (d : DigitalOut) :
    (digitalToggleEvent d).1.timerPending = d.timerPending := by
  unfold digitalToggleEvent
  dsimp only
  split_ifs <;> rfl

/-- A toggle event keeps the setting: either it comes back before the end, or it
hands over to the load event at the end. -/
theorem Watched.toggleEvent (h : Watched max w) (hmax : max < 2147483648) (hdue : w.due)
    (hfunc : w.out.func = .toggle) :
    (digitalToggleEvent w.out).2 = .reschedule ∧
      Watched max { w with out := (digitalToggleEvent w.out).1 } := by
  obtain ⟨htimer, hdue⟩ := hdue
  cases h.phase with
  | idle _ hoff => simp [hoff] at htimer
  | waiting _ _ _ _ _ hload => rw [hload] at hfunc; cases hfunc
  | timed e hcheck _ hend he hnow hmq hpending =>
    cases hpending with
    | atEnd hload => rw [hload] at hfunc; cases hfunc
    | toggle x _ htog hwake hnowx hx hon hoff =>
      have hnoweq : w.now = w.loadNow + x := by
        rw [hwake] at hdue
        unfold timerIsBefore i32 u32 at hdue
        omega
      unfold digitalToggleEvent
      simp only [hcheck, true_and]
      generalize hdur : (if (!w.out.flags.on) = true then w.out.onDuration
        else w.out.offDuration) = dur
      have hdur' : 0 < dur ∧ dur < 2147483648 := by
        rw [← hdur]; split
        · exact hon
        · exact hoff
      split
      · refine ⟨rfl, h.max_eq, h.cycle, ?_, h.load, h.head, h.ordered, h.words, ?_⟩
        · simp only [h.pin]
        · exact .timed e rfl htimer hend he hnow hmq (.atEnd rfl rfl)
      · rename_i hbefore
        refine ⟨rfl, h.max_eq, h.cycle, ?_, h.load, h.head, h.ordered, h.words, ?_⟩
        · simp only [h.pin]
        · have hwake' : u32 (w.out.waketime + dur) = u32 (w.loadNow + (x + dur)) := by
            rw [hwake]; unfold u32; omega
          rw [not_not, hwake', hend] at hbefore
          refine .timed e rfl htimer hend he hnow hmq
            (.toggle (x + dur) hfunc htog hwake' (by simp only; omega) ?_ hon hoff)
          unfold timerIsBefore i32 u32 at hbefore
          omega

/-! ## The commands -/

/-- An update in its turn keeps the current setting, which then ends at the first
queued clock. -/
theorem Watched.queue {clock onTicks : Int} {d : DigitalOut} (h : Watched max w)
    (hmax : max < 2147483648) (hord : w.orderly (.queueDigitalOut clock onTicks))
    (hd : commandQueueDigitalOut clock onTicks w.out = some d) :
    Watched max { w with out := d } := by
  obtain ⟨hpast, hlast⟩ := hord
  have hword : u32 (u32 clock) = u32 clock := u32_of_range (u32_nonneg _) (u32_lt _)
  unfold commandQueueDigitalOut at hd
  simp only at hd
  split at hd
  · rename_i hmq
    cases hd
    refine ⟨h.max_eq, h.cycle, h.pin, h.load, ?_, ?_, ?_, ?_⟩
    · simp only [List.head?_append]
      cases hhead : w.out.mq.head? with
      | none => exact absurd (List.head?_eq_none_iff.mp hhead) hmq
      | some m => simpa [hhead] using h.head
    · refine List.isChain_append.mpr ⟨h.ordered, List.isChain_singleton _, ?_⟩
      intro a ha b hb
      simp only [List.head?_cons, Option.mem_def, Option.some.injEq] at hb
      subst hb
      exact hlast a ha
    · intro m hm
      rcases List.mem_append.mp hm with hm | hm
      · exact h.words m hm
      · simp only [List.mem_singleton] at hm
        subst hm
        exact ⟨hword, u32_nonneg _⟩
    · cases h.phase with
      | idle _ _ hempty => exact absurd hempty hmq
      | waiting a hcheck htimer _ hdriven hfunc hwake hend ha =>
        exact .waiting a hcheck htimer (by simp) hdriven hfunc hwake hend ha
      | timed e hcheck htimer hend he hnow _ hpending =>
        refine .timed e hcheck htimer hend he hnow (by simp) ?_
        cases hpending with
        | atEnd hfunc hwake => exact .atEnd hfunc hwake
        | toggle x hfunc htog hwake hnowx hx hon hoff =>
          exact .toggle x hfunc htog hwake hnowx hx hon hoff
  · rename_i hmq
    rw [not_not] at hmq
    split at hd
    · cases hd
    rename_i hfits
    -- the first queued update, `a` ticks from now
    obtain ⟨a, ha, ha0, ha1⟩ : ∃ a, u32 clock = u32 (w.now + a) ∧ 0 ≤ a ∧ a < 2147483648 := by
      refine ⟨i32 (u32 clock - w.now), ?_, ?_, ?_⟩ <;>
        unfold timerIsBefore at hpast <;> unfold i32 u32 at * <;> omega
    have hkeep : ∀ d' : DigitalOut, d'.maxDuration = w.out.maxDuration →
        d'.cycleTime = w.out.cycleTime → d'.pin = w.out.pin → d'.flags.on = w.out.flags.on →
        d'.mq = [{ waketime := u32 clock, onDuration := u32 onTicks }] →
        d'.endTime = u32 clock → Phase max { w with out := d' } →
        Watched max { w with out := d' } := by
      intro d' h1 h2 h3 h4 h5 h6 hphase
      refine ⟨h1.trans h.max_eq, by simp only [h2]; exact h.cycle, ?_, h.load, ?_, ?_, ?_, hphase⟩
      · simp only [h3, h4, h.pin]
      · simp [h5, h6]
      · simp only [h5]; exact List.isChain_singleton _
      · simp only [h5, List.mem_singleton, forall_eq]
        exact ⟨hword, u32_nonneg _⟩
    cases h.phase with
    | waiting _ _ _ hne => exact absurd hmq hne
    | idle hcheck htimer _ hdriven =>
      have hnotog : w.out.flags.toggling = false := by
        simp only [DigitalWorld.driven, not_or, Bool.not_eq_true] at hdriven
        exact hdriven.2
      simp only [hnotog, Bool.false_eq_true, false_and, if_false, Option.some.injEq] at hd
      subst hd
      exact hkeep _ rfl rfl rfl rfl rfl rfl
        (.waiting a rfl rfl (by simp) (by simpa [DigitalWorld.driven, hnotog] using hdriven) rfl rfl
          ha ⟨ha0, ha1⟩)
    | timed e hcheck htimer hend he hnow hfull hpending =>
      have hfull := hfull hmq
      subst hfull
      simp only [hcheck, true_and, hend, ha] at hfits
      have hshort : w.now + a - w.loadNow ≤ e := by
        unfold timerIsBefore i32 u32 at hfits
        omega
      have hclock : u32 clock = u32 (w.loadNow + (w.now + a - w.loadNow)) := by
        rw [ha]; congr 1; omega
      split at hd
      · rename_i hbefore
        simp only [Option.some.injEq] at hd
        subst hd
        refine hkeep _ rfl rfl rfl rfl rfl rfl
          (.timed (w.now + a - w.loadNow) rfl htimer hclock ⟨by omega, hshort⟩
            ⟨hnow.1, by simp only; omega⟩ (by simp) ?_)
        cases hpending with
        | atEnd _ hwake =>
          rw [hwake, hend, ha] at hbefore
          exact absurd hbefore.2 hfits
        | toggle x hfunc htog hwake hnowx hx hon hoff =>
          refine .toggle x hfunc htog hwake hnowx ?_ hon hoff
          have hb := hbefore.2
          rw [hwake, ha] at hb
          unfold timerIsBefore i32 u32 at hb
          omega
      · simp only [Option.some.injEq] at hd
        subst hd
        exact hkeep _ rfl rfl rfl rfl rfl rfl
          (.timed (w.now + a - w.loadNow) rfl rfl hclock ⟨by omega, hshort⟩
            ⟨hnow.1, by simp only; omega⟩ (by simp) (.atEnd rfl rfl))

theorem Watched.update {value : Int} {d : DigitalOut} (h : Watched max w) (hmax : 0 < max)
    (hd : commandUpdateDigitalOut w.now value w.out = some d) :
    Watched max { w with out := d, loadNow := w.now, loadClock := u32 w.now } := by
  unfold commandUpdateDigitalOut at hd
  split at hd
  · cases hd
  rename_i hmq
  rw [not_not] at hmq
  simp only at hd
  split at hd
  · simp only [Option.some.injEq] at hd
    subst hd
    refine ⟨h.max_eq, h.cycle, rfl, rfl, by simp [hmq], by simp [hmq], by simp [hmq], ?_⟩
    exact .timed max rfl rfl (by simp only [h.max_eq]) ⟨by omega, le_refl _⟩
      ⟨le_refl _, by simp only; omega⟩ (fun _ => rfl) (.atEnd rfl rfl)
  · rename_i hdefault
    simp only [Option.some.injEq] at hd
    subst hd
    refine ⟨h.max_eq, h.cycle, rfl, rfl, by simp [hmq], by simp [hmq], by simp [hmq], ?_⟩
    refine .idle rfl rfl hmq ?_
    have hne : (w.out.maxDuration != 0) = true := by
      rw [h.max_eq]; simp; omega
    rw [hne, Bool.and_true] at hdefault
    simpa [DigitalWorld.driven] using hdefault

theorem Watched.cycleTicks {cycleTicks : Int} {d : DigitalOut} (h : Watched max w)
    (hord : w.orderly (.setDigitalOutPwmCycle cycleTicks))
    (hd : commandSetDigitalOutPwmCycle cycleTicks w.out = some d) :
    Watched max { w with out := d } := by
  unfold commandSetDigitalOutPwmCycle at hd
  split at hd
  · cases hd
  cases hd
  refine ⟨h.max_eq, ⟨u32_nonneg _, hord⟩, h.pin, h.load, h.head, h.ordered, h.words, ?_⟩
  cases h.phase with
  | idle hcheck htimer hmq hdriven => exact .idle hcheck htimer hmq hdriven
  | waiting a hcheck htimer hmq hdriven hfunc hwake hend ha =>
    exact .waiting a hcheck htimer hmq hdriven hfunc hwake hend ha
  | timed e hcheck htimer hend he hnow hmq hpending =>
    refine .timed e hcheck htimer hend he hnow hmq ?_
    cases hpending with
    | atEnd hfunc hwake => exact .atEnd hfunc hwake
    | toggle x hfunc htog hwake hnowx hx hon hoff =>
      exact .toggle x hfunc htog hwake hnowx hx hon hoff

/-! ## Runs -/

theorem Watched.next {e : DigitalStep} (h : Watched max w) (hmax0 : 0 < max)
    (hmax1 : max < 2147483648) (hw : w.next e = some w') (hord : w.orderly e) :
    Watched max w' := by
  cases e with
  | tick => exact h.tick hw
  | event =>
    simp only [DigitalWorld.next] at hw
    split at hw
    case isFalse => cases hw
    rename_i hdue
    obtain ⟨r, hr, hw⟩ := Option.map_eq_some_iff.mp hw
    unfold digitalEvent at hr
    cases hfunc : w.out.func with
    | toggle =>
      simp only [hfunc, Option.some.injEq] at hr hw
      obtain ⟨hres, hwatched⟩ := h.toggleEvent hmax1 hdue hfunc
      rw [← hw, ← hr, hres]
      have htimer := (digitalToggleEvent_timerPending w.out).trans hdue.1
      rw [beq_self_eq_true, ← htimer]
      exact hwatched
    | load =>
      simp only [hfunc] at hr hw
      rw [← hw]
      exact h.loadEvent hmax0 hmax1 hdue hfunc hr
  | queueDigitalOut clock onTicks =>
    obtain ⟨d, hd, hw⟩ := Option.map_eq_some_iff.mp hw
    exact hw ▸ h.queue hmax1 hord hd
  | updateDigitalOut value =>
    obtain ⟨d, hd, hw⟩ := Option.map_eq_some_iff.mp hw
    exact hw ▸ h.update hmax0 hd
  | setDigitalOutPwmCycle cycleTicks =>
    obtain ⟨d, hd, hw⟩ := Option.map_eq_some_iff.mp hw
    exact hw ▸ h.cycleTicks hord hd

end Steps

theorem OrderlyRun.watched {now value defaultValue max : Int} {es : List DigitalStep}
    {w : DigitalWorld} (hrun : OrderlyRun (.config now value defaultValue max) es w)
    (hmax0 : 0 < max) (hmax1 : max < 2147483648)
    (hvalue : (value != 0) = (defaultValue != 0)) : Watched max w :=
  hrun.invariant (.config hmax0 hmax1 hvalue) fun _ _ _ h hs => h.next hmax0 hmax1 hs.1 hs.2

/-- The watchdog of a world: while the pin is driven, the end check is on, the
timer is pending, and the setting ends `e ≤ max` ticks after it was loaded; the
clock does not pass that end, a toggle runs before it, and at the end itself the
load event has to run, which shuts down when no new setting is queued. -/
def DigitalWorld.guarded (max : Int) (w : DigitalWorld) : Prop :=
  w.driven →
    w.out.flags.checkEnd = true ∧ w.out.timerPending = true ∧ w.loadClock = u32 w.loadNow ∧
      ∃ e, 0 ≤ e ∧ e ≤ max ∧ w.out.endTime = u32 (w.loadNow + e) ∧ w.now ≤ w.loadNow + e ∧
        (w.out.func = .toggle → w.due → w.now < w.loadNow + e) ∧
        (w.now = w.loadNow + e →
          w.out.func = .load ∧ w.next .tick = none ∧
            (w.out.mq = [] → w.next .event = none))

theorem Watched.guarded {max : Int} {w : DigitalWorld} (h : Watched max w) :
    w.guarded max := by
  intro hdriven
  cases h.phase with
  | idle _ _ _ hnot => exact absurd hdriven hnot
  | waiting _ _ _ _ hnot => exact absurd hdriven hnot
  | timed e hcheck htimer hend he hnow hmq hpending =>
    refine ⟨hcheck, htimer, h.load, e, he.1, he.2, hend, hnow.2, ?_, ?_⟩
    · intro hfunc hdue
      cases hpending with
      | atEnd hload => rw [hload] at hfunc; cases hfunc
      | toggle x _ _ hwake hnowx hx =>
        omega
    · intro hatend
      cases hpending with
      | toggle x _ _ _ hnowx hx => omega
      | atEnd hload hwake =>
        have hdue : w.due := by
          refine ⟨htimer, ?_⟩
          rw [hwake, hend, ← hatend]
          exact timerIsBefore_irrefl _
        refine ⟨hload, by simp [DigitalWorld.next, hdue], ?_⟩
        intro hempty
        simp [DigitalWorld.next, hdue, digitalEvent, hload, digitalLoadEvent, hempty]

/-- **Watchdog.**  An output with a maximum duration that starts at its default
level is guarded after every run of updates, cycle changes and timer events in
which the host keeps its order. -/
theorem digitalOut_guarded {now value defaultValue max : Int} {es : List DigitalStep}
    {w : DigitalWorld} (hmax0 : 0 < max) (hmax1 : max < 2147483648)
    (hvalue : (value != 0) = (defaultValue != 0))
    (hrun : OrderlyRun (.config now value defaultValue max) es w) : w.guarded max :=
  (hrun.watched hmax0 hmax1 hvalue).guarded

/-- A toggling setting that is followed by a second one, seen in the middle. -/
theorem digitalOut_guarded_toggling :
    ∃ w, OrderlyRun (.config 0 0 0 100)
        [.setDigitalOutPwmCycle 10, .queueDigitalOut 0 3, .queueDigitalOut 50 0, .event, .tick,
          .tick, .tick, .event] w ∧
      w.driven ∧ w.guarded 100 := by
  have hrun : OrderlyRun (.config 0 0 0 100)
      [.setDigitalOutPwmCycle 10, .queueDigitalOut 0 3, .queueDigitalOut 50 0, .event, .tick,
        .tick, .tick, .event] _ :=
    .cons ⟨rfl, by decide⟩ <| .cons ⟨rfl, by decide⟩ <| .cons ⟨rfl, by decide⟩ <|
      .cons ⟨rfl, trivial⟩ <| .cons ⟨rfl, trivial⟩ <| .cons ⟨rfl, trivial⟩ <|
        .cons ⟨rfl, trivial⟩ <| .cons ⟨rfl, trivial⟩ .nil
  exact ⟨_, hrun, by decide, digitalOut_guarded (by decide) (by decide) rfl hrun⟩

/-- Outside that order the watchdog fails.  With a cycle of `2^31` ticks or more
the first toggle of a setting can be taken for one before its end; the same
happens when a clock is queued that is long past.  In both runs the clock goes
beyond the end of a setting that is still driven. -/
theorem digitalOut_unguarded :
    (∃ w, DigitalRun (.config 0 0 0 100)
        [.setDigitalOutPwmCycle 0xc0000000, .queueDigitalOut 0 0x80000000, .queueDigitalOut 0 0,
          .event, .tick] w ∧ ¬ w.guarded 100) ∧
      ∃ w, DigitalRun (.config 0x40000000 0 0 100)
        [.setDigitalOutPwmCycle 0x40000001, .queueDigitalOut 0x40000000 0x40000000,
          .queueDigitalOut 0 0, .event, .tick] w ∧ ¬ w.guarded 100 := by
  refine ⟨⟨_, Run.iff_foldlM.mpr rfl, ?_⟩, ⟨_, Run.iff_foldlM.mpr rfl, ?_⟩⟩
  · intro h
    obtain ⟨-, -, -, e, he0, he1, hend, hnow, -⟩ := h (by decide)
    change (0 : Int) = u32 (0 + e) at hend
    change (1 : Int) ≤ 0 + e at hnow
    unfold u32 at hend
    omega
  · intro h
    obtain ⟨-, -, -, e, he0, he1, hend, -⟩ := h (by decide)
    change (0 : Int) = u32 (0x40000000 + e) at hend
    unfold u32 at hend
    omega

end FlsunT1.Mcu
