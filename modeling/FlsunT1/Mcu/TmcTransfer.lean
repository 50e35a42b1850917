/-
  Mcu/TmcTransfer.lean --- whole transfers of a TMC uart (klipper/src/tmcuart.c).

  A transfer is sent slot by slot, waits for a response with one sample for each slot, and stores
  the bits of the response.  Each phase has an invariant that says where the timer is in time.
-/
import FlsunT1.Mcu.TmcUart

set_option autoImplicit false

namespace FlsunT1.Mcu

open Library
open Klippy.TmcUart (bitAt)

/-! ## Sending -/

/-- A transfer that begins at the clock `start`, with the first toggle of the line. -/
structure Transfer where
  write : List UInt8
  readLen : ℕ
  start : ℕ
  latency : ℕ
  bitTime : UInt32
  singleWire : Bool
  rx : ℕ → Bool

namespace Transfer

/-- The number of bits to send. -/
def bits (x : Transfer) : ℕ := x.write.length * 8

/-- The clock at which slot `i` begins. -/
def slot (x : Transfer) (i : ℕ) : ℕ := x.start + i * x.bitTime.toNat

/-- The message may be sent, and its slots fit into the range of a clock. -/
structure Valid (x : Transfer) : Prop where
  write : 1 ≤ x.write.length ∧ x.write.length ≤ 10
  readLen : x.readLen ≤ 10
  first : bitAt x.write 0 = false
  bitTime : 80 * x.bitTime.toNat < 4294967296

/-- The line has carried the bits before `p`. -/
def Sent (x : Transfer) (w : UartWorld) (p : ℕ) : Prop :=
  ∀ i < p, ∀ clock, x.slot i ≤ clock → clock < x.slot (i + 1) →
    w.txAt clock = some (bitAt x.write i)

/-- What does not change while the message is sent. -/
structure Active (x : Transfer) (w : UartWorld) : Prop where
  pending : w.uart.pending = true
  waketime : w.uart.waketime = clock32 w.wake
  readCount : w.uart.readCount = x.readLen * 8
  cfgBitTime : w.uart.cfgBitTime = x.bitTime
  singleWire : w.uart.singleWire = x.singleWire
  report : w.uart.report = false

/-- Before the toggle for bit `p`. -/
structure Sending (x : Transfer) (p : ℕ) (w : UartWorld) : Prop extends Active x w where
  wake : w.wake + x.latency = x.slot p
  pos : w.uart.pos = p
  lt : p < x.bits
  writeCount : w.uart.writeCount = x.bits
  data : ∀ i < x.bits, w.uart.dataBit i = some (bitAt x.write i)
  tx : w.uart.tx = some (!bitAt x.write p)
  lineHigh : w.uart.lineHigh = !bitAt x.write p
  readSync : w.uart.readSync = false
  sent : x.Sent w p
  func : w.uart.func = .send ∧ w.uart.bitTime = x.bitTime ∨
    w.uart.func = .sendSync ∧ p < 5 ∧ (p ≠ 0 → w.uart.bitTime = UInt32.ofNat x.latency) ∧
      ∀ i < 5, bitAt x.write (i + 1) = !bitAt x.write i

/-- All bits are sent; `tmcuart_send_finish_event` is next. -/
structure AllSent (x : Transfer) (w : UartWorld) : Prop extends Active x w where
  wake : w.wake + x.latency = x.slot x.bits
  tx : w.uart.tx = some (bitAt x.write (x.bits - 1))
  readSync : w.uart.readSync = false
  sent : x.Sent w x.bits
  func : w.uart.func = .sendFinish
  bitTime : w.uart.bitTime = x.bitTime

variable {x : Transfer} {w : UartWorld} {p : ℕ}

theorem slot_add (x : Transfer) (i n : ℕ) : x.slot (i + n) = x.slot i + n * x.bitTime.toNat := by
  unfold slot
  ring

theorem slot_mono (x : Transfer) {i j : ℕ} (h : i ≤ j) : x.slot i ≤ x.slot j :=
  Nat.add_le_add_left (Nat.mul_le_mul_right _ h) _

theorem Sent.step (h : x.Sent w p) {w' : UartWorld} {q : ℕ} {v : Bool}
    (htx : w'.txAt = fun clock => if x.slot p ≤ clock then some v else w.txAt clock)
    (hv : ∀ i, p ≤ i → i < q → bitAt x.write i = v) : x.Sent w' q := by
  intro i hi clock hlow hhigh
  rw [htx]
  dsimp only
  rcases Nat.lt_or_ge i p with hlt | hge
  · have := x.slot_mono (show i + 1 ≤ p by omega)
    rw [if_neg (by omega)]
    exact h i hlt clock hlow hhigh
  · have := x.slot_mono hge
    rw [if_pos (by omega), hv i hge hi]

theorem Active.wake_next (h : Active x w) (hx : x.Valid) {p n : ℕ} (hn : n ≤ 80)
    (hwake : w.wake + x.latency = x.slot p) {waketime : UInt32}
    (hwaketime : waketime = w.uart.waketime + UInt32.ofNat (n * x.bitTime.toNat)) :
    firstClock w.wake waketime + x.latency = x.slot (p + n) ∧
      waketime = clock32 (firstClock w.wake waketime) := by
  have hlt : n * x.bitTime.toNat < 4294967296 :=
    (Nat.mul_le_mul_right _ hn).trans_lt hx.bitTime
  obtain ⟨hfirst, hclock⟩ := firstClock_add h.waketime hlt
  rw [hwaketime, hfirst, x.slot_add, hclock]
  exact ⟨by omega, rfl⟩

theorem Valid.bits_le (hx : x.Valid) : x.bits ≤ 80 := by
  have := hx.write.2
  unfold bits
  omega

/-- An event of the sender: it toggles the line, which then carries the bits from `p` to `q`. -/
theorem Sending.toggled (h : Sending x p w) (hx : x.Valid) {q pos : ℕ} {func : TmcUartFunc}
    {bitTime waketime : UInt32}
    (hcall : w.uart.callback (x.rx (w.wake + x.latency)) (clock32 (w.wake + x.latency)) = some
      ({ w.uart.toggle with func := func, pos := pos, bitTime := bitTime, waketime := waketime },
        .reschedule))
    (hq : p < q ∧ q ≤ x.bits)
    (hsame : ∀ i, p ≤ i → i < q → bitAt x.write i = bitAt x.write p)
    (hwaketime : waketime = w.uart.waketime + UInt32.ofNat ((q - p) * x.bitTime.toNat)) :
    ∃ w', w.timer x.latency x.rx = some w' ∧
      w'.uart = { w.uart.toggle with
        func := func, pos := pos, bitTime := bitTime, waketime := waketime, pending := true } ∧
      Active x w' ∧ w'.wake + x.latency = x.slot q ∧ w'.uart.tx = some (bitAt x.write p) ∧
      x.Sent w' q := by
  have hbits := hx.bits_le
  have hlevel : w.uart.toggle.tx = some (bitAt x.write p) := by
    unfold TmcUart.toggle
    dsimp only
    rw [h.tx, Option.map_some, Bool.not_not]
  obtain ⟨hwake, hclock⟩ := h.toActive.wake_next hx (n := q - p) (by omega) h.wake hwaketime
  rw [show p + (q - p) = q by omega] at hwake
  refine ⟨_, UartWorld.timer_eq hcall, rfl,
    ⟨rfl, hclock, h.readCount, h.cfgBitTime, h.singleWire, h.report⟩, hwake, hlevel, ?_⟩
  apply h.sent.step _ hsame
  dsimp only
  rw [h.wake, hlevel]

/-- `tmcuart_send_event` brings the line to bit `p`. -/
theorem Sending.timer_send (h : Sending x p w) (hx : x.Valid) (hfunc : w.uart.func = .send)
    (hbitTime : w.uart.bitTime = x.bitTime) :
    ∃ w', w.timer x.latency x.rx = some w' ∧ ((∃ q > p, Sending x q w') ∨ AllSent x w') := by
  have hpos := h.pos
  have hlt := h.lt
  obtain ⟨q, hevent, hrange, hdiffers, hsame⟩ :=
    TmcUart.sendEvent_spec h.data h.writeCount (by rw [hpos]; exact hlt)
  have hcall : w.uart.callback (x.rx (w.wake + x.latency)) (clock32 (w.wake + x.latency)) =
      w.uart.sendEvent := by
    unfold TmcUart.callback
    rw [hfunc]
  rw [hpos, hbitTime] at hevent
  rw [hpos] at hrange hsame
  rw [hevent] at hcall
  have hrun : ∀ i, p ≤ i → i < q → bitAt x.write i = bitAt x.write p := by
    intro i hi hiq
    rcases Nat.eq_or_lt_of_le hi with rfl | hlater
    · rfl
    · rw [hsame i hlater hiq, h.lineHigh, Bool.not_not]
  by_cases hmore : q < x.write.length * 8
  · rw [if_pos hmore] at hcall
    obtain ⟨w', htimer, huart, hactive, hwake, htx, hsent⟩ := h.toggled hx hcall hrange hrun rfl
    have hbit : bitAt x.write p = !bitAt x.write q := by
      rw [hdiffers hmore, h.lineHigh, Bool.not_not]
    refine ⟨w', htimer,
      .inl ⟨q, hrange.1, hactive, hwake, ?_, hmore, ?_, ?_, ?_, ?_, ?_, hsent, ?_⟩⟩
    · rw [huart]
    · rw [huart]
      exact h.writeCount
    · rw [huart]
      exact h.data
    · rw [htx, hbit]
    · rw [huart]
      show (!w.uart.lineHigh) = _
      rw [h.lineHigh, Bool.not_not, hbit]
    · rw [huart]
      exact h.readSync
    · rw [huart]
      exact .inl ⟨hfunc, hbitTime⟩
  · rw [if_neg hmore] at hcall
    have hlast : q = x.bits := by
      have := hrange.2
      unfold bits
      omega
    subst hlast
    obtain ⟨w', htimer, huart, hactive, hwake, htx, hsent⟩ := h.toggled hx hcall hrange hrun rfl
    refine ⟨w', htimer, .inr ⟨hactive, hwake, ?_, ?_, hsent, ?_, ?_⟩⟩
    · rw [htx, hrun (x.bits - 1) (by omega) (by omega)]
    · rw [huart]
      exact h.readSync
    · rw [huart]
    · rw [huart]
      exact hbitTime

/-- `tmcuart_send_sync_event` at the first bits of the nibble: the scheduling offset is recorded
and the slots keep their length. -/
theorem sendSyncEvent_first {t : TmcUart} (cur : UInt32) (hpos : t.pos < 4) :
    ∃ bitTime, t.sendSyncEvent cur = ({ t.toggle with
        pos := t.pos + 1, bitTime := bitTime, waketime := t.waketime + t.cfgBitTime },
        .reschedule) ∧
      bitTime = if t.pos = 0 then cur - t.waketime else t.bitTime := by
  unfold TmcUart.sendSyncEvent
  dsimp only
  by_cases hzero : t.pos = 0
  · rw [if_pos (show t.toggle.pos + 1 = 1 from congrArg (· + 1) hzero)]
    exact ⟨_, rfl, (if_pos hzero).symm⟩
  · have hone : ¬ t.toggle.pos + 1 = 1 := fun h => hzero (Nat.succ.inj h)
    have hfive : ¬ 5 ≤ t.toggle.pos + 1 := by
      have : t.toggle.pos = t.pos := rfl
      omega
    rw [if_neg hone, if_neg hfive]
    exact ⟨_, rfl, (if_neg hzero).symm⟩

/-- At the last bit of the nibble no drift is found, where the latency is constant. -/
theorem sendSyncEvent_last {t : TmcUart} {cur : UInt32} (hpos : t.pos = 4)
    (hoffset : cur - t.waketime = t.bitTime) :
    t.sendSyncEvent cur = ({ t.toggle with
      pos := t.pos + 1
      bitTime := t.cfgBitTime
      func := .send
      waketime := t.waketime + t.cfgBitTime }, .reschedule) := by
  have hdiff : (cur - t.toggle.waketime - t.toggle.bitTime).toInt32 = 0 := by
    show (cur - t.waketime - t.bitTime).toInt32 = 0
    rw [hoffset, UInt32.sub_self]
    rfl
  have hround : (TmcUart.divRoundClosest 0 4).toUInt32 = 0 := by decide
  have htoggle : t.toggle.pos = 4 := hpos
  unfold TmcUart.sendSyncEvent
  dsimp only
  rw [hdiff, hround, htoggle, if_neg (by omega), if_pos (le_refl _)]
  have hsum : (0 : Int32).toUInt32 + (t.toggle.cfgBitTime + 0) = t.cfgBitTime := by
    rw [UInt32.add_zero]
    exact UInt32.zero_add _
  rw [hsum, UInt32.add_zero, hpos]
  rfl

/-- `tmcuart_send_sync_event` brings the line to bit `p`. -/
theorem Sending.timer_sendSync (h : Sending x p w) (hx : x.Valid)
    (hfunc : w.uart.func = .sendSync) (hp : p < 5)
    (hoffset : p ≠ 0 → w.uart.bitTime = UInt32.ofNat x.latency)
    (hnibble : ∀ i < 5, bitAt x.write (i + 1) = !bitAt x.write i) :
    ∃ w', w.timer x.latency x.rx = some w' ∧ Sending x (p + 1) w' := by
  have hbits : 8 ≤ x.bits := by
    have := hx.write.1
    unfold bits
    omega
  have hpos := h.pos
  have hcfg := h.cfgBitTime
  have hcall : w.uart.callback (x.rx (w.wake + x.latency)) (clock32 (w.wake + x.latency)) =
      some (w.uart.sendSyncEvent (clock32 (w.wake + x.latency))) := by
    unfold TmcUart.callback
    rw [hfunc]
  have hlate : clock32 (w.wake + x.latency) - w.uart.waketime = UInt32.ofNat x.latency := by
    rw [h.waketime, clock32_add_sub]
  have hrun : ∀ i, p ≤ i → i < p + 1 → bitAt x.write i = bitAt x.write p := by
    intro i hi hiq
    rw [show i = p by omega]
  have hwaketime : w.uart.waketime + w.uart.cfgBitTime =
      w.uart.waketime + UInt32.ofNat ((p + 1 - p) * x.bitTime.toNat) := by
    rw [Nat.add_sub_cancel_left, Nat.one_mul, UInt32.ofNat_toNat, hcfg]
  -- what the two branches share
  have hnext {bitTime : UInt32} {func : TmcUartFunc}
      (hcall : w.uart.callback (x.rx (w.wake + x.latency)) (clock32 (w.wake + x.latency)) = some
        ({ w.uart.toggle with
          func := func
          pos := w.uart.pos + 1
          bitTime := bitTime
          waketime := w.uart.waketime + w.uart.cfgBitTime }, .reschedule))
      (hlater : func = .send ∧ bitTime = x.bitTime ∨
        func = .sendSync ∧ p + 1 < 5 ∧ bitTime = UInt32.ofNat x.latency) :
      ∃ w', w.timer x.latency x.rx = some w' ∧ Sending x (p + 1) w' := by
    obtain ⟨w', htimer, huart, hactive, hwake, htx, hsent⟩ :=
      h.toggled hx hcall (q := p + 1) (by omega) hrun hwaketime
    refine ⟨w', htimer, hactive, hwake, ?_, by omega, ?_, ?_, ?_, ?_, ?_, hsent, ?_⟩
    · rw [huart]
      exact congrArg (· + 1) hpos
    · rw [huart]
      exact h.writeCount
    · rw [huart]
      exact h.data
    · rw [htx, hnibble p hp, Bool.not_not]
    · rw [huart]
      show (!w.uart.lineHigh) = _
      rw [h.lineHigh, hnibble p hp]
    · rw [huart]
      exact h.readSync
    · rw [huart]
      rcases hlater with hsend | ⟨hsync, hlt, htime⟩
      · exact .inl hsend
      · exact .inr ⟨hsync, hlt, fun _ => htime, hnibble⟩
  rcases Nat.lt_or_ge p 4 with hfirst | hlast
  · obtain ⟨bitTime, hevent, htime⟩ :=
      sendSyncEvent_first (t := w.uart) (clock32 (w.wake + x.latency)) (by omega)
    rw [hevent] at hcall
    refine hnext hcall (.inr ⟨hfunc, by omega, ?_⟩)
    rw [htime, hlate, hpos]
    split
    case isTrue => rfl
    case isFalse hzero => exact hoffset hzero
  · have hfour : w.uart.pos = 4 := by omega
    rw [sendSyncEvent_last hfour (by rw [hlate, hoffset (by omega)])] at hcall
    exact hnext hcall (.inl ⟨rfl, hcfg⟩)

theorem Sending.timer (h : Sending x p w) (hx : x.Valid) :
    ∃ w', w.timer x.latency x.rx = some w' ∧ ((∃ q > p, Sending x q w') ∨ AllSent x w') := by
  rcases h.func with ⟨hfunc, hbitTime⟩ | ⟨hfunc, hp, hoffset, hnibble⟩
  · exact h.timer_send hx hfunc hbitTime
  · obtain ⟨w', htimer, hsending⟩ := h.timer_sendSync hx hfunc hp hoffset hnibble
    exact ⟨w', htimer, .inl ⟨p + 1, Nat.lt_succ_self p, hsending⟩⟩

/-! ## Receiving -/

/-- The clock of sample `j` of the receiving pin. -/
def sample (x : Transfer) (j : ℕ) : ℕ := x.slot (x.bits + 4 + j)

/-- The line after the last slot, until the transfer is over. -/
def rest (x : Transfer) : Option Bool :=
  if x.singleWire then none else some (bitAt x.write (x.bits - 1))

/-- At sample `j` the receiving pin is low, after it has been seen high. -/
def Fell (x : Transfer) (j : ℕ) : Prop :=
  x.rx (x.sample j) = false ∧ ∃ i < j, x.rx (x.sample i) = true

/-- Sample `j` is the first one of a response. -/
def StartBit (x : Transfer) (j : ℕ) : Prop := x.Fell j ∧ ∀ i < j, ¬ x.Fell i

/-- The clock at which the transfer is over, and the response. -/
inductive Outcome (x : Transfer) : ℕ → List UInt8 → Prop
  /-- There is nothing to read. -/
  | sendOnly (hread : x.readLen = 0) : Outcome x (x.slot x.bits) []
  /-- A response of `readLen` bytes is read. -/
  | received {j : ℕ} {response : List UInt8} (hread : x.readLen ≠ 0) (hj : j ≤ 64)
      (hstart : x.StartBit j) (hlength : response.length = x.readLen)
      (hbits : ∀ i < x.readLen * 8, bitAt response i = x.rx (x.sample (j + i))) :
      Outcome x (x.sample (j + x.readLen * 8 - 1)) response
  /-- No response begins. -/
  | timeout (hread : x.readLen ≠ 0) (hnone : ∀ j ≤ 64, ¬ x.Fell j) : Outcome x (x.sample 64) []

/-- The transfer is over since `finish`. -/
structure Over (x : Transfer) (finish : ℕ) (w : UartWorld) : Prop where
  idle : w.uart.Idle
  cfgBitTime : w.uart.cfgBitTime = x.bitTime
  singleWire : w.uart.singleWire = x.singleWire
  report : w.uart.report = true
  sent : x.Sent w x.bits
  le : x.slot x.bits ≤ finish
  rest : ∀ clock, x.slot x.bits ≤ clock → clock < finish → w.txAt clock = x.rest
  high : ∀ clock, finish ≤ clock → w.txAt clock = some true

/-- Sample `j` of the receiving pin is next. -/
structure Receiving (x : Transfer) (j : ℕ) (w : UartWorld) : Prop extends Active x w where
  wake : w.wake + x.latency = x.sample j
  bitTime : w.uart.bitTime = x.bitTime
  tx : w.uart.tx = x.rest
  sent : x.Sent w x.bits
  rest : ∀ clock, x.slot x.bits ≤ clock → w.txAt clock = x.rest

/-- No response has begun before sample `j`. -/
structure Waiting (x : Transfer) (j : ℕ) (w : UartWorld) : Prop extends Receiving x j w where
  func : w.uart.func = .readSync
  pos : w.uart.pos = j
  le : j ≤ 64
  readSync : w.uart.readSync = true ↔ ∃ i < j, x.rx (x.sample i) = true
  none : ∀ i < j, ¬ x.Fell i

/-- A response has begun at sample `j`, and `m` bits of it are stored. -/
structure Reading (x : Transfer) (j m : ℕ) (w : UartWorld) : Prop
    extends Receiving x (j + m) w where
  func : w.uart.func = .read
  pos : w.uart.pos = m
  lt : m < x.readLen * 8
  data : ∀ i < m, w.uart.dataBit i = some (x.rx (x.sample (j + i)))

theorem slot_le_sample (x : Transfer) (j : ℕ) : x.slot x.bits ≤ x.sample j :=
  x.slot_mono (by omega)

/-- An event that ends the transfer at the clock `finish`. -/
theorem over_finalize (h : Active x w) {finish : ℕ} {t : TmcUart}
    (hfinish : w.wake + x.latency = finish) (hle : x.slot x.bits ≤ finish)
    (hsent : x.Sent w x.bits)
    (hrest : ∀ clock, x.slot x.bits ≤ clock → clock < finish → w.txAt clock = x.rest)
    (hcall : w.uart.callback (x.rx (w.wake + x.latency)) (clock32 (w.wake + x.latency)) =
      some t.finalize)
    (hcfg : t.cfgBitTime = w.uart.cfgBitTime) (hsingle : t.singleWire = w.uart.singleWire) :
    ∃ w', w.timer x.latency x.rx = some w' ∧ Over x finish w' ∧ w'.uart.data = t.data ∧
      w'.uart.readCount = t.readCount := by
  subst hfinish
  refine ⟨_, UartWorld.timer_eq hcall, ⟨⟨rfl, rfl, rfl, rfl⟩, hcfg.trans h.cfgBitTime,
    hsingle.trans h.singleWire, rfl, ?_, hle, ?_, ?_⟩, rfl, rfl⟩
  · intro i hi clock hlow hhigh
    have := x.slot_mono (show i + 1 ≤ x.bits from hi)
    dsimp only
    rw [if_neg (by omega)]
    exact hsent i hi clock hlow hhigh
  · intro clock hlow hlt
    dsimp only
    rw [if_neg (Nat.not_le.mpr hlt)]
    exact hrest clock hlow hlt
  · intro clock hge
    exact if_pos hge

/-- A sample after which the transfer goes on. -/
theorem Receiving.next {j : ℕ} (h : Receiving x j w) (hx : x.Valid) {func : TmcUartFunc}
    {readSync : Bool} {pos : ℕ} {data : Vector UInt8 10}
    (hcall : w.uart.callback (x.rx (w.wake + x.latency)) (clock32 (w.wake + x.latency)) = some
      ({ w.uart with
        func := func
        readSync := readSync
        pos := pos
        data := data
        waketime := w.uart.waketime + w.uart.bitTime }, .reschedule)) :
    ∃ w', w.timer x.latency x.rx = some w' ∧ Receiving x (j + 1) w' ∧ w'.uart.func = func ∧
      w'.uart.readSync = readSync ∧ w'.uart.pos = pos ∧ w'.uart.data = data := by
  have hticks : w.uart.waketime + w.uart.bitTime =
      w.uart.waketime + UInt32.ofNat (1 * x.bitTime.toNat) := by
    rw [Nat.one_mul, UInt32.ofNat_toNat, h.bitTime]
  obtain ⟨hwake, hclock⟩ := h.toActive.wake_next hx (by omega) h.wake hticks
  refine ⟨_, UartWorld.timer_eq hcall, ⟨⟨rfl, hclock, h.readCount, h.cfgBitTime, h.singleWire,
    h.report⟩, hwake, h.bitTime, h.tx, ?_, ?_⟩, rfl, rfl, rfl, rfl⟩
  · intro i hi clock hlow hhigh
    have := x.slot_mono (show i + 1 ≤ x.bits from hi)
    have hsample := x.slot_le_sample j
    have hwake := h.wake
    dsimp only
    rw [if_neg (by omega)]
    exact h.sent i hi clock hlow hhigh
  · intro clock hlow
    dsimp only
    split
    case isTrue => exact h.tx
    case isFalse => exact h.rest clock hlow

theorem bitAt_take {t : TmcUart} {n i : ℕ} (hn : n ≤ 10) (hi : i < n * 8) :
    some (bitAt (t.data.toList.take n) i) = t.dataBit i := by
  have hbyte : i / 8 < n := by omega
  have hlt : i / 8 < 10 := by omega
  unfold TmcUart.dataBit bitAt
  rw [Vector.getElem?_eq_getElem hlt, Option.map_some, List.getD_eq_getElem?_getD,
    List.getElem?_take_of_lt hbyte, Vector.getElem?_toList, Vector.getElem?_eq_getElem hlt,
    Option.getD_some]

/-- A sample of a response that began at sample `j`: one more bit is stored. -/
theorem Receiving.read {j m : ℕ} (h : Receiving x (j + m) w) (hx : x.Valid)
    (hj : j ≤ 64) (hstart : x.StartBit j) (hm : m < x.readLen * 8)
    (hdata : ∀ i < m, w.uart.dataBit i = some (x.rx (x.sample (j + i))))
    (hcall : w.uart.callback (x.rx (w.wake + x.latency)) (clock32 (w.wake + x.latency)) =
      ({ w.uart with pos := m, func := .read } : TmcUart).readEvent (x.rx (x.sample (j + m)))) :
    ∃ w', w.timer x.latency x.rx = some w' ∧ (Reading x j (m + 1) w' ∨
      ∃ finish, Over x finish w' ∧ Outcome x finish w'.uart.response) := by
  have hread := hx.readLen
  obtain ⟨data, hbits, hevent⟩ := TmcUart.readEvent_spec
    { w.uart with pos := m, func := .read } (x.rx (x.sample (j + m))) (show m < 80 by omega)
  rw [hevent] at hcall
  have hstored : ∀ i < m + 1,
      ({ w.uart with data := data } : TmcUart).dataBit i = some (x.rx (x.sample (j + i))) := by
    intro i hi
    have hbit := hbits i (by omega)
    rcases Nat.lt_succ_iff_lt_or_eq.mp hi with hlt | rfl
    · rw [if_neg (Nat.ne_of_lt hlt)] at hbit
      exact hbit.trans (hdata i hlt)
    · rw [if_pos rfl] at hbit
      exact hbit
  by_cases hlast : w.uart.readCount ≤ m + 1
  · rw [if_pos hlast] at hcall
    obtain ⟨w', htimer, hover, hw'data, hw'count⟩ := over_finalize h.toActive h.wake
      (x.slot_le_sample _) h.sent (fun clock hlow _ => h.rest clock hlow) hcall rfl rfl
    have hcount := h.readCount
    have hfinish : j + m = j + x.readLen * 8 - 1 := by omega
    rw [hfinish] at hover
    refine ⟨w', htimer, .inr ⟨_, hover, .received (by omega) hj hstart ?_ ?_⟩⟩
    · unfold TmcUart.response
      rw [hw'count, List.length_take, Vector.length_toList]
      show min (w.uart.readCount / 8) 10 = _
      rw [hcount]
      omega
    · intro i hi
      have hlen : w'.uart.readCount / 8 = x.readLen := by
        rw [hw'count]
        show w.uart.readCount / 8 = _
        rw [hcount, Nat.mul_div_cancel _ (by decide)]
      have hbit := bitAt_take (t := w'.uart) hread hi
      unfold TmcUart.response
      rw [hlen]
      apply Option.some.inj
      rw [hbit, ← hstored i (by omega)]
      unfold TmcUart.dataBit
      rw [hw'data]
  · rw [if_neg hlast] at hcall
    obtain ⟨w', htimer, hreceiving, hfunc, -, hpos, hw'data⟩ := h.next hx hcall
    have hcount := h.readCount
    refine ⟨w', htimer, .inl ⟨hreceiving, hfunc, hpos, by omega, fun i hi => ?_⟩⟩
    rw [← hstored i hi]
    unfold TmcUart.dataBit
    rw [hw'data]

theorem Reading.timer {j m : ℕ} (h : Reading x j m w) (hx : x.Valid) (hj : j ≤ 64)
    (hstart : x.StartBit j) :
    ∃ w', w.timer x.latency x.rx = some w' ∧ (Reading x j (m + 1) w' ∨
      ∃ finish, Over x finish w' ∧ Outcome x finish w'.uart.response) := by
  have hsame : ({ w.uart with pos := m, func := .read } : TmcUart) = w.uart := by
    rw [← h.pos, ← h.func]
  apply h.toReceiving.read hx hj hstart h.lt h.data
  unfold TmcUart.callback
  rw [hsame, h.func, h.wake]

/-- A sample of `tmcuart_read_sync_event`. -/
theorem Waiting.timer {j : ℕ} (h : Waiting x j w) (hx : x.Valid) (hread : x.readLen ≠ 0) :
    ∃ w', w.timer x.latency x.rx = some w' ∧
      (Waiting x (j + 1) w' ∨ (x.StartBit j ∧ Reading x j 1 w') ∨
        ∃ finish, Over x finish w' ∧ Outcome x finish w'.uart.response) := by
  have hcall : w.uart.callback (x.rx (w.wake + x.latency)) (clock32 (w.wake + x.latency)) =
      w.uart.readSyncEvent (x.rx (x.sample j)) := by
    unfold TmcUart.callback
    rw [h.func, h.wake]
  unfold TmcUart.readSyncEvent at hcall
  have hfell : x.rx (x.sample j) = false ∧ w.uart.readSync = true ↔ x.Fell j :=
    and_congr_right' h.readSync
  by_cases hsync : x.rx (x.sample j) = false ∧ w.uart.readSync = true
  · rw [if_pos hsync] at hcall
    have hstart : x.StartBit j := ⟨hfell.mp hsync, h.none⟩
    obtain ⟨w', htimer, hreading | hover⟩ := h.toReceiving.read (m := 0) hx h.le hstart (by omega)
      (fun _ hi => absurd hi (Nat.not_lt_zero _)) hcall
    · exact ⟨w', htimer, .inr (.inl ⟨hstart, hreading⟩)⟩
    · exact ⟨w', htimer, .inr (.inr hover)⟩
  · rw [if_neg hsync] at hcall
    have hnone : ∀ i < j + 1, ¬ x.Fell i := by
      intro i hi
      rcases Nat.lt_succ_iff_lt_or_eq.mp hi with hlt | rfl
      · exact h.none i hlt
      · exact fun hfall => hsync (hfell.mpr hfall)
    have hpos := h.pos
    by_cases htimeout : 64 ≤ w.uart.pos
    · rw [if_pos htimeout] at hcall
      obtain ⟨w', htimer, hover, -, hcount⟩ := over_finalize h.toActive h.wake
        (x.slot_le_sample _) h.sent (fun clock hlow _ => h.rest clock hlow) hcall rfl rfl
      have hle := h.le
      have hlast : j = 64 := by omega
      subst hlast
      refine ⟨w', htimer, .inr (.inr ⟨_, hover, ?_⟩)⟩
      rw [TmcUart.response_nil hcount]
      exact .timeout hread fun i hi => hnone i (Nat.lt_succ_of_le hi)
    · rw [if_neg htimeout] at hcall
      obtain ⟨w', htimer, hreceiving, hfunc, hreadSync, hw'pos, -⟩ := h.toReceiving.next hx hcall
      refine ⟨w', htimer, .inl ⟨hreceiving, hfunc.trans h.func, ?_, by omega, ?_, hnone⟩⟩
      · rw [hw'pos, hpos]
      · rw [hreadSync, Bool.or_eq_true, h.readSync]
        constructor
        · rintro (⟨i, hi, hhigh⟩ | hhigh)
          · exact ⟨i, Nat.lt_succ_of_lt hi, hhigh⟩
          · exact ⟨j, Nat.lt_succ_self j, hhigh⟩
        · rintro ⟨i, hi, hhigh⟩
          rcases Nat.lt_succ_iff_lt_or_eq.mp hi with hlt | rfl
          · exact .inl ⟨i, hlt, hhigh⟩
          · exact .inr hhigh

/-- `tmcuart_send_finish_event` -/
theorem AllSent.timer (h : AllSent x w) (hx : x.Valid) :
    ∃ w', w.timer x.latency x.rx = some w' ∧ ((x.readLen ≠ 0 ∧ Waiting x 0 w') ∨
      ∃ finish, Over x finish w' ∧ Outcome x finish w'.uart.response) := by
  have hcall : w.uart.callback (x.rx (w.wake + x.latency)) (clock32 (w.wake + x.latency)) =
      some w.uart.sendFinishEvent := by
    unfold TmcUart.callback
    rw [h.func]
  have hcount := h.readCount
  unfold TmcUart.sendFinishEvent at hcall
  by_cases hread : w.uart.readCount = 0
  · rw [if_pos hread] at hcall
    obtain ⟨w', htimer, hover, -, hw'count⟩ := over_finalize h.toActive h.wake (le_refl _) h.sent
      (fun clock hlow hlt => absurd hlt (Nat.not_lt.mpr hlow)) hcall rfl rfl
    refine ⟨w', htimer, .inr ⟨_, hover, ?_⟩⟩
    rw [TmcUart.response_nil (hw'count.trans hread)]
    exact .sendOnly (by omega)
  · rw [if_neg hread] at hcall
    have hticks : w.uart.waketime + w.uart.bitTime * 4 =
        w.uart.waketime + UInt32.ofNat (4 * x.bitTime.toNat) := by
      rw [UInt32.ofNat_mul, UInt32.ofNat_toNat, h.bitTime, UInt32.mul_comm]
      rfl
    obtain ⟨hwake, hclock⟩ := h.toActive.wake_next hx (by omega) h.wake hticks
    have htx : (if w.uart.singleWire then none else w.uart.tx) = x.rest := by
      unfold rest
      rw [h.singleWire, h.tx]
    refine ⟨_, UartWorld.timer_eq hcall, .inl ⟨by omega, ⟨⟨rfl, hclock, hcount, h.cfgBitTime,
      h.singleWire, h.report⟩, hwake, h.bitTime, htx, ?_, ?_⟩, rfl, rfl, Nat.zero_le _, ?_, ?_⟩⟩
    · intro i hi clock hlow hhigh
      have := x.slot_mono (show i + 1 ≤ x.bits from hi)
      have hwake := h.wake
      dsimp only
      rw [if_neg (by omega)]
      exact h.sent i hi clock hlow hhigh
    · intro clock hlow
      dsimp only
      rw [h.wake, if_pos hlow]
      exact htx
    · constructor
      · intro hsync
        exact absurd (hsync.symm.trans h.readSync) (by decide)
      · rintro ⟨i, hi, -⟩
        exact absurd hi (Nat.not_lt_zero i)
    · exact fun i hi => absurd hi (Nat.not_lt_zero i)

/-! ## Whole transfers -/

/-- The timer events lead to the end of the transfer. -/
def Ends (x : Transfer) (w : UartWorld) : Prop :=
  ∃ w' finish, w.Leads x.latency x.rx w' ∧ Over x finish w' ∧ Outcome x finish w'.uart.response

theorem Over.ends {finish : ℕ} (h : Over x finish w) (hout : Outcome x finish w.uart.response) :
    Ends x w :=
  ⟨w, finish, .refl w, h, hout⟩

theorem Ends.head {v : UartWorld} (h : Ends x v) (hactive : Active x w)
    (htimer : w.timer x.latency x.rx = some v) : Ends x w := by
  obtain ⟨w', finish, hleads, hover⟩ := h
  exact ⟨w', finish, hleads.head hactive.pending hactive.report htimer, hover⟩

theorem Reading.ends {j m : ℕ} (h : Reading x j m w) (hx : x.Valid) (hj : j ≤ 64)
    (hstart : x.StartBit j) : Ends x w := by
  induction hleft : x.readLen * 8 - m generalizing m w with
  | zero => exact absurd h.lt (by omega)
  | succ left ih =>
    obtain ⟨w', htimer, hreading | ⟨finish, hover, hout⟩⟩ := h.timer hx hj hstart
    · exact (ih hreading (by omega)).head h.toActive htimer
    · exact (hover.ends hout).head h.toActive htimer

theorem Waiting.ends {j : ℕ} (h : Waiting x j w) (hx : x.Valid) (hread : x.readLen ≠ 0) :
    Ends x w := by
  induction hleft : 65 - j generalizing j w with
  | zero => exact absurd h.le (by omega)
  | succ left ih =>
    obtain ⟨w', htimer, hwaiting | ⟨hstart, hreading⟩ | ⟨finish, hover, hout⟩⟩ := h.timer hx hread
    · exact (ih hwaiting (by omega)).head h.toActive htimer
    · exact (hreading.ends hx h.le hstart).head h.toActive htimer
    · exact (hover.ends hout).head h.toActive htimer

theorem AllSent.ends (h : AllSent x w) (hx : x.Valid) : Ends x w := by
  obtain ⟨w', htimer, ⟨hread, hwaiting⟩ | ⟨finish, hover, hout⟩⟩ := h.timer hx
  · exact (hwaiting.ends hx hread).head h.toActive htimer
  · exact (hover.ends hout).head h.toActive htimer

theorem Sending.ends (h : Sending x p w) (hx : x.Valid) : Ends x w := by
  induction hleft : x.bits - p using Nat.strong_induction_on generalizing p w with
  | _ left ih =>
    have hlt := h.lt
    obtain ⟨w', htimer, ⟨q, hq, hsending⟩ | hsent⟩ := h.timer hx
    · exact (ih _ (by have := hsending.lt; omega) hsending rfl).head h.toActive htimer
    · exact (hsent.ends hx).head h.toActive htimer

theorem bitAt_nibble {b : UInt8} (h : b &&& 0x3f = 0x2a) {i : ℕ} (hi : i < 5) :
    b.toNat.testBit (i + 1) = !b.toNat.testBit i := by
  have hall : ∀ n < 256, UInt8.ofNat n &&& 0x3f = 0x2a → ∀ i < 5,
      (UInt8.ofNat n).toNat.testBit (i + 1) = !(UInt8.ofNat n).toNat.testBit i := by
    decide +kernel
  have hb := hall b.toNat b.toNat_lt
  rw [UInt8.ofNat_toNat] at hb
  exact hb h i hi

/-- A `tmcuart_send` while the uart is idle. -/
theorem sending_send (hx : x.Valid) {t : TmcUart} (hidle : t.Idle) {now : ℕ} {delay : UInt32}
    (hstart : x.start = now + delay.toNat + x.latency) (hbit : t.cfgBitTime = x.bitTime)
    (hwire : t.singleWire = x.singleWire) :
    ∃ w, UartWorld.send x.write x.readLen now delay t = some w ∧ Sending x 0 w := by
  have hlen := hx.write
  have hread := hx.readLen
  have hclock : clock32 now + delay = clock32 (now + delay.toNat) := clock32_add now delay
  have hwake : firstClock now (clock32 now + delay) = now + delay.toNat := by
    rw [hclock]
    exact firstClock_clock32 (by omega) (by have := delay.toNat_lt; omega)
  have hsize : ¬ (10 < x.write.length ∨ 10 < x.readLen) := by omega
  have hbits : 0 < x.bits := by
    unfold bits
    omega
  have hfirst := hx.first
  have hdata : ∀ i < x.bits,
      ((Vector.ofFn fun i : Fin 10 => x.write.getD i (t.data.get i))[i / 8]?).map
        (fun b => b.toNat.testBit (i % 8)) = some (bitAt x.write i) := by
    intro i hi
    unfold bits at hi
    have hbyte : i / 8 < x.write.length := by omega
    have hlt : i / 8 < 10 := by omega
    unfold bitAt
    rw [Vector.getElem?_eq_getElem hlt, Vector.getElem_ofFn, Option.map_some,
      List.getD_eq_getElem _ _ hbyte, List.getD_eq_getElem _ _ hbyte]
  have htx : some true = some (!bitAt x.write 0) := by rw [hfirst, Bool.not_false]
  have hhigh : true = !bitAt x.write 0 := by rw [hfirst, Bool.not_false]
  have hslot : firstClock now (clock32 now + delay) + x.latency = x.slot 0 := by
    rw [hwake, ← hstart]
    unfold slot
    rw [Nat.zero_mul, Nat.add_zero]
  have hclock' : clock32 now + delay = clock32 (firstClock now (clock32 now + delay)) := by
    rw [hwake, hclock]
  unfold UartWorld.send TmcUart.tmcuartSend
  rw [if_neg (by rw [hidle.active]; exact Bool.false_ne_true), if_neg hsize]
  dsimp only
  by_cases hsync : 1 ≤ x.write.length ∧
      (Vector.ofFn fun i : Fin 10 => x.write.getD i (t.data.get i)).get 0 &&& 0x3f = 0x2a
  · rw [if_pos hsync]
    refine ⟨_, rfl, ⟨rfl, hclock', rfl, hbit, hwire, rfl⟩, hslot, rfl, hbits, rfl, hdata,
      hidle.tx.trans htx, hidle.lineHigh.trans hhigh, rfl, ?_,
      .inr ⟨rfl, by omega, fun h => absurd rfl h, fun i hi => ?_⟩⟩
    · exact fun i hi => absurd hi (Nat.not_lt_zero i)
    · have hbyte (i : ℕ) (hi : i < 8) : bitAt x.write i = Nat.testBit
          ((Vector.ofFn fun i : Fin 10 => x.write.getD i (t.data.get i)).get 0).toNat i := by
        have := hdata i (by unfold bits; omega)
        rw [Nat.div_eq_of_lt hi, Nat.mod_eq_of_lt hi] at this
        exact (Option.some.inj this).symm
      rw [hbyte (i + 1) (by omega), hbyte i (by omega)]
      exact bitAt_nibble hsync.2 hi
  · rw [if_neg hsync]
    refine ⟨_, rfl, ⟨rfl, hclock', rfl, hbit, hwire, rfl⟩, hslot, rfl, hbits, rfl, hdata,
      hidle.tx.trans htx, hidle.lineHigh.trans hhigh, rfl, ?_, .inl ⟨rfl, hbit⟩⟩
    exact fun i hi => absurd hi (Nat.not_lt_zero i)

theorem ends_of_idle (hx : x.Valid) {t : TmcUart} (hidle : t.Idle) (now : ℕ) (delay : UInt32)
    (hstart : x.start = now + delay.toNat + x.latency) (hbit : t.cfgBitTime = x.bitTime)
    (hwire : t.singleWire = x.singleWire) :
    ∃ w, UartWorld.send x.write x.readLen now delay t = some w ∧ Ends x w := by
  obtain ⟨w, hsend, hsending⟩ := sending_send hx hidle hstart hbit hwire
  exact ⟨w, hsend, hsending.ends hx⟩

theorem StartBit.unique {i j : ℕ} (hi : x.StartBit i) (hj : x.StartBit j) : i = j := by
  rcases Nat.lt_trichotomy i j with hlt | heq | hgt
  · exact absurd hi.1 (hj.2 i hlt)
  · exact heq
  · exact absurd hj.1 (hi.2 j hgt)

theorem Outcome.lt_finish {finish : ℕ} {response : List UInt8} (h : Outcome x finish response)
    (hread : x.readLen ≠ 0) (hbitTime : 0 < x.bitTime.toNat) : x.slot x.bits < finish := by
  have hsample (j : ℕ) : x.slot x.bits < x.sample j := by
    unfold sample
    rw [Nat.add_assoc, x.slot_add]
    exact Nat.lt_add_of_pos_right (Nat.mul_pos (by omega) hbitTime)
  cases h with
  | sendOnly hnone => exact absurd hnone hread
  | received => exact hsample _
  | timeout => exact hsample _

/-- From the clock `first` on, the receiving pin carries a message in consecutive slots. -/
def Carries (x : Transfer) (message : List UInt8) (first : ℕ) : Prop :=
  ∀ i < message.length * 8, ∀ clock, first + i * x.bitTime.toNat ≤ clock →
    clock < first + (i + 1) * x.bitTime.toNat → x.rx clock = bitAt message i

theorem Carries.rx_sample {message : List UInt8} {first j : ℕ} (h : x.Carries message first)
    (hfirst : first ≤ x.sample j ∧ x.sample j < first + x.bitTime.toNat) {i : ℕ}
    (hi : i < message.length * 8) : x.rx (x.sample (j + i)) = bitAt message i := by
  have hslot : x.sample (j + i) = x.sample j + i * x.bitTime.toNat := by
    unfold sample
    rw [← Nat.add_assoc, x.slot_add]
  have hsucc : (i + 1) * x.bitTime.toNat = i * x.bitTime.toNat + x.bitTime.toNat :=
    Nat.succ_mul i _
  apply h i hi <;> omega

theorem Outcome.carried {finish j first : ℕ} {response message : List UInt8}
    (h : Outcome x finish response) (hj : j ≤ 64) (hstart : x.StartBit j)
    (hlength : message.length = x.readLen)
    (hfirst : first ≤ x.sample j ∧ x.sample j < first + x.bitTime.toNat)
    (hcarries : x.Carries message first) : response = message := by
  cases h with
  | sendOnly hread => exact (List.eq_nil_of_length_eq_zero (hlength.trans hread)).symm
  | timeout _ hnone => exact absurd hstart.1 (hnone j hj)
  | received _ _ hstart' hlength' hbits =>
    rw [hstart'.unique hstart] at hbits
    apply eq_of_bitAt (hlength'.trans hlength.symm)
    intro i hi
    rw [hbits i (by omega), hcarries.rx_sample hfirst (by omega)]

end Transfer

/-- The transfer of a `tmcuart_send` at the clock `now`. -/
def TmcUart.transfer (write : List UInt8) (readLen now : ℕ) (delay : UInt32) (latency : ℕ)
    (rx : ℕ → Bool) (t : TmcUart) : Transfer where
  write := write
  readLen := readLen
  start := now + delay.toNat + latency
  latency := latency
  bitTime := t.cfgBitTime
  singleWire := t.singleWire
  rx := rx

/-- Every transfer puts the bits of the message on the line, one in each slot, and ends with one
response; from then on the line is high. -/
theorem TmcUart.tmcuartSend_transfer {t : TmcUart} (hidle : t.Idle)
    (hbitTime : 80 * t.cfgBitTime.toNat < 4294967296) {write : List UInt8}
    (hwrite : 1 ≤ write.length ∧ write.length ≤ 10) (hfirst : bitAt write 0 = false) {readLen : ℕ}
    (hread : readLen ≤ 10) (now : ℕ) (delay : UInt32) (latency : ℕ) (rx : ℕ → Bool) :
    let x := t.transfer write readLen now delay latency rx
    ∃ w w' finish response,
      UartWorld.send write readLen now delay t = some w ∧ w.Leads latency rx w' ∧
      (∀ i < write.length * 8, ∀ clock, x.slot i ≤ clock → clock < x.slot (i + 1) →
        w'.txAt clock = some (bitAt write i)) ∧
      x.slot (write.length * 8) ≤ finish ∧
      (∀ clock, x.slot (write.length * 8) ≤ clock → w'.txAt clock =
        if clock < finish then x.rest else some true) ∧
      w'.uart.tmcuartTask.2 = some response ∧ w'.uart.tmcuartTask.1.tmcuartTask.2 = none ∧
      w'.uart.tmcuartTask.1.Idle ∧ x.Outcome finish response ∧
      ∀ j ≤ 64, x.StartBit j → ∀ message first, message.length = readLen →
        first ≤ x.sample j → x.sample j < first + t.cfgBitTime.toNat →
        x.Carries message first → response = message := by
  intro x
  have hx : x.Valid := ⟨hwrite, hread, hfirst, hbitTime⟩
  obtain ⟨w, hsend, w', finish, hleads, hover, hout⟩ :=
    Transfer.ends_of_idle hx hidle now delay rfl rfl rfl
  have htask : w'.uart.tmcuartTask =
      ({ w'.uart with report := false }, some w'.uart.response) := if_pos hover.report
  refine ⟨w, w', finish, w'.uart.response, hsend, hleads, hover.sent, hover.le, ?_, ?_, ?_, ?_,
    hout, ?_⟩
  · intro clock hlow
    split
    case isTrue hlt => exact hover.rest clock hlow hlt
    case isFalse hge => exact hover.high clock (Nat.not_lt.mp hge)
  · rw [htask]
  · rw [htask]
    rfl
  · rw [htask]
    exact ⟨hover.idle.active, hover.idle.pending, hover.idle.tx, hover.idle.lineHigh⟩
  · intro j hj hstart message first hlength hlow hhigh hcarries
    exact hout.carried hj hstart hlength ⟨hlow, hhigh⟩ hcarries

/-- A register is read: a message of `_add_serial_bits`, with ten bytes to come back. -/
theorem TmcUart.tmcuartSend_transfer_read :
    let t := TmcUart.config 1 1 1 450
    let x := t.transfer (Klippy.TmcUart.addSerialBits [0xf5, 0, 6, 111]) 10 1000 3600 25
      fun clock => decide (clock < 50000)
    ∃ w w' finish response,
      UartWorld.send (Klippy.TmcUart.addSerialBits [0xf5, 0, 6, 111]) 10 1000 3600 t = some w ∧
      w.Leads 25 (fun clock => decide (clock < 50000)) w' ∧
      (∀ i < 40, ∀ clock, x.slot i ≤ clock → clock < x.slot (i + 1) →
        w'.txAt clock = some (bitAt (Klippy.TmcUart.addSerialBits [0xf5, 0, 6, 111]) i)) ∧
      w'.uart.tmcuartTask.2 = some response ∧ x.Outcome finish response := by
  obtain ⟨w, w', finish, response, hsend, hleads, hsent, -, -, htask, -, -, hout, -⟩ :=
    TmcUart.tmcuartSend_transfer (t := .config 1 1 1 450) ⟨rfl, rfl, rfl, rfl⟩ (by decide)
      (show 1 ≤ (Klippy.TmcUart.addSerialBits [0xf5, 0, 6, 111]).length ∧ _ by decide)
      (by decide) (show 10 ≤ 10 by decide) 1000 3600 25 fun clock => decide (clock < 50000)
  exact ⟨w, w', finish, response, hsend, hleads, hsent, htask, hout⟩

/-- The line need not be high after the message: with two pins it keeps the level of the last
bit while the uart waits for a response. -/
theorem TmcUart.not_tmcuartSend_high :
    let t := TmcUart.config 1 0 2 450
    t.Idle ∧ bitAt [0] 0 = false ∧ ∃ w w', UartWorld.send [0] 1 1000 3600 t = some w ∧
      w.Leads 25 (fun _ => true) w' ∧
      w'.txAt ((t.transfer [0] 1 1000 3600 25 fun _ => true).slot 8) = some false := by
  intro t
  have hidle : t.Idle := ⟨rfl, rfl, rfl, rfl⟩
  obtain ⟨w, hsend, w', finish, hleads, hover, hout⟩ :=
    Transfer.ends_of_idle (x := t.transfer [0] 1 1000 3600 25 fun _ => true)
      ⟨by decide, by decide, by decide, by decide⟩ hidle 1000 3600 rfl rfl rfl
  have hlow : w'.txAt ((t.transfer [0] 1 1000 3600 25 fun _ => true).slot 8) =
      (t.transfer [0] 1 1000 3600 25 fun _ => true).rest :=
    hover.rest _ (le_refl _) (hout.lt_finish Nat.one_ne_zero (by decide))
  exact ⟨hidle, by decide, w, w', hsend, hleads, hlow.trans (by decide)⟩

end FlsunT1.Mcu
