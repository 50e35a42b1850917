/-
  Mcu/TmcUart.lean --- the bits of a TMC uart on the line (klipper/src/tmcuart.c).

  Each timer event runs a constant `latency` after its wake time.  Time is a clock in ℕ that never
  wraps; the firmware sees it modulo 2^32.  `rx` is the level of the receiving pin at each clock.
  The counts and positions are natural numbers: none of them exceeds 80.
-/
import FlsunT1.Klippy.TmcUart
import FlsunT1.Mcu.Endstop

set_option autoImplicit false

namespace FlsunT1.Mcu

open Library
open Klippy.TmcUart (bitAt)

/-! ## The uart -/

/-- The handlers that `timer.func` may hold. -/
inductive TmcUartFunc
  /-- `tmcuart_send_sync_event` -/
  | sendSync
  /-- `tmcuart_send_event` -/
  | send
  /-- `tmcuart_send_finish_event` -/
  | sendFinish
  /-- `tmcuart_read_sync_event` -/
  | readSync
  /-- `tmcuart_read_event` -/
  | read
  deriving DecidableEq

/-- `struct tmcuart_s`.  `tx` is the level of `tx_pin`, or `none` while the single wire is an
input; `pending` says whether `timer` is on the timer list. -/
structure TmcUart where
  waketime : UInt32
  func : TmcUartFunc
  pending : Bool
  tx : Option Bool
  /-- `TU_LINE_HIGH` -/
  lineHigh : Bool
  /-- `TU_ACTIVE` -/
  active : Bool
  /-- `TU_READ_SYNC` -/
  readSync : Bool
  /-- `TU_REPORT` -/
  report : Bool
  /-- `TU_PULLUP` -/
  pullup : Bool
  /-- `TU_SINGLE_WIRE` -/
  singleWire : Bool
  pos : ℕ
  readCount : ℕ
  writeCount : ℕ
  cfgBitTime : UInt32
  bitTime : UInt32
  data : Vector UInt8 10
  deriving DecidableEq

namespace TmcUart

/-- `command_config_tmcuart`: memory is cleared by `oid_alloc`. -/
def config (rxPin pullUp txPin bitTime : UInt32) : TmcUart where
  waketime := 0
  func := .send
  pending := false
  tx := some true
  lineHigh := true
  active := false
  readSync := false
  report := false
  pullup := pullUp != 0
  singleWire := rxPin == txPin
  pos := 0
  readCount := 0
  writeCount := 0
  cfgBitTime := bitTime
  bitTime := 0
  data := Vector.replicate 10 0

/-- A bit of `t->data`; an index beyond the array has none. -/
def dataBit (t : TmcUart) (pos : ℕ) : Option Bool :=
  t.data[pos / 8]?.map fun b => b.toNat.testBit (pos % 8)

/-- Set a bit of `t->data`. -/
def storeBit (v : Bool) (pos : ℕ) (t : TmcUart) : Option TmcUart :=
  t.data[pos / 8]?.map fun byte =>
    let mask : UInt8 := 1 <<< UInt8.ofNat (pos % 8)
    let byte := if v then byte ||| mask else byte &&& ~~~mask
    { t with data := t.data.setIfInBounds (pos / 8) byte }

/-- `tmcuart_reset_line`: restore the line to its idle mode. -/
def resetLine (t : TmcUart) : TmcUart :=
  { t with tx := some true, lineHigh := true, active := false, readSync := false, report := false }

/-- `tmcuart_finalize`: end a transmission and schedule a response. -/
def finalize (t : TmcUart) : TmcUart × TimerResult :=
  ({ t.resetLine with report := true }, .done)

/-- `tmcuart_read_event`, for reading bits. -/
def readEvent (v : Bool) (t : TmcUart) : Option (TmcUart × TimerResult) :=
  (t.storeBit v t.pos).map fun t =>
    let pos := t.pos + 1
    if t.readCount ≤ pos then t.finalize
    else ({ t with pos := pos, waketime := t.waketime + t.bitTime }, .reschedule)

/-- `tmcuart_read_sync_event`, for detecting the start of data. -/
def readSyncEvent (v : Bool) (t : TmcUart) : Option (TmcUart × TimerResult) :=
  if v = false ∧ t.readSync = true then
    -- now synchronized
    { t with pos := 0, func := .read }.readEvent v
  else
    let t := { t with readSync := t.readSync || v }
    let pos := t.pos
    let t := { t with pos := pos + 1 }
    if 64 ≤ pos then
      -- timeout
      some { t with readCount := 0 }.finalize
    else some ({ t with waketime := t.waketime + t.bitTime }, .reschedule)

/-- `tmcuart_send_finish_event` -/
def sendFinishEvent (t : TmcUart) : TmcUart × TimerResult :=
  if t.readCount = 0 then t.finalize
  else
    let t := { t with tx := if t.singleWire then none else t.tx }
    ({ t with pos := 0, func := .readSync, waketime := t.waketime + t.bitTime * 4 }, .reschedule)

/-- `gpio_out_toggle_noirq` and the flag of it -/
def toggle (t : TmcUart) : TmcUart :=
  { t with tx := t.tx.map (!·), lineHigh := !t.lineHigh }

/-- The loop of `tmcuart_send_event`, with `left` bits after `pos + 1`: the position of the next
toggle, if any, and the time until then. -/
def nextToggle (t : TmcUart) : ℕ → ℕ → UInt32 → Option (Option ℕ × UInt32)
  | 0, _, next => some (none, next)
  | left + 1, pos, next =>
    (t.dataBit (pos + 1)).bind fun bit =>
      if bit ≠ t.lineHigh then some (some (pos + 1), next)
      else t.nextToggle left (pos + 1) (next + t.bitTime)

/-- `tmcuart_send_event`, for sending bits. -/
def sendEvent (t : TmcUart) : Option (TmcUart × TimerResult) :=
  let t := t.toggle
  (t.nextToggle (t.writeCount - (t.pos + 1)) t.pos t.bitTime).map fun toggle =>
    match toggle.1 with
    | none => ({ t with func := .sendFinish, waketime := t.waketime + toggle.2 }, .reschedule)
    | some pos => ({ t with pos := pos, waketime := t.waketime + toggle.2 }, .reschedule)

/-- `DIV_ROUND_CLOSEST` -/
def divRoundClosest (x divisor : Int32) : Int32 := (x + divisor / 2) / divisor

/-- `tmcuart_send_sync_event`, for sending the sync nibble at the clock `cur`. -/
def sendSyncEvent (cur : UInt32) (t : TmcUart) : TmcUart × TimerResult :=
  let t := t.toggle
  let t := { t with pos := t.pos + 1 }
  if t.pos = 1 then
    -- first bit just sent
    ({ t with bitTime := cur - t.waketime, waketime := t.waketime + t.cfgBitTime }, .reschedule)
  else if 5 ≤ t.pos then
    -- last bit of sync nibble just sent
    let diff := (cur - t.waketime - t.bitTime).toInt32
    let bitTime := t.cfgBitTime + (divRoundClosest diff 4).toUInt32
    ({ t with
        bitTime := bitTime
        func := .send
        waketime := t.waketime + (diff.toUInt32 + bitTime) },
      .reschedule)
  else ({ t with waketime := t.waketime + t.cfgBitTime }, .reschedule)

/-- The call of `timer.func`, where the receiving pin is at `v`. -/
def callback (v : Bool) (cur : UInt32) (t : TmcUart) : Option (TmcUart × TimerResult) :=
  match t.func with
  | .sendSync => some (t.sendSyncEvent cur)
  | .send => t.sendEvent
  | .sendFinish => some t.sendFinishEvent
  | .readSync => t.readSyncEvent v
  | .read => t.readEvent v

/-- `command_tmcuart_send`; it shuts down where the data is too large. -/
def tmcuartSend (write : List UInt8) (readLen : ℕ) (waketime : UInt32) (t : TmcUart) :
    Option TmcUart :=
  if t.active then some t
  else if 10 < write.length ∨ 10 < readLen then none
  else
    let data := Vector.ofFn fun i : Fin 10 => write.getD i (t.data.get i)
    let t := { t with
      data := data
      pos := 0
      active := true
      readSync := false
      report := false
      writeCount := write.length * 8
      readCount := readLen * 8 }
    let t :=
      if 1 ≤ write.length ∧ data.get 0 &&& 0x3f = 0x2a then { t with func := .sendSync }
      else { t with bitTime := t.cfgBitTime, func := .send }
    some { t with waketime := waketime, pending := true }

/-- The data of a `tmcuart_response`. -/
def response (t : TmcUart) : List UInt8 := t.data.toList.take (t.readCount / 8)

/-- `tmcuart_task`, with the `tmcuart_response` that it sends. -/
def tmcuartTask (t : TmcUart) : TmcUart × Option (List UInt8) :=
  if t.report then ({ t with report := false }, some t.response) else (t, none)

/-- `tmcuart_shutdown`, after which the timer list is empty. -/
def shutdown (t : TmcUart) : TmcUart := { t.resetLine with pending := false }

end TmcUart

/-- No transfer is going on, and the line is in its idle mode. -/
structure TmcUart.Idle (t : TmcUart) : Prop where
  active : t.active = false
  pending : t.pending = false
  tx : t.tx = some true
  lineHigh : t.lineHigh = true

/-! ## Runs -/

/-- A uart in time: the clock of its wake time, and the level of `tx_pin` at each clock, as far as
it is set so far. -/
structure UartWorld where
  uart : TmcUart
  wake : ℕ
  txAt : ℕ → Option Bool

namespace UartWorld

/-- A `tmcuart_send` at the clock `now`; `delay` is 200 microseconds in ticks. -/
def send (write : List UInt8) (readLen now : ℕ) (delay : UInt32) (t : TmcUart) :
    Option UartWorld :=
  (t.tmcuartSend write readLen (clock32 now + delay)).map fun t =>
    { uart := t, wake := firstClock now t.waketime, txAt := fun _ => t.tx }

/-- The timer event that is pending. -/
def timer (latency : ℕ) (rx : ℕ → Bool) (w : UartWorld) : Option UartWorld :=
  let now := w.wake + latency
  (w.uart.callback (rx now) (clock32 now)).map fun r =>
    { uart := { r.1 with pending := r.2 == .reschedule }
      wake := firstClock w.wake r.1.waketime
      txAt := fun clock => if now ≤ clock then r.1.tx else w.txAt clock }

/-- The timer events, as long as there are any, at most so many; `none` is an access beyond
`t->data`. -/
def run (latency : ℕ) (rx : ℕ → Bool) : ℕ → UartWorld → Option UartWorld
  | 0, w => some w
  | n + 1, w => if w.uart.pending then (w.timer latency rx).bind (run latency rx n) else some w

end UartWorld

/-- The timer events lead from `w` to `w'`, and there is nothing to report before `w'`. -/
def UartWorld.Leads (latency : ℕ) (rx : ℕ → Bool) (w w' : UartWorld) : Prop :=
  ∃ n, w.run latency rx n = some w' ∧
    ∀ k < n, ∃ v, w.run latency rx k = some v ∧ v.uart.report = false

/-! ## Clocks and bits -/

theorem clock32_add_sub (clock ticks : ℕ) :
    clock32 (clock + ticks) - clock32 clock = UInt32.ofNat ticks := by
  unfold clock32
  rw [UInt32.ofNat_add, UInt32.add_comm, UInt32.add_sub_cancel]

theorem firstClock_add {wake ticks : ℕ} {waketime : UInt32} (h : waketime = clock32 wake)
    (hticks : ticks < 4294967296) :
    firstClock wake (waketime + UInt32.ofNat ticks) = wake + ticks ∧
      waketime + UInt32.ofNat ticks = clock32 (wake + ticks) := by
  have hsum : waketime + UInt32.ofNat ticks = clock32 (wake + ticks) := by
    rw [h, clock32_add, UInt32.toNat_ofNat_of_lt' hticks]
  rw [hsum]
  exact ⟨firstClock_clock32 (by omega) (by omega), rfl⟩

theorem testBit_store (b : UInt8) (v : Bool) {k i : ℕ} (hk : k < 8) (hi : i < 8) :
    (if v then b ||| (1 <<< UInt8.ofNat k) else b &&& ~~~(1 <<< UInt8.ofNat k)).toNat.testBit i =
      if i = k then v else b.toNat.testBit i := by
  have hmask : ∀ k < 8, ∀ i < 8, (1 <<< UInt8.ofNat k : UInt8).toNat.testBit i = decide (i = k) ∧
      (~~~(1 <<< UInt8.ofNat k) : UInt8).toNat.testBit i = !decide (i = k) := by
    decide +kernel
  obtain ⟨hset, hclear⟩ := hmask k hk i hi
  cases v with
  | true =>
    rw [if_pos rfl, UInt8.toNat_or, Nat.testBit_or, hset]
    by_cases hik : i = k <;> simp [hik]
  | false =>
    rw [if_neg Bool.false_ne_true, UInt8.toNat_and, Nat.testBit_and, hclear]
    by_cases hik : i = k <;> simp [hik]

theorem eq_of_bitAt {a b : List UInt8} (hlength : a.length = b.length)
    (h : ∀ i < a.length * 8, bitAt a i = bitAt b i) : a = b := by
  apply List.ext_getElem hlength
  intro k hk hk'
  apply Klippy.TmcUart.byteBits_injective
  apply List.map_congr_left
  intro i hi
  have hlt := List.mem_range.mp hi
  have hbit := h (k * 8 + i) (by omega)
  unfold bitAt at hbit
  rw [show (k * 8 + i) / 8 = k by omega, show (k * 8 + i) % 8 = i by omega,
    List.getD_eq_getElem _ _ hk, List.getD_eq_getElem _ _ hk'] at hbit
  exact hbit

namespace TmcUart

/-- What a store does. -/
theorem storeBit_eq (t : TmcUart) (v : Bool) {pos : ℕ} (h : pos < 80) :
    ∃ data, t.storeBit v pos = some { t with data := data } ∧
      ∀ i < 80, ({ t with data := data } : TmcUart).dataBit i =
        if i = pos then some v else t.dataBit i := by
  have hlt : pos / 8 < 10 := by omega
  unfold storeBit
  rw [Vector.getElem?_eq_getElem hlt]
  refine ⟨_, rfl, fun i hi => ?_⟩
  have hlti : i / 8 < 10 := by omega
  unfold dataBit
  simp only
  by_cases hbyte : pos / 8 = i / 8
  · rw [← hbyte, Vector.getElem?_setIfInBounds_self, if_pos hlt, Option.map_some,
      testBit_store _ v (Nat.mod_lt _ (by decide)) (Nat.mod_lt _ (by decide)),
      Vector.getElem?_eq_getElem hlt, Option.map_some]
    have hiff : i % 8 = pos % 8 ↔ i = pos := by omega
    simp only [hiff]
    split <;> rfl
  · rw [Vector.getElem?_setIfInBounds_ne hbyte, if_neg]
    rintro rfl
    exact hbyte rfl

end TmcUart

namespace TmcUart

/-- The loop finds the next bit that differs, or the end of the message. -/
theorem nextToggle_spec (t : TmcUart) {write : List UInt8}
    (hbits : ∀ i < write.length * 8, t.dataBit i = some (bitAt write i)) (start : ℕ) :
    ∀ left pos : ℕ, pos + 1 + left = write.length * 8 → start ≤ pos →
      ∃ next, t.nextToggle left pos (UInt32.ofNat ((pos + 1 - start) * t.bitTime.toNat)) =
          some (if next < write.length * 8 then some next else none,
            UInt32.ofNat ((next - start) * t.bitTime.toNat)) ∧
        (pos < next ∧ next ≤ write.length * 8) ∧
        (next < write.length * 8 → bitAt write next = !t.lineHigh) ∧
        ∀ i, pos < i → i < next → bitAt write i = t.lineHigh := by
  intro left
  induction left with
  | zero =>
    intro pos hpos _
    refine ⟨pos + 1, ?_, by omega, by omega, by omega⟩
    rw [nextToggle, if_neg (by omega)]
  | succ left ih =>
    intro pos hpos hstart
    rw [nextToggle, hbits (pos + 1) (by omega), Option.bind_some]
    by_cases hbit : bitAt write (pos + 1) = t.lineHigh
    · obtain ⟨next, hnext, hrange, hdiffers, hsame⟩ := ih (pos + 1) (by omega) (by omega)
      refine ⟨next, ?_, by omega, hdiffers, ?_⟩
      · have hmul : (pos + 1 - start) * t.bitTime.toNat + t.bitTime.toNat =
            (pos + 1 + 1 - start) * t.bitTime.toNat := by
          rw [← Nat.succ_mul]
          congr 1
          omega
        have hsum : UInt32.ofNat ((pos + 1 - start) * t.bitTime.toNat) + t.bitTime =
            UInt32.ofNat ((pos + 1 + 1 - start) * t.bitTime.toNat) := by
          rw [← hmul, UInt32.ofNat_add, UInt32.ofNat_toNat]
        rw [if_neg (not_not.mpr hbit), hsum, hnext]
      · intro i hi hlt
        rcases Nat.lt_or_ge (pos + 1) i with hlater | hle
        · exact hsame i hlater hlt
        · have heq : i = pos + 1 := by omega
          rw [heq, hbit]
    · refine ⟨pos + 1, ?_, by omega, ?_, by omega⟩
      · rw [if_pos hbit, if_pos (by omega)]
      · intro _
        exact Bool.eq_not_of_ne hbit

/-- What the sender does at a toggle. -/
theorem sendEvent_spec {t : TmcUart} {write : List UInt8}
    (hbits : ∀ i < write.length * 8, t.dataBit i = some (bitAt write i))
    (hcount : t.writeCount = write.length * 8) (hpos : t.pos < write.length * 8) :
    ∃ next, t.sendEvent = some
        (if next < write.length * 8 then
          { t.toggle with
            pos := next
            waketime := t.waketime + UInt32.ofNat ((next - t.pos) * t.bitTime.toNat) }
        else
          { t.toggle with
            func := .sendFinish
            waketime := t.waketime + UInt32.ofNat ((next - t.pos) * t.bitTime.toNat) },
          .reschedule) ∧
      (t.pos < next ∧ next ≤ write.length * 8) ∧
      (next < write.length * 8 → bitAt write next = t.lineHigh) ∧
      ∀ i, t.pos < i → i < next → bitAt write i = !t.lineHigh := by
  obtain ⟨next, hnext, hrange, hdiffers, hsame⟩ := nextToggle_spec t.toggle hbits t.pos
    (t.writeCount - (t.pos + 1)) t.pos (by omega) (le_refl _)
  refine ⟨next, ?_, hrange, ?_, hsame⟩
  · have hone : UInt32.ofNat ((t.pos + 1 - t.pos) * t.toggle.bitTime.toNat) = t.bitTime := by
      rw [Nat.add_sub_cancel_left, Nat.one_mul]
      exact UInt32.ofNat_toNat
    rw [hone] at hnext
    unfold sendEvent
    dsimp only
    have hcall : t.toggle.nextToggle (t.toggle.writeCount - (t.toggle.pos + 1)) t.toggle.pos
        t.toggle.bitTime = _ := hnext
    rw [hcall, Option.map_some]
    by_cases hlt : next < write.length * 8
    · simp only [if_pos hlt]
      rfl
    · simp only [if_neg hlt]
      rfl
  · intro hlt
    rw [hdiffers hlt]
    exact Bool.not_not _

theorem response_nil {t : TmcUart} (h : t.readCount = 0) : t.response = [] := by
  unfold response
  rw [h]
  exact List.take_zero

theorem readEvent_spec (t : TmcUart) (v : Bool) (h : t.pos < 80) :
    ∃ data, (∀ i < 80, ({ t with data := data } : TmcUart).dataBit i =
        if i = t.pos then some v else t.dataBit i) ∧
      t.readEvent v = some (if t.readCount ≤ t.pos + 1 then { t with data := data }.finalize
        else ({ t with data := data, pos := t.pos + 1, waketime := t.waketime + t.bitTime },
          .reschedule)) := by
  obtain ⟨data, hstore, hdata⟩ := t.storeBit_eq v h
  refine ⟨data, hdata, ?_⟩
  unfold readEvent
  rw [hstore]
  rfl

end TmcUart

namespace UartWorld

variable {latency : ℕ} {rx : ℕ → Bool} {w v w' : UartWorld}

theorem timer_eq {r : TmcUart × TimerResult}
    (h : w.uart.callback (rx (w.wake + latency)) (clock32 (w.wake + latency)) = some r) :
    w.timer latency rx = some
      { uart := { r.1 with pending := r.2 == .reschedule }
        wake := firstClock w.wake r.1.waketime
        txAt := fun clock => if w.wake + latency ≤ clock then r.1.tx else w.txAt clock } := by
  unfold timer
  dsimp only
  rw [h, Option.map_some]

theorem Leads.refl (w : UartWorld) : Leads latency rx w w :=
  ⟨0, rfl, fun _ hk => absurd hk (Nat.not_lt_zero _)⟩

theorem Leads.head (hpending : w.uart.pending = true) (hreport : w.uart.report = false)
    (htimer : w.timer latency rx = some v) (h : Leads latency rx v w') :
    Leads latency rx w w' := by
  obtain ⟨n, hn, hquiet⟩ := h
  have hrun (k : ℕ) : w.run latency rx (k + 1) = v.run latency rx k := by
    rw [run, if_pos hpending, htimer, Option.bind_some]
  refine ⟨n + 1, (hrun n).trans hn, fun k hk => ?_⟩
  cases k with
  | zero => exact ⟨w, rfl, hreport⟩
  | succ k =>
    rw [hrun]
    exact hquiet k (Nat.lt_of_succ_lt_succ hk)

end UartWorld

end FlsunT1.Mcu
