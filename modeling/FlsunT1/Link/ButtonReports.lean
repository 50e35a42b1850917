/-
  Link/ButtonReports.lean --- button reports, from the pins to `handle_button`.

  The mcu sends all the reports it has stored each time, and the host picks the ones
  it has not seen yet.  Messages to the host may be lost and keep their order;
  acknowledgements all arrive, in order, at any later time.  The timer event of the
  mcu may come between the two halves of its task.  On the host the states go from
  the serial thread through `_async_queue` to the callbacks of the reactor.
-/
import Mathlib.Algebra.Order.BigOperators.Group.List
import Mathlib.Data.List.Infix
import FlsunT1.Klippy.Buttons
import FlsunT1.Library.Run

set_option autoImplicit false

namespace FlsunT1.Link

open FlsunT1.Library FlsunT1.Mcu FlsunT1.Klippy

/-! ## The state -/

/-- The two sides and what is on its way.  `sending` is the report count that a
`buttons_task` has taken and not sent yet, `stored` all the reports ever stored and
`handled` the arguments of all the calls of `handle_button`. -/
structure ButtonLink where
  mcu : Buttons
  wake : Bool
  sending : Option Nat
  toHost : List ButtonsState
  host : MCUButtons
  asyncQueue : List UInt8
  callbacks : List UInt8
  toMcu : List Int
  stored : List UInt8
  handled : List UInt8
  deriving DecidableEq, Repr

/-- The events of the mcu, of the links and of the two host threads. -/
inductive ButtonEvent
  /-- `buttons_event`, with the levels of the pins -/
  | timer (pins : List Bool)
  /-- another set of buttons wakes the task -/
  | wake
  | task
  | send
  | lose
  /-- `handle_buttons_state` -/
  | receive
  /-- `command_buttons_ack` -/
  | ack
  /-- a round of `_got_pipe_signal` -/
  | gotPipeSignal
  /-- `ReactorCallback.invoke` -/
  | invoke
  deriving DecidableEq, Repr

namespace ButtonLink

/-- Just configured: the mcu after `buttons_query`, the host with `ack_count` 0. -/
def init (mcu : Buttons) (host : MCUButtons) : ButtonLink where
  mcu := mcu
  wake := false
  sending := none
  toHost := []
  host := { host with ackCount := 0 }
  asyncQueue := []
  callbacks := []
  toMcu := []
  stored := []
  handled := []

/-- The timer event; the report it stores is the last of `stored`. -/
def timer (pins : List Bool) (w : ButtonLink) : Option ButtonLink :=
  if w.mcu.timerPending then
    let (mcu, wake) := w.mcu.event pins
    some { w with
      mcu := mcu
      wake := w.wake || wake
      stored := w.stored ++ mcu.reports.drop w.mcu.reports.length }
  else none

/-- One event.  The commands and the task of the mcu run one after another. -/
def step (w : ButtonLink) : ButtonEvent → Option ButtonLink
  | .timer pins => w.timer pins
  | .wake => some { w with wake := true }
  | .task =>
      if w.wake ∧ w.sending = none then
        match w.mcu.task with
        | none => some { w with wake := false }
        | some (reportCount, mcu) =>
            some { w with wake := false, mcu := mcu, sending := some reportCount }
      else none
  | .send =>
      w.sending.map fun reportCount =>
        { w with sending := none, toHost := w.toHost ++ [w.mcu.buttonsState reportCount] }
  | .lose =>
      match w.toHost with
      | [] => none
      | _ :: toHost => some { w with toHost := toHost }
  | .receive =>
      match w.toHost with
      | [] => none
      | m :: toHost =>
          match w.host.handleButtonsState m with
          | (none, host) => some { w with toHost := toHost, host := host }
          | (some (newCount, newButtons), host) =>
              some { w with
                toHost := toHost
                host := host
                toMcu := w.toMcu ++ [newCount]
                asyncQueue := w.asyncQueue ++ newButtons }
  | .ack =>
      match w.sending, w.toMcu with
      | none, count :: toMcu =>
          some { w with mcu := w.mcu.ack (UInt8.ofInt count), toMcu := toMcu }
      | _, _ => none
  | .gotPipeSignal =>
      match w.asyncQueue with
      | [] => none
      | b :: asyncQueue =>
          some { w with asyncQueue := asyncQueue, callbacks := w.callbacks ++ [b] }
  | .invoke =>
      match w.callbacks with
      | [] => none
      | b :: callbacks =>
          some { w with
            callbacks := callbacks
            host := (w.host.handleButton b).2
            handled := w.handled ++ [b] }

end ButtonLink

/-! ## What is in flight -/

/-- A message with the stored reports from number `a` on. -/
structure Carries (stored : List UInt8) (a : Nat) (m : ButtonsState) : Prop where
  ackCount : m.ackCount = UInt8.ofNat a
  room : m.state.length ≤ reportsSize
  stored : m.state <+: stored.drop a

/-- The messages in flight carry the reports from some numbers on, in the order of
these numbers, which are from `lo` to `hi`. -/
def InFlight (stored : List UInt8) (hi : Nat) : Nat → List ButtonsState → Prop
  | _, [] => True
  | lo, m :: ms => ∃ a, lo ≤ a ∧ a ≤ hi ∧ Carries stored a m ∧ InFlight stored hi a ms

theorem Carries.append {stored : List UInt8} {a : Nat} {m : ButtonsState}
    (h : Carries stored a m) (hle : a ≤ stored.length) (news : List UInt8) :
    Carries (stored ++ news) a m := by
  refine ⟨h.ackCount, h.room, ?_⟩
  rw [List.drop_append_of_le_length hle]
  exact h.stored.trans (List.prefix_append _ _)

namespace InFlight

variable {stored : List UInt8} {hi lo : Nat} {ms : List ButtonsState}

theorem append (h : InFlight stored hi lo ms) (hle : hi ≤ stored.length) (news : List UInt8) :
    InFlight (stored ++ news) hi lo ms := by
  induction ms generalizing lo with
  | nil => trivial
  | cons m ms ih =>
    obtain ⟨a, hlo, hhi, hm, hms⟩ := h
    exact ⟨a, hlo, hhi, hm.append (hhi.trans hle) news, ih hms⟩

theorem mono_hi {hi' : Nat} (h : InFlight stored hi lo ms) (hle : hi ≤ hi') :
    InFlight stored hi' lo ms := by
  induction ms generalizing lo with
  | nil => trivial
  | cons m ms ih =>
    obtain ⟨a, hlo, hhi, hm, hms⟩ := h
    exact ⟨a, hlo, hhi.trans hle, hm, ih hms⟩

theorem mono_lo {lo' : Nat} (h : InFlight stored hi lo ms) (hle : lo' ≤ lo) :
    InFlight stored hi lo' ms := by
  cases ms with
  | nil => trivial
  | cons m ms =>
    obtain ⟨a, hlo, hrest⟩ := h
    exact ⟨a, hle.trans hlo, hrest⟩

theorem snoc {m : ButtonsState} (h : InFlight stored hi lo ms) (hlo : lo ≤ hi)
    (hm : Carries stored hi m) : InFlight stored hi lo (ms ++ [m]) := by
  induction ms generalizing lo with
  | nil => exact ⟨hi, hlo, le_rfl, hm, trivial⟩
  | cons m' ms ih =>
    obtain ⟨a, hlo', hhi, hm', hms⟩ := h
    exact ⟨a, hlo', hhi, hm', ih hms hhi⟩

end InFlight

/-! ## The invariant -/

/-- The mcu has dropped the first `acked` reports, the host has seen the first `seen`. -/
structure ButtonLink.Tracks (acked seen : Nat) (w : ButtonLink) : Prop where
  ackCount : w.mcu.ackCount = UInt8.ofNat acked
  reports : w.mcu.reports = w.stored.drop acked
  room : w.mcu.reports.length ≤ reportsSize
  acked_le : acked ≤ w.stored.length
  sending : ∀ n, w.sending = some n → n ≤ w.mcu.reports.length
  toHost : InFlight w.stored acked (seen - reportsSize) w.toHost
  hostCount : w.host.ackCount = seen
  acks : ∀ count ∈ w.toMcu, 0 < count ∧ count ≤ reportsSize
  toMcu : (acked : Int) + w.toMcu.sum = seen
  seen_le : seen ≤ w.stored.length
  delivered : w.handled ++ w.callbacks ++ w.asyncQueue = w.stored.take seen

namespace ButtonLink.Tracks

variable {w w' : ButtonLink} {acked seen : Nat}

theorem acked_le_seen (h : w.Tracks acked seen) : acked ≤ seen := by
  have hsum : 0 ≤ w.toMcu.sum := List.sum_nonneg fun c hc => (h.acks c hc).1.le
  have := h.toMcu
  omega

theorem seen_le_acked (h : w.Tracks acked seen) : seen ≤ acked + reportsSize := by
  have hseen := h.seen_le
  have hroom := h.room
  rw [h.reports, List.length_drop] at hroom
  omega

theorem timer {pins : List Bool} (h : w.Tracks acked seen) (hw : w.timer pins = some w') :
    w'.Tracks acked seen := by
  simp only [ButtonLink.timer] at hw
  split at hw
  · obtain ⟨hack, hreports⟩ := w.mcu.event_reports pins
    obtain rfl := Option.some.inj hw
    rcases hreports with hsame | ⟨hroom, hnew⟩
    · have hdrop : (w.mcu.event pins).1.reports.drop w.mcu.reports.length = [] := by
        rw [hsame, List.drop_length]
      rw [hdrop, List.append_nil]
      exact { h with
        ackCount := hack.trans h.ackCount
        reports := hsame.trans h.reports
        room := hsame.symm ▸ h.room
        sending := hsame.symm ▸ h.sending }
    · have hdrop : (w.mcu.event pins).1.reports.drop w.mcu.reports.length =
          [(w.mcu.event pins).1.pressed] := by
        rw [hnew, List.drop_left]
      rw [hdrop]
      have hlen : w.stored.length ≤ (w.stored ++ [(w.mcu.event pins).1.pressed]).length :=
        (List.prefix_append _ _).length_le
      refine { h with
        ackCount := hack.trans h.ackCount
        reports := ?_, room := ?_, acked_le := ?_, sending := ?_
        toHost := h.toHost.append h.acked_le _, seen_le := ?_, delivered := ?_ }
      · rw [hnew, h.reports, List.drop_append_of_le_length h.acked_le]
      · rw [hnew, List.length_append]
        exact hroom
      · exact h.acked_le.trans hlen
      · intro n hn
        rw [hnew, List.length_append]
        exact (h.sending n hn).trans (Nat.le_add_right _ _)
      · exact h.seen_le.trans hlen
      · rw [List.take_append_of_le_length h.seen_le]
        exact h.delivered
  · cases hw

theorem task {n : Nat} {mcu : Buttons} (h : w.Tracks acked seen)
    (ht : w.mcu.task = some (n, mcu)) :
    Tracks acked seen { w with wake := false, mcu := mcu, sending := some n } := by
  obtain ⟨rfl, hack, hreports⟩ := Buttons.task_reports ht
  exact { h with
    ackCount := hack.trans h.ackCount
    reports := hreports.trans h.reports
    room := hreports.symm ▸ h.room
    sending := fun n hn => by
      cases hn
      exact le_of_eq (congrArg List.length hreports.symm) }

theorem send {n : Nat} (h : w.Tracks acked seen) (hn : w.sending = some n) :
    Tracks acked seen
      { w with sending := none, toHost := w.toHost ++ [w.mcu.buttonsState n] } := by
  refine { h with sending := fun n hn => (nomatch hn), toHost := h.toHost.snoc ?_ ?_ }
  · have := h.seen_le_acked
    omega
  · refine ⟨h.ackCount, ?_, ?_⟩
    · exact (List.length_take_le _ _).trans ((h.sending n hn).trans h.room)
    · rw [← h.reports]
      exact List.take_prefix _ _

theorem lose {m : ButtonsState} {toHost : List ButtonsState} (h : w.Tracks acked seen)
    (hq : w.toHost = m :: toHost) : Tracks acked seen { w with toHost := toHost } := by
  obtain ⟨a, hlo, -, -, hrest⟩ := hq ▸ h.toHost
  exact { h with toHost := hrest.mono_lo hlo }

/-- A message that the mcu sent with `a` reports acknowledged brings the host to the
end of what it carries. -/
theorem receive {m : ButtonsState} {toHost : List ButtonsState} (h : w.Tracks acked seen)
    (hq : w.toHost = m :: toHost) (hw : w.step .receive = some w') :
    ∃ seen', w'.Tracks acked seen' := by
  obtain ⟨a, hlo, hhi, hm, hrest⟩ := hq ▸ h.toHost
  have hle : a ≤ seen := hhi.trans h.acked_le_seen
  have hnear : seen ≤ a + reportsSize := by omega
  have heq := MCUButtons.handleButtonsState_eq hm.ackCount h.hostCount hle
    (Nat.lt_of_le_of_lt hnear (by simp [reportsSize]))
  simp only [ButtonLink.step, hq, heq] at hw
  by_cases hold : a + m.state.length ≤ seen
  · rw [if_pos hold] at hw
    obtain rfl := Option.some.inj hw
    exact ⟨seen, h.lose hq⟩
  · rw [if_neg hold] at hw
    obtain rfl := Option.some.inj hw
    have hroom := hm.room
    have hfits : a + m.state.length ≤ w.stored.length := by
      have hlen := hm.stored.length_le
      have := h.acked_le
      rw [List.length_drop] at hlen
      omega
    refine ⟨a + m.state.length, { h with
      toHost := hrest.mono_lo (by omega)
      hostCount := rfl
      acks := ?_
      toMcu := ?_
      seen_le := hfits
      delivered := ?_ }⟩
    · intro count hcount
      rcases List.mem_append.mp hcount with hmem | hmem
      · exact h.acks count hmem
      · obtain rfl := List.mem_singleton.mp hmem
        omega
    · have htoMcu := h.toMcu
      rw [List.sum_append, List.sum_singleton]
      omega
    · have hskip : a + (seen - a) = seen := by omega
      have hcount : m.state.length - (seen - a) = a + m.state.length - seen := by omega
      have hnew : m.state.drop (seen - a) =
          (w.stored.drop seen).take (a + m.state.length - seen) := by
        have hpre := List.prefix_iff_eq_take.mp (List.IsPrefix.drop hm.stored (seen - a))
        rwa [List.length_drop, List.drop_drop, hskip, hcount] at hpre
      calc w.handled ++ w.callbacks ++ (w.asyncQueue ++ m.state.drop (seen - a))
          = w.stored.take seen ++ (w.stored.drop seen).take (a + m.state.length - seen) := by
            rw [← List.append_assoc, h.delivered, hnew]
        _ = w.stored.take (a + m.state.length) := by
            rw [← List.take_add]
            congr 1
            omega

theorem ack {count : Int} {toMcu : List Int} (h : w.Tracks acked seen)
    (hsending : w.sending = none) (hq : w.toMcu = count :: toMcu) :
    ∃ acked', Tracks acked' seen
      { w with mcu := w.mcu.ack (UInt8.ofInt count), toMcu := toMcu } := by
  obtain ⟨hpos, hsmall⟩ := h.acks count (hq ▸ List.mem_cons_self)
  have hrest : ∀ c ∈ toMcu, 0 < c ∧ c ≤ (reportsSize : Int) :=
    fun c hc => h.acks c (hq ▸ List.mem_cons_of_mem _ hc)
  have hsum := h.toMcu
  have hnonneg : 0 ≤ toMcu.sum := List.sum_nonneg fun c hc => (hrest c hc).1.le
  rw [hq, List.sum_cons] at hsum
  obtain ⟨n, rfl⟩ : ∃ n : Nat, count = n := ⟨count.toNat, by omega⟩
  have hn : n ≤ 8 := by exact_mod_cast hsmall
  have hword : UInt8.ofInt (n : Int) = UInt8.ofNat n := by
    have hmod : ((n : Int) % 2 ^ 8).toNat = n := by omega
    rw [UInt8.ofInt, hmod]
  have htoNat : (UInt8.ofNat n).toNat = n := by
    rw [UInt8.toNat_ofNat']
    omega
  obtain ⟨hack, hreports⟩ := w.mcu.ack_reports (UInt8.ofNat n)
  rw [htoNat] at hreports
  have hseen := h.seen_le
  rw [hword]
  refine ⟨acked + n, { h with
    ackCount := ?_, reports := ?_, room := ?_, acked_le := ?_, sending := ?_
    toHost := h.toHost.mono_hi (Nat.le_add_right _ _)
    acks := hrest, toMcu := ?_ }⟩
  · rw [hack, h.ackCount, UInt8.ofNat_add]
  · rw [hreports, h.reports, List.drop_drop]
  · rw [hreports, List.length_drop]
    exact (Nat.sub_le _ _).trans h.room
  · show acked + n ≤ w.stored.length
    omega
  · intro k hk
    exact absurd (hsending.symm.trans hk) (Option.some_ne_none k).symm
  · push_cast
    omega

/-- One event. -/
theorem step {e : ButtonEvent} (h : w.Tracks acked seen) (hw : w.step e = some w') :
    ∃ acked' seen', w'.Tracks acked' seen' := by
  cases e with
  | timer pins => exact ⟨acked, seen, h.timer hw⟩
  | wake =>
    obtain rfl := Option.some.inj hw
    exact ⟨acked, seen, { h with }⟩
  | task =>
    simp only [ButtonLink.step] at hw
    split at hw
    · next hidle =>
      cases ht : w.mcu.task with
      | none =>
        rw [ht] at hw
        obtain rfl := Option.some.inj hw
        exact ⟨acked, seen, { h with }⟩
      | some r =>
        rw [ht] at hw
        obtain rfl := Option.some.inj hw
        exact ⟨acked, seen, h.task ht⟩
    · cases hw
  | send =>
    obtain ⟨n, hn, rfl⟩ := Option.map_eq_some_iff.mp hw
    exact ⟨acked, seen, h.send hn⟩
  | lose =>
    simp only [ButtonLink.step] at hw
    cases hq : w.toHost with
    | nil => rw [hq] at hw; cases hw
    | cons m toHost =>
      rw [hq] at hw
      obtain rfl := Option.some.inj hw
      exact ⟨acked, seen, h.lose hq⟩
  | receive =>
    cases hq : w.toHost with
    | nil => simp only [ButtonLink.step, hq] at hw; cases hw
    | cons m toHost => exact ⟨acked, h.receive hq hw⟩
  | ack =>
    simp only [ButtonLink.step] at hw
    split at hw
    · next hsending hq =>
      obtain rfl := Option.some.inj hw
      obtain ⟨acked', h'⟩ := h.ack hsending hq
      exact ⟨acked', seen, h'⟩
    · cases hw
  | gotPipeSignal =>
    simp only [ButtonLink.step] at hw
    cases hq : w.asyncQueue with
    | nil => rw [hq] at hw; cases hw
    | cons b asyncQueue =>
      rw [hq] at hw
      obtain rfl := Option.some.inj hw
      refine ⟨acked, seen, { h with delivered := ?_ }⟩
      rw [← h.delivered, hq]
      simp
  | invoke =>
    simp only [ButtonLink.step] at hw
    cases hq : w.callbacks with
    | nil => rw [hq] at hw; cases hw
    | cons b callbacks =>
      rw [hq] at hw
      obtain rfl := Option.some.inj hw
      refine ⟨acked, seen, { h with hostCount := h.hostCount, delivered := ?_ }⟩
      rw [← h.delivered, hq]
      simp

end ButtonLink.Tracks

/-! ## Every run -/

/-- The runs of a set of buttons, from its configuration on. -/
def ButtonRun : ButtonLink → List ButtonEvent → ButtonLink → Prop :=
  Run fun w e w' => w.step e = some w'

/-- Nothing has been stored right after `buttons_query`. -/
theorem ButtonLink.init_tracks {clock restTicks : Int} {retransmitCount invert : UInt8}
    {b mcu : Buttons} (h : b.query clock restTicks retransmitCount invert = some mcu)
    (host : MCUButtons) : (ButtonLink.init mcu host).Tracks 0 0 := by
  simp only [Buttons.query] at h
  split at h
  · cases h
  · obtain rfl := Option.some.inj h
    exact
      { ackCount := rfl, reports := rfl, room := Nat.zero_le _, acked_le := le_rfl
        sending := fun _ hn => nomatch hn
        toHost := trivial, hostCount := rfl
        acks := List.forall_mem_nil _
        toMcu := rfl, seen_le := le_rfl, delivered := rfl }

/-- In every run, the states passed to `handle_button` are the first of the reports
stored by the mcu, each once and in their order. -/
theorem handled_prefix_stored {clock restTicks : Int} {retransmitCount invert : UInt8}
    {b mcu : Buttons} (hmcu : b.query clock restTicks retransmitCount invert = some mcu)
    (host : MCUButtons) {es : List ButtonEvent} {w : ButtonLink}
    (h : ButtonRun (.init mcu host) es w) : w.handled <+: w.stored := by
  obtain ⟨acked, seen, hw⟩ := Run.invariant (P := fun w => ∃ acked seen, w.Tracks acked seen)
    h ⟨0, 0, ButtonLink.init_tracks hmcu host⟩ fun w e w' ⟨_, _, ht⟩ hstep => ht.step hstep
  have hpre : w.handled <+: w.stored.take seen := by
    rw [← hw.delivered, List.append_assoc]
    exact List.prefix_append _ _
  exact hpre.trans (List.take_prefix _ _)

/-- One button, right after its configuration, with a retransmit at each timer event. -/
def oneButton : Buttons where
  waketime := 0
  timerPending := true
  restTicks := 500
  pressed := 0
  lastPressed := 0
  reports := []
  ackCount := 0
  retransmitState := bfAcked
  retransmitCount := 0

/-- The button is pressed; the first message with the report is lost. -/
def pressedEvents : List ButtonEvent :=
  [.timer [true], .timer [true], .task, .send, .lose, .timer [true], .task, .send, .receive,
    .gotPipeSignal, .invoke]

/-- The report of the lost message is handled once it is sent again. -/
theorem handled_prefix_stored_pressed : ∃ w : ButtonLink, w.handled = [1] ∧
    w.handled <+: w.stored := by
  obtain ⟨w, hrun, hw⟩ : ∃ w : ButtonLink,
      ButtonRun (.init oneButton ⟨[], 0, 0, 0⟩) pressedEvents w ∧ (w.handled == [1]) = true :=
    Run.exists_of_any (P := fun w : ButtonLink => w.handled == [1]) (by decide)
  have hmcu : oneButton.query 0 500 0 0 = some oneButton := rfl
  exact ⟨w, eq_of_beq hw, handled_prefix_stored hmcu _ hrun⟩

end FlsunT1.Link
