/-
  Link/ButtonConvergence.lean --- what the host knows of the buttons once all reports have been
  delivered.

  A report that finds no room in the array of the mcu is dropped, while `pressed` is updated all the
  same.  As long as each change finds room, the last report is the state that is pressed.
-/
import FlsunT1.Link.ButtonReports

set_option autoImplicit false

namespace FlsunT1.Mcu

/-! ## Reports of the debounced state -/

/-- A timer event stores a report of the debounced state, or it leaves that state alone, if a change
finds room. -/
theorem Buttons.event_pressed (pins : List Bool) (b : Buttons)
    (hroom : (b.event pins).1.pressed ≠ b.pressed → b.reports.length < reportsSize) :
    ((b.event pins).1.reports = b.reports ∧ (b.event pins).1.pressed = b.pressed) ∨
      (b.event pins).1.reports = b.reports ++ [(b.event pins).1.pressed] := by
  obtain ⟨-, hreports, hpressed⟩ := countRetransmit_reports
    { (b.debounce (readPins pins 1)).1 with lastPressed := readPins pins 1 }
  change (b.event pins).1.reports = (b.debounce (readPins pins 1)).1.reports at hreports
  change (b.event pins).1.pressed = (b.debounce (readPins pins 1)).1.pressed at hpressed
  rw [hpressed] at hroom ⊢
  rw [hreports]
  generalize readPins pins 1 = status at *
  unfold debounce at hroom ⊢
  dsimp only at hroom ⊢
  split
  · rename_i hchange
    rw [if_pos hchange] at hroom
    split
    · exact Or.inr rfl
    · rename_i hfull
      rw [if_neg hfull] at hroom
      left
      refine ⟨rfl, ?_⟩
      by_contra hne
      exact hfull (hroom hne)
  · exact Or.inl ⟨rfl, rfl⟩

theorem Buttons.pressed_of_task {b b' : Buttons} {n : Nat} (h : b.task = some (n, b')) :
    b'.pressed = b.pressed := by
  unfold task at h
  split at h
  · cases h
  · split at h
    · cases h
    · obtain ⟨-, rfl⟩ := Prod.mk.inj (Option.some.inj h)
      rfl

theorem Buttons.pressed_of_ack (count : UInt8) (b : Buttons) :
    (b.ack count).pressed = b.pressed := by
  unfold ack
  dsimp only
  split <;> rfl

end FlsunT1.Mcu

namespace FlsunT1.Klippy

open FlsunT1.Mcu

theorem MCUButtons.lastButton_of_handle (m : ButtonsState) (h : MCUButtons) :
    (h.handleButtonsState m).2.lastButton = h.lastButton ∧
      (h.handleButtonsState m).2.invert = h.invert := by
  unfold handleButtonsState
  dsimp only
  split
  · exact ⟨rfl, rfl⟩
  · exact ⟨rfl, rfl⟩

end FlsunT1.Klippy

namespace FlsunT1.Link

open FlsunT1.Library FlsunT1.Mcu FlsunT1.Klippy

namespace ButtonLink

/-- Everything that has been sent has arrived, and no report is stored any more. -/
def Settled (w : ButtonLink) : Prop :=
  w.mcu.reports = [] ∧ w.sending = none ∧ w.toHost = [] ∧ w.asyncQueue = [] ∧ w.callbacks = [] ∧
    w.toMcu = []

instance (w : ButtonLink) : Decidable w.Settled := inferInstanceAs (Decidable (_ ∧ _))

/-- A sample that changes what is pressed finds room for its report. -/
def HasRoom (w : ButtonLink) : ButtonEvent → Prop
  | .timer pins =>
      (w.mcu.event pins).1.pressed ≠ w.mcu.pressed → w.mcu.reports.length < reportsSize
  | _ => True

instance (w : ButtonLink) : (e : ButtonEvent) → Decidable (w.HasRoom e)
  | .timer _ => inferInstanceAs (Decidable (_ → _))
  | .wake | .task | .send | .lose | .receive | .ack | .gotPipeSignal | .invoke =>
      inferInstanceAs (Decidable True)

/-- The last report is what is pressed, and the last one handled is the last button. -/
structure Follows (invert : UInt8) (w : ButtonLink) : Prop where
  pressed : w.stored.getLast?.getD invert = w.mcu.pressed
  lastButton : w.host.lastButton = (w.handled.getLast?.getD invert).toNat ^^^ w.host.invert

/-- What most events leave alone. -/
structure SameButtons (w w' : ButtonLink) : Prop where
  stored : w'.stored = w.stored
  pressed : w'.mcu.pressed = w.mcu.pressed
  handled : w'.handled = w.handled
  lastButton : w'.host.lastButton = w.host.lastButton
  invert : w'.host.invert = w.host.invert

variable {w w' : ButtonLink} {invert : UInt8}

theorem Follows.same (h : w.Follows invert) (hsame : SameButtons w w') : w'.Follows invert where
  pressed := by
    rw [hsame.stored, hsame.pressed]
    exact h.pressed
  lastButton := by
    rw [hsame.lastButton, hsame.handled, hsame.invert]
    exact h.lastButton

theorem Follows.timer {pins : List Bool} (h : w.Follows invert)
    (hroom : w.HasRoom (.timer pins)) (hw : w.timer pins = some w') : w'.Follows invert := by
  unfold ButtonLink.timer at hw
  split at hw
  · obtain rfl := Option.some.inj hw
    rcases w.mcu.event_pressed pins hroom with ⟨hreports, hpressed⟩ | hreports
    · refine h.same ⟨?_, hpressed, rfl, rfl, rfl⟩
      show w.stored ++ (w.mcu.event pins).1.reports.drop w.mcu.reports.length = w.stored
      rw [hreports, List.drop_length, List.append_nil]
    · refine ⟨?_, h.lastButton⟩
      show (w.stored ++ (w.mcu.event pins).1.reports.drop w.mcu.reports.length).getLast?.getD _ =
        (w.mcu.event pins).1.pressed
      rw [hreports, List.drop_left, List.getLast?_concat]
      rfl
  · cases hw

theorem Follows.invoke {b : UInt8} {callbacks : List UInt8} (h : w.Follows invert) :
    Follows invert
      { w with
        callbacks := callbacks
        host := (w.host.handleButton b).2
        handled := w.handled ++ [b] } where
  pressed := h.pressed
  lastButton := by
    dsimp only
    rw [List.getLast?_concat]
    rfl

/-- The events other than a sample and a call of `handle_button`. -/
theorem sameButtons_of_step {e : ButtonEvent} (hw : w.step e = some w')
    (htimer : ∀ pins, e ≠ .timer pins) (hinvoke : e ≠ .invoke) : SameButtons w w' := by
  cases e with
  | timer pins => exact absurd rfl (htimer pins)
  | invoke => exact absurd rfl hinvoke
  | wake =>
    obtain rfl := Option.some.inj hw
    exact ⟨rfl, rfl, rfl, rfl, rfl⟩
  | task =>
    simp only [ButtonLink.step] at hw
    split at hw
    · cases ht : w.mcu.task with
      | none =>
        rw [ht] at hw
        obtain rfl := Option.some.inj hw
        exact ⟨rfl, rfl, rfl, rfl, rfl⟩
      | some r =>
        rw [ht] at hw
        obtain rfl := Option.some.inj hw
        exact ⟨rfl, Buttons.pressed_of_task ht, rfl, rfl, rfl⟩
    · cases hw
  | send =>
    obtain ⟨n, -, rfl⟩ := Option.map_eq_some_iff.mp hw
    exact ⟨rfl, rfl, rfl, rfl, rfl⟩
  | lose =>
    simp only [ButtonLink.step] at hw
    split at hw
    · cases hw
    · obtain rfl := Option.some.inj hw
      exact ⟨rfl, rfl, rfl, rfl, rfl⟩
  | receive =>
    simp only [ButtonLink.step] at hw
    split at hw
    · cases hw
    · rename_i m toHost hq
      obtain ⟨hlast, hinvert⟩ := MCUButtons.lastButton_of_handle m w.host
      split at hw
      · rename_i host heq
        obtain rfl := Option.some.inj hw
        rw [heq] at hlast hinvert
        exact ⟨rfl, rfl, rfl, hlast, hinvert⟩
      · rename_i newCount newButtons host heq
        obtain rfl := Option.some.inj hw
        rw [heq] at hlast hinvert
        exact ⟨rfl, rfl, rfl, hlast, hinvert⟩
  | ack =>
    simp only [ButtonLink.step] at hw
    split at hw
    · obtain rfl := Option.some.inj hw
      exact ⟨rfl, Buttons.pressed_of_ack _ w.mcu, rfl, rfl, rfl⟩
    · cases hw
  | gotPipeSignal =>
    simp only [ButtonLink.step] at hw
    split at hw
    · cases hw
    · obtain rfl := Option.some.inj hw
      exact ⟨rfl, rfl, rfl, rfl, rfl⟩

theorem Follows.step {e : ButtonEvent} (h : w.Follows invert) (hroom : w.HasRoom e)
    (hw : w.step e = some w') : w'.Follows invert := by
  cases e with
  | timer pins => exact h.timer hroom hw
  | invoke =>
    unfold ButtonLink.step at hw
    cases hq : w.callbacks with
    | nil =>
      rw [hq] at hw
      cases hw
    | cons b callbacks =>
      rw [hq] at hw
      obtain rfl := Option.some.inj hw
      exact h.invoke
  | wake | task | send | lose | receive | ack | gotPipeSignal =>
    exact h.same (sameButtons_of_step hw (fun _ he => by cases he) (fun he => by cases he))

theorem Tracks.handled_eq {acked seen : Nat} (h : w.Tracks acked seen) (hw : w.Settled) :
    w.handled = w.stored := by
  obtain ⟨hreports, -, -, hasync, hcallbacks, htoMcu⟩ := hw
  have hall := h.reports
  rw [hreports] at hall
  have hlen := List.drop_eq_nil_iff.mp hall.symm
  have hseen : seen = acked := by
    have hsum := h.toMcu
    rw [htoMcu, List.sum_nil] at hsum
    omega
  have hdelivered := h.delivered
  rw [hasync, hcallbacks, List.append_nil, List.append_nil, hseen, List.take_of_length_le hlen]
    at hdelivered
  exact hdelivered

end ButtonLink

/-- In every run in which each change of the debounced state finds room for its report, the host's
`last_button` before `invert` is that state whenever everything is settled. -/
theorem lastButton_eq_pressed {clock restTicks : Int} {retransmitCount invert : UInt8}
    {b mcu : Buttons} (hmcu : b.query clock restTicks retransmitCount invert = some mcu)
    (callbacks : List ButtonCallback) {es : List ButtonEvent} {w : ButtonLink}
    (h : Run (fun w e w' => w.HasRoom e ∧ w.step e = some w')
      (.init mcu ⟨callbacks, invert.toNat, 0, 0⟩) es w) (hsettled : w.Settled) :
    w.host.lastButton ^^^ w.host.invert = w.mcu.pressed.toNat := by
  have hrun := h.mono fun _ _ _ hstep => hstep.2
  obtain ⟨acked, seen, htracks⟩ := hrun.invariant (P := fun w => ∃ acked seen, w.Tracks acked seen)
    ⟨0, 0, ButtonLink.init_tracks hmcu _⟩ fun w e w' ⟨_, _, ht⟩ hstep => ht.step hstep
  have hfollows : w.Follows invert := by
    refine h.invariant (P := ButtonLink.Follows invert) ⟨?_, ?_⟩ ?_
    · have hpressed : mcu.pressed = invert := by
        unfold Buttons.query at hmcu
        dsimp only at hmcu
        split at hmcu
        · cases hmcu
        · obtain rfl := Option.some.inj hmcu
          rfl
      exact hpressed.symm
    · exact (Nat.xor_self _).symm
    · exact fun _ _ _ hw hstep => hw.step hstep.1 hstep.2
  rw [hfollows.lastButton, htracks.handled_eq hsettled, hfollows.pressed, Nat.xor_assoc,
    Nat.xor_self, Nat.xor_zero]

/-- The button is pressed, and the report is acknowledged. -/
def settledEvents : List ButtonEvent :=
  [.timer [true], .timer [true], .task, .send, .receive, .ack, .gotPipeSignal, .invoke]

/-- After a report that has been acknowledged the host knows that the button is pressed. -/
theorem lastButton_eq_pressed_settled : ∃ w : ButtonLink, w.mcu.pressed = 1 ∧
    w.host.lastButton ^^^ w.host.invert = w.mcu.pressed.toNat := by
  have hmcu : oneButton.query 0 500 0 0 = some oneButton := rfl
  obtain ⟨w, hrun, hw⟩ : ∃ w : ButtonLink,
      Run (fun w e w' => w.HasRoom e ∧ w.step e = some w') (.init oneButton ⟨[], 0, 0, 0⟩)
        settledEvents w ∧ decide (w.Settled ∧ w.mcu.pressed = 1) = true :=
    Run.exists_of_allowed (P := fun w : ButtonLink => decide (w.Settled ∧ w.mcu.pressed = 1))
      (by decide +kernel)
  obtain ⟨hsettled, hpressed⟩ := of_decide_eq_true hw
  exact ⟨w, hpressed, lastButton_eq_pressed hmcu [] hrun hsettled⟩

/-- The button is pressed and released until it is pressed for the fifth time, before any report
is sent.  Then all the reports there are get delivered. -/
def nineChanges : List ButtonEvent :=
  (List.range 9).flatMap (fun n => List.replicate 2 (.timer [n % 2 == 0])) ++
    [.task, .send, .receive, .ack] ++ List.replicate 8 .gotPipeSignal ++ List.replicate 8 .invoke

/-- The ninth change finds no room: the button stays pressed, and the host never learns of it. -/
theorem ninth_change_lost : ∃ w : ButtonLink,
    ButtonRun (.init oneButton ⟨[], 0, 0, 0⟩) nineChanges w ∧ w.Settled ∧
      nineChanges.take 18 = nineChanges.take 16 ++ [.timer [true], .timer [true]] ∧
      w.mcu.pressed = 1 ∧ w.host.lastButton ^^^ w.host.invert = 0 := by
  obtain ⟨w, hrun, hw⟩ : ∃ w : ButtonLink,
      ButtonRun (.init oneButton ⟨[], 0, 0, 0⟩) nineChanges w ∧
        decide (w.Settled ∧ w.mcu.pressed = 1 ∧ w.host.lastButton ^^^ w.host.invert = 0) = true :=
    Run.exists_of_any (P := fun w : ButtonLink =>
      decide (w.Settled ∧ w.mcu.pressed = 1 ∧ w.host.lastButton ^^^ w.host.invert = 0))
      (by decide +kernel)
  obtain ⟨hsettled, hpressed, hhost⟩ := of_decide_eq_true hw
  exact ⟨w, hrun, hsettled, rfl, hpressed, hhost⟩

end FlsunT1.Link
