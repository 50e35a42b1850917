/-
  Moonraker/PanelDueOutput.lean --- what is written to the PanelDue
  (moonraker/components/paneldue.py).

  Beside the connection stand the tasks of `_do_send`, and what was sent and what was written since
  the port was opened.
-/
import FlsunT1.Library.Run

set_option autoImplicit false

namespace FlsunT1.Moonraker

open Library

/-! ## The connection -/

/-- A task of `_do_send`: registered, or in `asyncio.sleep`. -/
inductive SendTask
  | scheduled
  | sleeping
  deriving DecidableEq

/-- `SerialConnection`, as far as its output goes. -/
structure SerialConnection where
  fd : Option ℕ
  connected : Bool
  attemptingConnect : Bool
  sendBusy : Bool
  sendBuffer : List UInt8
  tasks : List SendTask
  sent : List UInt8
  written : List UInt8
  deriving DecidableEq

inductive SerialEvent
  | send (data : List UInt8)
  /-- The task with this number goes on, with what its calls of `os.write` come to: a number of
  bytes, or `EBADF` or `EPIPE`.  Where it has more to write after them, the next call fails in
  another way and it sleeps. -/
  | run (i : ℕ) (writes : List (Option ℕ))
  | disconnect (reconnect : Bool)
  /-- `connect` ends, with the port opened or not. -/
  | connect (fd : Option ℕ)
  deriving DecidableEq

namespace SerialConnection

/-- `__init__` -/
def init : SerialConnection where
  fd := none
  connected := false
  attemptingConnect := true
  sendBusy := false
  sendBuffer := []
  tasks := []
  sent := []
  written := []

/-- What `disconnect` does to a connected port. -/
def close (s : SerialConnection) : SerialConnection :=
  if s.connected then { s with fd := none, connected := false, sendBuffer := [] } else s

/-- `disconnect` -/
def disconnect (reconnect : Bool) (s : SerialConnection) : SerialConnection :=
  if reconnect && !s.close.attemptingConnect then { s.close with attemptingConnect := true }
  else s.close

/-- The end of `connect`. -/
def connect (fd : Option ℕ) (s : SerialConnection) : SerialConnection :=
  match fd with
  | some fd =>
    if s.connected then { s with attemptingConnect := false }
    else
      { s with
        fd := some fd
        connected := true
        attemptingConnect := false
        sent := []
        written := [] }
  | none => { s with attemptingConnect := false }

/-- `send` -/
def send (data : List UInt8) (s : SerialConnection) : SerialConnection :=
  let s :=
    { s with
      sendBuffer := s.sendBuffer ++ data
      sent := if s.connected then s.sent ++ data else s.sent }
  if s.sendBusy then s else { s with sendBusy := true, tasks := s.tasks ++ [.scheduled] }

/-- The loop of `_do_send`, and whether it sleeps; `none` where it makes fewer calls. -/
def sendLoop : List (Option ℕ) → SerialConnection → Option (SerialConnection × Bool)
  | writes, s =>
    if s.sendBuffer = [] ∨ s.connected = false then
      if writes = [] then some ({ s with sendBusy := false }, false) else none
    else
      match writes with
      | [] => some (s, true)
      | some (sent + 1) :: writes =>
        sendLoop writes
          { s with
            sendBuffer := s.sendBuffer.drop (sent + 1)
            written := s.written ++ s.sendBuffer.take (sent + 1) }
      | _ :: writes => if writes = [] then some (s.disconnect true, false) else none

/-- What `_do_send` does until it sleeps or ends. -/
def doSend (i : ℕ) (writes : List (Option ℕ)) (s : SerialConnection) : Option SerialConnection :=
  match s.tasks[i]? with
  | none => none
  | some task =>
    if task = .scheduled ∧ s.fd = none then
      if writes = [] then some { s with tasks := s.tasks.eraseIdx i } else none
    else
      (sendLoop writes s).map fun (s, sleeps) =>
        { s with tasks := if sleeps then s.tasks.set i .sleeping else s.tasks.eraseIdx i }

def step (s : SerialConnection) : SerialEvent → Option SerialConnection
  | .send data => some (s.send data)
  | .run i writes => s.doSend i writes
  | .disconnect reconnect => some (s.disconnect reconnect)
  | .connect fd => if s.attemptingConnect then some (s.connect fd) else none

/-! ## What the output promises -/

/-- The flag says whether a task is there, what is left to write has one, and what was written is
what was sent first. -/
structure NeverStuck (s : SerialConnection) : Prop where
  busy : s.sendBusy = true ↔ s.tasks ≠ []
  served : s.connected = true → s.sendBuffer ≠ [] → s.tasks ≠ []
  inOrder : s.written <+: s.sent

/-- Before the step, nothing is at hand that leaves the flag or the buffer behind: a task that
starts finds the port open, no call of `os.write` shows it closed, and it is opened with nothing
left to write. -/
def Undisturbed (s : SerialConnection) : SerialEvent → Prop
  | .send _ => True
  | .run i writes =>
    (s.tasks[i]? = some .scheduled → s.connected = true) ∧ none ∉ writes ∧ some 0 ∉ writes
  | .disconnect _ => True
  | .connect fd => fd ≠ none → s.sendBuffer = []

instance (s : SerialConnection) (e : SerialEvent) : Decidable (s.Undisturbed e) := by
  cases e <;> unfold Undisturbed <;> infer_instance

/-- The run in which the answer to the first request is lost: the task starts before the port is
open, and none is there for what is sent later. -/
theorem stuck_of_send_before_connect :
    ∃ events t, Run (fun s e t => step s e = some t) init events t ∧
      (t.connected = true ∧ t.sendBusy = true ∧ t.sendBuffer ≠ [] ∧ t.tasks = []) := by
  obtain ⟨t, hrun, h⟩ := Run.exists_of_any (f := step) (s := init)
    (P := fun t => decide (t.connected = true ∧ t.sendBusy = true ∧ t.sendBuffer ≠ [] ∧
      t.tasks = []))
    (l := [.send [0x7b], .run 0 [], .connect (some 3), .send [0x7d]]) (by decide)
  exact ⟨_, t, hrun, of_decide_eq_true h⟩

/-- The claim that the output never gets stuck is false. -/
theorem not_neverStuck :
    ¬ ∀ events t, Run (fun s e t => step s e = some t) init events t → NeverStuck t := by
  intro h
  obtain ⟨events, t, hrun, -, hbusy, -, htasks⟩ := stuck_of_send_before_connect
  exact (h events t hrun).busy.mp hbusy htasks

/-! ## Runs in which it holds -/

/-- What holds in every state of an undisturbed run. -/
structure Inv (s : SerialConnection) : Prop where
  open_iff : s.connected = true ↔ s.fd ≠ none
  busy : s.sendBusy = true ↔ s.tasks ≠ []
  single : s.tasks.length ≤ 1
  served : s.connected = true → s.sendBuffer ≠ [] → s.tasks ≠ []
  account : s.connected = true → s.written ++ s.sendBuffer = s.sent
  inOrder : s.written <+: s.sent

theorem Inv.neverStuck {s : SerialConnection} (h : Inv s) : NeverStuck s :=
  ⟨h.busy, h.served, h.inOrder⟩

theorem inv_init : Inv init where
  open_iff := by simp [init]
  busy := by simp [init]
  single := by simp [init]
  served := by simp [init]
  account := by simp [init]
  inOrder := List.prefix_rfl

theorem Inv.send {s : SerialConnection} (h : Inv s) (data : List UInt8) : Inv (s.send data) := by
  have haccount (hc : s.connected = true) :
      s.written ++ (s.sendBuffer ++ data) = if s.connected then s.sent ++ data else s.sent := by
    rw [if_pos hc, ← List.append_assoc, h.account hc]
  have hinOrder : s.written <+: (if s.connected then s.sent ++ data else s.sent) := by
    split
    · exact h.inOrder.trans (List.prefix_append _ _)
    · exact h.inOrder
  unfold SerialConnection.send
  dsimp only
  split
  · rename_i hbusy
    have htasks := h.busy.mp hbusy
    exact ⟨h.open_iff, h.busy, h.single, fun _ _ => htasks, haccount, hinOrder⟩
  · rename_i hbusy
    have htasks : s.tasks = [] := by
      by_contra hne
      exact hbusy (h.busy.mpr hne)
    refine ⟨h.open_iff, ?_, ?_, ?_, haccount, hinOrder⟩
    all_goals simp [htasks]

theorem Inv.close {s : SerialConnection} (h : Inv s) : Inv s.close := by
  unfold SerialConnection.close
  split
  · exact ⟨by simp, h.busy, h.single, by simp, by simp, h.inOrder⟩
  · exact h

theorem Inv.disconnect {s : SerialConnection} (h : Inv s) (reconnect : Bool) :
    Inv (s.disconnect reconnect) := by
  have hclosed := h.close
  unfold SerialConnection.disconnect
  split
  · exact ⟨hclosed.open_iff, hclosed.busy, hclosed.single, hclosed.served, hclosed.account,
      hclosed.inOrder⟩
  · exact hclosed

theorem Inv.connect {s : SerialConnection} (h : Inv s) {fd : Option ℕ}
    (hempty : fd ≠ none → s.sendBuffer = []) : Inv (s.connect fd) := by
  cases fd with
  | none => exact ⟨h.open_iff, h.busy, h.single, h.served, h.account, h.inOrder⟩
  | some fd =>
    unfold SerialConnection.connect
    dsimp only
    split
    · exact ⟨h.open_iff, h.busy, h.single, h.served, h.account, h.inOrder⟩
    · have hbuffer := hempty (Option.some_ne_none fd)
      exact ⟨by simp, h.busy, h.single, fun _ hne => absurd hbuffer hne,
        fun _ => by simp [hbuffer], List.prefix_rfl⟩

/-- What the loop leaves, where no call shows the port closed: the account is kept, and the flag
is cleared where it ends, with nothing left to write while the port is open. -/
theorem sendLoop_inv {writes : List (Option ℕ)} (hnone : none ∉ writes) (hzero : some 0 ∉ writes) :
    ∀ {s t : SerialConnection} {sleeps : Bool}, Inv s → s.tasks ≠ [] →
      sendLoop writes s = some (t, sleeps) →
        ∃ buffer written, (if sleeps then t = { s with sendBuffer := buffer, written := written }
            else t = { s with sendBuffer := buffer, written := written, sendBusy := false } ∧
              (s.connected = true → buffer = [])) ∧
          Inv { s with sendBuffer := buffer, written := written } := by
  induction writes with
  | nil =>
    intro s t sleeps h _ hloop
    unfold sendLoop at hloop
    split at hloop
    · rename_i hend
      obtain ⟨rfl, rfl⟩ := Prod.mk.inj (Option.some.inj hloop)
      refine ⟨s.sendBuffer, s.written, ⟨rfl, fun hc => ?_⟩, h⟩
      exact hend.resolve_right (by simp [hc])
    · obtain ⟨rfl, rfl⟩ := Prod.mk.inj (Option.some.inj hloop)
      exact ⟨s.sendBuffer, s.written, rfl, h⟩
  | cons write writes ih =>
    intro s t sleeps h htasks hloop
    unfold sendLoop at hloop
    split at hloop
    · simp at hloop
    · cases write with
      | none => simp at hnone
      | some count =>
        cases count with
        | zero => simp at hzero
        | succ count =>
          rename_i hgoes
          have hc : s.connected = true := by
            simpa using (not_or.mp hgoes).2
          have haccount : s.written ++ s.sendBuffer.take (count + 1) ++
              s.sendBuffer.drop (count + 1) = s.sent := by
            rw [List.append_assoc, List.take_append_drop, h.account hc]
          have hnext : Inv
              { s with
                sendBuffer := s.sendBuffer.drop (count + 1)
                written := s.written ++ s.sendBuffer.take (count + 1) } :=
            ⟨h.open_iff, h.busy, h.single, fun _ _ => htasks, fun _ => haccount,
              ⟨_, haccount⟩⟩
          obtain ⟨buffer, written, hleft, hinv⟩ :=
            ih (fun hmem => hnone (List.mem_cons_of_mem _ hmem))
              (fun hmem => hzero (List.mem_cons_of_mem _ hmem)) hnext htasks hloop
          exact ⟨buffer, written, hleft, hinv⟩

theorem Inv.doSend {s t : SerialConnection} (h : Inv s) {i : ℕ} {writes : List (Option ℕ)}
    (hcond : s.Undisturbed (.run i writes)) (hstep : s.doSend i writes = some t) : Inv t := by
  obtain ⟨hstart, hnone, hzero⟩ := hcond
  unfold SerialConnection.doSend at hstep
  cases htask : s.tasks[i]? with
  | none => simp [htask] at hstep
  | some task =>
    obtain ⟨hi, -⟩ := List.getElem?_eq_some_iff.mp htask
    have htasks : s.tasks ≠ [] := List.ne_nil_of_length_pos (Nat.zero_lt_of_lt hi)
    have hsingle := h.single
    have hone : s.tasks.length = 1 := by omega
    obtain ⟨only, honly⟩ := List.length_eq_one_iff.mp hone
    obtain rfl : i = 0 := by omega
    have hassert : ¬ (task = .scheduled ∧ s.fd = none) := by
      rintro ⟨rfl, hfd⟩
      exact h.open_iff.mp (hstart htask) hfd
    rw [htask] at hstep
    dsimp only at hstep
    rw [if_neg hassert] at hstep
    obtain ⟨⟨u, sleeps⟩, hloop, rfl⟩ := Option.map_eq_some_iff.mp hstep
    obtain ⟨buffer, written, hleft, hinv⟩ := sendLoop_inv hnone hzero h htasks hloop
    cases sleeps with
    | true =>
      obtain rfl := hleft
      exact ⟨hinv.open_iff, by simpa [honly] using hinv.busy, by simp [honly],
        by simp [honly], hinv.account, hinv.inOrder⟩
    | false =>
      obtain ⟨rfl, hempty⟩ := hleft
      exact ⟨hinv.open_iff, by simp [honly], by simp [honly],
        fun hc hne => absurd (hempty hc) hne, hinv.account, hinv.inOrder⟩

theorem Inv.step {s t : SerialConnection} {e : SerialEvent} (h : Inv s) (hcond : s.Undisturbed e)
    (hstep : s.step e = some t) : Inv t := by
  cases e with
  | send data =>
    obtain rfl := Option.some.inj hstep
    exact h.send data
  | run i writes => exact h.doSend hcond hstep
  | disconnect reconnect =>
    obtain rfl := Option.some.inj hstep
    exact h.disconnect reconnect
  | connect fd =>
    unfold SerialConnection.step at hstep
    dsimp only at hstep
    split at hstep
    · obtain rfl := Option.some.inj hstep
      exact h.connect hcond
    · cases hstep

/-- Undisturbed, the output never gets stuck. -/
theorem neverStuck_of_undisturbed {events : List SerialEvent} {t : SerialConnection}
    (hrun : Run (fun s e t => s.Undisturbed e ∧ s.step e = some t) init events t) :
    NeverStuck t := by
  have hinv : Inv t := hrun.invariant inv_init fun s e t h hs => h.step hs.1 hs.2
  exact hinv.neverStuck

/-- A run with partial writes, a disconnect while the task sleeps and a reconnect. -/
theorem neverStuck_of_undisturbed_reconnect :
    ∃ events t, Run (fun s e t => s.Undisturbed e ∧ s.step e = some t) init events t ∧
      t.written = [0x7d] ∧ NeverStuck t := by
  obtain ⟨t, hrun, hwritten⟩ := Run.exists_of_allowed (f := step) (C := Undisturbed) (s := init)
    (P := fun t => decide (t.written = [0x7d]))
    (l := [.connect (some 3), .send [0x7b, 0x7c], .run 0 [some 1], .disconnect true, .run 0 [],
      .connect (some 4), .send [0x7d, 0x7e], .run 0 [some 1]]) (by decide)
  exact ⟨_, t, hrun, of_decide_eq_true hwritten, neverStuck_of_undisturbed hrun⟩

end SerialConnection

end FlsunT1.Moonraker
