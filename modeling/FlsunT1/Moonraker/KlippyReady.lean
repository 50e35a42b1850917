/-
  Moonraker/KlippyReady.lean --- the initialisation of the connection to klippy
  (moonraker/klippy_connection.py).

  The state of klippy comes with the answer to a poll, and with status updates at any time
  after.  While the connection is initialised a shutdown is not announced where it is
  received; the initialisation announces it after it has sent its own events.
-/
import FlsunT1.Library.Run

set_option autoImplicit false

namespace FlsunT1.Moonraker

open Library

/-! ## The connection -/

/-- The events that the connection sends. -/
inductive ServerEvent
  | klippyIdentified
  | klippyStarted (state : String)
  | klippyReady
  | klippyShutdown
  | klippyDisconnect
  deriving DecidableEq

/-- What is recorded of a run: the events, and that klippy was shut down. -/
inductive Occurrence
  | sent (event : ServerEvent)
  | shutdownReceived
  deriving DecidableEq

/-- Where `_init_klippy_connection` waits.  It is `idle` where there is no task, or where the
task was cancelled, and `done` after it has returned. -/
inductive InitPhase
  | idle
  | sleeping
  | info (sendId : Bool)
  | identified (result : String)
  | initialEndpoints (result : String)
  | subscriptions
  | endpoints
  | started
  | requirements
  | register (method : String) (methods : List String)
  | ready
  | done
  deriving DecidableEq

/-- The connection, with what happened, the latest first. -/
structure KlippyConnection where
  connected : Bool
  identified : Bool
  initializing : Bool
  started : Bool
  state : String
  startupState : String
  phase : InitPhase
  log : List Occurrence

/-- What happens.  `resume` ends the wait of the task, where the poll has the answer `result`:
nothing where it raised an error, or the state, if there is one in it.  `update` is a status
update of `webhooks`. -/
inductive ConnectionEvent
  | connect
  | resume (result : Option (Option String))
  | update (state : Option String)
  | close
  | connectionClosed

namespace KlippyConnection

def init : KlippyConnection :=
  { connected := false, identified := false, initializing := false, started := false
    state := "disconnected", startupState := "", phase := .idle, log := [] }

/-- `self.server.send_event` -/
def sendEvent (s : KlippyConnection) (event : ServerEvent) : KlippyConnection :=
  { s with log := .sent event :: s.log }

/-- The end of `_check_ready` that ends the initialisation. -/
def finish (s : KlippyConnection) : KlippyConnection :=
  { s with initializing := false, phase := .done }

/-- `_check_ready` from `self._state = result["state"]` on. -/
def enterState (s : KlippyConnection) (result : String) : KlippyConnection :=
  if result ≠ "startup" then { s with state := result, phase := .subscriptions }
  else { s with state := result, phase := .sleeping }

/-- The loop that registers the methods, and what follows it. -/
def registerMethods (s : KlippyConnection) : List String → KlippyConnection
  | method :: methods => { s with phase := .register method methods }
  | [] => if s.state = "ready" then { s.sendEvent .klippyReady with phase := .ready } else s.finish

/-- `_init_klippy_connection` and `_check_ready` from one wait to the next. -/
def resume (methods : List String) (s : KlippyConnection) (result : Option (Option String)) :
    Option KlippyConnection :=
  match s.phase with
  | .idle | .done => none
  | .sleeping => some { s with phase := .info !s.identified }
  | .info sendId =>
    match result with
    | none | some none => some { s with phase := .sleeping }
    | some (some result) =>
      if sendId then
        some { { s with identified := true }.sendEvent .klippyIdentified with
          phase := .identified result }
      else some (s.enterState result)
  | .identified result => some { s with phase := .initialEndpoints result }
  | .initialEndpoints result => some (s.enterState result)
  | .subscriptions => some { s with phase := .endpoints }
  | .endpoints =>
    some { s.sendEvent (.klippyStarted s.state) with startupState := s.state, phase := .started }
  | .started =>
    let s := { s with started := true }
    if s.state ≠ "ready" then
      if s.state = "shutdown" ∧ s.startupState ≠ "shutdown" then
        some (s.sendEvent .klippyShutdown).finish
      else some s.finish
    else some { s with phase := .requirements }
  | .requirements => some (s.registerMethods methods)
  | .register _ methods => some (s.registerMethods methods)
  | .ready =>
    if s.state = "shutdown" then some (s.sendEvent .klippyShutdown).finish else some s.finish

/-- `_process_status_update` for `webhooks` with the field `state`. -/
def processState (s : KlippyConnection) (state : String) : KlippyConnection :=
  if state = "shutdown" ∧ s.state ≠ "shutdown" then
    if s.initializing then { s with state := state, log := .shutdownReceived :: s.log }
    else { s with state := state, log := .sent .klippyShutdown :: .shutdownReceived :: s.log }
  else { s with state := state }

/-- One step, for the methods that are registered with klippy. -/
def step (methods : List String) (s : KlippyConnection) :
    ConnectionEvent → Option KlippyConnection
  | .connect =>
    if s.connected then none
    else some { s with connected := true, identified := false, started := false
                       initializing := true, state := "startup", phase := .sleeping }
  | .resume result => s.resume methods result
  | .update none => some s
  | .update (some state) => some (s.processState state)
  | .close =>
    if s.connected then some (if s.phase = .done then s else { s with phase := .idle }) else none
  | .connectionClosed =>
    if s.connected then
      some { { s with connected := false, identified := false, initializing := false
                      started := false, state := "disconnected" }.sendEvent .klippyDisconnect with
        phase := .idle }
    else none

/-! ## Shutdowns and their announcements -/

/-- The occurrence is that `server:klippy_started` was sent. -/
def isStarted : Occurrence → Bool
  | .sent (.klippyStarted _) => true
  | _ => false

/-- How often something happened since `server:klippy_started` was sent. -/
def countStarted (o : Occurrence) (log : List Occurrence) : ℕ :=
  (log.takeWhile fun o => !isStarted o).count o

/-- The transitions to `shutdown` that were received since. -/
def shutdowns (s : KlippyConnection) : ℕ := countStarted .shutdownReceived s.log

/-- The shutdowns that were announced since. -/
def announced (s : KlippyConnection) : ℕ := countStarted (.sent .klippyShutdown) s.log

theorem countStarted_started (o : Occurrence) (state : String) (log : List Occurrence) :
    countStarted o (.sent (.klippyStarted state) :: log) = 0 := rfl

theorem countStarted_cons {o : Occurrence} (o' : Occurrence) (log : List Occurrence)
    (h : isStarted o = false) :
    countStarted o' (o :: log) = countStarted o' log + if o = o' then 1 else 0 := by
  rw [countStarted, List.takeWhile_cons_of_pos (by rw [h]; rfl), List.count_cons, countStarted]
  simp only [beq_iff_eq]

theorem announced_sendEvent_shutdown (s : KlippyConnection) :
    (s.sendEvent .klippyShutdown).announced = s.announced + 1 := countStarted_cons _ _ rfl

theorem shutdowns_sendEvent_shutdown (s : KlippyConnection) :
    (s.sendEvent .klippyShutdown).shutdowns = s.shutdowns := countStarted_cons _ _ rfl

theorem announced_sendEvent_ready (s : KlippyConnection) :
    (s.sendEvent .klippyReady).announced = s.announced := countStarted_cons _ _ rfl

theorem shutdowns_sendEvent_ready (s : KlippyConnection) :
    (s.sendEvent .klippyReady).shutdowns = s.shutdowns := countStarted_cons _ _ rfl

/-- What is announced in each phase: nothing before the initialisation has ended, and one
transition at most is waiting for it. -/
def Counted (s : KlippyConnection) : Prop :=
  match s.phase with
  | .started | .ready => s.announced = 0 ∧ s.shutdowns = if s.state = "shutdown" then 1 else 0
  | .requirements | .register _ _ => s.announced = 0 ∧ s.shutdowns = 0 ∧ s.state ≠ "shutdown"
  | .done => s.announced = s.shutdowns
  | .idle | .sleeping | .info _ | .identified _ | .initialEndpoints _ | .subscriptions
  | .endpoints => True

/-- The invariant, for connections that were not shut down when they started. -/
structure AnnounceInv (s : KlippyConnection) : Prop where
  initializing : s.phase ≠ .idle → s.initializing = decide (s.phase ≠ .done)
  counted : s.startupState ≠ "shutdown" → s.Counted

/-- What a status update may change in each phase. -/
def UpdateCondition (state state' : String) : InitPhase → Prop
  | .started | .ready => state = "shutdown" → state' = "shutdown"
  | .requirements | .register _ _ => state' ≠ "shutdown"
  | .idle | .sleeping | .info _ | .identified _ | .initialEndpoints _ | .subscriptions
  | .endpoints | .done => True

/-- The condition on a step: no shutdown is received while the requirements are verified and
the methods are registered, and none is taken back before it is announced. -/
def AnnounceCondition (s : KlippyConnection) : ConnectionEvent → Prop
  | .update (some state) =>
    s.startupState = "shutdown" ∨ UpdateCondition s.state state s.phase
  | .update none | .connect | .resume _ | .close | .connectionClosed => True

theorem announceInv_init : init.AnnounceInv := ⟨fun h => absurd rfl h, fun _ => trivial⟩

theorem announceInv_finish {s : KlippyConnection}
    (h : s.startupState ≠ "shutdown" → s.announced = s.shutdowns) : s.finish.AnnounceInv :=
  ⟨fun _ => rfl, h⟩

theorem announceInv_enterState {s : KlippyConnection} (hinit : s.initializing = true)
    (result : String) : (s.enterState result).AnnounceInv := by
  rw [enterState]
  split
  · exact ⟨fun _ => hinit, fun _ => trivial⟩
  · exact ⟨fun _ => hinit, fun _ => trivial⟩

theorem announceInv_registerMethods {s : KlippyConnection} (hinit : s.initializing = true)
    (h : s.startupState ≠ "shutdown" →
      s.announced = 0 ∧ s.shutdowns = 0 ∧ s.state ≠ "shutdown") (methods : List String) :
    (s.registerMethods methods).AnnounceInv := by
  cases methods with
  | cons method methods => exact ⟨fun _ => hinit, h⟩
  | nil =>
    rw [registerMethods]
    split
    · refine ⟨fun _ => hinit, fun hstartup => ?_⟩
      obtain ⟨hannounced, hshutdowns, hstate⟩ := h hstartup
      refine ⟨(announced_sendEvent_ready s).trans hannounced, ?_⟩
      exact (shutdowns_sendEvent_ready s).trans (hshutdowns.trans (if_neg hstate).symm)
    · refine announceInv_finish fun hstartup => ?_
      obtain ⟨hannounced, hshutdowns, -⟩ := h hstartup
      rw [hannounced, hshutdowns]

theorem announceInv_resume {methods : List String} {s t : KlippyConnection}
    {result : Option (Option String)} (hs : s.AnnounceInv)
    (hstep : s.resume methods result = some t) : t.AnnounceInv := by
  obtain ⟨hinitializing, hcounted⟩ := hs
  rw [resume] at hstep
  rw [Counted] at hcounted
  have hinit (hidle : s.phase ≠ .idle) (hdone : s.phase ≠ .done) : s.initializing = true :=
    (hinitializing hidle).trans (decide_eq_true hdone)
  cases hphase : s.phase with
  | idle | done =>
    rw [hphase] at hstep
    cases hstep
  | sleeping | identified _ | subscriptions =>
    simp only [hphase, ne_eq, reduceCtorEq, not_false_eq_true, forall_const] at hinit hstep
    rw [← Option.some.inj hstep]
    exact ⟨fun _ => hinit, fun _ => trivial⟩
  | info sendId =>
    simp only [hphase, ne_eq, reduceCtorEq, not_false_eq_true, forall_const] at hinit hstep
    split at hstep
    · rw [← Option.some.inj hstep]
      exact ⟨fun _ => hinit, fun _ => trivial⟩
    · rw [← Option.some.inj hstep]
      exact ⟨fun _ => hinit, fun _ => trivial⟩
    · rename_i state
      split at hstep
      · rw [← Option.some.inj hstep]
        exact ⟨fun _ => hinit, fun _ => trivial⟩
      · rw [← Option.some.inj hstep]
        exact announceInv_enterState hinit state
  | initialEndpoints result =>
    simp only [hphase, ne_eq, reduceCtorEq, not_false_eq_true, forall_const] at hinit hstep
    rw [← Option.some.inj hstep]
    exact announceInv_enterState hinit result
  | endpoints =>
    simp only [hphase, ne_eq, reduceCtorEq, not_false_eq_true, forall_const] at hinit hstep
    rw [← Option.some.inj hstep]
    exact ⟨fun _ => hinit, fun hstartup => ⟨countStarted_started .., (if_neg hstartup).symm⟩⟩
  | started =>
    simp only [hphase, ne_eq, reduceCtorEq, not_false_eq_true, forall_const] at hinit hstep hcounted
    split at hstep
    · split at hstep
      · rename_i hshutdown
        rw [← Option.some.inj hstep]
        refine announceInv_finish fun hstartup => ?_
        obtain ⟨hannounced, hshutdowns⟩ := hcounted hstartup
        rw [announced_sendEvent_shutdown, shutdowns_sendEvent_shutdown]
        show s.announced + 1 = s.shutdowns
        rw [hannounced, hshutdowns, if_pos hshutdown.1]
      · rename_i hshutdown
        rw [← Option.some.inj hstep]
        refine announceInv_finish fun hstartup => ?_
        obtain ⟨hannounced, hshutdowns⟩ := hcounted hstartup
        show s.announced = s.shutdowns
        rw [hannounced, hshutdowns, if_neg fun h => hshutdown ⟨h, hstartup⟩]
    · rename_i hready
      rw [← Option.some.inj hstep]
      refine ⟨fun _ => hinit, fun hstartup => ?_⟩
      obtain ⟨hannounced, hshutdowns⟩ := hcounted hstartup
      have hstate : s.state ≠ "shutdown" := by
        rw [not_not.mp hready]
        decide
      exact ⟨hannounced, hshutdowns.trans (if_neg hstate), hstate⟩
  | requirements | register _ _ =>
    simp only [hphase, ne_eq, reduceCtorEq, not_false_eq_true, forall_const] at hinit hstep hcounted
    rw [← Option.some.inj hstep]
    exact announceInv_registerMethods hinit hcounted _
  | ready =>
    simp only [hphase, ne_eq, reduceCtorEq, not_false_eq_true, forall_const] at hinit hstep hcounted
    split at hstep
    · rename_i hshutdown
      rw [← Option.some.inj hstep]
      refine announceInv_finish fun hstartup => ?_
      obtain ⟨hannounced, hshutdowns⟩ := hcounted hstartup
      rw [announced_sendEvent_shutdown, shutdowns_sendEvent_shutdown, hannounced, hshutdowns,
        if_pos hshutdown]
    · rename_i hshutdown
      rw [← Option.some.inj hstep]
      refine announceInv_finish fun hstartup => ?_
      obtain ⟨hannounced, hshutdowns⟩ := hcounted hstartup
      rw [hannounced, hshutdowns, if_neg hshutdown]

theorem announceInv_processState {s : KlippyConnection} (hs : s.AnnounceInv) {state : String}
    (hcond : s.AnnounceCondition (.update (some state))) : (s.processState state).AnnounceInv := by
  obtain ⟨hinitializing, hcounted⟩ := hs
  have hreceived : countStarted .shutdownReceived (.shutdownReceived :: s.log) = s.shutdowns + 1 :=
    countStarted_cons _ _ rfl
  have hkept : countStarted (.sent .klippyShutdown) (.shutdownReceived :: s.log) = s.announced :=
    countStarted_cons _ _ rfl
  rw [processState]
  split
  · rename_i hshutdown
    obtain ⟨rfl, hstate⟩ := hshutdown
    split
    · rename_i hinit
      refine ⟨hinitializing, fun hstartup => ?_⟩
      have hcounted := hcounted hstartup
      have hcond := hcond.resolve_left hstartup
      cases hphase : s.phase with
      | started | ready =>
        simp only [Counted, hphase, if_neg hstate] at hcounted ⊢
        exact ⟨hkept.trans hcounted.1, hreceived.trans (congrArg Nat.succ hcounted.2)⟩
      | requirements | register _ _ =>
        rw [hphase] at hcond
        exact absurd rfl hcond
      | done =>
        have hdone := hinitializing (by rw [hphase]; exact InitPhase.noConfusion)
        rw [hphase, hinit] at hdone
        cases hdone
      | idle | sleeping | info _ | identified _ | initialEndpoints _ | subscriptions | endpoints =>
        exact trivial
    · rename_i hinit
      refine ⟨hinitializing, fun hstartup => ?_⟩
      have hcounted := hcounted hstartup
      cases hphase : s.phase with
      | done =>
        simp only [Counted, hphase] at hcounted ⊢
        show countStarted _ _ = countStarted _ _
        rw [countStarted_cons _ _ rfl, hkept, countStarted_cons _ _ rfl, hreceived, hcounted]
        rfl
      | started | ready | requirements | register _ _ =>
        exact absurd ((hinitializing (by rw [hphase]; exact InitPhase.noConfusion)).trans
          (by rw [hphase]; rfl)) hinit
      | idle | sleeping | info _ | identified _ | initialEndpoints _ | subscriptions | endpoints =>
        exact trivial
  · rename_i hshutdown
    refine ⟨hinitializing, fun hstartup => ?_⟩
    have hcounted := hcounted hstartup
    have hcond := hcond.resolve_left hstartup
    cases hphase : s.phase with
    | started | ready =>
      simp only [Counted, UpdateCondition, hphase] at hcounted hcond ⊢
      refine ⟨hcounted.1, hcounted.2.trans ?_⟩
      by_cases hstate : s.state = "shutdown"
      · rw [if_pos hstate, if_pos (hcond hstate)]
      · rw [if_neg hstate, if_neg fun h => hshutdown ⟨h, hstate⟩]
    | requirements | register _ _ =>
      simp only [Counted, UpdateCondition, hphase] at hcounted hcond ⊢
      exact ⟨hcounted.1, hcounted.2.1, hcond⟩
    | done =>
      simp only [Counted, hphase] at hcounted ⊢
      exact hcounted
    | idle | sleeping | info _ | identified _ | initialEndpoints _ | subscriptions | endpoints =>
      exact trivial

/-- Every step keeps the counts. -/
theorem announceInv_step {methods : List String} {s t : KlippyConnection} (hs : s.AnnounceInv)
    {e : ConnectionEvent} (hstep : s.step methods e = some t) (hcond : s.AnnounceCondition e) :
    t.AnnounceInv := by
  cases e with
  | connect =>
    rw [step] at hstep
    split at hstep
    · cases hstep
    · rw [← Option.some.inj hstep]
      exact ⟨fun _ => rfl, fun _ => trivial⟩
  | resume result => exact announceInv_resume hs hstep
  | update state =>
    cases state with
    | none =>
      rw [← Option.some.inj hstep]
      exact hs
    | some state =>
      rw [← Option.some.inj hstep]
      exact announceInv_processState hs hcond
  | close =>
    rw [step] at hstep
    split at hstep
    · rw [← Option.some.inj hstep]
      split
      · exact hs
      · exact ⟨fun h => absurd rfl h, fun _ => trivial⟩
    · cases hstep
  | connectionClosed =>
    rw [step] at hstep
    split at hstep
    · rw [← Option.some.inj hstep]
      exact ⟨fun h => absurd rfl h, fun _ => trivial⟩
    · cases hstep

/-- **A shutdown is announced once**: after the initialisation has ended, as many shutdowns
were announced as klippy was shut down since `server:klippy_started`, in every run in which
none comes while the requirements are verified and the methods are registered. -/
theorem announced_eq_shutdowns (methods : List String) {es : List ConnectionEvent}
    {t : KlippyConnection}
    (h : Run (fun s e t => s.step methods e = some t ∧ s.AnnounceCondition e) init es t)
    (hstartup : t.startupState ≠ "shutdown") (hdone : t.phase = .done) :
    t.announced = t.shutdowns := by
  have hinv := h.invariant announceInv_init fun _ _ _ hs hstep =>
    announceInv_step hs hstep.1 hstep.2
  have hcounted := hinv.counted hstartup
  rw [Counted, hdone] at hcounted
  exact hcounted

instance (state state' : String) : (phase : InitPhase) →
    Decidable (UpdateCondition state state' phase)
  | .started | .ready => inferInstanceAs (Decidable (_ → _))
  | .requirements | .register _ _ => inferInstanceAs (Decidable (_ ≠ _))
  | .idle | .sleeping | .info _ | .identified _ | .initialEndpoints _ | .subscriptions
  | .endpoints | .done => inferInstanceAs (Decidable True)

instance (s : KlippyConnection) : (e : ConnectionEvent) → Decidable (s.AnnounceCondition e)
  | .update (some _) => inferInstanceAs (Decidable (_ ∨ _))
  | .update none | .connect | .resume _ | .close | .connectionClosed =>
    inferInstanceAs (Decidable True)

/-- Klippy is ready, and is shut down after the task was resumed so many times more. -/
def shutdownAfter (resumes : ℕ) : List ConnectionEvent :=
  [.connect, .resume none, .resume (some (some "ready"))] ++
    List.replicate (4 + resumes) (.resume none) ++ [.update (some "shutdown")]

/-- The shutdown comes while the handlers of `server:klippy_ready` run. -/
theorem announced_after_ready : ∃ t : KlippyConnection,
    t.shutdowns = 1 ∧ t.announced = t.shutdowns := by
  obtain ⟨t, hrun, ht⟩ := Run.exists_of_any (s := init)
    (f := fun s e => if s.AnnounceCondition e then s.step ["process_gcode_response"] e else none)
    (l := shutdownAfter 3 ++ [.resume none])
    (P := fun t => decide (t.shutdowns = 1 ∧ t.startupState ≠ "shutdown" ∧ t.phase = .done))
    (by decide)
  obtain ⟨hshutdowns, hstartup, hdone⟩ := of_decide_eq_true ht
  refine ⟨t, hshutdowns, announced_eq_shutdowns ["process_gcode_response"]
    (hrun.mono fun s e t hstep => ?_) hstartup hdone⟩
  split at hstep
  · next hcond => exact ⟨hstep, hcond⟩
  · cases hstep

/-- The shutdown comes while the requirements are verified, and is never announced. -/
theorem not_announced_in_requirements : ∃ t : KlippyConnection,
    Run (fun s e t => s.step ["process_gcode_response"] e = some t) init
      (shutdownAfter 1 ++ [.resume none, .resume none]) t ∧
    t.startupState ≠ "shutdown" ∧ t.phase = .done ∧ t.shutdowns = 1 ∧ t.announced = 0 := by
  obtain ⟨t, hrun, ht⟩ := Run.exists_of_any (s := init) (f := step ["process_gcode_response"])
    (l := shutdownAfter 1 ++ [.resume none, .resume none])
    (P := fun t => decide (t.startupState ≠ "shutdown" ∧ t.phase = .done ∧ t.shutdowns = 1 ∧
      t.announced = 0)) (by decide)
  exact ⟨t, hrun, of_decide_eq_true ht⟩

end KlippyConnection

end FlsunT1.Moonraker
