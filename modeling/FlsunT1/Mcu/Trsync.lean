/-
  Mcu/Trsync.lean --- the dispatch of triggers in the firmware (trsync.c).

  Source: klipper/src/trsync.c, the trigger calls of endstop.c and the signals of stepper.c.
  Each event runs with interrupts disabled.  The loops over the signals follow the `next`
  pointers and are given fuel; `none` is a call of a null pointer or the end of the fuel.

  `history` notes, for each trsync, what became of its signals since it was last cleared.
-/
import FlsunT1.Library.Fuel
import FlsunT1.Library.LinkedList
import FlsunT1.Library.Run
import FlsunT1.Mcu.Stepper
import Mathlib.Data.List.FinRange

set_option autoImplicit false

namespace FlsunT1.Mcu

open Library

/-! ## The objects -/

/-- The functions that are registered as a `trsync_callback_t`. -/
inductive TrsyncCallback
  | stepperStop
  deriving DecidableEq

/-- `struct trsync`; the two `Pending` fields say whether a timer is on the timer list. -/
structure Trsync (S : Type) where
  reportWaketime : UInt32
  reportPending : Bool
  expireWaketime : UInt32
  expirePending : Bool
  reportTicks : UInt32
  signals : Option S
  /-- `TSF_CAN_TRIGGER` -/
  canTrigger : Bool
  /-- `TSF_REPORT` -/
  report : Bool
  triggerReason : UInt8
  expireReason : UInt8

/-- The message `trsync_state`. -/
structure TrsyncState (n : ℕ) where
  oid : Fin n
  canTrigger : Bool
  triggerReason : UInt8
  clock : UInt32
  deriving DecidableEq

/-- What happens to a trsync between two calls of `trsync_clear`. -/
inductive SyncRecord (S : Type)
  /-- a signal is added -/
  | registered (s : S)
  /-- a trigger takes effect -/
  | triggered (reason : UInt8)
  /-- a signal is called -/
  | called (s : S) (reason : UInt8)
  deriving DecidableEq

/-- `n` trsyncs, and the steppers `S` with their `stop_signal`s, whose fields are `next` and
`func`. -/
structure TrsyncWorld (n : ℕ) (S : Type) where
  trsync : Fin n → Trsync S
  next : S → Option S
  func : S → Option TrsyncCallback
  steppers : S → Stepper
  sent : List (TrsyncState n)
  history : Fin n → List (SyncRecord S)

inductive TrsyncEvent (n : ℕ) (S : Type)
  /-- `trsync_start` -/
  | start (t : Fin n) (reportClock reportTicks expireReason : UInt32)
  /-- `stepper_stop_on_trigger` -/
  | stopOnTrigger (s : S) (t : Fin n)
  /-- `trsync_set_timeout` -/
  | setTimeout (t : Fin n) (clock : UInt32)
  /-- `trsync_trigger` -/
  | trigger (t : Fin n) (reason : UInt32)
  /-- the timer `expire_time` -/
  | expire (t : Fin n)
  /-- the timer `report_time` -/
  | reportTimer (t : Fin n)
  /-- an endstop calls `trsync_do_trigger` -/
  | endstop (t : Fin n) (reason : UInt8)
  /-- `trsync_task` reaches a trsync -/
  | task (t : Fin n) (time : UInt32)
  | shutdown

namespace TrsyncWorld

variable {n : ℕ} {S : Type} [DecidableEq S]

def setTrsync (t : Fin n) (ts : Trsync S) (w : TrsyncWorld n S) : TrsyncWorld n S :=
  { w with trsync := Function.update w.trsync t ts }

def note (t : Fin n) (r : SyncRecord S) (w : TrsyncWorld n S) : TrsyncWorld n S :=
  { w with history := Function.update w.history t (w.history t ++ [r]) }

/-- `tss->next = NULL; tss->func = NULL` -/
def dropSignal (s : S) (w : TrsyncWorld n S) : TrsyncWorld n S :=
  { w with next := Function.update w.next s none, func := Function.update w.func s none }

/-- `func(tss, reason)`, where `stepper_stop` is the only function. -/
def callSignal (b : StepperBuild) (t : Fin n) (func : Option TrsyncCallback) (s : S)
    (reason : UInt8) (w : TrsyncWorld n S) : Option (TrsyncWorld n S) :=
  match func with
  | none => none
  | some .stepperStop =>
    some { w.note t (.called s reason) with
      steppers := Function.update w.steppers s (stepperStop b (w.steppers s)) }

/-! ## The functions -/

/-- The loop of `trsync_do_trigger`. -/
def dispatchSignals (b : StepperBuild) (t : Fin n) (reason : UInt8) :
    ℕ → TrsyncWorld n S → Option (TrsyncWorld n S)
  | 0, _ => none
  | fuel + 1, w =>
    match (w.trsync t).signals with
    | none => some w
    | some tss =>
      let popped := (w.setTrsync t { w.trsync t with signals := w.next tss }).dropSignal tss
      (popped.callSignal b t (w.func tss) tss reason).bind (dispatchSignals b t reason fuel)

/-- `trsync_do_trigger` -/
def trsyncDoTrigger (b : StepperBuild) (fuel : ℕ) (t : Fin n) (reason : UInt8)
    (w : TrsyncWorld n S) : Option (TrsyncWorld n S) :=
  if ¬(w.trsync t).canTrigger then some w
  else
    let ts := { w.trsync t with triggerReason := reason, canTrigger := false, report := true }
    dispatchSignals b t reason fuel ((w.setTrsync t ts).note t (.triggered reason))

/-- The loop of `trsync_clear`. -/
def clearSignals : ℕ → Option S → TrsyncWorld n S → Option (TrsyncWorld n S)
  | 0, _, _ => none
  | _ + 1, none, w => some w
  | fuel + 1, some tss, w => clearSignals fuel (w.next tss) (w.dropSignal tss)

/-- What `trsync_clear` leaves in a trsync. -/
def clearedTrsync (ts : Trsync S) : Trsync S :=
  { ts with
    reportPending := false
    expirePending := false
    signals := none
    canTrigger := false
    report := false
    triggerReason := 0
    expireReason := 0 }

/-- `trsync_clear` -/
def trsyncClear (fuel : ℕ) (t : Fin n) (w : TrsyncWorld n S) : Option (TrsyncWorld n S) :=
  (clearSignals fuel (w.trsync t).signals w).map fun w =>
    { w.setTrsync t (clearedTrsync (w.trsync t)) with
      history := Function.update w.history t [] }

/-- `stepper_shutdown`, then `trsync_shutdown` -/
def runShutdown (b : StepperBuild) (fuel : ℕ) (w : TrsyncWorld n S) : Option (TrsyncWorld n S) :=
  (List.finRange n).foldlM (fun w t => trsyncClear fuel t w)
    { w with steppers := fun s => stepperStop b (w.steppers s) }

/-- `trsync_add_signal` -/
def trsyncAddSignal (b : StepperBuild) (fuel : ℕ) (t : Fin n) (tss : S)
    (func : Option TrsyncCallback) (w : TrsyncWorld n S) : Option (TrsyncWorld n S) :=
  if (w.func tss).isSome ∨ func.isNone then w.runShutdown b fuel
  else
    some ({ w with
      func := Function.update w.func tss func
      next := Function.update w.next tss (w.trsync t).signals
      trsync := Function.update w.trsync t { w.trsync t with signals := some tss } }.note t
        (.registered tss))

/-- `trsync_report` -/
def trsyncReport (t : Fin n) (canTrigger : Bool) (reason : UInt8) (clock : UInt32)
    (w : TrsyncWorld n S) : TrsyncWorld n S :=
  { w with sent := w.sent ++ [⟨t, canTrigger, reason, clock⟩] }

/-- `command_trsync_start` behind `trsync_clear` -/
def startTrsync (t : Fin n) (reportClock reportTicks expireReason : UInt32)
    (w : TrsyncWorld n S) : TrsyncWorld n S :=
  w.setTrsync t { w.trsync t with
    canTrigger := true
    reportWaketime := reportClock
    reportTicks := reportTicks
    reportPending := reportTicks != 0
    expireReason := expireReason.toUInt8 }

/-- `command_trsync_set_timeout` -/
def trsyncSetTimeout (t : Fin n) (clock : UInt32) (w : TrsyncWorld n S) : TrsyncWorld n S :=
  if (w.trsync t).canTrigger then
    w.setTrsync t { w.trsync t with expireWaketime := clock, expirePending := true }
  else w

/-- `command_trsync_trigger` behind `trsync_do_trigger` -/
def finishTrigger (t : Fin n) (w : TrsyncWorld n S) : TrsyncWorld n S :=
  (w.setTrsync t { w.trsync t with
    reportPending := false
    expirePending := false
    canTrigger := false
    report := false }).trsyncReport t false (w.trsync t).triggerReason 0

/-- The loop body of `trsync_task` -/
def taskTrsync (t : Fin n) (time : UInt32) (w : TrsyncWorld n S) : TrsyncWorld n S :=
  if ¬(w.trsync t).report then w
  else
    (w.setTrsync t { w.trsync t with report := false }).trsyncReport t (w.trsync t).canTrigger
      (w.trsync t).triggerReason time

/-- `trsync_report_event` -/
def trsyncReportEvent (t : Fin n) (w : TrsyncWorld n S) : TrsyncWorld n S :=
  w.setTrsync t { w.trsync t with
    report := true
    reportWaketime := (w.trsync t).reportWaketime + (w.trsync t).reportTicks }

/-- A timer can only run while it is on the timer list. -/
def Enabled (w : TrsyncWorld n S) : TrsyncEvent n S → Prop
  | .expire t => (w.trsync t).expirePending = true
  | .reportTimer t => (w.trsync t).reportPending = true
  | _ => True

instance (w : TrsyncWorld n S) : (e : TrsyncEvent n S) → Decidable (w.Enabled e)
  | .expire _ | .reportTimer _ => inferInstanceAs (Decidable (_ = _))
  | .start .. | .stopOnTrigger .. | .setTimeout .. | .trigger .. | .endstop .. | .task ..
  | .shutdown => inferInstanceAs (Decidable True)

def apply (b : StepperBuild) (fuel : ℕ) (w : TrsyncWorld n S) :
    TrsyncEvent n S → Option (TrsyncWorld n S)
  | .start t reportClock reportTicks expireReason =>
    (w.trsyncClear fuel t).map (startTrsync t reportClock reportTicks expireReason)
  | .stopOnTrigger s t => w.trsyncAddSignal b fuel t s (some .stepperStop)
  | .setTimeout t clock => some (w.trsyncSetTimeout t clock)
  | .trigger t reason => (w.trsyncDoTrigger b fuel t reason.toUInt8).map (finishTrigger t)
  | .expire t =>
    (w.setTrsync t { w.trsync t with expirePending := false }).trsyncDoTrigger b fuel t
      (w.trsync t).expireReason
  | .reportTimer t => some (w.trsyncReportEvent t)
  | .endstop t reason => w.trsyncDoTrigger b fuel t reason
  | .task t time => some (w.taskTrsync t time)
  | .shutdown => w.runShutdown b fuel

/-- One event, with as much fuel as it needs. -/
def Step (b : StepperBuild) (w : TrsyncWorld n S) (e : TrsyncEvent n S) (w' : TrsyncWorld n S) :
    Prop :=
  w.Enabled e ∧ ∃ fuel, w.apply b fuel e = some w'

/-- The objects behind `config_trsync` and `config_stepper`, all zero but the steppers. -/
def configured (steppers : S → Stepper) : TrsyncWorld n S where
  trsync _ := ⟨0, false, 0, false, 0, none, false, false, 0, 0⟩
  next _ := none
  func _ := none
  steppers := steppers
  sent := []
  history _ := []

/-! ## The lists of signals -/

variable {b : StepperBuild} {w w' : TrsyncWorld n S} {L : Fin n → List S} {t : Fin n} {s : S}
  {l : List S} {reason : UInt8}

/-- The signal `s` is on the list of the trsync `t`. -/
def Listed (w : TrsyncWorld n S) (t : Fin n) (s : S) : Prop :=
  ∃ head, (w.trsync t).signals = some head ∧
    Relation.ReflTransGen (fun x y => w.next x = some y) head s

/-- The lists are apart, and the signals on them are those with a function. -/
structure SignalLists (heads : Fin n → Option S) (next : S → Option S)
    (func : S → Option TrsyncCallback) (L : Fin n → List S) : Prop where
  lists : LinkedLists heads next L
  active : ∀ s, func s = some .stepperStop ↔ ∃ t, s ∈ L t

theorem SignalLists.pop {heads : Fin n → Option S} {next : S → Option S}
    {func : S → Option TrsyncCallback} (h : SignalLists heads next func L) (ht : L t = s :: l) :
    SignalLists (Function.update heads t (next s)) (Function.update next s none)
      (Function.update func s none) (Function.update L t l) where
  lists := h.lists.pop ht
  active x := by
    simp only [h.lists.mem_pop ht]
    by_cases hx : x = s
    · rw [hx, Function.update_self]
      refine iff_of_false (fun hw => by cases hw) ?_
      rintro ⟨_, hne, _⟩
      exact hne rfl
    · rw [Function.update_of_ne hx, h.active x]
      simp only [ne_eq, hx, not_false_eq_true, true_and]

/-- `L` has the lists of signals. -/
def Lists (w : TrsyncWorld n S) (L : Fin n → List S) : Prop :=
  SignalLists (fun t => (w.trsync t).signals) w.next w.func L

omit [DecidableEq S] in
theorem Lists.listed_iff (h : w.Lists L) : w.Listed t s ↔ s ∈ L t :=
  h.lists.reaches_iff

omit [DecidableEq S] in
theorem update_signals (signals : Option S) :
    (fun t' => (Function.update w.trsync t { w.trsync t with signals := signals } t').signals) =
      Function.update (fun t' => (w.trsync t').signals) t signals := by
  funext t'
  by_cases heq : t' = t
  · rw [heq, Function.update_self, Function.update_self]
  · rw [Function.update_of_ne heq, Function.update_of_ne heq]

/-- The dispatch calls the signals of the list one after another and takes them off. -/
theorem dispatchSignals_computes (h : w.Lists L) (hl : L t = l) :
    ∃ w', Computes (fun fuel => dispatchSignals b t reason fuel w) w' ∧
      w'.Lists (Function.update L t []) ∧
      w'.trsync = Function.update w.trsync t { w.trsync t with signals := none } ∧
      w'.history = Function.update w.history t (w.history t ++ l.map (.called · reason)) := by
  induction l generalizing w L with
  | nil =>
    have hnone : (w.trsync t).signals = none := by
      have hhead := h.lists.head t
      rwa [hl] at hhead
    refine ⟨w, Computes.succ rfl (fun fuel => ?_) (.pure w), ?_, ?_, ?_⟩
    · rw [dispatchSignals, hnone]
    · rw [← hl, Function.update_eq_self]
      exact h
    · have heta : { w.trsync t with signals := none } = w.trsync t := by
        rw [← hnone]
      rw [heta, Function.update_eq_self]
    · rw [List.map_nil, List.append_nil, Function.update_eq_self]
  | cons tss rest ih =>
    have hhead : (w.trsync t).signals = some tss := by
      have hhead := h.lists.head t
      rwa [hl] at hhead
    have hfunc : w.func tss = some .stepperStop :=
      (h.active tss).mpr ⟨t, by rw [hl]; exact List.mem_cons_self⟩
    let popped := (w.setTrsync t { w.trsync t with signals := w.next tss }).dropSignal tss
    let called : TrsyncWorld n S :=
      { popped.note t (.called tss reason) with
        steppers := Function.update popped.steppers tss (stepperStop b (popped.steppers tss)) }
    have hlists : called.Lists (Function.update L t rest) := by
      have hpop := SignalLists.pop h hl
      rw [← update_signals] at hpop
      exact hpop
    obtain ⟨w', hcomputes, hlists', htrsync, hhistory⟩ := ih hlists (Function.update_self ..)
    refine ⟨w', Computes.succ rfl (fun fuel => ?_) hcomputes, ?_, ?_, ?_⟩
    · rw [dispatchSignals, hhead]
      dsimp only
      rw [hfunc]
      rfl
    · rwa [Function.update_idem] at hlists'
    · have hcalled : called.trsync =
          Function.update w.trsync t { w.trsync t with signals := w.next tss } := rfl
      rw [htrsync, hcalled, Function.update_idem, Function.update_self]
    · have hcalled : called.history =
          Function.update w.history t (w.history t ++ [.called tss reason]) := rfl
      rw [hhistory, hcalled, Function.update_idem, Function.update_self, List.append_assoc,
        List.map_cons, List.singleton_append]

theorem clearSignals_computes {heads : Fin n → Option S}
    (h : SignalLists heads w.next w.func L) (hl : L t = l) :
    ∃ w', Computes (fun fuel => clearSignals fuel (heads t) w) w' ∧
      SignalLists (Function.update heads t none) w'.next w'.func (Function.update L t []) ∧
      w'.trsync = w.trsync ∧ w'.history = w.history := by
  induction l generalizing w L heads with
  | nil =>
    have hnone : heads t = none := by
      have hhead := h.lists.head t
      rwa [hl] at hhead
    refine ⟨w, Computes.succ rfl (fun fuel => ?_) (.pure w), ?_, rfl, rfl⟩
    · rw [hnone, clearSignals]
    · rw [← hl, Function.update_eq_self, ← hnone, Function.update_eq_self]
      exact h
  | cons tss rest ih =>
    have hhead : heads t = some tss := by
      have hhead := h.lists.head t
      rwa [hl] at hhead
    have hlists : SignalLists (Function.update heads t (w.next tss)) (w.dropSignal tss).next
        (w.dropSignal tss).func (Function.update L t rest) := h.pop hl
    obtain ⟨w', hcomputes, hlists', htrsync, hhistory⟩ := ih hlists (Function.update_self ..)
    rw [Function.update_self] at hcomputes
    refine ⟨w', Computes.succ rfl (fun fuel => ?_) hcomputes, ?_, htrsync, hhistory⟩
    · rw [hhead, clearSignals]
    · rwa [Function.update_idem, Function.update_idem] at hlists'

/-! ## The history of a trsync -/

/-- Since the last clear signals were registered; then maybe one trigger took effect, and called
each of them once with its reason, which is kept. -/
inductive Epoch (ts : Trsync S) (l : List S) (h : List (SyncRecord S)) : Prop
  | waiting (regs : List S) (hl : l = regs.reverse) (hh : h = regs.map .registered)
  | triggered (regs late : List S) (hcan : ts.canTrigger = false) (hnodup : regs.Nodup)
      (hl : l = late.reverse)
      (hh : h = regs.map .registered ++ .triggered ts.triggerReason ::
        regs.reverse.map (.called · ts.triggerReason) ++ late.map .registered)

omit [DecidableEq S] in
theorem Epoch.registered {ts : Trsync S} {h : List (SyncRecord S)} (hepoch : Epoch ts l h)
    (signals : Option S) :
    Epoch { ts with signals := signals } (s :: l) (h ++ [.registered s]) := by
  cases hepoch with
  | waiting regs hl hh =>
    refine .waiting (regs ++ [s]) ?_ ?_
    · rw [hl, List.reverse_append, List.reverse_singleton, List.singleton_append]
    · rw [hh, List.map_append, List.map_singleton]
  | triggered regs late hcan hnodup hl hh =>
    refine .triggered regs (late ++ [s]) hcan hnodup ?_ ?_
    · rw [hl, List.reverse_append, List.reverse_singleton, List.singleton_append]
    · rw [hh, @List.map_append _ _ _ late, List.map_singleton, List.append_assoc _ _ [_]]

omit [DecidableEq S] in
theorem Epoch.of_canTrigger {ts : Trsync S} {h : List (SyncRecord S)} (hepoch : Epoch ts l h)
    (hcan : ts.canTrigger = true) : h = l.reverse.map .registered := by
  cases hepoch with
  | waiting regs hl hh => rw [hl, List.reverse_reverse, hh]
  | triggered _ _ hcan' =>
    rw [hcan] at hcan'
    cases hcan'

/-- The invariant of the trsyncs. -/
def Synced (w : TrsyncWorld n S) : Prop :=
  ∃ L, w.Lists L ∧ ∀ t, Epoch (w.trsync t) (L t) (w.history t)

omit [DecidableEq S] in
theorem Synced.setTrsync (h : w.Synced) {ts : Trsync S}
    (hsignals : ts.signals = (w.trsync t).signals)
    (hreason : ts.triggerReason = (w.trsync t).triggerReason)
    (hcan : (w.trsync t).canTrigger = false → ts.canTrigger = false) :
    (w.setTrsync t ts).Synced := by
  obtain ⟨L, hlists, hepoch⟩ := h
  refine ⟨L, ?_, fun t' => ?_⟩
  · have hkeep : (fun t' => (Function.update w.trsync t ts t').signals) =
        fun t' => (w.trsync t').signals := by
      funext t'
      by_cases heq : t' = t
      · rw [heq, Function.update_self, hsignals]
      · rw [Function.update_of_ne heq]
    show SignalLists (fun t' => (Function.update w.trsync t ts t').signals) _ _ _
    rw [hkeep]
    exact hlists
  · show Epoch (Function.update w.trsync t ts t') (L t') (w.history t')
    by_cases heq : t' = t
    · rw [heq, Function.update_self]
      cases hepoch t with
      | waiting regs hl hh => exact .waiting regs hl hh
      | triggered regs late hcan' hnodup hl hh =>
        refine .triggered regs late (hcan hcan') hnodup hl ?_
        rw [hh, hreason]
    · rw [Function.update_of_ne heq]
      exact hepoch t'

omit [DecidableEq S] in
theorem synced_configured (steppers : S → Stepper) :
    (configured steppers : TrsyncWorld n S).Synced := by
  refine ⟨fun _ => [], ⟨⟨fun _ => rfl, fun _ => .nil, fun _ => List.nodup_nil, ?_⟩, fun s => ?_⟩,
    fun t => .waiting [] rfl rfl⟩
  · intro i j x hx
    cases hx
  · refine iff_of_false (fun h => by cases h) ?_
    rintro ⟨_, h⟩
    cases h

/-! ## What the events do -/

/-- `trsync_clear` ends. -/
theorem Synced.clear (h : w.Synced) (t : Fin n) :
    ∃ w', Computes (fun fuel => w.trsyncClear fuel t) w' ∧ w'.Synced ∧ w'.history t = [] := by
  obtain ⟨L, hlists, hepoch⟩ := h
  obtain ⟨w', hcomputes, hlists', htrsync, hhistory⟩ :=
    clearSignals_computes (t := t) hlists rfl
  refine ⟨_, hcomputes.map _, ⟨Function.update L t [], ?_, fun t' => ?_⟩,
    Function.update_self ..⟩
  · have hheads : (fun t' => (Function.update w'.trsync t (clearedTrsync (w'.trsync t)) t').signals)
        = Function.update (fun t' => (w.trsync t').signals) t none := by
      rw [htrsync]
      funext t'
      by_cases heq : t' = t
      · rw [heq, Function.update_self, Function.update_self]
        rfl
      · rw [Function.update_of_ne heq, Function.update_of_ne heq]
    show SignalLists (fun t' => (Function.update w'.trsync t _ t').signals) _ _ _
    rw [hheads]
    exact hlists'
  · show Epoch (Function.update w'.trsync t _ t') (Function.update L t [] t')
      (Function.update w'.history t [] t')
    by_cases heq : t' = t
    · rw [heq, Function.update_self, Function.update_self, Function.update_self]
      exact .waiting [] rfl rfl
    · rw [Function.update_of_ne heq, Function.update_of_ne heq, Function.update_of_ne heq,
        htrsync, hhistory]
      exact hepoch t'

theorem Synced.clearAll (h : w.Synced) (ts : List (Fin n)) :
    ∃ w', Computes (fun fuel => ts.foldlM (fun w t => trsyncClear fuel t w) w) w' ∧
      w'.Synced := by
  induction ts generalizing w with
  | nil => exact ⟨w, .pure w, h⟩
  | cons t ts ih =>
    obtain ⟨w₁, hcomputes, h₁, -⟩ := h.clear t
    obtain ⟨w₂, hrest, h₂⟩ := ih h₁
    refine ⟨w₂, ?_, h₂⟩
    simp only [List.foldlM_cons]
    exact hcomputes.bind hrest

theorem Synced.shutdown (h : w.Synced) :
    ∃ w', Computes (fun fuel => w.runShutdown b fuel) w' ∧ w'.Synced :=
  Synced.clearAll (w := { w with steppers := fun s => stepperStop b (w.steppers s) }) h _

/-- A signal that is on no list is put on one; any other ends in a shutdown. -/
theorem Synced.addSignal (h : w.Synced) :
    ∃ w', Computes (fun fuel => w.trsyncAddSignal b fuel t s (some .stepperStop)) w' ∧
      w'.Synced := by
  cases hfunc : w.func s with
  | some f =>
    obtain ⟨w', hcomputes, h'⟩ := h.shutdown (b := b)
    refine ⟨w', ?_, h'⟩
    have hadd : ∀ fuel,
        w.trsyncAddSignal b fuel t s (some .stepperStop) = w.runShutdown b fuel := by
      intro fuel
      rw [trsyncAddSignal, if_pos (Or.inl (by rw [hfunc, Option.isSome_some]))]
    simp only [hadd]
    exact hcomputes
  | none =>
    obtain ⟨L, hlists, hepoch⟩ := h
    have hnot : ∀ t', s ∉ L t' := by
      intro t' hmem
      have hactive := (hlists.active s).mpr ⟨t', hmem⟩
      rw [hfunc] at hactive
      cases hactive
    have hadd : ∀ fuel, w.trsyncAddSignal b fuel t s (some .stepperStop) =
        some ({ w with
          func := Function.update w.func s (some .stepperStop)
          next := Function.update w.next s (w.trsync t).signals
          trsync := Function.update w.trsync t { w.trsync t with signals := some s } }.note t
            (.registered s)) := by
      intro fuel
      rw [trsyncAddSignal, if_neg]
      rw [hfunc]
      simp
    simp only [hadd]
    refine ⟨_, .pure _, Function.update L t (s :: L t), ⟨?_, fun x => ?_⟩, fun t' => ?_⟩
    · show LinkedLists (fun t' => (Function.update w.trsync t _ t').signals) _ _
      rw [update_signals]
      exact hlists.lists.push hnot
    · show Function.update w.func s _ x = _ ↔ _
      simp only [LinkedLists.mem_push]
      by_cases hx : x = s
      · rw [hx, Function.update_self]
        exact iff_of_true rfl ⟨t, Or.inl ⟨rfl, rfl⟩⟩
      · rw [Function.update_of_ne hx, hlists.active x]
        simp only [hx, false_and, false_or]
    · show Epoch (Function.update w.trsync t _ t') (Function.update L t _ t')
        (Function.update w.history t _ t')
      by_cases heq : t' = t
      · rw [heq, Function.update_self, Function.update_self, Function.update_self]
        exact (hepoch t).registered _
      · rw [Function.update_of_ne heq, Function.update_of_ne heq, Function.update_of_ne heq]
        exact hepoch t'

/-- A trigger takes effect if none has done so since the last clear, and then calls all signals
that were registered. -/
theorem Synced.doTrigger (h : w.Synced) :
    ∃ w', Computes (fun fuel => w.trsyncDoTrigger b fuel t reason) w' ∧ w'.Synced := by
  cases hcan : (w.trsync t).canTrigger with
  | false =>
    have hkeep : ∀ fuel, w.trsyncDoTrigger b fuel t reason = some w := by
      intro fuel
      rw [trsyncDoTrigger, hcan, if_pos Bool.false_ne_true]
    simp only [hkeep]
    exact ⟨w, .pure w, h⟩
  | true =>
    obtain ⟨L, hlists, hepoch⟩ := h
    let ts := { w.trsync t with triggerReason := reason, canTrigger := false, report := true }
    let fired := (w.setTrsync t ts).note t (.triggered reason)
    have hfired : ∀ fuel,
        w.trsyncDoTrigger b fuel t reason = dispatchSignals b t reason fuel fired := by
      intro fuel
      rw [trsyncDoTrigger, hcan, if_neg (not_not.mpr rfl)]
    have hsignals : (fun t' => (fired.trsync t').signals) = fun t' => (w.trsync t').signals := by
      funext t'
      show (Function.update w.trsync t ts t').signals = _
      by_cases heq : t' = t
      · rw [heq, Function.update_self]
      · rw [Function.update_of_ne heq]
    have hlists' : fired.Lists L := by
      unfold Lists
      rw [hsignals]
      exact hlists
    obtain ⟨w', hcomputes, hlistsAfter, htrsync, hhistory⟩ :=
      @dispatchSignals_computes _ _ _ b _ _ _ _ reason hlists' (rfl : L t = L t)
    simp only [hfired]
    refine ⟨w', hcomputes, Function.update L t [], hlistsAfter, fun t' => ?_⟩
    have htrsync' : w'.trsync = Function.update w.trsync t { ts with signals := none } := by
      have hts : fired.trsync = Function.update w.trsync t ts := rfl
      rw [htrsync, hts, Function.update_idem, Function.update_self]
    have hhistory' : w'.history = Function.update w.history t
        (w.history t ++ [.triggered reason] ++ (L t).map (.called · reason)) := by
      have hnoted : fired.history =
          Function.update w.history t (w.history t ++ [.triggered reason]) := rfl
      rw [hhistory, hnoted, Function.update_idem, Function.update_self]
    rw [htrsync', hhistory']
    by_cases heq : t' = t
    · rw [heq, Function.update_self, Function.update_self, Function.update_self]
      refine .triggered (L t).reverse [] rfl (List.nodup_reverse.mpr (hlists.lists.nodup t)) rfl ?_
      rw [(hepoch t).of_canTrigger hcan, List.reverse_reverse, List.map_nil, List.append_nil,
        List.append_assoc, List.singleton_append]
    · rw [Function.update_of_ne heq, Function.update_of_ne heq, Function.update_of_ne heq]
      exact hepoch t'

omit [DecidableEq S] in
/-- `trsync_start` lets a trsync trigger whose history is empty. -/
theorem Synced.started (h : w.Synced) (hempty : w.history t = [])
    (reportClock reportTicks expireReason : UInt32) :
    (w.startTrsync t reportClock reportTicks expireReason).Synced := by
  obtain ⟨L, hlists, hepoch⟩ := h
  have hnone : L t = [] := by
    cases hepoch t with
    | waiting regs hl hh =>
      rw [hempty, eq_comm, List.map_eq_nil_iff] at hh
      rw [hl, hh, List.reverse_nil]
    | triggered regs late _ _ _ hh =>
      rw [hempty] at hh
      simp at hh
  refine ⟨L, ?_, fun t' => ?_⟩
  · have hkeep : (fun t' => ((w.startTrsync t reportClock reportTicks expireReason).trsync
        t').signals) = fun t' => (w.trsync t').signals := by
      funext t'
      show (Function.update w.trsync t _ t').signals = _
      by_cases heq : t' = t
      · rw [heq, Function.update_self]
      · rw [Function.update_of_ne heq]
    unfold Lists
    rw [hkeep]
    exact hlists
  · show Epoch (Function.update w.trsync t _ t') (L t') (w.history t')
    by_cases heq : t' = t
    · rw [heq, Function.update_self, hempty, hnone]
      exact .waiting [] rfl rfl
    · rw [Function.update_of_ne heq]
      exact hepoch t'

omit [DecidableEq S] in
theorem Synced.finished (h : w.Synced) : (w.finishTrigger t).Synced :=
  h.setTrsync rfl rfl fun _ => rfl

/-- Each event ends, and keeps the invariant. -/
theorem Synced.event (h : w.Synced) (e : TrsyncEvent n S) :
    ∃ w', Computes (fun fuel => w.apply b fuel e) w' ∧ w'.Synced := by
  cases e with
  | start t reportClock reportTicks expireReason =>
    obtain ⟨w', hcomputes, h', hempty⟩ := h.clear t
    exact ⟨_, hcomputes.map _, h'.started hempty reportClock reportTicks expireReason⟩
  | stopOnTrigger s t => exact h.addSignal
  | setTimeout t clock =>
    refine ⟨_, .pure _, ?_⟩
    unfold trsyncSetTimeout
    split
    · exact h.setTrsync rfl rfl id
    · exact h
  | trigger t reason =>
    obtain ⟨w', hcomputes, h'⟩ := @Synced.doTrigger _ _ _ b _ t reason.toUInt8 h
    exact ⟨_, hcomputes.map _, h'.finished⟩
  | expire t =>
    have hpopped : (w.setTrsync t { w.trsync t with expirePending := false }).Synced :=
      h.setTrsync rfl rfl id
    exact hpopped.doTrigger
  | reportTimer t => exact ⟨_, .pure _, h.setTrsync rfl rfl id⟩
  | endstop t reason => exact h.doTrigger
  | task t time =>
    refine ⟨_, .pure _, ?_⟩
    unfold taskTrsync
    split
    · exact h
    · exact h.setTrsync rfl rfl id
  | shutdown => exact h.shutdown

/-! ## The guarantee -/

/-- What the history of a trsync says of its signals: those registered since it was last cleared
wait, or one trigger has called each of them once with the reason that the trsync keeps, and the
signals registered later wait. -/
def DispatchedOnce (ts : Trsync S) (h : List (SyncRecord S)) : Prop :=
  (∃ regs : List S, h = regs.map .registered) ∨
    ∃ regs late : List S, regs.Nodup ∧ ts.canTrigger = false ∧
      h = regs.map .registered ++ .triggered ts.triggerReason ::
        regs.reverse.map (.called · ts.triggerReason) ++ late.map .registered

/-- **The dispatch of triggers.**  In every run a signal is on at most one list, and has its
function exactly while it is on one; between two clears of a trsync at most one trigger takes
effect, and calls each registered signal once.  No event gets stuck. -/
theorem trsync_dispatched {steppers : S → Stepper} {es : List (TrsyncEvent n S)}
    (h : Run (Step b) (configured steppers) es w) :
    (∀ s t t', w.Listed t s → w.Listed t' s → t = t') ∧
      (∀ s, w.func s ≠ none ↔ ∃ t, w.Listed t s) ∧
      (∀ t, DispatchedOnce (w.trsync t) (w.history t)) ∧
      ∀ e, w.Enabled e → ∃ w', w.Step b e w' := by
  have hsynced : w.Synced := by
    refine h.invariant (synced_configured steppers) fun w e w₁ hw hstep => ?_
    obtain ⟨-, fuel, hfuel⟩ := hstep
    obtain ⟨w', hcomputes, hw'⟩ := hw.event (b := b) e
    rw [hcomputes.only fuel w₁ hfuel]
    exact hw'
  refine ⟨?_, ?_, fun t => ?_, fun e henabled => ?_⟩
  · obtain ⟨L, hlists, -⟩ := hsynced
    intro s t t' ht ht'
    exact hlists.lists.apart t t' s (hlists.listed_iff.mp ht) (hlists.listed_iff.mp ht')
  · obtain ⟨L, hlists, -⟩ := hsynced
    intro s
    simp only [hlists.listed_iff, ← hlists.active s]
    cases w.func s with
    | none => simp
    | some f => cases f; simp
  · obtain ⟨L, -, hepoch⟩ := hsynced
    cases hepoch t with
    | waiting regs _ hh => exact Or.inl ⟨regs, hh⟩
    | triggered regs late hcan hnodup _ hh => exact Or.inr ⟨regs, late, hnodup, hcan, hh⟩
  · obtain ⟨w', hcomputes, -⟩ := hsynced.event (b := b) e
    exact ⟨w', henabled, hcomputes.exists_eq_some⟩

/-- The timeout of a homing move stops its two steppers; the endstop and the host come later. -/
theorem trsync_dispatched_timeout :
    ∃ w : TrsyncWorld 2 ℕ, w.history 0 =
        [.registered 5, .registered 7, .triggered 4, .called 7 4, .called 5 4, .registered 6] ∧
      (∀ s t t', w.Listed t s → w.Listed t' s → t = t') ∧
      (∀ s, w.func s ≠ none ↔ ∃ t, w.Listed t s) ∧
      (∀ t, DispatchedOnce (w.trsync t) (w.history t)) ∧
      ∀ e, w.Enabled e → ∃ w', w.Step .bothEdge e w' := by
  let events : List (TrsyncEvent 2 ℕ) :=
    [.start 0 0 100 4, .stopOnTrigger 5 0, .stopOnTrigger 7 0, .setTimeout 0 1000, .expire 0,
      .endstop 0 1, .stopOnTrigger 6 0, .trigger 0 2]
  let steppers : ℕ → Stepper := fun _ => configStepper .bothEdge 0 0
  obtain ⟨w, hrun, hhistory⟩ := Run.exists_of_any
    (f := fun w e => if w.Enabled e then w.apply .bothEdge 4 e else none)
    (P := fun w => decide (w.history 0 = [.registered 5, .registered 7, .triggered 4,
      .called 7 4, .called 5 4, .registered 6]))
    (s := configured steppers) (l := events) (by decide)
  have hsteps : Run (Step .bothEdge) (configured steppers) events w := by
    refine hrun.mono fun w e w' hstep => ?_
    split at hstep
    · exact ⟨by assumption, 4, hstep⟩
    · cases hstep
  exact ⟨w, of_decide_eq_true hhistory, trsync_dispatched hsteps⟩

end TrsyncWorld

end FlsunT1.Mcu
