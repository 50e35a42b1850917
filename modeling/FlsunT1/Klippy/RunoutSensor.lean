/-
  Klippy/RunoutSensor.lean --- the debounced sensor with its commands
  (klippy/extras/filament_switch_sensor.py).

  `SET_FILAMENT_SENSOR` belongs to `RunoutHelper`, whose own `note_filament_present` does not
  debounce.  Beside the sensor stand the absences of filament, the one whose position was saved,
  the samples of the debounce loop and the runouts that they confirm.
-/
import Mathlib.Data.List.Perm.Basic
import FlsunT1.Klippy.FilamentSensor

set_option autoImplicit false

namespace FlsunT1.Klippy

open Library

/-! ## The sensor and its commands -/

/-- The options; `runout_pause` always comes with a script for the runout.  The script of
`switch_off_gcode` changes nothing here. -/
structure RunoutConfig where
  insertGcode : Bool
  runoutGcode : Bool
  onDisableGcode : Bool
  runoutPause : Bool
  locatePrinting : Bool
  eventDelay : ℚ
  runoutGcode_of_pause : runoutPause = true → runoutGcode = true

/-- The options, while the sensor is enabled or not. -/
def RunoutConfig.sensor (cfg : RunoutConfig) (enabled : Bool) : SensorConfig where
  sensorEnabled := enabled
  insertGcode := cfg.insertGcode
  runoutGcode := cfg.runoutGcode
  onDisableGcode := cfg.onDisableGcode
  eventDelay := cfg.eventDelay

/-- The handlers of `RunoutHelper` that only its commands register, registered or running. -/
inductive HelperHandler
  | switchOff (started : Bool)
  | runout (started : Bool)
  deriving DecidableEq

/-- The sensor; `raised` says that `note_filament_present` has raised.  The absences are counted,
`samples` are the absences that the loop has sampled in a row, and `confirmations` the runouts that
were confirmed and have not paused the print yet. -/
structure RunoutSensor where
  sensor : FilamentSensor
  enabled : Bool
  handlers : List HelperHandler
  raised : Bool
  absence : ℕ
  savedFor : Option ℕ
  samples : List ℕ
  confirmations : ℕ

inductive RunoutEvent
  | ready
  | note (isFilamentPresent isPrinting : Bool)
  /-- `SET_FILAMENT_SENSOR` -/
  | set (enable isPrinting : Bool)
  /-- a step of the task with this number -/
  | run (i : ℕ)
  /-- a step of the handler of `RunoutHelper` with this number -/
  | handle (i : ℕ)
  | tick (dt : ℚ)
  deriving DecidableEq

namespace RunoutSensor

variable (cfg : RunoutConfig)

/-- `__init__` -/
def init (now : ℚ) : RunoutSensor where
  sensor := .init now
  enabled := true
  handlers := []
  raised := false
  absence := 0
  savedFor := none
  samples := []
  confirmations := 0

/-- The edge that has the position saved and the debounce started. -/
def detects (isFilamentPresent isPrinting : Bool) (s : RunoutSensor) : Bool :=
  !isFilamentPresent && s.sensor.filamentPresent && s.sensor.isOpen && s.enabled && isPrinting &&
    cfg.runoutGcode

/-- `RunoutDebounceHelper.note_filament_present` -/
def note (isFilamentPresent isPrinting : Bool) (s : RunoutSensor) : RunoutSensor :=
  match s.sensor.noteFilamentPresent (cfg.sensor s.enabled) isFilamentPresent isPrinting with
  | none =>
    { s with sensor := { s.sensor with filamentPresent := isFilamentPresent }, raised := true }
  | some sensor =>
    { s with
      sensor := sensor
      absence :=
        if !isFilamentPresent && s.sensor.filamentPresent then s.absence + 1 else s.absence
      savedFor :=
        if s.detects cfg isFilamentPresent isPrinting && cfg.locatePrinting then
          some (s.absence + 1)
        else s.savedFor }

/-- `RunoutHelper.note_filament_present`, as the enabled sensor is told what it knows. -/
def noteEnabled (isPrinting : Bool) (s : RunoutSensor) : RunoutSensor :=
  if !s.sensor.isOpen then s
  else if s.sensor.filamentPresent then
    if cfg.insertGcode then
      { s with sensor := { s.sensor with
          minEventSystime := none, tasks := s.sensor.tasks ++ [.insertHandler false] } }
    else s
  else if isPrinting && cfg.runoutGcode then
    { s with
      sensor := { s.sensor with minEventSystime := none }
      handlers := s.handlers ++ [.runout false] }
  else s

/-- `cmd_SET_FILAMENT_SENSOR` -/
def setSensor (enable isPrinting : Bool) (s : RunoutSensor) : RunoutSensor :=
  if enable then { s with enabled := true }.noteEnabled cfg isPrinting
  else { s with enabled := false, handlers := s.handlers ++ [.switchOff false] }

/-- The last `DEBOUNCE_COUNT` samples are all of the absence that goes on, and the position was
saved for it, if there is something to save it. -/
def Confirmed (samples : List ℕ) (s : RunoutSensor) : Prop :=
  debounceLimit ≤ samples.length ∧ (∀ a ∈ samples.take debounceLimit, a = s.absence) ∧
    (cfg.locatePrinting = true → s.savedFor = some s.absence)

instance (samples : List ℕ) (s : RunoutSensor) : Decidable (Confirmed cfg samples s) :=
  inferInstanceAs (Decidable (_ ∧ _ ∧ _))

/-- What the step of a task adds to the history. -/
def observe (s : RunoutSensor) : SensorTask → RunoutSensor
  | .debounce .start => if s.sensor.lock then s else { s with samples := [] }
  | .debounce .sample =>
    if s.sensor.filamentPresent then s
    else
      { s with
        samples := s.absence :: s.samples
        confirmations :=
          if debounceLimit ≤ s.sensor.debounceCount ∧ Confirmed cfg (s.absence :: s.samples) s then
            s.confirmations + 1
          else s.confirmations }
  | .runoutHandler false => { s with confirmations := s.confirmations - 1 }
  | _ => s

/-- A step of a task of the sensor. -/
def runTask (i : ℕ) (s : RunoutSensor) (task : SensorTask) : RunoutSensor :=
  let (sensor, tasks) := s.sensor.runTask (cfg.sensor s.enabled) task
  { s.observe cfg task with
    sensor := { sensor with tasks := sensor.tasks.take i ++ tasks ++ sensor.tasks.drop (i + 1) } }

/-- A step of a handler of `RunoutHelper`: the script runs after the pause, and whether it fails
or not, `min_event_systime` is set. -/
def runHandler (i : ℕ) (s : RunoutSensor) : HelperHandler → RunoutSensor
  | .switchOff false => { s with handlers := s.handlers.set i (.switchOff true) }
  | .runout false =>
    { s with handlers := s.handlers.set i (.runout true), confirmations := s.confirmations - 1 }
  | .switchOff true | .runout true =>
    { s with
      sensor := { s.sensor with minEventSystime := some (s.sensor.now + cfg.eventDelay) }
      handlers := s.handlers.eraseIdx i }

/-- One event; an exception in the callback of the pin ends the program. -/
def step (s : RunoutSensor) (e : RunoutEvent) : Option RunoutSensor :=
  if s.raised then none
  else
    match e with
    | .ready =>
      if s.sensor.isReady then none
      else some { s with sensor :=
        { s.sensor with isReady := true, minEventSystime := some (s.sensor.now + 2) } }
    | .note isFilamentPresent isPrinting => some (s.note cfg isFilamentPresent isPrinting)
    | .set enable isPrinting => some (s.setSensor cfg enable isPrinting)
    | .run i => s.sensor.tasks[i]?.map (s.runTask cfg i)
    | .handle i => s.handlers[i]?.map (s.runHandler cfg i)
    | .tick dt =>
      if 0 ≤ dt then some { s with sensor := { s.sensor with now := s.sensor.now + dt } } else none

end RunoutSensor

/-! ## Lists of tasks -/

theorem perm_cons_eraseIdx {α : Type} {l : List α} {i : ℕ} {a : α} (h : l[i]? = some a) :
    l.Perm (a :: l.eraseIdx i) := by
  obtain ⟨hi, rfl⟩ := List.getElem?_eq_some_iff.mp h
  exact (List.getElem_cons_eraseIdx_perm hi).symm

theorem perm_splice {α : Type} (l : List α) (i : ℕ) (as : List α) :
    (l.take i ++ as ++ l.drop (i + 1)).Perm (as ++ l.eraseIdx i) := by
  rw [List.eraseIdx_eq_take_drop_succ, ← List.append_assoc]
  exact List.perm_append_comm.append_right _

/-! ## What the sensor owes -/

/-- A thread in its loop, with the lock. -/
def SensorTask.loops : SensorTask → Bool
  | .debounce .sample | .debounce .falseAlarm | .debounce .finish => true
  | _ => false

/-- The callbacks that an edge of the filament registers. -/
def SensorTask.OfEdge (k : SensorTask) : Prop :=
  k = .insertHandler false ∨ k = .runoutCheckThread

namespace FilamentSensor

variable {cfg : SensorConfig} {p isPrinting : Bool} {s sensor : FilamentSensor}

variable (cfg p isPrinting s) in
theorem noteFilamentPresent_eq_none_iff :
    s.noteFilamentPresent cfg p isPrinting = none ↔
      p ≠ s.filamentPresent ∧ s.isOpen = true ∧ cfg.sensorEnabled = false ∧
        cfg.onDisableGcode = true := by
  unfold noteFilamentPresent
  split
  · simp_all
  · dsimp only
    repeat' split
    all_goals simp_all [isOpen]

/-- The sensor after an edge: callbacks are registered where `min_event_systime` is set to
`NEVER`. -/
def Registers (s : FilamentSensor) (isFilamentPresent : Bool) (sensor : FilamentSensor) : Prop :=
  ∃ m ks, sensor =
      { s with
        filamentPresent := isFilamentPresent, minEventSystime := m, tasks := s.tasks ++ ks } ∧
    (∀ k ∈ ks, k.OfEdge) ∧ (m = none → s.minEventSystime = none ∨ ks ≠ [])

theorem registers_nil : s.Registers p { s with filamentPresent := p } :=
  ⟨s.minEventSystime, [], by rw [List.append_nil], List.forall_mem_nil _, Or.inl⟩

theorem registers_singleton {k : SensorTask} (hk : k.OfEdge) :
    s.Registers p
      { s with filamentPresent := p, minEventSystime := none, tasks := s.tasks ++ [k] } :=
  ⟨none, [k], rfl, List.forall_mem_singleton.mpr hk, fun _ => Or.inr (List.cons_ne_nil _ _)⟩

theorem noteFilamentPresent_registers (h : s.noteFilamentPresent cfg p isPrinting = some sensor) :
    s.Registers p sensor := by
  unfold noteFilamentPresent at h
  split at h
  case isTrue heq =>
    obtain rfl := Option.some.inj h
    subst heq
    exact registers_nil
  case isFalse =>
    dsimp only at h
    repeat' split at h
    all_goals first
      | exact Option.some.inj h ▸ registers_nil
      | exact Option.some.inj h ▸ registers_singleton (Or.inl rfl)
      | exact Option.some.inj h ▸ registers_singleton (Or.inr rfl)
      | cases h

end FilamentSensor

namespace RunoutSensor

variable (cfg : RunoutConfig)

/-- The runout handlers that are registered. -/
def registered (s : RunoutSensor) : ℕ :=
  s.sensor.tasks.countP (· = .runoutHandler false) + s.handlers.countP (· = .runout false)

/-- What holds of the sensor: nothing was raised, one loop runs at most and the count is zero
where none does, each runout handler that will pause has a confirmation of its own, and `NEVER` is
set only for a handler or a thread, or until `klippy:ready`. -/
structure WellFormed (s : RunoutSensor) : Prop where
  returns : s.raised = false
  oneLoop : s.sensor.tasks.countP SensorTask.loops ≤ 1
  noLoop : s.sensor.tasks.countP SensorTask.loops = 0 → s.sensor.debounceCount = 0
  confirmed : cfg.runoutPause = true → s.registered ≤ s.confirmations
  never : s.sensor.minEventSystime = none → s.sensor.isReady = false ∨
    (∃ k ∈ s.sensor.tasks, k.active = true) ∨ s.handlers ≠ []

/-- The event pauses the print. -/
def Pauses (s : RunoutSensor) : RunoutEvent → Prop
  | .run i => cfg.runoutPause = true ∧ s.sensor.tasks[i]? = some (.runoutHandler false)
  | .handle i => cfg.runoutPause = true ∧ s.handlers[i]? = some (.runout false)
  | _ => False

/-- What a step owes: a pause has a confirmation, and the sensor is well formed afterwards. -/
def Meets (s : RunoutSensor) (e : RunoutEvent) (t : RunoutSensor) : Prop :=
  (s.Pauses cfg e → 0 < s.confirmations) ∧ t.WellFormed cfg

/-- The condition on an event, by the state before it. -/
def Condition (s : RunoutSensor) : RunoutEvent → Prop
  -- an open sensor that is disabled has no script for that
  | .note isFilamentPresent _ => isFilamentPresent ≠ s.sensor.filamentPresent →
      s.sensor.isOpen = true → s.enabled = false → cfg.onDisableGcode = false
  -- the command does not find a runout, unless that does not pause
  | .set enable isPrinting => enable = true → s.sensor.isOpen = true →
      s.sensor.filamentPresent = false → isPrinting = true → cfg.runoutPause = false
  | .run i =>
    match s.sensor.tasks[i]? with
    -- a thread that finds the lock taken is not the last that would set `min_event_systime`
    | some (.debounce .start) => s.sensor.lock = true → s.sensor.minEventSystime = none →
        s.sensor.isReady = false ∨
          (∃ k ∈ s.sensor.tasks.eraseIdx i, k.active = true) ∨ s.handlers ≠ []
    -- the filament has not been back since the position was saved
    | some (.debounce .sample) => s.sensor.filamentPresent = false →
        debounceLimit ≤ s.sensor.debounceCount → cfg.runoutPause = true →
          (∀ a ∈ s.samples.take (debounceLimit - 1), a = s.absence) ∧
            (cfg.locatePrinting = true → s.savedFor = some s.absence)
    | _ => True
  | _ => True

/-- The invariant. -/
structure Inv (s : RunoutSensor) : Prop where
  returns : s.raised = false
  lock : s.sensor.tasks.countP SensorTask.loops = s.sensor.lock.toNat
  idle : s.sensor.lock = false → s.sensor.debounceCount = 0
  sampled : .debounce .sample ∈ s.sensor.tasks → s.samples.length = s.sensor.debounceCount
  confirmed : cfg.runoutPause = true → s.registered = s.confirmations
  never : s.sensor.minEventSystime = none → s.sensor.isReady = false ∨
    (∃ k ∈ s.sensor.tasks, k.active = true) ∨ s.handlers ≠ []

/-! ## Tasks that take the place of others -/

variable {cfg} {s t : RunoutSensor}

theorem init_inv (now : ℚ) : (init now).Inv cfg where
  returns := rfl
  lock := rfl
  idle _ := rfl
  sampled h := absurd h List.not_mem_nil
  confirmed _ := rfl
  never _ := Or.inl rfl

namespace Inv

theorem wellFormed (h : s.Inv cfg) : s.WellFormed cfg where
  returns := h.returns
  oneLoop := by
    rw [h.lock]
    exact Bool.toNat_le _
  noLoop hzero := by
    rw [h.lock] at hzero
    exact h.idle (Bool.toNat_eq_zero.mp hzero)
  confirmed hpause := (h.confirmed hpause).le
  never := h.never

theorem confirmed_of_pauses (h : s.Inv cfg) {e : RunoutEvent} (hpauses : s.Pauses cfg e) :
    0 < s.confirmations := by
  cases e with
  | run i =>
    obtain ⟨hpause, hget⟩ := hpauses
    have hpos : 0 < s.sensor.tasks.countP (· = .runoutHandler false) :=
      List.countP_pos_iff.mpr ⟨_, List.mem_of_getElem? hget, by simp⟩
    have hcount := h.confirmed hpause
    unfold registered at hcount
    omega
  | handle i =>
    obtain ⟨hpause, hget⟩ := hpauses
    have hpos : 0 < s.handlers.countP (· = .runout false) :=
      List.countP_pos_iff.mpr ⟨_, List.mem_of_getElem? hget, by simp⟩
    have hcount := h.confirmed hpause
    unfold registered at hcount
    omega
  | _ => cases hpauses

/-- The tasks `new` take the place of `old`. -/
theorem replace (h : s.Inv cfg) {old new others : List SensorTask}
    (hold : s.sensor.tasks.Perm (old ++ others)) (hnew : t.sensor.tasks.Perm (new ++ others))
    (hreturns : t.raised = false)
    (hlock : new.countP SensorTask.loops + s.sensor.lock.toNat =
      old.countP SensorTask.loops + t.sensor.lock.toNat)
    (hidle : t.sensor.lock = false → t.sensor.debounceCount = 0)
    (hsampled : .debounce .sample ∈ new ++ others → t.samples.length = t.sensor.debounceCount)
    (hconfirmed : cfg.runoutPause = true →
      new.countP (· = .runoutHandler false) + t.handlers.countP (· = .runout false) +
          s.confirmations =
        old.countP (· = .runoutHandler false) + s.handlers.countP (· = .runout false) +
          t.confirmations)
    (hnever : t.sensor.minEventSystime = none → t.sensor.isReady = false ∨
      (∃ k ∈ new ++ others, k.active = true) ∨ t.handlers ≠ []) : t.Inv cfg where
  returns := hreturns
  lock := by
    have hcount := h.lock
    rw [hold.countP_eq, List.countP_append] at hcount
    rw [hnew.countP_eq, List.countP_append]
    omega
  idle := hidle
  sampled hmem := hsampled (hnew.mem_iff.mp hmem)
  confirmed hpause := by
    have hcount := h.confirmed hpause
    have hbalance := hconfirmed hpause
    unfold registered at hcount ⊢
    rw [hold.countP_eq, List.countP_append] at hcount
    rw [hnew.countP_eq, List.countP_append]
    omega
  never hmin := by
    rcases hnever hmin with hready | ⟨k, hk, hactive⟩ | hhandlers
    · exact Or.inl hready
    · exact Or.inr (Or.inl ⟨k, hnew.mem_iff.mpr hk, hactive⟩)
    · exact Or.inr (Or.inr hhandlers)

theorem of_loops (h : s.Inv cfg) {k : SensorTask} {others : List SensorTask}
    (hold : s.sensor.tasks.Perm (k :: others)) (hk : k.loops = true) :
    s.sensor.lock = true ∧ ∀ k' ∈ others, k'.loops = false := by
  have hcount := h.lock
  rw [hold.countP_eq, List.countP_cons_of_pos hk] at hcount
  have hle := Bool.toNat_le s.sensor.lock
  have hzero : others.countP SensorTask.loops = 0 := by omega
  refine ⟨Bool.toNat_eq_one.mp (by omega), fun k' hk' => ?_⟩
  exact Bool.eq_false_iff.mpr (List.countP_eq_zero.mp hzero k' hk')

end Inv

/-- Callbacks are registered, and nothing else runs. -/
theorem Inv.extend (h : s.Inv cfg) (p : Bool) (m : Option ℚ) (ks : List SensorTask)
    (hs : List HelperHandler) (hks : ∀ k ∈ ks, k.OfEdge)
    (hhs : cfg.runoutPause = true → hs.countP (· = .runout false) = 0)
    (hmin : m = none → s.sensor.minEventSystime = none ∨ ks ≠ [] ∨ hs ≠ [])
    (hsensor : t.sensor =
      { s.sensor with
        filamentPresent := p, minEventSystime := m, tasks := s.sensor.tasks ++ ks })
    (hhandlers : t.handlers = s.handlers ++ hs) (hreturns : t.raised = false)
    (hsamples : t.samples = s.samples) (hconfirmations : t.confirmations = s.confirmations) :
    t.Inv cfg := by
  have hnone (f : SensorTask → Bool) (hf : f (.insertHandler false) = false)
      (hf' : f .runoutCheckThread = false) : ks.countP f = 0 := by
    apply List.countP_eq_zero.mpr
    intro k hk
    rcases hks k hk with rfl | rfl
    · simp [hf]
    · simp [hf']
  have hnew : t.sensor.tasks.Perm (ks ++ s.sensor.tasks) := by
    rw [hsensor]
    exact List.perm_append_comm
  have hloops := hnone SensorTask.loops rfl rfl
  have hrunout := hnone (· = .runoutHandler false) (by decide) (by decide)
  have hold : s.sensor.tasks.Perm ([] ++ s.sensor.tasks) := .refl _
  refine h.replace hold hnew hreturns ?_ ?_ ?_ ?_ ?_
  · rw [hsensor, hloops]
    simp
  · rw [hsensor]
    exact h.idle
  · intro hmem
    rw [hsamples, hsensor]
    rcases List.mem_append.mp hmem with hk | hk
    · rcases hks _ hk with hk | hk <;> cases hk
    · exact h.sampled hk
  · intro hpause
    rw [hrunout, hhandlers, List.countP_append, hhs hpause, hconfirmations]
    simp
  · rw [hsensor, hhandlers]
    intro hm
    rcases hmin hm with hbefore | hks' | hhs'
    · rcases h.never hbefore with hready | ⟨k, hk, hactive⟩ | hhandlers'
      · exact Or.inl hready
      · exact Or.inr (Or.inl ⟨k, List.mem_append_right _ hk, hactive⟩)
      · exact Or.inr (Or.inr (List.append_ne_nil_of_left_ne_nil hhandlers' _))
    · obtain ⟨k, hk⟩ := List.exists_mem_of_ne_nil _ hks'
      refine Or.inr (Or.inl ⟨k, List.mem_append_left _ hk, ?_⟩)
      rcases hks k hk with rfl | rfl <;> rfl
    · exact Or.inr (Or.inr (List.append_ne_nil_of_right_ne_nil _ hhs'))

/-! ## The steps -/

theorem note_raised_iff (h : s.raised = false) {p isPrinting : Bool} :
    (s.note cfg p isPrinting).raised = false ↔ Condition cfg s (.note p isPrinting) := by
  have hraises := FilamentSensor.noteFilamentPresent_eq_none_iff (cfg.sensor s.enabled) p
    isPrinting s.sensor
  unfold note
  cases hnote : s.sensor.noteFilamentPresent (cfg.sensor s.enabled) p isPrinting with
  | none =>
    obtain ⟨hedge, hopen, hdisabled, hscript⟩ := hraises.mp hnote
    refine iff_of_false Bool.true_eq_false.mp fun hc => ?_
    exact absurd (hscript.symm.trans (hc hedge hopen hdisabled)) Bool.true_eq_false.mp
  | some sensor =>
    refine iff_of_true h fun hedge hopen hdisabled => Bool.eq_false_iff.mpr fun hscript => ?_
    rw [hraises.mpr ⟨hedge, hopen, hdisabled, hscript⟩] at hnote
    cases hnote

theorem Inv.note (h : s.Inv cfg) {p isPrinting : Bool}
    (hreturns : (s.note cfg p isPrinting).raised = false) : (s.note cfg p isPrinting).Inv cfg := by
  unfold RunoutSensor.note at hreturns ⊢
  cases hnote : s.sensor.noteFilamentPresent (cfg.sensor s.enabled) p isPrinting with
  | none =>
    rw [hnote] at hreturns
    cases hreturns
  | some sensor =>
    obtain ⟨m, ks, hsensor, hks, hmin⟩ := FilamentSensor.noteFilamentPresent_registers hnote
    refine h.extend p m ks [] hks (fun _ => rfl) ?_ hsensor ?_ h.returns rfl rfl
    · exact fun hm => (hmin hm).imp_right Or.inl
    · exact (List.append_nil _).symm

/-- The command does not find a runout, or one that does not pause the print. -/
theorem Inv.setSensor (h : s.Inv cfg) {enable isPrinting : Bool}
    (hc : Condition cfg s (.set enable isPrinting)) :
    (s.setSensor cfg enable isPrinting).Inv cfg := by
  have hsame (b : Bool) (hs : List HelperHandler) (hhs : hs.countP (· = .runout false) = 0) :
      { s with enabled := b, handlers := s.handlers ++ hs }.Inv cfg :=
    h.extend s.sensor.filamentPresent s.sensor.minEventSystime [] hs (List.forall_mem_nil _)
      (fun _ => hhs) Or.inl (by rw [List.append_nil]) rfl h.returns rfl rfl
  unfold RunoutSensor.setSensor noteEnabled
  cases enable with
  | false => exact hsame false [.switchOff false] rfl
  | true =>
    have hquiet : { s with enabled := true }.Inv cfg := by simpa using hsame true [] rfl
    rw [if_pos rfl]
    split
    case isTrue => exact hquiet
    case isFalse hopen =>
      split
      case isTrue hpresent =>
        split
        case isTrue =>
          refine h.extend s.sensor.filamentPresent none [.insertHandler false] [] ?_
            (fun _ => rfl) ?_ rfl (List.append_nil _).symm h.returns rfl rfl
          · exact List.forall_mem_singleton.mpr (Or.inl rfl)
          · exact fun _ => Or.inr (Or.inl (List.cons_ne_nil _ _))
        case isFalse => exact hquiet
      case isFalse hpresent =>
        split
        case isTrue hrunout =>
          have hpause : cfg.runoutPause = false := by
            apply hc rfl
            · simpa using hopen
            · simpa using hpresent
            · exact (Bool.and_eq_true_iff.mp hrunout).1
          refine h.extend s.sensor.filamentPresent none [] [.runout false]
            (List.forall_mem_nil _) ?_ ?_ (by rw [List.append_nil]) rfl h.returns rfl rfl
          · exact fun htrue => absurd (htrue.symm.trans hpause) Bool.true_eq_false.mp
          · exact fun _ => Or.inr (Or.inr (List.cons_ne_nil _ _))
        case isFalse => exact hquiet

theorem condition_of_setSensor (h : s.Inv cfg) {enable isPrinting : Bool}
    (hwell : (s.setSensor cfg enable isPrinting).WellFormed cfg) :
    Condition cfg s (.set enable isPrinting) := by
  intro henable hopen habsent hprinting
  refine Bool.eq_false_iff.mpr fun hpause => ?_
  have hle := hwell.confirmed hpause
  have hcount := h.confirmed hpause
  unfold registered at hle hcount
  simp [RunoutSensor.setSensor, noteEnabled, henable, hopen, habsent, hprinting,
    cfg.runoutGcode_of_pause hpause] at hle
  omega

theorem confirmed_cons_iff (hlimit : debounceLimit ≤ s.samples.length) :
    Confirmed cfg (s.absence :: s.samples) s ↔
      (∀ a ∈ s.samples.take (debounceLimit - 1), a = s.absence) ∧
        (cfg.locatePrinting = true → s.savedFor = some s.absence) := by
  have htake : (s.absence :: s.samples).take debounceLimit =
      s.absence :: s.samples.take (debounceLimit - 1) := rfl
  have hlength : debounceLimit ≤ (s.absence :: s.samples).length :=
    hlimit.trans (Nat.le_succ _)
  unfold Confirmed
  rw [htake, List.forall_mem_cons, and_iff_right hlength, and_iff_right rfl]

/-- A step of a task that meets the condition. -/
theorem Inv.runTask (h : s.Inv cfg) {i : ℕ} {k : SensorTask} (hget : s.sensor.tasks[i]? = some k)
    (hc : Condition cfg s (.run i)) : (s.runTask cfg i k).Inv cfg := by
  have hold : s.sensor.tasks.Perm ([k] ++ s.sensor.tasks.eraseIdx i) := perm_cons_eraseIdx hget
  have hnew (ks : List SensorTask) := perm_splice s.sensor.tasks i ks
  -- without a new sample, the thread that samples is one of the others
  have hsampled (ks : List SensorTask) (hks : .debounce .sample ∉ ks)
      (hmem : .debounce .sample ∈ ks ++ s.sensor.tasks.eraseIdx i) :
      s.samples.length = s.sensor.debounceCount :=
    h.sampled (hold.mem_iff.mpr (List.mem_append_right _
      ((List.mem_append.mp hmem).resolve_left hks)))
  have hactive {t : RunoutSensor} (ks : List SensorTask) (k' : SensorTask) (hk' : k' ∈ ks)
      (hk'' : k'.active = true) (_ : t.sensor.minEventSystime = none) :
      t.sensor.isReady = false ∨
        (∃ k ∈ ks ++ s.sensor.tasks.eraseIdx i, k.active = true) ∨ t.handlers ≠ [] :=
    Or.inr (Or.inl ⟨k', List.mem_append_left _ hk', hk''⟩)
  simp only [Condition, hget] at hc
  cases k with
  | runoutCheckThread =>
    exact h.replace hold (hnew [.debounce .start]) h.returns rfl h.idle (hsampled _ (by decide))
      (fun _ => rfl) (hactive _ _ (List.mem_singleton_self _) rfl)
  | insertHandler started =>
    cases started with
    | false =>
      exact h.replace hold (hnew [.insertHandler true]) h.returns rfl h.idle
        (hsampled _ (by decide)) (fun _ => rfl) (hactive _ _ (List.mem_singleton_self _) rfl)
    | true =>
      exact h.replace hold (hnew []) h.returns rfl h.idle (hsampled _ (by decide))
        (fun _ => rfl) (fun hmin => absurd hmin (Option.some_ne_none _))
  | runoutHandler started =>
    cases started with
    | false =>
      refine h.replace hold (hnew [.runoutHandler true]) h.returns rfl h.idle
        (hsampled _ (by decide)) (fun hpause => ?_) (hactive _ _ (List.mem_singleton_self _) rfl)
      have hpos := h.confirmed_of_pauses (e := .run i) ⟨hpause, hget⟩
      simp [RunoutSensor.runTask, observe]
      omega
    | true =>
      exact h.replace hold (hnew []) h.returns rfl h.idle (hsampled _ (by decide))
        (fun _ => rfl) (fun hmin => absurd hmin (Option.some_ne_none _))
  | debounce thread =>
    have hothers : .debounce .sample ∈ s.sensor.tasks.eraseIdx i →
        ¬ (SensorTask.debounce thread).loops = true := by
      intro hmem hk
      exact absurd ((h.of_loops hold hk).2 _ hmem) Bool.true_eq_false.mp
    cases thread with
    | start =>
      simp only [RunoutSensor.runTask, FilamentSensor.runTask, observe]
      cases hlock : s.sensor.lock with
      | true =>
        refine h.replace hold (hnew []) h.returns rfl h.idle (hsampled _ (by decide))
          (fun _ => rfl) fun hmin => ?_
        exact hc hlock hmin
      | false =>
        refine h.replace hold (hnew [.debounce .sample]) h.returns ?_ (fun hf => by cases hf) ?_
          (fun _ => rfl) (hactive _ _ (List.mem_singleton_self _) rfl)
        · rw [hlock]
          rfl
        · exact fun _ => (h.idle hlock).symm
    | falseAlarm =>
      exact h.replace hold (hnew [.debounce .finish]) h.returns rfl h.idle
        (hsampled _ (by decide)) (fun _ => rfl) (fun hmin => absurd hmin (Option.some_ne_none _))
    | finish =>
      refine h.replace hold (hnew []) h.returns ?_ (fun _ => rfl) ?_ (fun _ => rfl) ?_
      · rw [(h.of_loops hold rfl).1]
        rfl
      · exact fun hmem => absurd rfl (hothers hmem)
      · intro hmin
        refine (h.never hmin).imp_right (Or.imp_left ?_)
        rintro ⟨k, hk, hk'⟩
        rcases List.mem_cons.mp (hold.mem_iff.mp hk) with rfl | hmem
        · cases hk'
        · exact ⟨k, hmem, hk'⟩
    | sample =>
      have hlock := (h.of_loops hold rfl).1
      have hlength := h.sampled (hold.mem_iff.mpr List.mem_cons_self)
      simp only [RunoutSensor.runTask, FilamentSensor.runTask, observe]
      cases hpresent : s.sensor.filamentPresent with
      | true =>
        exact h.replace hold (hnew [.debounce .falseAlarm]) h.returns rfl h.idle
          (hsampled _ (by decide)) (fun _ => rfl) (hactive _ _ (List.mem_singleton_self _) rfl)
      | false =>
        by_cases hlimit : debounceLimit ≤ s.sensor.debounceCount
        · rw [if_neg Bool.false_ne_true, if_neg Bool.false_ne_true, if_pos hlimit]
          refine h.replace hold (hnew [.debounce .finish, .runoutHandler false]) h.returns rfl
            h.idle ?_ (fun hpause => ?_) (hactive _ (.runoutHandler false) (by decide) rfl)
          · intro hmem
            rcases List.mem_append.mp hmem with hmem | hmem
            · exact absurd hmem (by decide)
            · exact absurd rfl (hothers hmem)
          · have hconfirmed := (confirmed_cons_iff (hlength.symm ▸ hlimit)).mpr
              (hc hpresent hlimit hpause)
            dsimp only
            rw [if_pos ⟨hlimit, hconfirmed⟩]
            simp
            omega
        · rw [if_neg Bool.false_ne_true, if_neg Bool.false_ne_true, if_neg hlimit]
          refine h.replace hold (hnew [.debounce .sample]) h.returns rfl ?_ ?_ (fun _ => ?_)
            (hactive _ _ (List.mem_singleton_self _) rfl)
          · exact fun hfree => absurd (hlock.symm.trans hfree) Bool.true_eq_false.mp
          · exact fun _ => congrArg (· + 1) hlength
          · dsimp only
            rw [if_neg fun hand => hlimit hand.1]

/-- A step of a handler of `RunoutHelper`. -/
theorem Inv.runHandler (h : s.Inv cfg) {i : ℕ} {k : HelperHandler}
    (hget : s.handlers[i]? = some k) : (s.runHandler cfg i k).Inv cfg := by
  have hset (k' : HelperHandler) := List.set_perm_cons_eraseIdx
    (List.getElem?_eq_some_iff.mp hget).1 k'
  have hold := perm_cons_eraseIdx hget
  have hne (k' : HelperHandler) : s.handlers.set i k' ≠ [] := fun hnil => by
    have hcount := (hset k').length_eq
    rw [hnil] at hcount
    cases hcount
  have htasks : s.sensor.tasks.Perm ([] ++ s.sensor.tasks) := .refl _
  have hcounts := hold.countP_eq (· = .runout false)
  cases k with
  | switchOff started =>
    cases started with
    | false =>
      refine h.replace htasks htasks h.returns rfl h.idle h.sampled (fun _ => ?_)
        (fun _ => Or.inr (Or.inr (hne _)))
      simp only [RunoutSensor.runHandler]
      rw [hcounts, (hset _).countP_eq]
      simp
    | true =>
      refine h.replace htasks htasks h.returns rfl h.idle h.sampled (fun _ => ?_)
        (fun hmin => absurd hmin (Option.some_ne_none _))
      simp only [RunoutSensor.runHandler]
      rw [hcounts]
      simp
  | runout started =>
    cases started with
    | false =>
      refine h.replace htasks htasks h.returns rfl h.idle h.sampled (fun hpause => ?_)
        (fun _ => Or.inr (Or.inr (hne _)))
      have hpos := h.confirmed_of_pauses (e := .handle i) ⟨hpause, hget⟩
      simp only [RunoutSensor.runHandler]
      rw [hcounts, (hset _).countP_eq]
      simp
      omega
    | true =>
      refine h.replace htasks htasks h.returns rfl h.idle h.sampled (fun _ => ?_)
        (fun hmin => absurd hmin (Option.some_ne_none _))
      simp only [RunoutSensor.runHandler]
      rw [hcounts]
      simp

/-! ## One event -/

/-- An event that meets the condition keeps the invariant. -/
theorem Inv.step (h : s.Inv cfg) {e : RunoutEvent} (hstep : s.step cfg e = some t)
    (hc : Condition cfg s e) : t.Inv cfg := by
  unfold RunoutSensor.step at hstep
  rw [if_neg (Bool.eq_false_iff.mp h.returns)] at hstep
  have htasks : s.sensor.tasks.Perm ([] ++ s.sensor.tasks) := .refl _
  cases e with
  | ready =>
    dsimp only at hstep
    split at hstep
    case isTrue => cases hstep
    case isFalse =>
      obtain rfl := Option.some.inj hstep
      exact h.replace htasks htasks h.returns rfl h.idle h.sampled (fun _ => rfl)
        (fun hmin => absurd hmin (Option.some_ne_none _))
  | note p isPrinting =>
    obtain rfl := Option.some.inj hstep
    exact h.note ((note_raised_iff h.returns).mpr hc)
  | set enable isPrinting =>
    obtain rfl := Option.some.inj hstep
    exact h.setSensor hc
  | run i =>
    obtain ⟨k, hget, rfl⟩ := Option.map_eq_some_iff.mp hstep
    exact h.runTask hget hc
  | handle i =>
    obtain ⟨k, hget, rfl⟩ := Option.map_eq_some_iff.mp hstep
    exact h.runHandler hget
  | tick dt =>
    dsimp only at hstep
    split at hstep
    case isTrue =>
      obtain rfl := Option.some.inj hstep
      exact h.replace htasks htasks h.returns rfl h.idle h.sampled (fun _ => rfl) h.never
    case isFalse => cases hstep

/-- A step of a task that leaves the sensor well formed meets the condition. -/
theorem condition_of_runTask (h : s.Inv cfg) {i : ℕ} {k : SensorTask}
    (hget : s.sensor.tasks[i]? = some k) (hwell : (s.runTask cfg i k).WellFormed cfg) :
    Condition cfg s (.run i) := by
  have hold : s.sensor.tasks.Perm ([k] ++ s.sensor.tasks.eraseIdx i) := perm_cons_eraseIdx hget
  have hnew (ks : List SensorTask) := perm_splice s.sensor.tasks i ks
  simp only [Condition, hget]
  cases k with
  | debounce thread =>
    cases thread with
    | start =>
      intro hlock hmin
      have hnever := hwell.never
      simp only [RunoutSensor.runTask, FilamentSensor.runTask, observe, hlock, if_true] at hnever
      refine (hnever hmin).imp_right (Or.imp_left ?_)
      rintro ⟨k, hk, hk'⟩
      exact ⟨k, (hnew []).mem_iff.mp hk, hk'⟩
    | sample =>
      intro habsent hlimit hpause
      have hlength := h.sampled (hold.mem_iff.mpr List.mem_cons_self)
      rw [← confirmed_cons_iff (hlength.symm ▸ hlimit)]
      by_contra hunconfirmed
      -- the handler that is registered has no confirmation
      have hle := hwell.confirmed hpause
      have hcount := h.confirmed hpause
      unfold registered at hle hcount
      simp only [RunoutSensor.runTask, FilamentSensor.runTask, observe, habsent, hlimit,
        if_neg Bool.false_ne_true, if_true, hunconfirmed, and_false, if_false] at hle
      rw [(hnew _).countP_eq] at hle
      rw [hold.countP_eq] at hcount
      simp at hle hcount
      omega
    | _ => trivial
  | _ => trivial

theorem meets_iff (h : s.Inv cfg) {e : RunoutEvent} (hstep : s.step cfg e = some t) :
    Meets cfg s e t ↔ Condition cfg s e := by
  refine ⟨fun ⟨_, hwell⟩ => ?_, fun hc => ⟨h.confirmed_of_pauses, (h.step hstep hc).wellFormed⟩⟩
  unfold RunoutSensor.step at hstep
  rw [if_neg (Bool.eq_false_iff.mp h.returns)] at hstep
  cases e with
  | note p isPrinting =>
    obtain rfl := Option.some.inj hstep
    exact (note_raised_iff h.returns).mp hwell.returns
  | set enable isPrinting =>
    obtain rfl := Option.some.inj hstep
    exact condition_of_setSensor h hwell
  | run i =>
    obtain ⟨k, hget, rfl⟩ := Option.map_eq_some_iff.mp hstep
    exact condition_of_runTask h hget hwell
  | _ => trivial

/-! ## Whole runs -/

variable (cfg) in
/-- In a run of the sensor every step meets the claim if and only if every event meets its
condition. -/
theorem wellFormed_run_iff (now : ℚ) (es : List RunoutEvent) (t : RunoutSensor) :
    Run (fun s e t => s.step cfg e = some t ∧ Meets cfg s e t) (init now) es t ↔
      Run (fun s e t => s.step cfg e = some t ∧ Condition cfg s e) (init now) es t := by
  apply Run.restrict_iff (init_inv now)
  · exact fun s e t hinv hstep => meets_iff hinv hstep
  · exact fun s e t hinv hstep hmeets => hinv.step hstep ((meets_iff hinv hstep).mp hmeets)

/-- A sensor with a script for an edge while it is disabled. -/
def scriptedSensor : RunoutConfig where
  insertGcode := false
  runoutGcode := true
  onDisableGcode := true
  runoutPause := true
  locatePrinting := true
  eventDelay := 3
  runoutGcode_of_pause _ := rfl

/-- The sensor is disabled, and filament is inserted. -/
theorem disabled_edge_raises : ∃ t : RunoutSensor,
    Run (fun s e t => RunoutSensor.step scriptedSensor s e = some t) (init 0)
      [.ready, .tick 5, .set false false, .note true false] t ∧ t.raised = true :=
  Run.exists_of_any (by decide +kernel)

end RunoutSensor

end FlsunT1.Klippy
