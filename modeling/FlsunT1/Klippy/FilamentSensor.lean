/-
  Klippy/FilamentSensor.lean --- the debounced filament sensor
  (class RunoutDebounceHelper, klippy/extras/filament_switch_sensor.py).

  Callbacks of the reactor, handlers and debounce threads are tasks; each event
  takes one of them a step further, in any order.  A `min_event_systime` of `none`
  is `NEVER`.  The messages, the texts of the scripts and the place of the runout
  that is noted for `F108` are left out.
-/
import Mathlib.Algebra.Order.Ring.Rat
import Mathlib.Tactic.Tauto
import FlsunT1.Library.Run

set_option autoImplicit false

namespace FlsunT1.Klippy

open Library

/-! ## The sensor -/

/-- What the sensor is configured with, and whether it is enabled. -/
structure SensorConfig where
  sensorEnabled : Bool
  insertGcode : Bool
  runoutGcode : Bool
  onDisableGcode : Bool
  eventDelay : ℚ

/-- Where `thread_debounce` is. -/
inductive DebounceThread
  /-- before it asks for the lock -/
  | start
  /-- at the head of its loop -/
  | sample
  /-- has seen filament -/
  | falseAlarm
  /-- before it resets the count and releases the lock -/
  | finish
  deriving DecidableEq

/-- A callback that is registered, a handler or a thread. -/
inductive SensorTask
  | runoutCheckThread
  | debounce (thread : DebounceThread)
  /-- `_runout_event_handler`, registered or, once it has paused the print, running -/
  | runoutHandler (started : Bool)
  | insertHandler (started : Bool)
  deriving DecidableEq

/-- The state of `RunoutDebounceHelper` and of its `RunoutHelper`, with the clock. -/
structure FilamentSensor where
  now : ℚ
  isReady : Bool
  filamentPresent : Bool
  minEventSystime : Option ℚ
  debounceCount : Nat
  runoutState : Bool
  lock : Bool
  tasks : List SensorTask

/-- `DEBOUNCE_COUNT` -/
def debounceLimit : Nat := 5

namespace FilamentSensor

/-- `__init__` -/
def init (now : ℚ) : FilamentSensor where
  now := now
  isReady := false
  filamentPresent := false
  minEventSystime := none
  debounceCount := 0
  runoutState := false
  lock := false
  tasks := []

/-- `min_event_systime` has passed. -/
def isOpen (s : FilamentSensor) : Bool := s.minEventSystime.any (· ≤ s.now)

/-- `note_filament_present`, with the state of `idle_timeout`.  With the sensor disabled
and a script for it, the access to `self.reactor` raises an exception. -/
def noteFilamentPresent (cfg : SensorConfig) (isFilamentPresent isPrinting : Bool)
    (s : FilamentSensor) : Option FilamentSensor :=
  if isFilamentPresent = s.filamentPresent then some s
  else
    let s := { s with filamentPresent := isFilamentPresent }
    if !s.isOpen then some s
    else if !cfg.sensorEnabled then
      if cfg.onDisableGcode then none else some s
    else if isFilamentPresent then
      if cfg.insertGcode then
        some { s with minEventSystime := none, tasks := s.tasks ++ [.insertHandler false] }
      else some s
    else if isPrinting && cfg.runoutGcode then
      some { s with minEventSystime := none, tasks := s.tasks ++ [.runoutCheckThread] }
    else some s

/-- One step of a task, and the tasks that take its place. -/
def runTask (cfg : SensorConfig) (s : FilamentSensor) : SensorTask → FilamentSensor × List SensorTask
  | .runoutCheckThread => (s, [.debounce .start])
  | .debounce .start =>
      -- lock.acquire(blocking=False)
      if s.lock then (s, []) else ({ s with lock := true }, [.debounce .sample])
  | .debounce .sample =>
      if s.filamentPresent then (s, [.debounce .falseAlarm])
      else if debounceLimit ≤ s.debounceCount then
        (s, [.debounce .finish, .runoutHandler false])
      else ({ s with debounceCount := s.debounceCount + 1 }, [.debounce .sample])
  | .debounce .falseAlarm =>
      ({ s with minEventSystime := some (s.now + cfg.eventDelay) }, [.debounce .finish])
  | .debounce .finish => ({ s with debounceCount := 0, lock := false }, [])
  | .runoutHandler false => ({ s with runoutState := true }, [.runoutHandler true])
  | .runoutHandler true =>
      ({ s with minEventSystime := some (s.now + cfg.eventDelay), runoutState := false }, [])
  | .insertHandler false => (s, [.insertHandler true])
  | .insertHandler true => ({ s with minEventSystime := some (s.now + cfg.eventDelay) }, [])

end FilamentSensor

/-! ## Histories -/

/-- A task that samples the sensor, or starts the runout handler, later on. -/
def SensorTask.looks : SensorTask → Bool
  | .runoutCheckThread => true
  | .debounce .start => true
  | .debounce .sample => true
  | .runoutHandler false => true
  | _ => false

/-- The sensor with, of the current absence of filament: whether its edge found the sensor
open or a task that looks at the sensor later on, and whether a runout handler has
started since. -/
structure SensorHistory where
  sensor : FilamentSensor
  heard : Bool
  reported : Bool

/-- The events of the sensor, its tasks and the clock. -/
inductive SensorEvent
  /-- `klippy:ready` -/
  | ready
  | note (isFilamentPresent isPrinting : Bool)
  /-- a step of the task with this number -/
  | run (i : Nat)
  | tick (dt : ℚ)
  deriving DecidableEq

namespace SensorHistory

/-- Before any filament was seen. -/
def init (now : ℚ) : SensorHistory := ⟨.init now, false, false⟩

/-- One event. -/
def step (cfg : SensorConfig) (s : SensorHistory) : SensorEvent → Option SensorHistory
  | .ready =>
      if s.sensor.isReady then none
      else some { s with sensor :=
        { s.sensor with isReady := true, minEventSystime := some (s.sensor.now + 2) } }
  | .note isFilamentPresent isPrinting =>
      (s.sensor.noteFilamentPresent cfg isFilamentPresent isPrinting).map fun sensor =>
        if isFilamentPresent = s.sensor.filamentPresent ∨ isFilamentPresent then
          { s with sensor := sensor }
        else
          { sensor := sensor
            heard := s.sensor.isOpen || s.sensor.tasks.any SensorTask.looks
            reported := false }
  | .run i =>
      s.sensor.tasks[i]?.map fun task =>
        let (sensor, tasks) := s.sensor.runTask cfg task
        { s with
          sensor := { sensor with tasks := sensor.tasks.take i ++ tasks ++ sensor.tasks.drop (i + 1) }
          reported := s.reported || task = .runoutHandler false }
  | .tick dt =>
      if 0 ≤ dt then some { s with sensor := { s.sensor with now := s.sensor.now + dt } } else none

end SensorHistory

/-- Runs with a sensor that is enabled and has a script for a runout, while the printer
prints. -/
def SensorRun (cfg : SensorConfig) (s : SensorHistory) (es : List SensorEvent)
    (t : SensorHistory) : Prop :=
  (cfg.sensorEnabled = true ∧ cfg.runoutGcode = true) ∧
    Run (fun s e t => SensorHistory.step cfg s e = some t ∧ ∀ p, e ≠ .note p false) s es t

/-- No filament, and `min_event_systime` has passed. -/
def EmptyAndOpen (s : SensorHistory) : Prop :=
  s.sensor.filamentPresent = false ∧ s.sensor.isOpen = true

/-! ## The invariant -/

/-- A task that has still to set `min_event_systime`, or to see to it. -/
def SensorTask.active : SensorTask → Bool
  | .debounce .finish => false
  | _ => true

theorem SensorTask.active_of_looks {k : SensorTask} (h : k.looks = true) : k.active = true := by
  cases k with
  | debounce thread => cases thread <;> first | rfl | cases h
  | _ => rfl

/-- `NEVER` is set for the one task that is active; what was heard of an absence is with
that task until a handler has started. -/
structure SensorInv (s : SensorHistory) : Prop where
  one : s.sensor.tasks.countP SensorTask.active ≤ 1
  idle : s.sensor.minEventSystime ≠ none → ∀ k ∈ s.sensor.tasks, k.active = false
  before : s.sensor.isReady = false →
    s.sensor.minEventSystime = none ∧ s.sensor.tasks = [] ∧ s.heard = false
  heard : s.sensor.filamentPresent = false → s.heard = true → s.reported = false →
    (∃ k ∈ s.sensor.tasks, k.looks = true) ∨
      (s.sensor.minEventSystime = none ∧ ∀ k ∈ s.sensor.tasks, k.active = false)
  unheard : s.sensor.filamentPresent = false → s.heard = false →
    s.reported = false ∧ ∀ k ∈ s.sensor.tasks, k.looks = false

theorem SensorHistory.init_inv (now : ℚ) : SensorInv (.init now) where
  one := Nat.zero_le _
  idle hne := absurd rfl hne
  before _ := ⟨rfl, rfl, rfl⟩
  heard _ hheard := nomatch hheard
  unheard _ _ := ⟨rfl, List.forall_mem_nil _⟩

namespace SensorInv

variable {cfg : SensorConfig} {s t : SensorHistory}

theorem inactive_of_isOpen (h : SensorInv s) (hopen : s.sensor.isOpen = true) :
    ∀ k ∈ s.sensor.tasks, k.active = false := by
  apply h.idle
  intro hnone
  rw [FilamentSensor.isOpen, hnone] at hopen
  cases hopen

theorem isReady_of_isOpen (h : SensorInv s) (hopen : s.sensor.isOpen = true) :
    s.sensor.isReady = true := by
  cases hready : s.sensor.isReady with
  | true => rfl
  | false =>
    rw [FilamentSensor.isOpen, (h.before hready).1] at hopen
    cases hopen

theorem inactive_of_split (h : SensorInv s) {l₁ l₂ : List SensorTask} {k : SensorTask}
    (hsplit : s.sensor.tasks = l₁ ++ k :: l₂) (hk : k.active = true) :
    ∀ k' ∈ l₁ ++ l₂, k'.active = false := by
  have hone := h.one
  rw [hsplit, List.countP_append, List.countP_cons_of_pos hk] at hone
  have hzero : (l₁ ++ l₂).countP SensorTask.active = 0 := by
    rw [List.countP_append]
    omega
  intro k' hk'
  exact Bool.eq_false_iff.mpr (List.countP_eq_zero.mp hzero k' hk')

theorem edge_open (h : SensorInv s) (hopen : s.sensor.isOpen = true) {p heard reported : Bool}
    {k : SensorTask} (hp : p = false → heard = true ∧ k.looks = true) :
    SensorInv
      { sensor :=
          { s.sensor with
            filamentPresent := p, minEventSystime := none, tasks := s.sensor.tasks ++ [k] }
        heard := heard
        reported := reported } := by
  have hready := h.isReady_of_isOpen hopen
  refine ⟨?_, fun hne => absurd rfl hne, fun hnot => ?_, fun hempty _ _ => Or.inl ?_,
    fun hempty hheard => ?_⟩
  · have hzero : s.sensor.tasks.countP SensorTask.active = 0 :=
      List.countP_eq_zero.mpr fun k hk => by rw [h.inactive_of_isOpen hopen k hk]; exact Bool.false_ne_true
    show (s.sensor.tasks ++ [k]).countP SensorTask.active ≤ 1
    rw [List.countP_append, hzero, Nat.zero_add]
    exact List.countP_le_length
  · exact absurd (hready.symm.trans hnot) Bool.true_eq_false.mp
  · exact ⟨k, List.mem_append_right _ (List.mem_singleton_self k), (hp hempty).2⟩
  · exact absurd ((hp hempty).1.symm.trans hheard) Bool.true_eq_false.mp

theorem edge_closed (h : SensorInv s) {p heard reported : Bool}
    (hheard : p = false → heard = s.sensor.tasks.any SensorTask.looks ∧ reported = false)
    (hsame : p = true → heard = s.heard) :
    SensorInv
      { sensor := { s.sensor with filamentPresent := p }, heard := heard, reported := reported } := by
  refine ⟨h.one, h.idle, fun hnot => ?_, fun hempty htrue _ => Or.inl ?_, fun hempty hfalse => ?_⟩
  · obtain ⟨hmin, htasks, hbefore⟩ := h.before hnot
    refine ⟨hmin, htasks, ?_⟩
    cases p with
    | true => exact (hsame rfl).trans hbefore
    | false =>
      rw [htasks] at hheard
      exact (hheard rfl).1
  · obtain ⟨hany, -⟩ := hheard hempty
    exact List.any_eq_true.mp (hany.symm.trans htrue)
  · obtain ⟨hany, hreported⟩ := hheard hempty
    refine ⟨hreported, fun k hk => Bool.eq_false_iff.mpr ?_⟩
    exact List.any_eq_false.mp (hany.symm.trans hfalse) k hk

/-- A task takes a step that leaves `min_event_systime` as it is. -/
theorem replace (h : SensorInv s) {l₁ l₂ : List SensorTask} {k : SensorTask}
    (ks : List SensorTask) (hsplit : s.sensor.tasks = l₁ ++ k :: l₂)
    (hcount : ks.countP SensorTask.active ≤ [k].countP SensorTask.active)
    (hlooks : k.looks = false → (∀ k' ∈ ks, k'.looks = false) ∧ t.reported = s.reported)
    (hheard : k.looks = true → s.sensor.filamentPresent = false →
      (∃ k' ∈ ks, k'.looks = true) ∨ t.reported = true ∨ ks = [])
    (hreported : s.reported = true → t.reported = true)
    (htasks : t.sensor.tasks = l₁ ++ ks ++ l₂)
    (hmin : t.sensor.minEventSystime = s.sensor.minEventSystime)
    (hready : t.sensor.isReady = s.sensor.isReady)
    (hpresent : t.sensor.filamentPresent = s.sensor.filamentPresent) (hsame : t.heard = s.heard) :
    SensorInv t := by
  have hk : k ∈ s.sensor.tasks := hsplit ▸ List.mem_append_right _ List.mem_cons_self
  have hothers : ∀ k' ∈ l₁ ++ l₂, k' ∈ s.sensor.tasks := by
    intro k' hk'
    rw [hsplit]
    exact (List.mem_append.mp hk').elim (List.mem_append_left _)
      fun hmem => List.mem_append_right _ (List.mem_cons_of_mem _ hmem)
  have hmem {k' : SensorTask} (hk' : k' ∈ t.sensor.tasks) : k' ∈ ks ∨ k' ∈ l₁ ++ l₂ := by
    rw [htasks] at hk'
    simp only [List.mem_append] at hk' ⊢
    tauto
  have hks {k' : SensorTask} (hk' : k' ∈ ks) : k' ∈ t.sensor.tasks := by
    rw [htasks]
    exact List.mem_append_left _ (List.mem_append_right _ hk')
  -- an inactive task is replaced by inactive ones
  have hinactive (hidle : k.active = false) : ∀ k' ∈ ks, k'.active = false := by
    have hzero : ks.countP SensorTask.active = 0 := by
      rw [List.countP_singleton, hidle] at hcount
      exact Nat.le_zero.mp hcount
    exact fun k' hk' => Bool.eq_false_iff.mpr (List.countP_eq_zero.mp hzero k' hk')
  refine ⟨?_, fun hne k' hk' => ?_, fun hnot => ?_, fun hempty htrue hfalse => ?_,
    fun hempty hfalse => ?_⟩
  · have hone := h.one
    rw [hsplit, List.countP_append, List.countP_cons] at hone
    rw [List.countP_singleton] at hcount
    rw [htasks, List.countP_append, List.countP_append]
    omega
  · rw [hmin] at hne
    rcases hmem hk' with hnew | hold
    · exact hinactive (h.idle hne k hk) k' hnew
    · exact h.idle hne k' (hothers k' hold)
  · rw [hready] at hnot
    exact absurd ((h.before hnot).2.1 ▸ hk) List.not_mem_nil
  · rw [hpresent] at hempty
    rw [hsame] at htrue
    have hfalse' : s.reported = false := by
      cases hr : s.reported with
      | false => rfl
      | true => exact absurd ((hreported hr).symm.trans hfalse) Bool.true_eq_false.mp
    rcases h.heard hempty htrue hfalse' with ⟨k', hk', hlook⟩ | ⟨hnone, hall⟩
    · rw [hsplit] at hk'
      rcases List.mem_append.mp hk' with hmem₁ | hmem₂
      · exact Or.inl ⟨k', htasks ▸ List.mem_append_left _ (List.mem_append_left _ hmem₁), hlook⟩
      · rcases List.mem_cons.mp hmem₂ with rfl | hmem₂
        · rcases hheard hlook hempty with ⟨k'', hk'', hlook''⟩ | hrep | hnil
          · exact Or.inl ⟨k'', hks hk'', hlook''⟩
          · exact absurd (hrep.symm.trans hfalse) Bool.true_eq_false.mp
          · have hactive := SensorTask.active_of_looks hlook
            refine Or.inr ⟨?_, fun k'' hk'' => ?_⟩
            · rw [hmin]
              exact of_not_not fun hne => absurd (hactive.symm.trans (h.idle hne k' hk))
                Bool.true_eq_false.mp
            · rcases hmem hk'' with hnew | hold
              · exact absurd (hnil ▸ hnew) List.not_mem_nil
              · exact h.inactive_of_split hsplit hactive k'' hold
        · exact Or.inl ⟨k', htasks ▸ List.mem_append_right _ hmem₂, hlook⟩
    · refine Or.inr ⟨hmin.trans hnone, fun k' hk' => ?_⟩
      rcases hmem hk' with hnew | hold
      · exact hinactive (hall k hk) k' hnew
      · exact hall k' (hothers k' hold)
  · rw [hpresent] at hempty
    rw [hsame] at hfalse
    obtain ⟨hrep, hall⟩ := h.unheard hempty hfalse
    obtain ⟨hnew, hsame'⟩ := hlooks (hall k hk)
    refine ⟨hsame'.trans hrep, fun k' hk' => ?_⟩
    exact (hmem hk').elim (hnew k') fun hold => hall k' (hothers k' hold)

/-- The active task opens the sensor again after the event delay. -/
theorem reopen (h : SensorInv s) {l₁ l₂ : List SensorTask} {k : SensorTask}
    (ks : List SensorTask) (hsplit : s.sensor.tasks = l₁ ++ k :: l₂) (hk : k.active = true) (hlook : k.looks = false)
    (hks : ∀ k' ∈ ks, k'.active = false) (htasks : t.sensor.tasks = l₁ ++ ks ++ l₂)
    (hready : t.sensor.isReady = s.sensor.isReady)
    (hpresent : t.sensor.filamentPresent = s.sensor.filamentPresent) (hsame : t.heard = s.heard)
    (hreported : t.reported = s.reported) : SensorInv t := by
  have hmem : k ∈ s.sensor.tasks := hsplit ▸ List.mem_append_right _ List.mem_cons_self
  have hothers := h.inactive_of_split hsplit hk
  have hall : ∀ k' ∈ t.sensor.tasks, k'.active = false := by
    intro k' hk'
    rw [htasks, List.append_assoc] at hk'
    rcases List.mem_append.mp hk' with hmem₁ | hmem₂
    · exact hothers k' (List.mem_append_left _ hmem₁)
    · exact (List.mem_append.mp hmem₂).elim (hks k') fun hm => hothers k' (List.mem_append_right _ hm)
  have hunlook {k' : SensorTask} (hk' : k'.active = false) : k'.looks = false := by
    cases hl : k'.looks with
    | false => rfl
    | true => exact (SensorTask.active_of_looks hl).symm.trans hk'
  refine ⟨?_, fun _ => hall, fun hnot => ?_, fun hempty htrue hfalse => ?_, fun hempty hfalse => ?_⟩
  · have hzero : t.sensor.tasks.countP SensorTask.active = 0 :=
      List.countP_eq_zero.mpr fun k' hk' => by rw [hall k' hk']; exact Bool.false_ne_true
    exact hzero.le.trans zero_le_one
  · rw [hready] at hnot
    exact absurd ((h.before hnot).2.1 ▸ hmem) List.not_mem_nil
  · rw [hpresent] at hempty
    rw [hsame] at htrue
    rw [hreported] at hfalse
    rcases h.heard hempty htrue hfalse with ⟨k', hk', hl⟩ | ⟨-, hidle⟩
    · rw [hsplit] at hk'
      have hmem' : k' = k ∨ k' ∈ l₁ ++ l₂ := by
        simp only [List.mem_append, List.mem_cons] at hk' ⊢
        tauto
      rcases hmem' with rfl | hold
      · exact absurd (hl.symm.trans hlook) Bool.true_eq_false.mp
      · exact absurd (hl.symm.trans (hunlook (hothers k' hold))) Bool.true_eq_false.mp
    · exact absurd (hk.symm.trans (hidle k hmem)) Bool.true_eq_false.mp
  · rw [hpresent] at hempty
    rw [hsame] at hfalse
    refine ⟨hreported.trans (h.unheard hempty hfalse).1, fun k' hk' => hunlook (hall k' hk')⟩

/-- An edge, with the sensor enabled and the printer printing. -/
theorem note (h : SensorInv s) (henabled : cfg.sensorEnabled = true)
    (hrunout : cfg.runoutGcode = true) {p : Bool}
    (hstep : s.step cfg (.note p true) = some t) : SensorInv t := by
  obtain ⟨sensor, hsensor, rfl⟩ := Option.map_eq_some_iff.mp hstep
  simp only [FilamentSensor.noteFilamentPresent] at hsensor
  split at hsensor
  · next hsame =>
    obtain rfl := Option.some.inj hsensor
    rw [if_pos (Or.inl hsame)]
    exact h
  · next hne =>
    have hpresent (heq : p = s.sensor.filamentPresent ∨ p = true) : p = true := heq.resolve_left hne
    split at hsensor
    · next hclosed =>
      obtain rfl := Option.some.inj hsensor
      have hclosed' : s.sensor.isOpen = false := (Bool.not_eq_true' _).mp hclosed
      split
      · next hor =>
        exact h.edge_closed (fun hp => absurd ((hpresent hor).symm.trans hp) Bool.true_eq_false.mp)
          fun _ => rfl
      · next hor =>
        refine h.edge_closed (fun _ => ⟨?_, rfl⟩) fun hp => absurd (Or.inr hp) hor
        rw [hclosed', Bool.false_or]
    · next hopen =>
      have hopen' : s.sensor.isOpen = true := Bool.not_eq_false _ |>.mp fun hfalse =>
        hopen ((Bool.not_eq_true' _).mpr hfalse)
      rw [henabled, hrunout] at hsensor
      simp only [Bool.not_true, Bool.false_eq_true, if_false, Bool.and_true] at hsensor
      split at hsensor
      · next hp =>
        rw [if_pos (Or.inr hp)]
        split at hsensor
        · obtain rfl := Option.some.inj hsensor
          exact h.edge_open hopen' fun hfalse => absurd (hp.symm.trans hfalse) Bool.true_eq_false.mp
        · obtain rfl := Option.some.inj hsensor
          exact h.edge_closed (fun hfalse => absurd (hp.symm.trans hfalse) Bool.true_eq_false.mp)
            fun _ => rfl
      · next hp =>
        rw [if_pos trivial] at hsensor
        obtain rfl := Option.some.inj hsensor
        rw [if_neg fun hor => hp (hpresent hor), hopen', Bool.true_or]
        exact h.edge_open hopen' fun _ => ⟨rfl, rfl⟩

/-- A step of a task. -/
theorem run (h : SensorInv s) {i : Nat} (hstep : s.step cfg (.run i) = some t) : SensorInv t := by
  obtain ⟨k, hk, rfl⟩ := Option.map_eq_some_iff.mp hstep
  obtain ⟨hi, hget⟩ := List.getElem?_eq_some_iff.mp hk
  have hsplit : s.sensor.tasks = s.sensor.tasks.take i ++ k :: s.sensor.tasks.drop (i + 1) := by
    rw [← hget, ← List.drop_eq_getElem_cons hi, List.take_append_drop]
  cases k with
  | runoutCheckThread =>
    exact h.replace [.debounce .start] hsplit le_rfl (fun hl => nomatch hl)
      (fun _ _ => Or.inl ⟨_, List.mem_singleton_self _, rfl⟩) (fun hr => by simp [hr])
      rfl rfl rfl rfl rfl
  | debounce thread =>
    cases thread with
    | start =>
      simp only [FilamentSensor.runTask]
      split
      · exact h.replace [] hsplit (Nat.zero_le _) (fun hl => nomatch hl)
          (fun _ _ => Or.inr (Or.inr rfl)) (fun hr => by simp [hr]) rfl rfl rfl rfl rfl
      · exact h.replace [.debounce .sample] hsplit le_rfl (fun hl => nomatch hl)
          (fun _ _ => Or.inl ⟨_, List.mem_singleton_self _, rfl⟩) (fun hr => by simp [hr])
          rfl rfl rfl rfl rfl
    | sample =>
      simp only [FilamentSensor.runTask]
      split
      · next hpresent =>
        exact h.replace [.debounce .falseAlarm] hsplit le_rfl (fun hl => nomatch hl)
          (fun _ hempty => absurd (hpresent.symm.trans hempty) Bool.true_eq_false.mp)
          (fun hr => by simp [hr]) rfl rfl rfl rfl rfl
      · split
        · exact h.replace [.debounce .finish, .runoutHandler false] hsplit le_rfl
            (fun hl => nomatch hl) (fun _ _ => Or.inl ⟨.runoutHandler false, by simp, rfl⟩)
            (fun hr => by simp [hr]) rfl rfl rfl rfl rfl
        · exact h.replace [.debounce .sample] hsplit le_rfl (fun hl => nomatch hl)
            (fun _ _ => Or.inl ⟨_, List.mem_singleton_self _, rfl⟩) (fun hr => by simp [hr])
            rfl rfl rfl rfl rfl
    | falseAlarm =>
      exact h.reopen [.debounce .finish] hsplit rfl rfl (by simp [SensorTask.active])
        rfl rfl rfl rfl (by simp)
    | finish =>
      exact h.replace [] hsplit le_rfl (fun _ => ⟨List.forall_mem_nil _, by simp⟩)
        (fun hl => nomatch hl) (fun hr => by simp [hr]) rfl rfl rfl rfl rfl
  | runoutHandler started =>
    cases started with
    | false =>
      exact h.replace [.runoutHandler true] hsplit le_rfl (fun hl => nomatch hl)
        (fun _ _ => Or.inr (Or.inl (by simp))) (fun hr => by simp [hr]) rfl rfl rfl rfl rfl
    | true => exact h.reopen [] hsplit rfl rfl (List.forall_mem_nil _) rfl rfl rfl rfl (by simp)
  | insertHandler started =>
    cases started with
    | false =>
      exact h.replace [.insertHandler true] hsplit le_rfl
        (fun _ => ⟨by simp [SensorTask.looks], by simp⟩)
        (fun hl => nomatch hl) (fun hr => by simp [hr]) rfl rfl rfl rfl rfl
    | true => exact h.reopen [] hsplit rfl rfl (List.forall_mem_nil _) rfl rfl rfl rfl (by simp)

theorem step (h : SensorInv s) (henabled : cfg.sensorEnabled = true)
    (hrunout : cfg.runoutGcode = true) {e : SensorEvent} (hprinting : ∀ p, e ≠ .note p false)
    (hstep : s.step cfg e = some t) : SensorInv t := by
  cases e with
  | ready =>
    simp only [SensorHistory.step] at hstep
    split at hstep
    · cases hstep
    · next hnot =>
      obtain rfl := Option.some.inj hstep
      obtain ⟨-, htasks, hheard⟩ := h.before (by simpa using hnot)
      refine ⟨h.one, fun _ k hk => ?_, (fun hfalse => nomatch hfalse), fun _ htrue => ?_, h.unheard⟩
      · exact absurd (htasks ▸ hk) List.not_mem_nil
      · exact absurd (htrue.symm.trans hheard) Bool.true_eq_false.mp
  | note p isPrinting =>
    cases isPrinting with
    | false => exact absurd rfl (hprinting p)
    | true => exact h.note henabled hrunout hstep
  | run i => exact h.run hstep
  | tick dt =>
    simp only [SensorHistory.step] at hstep
    split at hstep
    · obtain rfl := Option.some.inj hstep
      exact ⟨h.one, h.idle, h.before, h.heard, h.unheard⟩
    · cases hstep

end SensorInv

/-! ## Every run -/

/-- In every reachable state with no filament and `min_event_systime` passed, a runout
handler has run for the current absence if and only if its edge was heard: it found the
sensor open, or a task that looks at the sensor later on. -/
theorem reported_iff_heard {cfg : SensorConfig} {now : ℚ} {es : List SensorEvent}
    {s : SensorHistory} (h : SensorRun cfg (.init now) es s) (hempty : EmptyAndOpen s) :
    s.reported = true ↔ s.heard = true := by
  obtain ⟨⟨henabled, hrunout⟩, hrun⟩ := h
  have hinv : SensorInv s := Run.invariant (P := SensorInv) hrun (SensorHistory.init_inv now)
    fun s e t hs hstep => hs.step henabled hrunout hstep.2 hstep.1
  obtain ⟨habsent, hopen⟩ := hempty
  have hidle := hinv.inactive_of_isOpen hopen
  constructor
  · intro hreported
    cases hheard : s.heard with
    | true => rfl
    | false => exact (hinv.unheard habsent hheard).1.symm.trans hreported
  · intro hheard
    cases hreported : s.reported with
    | true => rfl
    | false =>
      rcases hinv.heard habsent hheard hreported with ⟨k, hk, hlook⟩ | ⟨hnone, -⟩
      · exact (hidle k hk).symm.trans (SensorTask.active_of_looks hlook)
      · rw [FilamentSensor.isOpen, hnone] at hopen
        cases hopen

/-- A sensor with the default delay and no script for an insert. -/
def defaultSensor : SensorConfig where
  sensorEnabled := true
  insertGcode := false
  runoutGcode := true
  onDisableGcode := false
  eventDelay := 3

/-- Filament is loaded; it slips out, is seen once more by the debounce thread and is gone
for good during the event delay after the false alarm. -/
def falseAlarmEvents : List SensorEvent :=
  [.ready, .tick 5, .note true true, .note false true, .run 0, .run 0, .run 0, .note true true,
    .run 0, .run 0, .note false true, .run 0, .tick 5]

/-- Nothing is reported, and nothing will be until the filament is back. -/
theorem runout_lost_after_false_alarm : ∃ s : SensorHistory,
    SensorRun defaultSensor (.init 0) falseAlarmEvents s ∧ EmptyAndOpen s ∧ s.reported = false := by
  obtain ⟨s, hrun, hs⟩ : ∃ s : SensorHistory,
      Run (fun s e t => SensorHistory.step defaultSensor s e = some t) (.init 0)
        falseAlarmEvents s ∧
      (!s.sensor.filamentPresent && s.sensor.isOpen && !s.reported) = true :=
    Run.exists_of_any (by decide +kernel)
  simp only [Bool.and_eq_true, Bool.not_eq_true'] at hs
  obtain ⟨⟨habsent, hopen⟩, hreported⟩ := hs
  have hprinting : ∀ e ∈ falseAlarmEvents, ∀ p, e ≠ .note p false := by decide
  exact ⟨s, ⟨⟨rfl, rfl⟩, hrun.and_events hprinting⟩, ⟨habsent, hopen⟩, hreported⟩

/-- Filament is loaded and runs out with the sensor open. -/
def runoutEvents : List SensorEvent :=
  [.ready, .tick 5, .note true true, .note false true, .run 0, .run 0, .run 0, .run 0, .run 0,
    .run 0, .run 0, .run 0, .run 0, .run 0, .run 0, .tick 5]

theorem reported_iff_heard_runout : ∃ s : SensorHistory,
    EmptyAndOpen s ∧ s.reported = true ∧ (s.reported = true ↔ s.heard = true) := by
  obtain ⟨s, hrun, hs⟩ : ∃ s : SensorHistory,
      Run (fun s e t => SensorHistory.step defaultSensor s e = some t) (.init 0) runoutEvents s ∧
      (!s.sensor.filamentPresent && s.sensor.isOpen && s.reported) = true :=
    Run.exists_of_any (by decide +kernel)
  simp only [Bool.and_eq_true, Bool.not_eq_true'] at hs
  obtain ⟨⟨habsent, hopen⟩, hreported⟩ := hs
  have hprinting : ∀ e ∈ runoutEvents, ∀ p, e ≠ .note p false := by decide
  have hsensor : SensorRun defaultSensor (.init 0) runoutEvents s :=
    ⟨⟨rfl, rfl⟩, hrun.and_events hprinting⟩
  exact ⟨s, ⟨habsent, hopen⟩, hreported, reported_iff_heard hsensor ⟨habsent, hopen⟩⟩

end FlsunT1.Klippy
