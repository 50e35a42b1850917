/-
  Moonraker/JobQueuePops.lean --- the pops of the job queue.

  A pop is scheduled when the queue is loading.  The state and the pops part where the state is
  set while a pop cannot be cancelled any more, or is not cancelled.
-/
import FlsunT1.Moonraker.JobQueue

set_option autoImplicit false

namespace FlsunT1.Moonraker

open Library

/-! ## Pops -/

def QueueTask.popJob : QueueTask → Option PopJob
  | .pop p => some p
  | .call _ => none

def LockHolder.popJob : LockHolder → Option PopJob
  | .popCheck pop _ | .popTransition pop _ | .popStart pop _ => some pop
  | .startCheck => none

namespace JobQueue

variable {config : QueueConfig}

/-- The pops that wait for the lock or hold it. -/
def activePops (s : JobQueue) : List PopJob :=
  s.waiters.filterMap QueueTask.popJob ++ (s.holder.bind LockHolder.popJob).toList

/-- The pops that are scheduled or running. -/
def pops (s : JobQueue) : List PopJob := s.timers ++ s.expired ++ s.activePops

/-- At most one pop is scheduled or running, exactly while the queue is loading or starting, and
the handle refers to it while it is scheduled. -/
structure OnePop (s : JobQueue) : Prop where
  one : s.pops.length ≤ 1
  handle : ∀ pop ∈ s.timers, s.popQueueHandle = some pop.handle
  state : s.pops ≠ [] ↔ s.queueState = .loading ∨ s.queueState = .starting

/-- The invariant: there is one pop; the state is `starting` only while its print is started;
no pop has the lock while `start_queue` has it; and a pop starts one print. -/
structure PopInv (s : JobQueue) : Prop extends s.OnePop where
  starting : s.queueState = .starting → ∃ pop job, s.holder = some (.popStart pop job)
  popStart : ∀ pop job, s.holder = some (.popStart pop job) → s.queueState ≠ .loading
  startCheck : s.holder = some .startCheck → s.pops = []
  fresh : ∀ pop ∈ s.pops, pop.handle < s.nextHandle ∧
    (pop.handle ∈ s.started.map Prod.fst → ∃ job, s.holder = some (.popStart pop job))
  old : ∀ handle ∈ s.started.map Prod.fst, handle < s.nextHandle
  nodup : (s.started.map Prod.fst).Nodup

/-- The condition on a coroutine that gets the lock and is no pop. -/
def CallCondition (config : QueueConfig) (s : JobQueue) : QueueCall → Prop
  | .jobAbort => s.queuedJobs = [] ∨ s.pops = []
  | .klippyShutdown => s.queuedJobs ≠ [] ∨ config.automatic = false ∨ s.pops = []
  | .klippyReady | .jobComplete | .queueJob _ _ _ | .deleteJob _ _ | .jump _ | .pauseQueue
  | .startQueue => True

/-- The condition on the end of a wait: no other exception ends a pop. -/
def HolderCondition (answer : KlippyAnswer) : LockHolder → Prop
  | .popTransition _ _ | .popStart _ _ => answer ≠ .raised
  | .popCheck _ _ | .startCheck => True

/-- The condition on a step: the queue is paused only where a pop can be cancelled; no job is
aborted, and the queue is not made ready after a shutdown, while there is a pop; and no pop is
ended by another exception. -/
def PopCondition (config : QueueConfig) (s : JobQueue) : QueueEvent → Prop
  | .call .pauseQueue _ | .call .klippyShutdown _ => s.pops = [] ∨ s.timers ≠ []
  | .call .jobAbort _ =>
    s.holder = none ∧ s.waiters = [] → s.CallCondition config .jobAbort
  | .wake _ => ∀ call, s.waiters.head? = some (.call call) → s.CallCondition config call
  | .resume answer => ∀ holder, s.holder = some holder → HolderCondition answer holder
  | .call _ _ | .expire _ | .startPop _ _ => True

theorem pops_congr {s t : JobQueue} (htimers : t.timers = s.timers) (hexpired : t.expired = s.expired)
    (hwaiters : t.waiters.filterMap QueueTask.popJob = s.waiters.filterMap QueueTask.popJob)
    (hholder : t.holder = s.holder) : t.pops = s.pops := by
  rw [pops, activePops, htimers, hexpired, hwaiters, hholder, pops, activePops]

theorem PopInv.congr {s t : JobQueue} (hs : s.PopInv) (hstate : t.queueState = s.queueState)
    (hhandle : t.popQueueHandle = s.popQueueHandle) (htimers : t.timers = s.timers)
    (hpops : t.pops = s.pops) (hholder : t.holder = s.holder) (hnext : t.nextHandle = s.nextHandle)
    (hstarted : t.started = s.started) : t.PopInv := by
  obtain ⟨⟨one, handle, state⟩, starting, popStart, startCheck, fresh, old, nodup⟩ := hs
  refine ⟨⟨?_, ?_, ?_⟩, ?_, ?_, ?_, ?_, ?_, ?_⟩
  · rwa [hpops]
  · rwa [htimers, hhandle]
  · rwa [hpops, hstate]
  · rwa [hstate, hholder]
  · rwa [hholder, hstate]
  · rwa [hholder, hpops]
  · rwa [hpops, hnext, hstarted, hholder]
  · rwa [hstarted, hnext]
  · rwa [hstarted]

/-- The states in which there is no pop. -/
def Idle (state : QueueState) : Prop := state = .ready ∨ state = .paused

theorem not_active_of_idle {state : QueueState} (h : Idle state) :
    ¬(state = .loading ∨ state = .starting) := by
  obtain rfl | rfl := h
  · exact fun h => h.elim (fun h => nomatch h) fun h => nomatch h
  · exact fun h => h.elim (fun h => nomatch h) fun h => nomatch h

theorem idle_of_not_active {state : QueueState} (h : ¬(state = .loading ∨ state = .starting)) :
    Idle state := by
  cases state with
  | ready => exact Or.inl rfl
  | paused => exact Or.inr rfl
  | loading => exact absurd (Or.inl rfl) h
  | starting => exact absurd (Or.inr rfl) h

theorem idle_emptyState (config : QueueConfig) : Idle (emptyState config) := by
  rw [emptyState]
  split
  · exact Or.inl rfl
  · exact Or.inr rfl

theorem not_onePop {t : JobQueue} (hpops : t.pops ≠ []) (hstate : Idle t.queueState) :
    ¬t.OnePop := fun h => not_active_of_idle hstate (h.state.mp hpops)

theorem OnePop.pops_eq_nil {s : JobQueue} (hs : s.OnePop) (hstate : Idle s.queueState) :
    s.pops = [] := not_not.mp fun hpops => not_onePop hpops hstate hs

/-- A queue without pops. -/
theorem PopInv.of_nil {s t : JobQueue} (hs : s.PopInv) (hpops : t.pops = [])
    (hstate : Idle t.queueState) (hnext : t.nextHandle = s.nextHandle)
    (hstarted : t.started = s.started) : t.PopInv := by
  have hnot := not_active_of_idle hstate
  have hholder (pop : PopJob) (job : QueuedJob) : t.holder ≠ some (.popStart pop job) := by
    intro h
    obtain ⟨-, hactive⟩ := List.append_eq_nil_iff.mp hpops
    obtain ⟨-, hnil⟩ := List.append_eq_nil_iff.mp hactive
    rw [h] at hnil
    cases hnil
  refine ⟨⟨?_, fun pop hpop => ?_, fun h => absurd hpops h, fun h => absurd h hnot⟩,
    fun h => absurd (Or.inr h) hnot, fun pop job h => absurd h (hholder pop job),
    fun _ => hpops, fun pop hpop => ?_, ?_, ?_⟩
  · rw [hpops]
    exact Nat.zero_le 1
  · have hmem : pop ∈ t.pops := List.mem_append_left _ (List.mem_append_left _ hpop)
    rw [hpops] at hmem
    cases hmem
  · rw [hpops] at hpop
    cases hpop
  · rw [hstarted, hnext]
    exact hs.old
  · rw [hstarted]
    exact hs.nodup

/-- A pop is scheduled where there is none. -/
theorem popInv_schedule {s t : JobQueue} (hs : s.PopInv) (hpops : s.pops = []) {need : Bool}
    (htimers : t.timers = s.timers ++ [⟨s.nextHandle, need⟩]) (hexpired : t.expired = s.expired)
    (hwaiters : t.waiters = s.waiters) (hholder : t.holder = none)
    (hstate : t.queueState = .loading) (hhandle : t.popQueueHandle = some s.nextHandle)
    (hnext : t.nextHandle = s.nextHandle + 1) (hstarted : t.started = s.started) : t.PopInv := by
  obtain ⟨hscheduled, hactive⟩ := List.append_eq_nil_iff.mp hpops
  obtain ⟨htimers₀, hexpired₀⟩ := List.append_eq_nil_iff.mp hscheduled
  obtain ⟨hwaiters₀, -⟩ := List.append_eq_nil_iff.mp hactive
  have hnew : t.pops = [⟨s.nextHandle, need⟩] := by
    rw [pops, activePops, htimers, hexpired, hwaiters, hholder, htimers₀, hexpired₀, hwaiters₀]
    rfl
  refine ⟨⟨?_, fun pop hpop => ?_, fun _ => Or.inl hstate, fun _ => ?_⟩,
    (fun h => nomatch hstate.symm.trans h), (fun _ _ h => nomatch hholder.symm.trans h),
    (fun h => nomatch hholder.symm.trans h), fun pop hpop => ?_, fun handle hmem => ?_, ?_⟩
  · rw [hnew]
    exact Nat.le_refl 1
  · rw [htimers, htimers₀, List.nil_append, List.mem_singleton] at hpop
    rw [hpop, hhandle]
  · rw [hnew]
    exact List.cons_ne_nil _ _
  · rw [hnew, List.mem_singleton] at hpop
    rw [hpop, hnext, hstarted]
    exact ⟨Nat.lt_succ_self _, fun hmem => absurd (hs.old _ hmem) (Nat.lt_irrefl _)⟩
  · rw [hstarted] at hmem
    rw [hnext]
    exact Nat.lt_succ_of_lt (hs.old handle hmem)
  · rw [hstarted]
    exact hs.nodup

/-- A pop goes on, and is not scheduled any more. -/
theorem popInv_of_single {s t : JobQueue} (hs : s.PopInv) {pop : PopJob} (hpop : pop ∈ s.pops)
    (hnone : ∀ pop job, s.holder ≠ some (.popStart pop job)) (hpops : t.pops = [pop])
    (htimers : t.timers = []) (hstate : t.queueState = .loading)
    (hholder : ∀ pop job, t.holder ≠ some (.popStart pop job))
    (hcheck : t.holder ≠ some .startCheck) (hnext : t.nextHandle = s.nextHandle)
    (hstarted : t.started = s.started) : t.PopInv := by
  refine ⟨⟨?_, fun pop' hpop' => ?_, fun _ => Or.inl hstate, fun _ => ?_⟩,
    (fun h => nomatch hstate.symm.trans h), fun pop' job h => absurd h (hholder pop' job),
    fun h => absurd h hcheck, fun pop' hpop' => ?_, ?_, ?_⟩
  · rw [hpops]
    exact Nat.le_refl 1
  · rw [htimers] at hpop'
    cases hpop'
  · rw [hpops]
    exact List.cons_ne_nil _ _
  · rw [hpops, List.mem_singleton] at hpop'
    rw [hpop', hnext, hstarted]
    obtain ⟨hlt, hstarting⟩ := hs.fresh pop hpop
    exact ⟨hlt, fun hmem => (hstarting hmem).elim fun job h => absurd h (hnone pop job)⟩
  · rw [hstarted, hnext]
    exact hs.old
  · rw [hstarted]
    exact hs.nodup

/-! ## Coroutines that get the lock -/

theorem PopInv.idle_of_ne_loading {s : JobQueue} (hs : s.PopInv) (hfree : s.holder = none)
    (hstate : s.queueState ≠ .loading) : Idle s.queueState := by
  refine idle_of_not_active ?_
  rintro (h | h)
  · exact hstate h
  · obtain ⟨pop, job, hholder⟩ := hs.starting h
    exact nomatch hfree.symm.trans hholder

theorem popInv_runCall {s : JobQueue} (hs : s.PopInv) (hfree : s.holder = none) {call : QueueCall}
    (hcond : s.CallCondition config call) (env : QueueEnv) :
    (s.runTask config env (.call call)).PopInv := by
  have hkeep {t : JobQueue} (hstate : t.queueState = s.queueState)
      (hhandle : t.popQueueHandle = s.popQueueHandle) (htimers : t.timers = s.timers)
      (hpops : t.pops = s.pops) (hholder : t.holder = s.holder)
      (hnext : t.nextHandle = s.nextHandle) (hstarted : t.started = s.started) : t.PopInv :=
    hs.congr hstate hhandle htimers hpops hholder hnext hstarted
  cases call with
  | klippyReady =>
    rw [runTask, handleReady]
    dsimp only
    split
    · exact hkeep rfl rfl rfl rfl rfl rfl rfl
    · split
      · rename_i hstate
        exact popInv_schedule hs (hs.pops_eq_nil hstate) rfl rfl rfl hfree rfl rfl rfl rfl
      · exact hkeep rfl rfl rfl rfl rfl rfl rfl
  | klippyShutdown =>
    rw [runTask, handleShutdown]
    split
    · rename_i hempty
      have hpops : s.pops = [] := by
        obtain hjobs | hautomatic | hpops := hcond
        · exact absurd hempty.1 hjobs
        · exact absurd (hautomatic.symm.trans hempty.2) Bool.false_ne_true
        · exact hpops
      exact hs.of_nil hpops (Or.inl rfl) rfl rfl
    · exact hs
  | jobComplete =>
    rw [runTask, onJobComplete]
    split
    · rename_i hready
      exact popInv_schedule hs (hs.pops_eq_nil (Or.inl hready.1)) rfl rfl rfl hfree rfl rfl rfl rfl
    · exact hs
  | jobAbort =>
    rw [runTask, onJobAbort]
    split
    · rename_i hjobs
      exact hs.of_nil (hcond.resolve_left hjobs) (Or.inr rfl) rfl rfl
    · exact hs
  | queueJob filenames checkExists reset =>
    rw [runTask, queueJob]
    split
    · exact hs
    · exact hkeep rfl rfl rfl rfl rfl rfl rfl
  | deleteJob jobIds all => exact hkeep rfl rfl rfl rfl rfl rfl rfl
  | jump jobId =>
    rw [runTask, handleJump]
    split
    · exact hs
    · exact hkeep rfl rfl rfl rfl rfl rfl rfl
  | pauseQueue => exact hkeep rfl rfl rfl rfl rfl rfl rfl
  | startQueue =>
    rw [runTask, startQueue]
    dsimp only
    split
    · rename_i hstate
      have hidle := hs.idle_of_ne_loading hfree hstate
      have hpops := hs.pops_eq_nil hidle
      split
      · refine hs.of_nil ?_ hidle rfl rfl
        obtain ⟨hscheduled, hactive⟩ := List.append_eq_nil_iff.mp hpops
        obtain ⟨hwaiters, -⟩ := List.append_eq_nil_iff.mp hactive
        rw [pops, activePops, hscheduled, hwaiters]
        rfl
      · exact hs.of_nil hpops (idle_emptyState config) rfl rfl
    · exact hkeep rfl rfl rfl rfl rfl rfl rfl

/-- A pop gets the lock: `s` is the state without it, which has no others. -/
theorem popInv_popJob {s₀ s : JobQueue} (hs : s₀.PopInv) {pop : PopJob} (hpop : pop ∈ s₀.pops)
    (hfree₀ : s₀.holder = none) (hnext : s.nextHandle = s₀.nextHandle)
    (hstarted : s.started = s₀.started) (hpops : s.pops = [])
    (hstate : s.queueState = .loading) : (s.popJob config pop).PopInv := by
  have hnone (pop : PopJob) (job : QueuedJob) : s₀.holder ≠ some (.popStart pop job) :=
    fun h => nomatch hfree₀.symm.trans h
  obtain ⟨hscheduled, hactive⟩ := List.append_eq_nil_iff.mp hpops
  obtain ⟨htimers, hexpired⟩ := List.append_eq_nil_iff.mp hscheduled
  obtain ⟨hwaiters, -⟩ := List.append_eq_nil_iff.mp hactive
  rw [popJob, if_neg (by rw [hstate]; exact QueueState.noConfusion)]
  split
  · exact hs.of_nil hpops (idle_emptyState config) hnext hstarted
  · refine popInv_of_single hs hpop hnone ?_ htimers hstate (fun _ _ h => nomatch h)
      (fun h => nomatch h) hnext hstarted
    rw [pops, activePops, hscheduled, hwaiters]
    rfl

/-- The condition is necessary. -/
theorem callCondition_of_onePop {s : JobQueue} {call : QueueCall} {env : QueueEnv}
    (h : (s.runTask config env (.call call)).OnePop) : s.CallCondition config call := by
  cases call with
  | klippyShutdown =>
    rw [runTask, handleShutdown] at h
    split at h
    · by_contra hnot
      obtain ⟨-, hnot⟩ := not_or.mp hnot
      exact not_onePop (t := { s with queueState := .ready }) (not_or.mp hnot).2 (Or.inl rfl) h
    · rename_i hempty
      by_cases hjobs : s.queuedJobs = []
      · exact Or.inr (Or.inl (Bool.eq_false_iff.mpr fun h => hempty ⟨hjobs, h⟩))
      · exact Or.inl hjobs
  | jobAbort =>
    rw [runTask, onJobAbort] at h
    split at h
    · by_contra hnot
      exact not_onePop (t := { s with queueState := .paused }) (not_or.mp hnot).2 (Or.inr rfl) h
    · rename_i hjobs
      exact Or.inl (not_not.mp hjobs)
  | klippyReady | jobComplete | queueJob _ _ _ | deleteJob _ _ | jump _ | pauseQueue
  | startQueue => trivial

/-! ## Coroutines that waited for klippy -/

theorem PopInv.pops_eq_holder {s : JobQueue} (hs : s.PopInv) {holder : LockHolder}
    (hholder : s.holder = some holder) {pop : PopJob} (hpop : holder.popJob = some pop) :
    s.pops = [pop] ∧ s.timers = [] ∧ s.expired = [] ∧
      s.waiters.filterMap QueueTask.popJob = [] := by
  have hone := hs.one
  have hpops : s.pops = s.timers ++ s.expired ++
      (s.waiters.filterMap QueueTask.popJob ++ [pop]) := by
    rw [pops, activePops, hholder, Option.bind_some, hpop]
    rfl
  rw [hpops] at hone
  simp only [List.length_append, List.length_singleton] at hone
  have htimers : s.timers = [] := List.eq_nil_of_length_eq_zero (by omega)
  have hexpired : s.expired = [] := List.eq_nil_of_length_eq_zero (by omega)
  have hwaiters : s.waiters.filterMap QueueTask.popJob = [] :=
    List.eq_nil_of_length_eq_zero (by omega)
  refine ⟨?_, htimers, hexpired, hwaiters⟩
  rw [hpops, htimers, hexpired, hwaiters]
  rfl

theorem PopInv.end_pop {s t : JobQueue} (hs : s.PopInv) {holder : LockHolder}
    (hholder : s.holder = some holder) {pop : PopJob} (hpop : holder.popJob = some pop)
    (htimers : t.timers = s.timers) (hexpired : t.expired = s.expired)
    (hwaiters : t.waiters = s.waiters) (hfree : t.holder = none) (hstate : Idle t.queueState)
    (hnext : t.nextHandle = s.nextHandle) (hstarted : t.started = s.started) : t.PopInv := by
  obtain ⟨-, htimers₀, hexpired₀, hwaiters₀⟩ := hs.pops_eq_holder hholder hpop
  refine hs.of_nil ?_ hstate hnext hstarted
  rw [pops, activePops, htimers, hexpired, hwaiters, hfree, htimers₀, hexpired₀, hwaiters₀]
  rfl

/-- The print of a pop is started, for the first time. -/
theorem popInv_startPrint {s : JobQueue} (hs : s.PopInv) {holder : LockHolder}
    (hholder : s.holder = some holder) {pop : PopJob} (hpop : holder.popJob = some pop)
    (hnone : ∀ pop job, holder ≠ .popStart pop job) (job : QueuedJob) :
    (s.startPrint pop job).PopInv := by
  obtain ⟨hpops₀, htimers, hexpired, hwaiters⟩ := hs.pops_eq_holder hholder hpop
  obtain ⟨hlt, hstarting⟩ := hs.fresh pop (hpops₀ ▸ List.mem_cons_self)
  have hnot : pop.handle ∉ s.started.map Prod.fst := fun hmem => by
    obtain ⟨job', hjob'⟩ := hstarting hmem
    exact hnone pop job' (Option.some.inj (hholder.symm.trans hjob'))
  have hpops : (s.startPrint pop job).pops = [pop] := by
    show s.timers ++ s.expired ++ (s.waiters.filterMap QueueTask.popJob ++ [pop]) = [pop]
    rw [htimers, hexpired, hwaiters]
    rfl
  refine ⟨⟨?_, fun pop' hpop' => ?_, fun _ => Or.inr rfl, fun _ => ?_⟩,
    fun _ => ⟨pop, job, rfl⟩, (fun _ _ _ h => nomatch h), (fun h => nomatch h),
    fun pop' hpop' => ?_, fun handle hmem => ?_, ?_⟩
  · rw [hpops]
    exact Nat.le_refl 1
  · have htimer : pop' ∈ s.timers := hpop'
    rw [htimers] at htimer
    cases htimer
  · rw [hpops]
    exact List.cons_ne_nil _ _
  · rw [hpops, List.mem_singleton] at hpop'
    rw [hpop']
    exact ⟨hlt, fun _ => ⟨job, rfl⟩⟩
  · rw [startPrint, List.map_append] at hmem
    obtain hmem | hmem := List.mem_append.mp hmem
    · exact hs.old handle hmem
    · rw [List.mem_singleton.mp hmem]
      exact hlt
  · rw [startPrint, List.map_append]
    refine List.nodup_append.mpr ⟨hs.nodup, List.pairwise_singleton _ _,
      fun a ha b hb hab => hnot ?_⟩
    obtain rfl := List.mem_singleton.mp hb
    obtain rfl := hab
    exact ha

theorem PopInv.active {s : JobQueue} (hs : s.PopInv) {holder : LockHolder}
    (hholder : s.holder = some holder) {pop : PopJob} (hpop : holder.popJob = some pop) :
    s.queueState = .loading ∨ s.queueState = .starting := by
  obtain ⟨hpops, -⟩ := hs.pops_eq_holder hholder hpop
  apply hs.state.mp
  rw [hpops]
  exact List.cons_ne_nil _ _

theorem idle_jobLoaded {s : JobQueue} (hstate : s.queueState = .starting) (job : QueuedJob) :
    Idle (s.jobLoaded config job).queueState := by
  rw [jobLoaded, if_pos hstate]
  dsimp only
  split
  · exact Or.inl rfl
  · exact Or.inr rfl

theorem popInv_resume {s : JobQueue} (hs : s.PopInv) {answer : KlippyAnswer} {holder : LockHolder}
    (hholder : s.holder = some holder) (hcond : HolderCondition answer holder) :
    (s.resume config answer holder).PopInv := by
  cases holder with
  | startCheck =>
    have hpops := hs.startCheck hholder
    rw [resume]
    split
    · exact popInv_schedule hs hpops rfl rfl rfl rfl rfl rfl rfl rfl
    · refine hs.of_nil ?_ (idle_emptyState config) rfl rfl
      rw [pops, activePops, hholder] at hpops
      exact hpops
  | popCheck pop job =>
    rw [resume]
    split
    · exact hs.end_pop hholder rfl rfl rfl rfl rfl (Or.inr rfl) rfl rfl
    · rename_i hgood
      obtain ⟨-, hstate⟩ := not_or.mp hgood
      obtain ⟨hpops, htimers, hexpired, hwaiters⟩ := hs.pops_eq_holder hholder rfl
      split
      · refine popInv_of_single hs (hpops ▸ List.mem_cons_self)
          (fun _ _ h => nomatch hholder.symm.trans h) ?_ htimers (not_not.mp hstate)
          (fun _ _ h => nomatch h) (fun h => nomatch h) rfl rfl
        show s.timers ++ s.expired ++ (s.waiters.filterMap QueueTask.popJob ++ [pop]) = [pop]
        rw [htimers, hexpired, hwaiters]
        rfl
      · exact popInv_startPrint hs hholder rfl (fun _ _ => LockHolder.noConfusion) job
  | popTransition pop job =>
    cases answer with
    | raised => exact absurd rfl hcond
    | bad => exact hs.end_pop hholder rfl rfl rfl rfl rfl (Or.inr rfl) rfl rfl
    | good =>
      rw [resume]
      split
      · exact hs.end_pop hholder rfl rfl rfl rfl rfl (Or.inr rfl) rfl rfl
      · exact popInv_startPrint hs hholder rfl (fun _ _ => LockHolder.noConfusion) job
  | popStart pop job =>
    cases answer with
    | raised => exact absurd rfl hcond
    | bad => exact hs.end_pop hholder rfl rfl rfl rfl rfl (Or.inr rfl) rfl rfl
    | good =>
      have hstate : s.queueState = .starting :=
        (hs.active hholder rfl).resolve_left (hs.popStart pop job hholder)
      have hframe : (s.jobLoaded config job).timers = s.timers ∧
          (s.jobLoaded config job).expired = s.expired ∧
          (s.jobLoaded config job).waiters = s.waiters ∧
          (s.jobLoaded config job).nextHandle = s.nextHandle ∧
          (s.jobLoaded config job).started = s.started := by
        rw [jobLoaded, if_pos hstate]
        exact ⟨rfl, rfl, rfl, rfl, rfl⟩
      obtain ⟨htimers, hexpired, hwaiters, hnext, hstarted⟩ := hframe
      exact hs.end_pop (t := (s.jobLoaded config job).release) hholder rfl htimers hexpired
        hwaiters rfl (idle_jobLoaded hstate job) hnext hstarted

theorem holderCondition_of_onePop {s : JobQueue} (hs : s.PopInv) {answer : KlippyAnswer}
    {holder : LockHolder} (hholder : s.holder = some holder)
    (h : (s.resume config answer holder).OnePop) : HolderCondition answer holder := by
  have hend {pop : PopJob} (hpop : holder.popJob = some pop) (h : s.release.OnePop) : False := by
    obtain ⟨-, htimers, hexpired, hwaiters⟩ := hs.pops_eq_holder hholder hpop
    refine h.state.mpr (hs.active hholder hpop) ?_
    rw [pops, activePops, release, htimers, hexpired, hwaiters]
    rfl
  cases holder with
  | popTransition pop job =>
    rintro rfl
    exact hend rfl h
  | popStart pop job =>
    rintro rfl
    exact hend rfl h
  | popCheck pop job => trivial
  | startCheck => trivial

/-! ## Coroutines that ask for the lock -/

theorem pops_prelude_pause {s : JobQueue} (hs : s.OnePop) (h : s.pops = [] ∨ s.timers ≠ []) :
    (s.prelude (.call .pauseQueue)).pops = [] := by
  have hcancel : (s.timers.filter fun pop => some pop.handle ≠ s.popQueueHandle) = [] :=
    List.filter_eq_nil_iff.mpr fun pop hpop => by
      rw [hs.handle pop hpop, decide_eq_true_eq]
      exact not_not.mpr rfl
  have hothers : s.expired ++ s.activePops = [] := by
    obtain hpops | htimers := h
    · rw [pops, List.append_assoc] at hpops
      exact (List.append_eq_nil_iff.mp hpops).2
    · have hone := hs.one
      have hlength := List.length_pos_iff.mpr htimers
      rw [pops, List.append_assoc, List.length_append] at hone
      exact List.eq_nil_of_length_eq_zero (by omega)
  show (s.timers.filter fun pop => some pop.handle ≠ s.popQueueHandle) ++ s.expired ++
    s.activePops = []
  rw [List.append_assoc, hcancel, hothers]
  rfl

theorem popInv_prelude_pause {s : JobQueue} (hs : s.PopInv) (h : s.pops = [] ∨ s.timers ≠ []) :
    (s.prelude (.call .pauseQueue)).PopInv :=
  hs.of_nil (pops_prelude_pause hs.toOnePop h) (Or.inr rfl) rfl rfl

theorem pops_wait (s : JobQueue) (call : QueueCall) :
    ({ s with waiters := s.waiters ++ [.call call] } : JobQueue).pops = s.pops := by
  refine pops_congr rfl rfl ?_ rfl
  rw [List.filterMap_append]
  exact List.append_nil _

theorem popInv_enter (s : JobQueue) (call : QueueCall) (hs : (s.prelude (.call call)).PopInv)
    (hcond : (s.prelude (.call call)).holder = none ∧ (s.prelude (.call call)).waiters = [] →
      (s.prelude (.call call)).CallCondition config call) (env : QueueEnv) :
    (s.enter config env (.call call)).PopInv := by
  rw [enter]
  split
  · rename_i hfree
    exact popInv_runCall hs hfree.1 (hcond hfree) env
  · exact hs.congr rfl rfl rfl (pops_wait _ call) rfl rfl rfl

theorem popInv_enterCall {s : JobQueue} (hs : s.PopInv) {call : QueueCall} {env : QueueEnv}
    (hcond : s.PopCondition config (.call call env)) :
    (s.enter config env (.call call)).PopInv := by
  cases call with
  | pauseQueue =>
    exact popInv_enter s .pauseQueue (popInv_prelude_pause hs hcond) (fun _ => trivial) env
  | klippyShutdown =>
    exact popInv_enter s .klippyShutdown (popInv_prelude_pause hs hcond)
      (fun _ => Or.inr (Or.inr (pops_prelude_pause hs.toOnePop hcond))) env
  | jobAbort => exact popInv_enter s .jobAbort hs hcond env
  | klippyReady => exact popInv_enter s .klippyReady hs (fun _ => trivial) env
  | jobComplete => exact popInv_enter s .jobComplete hs (fun _ => trivial) env
  | queueJob filenames checkExists reset =>
    exact popInv_enter s (.queueJob filenames checkExists reset) hs (fun _ => trivial) env
  | deleteJob jobIds all =>
    exact popInv_enter s (.deleteJob jobIds all) hs (fun _ => trivial) env
  | jump jobId => exact popInv_enter s (.jump jobId) hs (fun _ => trivial) env
  | startQueue => exact popInv_enter s .startQueue hs (fun _ => trivial) env

/-- A pop that cannot be cancelled any more is left in a queue that is paused or ready. -/
theorem not_onePop_of_pause {s : JobQueue} (hpops : s.pops ≠ []) (htimers : s.timers = [])
    {call : QueueCall} (hcall : call = .pauseQueue ∨ call = .klippyShutdown) (env : QueueEnv) :
    ¬(s.enter config env (.call call)).OnePop := by
  have hleft : (s.prelude (.call .pauseQueue)).pops ≠ [] := by
    have heq : (s.prelude (.call .pauseQueue)).pops = s.pops := by
      refine pops_congr ?_ rfl rfl rfl
      show s.timers.filter _ = s.timers
      rw [htimers]
      rfl
    rw [heq]
    exact hpops
  have hwait (call : QueueCall) : ({ s.prelude (.call .pauseQueue) with
      waiters := (s.prelude (.call .pauseQueue)).waiters ++ [.call call] } : JobQueue).pops ≠ [] := by
    rw [pops_wait]
    exact hleft
  obtain rfl | rfl := hcall
  · rw [enter]
    split
    · exact not_onePop hleft (Or.inr rfl)
    · exact not_onePop (hwait _) (Or.inr rfl)
  · rw [enter]
    split
    · rw [runTask, handleShutdown]
      split
      · exact not_onePop hleft (Or.inl rfl)
      · exact not_onePop hleft (Or.inr rfl)
    · exact not_onePop (hwait _) (Or.inr rfl)

theorem popCondition_of_enterCall {s : JobQueue} {call : QueueCall} {env : QueueEnv}
    (h : (s.enter config env (.call call)).OnePop) :
    s.PopCondition config (.call call env) := by
  have hpause (hcall : call = .pauseQueue ∨ call = .klippyShutdown) :
      s.pops = [] ∨ s.timers ≠ [] := by
    by_contra hnot
    obtain ⟨hpops, htimers⟩ := not_or.mp hnot
    exact not_onePop_of_pause hpops (not_not.mp htimers) hcall env h
  cases call with
  | pauseQueue => exact hpause (Or.inl rfl)
  | klippyShutdown => exact hpause (Or.inr rfl)
  | jobAbort =>
    intro hfree
    have hrun : s.enter config env (.call .jobAbort) = s.runTask config env (.call .jobAbort) :=
      if_pos hfree
    rw [hrun] at h
    exact callCondition_of_onePop h
  | klippyReady | jobComplete | queueJob _ _ _ | deleteJob _ _ | jump _ | startQueue => trivial

/-- The task of a pop asks for the lock. -/
theorem popInv_enterPop {s₀ s : JobQueue} (hs : s₀.PopInv) {pop : PopJob} (hpop : pop ∈ s₀.pops)
    (hnext : s.nextHandle = s₀.nextHandle) (hstarted : s.started = s₀.started)
    (hholder : s.holder = s₀.holder) (hpops : s.pops = []) (hstate : s.queueState = .loading)
    (env : QueueEnv) : (s.enter config env (.pop pop)).PopInv := by
  obtain ⟨hscheduled, hactive⟩ := List.append_eq_nil_iff.mp hpops
  obtain ⟨htimers, hexpired⟩ := List.append_eq_nil_iff.mp hscheduled
  obtain ⟨hwaiters, hnil⟩ := List.append_eq_nil_iff.mp hactive
  have hnone (pop : PopJob) (job : QueuedJob) : s.holder ≠ some (.popStart pop job) := by
    intro h
    rw [h] at hnil
    cases hnil
  rw [enter]
  split
  · rename_i hfree
    exact popInv_popJob (s := s.prelude (.pop pop)) hs hpop (hholder.symm.trans hfree.1) hnext
      hstarted hpops hstate
  · refine popInv_of_single hs hpop (hholder ▸ hnone) ?_ htimers hstate hnone ?_ hnext hstarted
    · show s.timers ++ s.expired ++ ((s.waiters ++ [QueueTask.pop pop]).filterMap QueueTask.popJob ++
        (s.holder.bind LockHolder.popJob).toList) = [pop]
      rw [hscheduled, hnil, List.filterMap_append, hwaiters]
      rfl
    · show s.holder ≠ some .startCheck
      intro h
      have hmem := hs.startCheck (hholder.symm.trans h)
      rw [hmem] at hpop
      cases hpop

/-! ## Steps -/

theorem eq_singleton_of_mem {α : Type} {a : α} {xs ys : List α} (hmem : a ∈ xs)
    (hone : (xs ++ ys).length ≤ 1) : xs = [a] ∧ ys = [] := by
  cases xs with
  | nil => cases hmem
  | cons x xs =>
    rw [List.cons_append, List.length_cons] at hone
    obtain ⟨rfl, rfl⟩ := List.append_eq_nil_iff.mp
      (List.eq_nil_of_length_eq_zero (Nat.le_zero.mp (Nat.le_of_succ_le_succ hone)))
    rw [List.mem_singleton.mp hmem]
    exact ⟨rfl, rfl⟩

theorem OnePop.of_mem_timers {s : JobQueue} (hs : s.OnePop) {pop : PopJob} (hpop : pop ∈ s.timers) :
    s.timers = [pop] ∧ s.expired = [] ∧ s.activePops = [] := by
  have hone := hs.one
  rw [pops, List.append_assoc] at hone
  obtain ⟨htimers, hothers⟩ := eq_singleton_of_mem hpop hone
  exact ⟨htimers, List.append_eq_nil_iff.mp hothers⟩

theorem OnePop.of_mem_expired {s : JobQueue} (hs : s.OnePop) {pop : PopJob}
    (hpop : pop ∈ s.expired) : s.timers = [] ∧ s.expired = [pop] ∧ s.activePops = [] := by
  have hone : (s.expired ++ (s.timers ++ s.activePops)).length ≤ 1 := by
    have hone := hs.one
    rw [pops, List.append_assoc] at hone
    rwa [(List.perm_append_comm_assoc _ _ _).length_eq]
  obtain ⟨hexpired, hothers⟩ := eq_singleton_of_mem hpop hone
  obtain ⟨htimers, hactive⟩ := List.append_eq_nil_iff.mp hothers
  exact ⟨htimers, hexpired, hactive⟩

theorem OnePop.of_waiter {s : JobQueue} (hs : s.OnePop) {pop : PopJob} {waiters : List QueueTask}
    (hwaiters : s.waiters = .pop pop :: waiters) :
    pop ∈ s.pops ∧ ({ s with waiters := waiters } : JobQueue).pops = [] := by
  have hactive : s.activePops = pop :: ({ s with waiters := waiters } : JobQueue).activePops := by
    rw [activePops, hwaiters]
    rfl
  have hone := hs.one
  have hmem : pop ∈ s.pops := List.mem_append_right _ (hactive ▸ List.mem_cons_self)
  rw [pops, hactive, List.length_append, List.length_cons] at hone
  have hscheduled : s.timers ++ s.expired = [] := List.eq_nil_of_length_eq_zero (by omega)
  have hrest : ({ s with waiters := waiters } : JobQueue).activePops = [] :=
    List.eq_nil_of_length_eq_zero (by omega)
  refine ⟨hmem, ?_⟩
  show s.timers ++ s.expired ++ ({ s with waiters := waiters } : JobQueue).activePops = []
  rw [hscheduled, hrest]
  rfl

theorem PopInv.loading {s : JobQueue} (hs : s.PopInv) {pop : PopJob} (hpop : pop ∈ s.pops)
    (hholder : s.holder.bind LockHolder.popJob = none) : s.queueState = .loading := by
  refine (hs.state.mp (List.ne_nil_of_mem hpop)).resolve_right fun hstarting => ?_
  obtain ⟨pop', job, h⟩ := hs.starting hstarting
  rw [h] at hholder
  cases hholder

theorem holder_of_activePops {s : JobQueue} (h : s.activePops = []) :
    s.holder.bind LockHolder.popJob = none :=
  Option.toList_eq_nil_iff.mp (List.append_eq_nil_iff.mp h).2

theorem popInv_expire {s : JobQueue} (hs : s.PopInv) {pop : PopJob} (hpop : pop ∈ s.timers) :
    { s with timers := s.timers.erase pop, expired := s.expired ++ [pop] }.PopInv := by
  obtain ⟨htimers, hexpired, hactive⟩ := hs.of_mem_timers hpop
  have hholder := holder_of_activePops hactive
  have hmem : pop ∈ s.pops := List.mem_append_left _ (List.mem_append_left _ hpop)
  have hnone (pop : PopJob) (job : QueuedJob) : s.holder ≠ some (.popStart pop job) := fun h => by
    rw [h] at hholder
    cases hholder
  refine popInv_of_single hs hmem hnone ?_ ?_ (hs.loading hmem hholder) hnone (fun h => ?_) rfl rfl
  · show s.timers.erase pop ++ (s.expired ++ [pop]) ++ s.activePops = [pop]
    rw [htimers, hexpired, hactive, List.erase_cons_head]
    rfl
  · show s.timers.erase pop = []
    rw [htimers, List.erase_cons_head]
  · have hpops := hs.startCheck h
    rw [hpops] at hmem
    cases hmem

theorem popInv_startPop {s : JobQueue} (hs : s.PopInv) {pop : PopJob} (hpop : pop ∈ s.expired)
    (env : QueueEnv) :
    ({ s with expired := s.expired.erase pop }.enter config env (.pop pop)).PopInv := by
  obtain ⟨htimers, hexpired, hactive⟩ := hs.of_mem_expired hpop
  have hmem : pop ∈ s.pops := List.mem_append_left _ (List.mem_append_right _ hpop)
  refine popInv_enterPop (s := { s with expired := s.expired.erase pop }) hs hmem rfl rfl rfl ?_
    (hs.loading hmem (holder_of_activePops hactive)) env
  show s.timers ++ s.expired.erase pop ++ s.activePops = []
  rw [htimers, hexpired, hactive, List.erase_cons_head]
  rfl

theorem popInv_tail {s : JobQueue} (hs : s.PopInv) {call : QueueCall} {waiters : List QueueTask}
    (hwaiters : s.waiters = .call call :: waiters) :
    { s with waiters := waiters }.PopInv ∧
      ({ s with waiters := waiters } : JobQueue).pops = s.pops := by
  have hpops : ({ s with waiters := waiters } : JobQueue).pops = s.pops :=
    pops_congr rfl rfl (by rw [hwaiters]; rfl) rfl
  exact ⟨hs.congr rfl rfl rfl hpops rfl rfl rfl, hpops⟩

theorem callCondition_congr {s t : JobQueue} (hjobs : t.queuedJobs = s.queuedJobs)
    (hpops : t.pops = s.pops) (call : QueueCall) :
    t.CallCondition config call ↔ s.CallCondition config call := by
  cases call with
  | jobAbort | klippyShutdown => rw [CallCondition, CallCondition, hjobs, hpops]
  | klippyReady | jobComplete | queueJob _ _ _ | deleteJob _ _ | jump _ | pauseQueue
  | startQueue => exact Iff.rfl

theorem popInv_step {s t : JobQueue} (hs : s.PopInv) {e : QueueEvent}
    (hstep : s.step config e = some t) (hcond : s.PopCondition config e) : t.PopInv := by
  cases e with
  | call call env =>
    rw [step] at hstep
    split at hstep
    · rw [← Option.some.inj hstep]
      exact hs
    · split at hstep
      · rw [← Option.some.inj hstep]
        exact popInv_enterCall hs hcond
      · cases hstep
  | expire pop =>
    rw [step] at hstep
    split at hstep
    · rename_i hpop
      rw [← Option.some.inj hstep]
      exact popInv_expire hs hpop
    · cases hstep
  | startPop pop env =>
    rw [step] at hstep
    split at hstep
    · rename_i hpop
      rw [← Option.some.inj hstep]
      exact popInv_startPop hs hpop env
    · cases hstep
  | wake env =>
    rw [step] at hstep
    split at hstep
    · rename_i task waiters hfree hwaiters
      split at hstep
      · rw [← Option.some.inj hstep]
        cases task with
        | pop pop =>
          obtain ⟨hmem, hpops⟩ := hs.of_waiter hwaiters
          exact popInv_popJob hs hmem hfree rfl rfl hpops
            (hs.loading hmem (by rw [hfree]; rfl))
        | call call =>
          have hcall := hcond call (by rw [hwaiters]; rfl)
          obtain ⟨hinv, hpops⟩ := popInv_tail hs hwaiters
          exact popInv_runCall hinv hfree
            ((callCondition_congr (s := s) (t := { s with waiters := waiters }) rfl hpops call).mpr
              hcall) env
      · cases hstep
    · cases hstep
  | resume answer =>
    obtain ⟨holder, hholder, rfl⟩ := Option.map_eq_some_iff.mp hstep
    exact popInv_resume hs hholder (hcond holder hholder)

theorem popCondition_of_step {s t : JobQueue} (hs : s.PopInv) {e : QueueEvent}
    (hstep : s.step config e = some t) (h : t.OnePop) : s.PopCondition config e := by
  cases e with
  | call call env =>
    rw [step] at hstep
    split at hstep
    · rename_i hcall
      rw [hcall.1]
      trivial
    · split at hstep
      · rw [← Option.some.inj hstep] at h
        exact popCondition_of_enterCall h
      · cases hstep
  | expire pop => trivial
  | startPop pop env => trivial
  | wake env =>
    rw [step] at hstep
    split at hstep
    · rename_i task waiters hfree hwaiters
      split at hstep
      · rw [← Option.some.inj hstep] at h
        intro call hcall
        rw [hwaiters] at hcall
        obtain rfl := Option.some.inj hcall
        obtain ⟨-, hpops⟩ := popInv_tail hs hwaiters
        exact (callCondition_congr (s := s) (t := { s with waiters := waiters }) rfl hpops call).mp
          (callCondition_of_onePop (s := { s with waiters := waiters }) h)
      · cases hstep
    · cases hstep
  | resume answer =>
    obtain ⟨holder, hholder, rfl⟩ := Option.map_eq_some_iff.mp hstep
    intro holder' hholder'
    obtain rfl := Option.some.inj (hholder.symm.trans hholder')
    exact holderCondition_of_onePop hs hholder h

/-- **At most one pop is pending**, in exactly the runs in which each step meets the condition;
and then each pop that was scheduled starts at most one print. -/
theorem onePop_iff_condition {es : List QueueEvent} {t : JobQueue} :
    (Run (fun s e t => s.step config e = some t ∧ t.OnePop) (init config) es t ↔
      Run (fun s e t => s.step config e = some t ∧ s.PopCondition config e) (init config) es t) ∧
    (Run (fun s e t => s.step config e = some t ∧ s.PopCondition config e) (init config) es t →
      (t.started.map Prod.fst).Nodup) := by
  have hinit : (init config).PopInv := by
    have hnot := not_active_of_idle (idle_emptyState config)
    exact ⟨⟨Nat.zero_le 1, (fun _ h => nomatch h), fun h => absurd rfl h, fun h => absurd h hnot⟩,
      fun h => absurd (Or.inr h) hnot, (fun _ _ h => nomatch h), (fun h => nomatch h),
      (fun _ h => nomatch h), (fun _ h => nomatch h), List.nodup_nil⟩
  refine ⟨Run.restrict_iff hinit (fun s e t hs hstep =>
      ⟨popCondition_of_step hs hstep, fun hcond => (popInv_step hs hstep hcond).toOnePop⟩)
      fun s e t hs hstep h => popInv_step hs hstep (popCondition_of_step hs hstep h), fun h => ?_⟩
  exact (h.invariant hinit fun s e t hs hstep => popInv_step hs hstep.1 hstep.2).nodup

/-! ## An aborted job -/

/-- The queue is started, a job is aborted while the pop is scheduled, and the queue is started
again. -/
def abortAndStart : List QueueEvent :=
  [.call (.queueJob ["a.gcode", "b.gcode"] true false) ⟨true, [64, 96]⟩,
    .call .startQueue ⟨true, []⟩, .resume .good, .call .jobAbort ⟨true, []⟩,
    .call .startQueue ⟨true, []⟩, .resume .good]

/-- There are two pops then. -/
theorem two_pops_after_abort : ∃ t : JobQueue,
    Run (fun s e t => s.step ⟨false, true, false⟩ e = some t) (init ⟨false, true, false⟩)
      abortAndStart t ∧ ¬t.OnePop := by
  obtain ⟨t, hrun, ht⟩ := Run.exists_of_any (s := init ⟨false, true, false⟩)
    (f := step ⟨false, true, false⟩) (l := abortAndStart)
    (P := fun t => decide (t.pops.length = 2)) (by decide)
  refine ⟨t, hrun, fun hone => ?_⟩
  have htwo := hone.one
  rw [of_decide_eq_true ht] at htwo
  exact absurd htwo (by decide)

end JobQueue

end FlsunT1.Moonraker
