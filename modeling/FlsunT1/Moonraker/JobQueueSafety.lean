/-
  Moonraker/JobQueueSafety.lean --- which jobs the queue starts and loses.

  The lock keeps the job that is started at the head of the queue.  A pause lasts as long as no
  coroutine that had been called before it sets the state while the pause waits for the lock.
-/
import FlsunT1.Moonraker.JobQueue

set_option autoImplicit false

namespace FlsunT1.Moonraker

open Library

namespace JobQueue

variable {config : QueueConfig}

/-! ## Safe steps -/

/-- The ways in which a job leaves the queue, where `task` gets the lock or the print of
`loaded` was started. -/
def Leaves (task : Option QueueTask) (loaded : Option QueuedJob) (job : QueuedJob) : Prop :=
  (∃ jobIds all, task = some (.call (.deleteJob jobIds all)) ∧ (all = true ∨ job.jobId ∈ jobIds)) ∨
  (∃ filenames checkExists, task = some (.call (.queueJob filenames checkExists true))) ∨
  loaded = some job

/-- What may happen: the job at the head of the queue is started, and no print after a pause;
jobs leave the queue in the ways above, and keep their order except for one that jumps. -/
structure SafeChange (task : Option QueueTask) (loaded : Option QueuedJob) (s t : JobQueue) :
    Prop where
  started : t.started = s.started ∨ ∃ pop job, t.started = s.started ++ [(pop, job)] ∧
    s.queuedJobs.head? = some job ∧ s.pauseDone = false
  leaves : ∀ job ∈ s.queuedJobs, job ∉ t.queuedJobs → Leaves task loaded job
  order : (∀ jobId, task ≠ some (.call (.jump jobId))) →
    (t.queuedJobs.filter (· ∈ s.queuedJobs)).Sublist s.queuedJobs
  jump : ∀ jobId, task = some (.call (.jump jobId)) → t.queuedJobs.Perm s.queuedJobs ∧
    t.queuedJobs.filter (·.jobId ≠ jobId) = s.queuedJobs.filter (·.jobId ≠ jobId)
  nodup : (t.queuedJobs.map QueuedJob.serial).Nodup

/-- The job whose print was started successfully. -/
def loaded (s : JobQueue) : QueueEvent → Option QueuedJob
  | .resume .good =>
    match s.holder with
    | some (.popStart _ job) => some job
    | _ => none
  | _ => none

/-- A step that does only what it may. -/
def SafeStep (s : JobQueue) (e : QueueEvent) (t : JobQueue) : Prop :=
  SafeChange (s.runs e) (s.loaded e) s t

/-- A `pause_queue` waits for the lock. -/
def PauseWaiting (s : JobQueue) : Prop := .call .pauseQueue ∈ s.waiters

instance (s : JobQueue) : Decidable s.PauseWaiting := inferInstanceAs (Decidable (_ ∈ _))

/-- The queue is paused, or will be. -/
def PauseHeld (s : JobQueue) : Prop := s.pauseDone = true ∨ s.PauseWaiting

instance (s : JobQueue) : Decidable s.PauseHeld := inferInstanceAs (Decidable (_ ∨ _))

/-- The condition on a coroutine that gets the lock: while a pause waits, neither the handler
of `klippy_ready` schedules a job nor `start_queue` makes an empty queue ready; and the handler
of `klippy_shutdown` does not make an empty queue ready that is paused. -/
def RunCondition (config : QueueConfig) (s : JobQueue) : QueueTask → Prop
  | .call .klippyReady => s.PauseWaiting → config.loadOnStart = false ∨ s.queuedJobs = []
  | .call .startQueue => s.PauseWaiting → s.queuedJobs ≠ [] ∨ config.automatic = false
  | .call .klippyShutdown => s.PauseHeld → s.queuedJobs ≠ [] ∨ config.automatic = false
  | .pop _ | .call .jobComplete | .call .jobAbort | .call (.queueJob _ _ _)
  | .call (.deleteJob _ _) | .call (.jump _) | .call .pauseQueue => True

/-- The condition on the end of a wait: while a pause waits, a `start_queue` that has waited
for klippy does not set the state. -/
def AnswerCondition (config : QueueConfig) (s : JobQueue) : QueueEvent → Prop
  | .resume answer => s.holder = some .startCheck → s.PauseWaiting →
      answer ≠ .good ∧ config.automatic = false
  | .call _ _ | .expire _ | .startPop _ _ | .wake _ => True

/-- The condition on a step. -/
def PauseCondition (config : QueueConfig) (s : JobQueue) (e : QueueEvent) : Prop :=
  (∀ task ∈ s.runs e, s.RunCondition config task) ∧ s.AnswerCondition config e

/-! ## The invariant -/

/-- What is known while a coroutine holds the lock: its job is the first one, or no pause has
returned since `start_queue` runs. -/
def Fits (s : JobQueue) : LockHolder → Prop
  | .popCheck _ job | .popTransition _ job | .popStart _ job => s.queuedJobs.head? = some job
  | .startCheck => s.pauseDone = false

structure QueueInv (s : JobQueue) : Prop where
  serials : ∀ job ∈ s.queuedJobs, job.serial < s.nextJob
  nodup : (s.queuedJobs.map QueuedJob.serial).Nodup
  nodupIds : (s.queuedJobs.map QueuedJob.jobId).Nodup
  fits : ∀ holder, s.holder = some holder → s.Fits holder
  paused : s.PauseHeld → s.queueState = .paused

theorem QueueInv.of_jobs {s t : JobQueue} (hs : s.QueueInv) (hjobs : t.queuedJobs = s.queuedJobs)
    (hnext : t.nextJob = s.nextJob) (hfits : ∀ holder, t.holder = some holder → t.Fits holder)
    (hpaused : t.PauseHeld → t.queueState = .paused) : t.QueueInv := by
  refine ⟨?_, ?_, ?_, hfits, hpaused⟩
  · rw [hjobs, hnext]
    exact hs.serials
  · rw [hjobs]
    exact hs.nodup
  · rw [hjobs]
    exact hs.nodupIds

theorem SafeChange.of_jobs {s t : JobQueue} (hs : s.QueueInv) (task : Option QueueTask)
    (loaded : Option QueuedJob) (hjobs : t.queuedJobs = s.queuedJobs)
    (hstarted : t.started = s.started ∨ ∃ pop job, t.started = s.started ++ [(pop, job)] ∧
      s.queuedJobs.head? = some job ∧ s.pauseDone = false) : SafeChange task loaded s t := by
  refine ⟨hstarted, fun job hjob hnot => ?_, fun _ => ?_, fun jobId _ => ?_, ?_⟩
  · rw [hjobs] at hnot
    exact absurd hjob hnot
  · rw [hjobs]
    exact List.filter_sublist
  · rw [hjobs]
    exact ⟨List.Perm.refl _, rfl⟩
  · rw [hjobs]
    exact hs.nodup

/-! ## Coroutines that get the lock -/

theorem mem_newJobs {serial : ℕ} {filenames : List String} {addresses : List ℕ} {job : QueuedJob}
    (h : job ∈ newJobs serial filenames addresses) :
    serial ≤ job.serial ∧ job.serial < serial + filenames.length ∧ job.jobId ∈ addresses := by
  fun_induction newJobs serial filenames addresses with
  | case1 serial filename filenames address addresses ih =>
    obtain rfl | hjob := List.mem_cons.mp h
    · exact ⟨Nat.le_refl _, Nat.lt_add_of_pos_right (Nat.succ_pos _), List.mem_cons_self⟩
    · obtain ⟨hle, hlt, hid⟩ := ih hjob
      refine ⟨Nat.le_of_succ_le hle, ?_, List.mem_cons_of_mem _ hid⟩
      rw [List.length_cons, Nat.add_comm filenames.length 1, ← Nat.add_assoc]
      exact hlt
  | case2 => cases h

theorem nodup_serial_newJobs (serial : ℕ) (filenames : List String) (addresses : List ℕ) :
    ((newJobs serial filenames addresses).map QueuedJob.serial).Nodup := by
  fun_induction newJobs serial filenames addresses with
  | case1 serial filename filenames address addresses ih =>
    refine List.nodup_cons.mpr ⟨fun hmem => ?_, ih⟩
    obtain ⟨job, hjob, hserial⟩ := List.mem_map.mp hmem
    exact Nat.ne_of_gt (mem_newJobs hjob).1 hserial
  | case2 => exact List.nodup_nil

theorem nodup_jobId_newJobs (serial : ℕ) (filenames : List String) {addresses : List ℕ}
    (h : addresses.Nodup) :
    ((newJobs serial filenames addresses).map QueuedJob.jobId).Nodup := by
  fun_induction newJobs serial filenames addresses with
  | case1 serial filename filenames address addresses ih =>
    obtain ⟨haddress, haddresses⟩ := List.nodup_cons.mp h
    refine List.nodup_cons.mpr ⟨fun hmem => ?_, ih haddresses⟩
    obtain ⟨job, hjob, hid⟩ := List.mem_map.mp hmem
    dsimp only at hid
    exact haddress (hid ▸ (mem_newJobs hjob).2.2)
  | case2 => exact List.nodup_nil

/-- A step that keeps some of the jobs in their order, with new ones behind them. -/
theorem safe_of_kept {s t : JobQueue} (hs : s.QueueInv) {task : Option QueueTask}
    {loaded : Option QueuedJob} {kept new : List QueuedJob} (hjobs : t.queuedJobs = kept ++ new)
    (hkept : kept.Sublist s.queuedJobs) (hnext : s.nextJob ≤ t.nextJob)
    (hnew : ∀ job ∈ new, s.nextJob ≤ job.serial ∧ job.serial < t.nextJob)
    (hnodup : (new.map QueuedJob.serial).Nodup)
    (hids : ((kept ++ new).map QueuedJob.jobId).Nodup) (hstarted : t.started = s.started)
    (hleaves : ∀ job ∈ s.queuedJobs, job ∉ kept → Leaves task loaded job)
    (hjump : ∀ jobId, task ≠ some (.call (.jump jobId)))
    (hholder : t.holder = none) (hpaused : t.PauseHeld → t.queueState = .paused) :
    t.QueueInv ∧ SafeChange task loaded s t := by
  have hfresh (job : QueuedJob) (hjob : job ∈ new) : job ∉ s.queuedJobs := fun hmem =>
    Nat.not_lt_of_le (hnew job hjob).1 (hs.serials job hmem)
  have hserials : (t.queuedJobs.map QueuedJob.serial).Nodup := by
    rw [hjobs, List.map_append, List.nodup_append]
    refine ⟨hs.nodup.sublist (hkept.map _), hnodup, fun a ha b hb hab => ?_⟩
    obtain ⟨job, hjob, rfl⟩ := List.mem_map.mp ha
    obtain ⟨job', hjob', rfl⟩ := List.mem_map.mp hb
    exact Nat.ne_of_lt (Nat.lt_of_lt_of_le (hs.serials job (hkept.subset hjob)) (hnew job' hjob').1)
      hab
  refine ⟨⟨fun job hjob => ?_, hserials, hjobs ▸ hids,
      (fun _ h => nomatch hholder.symm.trans h), hpaused⟩,
    Or.inl hstarted, fun job hjob hnot => hleaves job hjob fun hmem => hnot ?_, fun _ => ?_,
    fun jobId hruns => absurd hruns (hjump jobId), hserials⟩
  · rw [hjobs] at hjob
    obtain hjob | hjob := List.mem_append.mp hjob
    · exact Nat.lt_of_lt_of_le (hs.serials job (hkept.subset hjob)) hnext
    · exact (hnew job hjob).2
  · rw [hjobs]
    exact List.mem_append_left _ hmem
  · have hnone : new.filter (· ∈ s.queuedJobs) = [] := List.filter_eq_nil_iff.mpr fun job hjob => by
      rw [decide_eq_true_eq]
      exact hfresh job hjob
    rw [hjobs, List.filter_append, hnone, List.append_nil]
    exact List.filter_sublist.trans hkept

theorem safe_queueJob {s : JobQueue} (hs : s.QueueInv) {env : QueueEnv}
    {filenames : List String} {checkExists reset : Bool}
    (hfresh : s.FreshAddresses env (.call (.queueJob filenames checkExists reset)))
    (hfree : s.holder = none) :
    (s.queueJob env filenames checkExists reset).QueueInv ∧
      SafeChange (some (.call (.queueJob filenames checkExists reset))) none s
        (s.queueJob env filenames checkExists reset) := by
  obtain ⟨-, haddresses, hlive⟩ := hfresh
  have hids := nodup_jobId_newJobs s.nextJob filenames haddresses
  rw [queueJob]
  split
  · exact ⟨hs, SafeChange.of_jobs hs _ _ rfl (Or.inl rfl)⟩
  · refine safe_of_kept hs rfl ?_ (Nat.le_add_right _ _)
      (fun job hjob => ⟨(mem_newJobs hjob).1, (mem_newJobs hjob).2.1⟩)
      (nodup_serial_newJobs _ _ _) ?_ rfl (fun job hjob hnot => ?_)
      (fun jobId hjump => nomatch hjump) hfree hs.paused
    · cases reset with
      | true => exact List.nil_sublist _
      | false => exact List.Sublist.refl _
    · cases reset with
      | true => exact hids
      | false =>
        show ((s.queuedJobs ++ _).map QueuedJob.jobId).Nodup
        rw [List.map_append, List.nodup_append]
        refine ⟨hs.nodupIds, hids, fun a ha b hb hab => ?_⟩
        obtain ⟨job, hjob, rfl⟩ := List.mem_map.mp ha
        obtain ⟨job', hjob', rfl⟩ := List.mem_map.mp hb
        exact hlive rfl job hjob (hab ▸ (mem_newJobs hjob').2.2)
    · cases reset with
      | true => exact Or.inr (Or.inl ⟨filenames, checkExists, rfl⟩)
      | false => exact absurd hjob hnot

theorem safe_deleteJob {s : JobQueue} (hs : s.QueueInv) {jobIds : List ℕ} {all : Bool}
    (hfree : s.holder = none) :
    (s.deleteJob jobIds all).QueueInv ∧
      SafeChange (some (.call (.deleteJob jobIds all))) none s (s.deleteJob jobIds all) := by
  have hkept : (if all then [] else s.queuedJobs.filter (·.jobId ∉ jobIds)).Sublist
      s.queuedJobs := by
    cases all with
    | true => exact List.nil_sublist _
    | false => exact List.filter_sublist
  refine safe_of_kept hs (List.append_nil _).symm hkept (Nat.le_refl _)
    (fun _ h => nomatch h) List.nodup_nil ?_ rfl (fun job hjob hnot => ?_)
    (fun jobId hjump => nomatch hjump) hfree hs.paused
  · rw [List.append_nil]
    exact hs.nodupIds.sublist (hkept.map _)
  · refine Or.inl ⟨jobIds, all, rfl, ?_⟩
    cases all with
    | true => exact Or.inl rfl
    | false =>
      refine Or.inr (by_contra fun hid => hnot (List.mem_filter.mpr ⟨hjob, ?_⟩))
      exact decide_eq_true hid

theorem filter_jobId {jobs : List QueuedJob} (h : (jobs.map QueuedJob.jobId).Nodup)
    {job : QueuedJob} (hmem : job ∈ jobs) : jobs.filter (·.jobId = job.jobId) = [job] := by
  induction jobs with
  | nil => cases hmem
  | cons job' jobs ih =>
    obtain ⟨hid, hids⟩ := List.nodup_cons.mp h
    obtain rfl | hjob := List.mem_cons.mp hmem
    · rw [List.filter_cons_of_pos (by rw [decide_eq_true_eq])]
      refine congrArg _ (List.filter_eq_nil_iff.mpr fun job' hjob' => ?_)
      rw [decide_eq_true_eq]
      exact fun heq => hid (heq ▸ List.mem_map_of_mem hjob')
    · have hne : job'.jobId ≠ job.jobId := fun heq => hid (heq ▸ List.mem_map_of_mem hjob)
      rw [List.filter_cons_of_neg (by rw [decide_eq_true_eq]; exact hne), ih hids hjob]

/-- The job that jumps is the one that was found, and the others keep their order. -/
theorem safe_handleJump {s : JobQueue} (hs : s.QueueInv) {jobId : ℕ} (hfree : s.holder = none) :
    (s.handleJump jobId).QueueInv ∧
      SafeChange (some (.call (.jump jobId))) none s (s.handleJump jobId) := by
  rw [handleJump]
  split
  · exact ⟨hs, SafeChange.of_jobs hs _ _ rfl (Or.inl rfl)⟩
  · rename_i job hfind
    have hid : job.jobId = jobId := by
      have := List.find?_some hfind
      rwa [decide_eq_true_eq] at this
    subst hid
    have hmem := List.mem_of_find?_eq_some hfind
    have hperm : (job :: s.queuedJobs.filter (·.jobId ≠ job.jobId)).Perm s.queuedJobs := by
      have hsplit := List.filter_append_perm (·.jobId = job.jobId) s.queuedJobs
      rw [filter_jobId hs.nodupIds hmem] at hsplit
      simpa only [ne_eq, decide_not, List.singleton_append] using hsplit
    have hserials := (hperm.map QueuedJob.serial).nodup_iff.mpr hs.nodup
    refine ⟨⟨fun job' hjob' => hs.serials job' (hperm.mem_iff.mp hjob'), hserials,
      (hperm.map QueuedJob.jobId).nodup_iff.mpr hs.nodupIds,
      (fun _ h => nomatch hfree.symm.trans h), hs.paused⟩,
      Or.inl rfl, fun job' hjob' hnot => absurd (hperm.mem_iff.mpr hjob') hnot,
      fun hjump => absurd rfl (hjump job.jobId), fun jobId' hjump => ?_, hserials⟩
    cases hjump
    refine ⟨hperm, ?_⟩
    rw [List.filter_cons_of_neg (by simp), List.filter_filter]
    simp only [Bool.and_self]

/-- A coroutine that gets the lock.  `s` is the state without it among the waiters, and with
what it did before it waited. -/
theorem safe_runTask (config : QueueConfig) {s : JobQueue} (hs : s.QueueInv) {env : QueueEnv}
    {task : QueueTask} (hfresh : s.FreshAddresses env task)
    (hfree : s.holder = none) (hcond : s.RunCondition config task)
    (hpause : task = .call .pauseQueue → s.queueState = .paused) :
    (s.runTask config env task).QueueInv ∧
      SafeChange (some task) none s (s.runTask config env task) := by
  -- a state with the same jobs, where a pause that is held is still one
  have hkeep {t : JobQueue} (hjobs : t.queuedJobs = s.queuedJobs) (hnext : t.nextJob = s.nextJob)
      (hstarted : t.started = s.started)
      (hholder : t.holder = s.holder) (hpaused : t.PauseHeld → t.queueState = .paused) :
      t.QueueInv ∧ SafeChange (some task) none s t :=
    ⟨hs.of_jobs hjobs hnext (fun _ h => nomatch (hholder.trans hfree).symm.trans h) hpaused,
      SafeChange.of_jobs hs _ _ hjobs (Or.inl hstarted)⟩
  have hwaiting (h : ({ s with pauseDone := false } : JobQueue).PauseHeld) : s.PauseWaiting :=
    h.resolve_left Bool.false_ne_true
  cases task with
  | pop pop =>
    rw [runTask, popJob]
    split
    · exact hkeep rfl rfl rfl rfl hs.paused
    · rename_i hstate
      split
      · exact hkeep rfl rfl rfl rfl fun h => absurd (hs.paused h) hstate
      · rename_i job jobs hjobs
        refine ⟨hs.of_jobs rfl rfl (fun holder hholder => ?_) hs.paused,
          SafeChange.of_jobs hs _ _ rfl (Or.inl rfl)⟩
        rw [← Option.some.inj hholder]
        show s.queuedJobs.head? = some job
        rw [hjobs]
        rfl
  | call call =>
    cases call with
    | klippyReady =>
      rw [runTask, handleReady]
      dsimp only
      split
      · exact hkeep rfl rfl rfl rfl fun h => hs.paused (Or.inr (hwaiting h))
      · rename_i hload
        split
        · refine hkeep rfl rfl rfl rfl fun h => absurd ?_ hload
          refine (hcond (hwaiting h)).imp (fun hfalse => ?_) id
          rw [hfalse]
          exact Bool.false_ne_true
        · exact hkeep rfl rfl rfl rfl fun h => hs.paused (Or.inr (hwaiting h))
    | klippyShutdown =>
      rw [runTask, handleShutdown]
      split
      · rename_i hempty
        refine hkeep rfl rfl rfl rfl fun h => ?_
        obtain hjobs | hautomatic := hcond h
        · exact absurd hempty.1 hjobs
        · exact absurd (hautomatic.symm.trans hempty.2) Bool.false_ne_true
      · exact hkeep rfl rfl rfl rfl hs.paused
    | jobComplete =>
      rw [runTask, onJobComplete]
      split
      · rename_i hready
        refine hkeep rfl rfl rfl rfl fun h => ?_
        exact absurd (hready.1.symm.trans (hs.paused h)) QueueState.noConfusion
      · exact hkeep rfl rfl rfl rfl hs.paused
    | jobAbort =>
      rw [runTask, onJobAbort]
      split
      · exact hkeep rfl rfl rfl rfl fun _ => rfl
      · exact hkeep rfl rfl rfl rfl hs.paused
    | queueJob filenames checkExists reset => exact safe_queueJob hs hfresh hfree
    | deleteJob jobIds all => exact safe_deleteJob hs hfree
    | jump jobId => exact safe_handleJump hs hfree
    | pauseQueue => exact hkeep rfl rfl rfl rfl fun _ => hpause rfl
    | startQueue =>
      rw [runTask, startQueue]
      dsimp only
      split
      · split
        · refine ⟨hs.of_jobs rfl rfl (fun holder hholder => ?_) fun h =>
            hs.paused (Or.inr (hwaiting h)), SafeChange.of_jobs hs _ _ rfl (Or.inl rfl)⟩
          rw [← Option.some.inj hholder]
          rfl
        · rename_i hempty
          refine hkeep rfl rfl rfl rfl fun h => ?_
          obtain hjobs | hautomatic := hcond (hwaiting h)
          · exact absurd hjobs hempty
          · show emptyState config = .paused
            rw [emptyState, hautomatic]
            rfl
      · exact hkeep rfl rfl rfl rfl fun h => hs.paused (Or.inr (hwaiting h))

/-! ## Coroutines that waited for klippy -/

theorem safe_startPrint {s : JobQueue} (hs : s.QueueInv) {pop : PopJob} {job : QueuedJob}
    (hhead : s.queuedJobs.head? = some job) (hstate : s.queueState ≠ .paused) :
    (s.startPrint pop job).QueueInv ∧ SafeChange none none s (s.startPrint pop job) := by
  have hnot : ¬s.PauseHeld := fun h => hstate (hs.paused h)
  have hdone : s.pauseDone = false := Bool.eq_false_iff.mpr fun h => hnot (Or.inl h)
  refine ⟨hs.of_jobs rfl rfl (fun holder hholder => ?_) fun h => absurd h hnot,
    SafeChange.of_jobs hs _ _ rfl (Or.inr ⟨pop.handle, job, rfl, hhead, hdone⟩)⟩
  rw [← Option.some.inj hholder]
  exact hhead

theorem jobId_inj {jobs : List QueuedJob} (h : (jobs.map QueuedJob.jobId).Nodup)
    {job job' : QueuedJob} (hjob : job ∈ jobs) (hjob' : job' ∈ jobs)
    (hid : job'.jobId = job.jobId) : job' = job := by
  have hmem : job' ∈ jobs.filter (·.jobId = job.jobId) :=
    List.mem_filter.mpr ⟨hjob', decide_eq_true hid⟩
  rw [filter_jobId h hjob] at hmem
  exact List.mem_singleton.mp hmem

/-- The job whose print was started leaves the queue. -/
theorem safe_jobLoaded {s : JobQueue} (hs : s.QueueInv) {job : QueuedJob}
    (hhead : s.queuedJobs.head? = some job) :
    (s.jobLoaded config job).release.QueueInv ∧
      SafeChange none (some job) s (s.jobLoaded config job).release := by
  have hjob : job ∈ s.queuedJobs := List.mem_of_mem_head? hhead
  have hkept : (s.queuedJobs.filter (·.jobId ≠ job.jobId)).Sublist s.queuedJobs :=
    List.filter_sublist
  have hsafe {t : JobQueue} (hjobs : t.queuedJobs = s.queuedJobs.filter (·.jobId ≠ job.jobId))
      (hnext : t.nextJob = s.nextJob) (hstarted : t.started = s.started)
      (hholder : t.holder = none) (hpaused : t.PauseHeld → t.queueState = .paused) :
      t.QueueInv ∧ SafeChange none (some job) s t := by
    refine safe_of_kept hs (hjobs.trans (List.append_nil _).symm) hkept
      (Nat.le_of_eq hnext.symm) (fun _ h => nomatch h) List.nodup_nil ?_ hstarted
      (fun job' hjob' hnot => Or.inr (Or.inr (congrArg some ?_))) (fun _ h => nomatch h) hholder
      hpaused
    · rw [List.append_nil]
      exact hs.nodupIds.sublist (hkept.map _)
    · refine (jobId_inj hs.nodupIds hjob hjob' (by_contra fun hid => hnot ?_)).symm
      exact List.mem_filter.mpr ⟨hjob', decide_eq_true hid⟩
  rw [jobLoaded]
  dsimp only
  split
  · rename_i hstarting
    refine hsafe rfl rfl rfl rfl fun h => ?_
    exact absurd (hstarting.symm.trans (hs.paused h)) QueueState.noConfusion
  · exact hsafe rfl rfl rfl rfl hs.paused

theorem safe_resume {s : JobQueue} (hs : s.QueueInv) {answer : KlippyAnswer} {holder : LockHolder}
    (hholder : s.holder = some holder) (hcond : s.PauseCondition config (.resume answer)) :
    (s.resume config answer holder).QueueInv ∧
      s.SafeStep (.resume answer) (s.resume config answer holder) := by
  have hloaded (h : ∀ pop job, holder ≠ .popStart pop job) : s.loaded (.resume answer) = none := by
    cases answer with
    | good =>
      rw [loaded, hholder]
      split
      · rename_i heq
        exact absurd (Option.some.inj heq) (h _ _)
      · rfl
    | bad => rfl
    | raised => rfl
  have hfits := hs.fits holder hholder
  -- the end of a coroutine that keeps the jobs
  have hend {t : JobQueue} (hjobs : t.queuedJobs = s.queuedJobs) (hnext : t.nextJob = s.nextJob)
      (hstarted : t.started = s.started) (hreleased : t.holder = none)
      (hpaused : t.PauseHeld → t.queueState = .paused) :
      t.QueueInv ∧ s.SafeStep (.resume answer) t :=
    ⟨hs.of_jobs hjobs hnext (fun _ h => nomatch hreleased.symm.trans h) hpaused,
      SafeChange.of_jobs hs _ _ hjobs (Or.inl hstarted)⟩
  have hstart {pop : PopJob} {job : QueuedJob} (hjob : s.queuedJobs.head? = some job)
      (hstate : s.queueState = .loading) (h : ∀ pop job, holder ≠ .popStart pop job) :
      (s.startPrint pop job).QueueInv ∧ s.SafeStep (.resume answer) (s.startPrint pop job) := by
    rw [SafeStep, hloaded h]
    exact safe_startPrint hs hjob (by rw [hstate]; exact QueueState.noConfusion)
  cases holder with
  | startCheck =>
    have hwaiting (h : s.PauseHeld) : answer ≠ .good ∧ config.automatic = false :=
      hcond.2 hholder (h.resolve_left (by rw [hfits]; exact Bool.false_ne_true))
    rw [resume]
    split
    · rename_i hgood
      exact hend rfl rfl rfl rfl fun h => absurd hgood (hwaiting h).1
    · refine hend rfl rfl rfl rfl fun h => ?_
      show emptyState config = .paused
      rw [emptyState, (hwaiting h).2]
      rfl
  | popCheck pop job =>
    rw [resume]
    split
    · exact hend rfl rfl rfl rfl fun _ => rfl
    · rename_i hgood
      obtain ⟨-, hstate⟩ := not_or.mp hgood
      split
      · refine ⟨hs.of_jobs rfl rfl (fun holder hholder => ?_) hs.paused,
          SafeChange.of_jobs hs _ _ rfl (Or.inl rfl)⟩
        rw [← Option.some.inj hholder]
        exact hfits
      · exact hstart hfits (not_not.mp hstate) fun _ _ => LockHolder.noConfusion
  | popTransition pop job =>
    cases answer with
    | raised => exact hend rfl rfl rfl rfl hs.paused
    | bad => exact hend rfl rfl rfl rfl fun _ => rfl
    | good =>
      rw [resume]
      split
      · exact hend rfl rfl rfl rfl fun _ => rfl
      · rename_i hstate
        exact hstart hfits (not_not.mp hstate) fun _ _ => LockHolder.noConfusion
  | popStart pop job =>
    cases answer with
    | raised => exact hend rfl rfl rfl rfl hs.paused
    | bad => exact hend rfl rfl rfl rfl fun _ => rfl
    | good =>
      rw [SafeStep, loaded, hholder]
      exact safe_jobLoaded hs hfits

/-! ## Steps -/

theorem prelude_frame (s : JobQueue) (task : QueueTask) :
    (s.prelude task).queuedJobs = s.queuedJobs ∧ (s.prelude task).nextJob = s.nextJob ∧
    (s.prelude task).holder = s.holder ∧ (s.prelude task).waiters = s.waiters ∧
    (s.prelude task).started = s.started ∧ (s.prelude task).pauseDone = s.pauseDone := by
  cases task with
  | pop pop => exact ⟨rfl, rfl, rfl, rfl, rfl, rfl⟩
  | call call =>
    cases call with
    | klippyReady | klippyShutdown | jobComplete | jobAbort | queueJob _ _ _ | deleteJob _ _
    | jump _ | pauseQueue | startQueue => exact ⟨rfl, rfl, rfl, rfl, rfl, rfl⟩

theorem queueState_prelude (s : JobQueue) (task : QueueTask) :
    (s.prelude task).queueState = .paused ∨ (s.prelude task).queueState = s.queueState := by
  cases task with
  | pop pop => exact Or.inr rfl
  | call call =>
    cases call with
    | pauseQueue | klippyShutdown => exact Or.inl rfl
    | klippyReady | jobComplete | jobAbort | queueJob _ _ _ | deleteJob _ _ | jump _
    | startQueue => exact Or.inr rfl

theorem queueInv_prelude {s : JobQueue} (hs : s.QueueInv) (task : QueueTask) :
    (s.prelude task).QueueInv := by
  obtain ⟨hjobs, hnext, hholder, hwaiters, -, hdone⟩ := prelude_frame s task
  refine hs.of_jobs hjobs hnext (fun holder h => ?_) fun h => ?_
  · rw [hholder] at h
    have hfits := hs.fits holder h
    cases holder with
    | startCheck => exact hdone.trans hfits
    | popCheck _ _ | popTransition _ _ | popStart _ _ => exact (congrArg _ hjobs).trans hfits
  · rw [PauseHeld, PauseWaiting, hdone, hwaiters] at h
    exact (queueState_prelude s task).elim id fun heq => heq.trans (hs.paused h)

theorem SafeChange.congr {task : Option QueueTask} {loaded : Option QueuedJob}
    {s s' t : JobQueue} (h : SafeChange task loaded s' t) (hjobs : s'.queuedJobs = s.queuedJobs)
    (hstarted : s'.started = s.started) (hdone : s'.pauseDone = s.pauseDone) :
    SafeChange task loaded s t := by
  obtain ⟨started, leaves, order, jump, nodup⟩ := h
  rw [hjobs, hstarted, hdone] at started
  rw [hjobs] at leaves order jump
  exact ⟨started, leaves, order, jump, nodup⟩

theorem conditions_prelude {s : JobQueue} {env : QueueEnv} {task : QueueTask}
    (hfresh : s.FreshAddresses env task) (hcond : s.RunCondition config task) :
    (s.prelude task).FreshAddresses env task ∧ (s.prelude task).RunCondition config task := by
  cases task with
  | pop pop => exact ⟨hfresh, hcond⟩
  | call call =>
    cases call with
    | klippyReady | klippyShutdown | jobComplete | jobAbort | queueJob _ _ _ | deleteJob _ _
    | jump _ | pauseQueue | startQueue => exact ⟨hfresh, hcond⟩

/-- A coroutine that asks for the lock gets it or waits. -/
theorem safe_enter (config : QueueConfig) {s : JobQueue} (hs : s.QueueInv) (env : QueueEnv)
    (task : QueueTask) (hfresh : s.FreshAddresses env task)
    (hcond : s.holder = none ∧ s.waiters = [] → s.RunCondition config task) :
    (s.enter config env task).QueueInv ∧
      SafeChange (if s.holder = none ∧ s.waiters = [] then some task else none) none s
        (s.enter config env task) := by
  have hinv := queueInv_prelude hs task
  obtain ⟨hjobs, hnext, hholder, hwaiters, hstarted, hdone⟩ := prelude_frame s task
  by_cases hfree : s.holder = none ∧ s.waiters = []
  · rw [enter, if_pos (by rw [hholder, hwaiters]; exact hfree), if_pos hfree]
    obtain ⟨hfresh, hcond⟩ := conditions_prelude hfresh (hcond hfree)
    obtain ⟨hqueue, hsafe⟩ := safe_runTask config hinv hfresh (hholder.trans hfree.1) hcond fun hpause => by
      rw [hpause]
      rfl
    exact ⟨hqueue, hsafe.congr hjobs hstarted hdone⟩
  · rw [enter, if_neg (by rw [hholder, hwaiters]; exact hfree), if_neg hfree]
    refine ⟨hinv.of_jobs rfl rfl hinv.fits fun h => ?_,
      SafeChange.of_jobs hs _ _ hjobs (Or.inl hstarted)⟩
    obtain h | h := h
    · exact hinv.paused (Or.inl h)
    · obtain h | h := List.mem_append.mp h
      · exact hinv.paused (Or.inr h)
      · rw [← List.mem_singleton.mp h]
        rfl

theorem pauseWaiting_of_tail {s : JobQueue} {task : QueueTask} {waiters : List QueueTask}
    (hwaiters : s.waiters = task :: waiters)
    (h : ({ s with waiters := waiters } : JobQueue).PauseWaiting) : s.PauseWaiting := by
  rw [PauseWaiting, hwaiters]
  exact List.mem_cons_of_mem task h

theorem runCondition_of_waiters {s : JobQueue} {task : QueueTask} {waiters : List QueueTask}
    (hwaiters : s.waiters = task :: waiters) (h : s.RunCondition config task) :
    ({ s with waiters := waiters } : JobQueue).RunCondition config task := by
  have hwaiting := pauseWaiting_of_tail hwaiters
  cases task with
  | pop pop => trivial
  | call call =>
    cases call with
    | klippyReady | startQueue => exact fun hpause => h (hwaiting hpause)
    | klippyShutdown => exact fun hheld => h (hheld.imp id hwaiting)
    | jobComplete | jobAbort | queueJob _ _ _ | deleteJob _ _ | jump _ | pauseQueue => trivial

theorem safe_step {s t : JobQueue} (hs : s.QueueInv) {e : QueueEvent}
    (hstep : s.step config e = some t) (hcond : s.PauseCondition config e) :
    t.QueueInv ∧ s.SafeStep e t := by
  cases e with
  | call call env =>
    rw [step] at hstep
    split at hstep
    · rw [← Option.some.inj hstep]
      exact ⟨hs, SafeChange.of_jobs hs _ _ rfl (Or.inl rfl)⟩
    · split at hstep
      · rename_i hfresh
        rw [← Option.some.inj hstep]
        exact safe_enter config hs env _ hfresh fun hfree => hcond.1 _ (if_pos hfree)
      · cases hstep
  | expire pop =>
    rw [step] at hstep
    split at hstep
    · rw [← Option.some.inj hstep]
      exact ⟨hs.of_jobs rfl rfl hs.fits hs.paused, SafeChange.of_jobs hs _ _ rfl (Or.inl rfl)⟩
    · cases hstep
  | startPop pop env =>
    rw [step] at hstep
    split at hstep
    · rw [← Option.some.inj hstep]
      have hinv : ({ s with expired := s.expired.erase pop } : JobQueue).QueueInv :=
        hs.of_jobs rfl rfl hs.fits hs.paused
      obtain ⟨hqueue, hsafe⟩ := safe_enter config hinv env (.pop pop)
        trivial fun _ => trivial
      exact ⟨hqueue, hsafe.congr rfl rfl rfl⟩
    · cases hstep
  | wake env =>
    rw [step] at hstep
    split at hstep
    · rename_i task waiters hfree hwaiters
      split at hstep
      · rename_i hfresh
        rw [← Option.some.inj hstep]
        have hruns : s.runs (.wake env) = some task := by
          rw [runs, hwaiters]
          rfl
        have hheld (h : ({ s with waiters := waiters } : JobQueue).PauseHeld) : s.PauseHeld :=
          h.imp id (pauseWaiting_of_tail hwaiters)
        have hinv : ({ s with waiters := waiters } : JobQueue).QueueInv :=
          hs.of_jobs rfl rfl hs.fits fun h => hs.paused (hheld h)
        obtain ⟨hqueue, hsafe⟩ := safe_runTask config hinv hfresh hfree
          (runCondition_of_waiters hwaiters (hcond.1 task hruns)) fun hpause => by
            refine hs.paused (Or.inr ?_)
            rw [PauseWaiting, hwaiters, hpause]
            exact List.mem_cons_self
        rw [SafeStep, hruns]
        exact ⟨hqueue, hsafe.congr rfl rfl rfl⟩
      · cases hstep
    · cases hstep
  | resume answer =>
    obtain ⟨holder, hholder, rfl⟩ := Option.map_eq_some_iff.mp hstep
    exact safe_resume hs hholder hcond

instance (s : JobQueue) : (task : QueueTask) → Decidable (s.RunCondition config task)
  | .call .klippyReady | .call .startQueue | .call .klippyShutdown =>
    inferInstanceAs (Decidable (_ → _))
  | .pop _ | .call .jobComplete | .call .jobAbort | .call (.queueJob _ _ _)
  | .call (.deleteJob _ _) | .call (.jump _) | .call .pauseQueue => inferInstanceAs (Decidable True)

instance (s : JobQueue) : (e : QueueEvent) → Decidable (s.AnswerCondition config e)
  | .resume _ => inferInstanceAs (Decidable (_ → _ → _))
  | .call _ _ | .expire _ | .startPop _ _ | .wake _ => inferInstanceAs (Decidable True)

instance (s : JobQueue) (e : QueueEvent) : Decidable (s.PauseCondition config e) :=
  decidable_of_iff ((∀ task ∈ (s.runs e).toList, s.RunCondition config task) ∧
    s.AnswerCondition config e) (and_congr_left' (by simp only [Option.mem_toList, Option.mem_def]))

def manualQueue : QueueConfig := ⟨false, false, false⟩

def noFiles : QueueEnv := ⟨true, []⟩

/-- A job is added to the queue and `start_queue` waits for klippy. -/
def startOne : List QueueEvent :=
  [.call (.queueJob ["a.gcode"] true false) ⟨true, [64]⟩, .call .startQueue noFiles]

/-- The timer of the job expires and its task waits for klippy. -/
def popOne : List QueueEvent := [.expire ⟨0, false⟩, .startPop ⟨0, false⟩ noFiles]

end JobQueue

end FlsunT1.Moonraker
