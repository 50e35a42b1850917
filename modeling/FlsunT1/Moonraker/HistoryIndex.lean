/-
  Moonraker/HistoryIndex.lean --- the index of the history against its store.

  A job that runs is in the store, but may be deleted from it and from the index; when it ends
  it is written again, and then the index does not list it.  Apart from that, and from ids that
  have grown a digit, index and store agree in every run.
-/
import Mathlib.Algebra.GroupWithZero.Nat
import FlsunT1.Moonraker.History

set_option autoImplicit false

namespace FlsunT1.Moonraker

open Library

/-! ## Job ids -/

theorem hexValue_hexDigit : ∀ digit < 16, hexValue (hexDigit digit) = some digit := by
  decide

theorem foldlM_hexDigits (width n : ℕ) :
    (hexDigits width n).foldlM (fun n c => (hexValue c).map (16 * n + ·)) 0 =
      some (n % 16 ^ width) := by
  induction width generalizing n with
  | zero => rw [pow_zero, Nat.mod_one]; rfl
  | succ width ih =>
    have hlast := hexValue_hexDigit (n % 16) (Nat.mod_lt n (by omega))
    have hvalue : 16 * (n / 16 % 16 ^ width) + n % 16 = n % 16 ^ (width + 1) := by
      rw [pow_succ', Nat.mod_mul]
      omega
    rw [hexDigits, List.foldlM_append, ih]
    simp [hlast, hvalue]

theorem intHex_jobId (n : ℕ) : intHex (jobId n) = some n := by
  have hlt : n < 16 ^ max 6 (n.log2 / 4 + 1) :=
    calc n < 2 ^ (n.log2 + 1) := Nat.lt_log2_self
      _ ≤ 2 ^ (4 * (n.log2 / 4 + 1)) := Nat.pow_le_pow_right (by omega) (by omega)
      _ = 16 ^ (n.log2 / 4 + 1) := by rw [pow_mul]; rfl
      _ ≤ 16 ^ max 6 (n.log2 / 4 + 1) := Nat.pow_le_pow_right (by omega) (le_max_right _ _)
  rw [intHex, jobId, String.toList_ofList, foldlM_hexDigits, Nat.mod_eq_of_lt hlt]

theorem jobId_injective : Function.Injective jobId := by
  intro n n' h
  have hn := intHex_jobId n
  rw [h, intHex_jobId] at hn
  exact (Option.some.inj hn).symm

namespace History

variable {F M : Type}

/-! ## Agreement -/

/-- The job under the first id was added before the one under the second. -/
def CreatedBefore (s : History F M) (id id' : String) : Prop :=
  ∀ job job', s.store.get id = some job → s.store.get id' = some job' → job.serial < job'.serial

/-- The number of the job that runs. -/
def running (s : History F M) : List ℕ :=
  (s.currentJob.map PrinterJob.serial).toList

/-- Index and store agree: the index lists exactly the stored ids, in the order of creation and
so each once; no id of a stored job was used again; each job that was added was finished once,
unless it runs; what was finished and not deleted is stored with a final status; and the totals
count the jobs that were finished since their reset. -/
structure Agree (s : History F M) : Prop where
  stored : ∀ id, id ∈ s.cachedJobIds ↔ s.store.get id ≠ none
  ordered : s.cachedJobIds.Pairwise s.CreatedBefore
  fresh : s.reused = false
  once : s.finished ++ s.running = List.range s.added
  final : ∀ n ∈ s.finished, n ∉ s.deleted →
    ∃ id job, s.store.get id = some job ∧ job.serial = n ∧ job.status ≠ .inProgress
  totals : s.jobTotals.totalJobs = s.finished.length - s.resetAt

/-- What holds between the steps besides. -/
structure Inv [Zero F] (s : History F M) : Prop extends s.Agree where
  ids : ∃ ns : List ℕ, ns.Pairwise (· < ·) ∧ s.cachedJobIds = ns.map jobId ∧
    ∀ n ∈ ns, n < s.nextJobId
  known : ∀ id job, s.store.get id = some job → job.serial < s.added
  current : ∀ job, s.currentJob = some job → ∃ id, s.currentJobId = some id ∧
    ∀ job', s.store.get id = some job' → job'.serial = job.serial
  resetBefore : s.resetAt ≤ s.finished.length
  savedTotals : s.storedTotals.getD .zero = s.jobTotals
  idle : s.exited = true → s.currentJob = none

theorem Agree.nodup {s : History F M} (hs : s.Agree) : s.cachedJobIds.Nodup := by
  refine hs.ordered.imp_of_mem fun {id id'} hid _ hbefore heq => ?_
  obtain ⟨job, hjob⟩ := Option.ne_none_iff_exists'.mp ((hs.stored id).mp hid)
  exact absurd (hbefore job job hjob (heq ▸ hjob)) (lt_irrefl _)

theorem Agree.get_of_not_mem {s : History F M} (hs : s.Agree) {id : String}
    (hid : id ∉ s.cachedJobIds) : s.store.get id = none := by
  by_contra hne
  exact hid ((hs.stored id).mpr hne)

/-! ## Deleting -/

theorem CreatedBefore.of_store {s t : History F M}
    (hstore : ∀ id job, t.store.get id = some job → s.store.get id = some job)
    {id id' : String} (h : s.CreatedBefore id id') : t.CreatedBefore id id' :=
  fun job job' hjob hjob' => h job job' (hstore _ _ hjob) (hstore _ _ hjob')

theorem deleteJob_of_mem {s : History F M} {uid : String} (huid : uid ∈ s.cachedJobIds) :
    s.deleteJob uid =
      { s with
        store := s.store.erase uid
        cachedJobIds := s.cachedJobIds.erase uid
        deleted := s.deleted ++ ((s.store.get uid).map PrinterJob.serial).toList } :=
  if_pos huid

variable [Zero F]

theorem inv_deleteJob {s : History F M} (hs : s.Inv) (uid : String) : (s.deleteJob uid).Inv := by
  by_cases huid : uid ∈ s.cachedJobIds
  · have hkeep : ∀ id job, (s.store.erase uid).get id = some job →
        id ≠ uid ∧ s.store.get id = some job := by
      intro id job hjob
      rw [Table.get_erase] at hjob
      split at hjob
      · cases hjob
      · exact ⟨by assumption, hjob⟩
    rw [deleteJob_of_mem huid]
    constructor
    · constructor
      case stored =>
        intro id
        show id ∈ s.cachedJobIds.erase uid ↔ (s.store.erase uid).get id ≠ none
        rw [hs.nodup.mem_erase_iff, hs.stored, Table.get_erase]
        split
        · rename_i hid
          exact ⟨fun h => absurd hid h.1, fun h => absurd rfl h⟩
        · rename_i hid
          exact ⟨And.right, fun h => ⟨hid, h⟩⟩
      case ordered =>
        refine (hs.ordered.sublist List.erase_sublist).imp fun h => ?_
        exact h.of_store fun id job hjob => (hkeep id job hjob).2
      case fresh => exact hs.fresh
      case once => exact hs.once
      case final =>
        intro n hn hdeleted
        obtain ⟨hdeleted, huid⟩ := not_or.mp (mt List.mem_append.mpr hdeleted)
        obtain ⟨id, job, hjob, hserial, hstatus⟩ := hs.final n hn hdeleted
        refine ⟨id, job, ?_, hserial, hstatus⟩
        show (s.store.erase uid).get id = some job
        rw [Table.get_erase, if_neg, hjob]
        rintro rfl
        rw [hjob] at huid
        exact huid (List.mem_singleton.mpr hserial.symm)
      case totals => exact hs.totals
    case ids =>
      obtain ⟨ns, hsorted, hids, hlt⟩ := hs.ids
      rw [hids] at huid
      obtain ⟨n, hn, rfl⟩ := List.mem_map.mp huid
      refine ⟨ns.erase n, hsorted.sublist List.erase_sublist, ?_,
        fun n' hn' => hlt n' (List.mem_of_mem_erase hn')⟩
      show s.cachedJobIds.erase (jobId n) = (ns.erase n).map jobId
      rw [hids, List.map_erase jobId_injective]
    case known => exact fun id job hjob => hs.known id job (hkeep id job hjob).2
    case current =>
      intro job hjob
      obtain ⟨id, hid, hserial⟩ := hs.current job hjob
      exact ⟨id, hid, fun job' hjob' => hserial job' (hkeep id job' hjob').2⟩
    case resetBefore => exact hs.resetBefore
    case savedTotals => exact hs.savedTotals
    case idle => exact hs.idle
  · rw [deleteJob, if_neg huid]
    exact hs

theorem inv_deleteAll {s : History F M} (hs : s.Inv) : s.deleteAll.Inv := by
  constructor
  · constructor
    case stored =>
      intro id
      show id ∈ [] ↔ Table.empty.get id ≠ none
      simp
    case ordered => exact .nil
    case fresh => exact hs.fresh
    case once => exact hs.once
    case final =>
      intro n hn hdeleted
      have hrange : n ∈ List.range s.added := by
        rw [← hs.once]
        exact List.mem_append_left _ hn
      exact absurd hrange hdeleted
    case totals => exact hs.totals
  case ids => exact ⟨[], .nil, rfl, by simp⟩
  case known =>
    intro id job hjob
    change Table.empty.get id = some job at hjob
    simp at hjob
  case current =>
    intro job hjob
    obtain ⟨id, hid, -⟩ := hs.current job hjob
    refine ⟨id, hid, fun job' hjob' => ?_⟩
    change Table.empty.get id = some job' at hjob'
    simp at hjob'
  case resetBefore => exact hs.resetBefore
  case savedTotals => exact hs.savedTotals
  case idle => exact hs.idle

theorem inv_resetTotals {s : History F M} (hs : s.Inv) : s.resetTotals.Inv := by
  rw [resetTotals]
  split
  · exact hs
  · constructor
    · constructor
      case stored => exact hs.stored
      case ordered => exact hs.ordered
      case fresh => exact hs.fresh
      case once => exact hs.once
      case final => exact hs.final
      case totals => exact (Nat.sub_self _).symm
    case ids => exact hs.ids
    case known => exact hs.known
    case current => exact hs.current
    case resetBefore => exact le_rfl
    case savedTotals => rfl
    case idle => exact hs.idle

/-! ## Ends of jobs -/

section Ends

variable [Add F] [LT F] [DecidableLT F]

omit [Zero F] in
theorem finishJob_of_none {s : History F M} (hjob : s.currentJob = none) (moment : JobMoment F M)
    (status : JobStatus) (pstats : Option (PrintStats F)) :
    s.finishJob moment status pstats = s := by
  rw [finishJob, hjob]

omit [Zero F] in
/-- What `finish_job` does with a job that runs. -/
theorem finishJob_of_some {s : History F M} {cj : PrinterJob F M} {id : String}
    (hjob : s.currentJob = some cj) (hid : s.currentJobId = some id) (moment : JobMoment F M)
    (status : JobStatus) (pstats : Option (PrintStats F)) :
    ∃ (job : PrinterJob F M) (totals : JobTotals F), job.serial = cj.serial ∧
      job.status = status ∧ totals.totalJobs = s.jobTotals.totalJobs + 1 ∧
      s.finishJob moment status pstats =
        { s with
          store := s.store.set id job
          jobTotals := totals
          storedTotals := some totals
          currentJob := none
          currentJobId := none
          finished := s.finished ++ [cj.serial] } := by
  have hpreserved : ∀ (job : PrinterJob F M) pstats,
      (job.updateFromPs pstats).serial = job.serial ∧
        (job.updateFromPs pstats).status = job.status := by
    rintro job (_ | data) <;> exact ⟨rfl, rfl⟩
  obtain ⟨hserial, hstatus⟩ := hpreserved
    { cj with endTime := some moment.now, status := status } (finalStats cj pstats)
  let job := (cj.finish moment.now status (finalStats cj pstats)).grabMetadata moment.metadata
  have hjobSerial : job.serial = cj.serial := hserial
  refine ⟨job, s.jobTotals.update job, hserial, hstatus, rfl, ?_⟩
  rw [finishJob, hjob]
  simp only [saveCurrentJob, hid]
  rw [← hjobSerial]

omit [Zero F] in
theorem currentJob_finishJob (s : History F M) (moment : JobMoment F M) (status : JobStatus)
    (pstats : Option (PrintStats F)) : (s.finishJob moment status pstats).currentJob = none := by
  cases hjob : s.currentJob with
  | none => rw [finishJob_of_none hjob, hjob]
  | some cj => rw [finishJob, hjob]

/-- The job that runs is listed. -/
def Listed (s : History F M) : Prop :=
  s.currentJob ≠ none → ∃ id ∈ s.cachedJobIds, s.currentJobId = some id

theorem inv_finishJob {s : History F M} (hs : s.Inv) (hlisted : s.Listed)
    (moment : JobMoment F M) (status : JobStatus) (hstatus : status ≠ .inProgress)
    (pstats : Option (PrintStats F)) : (s.finishJob moment status pstats).Inv := by
  cases hjob : s.currentJob with
  | none =>
    rw [finishJob_of_none hjob]
    exact hs
  | some cj =>
    obtain ⟨id, hid, hserial⟩ := hs.current cj hjob
    obtain ⟨job, totals, hjobSerial, hjobStatus, htotals, heq⟩ :=
      finishJob_of_some hjob hid moment status pstats
    obtain ⟨id', hmem, hid'⟩ := hlisted (by rw [hjob]; exact Option.some_ne_none _)
    obtain rfl := Option.some.inj (hid.symm.trans hid')
    obtain ⟨old, hold⟩ := Option.ne_none_iff_exists'.mp ((hs.stored id).mp hmem)
    have hsame : job.serial = old.serial := by rw [hjobSerial, hserial old hold]
    have honce : s.finished ++ [cj.serial] = List.range s.added := by
      rw [← hs.once, running, hjob]
      rfl
    -- each stored job has the number that the job under its id had before
    have hkeep : ∀ id' job', (s.store.set id job).get id' = some job' →
        ∃ job₀, s.store.get id' = some job₀ ∧ job₀.serial = job'.serial := by
      intro id' job' hjob'
      rw [Table.get_set] at hjob'
      split at hjob'
      · rename_i heq
        rw [heq, ← Option.some.inj hjob']
        exact ⟨old, hold, hsame.symm⟩
      · exact ⟨job', hjob', rfl⟩
    rw [heq]
    constructor
    · constructor
      case stored =>
        intro id'
        show id' ∈ s.cachedJobIds ↔ (s.store.set id job).get id' ≠ none
        rw [hs.stored, Table.get_set]
        split
        · rename_i heq
          rw [heq, hold]
          exact iff_of_true (Option.some_ne_none _) (Option.some_ne_none _)
        · exact Iff.rfl
      case ordered =>
        refine hs.ordered.imp fun h job₁ job₂ h₁ h₂ => ?_
        obtain ⟨_, hold₁, heq₁⟩ := hkeep _ _ h₁
        obtain ⟨_, hold₂, heq₂⟩ := hkeep _ _ h₂
        rw [← heq₁, ← heq₂]
        exact h _ _ hold₁ hold₂
      case fresh => exact hs.fresh
      case once =>
        show s.finished ++ [cj.serial] ++ [] = List.range s.added
        rw [List.append_nil, honce]
      case final =>
        have hnodup : (s.finished ++ [cj.serial]).Nodup := by
          rw [honce]
          exact List.nodup_range
        intro n hn hdeleted
        rcases List.mem_append.mp hn with hn' | hn'
        · obtain ⟨id', job', hjob', hnumber, hstatus'⟩ := hs.final n hn' hdeleted
          refine ⟨id', job', ?_, hnumber, hstatus'⟩
          show (s.store.set id job).get id' = some job'
          rw [Table.get_set, if_neg, hjob']
          rintro rfl
          have hmem : cj.serial ∈ s.finished := by
            rw [← hserial job' hjob', hnumber]
            exact hn'
          exact List.disjoint_of_nodup_append hnodup hmem (List.mem_singleton.mpr rfl)
        · refine ⟨id, job, ?_, ?_, hjobStatus ▸ hstatus⟩
          · show (s.store.set id job).get id = some job
            rw [Table.get_set, if_pos rfl]
          · rw [hjobSerial, List.mem_singleton.mp hn']
      case totals =>
        show totals.totalJobs = (s.finished ++ [cj.serial]).length - s.resetAt
        have hbefore := hs.resetBefore
        rw [htotals, hs.totals, List.length_append, List.length_singleton]
        omega
    case ids => exact hs.ids
    case known =>
      intro id' job' hjob'
      obtain ⟨job₀, hjob₀, hserial₀⟩ := hkeep id' job' hjob'
      rw [← hserial₀]
      exact hs.known id' job₀ hjob₀
    case current => exact fun _ h => absurd h (Option.some_ne_none _).symm
    case resetBefore =>
      show s.resetAt ≤ (s.finished ++ [cj.serial]).length
      rw [List.length_append]
      exact Nat.le_add_right_of_le hs.resetBefore
    case savedTotals => rfl
    case idle => exact fun _ => rfl

end Ends

/-! ## New jobs -/

omit [Zero F] in
theorem prune_eq (s : History F M) : s.prune = s ∨ ∃ oldest, s.prune = s.deleteJob oldest := by
  rw [prune]
  split
  · exact Or.inl rfl
  · split
    · exact Or.inr ⟨_, rfl⟩
    · exact Or.inl rfl

theorem inv_prune {s : History F M} (hs : s.Inv) : s.prune.Inv := by
  obtain heq | ⟨oldest, heq⟩ := s.prune_eq
  · rw [heq]
    exact hs
  · rw [heq]
    exact inv_deleteJob hs oldest

omit [Zero F] in
theorem currentJob_deleteJob (s : History F M) (uid : String) :
    (s.deleteJob uid).currentJob = s.currentJob := by
  rw [deleteJob]
  split <;> rfl

omit [Zero F] in
theorem currentJob_prune (s : History F M) : s.prune.currentJob = s.currentJob := by
  obtain heq | ⟨oldest, heq⟩ := s.prune_eq
  · rw [heq]
  · rw [heq, currentJob_deleteJob]

/-- The job that is added. -/
def newJob (moment : JobMoment F M) (newStats : PrintStats F) (s : History F M) : PrinterJob F M :=
  (PrinterJob.create s.prune.added moment.now newStats).grabMetadata moment.metadata

theorem addJob_eq (s : History F M) (moment : JobMoment F M) (newStats : PrintStats F) :
    s.addJob moment newStats =
      { s.prune with
        currentJob := some (s.newJob moment newStats)
        currentJobId := some (jobId s.prune.nextJobId)
        store := s.prune.store.set (jobId s.prune.nextJobId) (s.newJob moment newStats)
        cachedJobIds := s.prune.cachedJobIds ++ [jobId s.prune.nextJobId]
        nextJobId := s.prune.nextJobId + 1
        added := s.prune.added + 1
        reused := s.prune.reused || (s.prune.store.get (jobId s.prune.nextJobId)).isSome } := rfl

omit [Zero F] in
theorem prune_of_not_mem {s : History F M} {id : String} (hid : id ∉ s.cachedJobIds) :
    s.prune.store.get id = s.store.get id ∧ id ∉ s.prune.cachedJobIds := by
  obtain heq | ⟨oldest, heq⟩ := s.prune_eq
  · rw [heq]
    exact ⟨rfl, hid⟩
  · rw [heq, deleteJob]
    split
    · rename_i hmem
      refine ⟨?_, fun h => hid (List.mem_of_mem_erase h)⟩
      show (s.store.erase oldest).get id = s.store.get id
      rw [Table.get_erase, if_neg]
      rintro rfl
      exact hid hmem
    · exact ⟨rfl, hid⟩

theorem Inv.nextId_not_mem {s : History F M} (hs : s.Inv) : jobId s.nextJobId ∉ s.cachedJobIds := by
  obtain ⟨ns, -, hids, hlt⟩ := hs.ids
  intro hmem
  rw [hids] at hmem
  obtain ⟨n, hn, heq⟩ := List.mem_map.mp hmem
  exact absurd (hlt n hn) (jobId_injective heq ▸ lt_irrefl _)

theorem inv_addJob {s : History F M} (hs : s.Inv) (hidle : s.currentJob = none)
    (hexited : s.exited = false) (moment : JobMoment F M) (newStats : PrintStats F) :
    (s.addJob moment newStats).Inv := by
  have hp := inv_prune hs
  have hpidle : s.prune.currentJob = none := s.currentJob_prune.trans hidle
  have hpexited : s.prune.exited = false := by
    obtain heq | ⟨oldest, heq⟩ := s.prune_eq
    · rw [heq, hexited]
    · rw [heq, deleteJob]
      split <;> exact hexited
  have hserial : (s.newJob moment newStats).serial = s.prune.added := rfl
  rw [addJob_eq]
  generalize s.newJob moment newStats = job at hserial ⊢
  generalize s.prune = s at hp hpidle hpexited hserial ⊢
  have hnew := hp.nextId_not_mem
  have hfree : s.store.get (jobId s.nextJobId) = none := hp.get_of_not_mem hnew
  generalize hid : jobId s.nextJobId = id at hnew hfree ⊢
  have honce : s.finished = List.range s.added := by
    rw [← hp.once, running, hpidle]
    exact (List.append_nil _).symm
  constructor
  · constructor
    case stored =>
      intro id'
      show id' ∈ s.cachedJobIds ++ [id] ↔ (s.store.set id job).get id' ≠ none
      rw [List.mem_append, List.mem_singleton, Table.get_set]
      split
      · rename_i heq
        exact iff_of_true (Or.inr heq) (Option.some_ne_none _)
      · rename_i hne
        rw [hp.stored]
        exact or_iff_left hne
    case ordered =>
      have hold : ∀ id' ∈ s.cachedJobIds, id' ≠ id := fun id' hid' heq => hnew (heq ▸ hid')
      refine List.pairwise_append.mpr ⟨hp.ordered.imp_of_mem ?_, List.pairwise_singleton _ _, ?_⟩
      · intro id₁ id₂ h₁ h₂ h job₁ job₂ hjob₁ hjob₂
        change (s.store.set id job).get id₁ = some job₁ at hjob₁
        change (s.store.set id job).get id₂ = some job₂ at hjob₂
        rw [Table.get_set, if_neg (hold _ h₁)] at hjob₁
        rw [Table.get_set, if_neg (hold _ h₂)] at hjob₂
        exact h job₁ job₂ hjob₁ hjob₂
      · intro id₁ h₁ id₂ h₂ job₁ job₂ hjob₁ hjob₂
        change (s.store.set id job).get id₁ = some job₁ at hjob₁
        change (s.store.set id job).get id₂ = some job₂ at hjob₂
        rw [Table.get_set, if_neg (hold _ h₁)] at hjob₁
        rw [Table.get_set, if_pos (List.mem_singleton.mp h₂)] at hjob₂
        rw [← Option.some.inj hjob₂, hserial]
        exact hp.known id₁ job₁ hjob₁
    case fresh =>
      show (s.reused || (s.store.get id).isSome) = false
      rw [hp.fresh, hfree]
      rfl
    case once =>
      show s.finished ++ [job.serial] = List.range (s.added + 1)
      rw [List.range_succ, honce, hserial]
    case final =>
      intro n hn hdeleted
      obtain ⟨id', job', hjob', hnumber, hstatus⟩ := hp.final n hn hdeleted
      refine ⟨id', job', ?_, hnumber, hstatus⟩
      show (s.store.set id job).get id' = some job'
      rw [Table.get_set, if_neg, hjob']
      rintro rfl
      rw [hfree] at hjob'
      cases hjob'
    case totals => exact hp.totals
  case ids =>
    obtain ⟨ns, hsorted, hids, hlt⟩ := hp.ids
    refine ⟨ns ++ [s.nextJobId], ?_, ?_, ?_⟩
    · refine List.pairwise_append.mpr ⟨hsorted, List.pairwise_singleton _ _, ?_⟩
      intro n hn n' hn'
      rw [List.mem_singleton.mp hn']
      exact hlt n hn
    · show s.cachedJobIds ++ [id] = (ns ++ [s.nextJobId]).map jobId
      rw [List.map_append, hids, ← hid]
      rfl
    · intro n hn
      rcases List.mem_append.mp hn with hn | hn
      · exact Nat.lt_succ_of_lt (hlt n hn)
      · rw [List.mem_singleton.mp hn]
        exact Nat.lt_succ_self _
  case known =>
    intro id' job' hjob'
    change (s.store.set id job).get id' = some job' at hjob'
    rw [Table.get_set] at hjob'
    split at hjob'
    · rw [← Option.some.inj hjob', hserial]
      exact Nat.lt_succ_self _
    · exact Nat.lt_succ_of_lt (hp.known id' job' hjob')
  case current =>
    intro job' hjob'
    refine ⟨id, rfl, fun job'' hjob'' => ?_⟩
    change (s.store.set id job).get id = some job'' at hjob''
    rw [Table.get_set, if_pos rfl] at hjob''
    rw [← Option.some.inj hjob'', Option.some.inj hjob']
  case resetBefore => exact hp.resetBefore
  case savedTotals => exact hp.savedTotals
  case idle =>
    intro h
    rw [hpexited] at h
    cases h

/-! ## Starts of the server -/

omit [Zero F] in
theorem keys_eq {s : History F M} (hs : s.Agree) : s.store.keys = s.cachedJobIds.toFinset := by
  apply Finset.ext
  intro id
  rw [Finmap.mem_keys, Finmap.mem_iff, List.mem_toFinset, hs.stored, Option.ne_none_iff_exists']
  rfl

omit [Zero F] in
theorem storedIds_eq_iff {s : History F M} (hs : s.Agree) :
    s.storedIds = s.cachedJobIds ↔ s.cachedJobIds.Pairwise (· ≤ ·) := by
  rw [storedIds, keys_eq hs]
  exact List.toFinset_sort _ hs.nodup

omit [Zero F] in
theorem storedIds_eq_of_ordered {s : History F M} (hs : s.Agree)
    (h : s.storedIds.Pairwise s.CreatedBefore) : s.storedIds = s.cachedJobIds := by
  have hperm : s.storedIds.Perm s.cachedJobIds := by
    rw [storedIds, keys_eq hs]
    exact (Finset.sort_perm_toList _ _).trans (List.toFinset_toList hs.nodup)
  refine hperm.eq_of_pairwise (fun id id' hid hid' hbefore hbefore' => ?_) h hs.ordered
  obtain ⟨job, hjob⟩ := Option.ne_none_iff_exists'.mp ((hs.stored id).mp (hperm.subset hid))
  obtain ⟨job', hjob'⟩ := Option.ne_none_iff_exists'.mp ((hs.stored id').mp hid')
  exact absurd (hbefore job job' hjob hjob') (lt_asymm (hbefore' job' job hjob' hjob))

theorem restart_eq_some {s t : History F M} (h : s.restart = some t) :
    ∃ next, t = { s with
        jobTotals := s.storedTotals.getD .zero
        currentJob := none
        currentJobId := none
        cachedJobIds := s.storedIds
        exited := false
        nextJobId := next } ∧
      ∀ last, s.storedIds.getLast? = some last → (intHex last).map (· + 1) = some next := by
  rw [restart] at h
  split at h
  · rename_i hnone
    refine ⟨0, (Option.some.inj h).symm, fun last hlast => ?_⟩
    change s.storedIds.getLast? = none at hnone
    rw [hnone] at hlast
    cases hlast
  · rename_i last hlast
    obtain ⟨n, hn, rfl⟩ := Option.map_eq_some_iff.mp h
    refine ⟨n + 1, rfl, fun last' hlast' => ?_⟩
    change s.storedIds.getLast? = some last at hlast
    rw [hlast] at hlast'
    rw [← Option.some.inj hlast', hn]
    rfl

theorem inv_restart {s t : History F M} (hs : s.Inv) (hexited : s.exited = true)
    (hsorted : s.cachedJobIds.Pairwise (· ≤ ·)) (h : s.restart = some t) : t.Inv := by
  have hidle := hs.idle hexited
  obtain ⟨next, rfl, hnext⟩ := restart_eq_some h
  rw [(storedIds_eq_iff hs.toAgree).mpr hsorted] at hnext ⊢
  rw [hs.savedTotals]
  have honce : s.finished ++ [] = List.range s.added := by
    rw [← hs.once, running, hidle]
    rfl
  constructor
  · exact ⟨hs.stored, hs.ordered, hs.fresh, honce, hs.final, hs.totals⟩
  case ids =>
    obtain ⟨ns, hns, hids, -⟩ := hs.ids
    refine ⟨ns, hns, hids, fun n hn => ?_⟩
    show n < next
    -- the last number is the greatest
    obtain ⟨last, hlast⟩ := Option.ne_none_iff_exists'.mp
      (mt List.getLast?_eq_none_iff.mp (List.ne_nil_of_mem hn))
    have hread := hnext (jobId last) (by rw [hids, List.getLast?_map, hlast]; rfl)
    rw [intHex_jobId] at hread
    obtain ⟨front, rfl⟩ := List.getLast?_eq_some_iff.mp hlast
    rw [← Option.some.inj hread, Nat.lt_succ_iff]
    rcases List.mem_append.mp hn with hn | hn
    · exact ((List.pairwise_append.mp hns).2.2 n hn last (List.mem_singleton.mpr rfl)).le
    · exact (List.mem_singleton.mp hn).le
  case known => exact hs.known
  case current => exact fun _ h => absurd h (Option.some_ne_none _).symm
  case resetBefore => exact hs.resetBefore
  case savedTotals => exact hs.savedTotals
  case idle => exact fun _ => rfl

theorem sorted_of_restart {s t : History F M} (hs : s.Inv) (h : s.restart = some t)
    (ht : t.Agree) : s.cachedJobIds.Pairwise (· ≤ ·) := by
  obtain ⟨next, rfl, -⟩ := restart_eq_some h
  exact (storedIds_eq_iff hs.toAgree).mp (storedIds_eq_of_ordered hs.toAgree ht.ordered)

/-! ## Runs -/

omit [Zero F] in
/-- The condition of a step: when a job ends it is still listed, and when the server starts the
index is in the order of the database. -/
def Condition (s : History F M) : Event F M → Prop
  | .restart => s.cachedJobIds.Pairwise (· ≤ ·)
  | .deleteJob _ | .deleteAll | .resetTotals => True
  | .jobStarted _ _ _ _ | .jobComplete _ _ | .jobCancelled _ _ | .jobError _ _ | .jobStandby _ _
  | .shutdown _ _ | .disconnect _ _ | .exit _ _ => s.Listed

variable [Add F] [LT F] [DecidableLT F]

theorem listed_of_finishJob {s : History F M} (hs : s.Inv) (moment : JobMoment F M)
    (status : JobStatus) (pstats : Option (PrintStats F))
    (h : ∀ id, (s.finishJob moment status pstats).store.get id ≠ none →
      id ∈ (s.finishJob moment status pstats).cachedJobIds) : s.Listed := by
  intro hsome
  obtain ⟨cj, hjob⟩ := Option.ne_none_iff_exists'.mp hsome
  obtain ⟨id, hid, -⟩ := hs.current cj hjob
  obtain ⟨job, totals, -, -, -, heq⟩ := finishJob_of_some hjob hid moment status pstats
  rw [heq] at h
  refine ⟨id, h id ?_, hid⟩
  show (s.store.set id job).get id ≠ none
  rw [Table.get_set, if_pos rfl]
  exact Option.some_ne_none _

omit [Zero F] in
theorem exited_finishJob (s : History F M) (moment : JobMoment F M) (status : JobStatus)
    (pstats : Option (PrintStats F)) :
    (s.finishJob moment status pstats).exited = s.exited := by
  rw [finishJob]
  split
  · rfl
  · simp only [saveCurrentJob]
    split <;> rfl

/-- The same, where another job is added before one looks. -/
theorem listed_of_jobStarted {s : History F M} (hs : s.Inv) {moment start : JobMoment F M}
    {status : JobStatus} {pstats : Option (PrintStats F)} {newStats : PrintStats F}
    (h : ((s.finishJob moment status pstats).addJob start newStats).Agree) : s.Listed := by
  refine listed_of_finishJob hs moment status pstats ?_
  generalize s.finishJob moment status pstats = s' at h ⊢
  intro id hstored
  by_contra hid
  obtain ⟨hget, hnot⟩ := prune_of_not_mem hid
  rw [addJob_eq] at h
  have hmem := (h.stored id).mpr (by
    show (s'.prune.store.set _ _).get id ≠ none
    rw [Table.get_set, hget]
    split
    · exact Option.some_ne_none _
    · exact hstored)
  rcases List.mem_append.mp hmem with hmem | hmem
  · exact hnot hmem
  · -- it has the id of the new job, which was used again
    have hfresh := h.fresh
    change (s'.prune.reused || (s'.prune.store.get (jobId s'.prune.nextJobId)).isSome) = false
      at hfresh
    rw [← List.mem_singleton.mp hmem, hget, Option.isSome_iff_ne_none.mpr hstored,
      Bool.or_true] at hfresh
    cases hfresh

theorem inv_handle {s t : History F M} (hs : s.Inv) (hexited : s.exited = false)
    {e : Event F M} (hstep : s.handle e = some t) (hcond : s.Condition e) : t.Inv := by
  cases e with
  | jobStarted finish start prevStats newStats =>
    rw [← Option.some.inj hstep]
    refine inv_addJob (inv_finishJob hs hcond finish _ (by decide) prevStats)
      (s.currentJob_finishJob _ _ _) ?_ start newStats
    rw [s.exited_finishJob, hexited]
  | jobComplete moment newStats | jobCancelled moment newStats | jobError moment newStats
  | jobStandby moment newStats | shutdown moment newStats | disconnect moment newStats =>
    rw [← Option.some.inj hstep]
    exact inv_finishJob hs hcond moment _ (by decide) _
  | exit moment lastStats =>
    rw [← Option.some.inj hstep]
    have hfinished := inv_finishJob hs hcond moment JobStatus.serverExit (by decide) lastStats
    exact ⟨⟨hfinished.stored, hfinished.ordered, hfinished.fresh, hfinished.once,
      hfinished.final, hfinished.totals⟩, hfinished.ids, hfinished.known, hfinished.current,
      hfinished.resetBefore, hfinished.savedTotals, fun _ => s.currentJob_finishJob _ _ _⟩
  | restart => cases hstep
  | deleteJob uid =>
    rw [← Option.some.inj hstep]
    exact inv_deleteJob hs uid
  | deleteAll =>
    rw [← Option.some.inj hstep]
    exact inv_deleteAll hs
  | resetTotals =>
    rw [← Option.some.inj hstep]
    exact inv_resetTotals hs

theorem condition_of_handle {s t : History F M} (hs : s.Inv) {e : Event F M}
    (hstep : s.handle e = some t) (ht : t.Agree) : s.Condition e := by
  cases e with
  | jobStarted finish start prevStats newStats =>
    rw [← Option.some.inj hstep] at ht
    exact listed_of_jobStarted hs ht
  | jobComplete moment newStats | jobCancelled moment newStats | jobError moment newStats
  | jobStandby moment newStats | shutdown moment newStats | disconnect moment newStats
  | exit moment newStats =>
    rw [← Option.some.inj hstep] at ht
    have hstored := fun id => (ht.stored id).mpr
    exact listed_of_finishJob hs _ _ _ hstored
  | restart => cases hstep
  | deleteJob uid | deleteAll | resetTotals => trivial

theorem inv_step {s t : History F M} (hs : s.Inv) {e : Event F M} (hstep : s.step e = some t)
    (hcond : s.Condition e) : t.Inv := by
  rw [step.eq_def] at hstep
  split at hstep
  · split at hstep
    · rename_i hexited
      exact inv_restart hs hexited hcond hstep
    · cases hstep
  · split at hstep
    · cases hstep
    · rename_i hexited
      exact inv_handle hs (Bool.eq_false_iff.mpr hexited) hstep hcond

theorem condition_of_step {s t : History F M} (hs : s.Inv) {e : Event F M}
    (hstep : s.step e = some t) (ht : t.Agree) : s.Condition e := by
  rw [step.eq_def] at hstep
  split at hstep
  · split at hstep
    · exact sorted_of_restart hs hstep ht
    · cases hstep
  · split at hstep
    · cases hstep
    · exact condition_of_handle hs hstep ht

omit [Add F] [LT F] [DecidableLT F] in
theorem inv_init : (init : History F M).Inv := by
  refine ⟨⟨fun id => ?_, .nil, rfl, rfl, (fun n hn => by cases hn), rfl⟩, ⟨[], .nil, rfl, by simp⟩,
    fun id job hjob => ?_, fun _ h => absurd h (Option.some_ne_none _).symm, le_rfl, rfl,
    fun h => by cases h⟩
  · show id ∈ [] ↔ Table.empty.get id ≠ none
    simp
  · change Table.empty.get id = some job at hjob
    simp at hjob

/-- **The index of the history agrees with its store**, in exactly the runs in which each job
that ends is still listed, and each start finds the index in the order of the database. -/
theorem agree_iff_condition {es : List (Event F M)} {t : History F M} :
    Run (fun s e t => s.step e = some t ∧ t.Agree) init es t ↔
      Run (fun s e t => s.step e = some t ∧ s.Condition e) init es t :=
  Run.restrict_iff inv_init
    (fun _ _ _ hs hstep =>
      ⟨condition_of_step hs hstep, fun hcond => (inv_step hs hstep hcond).toAgree⟩)
    fun _ _ _ hs hstep ht => inv_step hs hstep (condition_of_step hs hstep ht)

end History

/-! ## A job that is deleted while it runs -/

/-- A print is started, its job is deleted, and the print ends. -/
def deletedWhileRunning : List (History.Event ℕ Unit) :=
  [.jobStarted ⟨0, ()⟩ ⟨0, ()⟩ none ⟨"a.gcode", 0, 0, 0⟩, .deleteJob "000000",
    .jobComplete ⟨60, ()⟩ ⟨"a.gcode", 60, 50, 40⟩]

/-- The job is stored then, and the index is empty. -/
theorem unlisted_after_deletion : ∃ t : History ℕ Unit,
    Run (fun s e t => s.step e = some t) History.init deletedWhileRunning t ∧ ¬t.Agree := by
  refine ⟨_, Run.iff_foldlM.mpr rfl, fun hagree => ?_⟩
  have hmem := (hagree.stored "000000").mpr (by decide)
  exact absurd hmem (by decide)

end FlsunT1.Moonraker
