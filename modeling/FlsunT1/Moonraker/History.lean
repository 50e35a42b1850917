/-
  Moonraker/History.lean --- the history of print jobs (moonraker/components/history.py).

  The namespace "history" of the database is a table: its writes are applied in the order in
  which they are issued.  Jobs are numbered in the order in which they are added; the numbers,
  and what the history does not remember of ended and deleted jobs, are kept beside its state.
-/
import Mathlib.Data.Finset.Sort
import Mathlib.Data.String.Basic
import FlsunT1.Library.Instances
import FlsunT1.Library.Run
import FlsunT1.Library.Table

set_option autoImplicit false

namespace FlsunT1.Moonraker

open Library

/-! ## Job ids -/

/-- `'%X' % (digit,)` -/
def hexDigit (digit : ℕ) : Char :=
  Char.ofNat (if digit < 10 then 48 + digit else 55 + digit)

/-- The digit that a character stands for. -/
def hexValue (c : Char) : Option ℕ :=
  if '0' ≤ c ∧ c ≤ '9' then some (c.toNat - 48)
  else if 'A' ≤ c ∧ c ≤ 'F' then some (c.toNat - 55)
  else if 'a' ≤ c ∧ c ≤ 'f' then some (c.toNat - 87)
  else none

/-- The last `width` hexadecimal digits of a number. -/
def hexDigits : ℕ → ℕ → List Char
  | 0, _ => []
  | width + 1, n => hexDigits width (n / 16) ++ [hexDigit (n % 16)]

/-- `f"\x7bn:06X\x7d"` -/
def jobId (n : ℕ) : String :=
  String.ofList (hexDigits (max 6 (n.log2 / 4 + 1)) n)

/-- `int(text, 16)`, for a text of digits. -/
def intHex (text : String) : Option ℕ :=
  text.toList.foldlM (fun n c => (hexValue c).map (16 * n + ·)) 0

/-! ## Print jobs -/

/-- `status` of a job. -/
inductive JobStatus
  | inProgress
  | completed
  | cancelled
  | error
  | klippyShutdown
  | klippyDisconnect
  | serverExit
  deriving DecidableEq

/-- What klippy reports in `print_stats`, as far as a job takes it over. -/
structure PrintStats (F : Type) where
  filename : String
  totalDuration : F
  printDuration : F
  filamentUsed : F

/-- `class PrinterJob`, with its number. -/
structure PrinterJob (F M : Type) where
  serial : ℕ
  endTime : Option F
  filamentUsed : F
  filename : Option String
  metadata : Option M
  printDuration : F
  status : JobStatus
  startTime : F
  totalDuration : F

/-- `self.job_totals` -/
structure JobTotals (F : Type) where
  totalJobs : ℕ
  totalTime : F
  totalPrintTime : F
  totalFilamentUsed : F
  longestJob : F
  longestPrint : F

variable {F M : Type}

namespace PrinterJob

/-- `update_from_ps`; there are no statistics before klippy has sent some. -/
def updateFromPs (job : PrinterJob F M) : Option (PrintStats F) → PrinterJob F M
  | none => job
  | some data =>
    { job with
      filename := some data.filename
      totalDuration := data.totalDuration
      printDuration := data.printDuration
      filamentUsed := data.filamentUsed }

/-- `PrinterJob(data)` -/
def create [Zero F] (serial : ℕ) (now : F) (data : PrintStats F) : PrinterJob F M :=
  updateFromPs
    { serial := serial, endTime := none, filamentUsed := 0, filename := none, metadata := none
      printDuration := 0, status := .inProgress, startTime := now, totalDuration := 0 }
    (some data)

/-- `finish` -/
def finish (job : PrinterJob F M) (now : F) (status : JobStatus)
    (printStats : Option (PrintStats F)) : PrinterJob F M :=
  updateFromPs { job with endTime := some now, status := status } printStats

/-- `grab_job_metadata`, for the metadata that the file has then. -/
def grabMetadata (job : PrinterJob F M) (metadata : M) : PrinterJob F M :=
  { job with metadata := some metadata }

end PrinterJob

namespace JobTotals

/-- The totals of no job. -/
def zero [Zero F] : JobTotals F := ⟨0, 0, 0, 0, 0, 0⟩

variable [Add F] [LT F] [DecidableLT F]

/-- `_update_job_totals` -/
def update (totals : JobTotals F) (job : PrinterJob F M) : JobTotals F :=
  { totalJobs := totals.totalJobs + 1
    totalTime := totals.totalTime + job.totalDuration
    totalPrintTime := totals.totalPrintTime + job.printDuration
    totalFilamentUsed := totals.totalFilamentUsed + job.filamentUsed
    longestJob :=
      if totals.longestJob < job.totalDuration then job.totalDuration else totals.longestJob
    longestPrint :=
      if totals.longestPrint < job.printDuration then job.printDuration
      else totals.longestPrint }

end JobTotals

/-! ## The history -/

/-- `MAX_JOBS` -/
def maxJobs : ℕ := 10000

/-- The time and the metadata of the file that a change of the current job finds. -/
structure JobMoment (F M : Type) where
  now : F
  metadata : M

/-- `class History` with the namespace "history" and the item "history.job_totals" of the
database.  `added` counts the jobs that were added; `finished` and `deleted` are the numbers of
those that were finished and deleted, and `resetAt` is how many were finished at the last reset
of the totals.  `reused` says that some job was added under the id of a stored one. -/
structure History (F M : Type) where
  store : Table String (PrinterJob F M)
  storedTotals : Option (JobTotals F)
  jobTotals : JobTotals F
  currentJob : Option (PrinterJob F M)
  currentJobId : Option String
  nextJobId : ℕ
  cachedJobIds : List String
  exited : Bool
  added : ℕ
  finished : List ℕ
  deleted : List ℕ
  resetAt : ℕ
  reused : Bool

namespace History

/-- The keys of the namespace, in the order of the database. -/
def storedIds (s : History F M) : List String := s.store.keys.sort (· ≤ ·)

/-- `__init__` with the database of `s`. -/
def restart [Zero F] (s : History F M) : Option (History F M) :=
  let s := { s with
    jobTotals := s.storedTotals.getD .zero
    currentJob := none
    currentJobId := none
    cachedJobIds := s.storedIds
    exited := false }
  match s.storedIds.getLast? with
  | none => some { s with nextJobId := 0 }
  | some last => (intHex last).map fun n => { s with nextJobId := n + 1 }

/-- `__init__` with an empty database. -/
def init [Zero F] : History F M :=
  { store := .empty, storedTotals := none, jobTotals := .zero, currentJob := none
    currentJobId := none, nextJobId := 0, cachedJobIds := [], exited := false, added := 0
    finished := [], deleted := [], resetAt := 0, reused := false }

/-- `delete_job` -/
def deleteJob (s : History F M) (jobId : String) : History F M :=
  if jobId ∈ s.cachedJobIds then
    { s with
      store := s.store.erase jobId
      cachedJobIds := s.cachedJobIds.erase jobId
      deleted := s.deleted ++ ((s.store.get jobId).map PrinterJob.serial).toList }
  else s

/-- The oldest job goes where there are too many. -/
def prune (s : History F M) : History F M :=
  match s.cachedJobIds with
  | [] => s
  | oldest :: _ => if maxJobs ≤ s.cachedJobIds.length then s.deleteJob oldest else s

/-- `add_job` -/
def addJob [Zero F] (moment : JobMoment F M) (newStats : PrintStats F) (s : History F M) :
    History F M :=
  let s := s.prune
  let id := jobId s.nextJobId
  let job := (PrinterJob.create s.added moment.now newStats).grabMetadata moment.metadata
  { s with
    currentJob := some job
    currentJobId := some id
    store := s.store.set id job
    cachedJobIds := s.cachedJobIds ++ [id]
    nextJobId := s.nextJobId + 1
    added := s.added + 1
    reused := s.reused || (s.store.get id).isSome }

variable [LT F] [DecidableLT F]

/-- The statistics that a job is finished with: none, where they were reset. -/
def finalStats (job : PrinterJob F M) : Option (PrintStats F) → Option (PrintStats F)
  | none => none
  | some pstats =>
    if some pstats.filename ≠ job.filename ∨ pstats.totalDuration < job.totalDuration then none
    else some pstats

/-- `save_current_job` -/
def saveCurrentJob (s : History F M) (job : PrinterJob F M) : History F M :=
  match s.currentJobId with
  | none => s
  | some id => { s with store := s.store.set id job }

/-- `finish_job` -/
def finishJob [Add F] (moment : JobMoment F M) (status : JobStatus) (pstats : Option (PrintStats F))
    (s : History F M) : History F M :=
  match s.currentJob with
  | none => s
  | some cj =>
    let job := (cj.finish moment.now status (finalStats cj pstats)).grabMetadata moment.metadata
    let s := s.saveCurrentJob job
    let totals := s.jobTotals.update job
    { s with
      jobTotals := totals
      storedTotals := some totals
      currentJob := none
      currentJobId := none
      finished := s.finished ++ [job.serial] }

/-! ## Events -/

/-- The events of the job state and of klippy with their statistics, the end of the server and
its next start, and the requests that change something. -/
inductive Event (F M : Type)
  | jobStarted (finish start : JobMoment F M) (prevStats : Option (PrintStats F))
    (newStats : PrintStats F)
  | jobComplete (moment : JobMoment F M) (newStats : PrintStats F)
  | jobCancelled (moment : JobMoment F M) (newStats : PrintStats F)
  | jobError (moment : JobMoment F M) (newStats : PrintStats F)
  | jobStandby (moment : JobMoment F M) (prevStats : Option (PrintStats F))
  | shutdown (moment : JobMoment F M) (lastStats : Option (PrintStats F))
  | disconnect (moment : JobMoment F M) (lastStats : Option (PrintStats F))
  | exit (moment : JobMoment F M) (lastStats : Option (PrintStats F))
  | restart
  | deleteJob (uid : String)
  | deleteAll
  | resetTotals

/-- `_handle_job_request` for all jobs. -/
def deleteAll (s : History F M) : History F M :=
  { s with
    store := .empty
    cachedJobIds := []
    nextJobId := 0
    deleted := List.range s.added }

/-- `_handle_job_total_reset`, which is refused during a job. -/
def resetTotals [Zero F] (s : History F M) : History F M :=
  if s.currentJob.isSome then s
  else { s with
    jobTotals := .zero
    storedTotals := some .zero
    resetAt := s.finished.length }

/-- What an event does while the server runs. -/
def handle [Zero F] [Add F] (s : History F M) : Event F M → Option (History F M)
  | .jobStarted finish start prevStats newStats =>
    some ((s.finishJob finish .cancelled prevStats).addJob start newStats)
  | .jobComplete moment newStats => some (s.finishJob moment .completed (some newStats))
  | .jobCancelled moment newStats => some (s.finishJob moment .cancelled (some newStats))
  | .jobError moment newStats => some (s.finishJob moment .error (some newStats))
  | .jobStandby moment prevStats => some (s.finishJob moment .cancelled prevStats)
  | .shutdown moment lastStats => some (s.finishJob moment .klippyShutdown lastStats)
  | .disconnect moment lastStats => some (s.finishJob moment .klippyDisconnect lastStats)
  | .exit moment lastStats =>
    some { s.finishJob moment .serverExit lastStats with exited := true }
  | .restart => none
  | .deleteJob uid => some (s.deleteJob uid)
  | .deleteAll => some s.deleteAll
  | .resetTotals => some s.resetTotals

/-- One step: after its end, all that the server can do is to start again. -/
def step [Zero F] [Add F] (s : History F M) : Event F M → Option (History F M)
  | .restart => if s.exited then s.restart else none
  | e => if s.exited then none else s.handle e

end History

end FlsunT1.Moonraker
