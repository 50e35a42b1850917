/-
  Moonraker/JobQueue.lean --- the queue of print jobs (moonraker/components/job_queue.py).

  The coroutines go from one wait to the next.  Those that change the queue hold a lock, whose
  waiters get it in their order; `pause_queue` changes the state before it waits for the lock.
-/
import FlsunT1.Library.Run

set_option autoImplicit false

namespace FlsunT1.Moonraker

open Library

/-! ## Jobs and coroutines -/

/-- `class QueuedJob`, whose id is the address of the object.  Objects are numbered in the order
of their creation. -/
structure QueuedJob where
  serial : ℕ
  jobId : ℕ
  filename : String
  deriving DecidableEq

/-- `queue_state` -/
inductive QueueState
  | ready
  | paused
  | loading
  | starting
  deriving DecidableEq

/-- A `_pop_job` that was scheduled, with the number of its timer. -/
structure PopJob where
  handle : ℕ
  needTransition : Bool
  deriving DecidableEq

/-- The other coroutines of the queue: the handlers of the events of klippy and of the job
state, and the requests. -/
inductive QueueCall
  | klippyReady
  | klippyShutdown
  | jobComplete
  | jobAbort
  | queueJob (filenames : List String) (checkExists reset : Bool)
  | deleteJob (jobIds : List ℕ) (all : Bool)
  | jump (jobId : ℕ)
  | pauseQueue
  | startQueue
  deriving DecidableEq

/-- A coroutine that waits for the lock. -/
inductive QueueTask
  | call (call : QueueCall)
  | pop (pop : PopJob)
  deriving DecidableEq

/-- A coroutine that waits for klippy and holds the lock. -/
inductive LockHolder
  | popCheck (pop : PopJob) (job : QueuedJob)
  | popTransition (pop : PopJob) (job : QueuedJob)
  | popStart (pop : PopJob) (job : QueuedJob)
  | startCheck
  deriving DecidableEq

/-- How the wait for klippy ends: with the answer that was hoped for, with another answer or an
error of the server, or with another exception, which ends the coroutine. -/
inductive KlippyAnswer
  | good
  | bad
  | raised
  deriving DecidableEq

/-- The options, and whether there is a gcode for the transition. -/
structure QueueConfig where
  loadOnStart : Bool
  automatic : Bool
  transitionGcode : Bool

/-- What a coroutine finds when it gets the lock: whether the files exist, and the addresses of
the objects that it creates. -/
structure QueueEnv where
  filesExist : Bool
  addresses : List ℕ

/-- `class JobQueue`.  `timers` are the timers that have not expired, and `expired` the tasks of
those that have; `started` are the prints that were started, with the timers, and `pauseDone`
says that `pause_queue` has returned and that neither `start_queue` nor the handler of
`klippy_ready` ran since. -/
structure JobQueue where
  queuedJobs : List QueuedJob
  queueState : QueueState
  popQueueHandle : Option ℕ
  timers : List PopJob
  expired : List PopJob
  waiters : List QueueTask
  holder : Option LockHolder
  nextJob : ℕ
  nextHandle : ℕ
  started : List (ℕ × QueuedJob)
  pauseDone : Bool

namespace JobQueue

/-- `"ready" if self.automatic else "paused"` -/
def emptyState (config : QueueConfig) : QueueState :=
  if config.automatic then .ready else .paused

/-- `__init__` -/
def init (config : QueueConfig) : JobQueue :=
  { queuedJobs := [], queueState := emptyState config, popQueueHandle := none, timers := []
    expired := [], waiters := [], holder := none, nextJob := 0, nextHandle := 0, started := []
    pauseDone := false }

/-! ## Coroutines that have the lock -/

/-- `self._set_queue_state("loading")` with a timer for `_pop_job`. -/
def schedule (s : JobQueue) (needTransition : Bool) : JobQueue :=
  { s with
    queueState := .loading
    popQueueHandle := some s.nextHandle
    timers := s.timers ++ [⟨s.nextHandle, needTransition⟩]
    nextHandle := s.nextHandle + 1 }

/-- `_handle_ready` -/
def handleReady (config : QueueConfig) (s : JobQueue) : JobQueue :=
  let s := { s with pauseDone := false }
  if ¬config.loadOnStart ∨ s.queuedJobs = [] then s
  else if s.queueState = .ready ∨ s.queueState = .paused then s.schedule false
  else s

/-- `_handle_shutdown` after the queue was paused. -/
def handleShutdown (config : QueueConfig) (s : JobQueue) : JobQueue :=
  if s.queuedJobs = [] ∧ config.automatic then { s with queueState := .ready } else s

/-- `_on_job_complete`, where the transition is automatic. -/
def onJobComplete (s : JobQueue) : JobQueue :=
  if s.queueState = .ready ∧ s.queuedJobs ≠ [] then s.schedule true else s

/-- `_on_job_abort` -/
def onJobAbort (s : JobQueue) : JobQueue :=
  if s.queuedJobs ≠ [] then { s with queueState := .paused } else s

/-- `_pop_job` up to the query of the print state. -/
def popJob (config : QueueConfig) (s : JobQueue) (pop : PopJob) : JobQueue :=
  if s.queueState = .paused then s
  else
    match s.queuedJobs with
    | [] => { s with queueState := emptyState config }
    | job :: _ => { s with holder := some (.popCheck pop job) }

/-- The objects that `queue_job` creates, one after another. -/
def newJobs (serial : ℕ) : List String → List ℕ → List QueuedJob
  | filename :: filenames, address :: addresses =>
    ⟨serial, address, filename⟩ :: newJobs (serial + 1) filenames addresses
  | _, _ => []

/-- `queue_job` -/
def queueJob (env : QueueEnv) (s : JobQueue) (filenames : List String)
    (checkExists reset : Bool) : JobQueue :=
  if checkExists ∧ ¬env.filesExist then s
  else
    { s with
      queuedJobs := (if reset then [] else s.queuedJobs) ++
        newJobs s.nextJob filenames env.addresses
      nextJob := s.nextJob + filenames.length }

/-- `delete_job` -/
def deleteJob (s : JobQueue) (jobIds : List ℕ) (all : Bool) : JobQueue :=
  { s with queuedJobs := if all then [] else s.queuedJobs.filter (·.jobId ∉ jobIds) }

/-- `_handle_jump`, which raises an error where there is no such job. -/
def handleJump (s : JobQueue) (jobId : ℕ) : JobQueue :=
  match s.queuedJobs.find? (·.jobId = jobId) with
  | none => s
  | some job => { s with queuedJobs := job :: s.queuedJobs.filter (·.jobId ≠ jobId) }

/-- `start_queue` up to the query of the print state. -/
def startQueue (config : QueueConfig) (s : JobQueue) : JobQueue :=
  let s := { s with pauseDone := false }
  if s.queueState ≠ .loading then
    if s.queuedJobs ≠ [] then { s with holder := some .startCheck }
    else { s with queueState := emptyState config }
  else s

/-- A coroutine that gets the lock, up to its end or to its wait for klippy. -/
def runTask (config : QueueConfig) (env : QueueEnv) (s : JobQueue) : QueueTask → JobQueue
  | .call .klippyReady => s.handleReady config
  | .call .klippyShutdown => s.handleShutdown config
  | .call .jobComplete => s.onJobComplete
  | .call .jobAbort => s.onJobAbort
  | .call (.queueJob filenames checkExists reset) => s.queueJob env filenames checkExists reset
  | .call (.deleteJob jobIds all) => s.deleteJob jobIds all
  | .call (.jump jobId) => s.handleJump jobId
  | .call .pauseQueue => { s with pauseDone := true }
  | .call .startQueue => s.startQueue config
  | .pop pop => s.popJob config pop

/-! ## Coroutines that waited for klippy -/

def release (s : JobQueue) : JobQueue := { s with holder := none }

/-- `self._set_queue_state("starting")` and `kapis.start_print`. -/
def startPrint (s : JobQueue) (pop : PopJob) (job : QueuedJob) : JobQueue :=
  { s with
    queueState := .starting
    started := s.started ++ [(pop.handle, job)]
    holder := some (.popStart pop job) }

/-- `_pop_job` after the print was started. -/
def jobLoaded (config : QueueConfig) (s : JobQueue) (job : QueuedJob) : JobQueue :=
  let s := { s with queuedJobs := s.queuedJobs.filter (·.jobId ≠ job.jobId) }
  if s.queueState = .starting then
    { s with queueState := if s.queuedJobs = [] ∨ config.automatic then .ready else .paused }
  else s

/-- `start_queue` and `_pop_job` after a wait. -/
def resume (config : QueueConfig) (s : JobQueue) (answer : KlippyAnswer) :
    LockHolder → JobQueue
  | .startCheck =>
    if answer = .good then (s.schedule false).release
    else { s with queueState := emptyState config }.release
  | .popCheck pop job =>
    if answer ≠ .good ∨ s.queueState ≠ .loading then { s with queueState := .paused }.release
    else if config.transitionGcode ∧ pop.needTransition then
      { s with holder := some (.popTransition pop job) }
    else s.startPrint pop job
  | .popTransition pop job =>
    match answer with
    | .raised => s.release
    | .bad => { s with queueState := .paused }.release
    | .good =>
      if s.queueState ≠ .loading then { s with queueState := .paused }.release
      else s.startPrint pop job
  | .popStart _ job =>
    match answer with
    | .raised => s.release
    | .bad => { s with queueState := .paused }.release
    | .good => (s.jobLoaded config job).release

/-! ## Steps -/

/-- What a coroutine does before it waits for the lock. -/
def prelude (s : JobQueue) : QueueTask → JobQueue
  | .call .pauseQueue | .call .klippyShutdown =>
    { s with
      queueState := .paused
      popQueueHandle := none
      timers := s.timers.filter fun pop => some pop.handle ≠ s.popQueueHandle }
  | .pop _ => { s with popQueueHandle := none }
  | .call _ => s

/-- A coroutine that asks for the lock. -/
def enter (config : QueueConfig) (env : QueueEnv) (s : JobQueue) (task : QueueTask) : JobQueue :=
  let s := s.prelude task
  if s.holder = none ∧ s.waiters = [] then s.runTask config env task
  else { s with waiters := s.waiters ++ [task] }

end JobQueue

/-- What happens: a coroutine is called, a timer expires and its task starts, the first waiter
gets the lock, or the wait of the holder ends. -/
inductive QueueEvent
  | call (call : QueueCall) (env : QueueEnv)
  | expire (pop : PopJob)
  | startPop (pop : PopJob) (env : QueueEnv)
  | wake (env : QueueEnv)
  | resume (answer : KlippyAnswer)

namespace JobQueue

/-- The coroutine that gets the lock in a step. -/
def runs (s : JobQueue) : QueueEvent → Option QueueTask
  | .call call _ => if s.holder = none ∧ s.waiters = [] then some (.call call) else none
  | .startPop pop _ => if s.holder = none ∧ s.waiters = [] then some (.pop pop) else none
  | .wake _ => s.waiters.head?
  | .expire _ | .resume _ => none

/-- The addresses of new objects are not those of jobs that stay in the queue. -/
def FreshAddresses (s : JobQueue) (env : QueueEnv) : QueueTask → Prop
  | .call (.queueJob filenames _ reset) =>
    filenames.length = env.addresses.length ∧ env.addresses.Nodup ∧
      (reset = false → ∀ job ∈ s.queuedJobs, job.jobId ∉ env.addresses)
  | _ => True

instance (s : JobQueue) (env : QueueEnv) : (task : QueueTask) →
    Decidable (s.FreshAddresses env task)
  | .call (.queueJob _ _ _) => inferInstanceAs (Decidable (_ ∧ _ ∧ (_ → _)))
  | .pop _ | .call .klippyReady | .call .klippyShutdown | .call .jobComplete | .call .jobAbort
  | .call (.deleteJob _ _) | .call (.jump _) | .call .pauseQueue | .call .startQueue =>
    inferInstanceAs (Decidable True)

/-- One step.  The handler of a complete job does nothing where the transition is not
automatic. -/
def step (config : QueueConfig) (s : JobQueue) : QueueEvent → Option JobQueue
  | .call call env =>
    if call = .jobComplete ∧ ¬config.automatic then some s
    else if s.FreshAddresses env (.call call) then some (s.enter config env (.call call))
    else none
  | .expire pop =>
    if pop ∈ s.timers then
      some { s with timers := s.timers.erase pop, expired := s.expired ++ [pop] }
    else none
  | .startPop pop env =>
    if pop ∈ s.expired then
      some ({ s with expired := s.expired.erase pop }.enter config env (.pop pop))
    else none
  | .wake env =>
    match s.holder, s.waiters with
    | none, task :: waiters =>
      if s.FreshAddresses env task then
        some ({ s with waiters := waiters }.runTask config env task)
      else none
    | _, _ => none
  | .resume answer => s.holder.map (s.resume config answer)

end JobQueue

end FlsunT1.Moonraker
