/-
  Moonraker/DatabaseJobs.lean --- operations as jobs of worker threads.

  While the server runs, an operation of a `NamespaceWrapper` is a job.  The executor hands
  the jobs to its threads in their order; the threads then wait for one lock, which any of
  them may get.
-/
import FlsunT1.Library.Run
import FlsunT1.Moonraker.Database

set_option autoImplicit false

namespace FlsunT1.Moonraker

open Library

variable {F : Type}

/-! ## Batches -/

namespace Database

variable (codec : RecordCodec F) (env : Lmdb)

/-- `_insert_batch_impl`: the records are stored in one transaction, after the namespace is
opened. -/
def insertBatch (ns : String) (records : List (String × Value F)) (db : Database) : Database :=
  match db.openNamespace env ns with
  | none => db
  | some db =>
    let put (db : Database) (kv : String × Value F) : Option Database := do
      let bytes ← encodeValue codec kv.2
      if env.takes kv.1 bytes then some (db.put ns kv.1 bytes) else none
    (records.foldlM put db).getD db

/-- `_move_batch_impl` -/
def moveBatch (ns : String) (sourceKeys destKeys : List String) (db : Database) : Database :=
  let move (db : Database) (keys : String × String) : Option Database :=
    match db.get₂ ns keys.1 with
    | none => some db
    | some bytes =>
      if env.takes keys.2 bytes then
        some ((db.removeRecord ns keys.1 false).put ns keys.2 bytes)
      else none
  if (db.get ns).isSome ∧ sourceKeys.length = destKeys.length then
    ((sourceKeys.zip destKeys).foldlM move db).getD db
  else db

/-- `_del_batch_impl`, which decodes what it removes. -/
def deleteBatch (ns : String) (keys : List String) (db : Database) : Database :=
  let remove (db : Database) (key : String) : Option Database :=
    match db.get₂ ns key with
    | none => some db
    | some bytes => (decodeValue codec bytes).map fun _ => db.removeRecord ns key false
  (keys.foldlM remove db).getD db

end Database

/-! ## The wrapper of a namespace -/

/-- The operations of `NamespaceWrapper` that write; `wrapper[k] = v` is `insert` and
`del wrapper[k]` is `delete`. -/
inductive WrapperOp (F : Type)
  | insert (key : DbKey) (value : Value F)
  | updateChild (key : DbKey) (value : Value F)
  | delete (key : DbKey)
  | pop (key : DbKey)
  | insertBatch (records : List (String × Value F))
  | moveBatch (sourceKeys destKeys : List String)
  | deleteBatch (keys : List String)

/-- Without `parse_keys`, a string is the key of a record. -/
def wrapperKey (parseKeys : Bool) : DbKey → DbKey
  | .text key => if parseKeys then .text key else .path [key]
  | .path keys => .path keys

/-- What an operation does to the database when its job runs, with or without an exception. -/
def WrapperOp.effect (codec : RecordCodec F) (env : Lmdb) (ns : String) (parseKeys : Bool)
    (op : WrapperOp F) (db : Database) : Database :=
  match op with
  | .insert key value => (db.insertItem codec env ns (wrapperKey parseKeys key) value).2
  | .updateChild key value => (db.updateItem codec env ns (wrapperKey parseKeys key) value).2
  | .delete key | .pop key => (db.deleteItem codec env ns (wrapperKey parseKeys key) false).2
  | .insertBatch records => db.insertBatch codec env ns records
  | .moveBatch sourceKeys destKeys => db.moveBatch env ns sourceKeys destKeys
  | .deleteBatch keys => db.deleteBatch codec ns keys

/-- `pop` creates a task, which issues the job when it starts. -/
def WrapperOp.startsTask : WrapperOp F → Bool
  | .pop _ => true
  | _ => false

/-! ## The executor -/

/-- The jobs and where they are: `unfinished` in the order in which they were issued, the
tasks that are to start, the queue of the executor and the threads that wait for the lock.
`issued` are the operations so far. -/
structure JobState (F : Type) where
  db : Database
  next : ℕ
  unfinished : List (ℕ × WrapperOp F)
  tasks : List ℕ
  queue : List ℕ
  waiting : List ℕ
  issued : List (WrapperOp F)

/-- No operation was issued. -/
def JobState.init (db : Database) : JobState F := ⟨db, 0, [], [], [], [], []⟩

/-- What happens to the jobs. -/
inductive JobEvent (F : Type)
  /-- The event loop calls a method of the wrapper. -/
  | issue (op : WrapperOp F)
  /-- The next task starts. -/
  | startTask
  /-- A thread that is free takes the next job. -/
  | take
  /-- The thread with this job gets `thread_lock` and runs it. -/
  | lock (job : ℕ)

/-- The operations that were issued before a job and are not finished, with the operation of
the job and those issued after it. -/
def splitJob (job : ℕ) : List (ℕ × WrapperOp F) →
    Option (List (ℕ × WrapperOp F) × WrapperOp F × List (ℕ × WrapperOp F))
  | [] => none
  | (id, op) :: jobs =>
    if id = job then some ([], op, jobs)
    else (splitJob job jobs).map fun (older, op', newer) => ((id, op) :: older, op', newer)

/-- The step of an event, with `effect` for the operations and `workers` threads. -/
def JobState.step (effect : WrapperOp F → Database → Database) (workers : ℕ) (s : JobState F) :
    JobEvent F → Option (JobState F)
  | .issue op =>
    let s := { s with
      next := s.next + 1
      unfinished := s.unfinished ++ [(s.next, op)]
      issued := s.issued ++ [op] }
    some (if op.startsTask then { s with tasks := s.tasks ++ [s.next - 1] }
      else { s with queue := s.queue ++ [s.next - 1] })
  | .startTask =>
    match s.tasks with
    | [] => none
    | job :: tasks => some { s with tasks := tasks, queue := s.queue ++ [job] }
  | .take =>
    match s.queue with
    | [] => none
    | job :: queue =>
      if s.waiting.length < workers then
        some { s with queue := queue, waiting := s.waiting ++ [job] }
      else none
  | .lock job =>
    if job ∈ s.waiting then
      (splitJob job s.unfinished).map fun (older, op, newer) =>
        { s with
          db := effect op s.db
          unfinished := older ++ newer
          waiting := s.waiting.erase job }
    else none

/-- The database after operations, one after the other. -/
def runOps (effect : WrapperOp F → Database → Database) (db : Database)
    (ops : List (WrapperOp F)) : Database :=
  ops.foldl (fun db op => effect op db) db

/-! ## The order of the writes -/

/-- The condition on a thread that gets the lock: running its job before those that were
issued before it and are not finished makes no difference. -/
def OvertakeCondition (effect : WrapperOp F → Database → Database) (s : JobState F) :
    JobEvent F → Prop
  | .lock job => ∀ older op newer, splitJob job s.unfinished = some (older, op, newer) →
      runOps effect (effect op s.db) (older.map Prod.snd) =
        effect op (runOps effect s.db (older.map Prod.snd))
  | .issue _ | .startTask | .take => True

theorem splitJob_eq {job : ℕ} {jobs older newer : List (ℕ × WrapperOp F)} {op : WrapperOp F}
    (h : splitJob job jobs = some (older, op, newer)) : jobs = older ++ (job, op) :: newer := by
  induction jobs generalizing older with
  | nil => cases h
  | cons entry jobs ih =>
    obtain ⟨id, op'⟩ := entry
    rw [splitJob] at h
    split at h
    · rename_i hid
      cases h
      rw [hid]
      rfl
    · obtain ⟨⟨older', op'', newer'⟩, hsplit, hpair⟩ := Option.map_eq_some_iff.mp h
      cases hpair
      rw [List.cons_append, ih hsplit]

variable {effect : WrapperOp F → Database → Database}

/-- What is unfinished would bring the database to where the operations in their order do. -/
def InIssueOrder (effect : WrapperOp F → Database → Database) (db : Database) (s : JobState F) :
    Prop :=
  runOps effect s.db (s.unfinished.map Prod.snd) = runOps effect db s.issued

theorem runOps_append (db : Database) (ops ops' : List (WrapperOp F)) :
    runOps effect db (ops ++ ops') = runOps effect (runOps effect db ops) ops' :=
  List.foldl_append

theorem runOps_overtake {db : Database} {op : WrapperOp F} {older newer : List (WrapperOp F)}
    (h : runOps effect (effect op db) older = effect op (runOps effect db older)) :
    runOps effect (effect op db) (older ++ newer) = runOps effect db (older ++ op :: newer) := by
  rw [runOps_append, h, runOps_append]
  rfl

theorem inIssueOrder_step {workers : ℕ} {db : Database} {s t : JobState F} {e : JobEvent F}
    (hs : InIssueOrder effect db s) (hstep : s.step effect workers e = some t)
    (hcond : OvertakeCondition effect s e) : InIssueOrder effect db t := by
  cases e with
  | issue op =>
    have ht : t.db = s.db ∧ t.unfinished = s.unfinished ++ [(s.next, op)] ∧
        t.issued = s.issued ++ [op] := by
      rw [← Option.some.inj hstep]
      split
      · exact ⟨rfl, rfl, rfl⟩
      · exact ⟨rfl, rfl, rfl⟩
    rw [InIssueOrder, ht.1, ht.2.1, ht.2.2, List.map_append, runOps_append, runOps_append, hs]
    rfl
  | startTask =>
    rw [JobState.step] at hstep
    split at hstep
    · cases hstep
    · cases hstep
      exact hs
  | take =>
    rw [JobState.step] at hstep
    split at hstep
    · cases hstep
    · split at hstep
      · cases hstep
        exact hs
      · cases hstep
  | lock job =>
    rw [JobState.step] at hstep
    split at hstep
    · obtain ⟨⟨older, op, newer⟩, hsplit, ht⟩ := Option.map_eq_some_iff.mp hstep
      cases ht
      have hovertake := hcond older op newer hsplit
      have hjobs := splitJob_eq hsplit
      rw [InIssueOrder, hjobs, List.map_append, List.map_cons] at hs
      rw [InIssueOrder, List.map_append, runOps_overtake hovertake]
      exact hs
    · cases hstep

instance (effect : WrapperOp F → Database → Database) (s : JobState F) :
    (e : JobEvent F) → Decidable (OvertakeCondition effect s e)
  | .lock job => decidable_of_iff
      (∀ x ∈ (splitJob job s.unfinished).toList,
        runOps effect (effect x.2.1 s.db) (x.1.map Prod.snd) =
          effect x.2.1 (runOps effect s.db (x.1.map Prod.snd)))
      ⟨fun h older op newer hsplit => h (older, op, newer) (Option.mem_toList.mpr hsplit),
        fun h x hx => h x.1 x.2.1 x.2.2 (Option.mem_toList.mp hx)⟩
  | .issue _ | .startTask | .take => inferInstanceAs (Decidable True)

/-- The effects on a namespace whose records are no objects. -/
abbrev scalarEffect : WrapperOp Unit → Database → Database :=
  WrapperOp.effect scalarCodec ⟨fun _ => true, fun _ _ => true⟩ "history" true

/-- A namespace without records. -/
def emptyNamespace : Database := .set "history" .empty .empty

/-- Two writes, of which the second gets the lock first. -/
def overtakingWrites (first second : ℤ) : List (JobEvent Unit) :=
  [.issue (.insert (.text "total") (.int first)), .issue (.insert (.text "total") (.int second)),
    .take, .take, .lock 1, .lock 0]

end FlsunT1.Moonraker
