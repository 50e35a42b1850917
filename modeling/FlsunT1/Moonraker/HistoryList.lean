/-
  Moonraker/HistoryList.lean --- the list of past jobs (`_handle_jobs_list` in
  moonraker/components/history.py).

  Two scans of the ids, from either end, find the boundaries of what is asked for; the page is
  then read by index.  The scan for `before` compares the end time of the last job, also where
  that job has none.
-/
import Mathlib
import FlsunT1.Library.Window
import FlsunT1.Moonraker.History

set_option autoImplicit false

namespace FlsunT1.Moonraker

open Library

/-! ## The request -/

/-- The parameters of the request, as far as they are given. -/
structure ListRequest (F : Type) where
  before : Option F
  since : Option F
  limit : Option ℕ
  start : Option ℕ
  order : Option String

/-- What the handler raises. -/
inductive ListError where
  /-- "Invalid `order` value: `order`" -/
  | invalidOrder (order : String)
  /-- the database has no such key -/
  | noSuchKey (jobId : String)
  /-- `None < before` -/
  | typeError
  /-- `cached_job_ids` is read past one of its ends -/
  | indexError
  deriving DecidableEq

/-- What `_prep_requested_job` makes of a record. -/
structure RequestedJob (F M : Type) where
  job : PrinterJob F M
  jobId : String
  exists_ : Bool

/-- The response. -/
structure JobsList (F M : Type) where
  count : ℕ
  jobs : List (RequestedJob F M)

namespace History

variable {F M : Type}

/-- `await self.history_ns[job_id]` -/
def readJob (s : History F M) (jobId : String) : Except ListError (PrinterJob F M) :=
  match s.store.get jobId with
  | none => .error (.noSuchKey jobId)
  | some job => .ok job

/-- `_prep_requested_job`; whether the file is the one that was printed is up to
`check_file_exists`. -/
def prepRequestedJob (fileExists : Option String → Option M → Bool) (job : PrinterJob F M)
    (jobId : String) : RequestedJob F M :=
  ⟨job, jobId, fileExists job.filename job.metadata⟩

theorem readJob_of_get {s : History F M} {x : String × PrinterJob F M}
    (h : s.store.get x.1 = some x.2) : s.readJob x.1 = .ok x.2 := by
  unfold readJob
  rw [h]

variable [LinearOrder F]

/-- The loop that finds `start_num`, over the ids from there on. -/
def scanSince (s : History F M) (since : F) : List String → ℕ → Except ListError ℕ
  | [], startNum => .ok startNum
  | jobId :: ids, startNum => do
      let job ← s.readJob jobId
      if job.startTime > since then return startNum else s.scanSince since ids (startNum + 1)

/-- The loop that finds `end_num`, over the ids before it, the last one first. -/
def scanBefore (s : History F M) (before : F) : List String → ℕ → Except ListError ℕ
  | [], endNum => .ok endNum
  | jobId :: ids, endNum => do
      let job ← s.readJob jobId
      match job.endTime with
      | none => .error .typeError
      | some endTime =>
          if endTime < before then return endNum else s.scanBefore before ids (endNum - 1)

/-- `self.cached_job_ids[i]` -/
def cachedJobId (s : History F M) (i : ℕ) : Except ListError String :=
  match s.cachedJobIds[i]? with
  | none => .error .indexError
  | some jobId => .ok jobId

/-- The loop that reads the page, for as many jobs as there is still room for. -/
def readPage (s : History F M) (fileExists : Option String → Option M → Bool)
    (reverseOrder : Bool) (startNum endNum : ℕ) : ℕ → ℕ →
      Except ListError (List (RequestedJob F M))
  | 0, _ => .ok []
  | room + 1, i =>
    if i < endNum - startNum then do
      let jobId ← s.cachedJobId (if reverseOrder then endNum - i - 1 else startNum + i)
      let job ← s.readJob jobId
      let jobs ← s.readPage fileExists reverseOrder startNum endNum room (i + 1)
      return prepRequestedJob fileExists job jobId :: jobs
    else .ok []

/-- `start_num`, the place of the first job after `since` -/
def startNum [One F] [Neg F] (s : History F M) (since : F) : Except ListError ℕ :=
  if since ≠ -1 then s.scanSince since s.cachedJobIds 0 else .ok 0

/-- `end_num`, the number of jobs up to the last before `before` -/
def endNum [One F] [Neg F] (s : History F M) (before : F) : Except ListError ℕ :=
  if before ≠ -1 then s.scanBefore before s.cachedJobIds.reverse s.cachedJobIds.length
  else .ok s.cachedJobIds.length

/-- What `_handle_jobs_list` does once it has both boundaries. -/
def listBetween (s : History F M) (fileExists : Option String → Option M → Bool)
    (reverseOrder : Bool) (limit start startNum endNum : ℕ) : Except ListError (JobsList F M) :=
  if startNum ≥ endNum ∨ endNum = 0 then .ok ⟨0, []⟩
  else
    let limit := if limit = 0 then maxJobs else limit
    (s.readPage fileExists reverseOrder startNum endNum limit start).map
      fun jobs => ⟨endNum - startNum, jobs⟩

/-- `_handle_jobs_list` -/
def handleJobsList [One F] [Neg F] (s : History F M)
    (fileExists : Option String → Option M → Bool) (req : ListRequest F) :
    Except ListError (JobsList F M) :=
  let order := req.order.getD "desc"
  if order ∉ ["asc", "desc"] then .error (.invalidOrder order)
  else do
    let startNum ← s.startNum (req.since.getD (-1))
    let endNum ← s.endNum (req.before.getD (-1))
    s.listBetween fileExists (order = "desc") (req.limit.getD 50) (req.start.getD 0) startNum endNum

/-! ## What is asked for -/

/-- The job started after `since`, if that is given. -/
def startedAfter (since : Option F) (job : PrinterJob F M) : Bool :=
  since.all fun t => t < job.startTime

/-- The job has ended before `before`, if that is given. -/
def endedBefore (before : Option F) (job : PrinterJob F M) : Bool :=
  before.all fun t => job.endTime.any fun endTime => endTime < t

/-- The jobs that are asked for. -/
def selected (since before : Option F) (jobs : List (String × PrinterJob F M)) :
    List (String × PrinterJob F M) :=
  jobs.filter fun x => startedAfter since x.2 && endedBefore before x.2

/-- These jobs in the order that is asked for, from `start` on. -/
def fromStart (req : ListRequest F) (since before : Option F)
    (jobs : List (String × PrinterJob F M)) : List (String × PrinterJob F M) :=
  let jobs := selected since before jobs
  (if req.order.getD "desc" = "desc" then jobs.reverse else jobs).drop (req.start.getD 0)

/-- The response that the request asks for. -/
def requestedList (fileExists : Option String → Option M → Bool) (req : ListRequest F)
    (jobs : List (String × PrinterJob F M)) : JobsList F M where
  count := (selected req.since req.before jobs).length
  jobs :=
    let page := fromStart req req.since req.before jobs
    let limit := req.limit.getD 50
    (if limit = 0 then page else page.take limit).map fun x => prepRequestedJob fileExists x.2 x.1

/-- The records of the history in the order of its ids: start and end times do not decrease, and
only the last job may have no end time yet. -/
structure Records (s : History F M) (jobs : List (String × PrinterJob F M)) : Prop where
  ids : s.cachedJobIds = jobs.map Prod.fst
  stored : ∀ x ∈ jobs, s.store.get x.1 = some x.2
  started : jobs.Pairwise fun x y => x.2.startTime ≤ y.2.startTime
  ended : jobs.Pairwise fun x y =>
    ∃ endTime, x.2.endTime = some endTime ∧ ∀ next, y.2.endTime = some next → endTime ≤ next

variable {s : History F M} {jobs : List (String × PrinterJob F M)}

theorem Records.fromOn (h : s.Records jobs) (since : Option F) :
    FromOn (fun x : String × PrinterJob F M => startedAfter since x.2) jobs := by
  refine h.started.imp fun {x y} hle => ?_
  cases since with
  | none => exact fun _ => rfl
  | some t => exact fun hx => decide_eq_true ((of_decide_eq_true hx).trans_le hle)

theorem Records.upTo (h : s.Records jobs) (before : Option F) :
    UpTo (fun x : String × PrinterJob F M => endedBefore before x.2) jobs := by
  refine h.ended.imp fun {x y} ⟨endTime, hx, hle⟩ => ?_
  cases before with
  | none => exact fun _ => rfl
  | some t =>
    intro hy
    obtain ⟨next, hnext, hlt⟩ := (Option.any_eq_true _ _).mp hy
    refine (Option.any_eq_true _ _).mpr ⟨endTime, hx, ?_⟩
    exact decide_eq_true ((hle next hnext).trans_lt (of_decide_eq_true hlt))

/-! ## The scans -/

theorem scanSince_cons {x : String × PrinterJob F M} (hx : s.store.get x.1 = some x.2)
    (since : F) (ids : List String) (n : ℕ) : s.scanSince since (x.1 :: ids) n =
      if since < x.2.startTime then .ok n else s.scanSince since ids (n + 1) := by
  rw [scanSince, readJob_of_get hx]
  rfl

theorem scanBefore_cons {x : String × PrinterJob F M} (hx : s.store.get x.1 = some x.2)
    {endTime : F} (hended : x.2.endTime = some endTime) (before : F) (ids : List String) (n : ℕ) :
    s.scanBefore before (x.1 :: ids) n =
      if endTime < before then .ok n else s.scanBefore before ids (n - 1) := by
  rw [scanBefore, readJob_of_get hx]
  change Except.bind (.ok x.2) _ = _
  unfold Except.bind
  dsimp only
  rw [hended]
  rfl

theorem scanBefore_cons_error {x : String × PrinterJob F M} (hx : s.store.get x.1 = some x.2)
    (hrunning : x.2.endTime = none) (before : F) (ids : List String) (n : ℕ) :
    s.scanBefore before (x.1 :: ids) n = .error .typeError := by
  rw [scanBefore, readJob_of_get hx]
  change Except.bind (.ok x.2) _ = _
  unfold Except.bind
  dsimp only
  rw [hrunning]

theorem scanSince_eq (since : F) (n : ℕ) (h : ∀ x ∈ jobs, s.store.get x.1 = some x.2) :
    s.scanSince since (jobs.map Prod.fst) n = .ok (n + startOf
      (fun x : String × PrinterJob F M => startedAfter (some since) x.2) jobs) := by
  induction jobs generalizing n with
  | nil => rfl
  | cons x jobs ih =>
    obtain ⟨hx, hjobs⟩ := List.forall_mem_cons.mp h
    let p := fun x : String × PrinterJob F M => startedAfter (some since) x.2
    rw [List.map_cons, scanSince_cons hx]
    split
    · rename_i hgt
      rw [startOf_of_pos (p := p) (decide_eq_true hgt), Nat.add_zero]
    · rename_i hle
      rw [startOf_of_neg (p := p) (decide_eq_false hle), ih _ hjobs, Nat.add_right_comm,
        Nat.add_assoc]

/-- The scan from the end, where each job has an end time. -/
theorem scanBefore_reverse (before : F) (h : ∀ x ∈ jobs, s.store.get x.1 = some x.2)
    (hended : ∀ x ∈ jobs, x.2.endTime ≠ none) :
    s.scanBefore before (jobs.map Prod.fst) jobs.length = .ok (jobs.dropWhile
      fun x => !endedBefore (some before) x.2).length := by
  induction jobs with
  | nil => rfl
  | cons x jobs ih =>
    obtain ⟨hx, hjobs⟩ := List.forall_mem_cons.mp h
    obtain ⟨hxended, hjobsended⟩ := List.forall_mem_cons.mp hended
    obtain ⟨endTime, hendTime⟩ := Option.ne_none_iff_exists'.mp hxended
    rw [List.map_cons, scanBefore_cons hx hendTime]
    have hq : endedBefore (some before) x.2 = decide (endTime < before) := by
      unfold endedBefore
      rw [hendTime]
      rfl
    split
    · rename_i hlt
      rw [List.dropWhile_cons_of_neg (by rw [hq, decide_eq_true hlt]; exact Bool.false_ne_true)]
    · rename_i hle
      rw [List.dropWhile_cons_of_pos (by rw [hq, decide_eq_false hle]; rfl)]
      exact ih hjobs hjobsended

theorem Records.scanBefore_eq (h : s.Records jobs) (before : F)
    (hended : ∀ x ∈ jobs, x.2.endTime ≠ none) :
    s.scanBefore before s.cachedJobIds.reverse s.cachedJobIds.length = .ok (stopOf
      (fun x : String × PrinterJob F M => endedBefore (some before) x.2) jobs) := by
  have hstored : ∀ x ∈ jobs.reverse, s.store.get x.1 = some x.2 := fun x hx =>
    h.stored x (List.mem_reverse.mp hx)
  have hscan := scanBefore_reverse before hstored fun x hx => hended x (List.mem_reverse.mp hx)
  rw [List.map_reverse, List.length_reverse] at hscan
  rw [h.ids, List.length_map, hscan]
  have hfrom : FromOn (fun x : String × PrinterJob F M => endedBefore (some before) x.2)
      jobs.reverse := List.pairwise_reverse.mpr (h.upTo (some before))
  rw [← filter_eq_dropWhile hfrom, List.filter_reverse, List.length_reverse,
    filter_eq_takeWhile (h.upTo (some before))]
  rfl

theorem Records.scanBefore_error (h : s.Records jobs) (before : F)
    {x : String × PrinterJob F M} (hx : x ∈ jobs) (hnone : x.2.endTime = none) :
    s.scanBefore before s.cachedJobIds.reverse s.cachedJobIds.length = .error .typeError := by
  obtain ⟨l, l', rfl⟩ := List.append_of_mem hx
  have hlast : l' = [] := by
    cases l' with
    | nil => rfl
    | cons y l' =>
      obtain ⟨endTime, hendTime, -⟩ :=
        (List.pairwise_cons.mp (List.pairwise_append.mp h.ended).2.1).1 y List.mem_cons_self
      rw [hnone] at hendTime
      cases hendTime
  subst hlast
  rw [h.ids, List.map_append, List.reverse_append, List.map_singleton, List.reverse_singleton,
    List.singleton_append]
  exact scanBefore_cons_error (h.stored x hx) hnone before _ _

/-! ## The page -/

/-- The jobs between the boundaries, in the order that is asked for. -/
def window (jobs : List (String × PrinterJob F M)) (reverseOrder : Bool) (startNum endNum : ℕ) :
    List (String × PrinterJob F M) :=
  let jobs := (jobs.take endNum).drop startNum
  if reverseOrder then jobs.reverse else jobs

omit [LinearOrder F] in
theorem length_window (startNum : ℕ) {endNum : ℕ} (hend : endNum ≤ jobs.length)
    (reverseOrder : Bool) :
    (window jobs reverseOrder startNum endNum).length = endNum - startNum := by
  unfold window
  dsimp only
  split
  · rw [List.length_reverse, List.length_drop, List.length_take_of_le hend]
  · rw [List.length_drop, List.length_take_of_le hend]

omit [LinearOrder F] in
theorem getElem?_window {startNum endNum i : ℕ} (hend : endNum ≤ jobs.length)
    (hi : i < endNum - startNum) (reverseOrder : Bool) :
    (window jobs reverseOrder startNum endNum)[i]? =
      jobs[if reverseOrder then endNum - i - 1 else startNum + i]? := by
  unfold window
  dsimp only
  have hlen : ((jobs.take endNum).drop startNum).length = endNum - startNum := by
    rw [List.length_drop, List.length_take_of_le hend]
  split
  · rw [List.getElem?_reverse (by rw [hlen]; exact hi), hlen, List.getElem?_drop,
      List.getElem?_take_of_lt (by omega)]
    congr 1
    omega
  · rw [List.getElem?_drop, List.getElem?_take_of_lt (by omega)]

/-- The loop reads the window from `i` on, as far as there is room. -/
theorem Records.readPage_eq (h : s.Records jobs)
    (fileExists : Option String → Option M → Bool) (reverseOrder : Bool) {startNum endNum : ℕ}
    (hend : endNum ≤ jobs.length) (room i : ℕ) :
    s.readPage fileExists reverseOrder startNum endNum room i =
      .ok ((((window jobs reverseOrder startNum endNum).drop i).take room).map
        fun x => prepRequestedJob fileExists x.2 x.1) := by
  induction room generalizing i with
  | zero => rfl
  | succ room ih =>
    have hlen := length_window startNum hend reverseOrder
    unfold readPage
    split
    · rename_i hi
      have hget := getElem?_window hend hi reverseOrder
      generalize window jobs reverseOrder startNum endNum = w at *
      obtain ⟨x, hx, hdrop⟩ : ∃ x, w[i]? = some x ∧ w.drop i = x :: w.drop (i + 1) :=
        ⟨_, List.getElem?_eq_getElem (hi.trans_eq hlen.symm),
          List.drop_eq_getElem_cons (hi.trans_eq hlen.symm)⟩
      rw [hx] at hget
      have hcached : s.cachedJobId (if reverseOrder then endNum - i - 1 else startNum + i) =
          .ok x.1 := by
        unfold cachedJobId
        rw [h.ids, List.getElem?_map, ← hget]
        rfl
      rw [hcached, ih (i + 1), hdrop, List.take_succ_cons, List.map_cons]
      change Except.bind (s.readJob x.1) _ = _
      rw [readJob_of_get (h.stored x (List.mem_of_getElem? hget.symm))]
      rfl
    · rename_i hi
      rw [List.drop_eq_nil_of_le (by omega), List.take_nil, List.map_nil]

/-! ## The response -/

theorem startOf_startedAfter_none :
    startOf (fun x : String × PrinterJob F M => startedAfter none x.2) jobs = 0 := by
  cases jobs with
  | nil => rfl
  | cons x jobs => exact startOf_of_pos rfl jobs

theorem stopOf_endedBefore_none :
    stopOf (fun x : String × PrinterJob F M => endedBefore none x.2) jobs = jobs.length :=
  stopOf_of_forall fun _ _ => rfl

theorem Records.selected_eq (h : s.Records jobs) (since before : Option F) :
    selected since before jobs =
      (jobs.take (stopOf (fun x : String × PrinterJob F M => endedBefore before x.2) jobs)).drop
        (startOf (fun x : String × PrinterJob F M => startedAfter since x.2) jobs) :=
  filter_and_eq_window (h.fromOn since) (h.upTo before)

theorem Records.listBetween_eq (h : s.Records jobs)
    (fileExists : Option String → Option M → Bool) {startNum endNum : ℕ}
    (hend : endNum ≤ jobs.length) (reverseOrder : Bool) (limit start : ℕ) :
    s.listBetween fileExists reverseOrder limit start startNum endNum =
      .ok ⟨((jobs.take endNum).drop startNum).length,
        (((window jobs reverseOrder startNum endNum).drop start).take
          (if limit = 0 then maxJobs else limit)).map
            fun x => prepRequestedJob fileExists x.2 x.1⟩ := by
  have hlen : ((jobs.take endNum).drop startNum).length = endNum - startNum := by
    rw [List.length_drop, List.length_take_of_le hend]
  unfold listBetween
  split
  · have hempty : endNum - startNum = 0 := by omega
    have hwindow : window jobs reverseOrder startNum endNum = [] :=
      List.eq_nil_of_length_eq_zero ((length_window startNum hend reverseOrder).trans hempty)
    rw [hlen, hempty, hwindow, List.drop_nil, List.take_nil, List.map_nil]
  · dsimp only
    rw [h.readPage_eq fileExists reverseOrder hend, hlen]
    rfl

variable [One F] [Neg F]

/-- A parameter as the handler understands it: `-1` says that it is not given. -/
def heeded (t : Option F) : Option F := t.filter fun t => t ≠ -1

theorem getD_eq_heeded (t : Option F) :
    t.getD (-1) = -1 ∧ heeded t = none ∨ t.getD (-1) ≠ -1 ∧ heeded t = some (t.getD (-1)) := by
  cases t with
  | none => exact Or.inl ⟨rfl, rfl⟩
  | some t =>
    change t = -1 ∧ (if decide (t ≠ -1) = true then some t else none) = none ∨
      t ≠ -1 ∧ (if decide (t ≠ -1) = true then some t else none) = some t
    by_cases ht : t = -1
    · rw [if_neg (by rw [decide_eq_true_eq]; exact not_not_intro ht)]
      exact Or.inl ⟨ht, rfl⟩
    · rw [if_pos (decide_eq_true ht)]
      exact Or.inr ⟨ht, rfl⟩

theorem heeded_eq (t : Option F) : heeded t = none ∨ heeded t = t := by
  cases t with
  | none => exact Or.inl rfl
  | some t =>
    rcases getD_eq_heeded (some t) with ⟨-, h⟩ | ⟨-, h⟩
    · exact Or.inl h
    · exact Or.inr h

theorem Records.startNum_eq (h : s.Records jobs) (since : Option F) :
    s.startNum (since.getD (-1)) =
      .ok (startOf (fun x : String × PrinterJob F M => startedAfter (heeded since) x.2) jobs) := by
  unfold startNum
  rcases getD_eq_heeded since with ⟨hdefault, hheeded⟩ | ⟨hgiven, hheeded⟩
  · rw [if_neg (not_not_intro hdefault), hheeded, startOf_startedAfter_none]
  · rw [if_pos hgiven, hheeded, h.ids, scanSince_eq _ _ h.stored, Nat.zero_add]

theorem Records.endNum_eq (h : s.Records jobs) {before : Option F}
    (hended : ∀ t, heeded before = some t → ∀ x ∈ jobs, x.2.endTime ≠ none) :
    s.endNum (before.getD (-1)) =
      .ok (stopOf (fun x : String × PrinterJob F M => endedBefore (heeded before) x.2) jobs) := by
  unfold endNum
  rcases getD_eq_heeded before with ⟨hdefault, hheeded⟩ | ⟨hgiven, hheeded⟩
  · rw [if_neg (not_not_intro hdefault), hheeded, stopOf_endedBefore_none, h.ids, List.length_map]
  · rw [if_pos hgiven, h.scanBefore_eq _ (hended _ hheeded), hheeded]

theorem Records.handleJobsList_eq (h : s.Records jobs)
    (fileExists : Option String → Option M → Bool) {req : ListRequest F}
    (horder : req.order.getD "desc" ∈ ["asc", "desc"])
    (hended : ∀ t, heeded req.before = some t → ∀ x ∈ jobs, x.2.endTime ≠ none) :
    s.handleJobsList fileExists req = .ok
      ⟨(selected (heeded req.since) (heeded req.before) jobs).length,
        ((fromStart req (heeded req.since) (heeded req.before) jobs).take
          (if req.limit.getD 50 = 0 then maxJobs else req.limit.getD 50)).map
            fun x => prepRequestedJob fileExists x.2 x.1⟩ := by
  unfold handleJobsList
  dsimp only
  rw [if_neg (not_not_intro horder), h.startNum_eq, h.endNum_eq hended]
  change s.listBetween fileExists _ _ _ _ _ = _
  rw [h.listBetween_eq fileExists (stopOf_le _ _), ← h.selected_eq]
  unfold fromStart window
  rw [← h.selected_eq]
  dsimp only
  simp only [decide_eq_true_eq]

/-- A job without an end time makes the request fail, if `before` is given. -/
theorem Records.handleJobsList_error (h : s.Records jobs)
    (fileExists : Option String → Option M → Bool) {req : ListRequest F}
    (horder : req.order.getD "desc" ∈ ["asc", "desc"]) {t : F} (ht : heeded req.before = some t)
    {x : String × PrinterJob F M} (hx : x ∈ jobs) (hrunning : x.2.endTime = none) :
    s.handleJobsList fileExists req = .error .typeError := by
  have hend : s.endNum (req.before.getD (-1)) = .error .typeError := by
    unfold endNum
    rcases getD_eq_heeded req.before with ⟨-, hheeded⟩ | ⟨hgiven, -⟩
    · rw [hheeded] at ht
      cases ht
    · rw [if_pos hgiven, h.scanBefore_error _ hx hrunning]
  unfold handleJobsList
  dsimp only
  rw [if_neg (not_not_intro horder), h.startNum_eq, hend]
  rfl

/-- When the response is the one that is asked for: a job that runs is not compared with `before`,
a parameter of `-1` leaves out no job that is listed, and without a limit at most `MAX_JOBS` jobs
are left. -/
structure Answerable (req : ListRequest F) (jobs : List (String × PrinterJob F M)) : Prop where
  ended : ∀ t, heeded req.before = some t → ∀ x ∈ jobs, x.2.endTime ≠ none
  heeded : ∀ x ∈ jobs, (startedAfter (heeded req.since) x.2 &&
    endedBefore (heeded req.before) x.2) = true →
      (startedAfter req.since x.2 && endedBefore req.before x.2) = true
  paged : req.limit.getD 50 = 0 →
    (selected req.since req.before jobs).length - req.start.getD 0 ≤ maxJobs

/-- What is asked for is among what the handler selects. -/
theorem selected_eq_filter (req : ListRequest F) (jobs : List (String × PrinterJob F M)) :
    selected req.since req.before jobs =
      (selected (heeded req.since) (heeded req.before) jobs).filter
        fun x => startedAfter req.since x.2 && endedBefore req.before x.2 := by
  unfold selected
  rw [List.filter_filter]
  refine List.filter_congr fun x _ => ?_
  have hsince : startedAfter req.since x.2 = true → startedAfter (heeded req.since) x.2 = true := by
    rcases heeded_eq req.since with h | h
    · rw [h]
      exact fun _ => rfl
    · rw [h]
      exact id
  have hbefore : endedBefore req.before x.2 = true → endedBefore (heeded req.before) x.2 = true := by
    rcases heeded_eq req.before with h | h
    · rw [h]
      exact fun _ => rfl
    · rw [h]
      exact id
  rw [Bool.eq_iff_iff]
  simp only [Bool.and_eq_true]
  exact ⟨fun hx => ⟨hx, hsince hx.1, hbefore hx.2⟩, fun hx => hx.1⟩

/-- The response lists exactly what is asked for if and only if the request is answerable. -/
theorem handleJobsList_iff (h : s.Records jobs) (fileExists : Option String → Option M → Bool)
    {req : ListRequest F} (horder : req.order.getD "desc" ∈ ["asc", "desc"]) :
    s.handleJobsList fileExists req = .ok (requestedList fileExists req jobs) ↔
      Answerable req jobs := by
  have hfilter := selected_eq_filter req jobs
  constructor
  · intro hlist
    have hended : ∀ t, heeded req.before = some t → ∀ x ∈ jobs, x.2.endTime ≠ none := by
      intro t ht x hx hrunning
      rw [h.handleJobsList_error fileExists horder ht hx hrunning] at hlist
      cases hlist
    rw [h.handleJobsList_eq fileExists horder hended, Except.ok.injEq] at hlist
    have hcount := congrArg JobsList.count hlist
    have hpage := congrArg (fun r => r.jobs.length) hlist
    change (selected _ _ jobs).length = (selected req.since req.before jobs).length at hcount
    rw [hfilter] at hcount
    have hall := List.length_filter_eq_length_iff.mp hcount.symm
    have hselected : selected (heeded req.since) (heeded req.before) jobs =
        selected req.since req.before jobs := by
      rw [hfilter]
      exact (List.filter_eq_self.mpr hall).symm
    refine ⟨hended, fun x hx hheeded => hall x (List.mem_filter.mpr ⟨hx, hheeded⟩), ?_⟩
    intro hlimit
    dsimp only [requestedList] at hpage
    unfold fromStart at hpage
    rw [hselected, if_pos hlimit, if_pos hlimit, List.length_map, List.length_map,
      List.length_take, List.length_drop] at hpage
    split at hpage
    · rw [List.length_reverse] at hpage
      omega
    · omega
  · rintro ⟨hended, hheeded, hpaged⟩
    rw [h.handleJobsList_eq fileExists horder hended]
    have hselected : selected (heeded req.since) (heeded req.before) jobs =
        selected req.since req.before jobs := by
      rw [hfilter]
      refine (List.filter_eq_self.mpr fun x hx => ?_).symm
      exact hheeded x (List.mem_filter.mp hx).1 (List.mem_filter.mp hx).2
    unfold requestedList fromStart
    rw [hselected]
    dsimp only
    congr 3
    split
    · rename_i hlimit
      refine List.take_of_length_le ?_
      have hle := hpaged hlimit
      rw [List.length_drop]
      split
      · rw [List.length_reverse]
        exact hle
      · exact hle
    · rfl

end History

/-! ## A job that runs -/

/-- The first job has been started. -/
def firstStarted : History ℤ Unit :=
  (History.init : History ℤ Unit).addJob ⟨100, ()⟩ ⟨"a.gcode", 0, 0, 0⟩

/-- Its record. -/
def firstJob : PrinterJob ℤ Unit :=
  (PrinterJob.create 0 100 ⟨"a.gcode", 0, 0, 0⟩).grabMetadata ()

theorem records_firstStarted : firstStarted.Records [(jobId 0, firstJob)] where
  ids := rfl
  stored := List.forall_mem_singleton.mpr ((Table.get_set _ _ _ _).trans (if_pos rfl))
  started := List.pairwise_singleton _ _
  ended := List.pairwise_singleton _ _

/-- The last jobs since some time. -/
def sinceRequest : ListRequest ℤ := ⟨none, some 50, none, none, none⟩

/-- The last jobs before some time. -/
def beforeRequest : ListRequest ℤ := ⟨some 200, none, none, none, none⟩

/-- The running job is listed, where no job is asked for by its end. -/
theorem handleJobsList_iff_since :
    firstStarted.handleJobsList (fun _ _ => true) sinceRequest =
      .ok (History.requestedList (fun _ _ => true) sinceRequest [(jobId 0, firstJob)]) ↔
        History.Answerable sinceRequest [(jobId 0, firstJob)] :=
  History.handleJobsList_iff records_firstStarted _ (List.mem_cons_of_mem _ List.mem_cons_self)

/-- While it runs, every request with `before` fails. -/
theorem handleJobsList_running :
    firstStarted.Records [(jobId 0, firstJob)] ∧ firstJob.endTime = none ∧
      firstStarted.handleJobsList (fun _ _ => true) beforeRequest = .error .typeError :=
  ⟨records_firstStarted, rfl, records_firstStarted.handleJobsList_error _
    (List.mem_cons_of_mem _ List.mem_cons_self) rfl List.mem_cons_self rfl⟩

end FlsunT1.Moonraker
