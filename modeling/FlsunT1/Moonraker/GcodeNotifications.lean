/-
  Moonraker/GcodeNotifications.lean --- the queue of notifications about gcode files
  (moonraker/components/file_manager/file_manager.py).

  The coroutines are numbered as they are queued.  What they find in the file system is an input of
  the step in which they run; the notifications themselves are left out.
-/
import FlsunT1.Library.Run
import FlsunT1.Moonraker.MetadataStorage

set_option autoImplicit false

namespace FlsunT1.Moonraker

open Library

/-! ## The coroutines -/

/-- A file under the gcodes root; the extension is in lower case. -/
structure GcodeFile where
  relPath : String
  ext : Text
  deriving DecidableEq

/-- `move_result` of a file: the metadata was moved, or thumbnails are still to be moved. -/
inductive MoveResult
  | done (moved : Bool)
  | thumbnails
  deriving DecidableEq

/-- The coroutines that are queued. -/
inductive GcodeCoroutine
  /-- `_notify_file_write` -/
  | fileWrite (file : GcodeFile)
  /-- `_finish_gcode_create_from_move` -/
  | createFromMove (file : GcodeFile)
  /-- `_finish_gcode_move` -/
  | gcodeMove (moveResult : MoveResult)
  /-- `_notify_move_dir`; a directory of another root has to be scanned again. -/
  | moveDir (moveRes : Bool)
  deriving DecidableEq

/-- What a scan finds: a directory has no listing where `os.stat` or `os.listdir` raises. -/
inductive DirItem
  | file (eventSet : Bool)
  | directory (reserved watched : Bool) (listing : Option (List DirItem))
  | other

mutual

/-- `scan_node`: the events of the files, set or not. -/
def scanNode : Option (List DirItem) → Option (List Bool)
  | none => none
  | some items => scanItems items

/-- The loop of `scan_node`. -/
def scanItems : List DirItem → Option (List Bool)
  | [] => some []
  | item :: items =>
    match scanItem item with
    | none => none
    | some events => (scanItems items).map (events ++ ·)

def scanItem : DirItem → Option (List Bool)
  | .file eventSet => some [eventSet]
  | .directory reserved watched listing =>
    if reserved then some [] else if watched then scanNode listing else some []
  | .other => some []

end

/-- What a coroutine finds as it starts: whether its event is set, and the moved directory. -/
structure FsView where
  eventSet : Bool
  listing : Option (List DirItem)

/-- What becomes of a coroutine until its first wait. -/
inductive Started
  | done
  | waits
  | raises
  deriving DecidableEq

namespace GcodeCoroutine

def start (view : FsView) : GcodeCoroutine → Started
  | .fileWrite _ => if view.eventSet then .done else .waits
  | .createFromMove _ => if view.eventSet then .done else .waits
  | .gcodeMove (.done true) => .done
  | .gcodeMove _ => if view.eventSet then .done else .waits
  | .moveDir true => .done
  | .moveDir false =>
    match scanNode view.listing with
    | none => .raises
    | some events => if events = [] then .done else .waits

/-- The file that the end of a coroutine gives to `clear_processing_file`. -/
def clears : GcodeCoroutine → Option String
  | .fileWrite file => some file.relPath
  | .createFromMove file => some file.relPath
  | .gcodeMove _ => none
  | .moveDir _ => none

end GcodeCoroutine

/-! ## The queue -/

/-- The task in `_gc_notify_task`. -/
inductive GcodeWorker
  | created
  | awaits (coro : GcodeCoroutine)
  /-- A coroutine has raised out of `_process_gcode_notifications`. -/
  | raised
  deriving DecidableEq

/-- `InotifyObserver`, as far as gcode files go, with the numbers of the coroutines that were
awaited. -/
structure GcodeNotifier where
  pendingCoroutines : List (ℕ × GcodeCoroutine)
  gcNotifyTask : Option GcodeWorker
  processingGcodeFiles : List String
  queued : ℕ
  awaited : List ℕ

inductive NotifierEvent
  /-- `complete_file_write`, where no node above is pending or processing -/
  | fileWrite (file : GcodeFile) (isFileProcessing : Bool)
  /-- A file was moved in from outside. -/
  | createFromMove (file : GcodeFile) (isFileProcessing : Bool)
  /-- A watched file was moved. -/
  | gcodeMove (moveResult : MoveResult)
  /-- `move_child_node`, with what `try_move_metadata` returned -/
  | moveDir (moveRes : Bool)
  /-- The task goes on, with what each coroutine that it starts finds. -/
  | run (views : List FsView)

namespace GcodeNotifier

/-- `__init__` -/
def init : GcodeNotifier where
  pendingCoroutines := []
  gcNotifyTask := none
  processingGcodeFiles := []
  queued := 0
  awaited := []

/-- `need_create_notify`; `none` where nothing is to be notified. -/
def needCreateNotify (file : GcodeFile) (isFileProcessing : Bool) (s : GcodeNotifier) :
    Option GcodeNotifier :=
  if file.ext = ".ufp".toList then none
  else if file.ext ∉ validGcodeExts then some s
  else if isFileProcessing ∧ file.relPath ∈ s.processingGcodeFiles then none
  else some { s with processingGcodeFiles := s.processingGcodeFiles.insert file.relPath }

/-- `clear_processing_file`, at the end of a coroutine. -/
def finish (coro : GcodeCoroutine) (s : GcodeNotifier) : GcodeNotifier :=
  match coro.clears with
  | none => s
  | some relPath =>
    { s with processingGcodeFiles := s.processingGcodeFiles.filter fun f => f ≠ relPath }

/-- `queue_gcode_notification` -/
def queueGcodeNotification (coro : GcodeCoroutine) (s : GcodeNotifier) : GcodeNotifier :=
  { s with
    pendingCoroutines := s.pendingCoroutines ++ [(s.queued, coro)]
    queued := s.queued + 1
    gcNotifyTask := if s.gcNotifyTask = none then some .created else s.gcNotifyTask }

/-- The loop of `_process_gcode_notifications` until it waits or ends; `none` where it starts
another number of coroutines. -/
def process : List FsView → GcodeNotifier → Option GcodeNotifier
  | views, s =>
    match s.pendingCoroutines with
    | [] => if views.isEmpty then some { s with gcNotifyTask := none } else none
    | (i, coro) :: rest =>
      match views with
      | [] => none
      | view :: views =>
        let s := { s with pendingCoroutines := rest, awaited := s.awaited ++ [i] }
        match coro.start view with
        | .done => process views (s.finish coro)
        | .waits => if views.isEmpty then some { s with gcNotifyTask := some (.awaits coro) } else none
        | .raises => if views.isEmpty then some { s with gcNotifyTask := some .raised } else none

def step (s : GcodeNotifier) : NotifierEvent → Option GcodeNotifier
  | .fileWrite file isFileProcessing =>
    match s.needCreateNotify file isFileProcessing with
    | none => some s
    | some s => some (s.queueGcodeNotification (.fileWrite file))
  | .createFromMove file isFileProcessing =>
    match s.needCreateNotify file isFileProcessing with
    | none => some s
    | some s => some (s.queueGcodeNotification (.createFromMove file))
  | .gcodeMove moveResult => some (s.queueGcodeNotification (.gcodeMove moveResult))
  | .moveDir moveRes => some (s.queueGcodeNotification (.moveDir moveRes))
  | .run views =>
    match s.gcNotifyTask with
    | some .created => s.process views
    | some (.awaits coro) => (s.finish coro).process views
    | some .raised => none
    | none => none

/-! ## What the queue promises -/

/-- A task is there for what is pending, each coroutine is awaited once in the order of the queue,
and after it has drained no file is left to suppress an event. -/
structure Served (s : GcodeNotifier) : Prop where
  alive : s.pendingCoroutines ≠ [] → s.gcNotifyTask ≠ none ∧ s.gcNotifyTask ≠ some .raised
  inOrder : s.awaited ++ s.pendingCoroutines.map Prod.fst = List.range s.queued
  drained : s.pendingCoroutines = [] → s.gcNotifyTask = none ∨ s.gcNotifyTask = some .raised →
    s.processingGcodeFiles = []

/-- Only the last coroutine may be one that has to scan a directory that is gone. -/
def LastRaises : List (ℕ × GcodeCoroutine) → List FsView → Prop
  | x :: rest, view :: views =>
    (x.2.start view = .raises → rest = []) ∧ LastRaises rest views
  | _, _ => True

theorem lastRaises_cons {x : ℕ × GcodeCoroutine} {rest : List (ℕ × GcodeCoroutine)} {view : FsView}
    {views : List FsView} : LastRaises (x :: rest) (view :: views) ↔
      (x.2.start view = .raises → rest = []) ∧ LastRaises rest views := Iff.rfl

theorem lastRaises_nil (l : List (ℕ × GcodeCoroutine)) : LastRaises l [] := by
  cases l <;> trivial

/-- Before the step: a directory whose scan fails is met by the last coroutine, and after that
nothing has to be notified any more. -/
def Undisturbed (s : GcodeNotifier) : NotifierEvent → Prop
  | .fileWrite file isFileProcessing =>
    s.gcNotifyTask = some .raised → s.needCreateNotify file isFileProcessing = none
  | .createFromMove file isFileProcessing =>
    s.gcNotifyTask = some .raised → s.needCreateNotify file isFileProcessing = none
  | .gcodeMove _ => s.gcNotifyTask ≠ some .raised
  | .moveDir _ => s.gcNotifyTask ≠ some .raised
  | .run views => LastRaises s.pendingCoroutines views

/-- The claim that the notifications never get stuck is false: a directory is moved in from
another root and is gone as it is scanned, and no file is notified any more. -/
theorem not_served :
    ¬ ∀ events t, Run (fun s e t => step s e = some t) init events t → Served t := by
  intro h
  let file : GcodeFile := ⟨"cube.gcode", ".gcode".toList⟩
  obtain ⟨t, hrun, hstuck⟩ := Run.exists_of_any (f := step) (s := init)
    (P := fun t => !t.pendingCoroutines.isEmpty && decide (t.gcNotifyTask = some .raised))
    (l := [.moveDir false, .run [⟨true, none⟩], .fileWrite file false]) (by decide)
  rw [Bool.and_eq_true, decide_eq_true_eq] at hstuck
  have hpending : t.pendingCoroutines ≠ [] := by
    intro hnil
    simp [hnil] at hstuck
  exact ((h _ t hrun).alive hpending).2 hstuck.2

/-! ## Runs -/

/-- The coroutine that a task waits in. -/
def waiting : Option GcodeWorker → List GcodeCoroutine
  | some (.awaits coro) => [coro]
  | _ => []

/-- The coroutines that are still to end. -/
def unfinished (s : GcodeNotifier) : List GcodeCoroutine :=
  waiting s.gcNotifyTask ++ s.pendingCoroutines.map Prod.snd

/-- What holds in every state. -/
structure Inv (s : GcodeNotifier) : Prop where
  idle : s.gcNotifyTask = none → s.pendingCoroutines = []
  inOrder : s.awaited ++ s.pendingCoroutines.map Prod.fst = List.range s.queued
  cleared : ∀ f ∈ s.processingGcodeFiles, ∃ coro ∈ s.unfinished, coro.clears = some f

theorem inv_init : Inv init := ⟨fun _ => rfl, rfl, by simp [init]⟩

theorem Inv.served_iff {s : GcodeNotifier} (h : Inv s) :
    Served s ↔ (s.gcNotifyTask = some .raised → s.pendingCoroutines = []) := by
  constructor
  · intro hs hraised
    by_contra hpending
    exact (hs.alive hpending).2 hraised
  · intro hs
    refine ⟨fun hpending => ⟨mt h.idle hpending, mt hs hpending⟩, h.inOrder, ?_⟩
    intro hpending htask
    have hnone : s.unfinished = [] := by
      unfold unfinished
      rw [hpending]
      rcases htask with htask | htask <;> rw [htask] <;> rfl
    rw [List.eq_nil_iff_forall_not_mem]
    intro f hf
    obtain ⟨coro, hcoro, -⟩ := h.cleared f hf
    rw [hnone] at hcoro
    cases hcoro

theorem Inv.queue {s : GcodeNotifier} (h : Inv s) {files : List String} {coro : GcodeCoroutine}
    (hfiles : ∀ f ∈ files, f ∈ s.processingGcodeFiles ∨ coro.clears = some f) :
    Inv (({ s with processingGcodeFiles := files } : GcodeNotifier).queueGcodeNotification
      coro) := by
  refine ⟨?_, ?_, ?_⟩
  · intro htask
    unfold queueGcodeNotification at htask
    dsimp only at htask
    split at htask
    · cases htask
    · contradiction
  · unfold queueGcodeNotification
    dsimp only
    rw [List.map_append, ← List.append_assoc, h.inOrder, List.range_succ]
    rfl
  · intro f hf
    have hunfinished : (({ s with processingGcodeFiles := files } :
        GcodeNotifier).queueGcodeNotification coro).unfinished = s.unfinished ++ [coro] := by
      unfold unfinished queueGcodeNotification
      dsimp only
      rw [List.map_append, List.append_assoc]
      split
      · rename_i htask
        rw [htask]
        rfl
      · rfl
    rw [hunfinished]
    rcases hfiles f hf with hold | hclears
    · obtain ⟨other, hother, hclears⟩ := h.cleared f hold
      exact ⟨other, List.mem_append_left _ hother, hclears⟩
    · exact ⟨coro, List.mem_append_right _ List.mem_cons_self, hclears⟩

theorem needCreateNotify_cases {file : GcodeFile} {isFileProcessing : Bool} {s t : GcodeNotifier}
    (h : s.needCreateNotify file isFileProcessing = some t) :
    ∃ files, t = { s with processingGcodeFiles := files } ∧
      ∀ f ∈ files, f ∈ s.processingGcodeFiles ∨ some file.relPath = some f := by
  unfold needCreateNotify at h
  split at h
  · cases h
  · split at h
    · obtain rfl := Option.some.inj h
      exact ⟨s.processingGcodeFiles, rfl, fun f hf => Or.inl hf⟩
    · split at h
      · cases h
      · obtain rfl := Option.some.inj h
        refine ⟨_, rfl, fun f hf => ?_⟩
        rcases List.mem_insert_iff.mp hf with rfl | hf
        · exact Or.inr rfl
        · exact Or.inl hf

theorem mem_finish {f : String} {coro : GcodeCoroutine} {s : GcodeNotifier} :
    f ∈ (s.finish coro).processingGcodeFiles ↔
      f ∈ s.processingGcodeFiles ∧ coro.clears ≠ some f := by
  unfold finish
  split
  · rename_i hclears
    simp [hclears]
  · rename_i relPath hclears
    rw [hclears, List.mem_filter, decide_eq_true_eq, ne_eq, ne_eq, Option.some_inj, eq_comm]

theorem finish_eq (coro : GcodeCoroutine) (s : GcodeNotifier) :
    s.finish coro = { s with processingGcodeFiles := (s.finish coro).processingGcodeFiles } := by
  unfold finish
  split <;> rfl

theorem clears_of_raises {view : FsView} {coro : GcodeCoroutine}
    (h : coro.start view = .raises) : coro.clears = none := by
  cases coro with
  | fileWrite file =>
    simp only [GcodeCoroutine.start] at h
    split at h <;> contradiction
  | createFromMove file =>
    simp only [GcodeCoroutine.start] at h
    split at h <;> contradiction
  | gcodeMove moveResult => rfl
  | moveDir moveRes => rfl

/-- The loop keeps what holds between two coroutines; it leaves coroutines behind that are never
awaited unless the last one was the one that raised. -/
theorem process_inv {views : List FsView} :
    ∀ {s t : GcodeNotifier}, s.process views = some t →
      s.awaited ++ s.pendingCoroutines.map Prod.fst = List.range s.queued →
      (∀ f ∈ s.processingGcodeFiles,
        ∃ coro ∈ s.pendingCoroutines.map Prod.snd, coro.clears = some f) →
      Inv t ∧ ((t.gcNotifyTask = some .raised → t.pendingCoroutines = []) ↔
        LastRaises s.pendingCoroutines views) := by
  induction views with
  | nil =>
    intro s t hprocess hinOrder hcleared
    unfold process at hprocess
    split at hprocess
    · rename_i hpending
      obtain rfl := Option.some.inj hprocess
      refine ⟨⟨fun _ => hpending, hinOrder, ?_⟩, ?_⟩
      · intro f hf
        obtain ⟨coro, hcoro, -⟩ := hcleared f hf
        rw [hpending] at hcoro
        cases hcoro
      · rw [hpending]
        exact iff_of_true (fun _ => rfl) trivial
    · cases hprocess
  | cons view views ih =>
    intro s t hprocess hinOrder hcleared
    unfold process at hprocess
    split at hprocess
    · cases hprocess
    · rename_i i coro rest hpending
      dsimp only at hprocess
      rw [hpending, List.map_cons] at hinOrder hcleared
      have hnext : (s.awaited ++ [i]) ++ rest.map Prod.fst = List.range s.queued := by
        rw [List.append_assoc]
        exact hinOrder
      rw [hpending]
      split at hprocess
      · -- the coroutine has ended
        rename_i hstart
        rw [finish_eq] at hprocess
        obtain ⟨hinv, hiff⟩ := ih hprocess hnext (fun f hf => by
          obtain ⟨hmem, hne⟩ := mem_finish.mp hf
          obtain ⟨other, hother, hclears⟩ := hcleared f hmem
          rcases List.mem_cons.mp hother with rfl | hother
          · exact absurd hclears hne
          · exact ⟨other, hother, hclears⟩)
        refine ⟨hinv, ?_⟩
        rw [lastRaises_cons, hstart, hiff]
        exact (and_iff_right (fun hraises => by cases hraises)).symm
      · -- the task waits in it
        rename_i hstart
        split at hprocess
        · rename_i hviews
          obtain rfl := Option.some.inj hprocess
          refine ⟨⟨(fun htask => by cases htask), hnext, hcleared⟩, ?_⟩
          apply iff_of_true
          · intro htask
            cases htask
          · rw [List.isEmpty_iff.mp hviews, lastRaises_cons, hstart]
            exact ⟨(fun hraises => by cases hraises), lastRaises_nil rest⟩
        · cases hprocess
      · -- it raises: it is of no file, so that the others still clear what is left
        rename_i hstart
        split at hprocess
        · rename_i hviews
          obtain rfl := Option.some.inj hprocess
          have hclears := clears_of_raises hstart
          refine ⟨⟨(fun htask => by cases htask), hnext, fun f hf => ?_⟩, ?_⟩
          · obtain ⟨other, hother, hfile⟩ := hcleared f hf
            rcases List.mem_cons.mp hother with rfl | hother
            · rw [hclears] at hfile
              cases hfile
            · exact ⟨other, hother, hfile⟩
          · rw [List.isEmpty_iff.mp hviews, lastRaises_cons]
            exact ⟨fun hempty => ⟨fun _ => hempty rfl, lastRaises_nil rest⟩,
              fun hlast _ => hlast.1 hstart⟩
        · cases hprocess

theorem Inv.queue_iff {s : GcodeNotifier} (h : Inv s) {files : List String} {coro : GcodeCoroutine}
    (hfiles : ∀ f ∈ files, f ∈ s.processingGcodeFiles ∨ coro.clears = some f) :
    Inv (({ s with processingGcodeFiles := files } : GcodeNotifier).queueGcodeNotification coro) ∧
      (Served (({ s with processingGcodeFiles := files } :
        GcodeNotifier).queueGcodeNotification coro) ↔ s.gcNotifyTask ≠ some .raised) := by
  have hinv := h.queue hfiles
  refine ⟨hinv, hinv.served_iff.trans ?_⟩
  unfold queueGcodeNotification
  dsimp only
  constructor
  · intro hpending hraised
    rw [hraised, if_neg (by decide)] at hpending
    simpa using hpending rfl
  · intro hne hraised
    split at hraised
    · cases hraised
    · exact absurd hraised hne

/-- A file is notified, or its event is suppressed. -/
theorem Inv.notify_iff {s t : GcodeNotifier} (h : Inv s) (hserved : Served s) {file : GcodeFile}
    {isFileProcessing : Bool} {coro : GcodeCoroutine} (hcoro : coro.clears = some file.relPath)
    (hstep : (match s.needCreateNotify file isFileProcessing with
      | none => some s
      | some s => some (s.queueGcodeNotification coro)) = some t) :
    Inv t ∧ (Served t ↔
      (s.gcNotifyTask = some .raised → s.needCreateNotify file isFileProcessing = none)) := by
  cases hneed : s.needCreateNotify file isFileProcessing with
  | none =>
    rw [hneed] at hstep
    obtain rfl := Option.some.inj hstep
    exact ⟨h, iff_of_true hserved fun _ => rfl⟩
  | some u =>
    rw [hneed] at hstep
    obtain rfl := Option.some.inj hstep
    obtain ⟨files, rfl, hfiles⟩ := needCreateNotify_cases hneed
    obtain ⟨hinv, hiff⟩ := h.queue_iff
      (show ∀ f ∈ files, f ∈ s.processingGcodeFiles ∨ coro.clears = some f from
        fun f hf => hcoro.symm ▸ hfiles f hf)
    refine ⟨hinv, hiff.trans ?_⟩
    constructor
    · exact fun hne hraised => absurd hraised hne
    · intro hnone hraised
      cases hnone hraised

theorem Inv.step {s t : GcodeNotifier} {e : NotifierEvent} (h : Inv s) (hserved : Served s)
    (hstep : s.step e = some t) : Inv t ∧ (Served t ↔ s.Undisturbed e) := by
  cases e with
  | fileWrite file isFileProcessing => exact h.notify_iff hserved rfl hstep
  | createFromMove file isFileProcessing => exact h.notify_iff hserved rfl hstep
  | gcodeMove moveResult =>
    obtain rfl := Option.some.inj hstep
    exact h.queue_iff fun f hf => Or.inl hf
  | moveDir moveRes =>
    obtain rfl := Option.some.inj hstep
    exact h.queue_iff fun f hf => Or.inl hf
  | run views =>
    have hprocess {u : GcodeNotifier} (hrun : u.process views = some t)
        (hsame : u.pendingCoroutines = s.pendingCoroutines ∧ u.awaited = s.awaited ∧
          u.queued = s.queued)
        (hcleared : ∀ f ∈ u.processingGcodeFiles,
          ∃ coro ∈ s.pendingCoroutines.map Prod.snd, coro.clears = some f) :
        Inv t ∧ (Served t ↔ LastRaises s.pendingCoroutines views) := by
      obtain ⟨hpending, hawaited, hqueued⟩ := hsame
      rw [← hpending] at hcleared ⊢
      obtain ⟨hinv, hiff⟩ := process_inv hrun (by
        rw [hpending, hawaited, hqueued]
        exact h.inOrder) hcleared
      exact ⟨hinv, hinv.served_iff.trans hiff⟩
    unfold GcodeNotifier.step at hstep
    dsimp only at hstep
    split at hstep
    · rename_i htask
      refine hprocess hstep ⟨rfl, rfl, rfl⟩ fun f hf => ?_
      have hclears := h.cleared f hf
      unfold unfinished at hclears
      rw [htask] at hclears
      exact hclears
    · rename_i coro htask
      rw [finish_eq] at hstep
      refine hprocess hstep ⟨rfl, rfl, rfl⟩ fun f hf => ?_
      obtain ⟨hmem, hne⟩ := mem_finish.mp hf
      obtain ⟨other, hother, hclears⟩ := h.cleared f hmem
      unfold unfinished at hother
      rw [htask] at hother
      rcases List.mem_cons.mp hother with rfl | hother
      · exact absurd hclears hne
      · exact ⟨other, hother, hclears⟩
    · cases hstep
    · cases hstep

/-- In every state of a run the notifications are served, if and only if nothing is queued behind a
coroutine that scans a directory that is gone. -/
theorem served_run_iff {events : List NotifierEvent} {t : GcodeNotifier} :
    Run (fun s e t => step s e = some t ∧ Served t) init events t ↔
      Run (fun s e t => step s e = some t ∧ s.Undisturbed e) init events t := by
  have hinit : Inv init ∧ Served init := ⟨inv_init, inv_init.served_iff.mpr fun _ => rfl⟩
  apply Run.restrict_iff (P := fun s => Inv s ∧ Served s) hinit
  · intro s e t hs hstep
    exact (hs.1.step hs.2 hstep).2
  · intro s e t hs hstep hserved
    exact ⟨(hs.1.step hs.2 hstep).1, hserved⟩

end GcodeNotifier

end FlsunT1.Moonraker
