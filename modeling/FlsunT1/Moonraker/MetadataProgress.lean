/-
  Moonraker/MetadataProgress.lean --- the loop that scans gcode files, and its events.

  Each request waits for an event.  The loop takes the first request, which may have become valid
  since it was made: then the loop goes round on it and never gives the event loop back.
-/
import FlsunT1.Moonraker.MetadataMirror

set_option autoImplicit false

namespace FlsunT1.Moonraker

open Library PosixPath

variable {F : Type}

/-! ## Requests and events -/

/-- The storage with the events of `parse_metadata`, which are numbered: `mevt` is the event of the
request that is pending for a file.  Once the loop spins nothing else happens. -/
structure ScanQueue (F : Type) where
  storage : MetadataStorage F
  mevt : String → ℕ
  events : ℕ
  done : List ℕ
  spins : Bool

namespace ScanQueue

variable (env : StorageEnv F)

/-- `parse_metadata`; the event that it returns is the one of the pending request, or a new one,
which is set at once where there is nothing to scan. -/
def parseMetadata (fname : String) (info : PathInfo F) (s : ScanQueue F) : ScanQueue F :=
  let t := { s with storage := s.storage.parseMetadata env fname info }
  if fname ∈ s.storage.pendingRequests.keys then t
  else if (splitext fname.toList).2 ∉ validGcodeExts then
    { t with events := s.events + 1, done := s.events :: s.done }
  else
    match s.storage.hasValidData env fname info with
    | none => t
    | some true => { t with events := s.events + 1, done := s.events :: s.done }
    | some false =>
      { t with mevt := Function.update s.mevt fname s.events, events := s.events + 1 }

/-- The event of the first request. -/
def headEvent (s : ScanQueue F) : Option ℕ :=
  s.storage.pendingRequests.items.head?.map fun request => s.mevt request.1

/-- The head of the loop: a first request that is valid by now has its event set, and `continue`
leaves it there. -/
def loopHead (s : ScanQueue F) : ScanQueue F :=
  match s.storage.nextRequest env with
  | some storage => { s with storage := storage }
  | none => { s with done := s.headEvent.toList ++ s.done, spins := true }

/-- The storage at the end of an iteration, with what the script printed. -/
def recorded (fname : String) (info : PathInfo F) (result : Option (String × Metadata F))
    (s : MetadataStorage F) : MetadataStorage F :=
  let s := match MetadataStorage.extractedRecord fname info result with
    | none => s
    | some (key, metadata) => s.insert env key metadata
  { s with pendingRequests := s.pendingRequests.erase fname }

/-- The end of an iteration: the request is removed and its event is set. -/
def endIteration (fname : String) (info : PathInfo F) (result : Option (String × Metadata F))
    (s : ScanQueue F) : ScanQueue F :=
  { s with
    storage := recorded env fname info result s.storage
    done := s.mevt fname :: s.done }

/-- One event. -/
def step (s : ScanQueue F) (e : MetadataStorage.Event F) : Option (ScanQueue F) :=
  if s.spins then none
  else
    match e with
    | .parseMetadata fname info => some (s.parseMetadata env fname info)
    | .processUpdate =>
      match s.storage.update with
      | .registered => some (s.loopHead env)
      | .idle | .extracting _ _ | .raised => none
    | .extracted result =>
      match s.storage.update with
      | .extracting fname info => some ((s.endIteration env fname info result).loopHead env)
      | .idle | .registered | .raised => none
    | e => (s.storage.step env e).map fun storage => { s with storage := storage }

/-! ## What the loop owes -/

/-- The queue where the loop looks at it next, if the event makes it. -/
def atHead (s : ScanQueue F) : MetadataStorage.Event F → Option (ScanQueue F)
  | .processUpdate => some s
  | .extracted result =>
    match s.storage.update with
    | .extracting fname info => some (s.endIteration env fname info result)
    | .idle | .registered | .raised => none
  | _ => none

/-- The loop ends, or an iteration begins that extracts the first request. -/
def Proceeds (s t : ScanQueue F) : Prop :=
  t.spins = false ∧
    match s.storage.pendingRequests.items with
    | [] => t.storage.update = .idle
    | (fname, info) :: _ => t.storage.update = .extracting fname info

/-- The end of an iteration removes one request and sets its event. -/
def Removes (s t : ScanQueue F) : MetadataStorage.Event F → Prop
  | .extracted _ => ∃ fname info rest, s.storage.pendingRequests.items = (fname, info) :: rest ∧
      t.storage.pendingRequests.items = rest ∧ s.mevt fname ∈ t.done
  | _ => True

/-- What a step owes: an iteration that ends removes its request, and one that begins will. -/
def Progresses (s : ScanQueue F) (e : MetadataStorage.Event F) (t : ScanQueue F) : Prop :=
  Removes s t e ∧ ∀ u, s.atHead env e = some u → u.Proceeds t

/-- The condition: the first request is not valid where the loop looks at it. -/
def Outdated (s : ScanQueue F) (e : MetadataStorage.Event F) : Prop :=
  ∀ u fname info rest, s.atHead env e = some u →
    u.storage.pendingRequests.items = (fname, info) :: rest →
      u.storage.hasValidData env fname info = some false

/-- The file that the loop waits for is the first, and an event that is not set is the one of a
request. -/
structure Ordered (s : ScanQueue F) : Prop where
  running : s.spins = false
  loop : match s.storage.update with
    | .idle => s.storage.pendingRequests.items = []
    | .registered => s.storage.pendingRequests.items ≠ []
    | .extracting fname info => (fname, info) ∈ s.storage.pendingRequests.items.head?
    | .raised => False
  waiting : ∀ i < s.events, i ∉ s.done → ∃ fname ∈ s.storage.pendingRequests.keys, s.mevt fname = i

variable {env} {s t u : ScanQueue F} {e : MetadataStorage.Event F}

/-! ## The loop -/

theorem loopHead_pending (s : ScanQueue F) :
    (s.loopHead env).storage.pendingRequests = s.storage.pendingRequests ∧
      (s.loopHead env).mevt = s.mevt ∧ (s.loopHead env).events = s.events ∧
      s.done ⊆ (s.loopHead env).done := by
  unfold loopHead
  cases hnext : s.storage.nextRequest env with
  | none => exact ⟨rfl, rfl, rfl, List.subset_append_right _ _⟩
  | some storage =>
    refine ⟨?_, rfl, rfl, List.Subset.refl _⟩
    rw [MetadataStorage.nextRequest] at hnext
    split at hnext
    · exact (Option.some.inj hnext) ▸ rfl
    · split at hnext
      · exact (Option.some.inj hnext) ▸ rfl
      · cases hnext
      · exact (Option.some.inj hnext) ▸ rfl

/-- The loop proceeds if and only if the first request, if there is one, is not valid. -/
theorem proceeds_iff (hrunning : s.spins = false) : s.Proceeds (s.loopHead env) ↔
    ∀ fname info rest, s.storage.pendingRequests.items = (fname, info) :: rest →
      s.storage.hasValidData env fname info = some false := by
  unfold Proceeds loopHead MetadataStorage.nextRequest
  cases hitems : s.storage.pendingRequests.items with
  | nil => exact iff_of_true ⟨hrunning, rfl⟩ fun fname info rest h => by cases h
  | cons request rest =>
    obtain ⟨fname, info⟩ := request
    have hfirst : (∀ fname' info' rest', (fname, info) :: rest = (fname', info') :: rest' →
        s.storage.hasValidData env fname' info' = some false) ↔
          s.storage.hasValidData env fname info = some false := by
      constructor
      · exact fun h => h fname info rest rfl
      · rintro h fname' info' rest' heq
        cases heq
        exact h
    rw [hfirst]
    dsimp only
    cases hvalid : s.storage.hasValidData env fname info with
    | none =>
      refine iff_of_false (fun h => ?_) (by simp)
      cases h.2
    | some valid =>
      cases valid with
      | true =>
        refine iff_of_false (fun h => ?_) (by simp)
        cases h.1
      | false => exact iff_of_true ⟨hrunning, rfl⟩ rfl

theorem step_atHead (hstep : s.step env e = some t) (hu : s.atHead env e = some u) :
    t = u.loopHead env ∧ u.spins = false := by
  unfold step at hstep
  split at hstep
  · cases hstep
  · rename_i hrunning
    cases e with
    | processUpdate =>
      cases hu
      cases hupdate : s.storage.update <;> rw [hupdate] at hstep <;> cases hstep
      exact ⟨rfl, Bool.eq_false_of_not_eq_true hrunning⟩
    | extracted result =>
      cases hupdate : s.storage.update <;> simp only [atHead, hupdate] at hu hstep
      case extracting fname info =>
        cases hu
        cases hstep
        exact ⟨rfl, Bool.eq_false_of_not_eq_true hrunning⟩
      all_goals cases hu
    | _ => cases hu

theorem proceeds_of_step_iff (hstep : s.step env e = some t) :
    (∀ u, s.atHead env e = some u → u.Proceeds t) ↔ s.Outdated env e := by
  constructor
  · intro h u fname info rest hu hitems
    obtain ⟨rfl, hrunning⟩ := step_atHead hstep hu
    exact (proceeds_iff hrunning).mp (h u hu) fname info rest hitems
  · intro h u hu
    obtain ⟨rfl, hrunning⟩ := step_atHead hstep hu
    exact (proceeds_iff hrunning).mpr fun fname info rest hitems => h u fname info rest hu hitems

theorem items_erase_head {d : Dict String (PathInfo F)} {fname : String} {info : PathInfo F}
    {rest : List (String × PathInfo F)} (hitems : d.items = (fname, info) :: rest) :
    (d.erase fname).items = rest := by
  have hnodup := d.nodup
  rw [hitems, List.map_cons, List.nodup_cons] at hnodup
  change d.items.filter (·.1 ≠ fname) = rest
  rw [hitems, List.filter_cons_of_neg (by simp), List.filter_eq_self]
  intro request hrequest
  have hne : request.1 ≠ fname := fun heq =>
    hnodup.1 (List.mem_map.mpr ⟨request, hrequest, heq⟩)
  exact decide_eq_true hne

theorem recorded_pending (fname : String) (info : PathInfo F)
    (result : Option (String × Metadata F)) (storage : MetadataStorage F) :
    (recorded env fname info result storage).pendingRequests =
      storage.pendingRequests.erase fname := by
  unfold recorded
  cases MetadataStorage.extractedRecord fname info result <;> rfl

theorem Ordered.removes (hs : s.Ordered) (hstep : s.step env e = some t) : s.Removes t e := by
  cases e with
  | extracted result =>
    have hloop := hs.loop
    cases hupdate : s.storage.update with
    | extracting fname info =>
      rw [hupdate] at hloop
      obtain ⟨rest, hitems⟩ := List.head?_eq_some_iff.mp hloop
      have hu : s.atHead env (.extracted result) =
          some (s.endIteration env fname info result) := by
        rw [atHead, hupdate]
      obtain ⟨rfl, -⟩ := step_atHead hstep hu
      obtain ⟨hpending, -, -, hdone⟩ := (s.endIteration env fname info result).loopHead_pending
      refine ⟨fname, info, rest, hitems, ?_, hdone List.mem_cons_self⟩
      rw [hpending]
      change (recorded env fname info result s.storage).pendingRequests.items = rest
      rw [recorded_pending]
      exact items_erase_head hitems
    | _ =>
      rw [step, hs.running, if_neg Bool.false_ne_true, hupdate] at hstep
      cases hstep
  | _ => trivial

/-! ## Steps -/

theorem prune_frame (isfile : Text → Bool) (keys : List String) (storage : MetadataStorage F) :
    (keys.foldl (MetadataStorage.pruneFile env isfile) storage).pendingRequests =
        storage.pendingRequests ∧
      (keys.foldl (MetadataStorage.pruneFile env isfile) storage).update = storage.update := by
  induction keys generalizing storage with
  | nil => exact ⟨rfl, rfl⟩
  | cons key keys ih =>
    obtain ⟨hpending, hupdate⟩ := ih (MetadataStorage.pruneFile env isfile storage key)
    have hfile : (MetadataStorage.pruneFile env isfile storage key).pendingRequests =
          storage.pendingRequests ∧
        (MetadataStorage.pruneFile env isfile storage key).update = storage.update := by
      unfold MetadataStorage.pruneFile
      split
      · split <;> exact ⟨rfl, rfl⟩
      · exact ⟨rfl, rfl⟩
    exact ⟨hpending.trans hfile.1, hupdate.trans hfile.2⟩

/-- The events that leave the requests and the loop alone. -/
def Elsewhere : MetadataStorage.Event F → Prop
  | .parseMetadata _ _ | .processUpdate | .extracted _ => False
  | .insert _ _ | .removeFile _ | .removeDirectory _ | .moveFile _ _ | .moveDirectory _ _
  | .prune _ | .startPop => True

theorem storage_step_frame {storage storage' : MetadataStorage F} (he : Elsewhere e)
    (hstep : storage.step env e = some storage') :
    storage'.pendingRequests = storage.pendingRequests ∧ storage'.update = storage.update := by
  cases e with
  | parseMetadata | processUpdate | extracted => exact he.elim
  | insert key value => exact (Option.some.inj hstep) ▸ ⟨rfl, rfl⟩
  | removeFile fname =>
    rw [← Option.some.inj hstep, MetadataStorage.removeFileMetadata]
    split <;> exact ⟨rfl, rfl⟩
  | removeDirectory dirName =>
    rw [← Option.some.inj hstep, MetadataStorage.removeDirectoryMetadata]
    split
    · exact ⟨rfl, rfl⟩
    · dsimp only
      split <;> exact ⟨rfl, rfl⟩
  | moveFile prevFname newFname =>
    rw [← Option.some.inj hstep, MetadataStorage.moveFileMetadata]
    split
    · split <;> exact ⟨rfl, rfl⟩
    · exact ⟨rfl, rfl⟩
  | moveDirectory prevDir newDir =>
    rw [← Option.some.inj hstep, MetadataStorage.moveDirectoryMetadata]
    split
    · exact ⟨rfl, rfl⟩
    · dsimp only
      split <;> exact ⟨rfl, rfl⟩
  | prune isfile =>
    rw [← Option.some.inj hstep, MetadataStorage.pruneStorage]
    split
    · exact ⟨rfl, rfl⟩
    · dsimp only
      split
      · exact prune_frame isfile _ storage
      · exact prune_frame isfile _ storage
  | startPop =>
    change storage.startPop env = _ at hstep
    rw [MetadataStorage.startPop] at hstep
    split at hstep
    · cases hstep
    · exact (Option.some.inj hstep) ▸ ⟨rfl, rfl⟩

theorem step_elsewhere (hstep : s.step env e = some t) (he : Elsewhere e) :
    ∃ storage, t = { s with storage := storage } ∧ s.storage.step env e = some storage ∧
      storage.pendingRequests = s.storage.pendingRequests ∧
      storage.update = s.storage.update := by
  unfold step at hstep
  split at hstep
  · cases hstep
  · cases e with
    | parseMetadata | processUpdate | extracted => exact he.elim
    | _ =>
      obtain ⟨storage, hstorage, rfl⟩ := Option.map_eq_some_iff.mp hstep
      exact ⟨storage, rfl, hstorage, storage_step_frame he hstorage⟩

theorem parseMetadata_storage (fname : String) (info : PathInfo F) (s : ScanQueue F) :
    (s.parseMetadata env fname info).storage = s.storage.parseMetadata env fname info := by
  unfold parseMetadata
  dsimp only
  split
  · rfl
  · split
    · rfl
    · split <;> rfl

/-- The storage of the queue makes the steps of the storage, as long as the loop does not spin. -/
theorem storage_step (hstep : s.step env e = some t) (hrunning : t.spins = false) :
    s.storage.step env e = some t.storage := by
  unfold step at hstep
  split at hstep
  · cases hstep
  · have hhead : ∀ v : ScanQueue F, (v.loopHead env).spins = false →
        v.storage.nextRequest env = some (v.loopHead env).storage := by
      intro v hv
      unfold loopHead at hv ⊢
      cases hnext : v.storage.nextRequest env with
      | none =>
        rw [hnext] at hv
        cases hv
      | some storage => rfl
    cases e with
    | parseMetadata fname info =>
      cases hstep
      exact congrArg some (parseMetadata_storage fname info s).symm
    | processUpdate =>
      cases hupdate : s.storage.update <;> simp only [hupdate] at hstep
      case registered =>
        cases hstep
        simp only [MetadataStorage.step, hupdate]
        exact hhead s hrunning
      all_goals cases hstep
    | extracted result =>
      cases hupdate : s.storage.update <;> simp only [hupdate] at hstep
      case extracting fname info =>
        cases hstep
        simp only [MetadataStorage.step, MetadataStorage.finishExtraction, hupdate]
        exact hhead (s.endIteration env fname info result) hrunning
      all_goals cases hstep
    | _ =>
      obtain ⟨storage, hstorage, rfl⟩ := Option.map_eq_some_iff.mp hstep
      exact hstorage

/-- Runs of the queue whose loop does not spin are runs of the storage. -/
theorem storage_run {es : List (MetadataStorage.Event F)}
    (h : Run (fun s e t => s.step env e = some t) s es t) (hrunning : t.spins = false) :
    Run (fun s e t => s.step env e = some t) s.storage es t.storage := by
  induction h with
  | nil => exact .nil
  | @snoc u v _ e _ hstep ih =>
    refine .snoc (ih ?_) (storage_step hstep hrunning)
    cases hspins : u.spins
    · rfl
    · rw [show u.step env e = none from if_pos hspins] at hstep
      cases hstep

/-! ## The invariant -/

variable (env) in
/-- A call either makes no request, and no event or one that is set, or it makes one, and starts
the loop if that is not busy. -/
theorem parseMetadata_cases (fname : String) (info : PathInfo F) (s : ScanQueue F) :
    (s.parseMetadata env fname info = s ∨
      s.parseMetadata env fname info =
        { s with events := s.events + 1, done := s.events :: s.done }) ∨
    (fname ∉ s.storage.pendingRequests.keys ∧
      s.parseMetadata env fname info =
        { s with
          storage := { s.storage with
            pendingRequests := s.storage.pendingRequests.set fname info
            update := match s.storage.update with
              | .idle => .registered
              | update => update }
          mevt := Function.update s.mevt fname s.events
          events := s.events + 1 }) := by
  unfold parseMetadata MetadataStorage.parseMetadata
  dsimp only
  split
  · exact Or.inl (Or.inl rfl)
  · rename_i hfresh
    split
    · exact Or.inl (Or.inr rfl)
    · cases s.storage.hasValidData env fname info with
      | none => exact Or.inl (Or.inl rfl)
      | some valid =>
        cases valid with
        | true => exact Or.inl (Or.inr rfl)
        | false =>
          refine Or.inr ⟨hfresh, ?_⟩
          cases hupdate : s.storage.update <;> simp only [← hupdate]

theorem Ordered.parseMetadata (hs : s.Ordered) (fname : String) (info : PathInfo F) :
    (s.parseMetadata env fname info).Ordered := by
  rcases parseMetadata_cases env fname info s with (h | h) | ⟨hfresh, h⟩
  · rw [h]
    exact hs
  · rw [h]
    refine ⟨hs.running, hs.loop, fun i hi hdone => ?_⟩
    change i < s.events + 1 at hi
    obtain ⟨hne, hdone⟩ := not_or.mp (mt List.mem_cons.mpr hdone)
    exact hs.waiting i (by omega) hdone
  · rw [h]
    have hitems : (s.storage.pendingRequests.set fname info).items =
        s.storage.pendingRequests.items ++ [(fname, info)] := Dict.setItem_of_not_mem hfresh
    refine ⟨hs.running, ?_, fun i hi hdone => ?_⟩
    · have hloop := hs.loop
      cases hupdate : s.storage.update <;> simp only [hupdate, hitems] at hloop ⊢
      case extracting => exact List.mem_head?_append_of_mem_head? hloop
      all_goals simp
    · by_cases heq : i = s.events
      · refine ⟨fname, ?_, ?_⟩
        · exact Dict.mem_keys_setItem.mpr (Or.inl rfl)
        · exact (Function.update_self _ _ _).trans heq.symm
      · change i < s.events + 1 at hi
        obtain ⟨fname', hmem, hevent⟩ := hs.waiting i (by omega) hdone
        refine ⟨fname', Dict.mem_keys_setItem.mpr (Or.inr hmem), ?_⟩
        have hne : fname' ≠ fname := fun heq => hfresh (heq ▸ hmem)
        exact (Function.update_of_ne hne _ _).trans hevent

theorem Ordered.proceeds (hproceeds : s.Proceeds (s.loopHead env))
    (hwaiting : ∀ i < s.events, i ∉ s.done →
      ∃ fname ∈ s.storage.pendingRequests.keys, s.mevt fname = i) :
    (s.loopHead env).Ordered := by
  obtain ⟨hpending, hmevt, hevents, hdone⟩ := s.loopHead_pending
  refine ⟨hproceeds.1, ?_, fun i hi hnot => ?_⟩
  · have hloop := hproceeds.2
    rw [hpending]
    cases hitems : s.storage.pendingRequests.items with
    | nil =>
      rw [hitems] at hloop
      dsimp only at hloop
      rw [hloop]
    | cons request rest =>
      rw [hitems] at hloop
      dsimp only at hloop
      rw [hloop]
      exact rfl
  · rw [hpending, hmevt]
    exact hwaiting i (hevents ▸ hi) fun hmem => hnot (hdone hmem)

theorem Ordered.step (hs : s.Ordered) (hstep : s.step env e = some t)
    (hproceeds : ∀ u, s.atHead env e = some u → u.Proceeds t) : t.Ordered := by
  cases e with
  | parseMetadata fname info =>
    rw [ScanQueue.step, hs.running, if_neg Bool.false_ne_true] at hstep
    exact (Option.some.inj hstep) ▸ hs.parseMetadata fname info
  | processUpdate =>
    obtain ⟨rfl, -⟩ := step_atHead hstep rfl
    exact Ordered.proceeds (hproceeds s rfl) hs.waiting
  | extracted result =>
    cases hupdate : s.storage.update with
    | extracting fname info =>
      have hu : s.atHead env (.extracted result) =
          some (s.endIteration env fname info result) := by
        rw [atHead, hupdate]
      obtain ⟨rfl, -⟩ := step_atHead hstep hu
      refine Ordered.proceeds (hproceeds _ hu) fun i hi hdone => ?_
      obtain ⟨hne, hdone⟩ := not_or.mp (mt List.mem_cons.mpr hdone)
      obtain ⟨fname', hmem, hevent⟩ := hs.waiting i hi hdone
      refine ⟨fname', ?_, hevent⟩
      have hother : fname' ≠ fname := by
        rintro rfl
        exact hne hevent.symm
      obtain ⟨info', hget⟩ := Dict.mem_keys_iff.mp hmem
      change fname' ∈ (recorded env fname info result s.storage).pendingRequests.keys
      rw [recorded_pending]
      exact Dict.mem_keys_iff.mpr ⟨info', by rw [Dict.get_erase, if_neg hother, hget]⟩
    | _ =>
      rw [ScanQueue.step, hs.running, if_neg Bool.false_ne_true, hupdate] at hstep
      cases hstep
  | _ =>
    obtain ⟨storage, rfl, -, hpending, hupdate⟩ := step_elsewhere hstep trivial
    refine ⟨hs.running, ?_, ?_⟩
    · have hloop := hs.loop
      rw [← hpending, ← hupdate] at hloop
      exact hloop
    · have hwaiting := hs.waiting
      rw [← hpending] at hwaiting
      exact hwaiting

/-! ## The end of the loop -/

/-- The event is the end of an iteration. -/
def isExtracted : MetadataStorage.Event F → Bool
  | .extracted _ => true
  | _ => false

/-- The event is a call of `parse_metadata`. -/
def isParse : MetadataStorage.Event F → Bool
  | .parseMetadata _ _ => true
  | _ => false

/-- The loop is not stuck and ends: while it is busy its next event is possible, whatever the script
prints; without new requests each iteration leaves one request fewer; without requests it is not
busy, and then all events are set. -/
structure Settles (env : StorageEnv F) (s : ScanQueue F) : Prop where
  registered : s.storage.update = .registered → (s.step env .processUpdate).isSome = true
  extracting : ∀ fname info, s.storage.update = .extracting fname info →
    ∀ result, (s.step env (.extracted result)).isSome = true
  counts : ∀ es t, Run (fun s e t => s.step env e = some t ∧ s.Outdated env e) s es t →
    (∀ e ∈ es, isParse e = false) →
      es.countP isExtracted + t.storage.pendingRequests.items.length =
        s.storage.pendingRequests.items.length
  idle : s.storage.update = .idle ↔ s.storage.pendingRequests.items = []
  events : s.storage.update = .idle → ∀ i < s.events, i ∈ s.done

theorem pending_step (hs : s.Ordered) (hstep : s.step env e = some t) (hparse : isParse e = false) :
    (if isExtracted e then 1 else 0) + t.storage.pendingRequests.items.length =
      s.storage.pendingRequests.items.length := by
  cases e with
  | parseMetadata fname info => cases hparse
  | processUpdate =>
    obtain ⟨rfl, -⟩ := step_atHead hstep rfl
    rw [s.loopHead_pending.1]
    exact Nat.zero_add _
  | extracted result =>
    obtain ⟨fname, info, rest, hitems, hrest, -⟩ := hs.removes hstep
    rw [hitems, hrest, List.length_cons, Nat.add_comm]
    rfl
  | _ =>
    obtain ⟨storage, rfl, -, hpending, -⟩ := step_elsewhere hstep trivial
    rw [hpending]
    exact Nat.zero_add _

theorem pending_run {es : List (MetadataStorage.Event F)} (hs : s.Ordered)
    (h : Run (fun s e t => s.step env e = some t ∧ s.Outdated env e) s es t)
    (hparse : ∀ e ∈ es, isParse e = false) :
    t.Ordered ∧ es.countP isExtracted + t.storage.pendingRequests.items.length =
      s.storage.pendingRequests.items.length := by
  induction h with
  | nil => exact ⟨hs, Nat.zero_add _⟩
  | snoc _ hlast ih =>
    obtain ⟨hordered, hcount⟩ := ih fun e he => hparse e (List.mem_append_left _ he)
    refine ⟨hordered.step hlast.1 ((proceeds_of_step_iff hlast.1).mpr hlast.2), ?_⟩
    have hone := pending_step hordered hlast.1
      (hparse _ (List.mem_append_right _ List.mem_cons_self))
    rw [List.countP_append, List.countP_singleton]
    omega

theorem Ordered.settles (hs : s.Ordered) : s.Settles env where
  registered hupdate := by
    rw [ScanQueue.step, hs.running, if_neg Bool.false_ne_true, hupdate]
    rfl
  extracting fname info hupdate result := by
    rw [ScanQueue.step, hs.running, if_neg Bool.false_ne_true, hupdate]
    rfl
  counts es t h hparse := (pending_run hs h hparse).2
  idle := by
    have hloop := hs.loop
    constructor
    · intro hidle
      rw [hidle] at hloop
      exact hloop
    · intro hitems
      cases hupdate : s.storage.update <;> rw [hupdate, hitems] at hloop
      case registered => exact absurd rfl hloop
      case extracting => cases hloop
      case raised => exact hloop.elim
  events hidle i hi := by
    by_contra hdone
    obtain ⟨fname, hmem, -⟩ := hs.waiting i hi hdone
    have hloop := hs.loop
    rw [hidle] at hloop
    dsimp only at hloop
    rw [Dict.keys, hloop] at hmem
    cases hmem

/-- The server has started: nothing is to be scanned. -/
structure Fresh (s : ScanQueue F) : Prop where
  running : s.spins = false
  idle : s.storage.update = .idle
  pending : s.storage.pendingRequests.items = []
  events : s.events = 0

theorem Fresh.ordered (h : s.Fresh) : s.Ordered where
  running := h.running
  loop := by
    rw [h.idle]
    exact h.pending
  waiting i hi := by
    rw [h.events] at hi
    cases hi

/-- In a run every iteration removes its request and sets its event if and only if the loop never
finds its first request valid; and in such a run the loop ends once there are no new requests. -/
theorem progresses_run_iff (env : StorageEnv F) {s : ScanQueue F} (hs : s.Fresh)
    (es : List (MetadataStorage.Event F)) (t : ScanQueue F) :
    (Run (fun s e t => s.step env e = some t ∧ s.Progresses env e t) s es t ↔
      Run (fun s e t => s.step env e = some t ∧ s.Outdated env e) s es t) ∧
    (Run (fun s e t => s.step env e = some t ∧ s.Outdated env e) s es t → t.Settles env) := by
  constructor
  · apply Run.restrict_iff hs.ordered
    · intro s e t hs hstep
      exact (and_iff_right (hs.removes hstep)).trans (proceeds_of_step_iff hstep)
    · intro s e t hs hstep hprogress
      exact hs.step hstep hprogress.2
  · intro h
    have hordered : t.Ordered := h.invariant hs.ordered fun s e t hs hstep =>
      hs.step hstep.1 ((proceeds_of_step_iff hstep.1).mpr hstep.2)
    exact hordered.settles

/-- A server without records. -/
def started : ScanQueue Unit :=
  { storage := MetadataStorage.emptyStorage, mevt := fun _ => 0, events := 0, done := []
    spins := false }

theorem started_fresh : started.Fresh := ⟨rfl, rfl, rfl, rfl⟩

/-- What is known of a file of a size. -/
def sized (n : ℤ) : PathInfo Unit := ⟨some (.int n), some (.int n), none⟩

theorem progresses_run_iff_started :
    (started.parseMetadata MetadataStorage.sizeEnv "a.gcode" (sized 1)).Settles
      MetadataStorage.sizeEnv := by
  apply (progresses_run_iff MetadataStorage.sizeEnv started_fresh
    [.parseMetadata "a.gcode" (sized 1)] _).2
  refine .single ⟨rfl, ?_⟩
  intro u fname info rest hu
  cases hu

/-- Two files are to be scanned, and while the first is, metadata of the second is inserted. -/
def validInQueue : List (MetadataStorage.Event Unit) :=
  [.parseMetadata "a.gcode" (sized 1), .parseMetadata "b.gcode" (sized 2), .processUpdate,
    .insert "b.gcode" [("size", .int 2), ("modified", .int 2)],
    .extracted (some ("a.gcode", [("size", .int 1), ("modified", .int 1)]))]

/-- The loop goes round on the second then, and nothing else happens. -/
theorem spins_validInQueue : ∃ t : ScanQueue Unit,
    Run (fun s e t => s.step MetadataStorage.sizeEnv e = some t) started validInQueue t ∧
    t.storage.pendingRequests.keys = ["b.gcode"] ∧
    ∀ e, t.step MetadataStorage.sizeEnv e = none := by
  obtain ⟨t, hrun, ht⟩ := Run.exists_of_any (f := step MetadataStorage.sizeEnv) (s := started)
    (l := validInQueue) (P := fun t => t.spins && t.storage.pendingRequests.keys = ["b.gcode"])
    (by decide +kernel)
  obtain ⟨hspins, hkeys⟩ := Bool.and_eq_true_iff.mp ht
  exact ⟨t, hrun, of_decide_eq_true hkeys, fun e => if_pos hspins⟩

end ScanQueue

end FlsunT1.Moonraker
