/-
  Klippy/ExcludeCounts.lean --- the ends of excluded segments that are counted.

  `EXCLUDE_OBJECT_END` counts the ends of excluded segments in a row under its parameter, and
  reads a flag of the last start to see whether the segment is excluded.  Here the segments are
  recorded beside the module, each with its object and with the test as it is defined.
-/
import FlsunT1.Klippy.ExcludeMoves

set_option autoImplicit false

namespace FlsunT1.Klippy

open Library ExcludeObject

variable {K : Type} {upper : String → String}

/-! ## Segments -/

/-- A segment that has ended: its object, and whether it was excluded. -/
abbrev EndedSegment := String × Bool

/-- How many segments of an object have ended since the last one that was not excluded; the
latest segment comes first. -/
def endedSince (ended : List EndedSegment) (name : String) : ℕ :=
  (ended.takeWhile Prod.snd).countP (·.1 = name)

/-- The current object is excluded and the first extrusions are over: what
`_test_in_excluded_region` says. -/
def inExcludedSegment (o : ExcludeObject K) : Bool :=
  o.currentExcluded && o.transform.any (·.initialExtrusionMoves = 0)

/-- The count under a name. -/
def endCount (o : ExcludeObject K) (name : String) : ℕ := (o.objectEndCount.lookup name).getD 0

/-- The module, and the segments that have ended. -/
abbrev CountedObjects (K : Type) := ExcludeObject K × List EndedSegment

/-- The segment that the event ends is recorded. -/
def recordSegment (s : CountedObjects K) : ExcludeEvent K → List EndedSegment
  | .finish _ =>
    match s.1.currentObject with
    | none => s.2
    | some name => (name, inExcludedSegment s.1) :: s.2
  | _ => s.2

/-- The commands that label objects and exclude them, and the moves. -/
def Labels : ExcludeEvent K → Prop
  | .start _ | .finish _ | .exclude _ _ | .move _ _ _ => True
  | .define _ _ | .setEnable _ | .resetFile _ => False

section Step

variable [Field K] [LinearOrder K]

/-- One event. -/
def CountedObjects.next (upper : String → String) (s : CountedObjects K) (e : ExcludeEvent K) : CountedObjects K :=
  ((s.1.handle upper e).state, recordSegment s e)

/-- An end raises the error that ends the print or nothing, and leaves no current object. -/
def EndReturns (upper : String → String) (s : CountedObjects K) : ExcludeEvent K → Prop
  | .finish gcmd =>
    ((s.1.cmdEnd upper gcmd).raised = none ∨
      (s.1.cmdEnd upper gcmd).raised = some (.error "exclude_object over")) ∧
    (s.1.cmdEnd upper gcmd).state.currentObject = none
  | _ => True

/-- What an event owes: the counts are those of the segments. -/
def CountsSegments (upper : String → String) (s : CountedObjects K) (e : ExcludeEvent K)
    (t : CountedObjects K) : Prop :=
  EndReturns upper s e ∧ ∀ name, endCount t.1 name = endedSince t.2 name

end Step

/-- The condition on an end of a segment.  Once the first extrusions are over, the flag has to say
whether the object is excluded, and where it is, the end has to name it. -/
def EndCondition (upper : String → String) (s : CountedObjects K) : ExcludeEvent K → Prop
  | .finish gcmd => ∀ name, s.1.currentObject = some name →
      s.1.transform.any (·.initialExtrusionMoves = 0) = true →
        s.1.isExcludedObject = s.1.currentExcluded ∧
          (s.1.currentExcluded = true → (gcmd.param "NAME").map upper = some name)
  | _ => True

/-- The transform is registered, the counts are those of the segments, and the objects that are
printed or counted are known. -/
structure SegmentsCounted (s : CountedObjects K) : Prop where
  registered : s.1.nextTransform = true
  transform : ∃ tr, s.1.transform = some tr
  current : ∀ name, s.1.currentObject = some name → name ∈ s.1.objects
  known : ∀ name, endCount s.1 name ≠ 0 → name ∈ s.1.objects
  counted : ∀ name, endCount s.1 name = endedSince s.2 name

/-! ## Counts -/

theorem endedSince_excluded (ended : List EndedSegment) (name name' : String) :
    endedSince ((name, true) :: ended) name' =
      endedSince ended name' + if name = name' then 1 else 0 := by
  simp [endedSince, List.countP_cons]

theorem endedSince_printed (ended : List EndedSegment) (name name' : String) :
    endedSince ((name, false) :: ended) name' = 0 := by
  simp [endedSince]

theorem lookup_map_entry {counts : List (String × ℕ)} (f : String → ℕ → ℕ) (name : String) :
    (counts.map fun c => (c.1, f c.1 c.2)).lookup name = (counts.lookup name).map (f name) := by
  induction counts with
  | nil => rfl
  | cons c counts ih =>
    rw [List.map_cons, List.lookup_cons, List.lookup_cons]
    split
    · rename_i heq
      rw [eq_of_beq heq]
      rfl
    · exact ih

theorem lookup_isSome {counts : List (String × ℕ)} {name : String} :
    (counts.lookup name).isSome = counts.any (·.1 = name) := by
  induction counts with
  | nil => rfl
  | cons c counts ih =>
    rw [List.lookup_cons, List.any_cons]
    by_cases heq : name = c.1
    · rw [beq_iff_eq.mpr heq, decide_eq_true heq.symm]
      rfl
    · rw [beq_false_of_ne heq, decide_eq_false (Ne.symm heq), Bool.false_or]
      exact ih

theorem lookup_setCount (counts : List (String × ℕ)) (name name' : String) (n : ℕ) :
    (setCount counts name n).lookup name' =
      if name' = name then some n else counts.lookup name' := by
  unfold setCount
  rw [← lookup_isSome]
  cases hlookup : counts.lookup name with
  | some m =>
    let set : String → ℕ → ℕ := fun key m => if key = name then n else m
    have hmap : (counts.map fun c => if c.1 = name then (name, n) else c) =
        counts.map fun c => (c.1, set c.1 c.2) := by
      apply List.map_congr_left
      rintro ⟨key, m⟩ -
      by_cases hkey : key = name
      · simp [set, hkey]
      · simp [set, hkey]
    rw [Option.isSome_some, if_pos rfl, hmap, lookup_map_entry]
    by_cases heq : name' = name
    · rw [if_pos heq, heq, hlookup, Option.map_some]
      exact congrArg some (if_pos rfl)
    · have hset : set name' = id := funext fun m => if_neg heq
      rw [if_neg heq, hset, Option.map_id_fun, id]
  | none =>
    rw [Option.isSome_none, if_neg Bool.false_ne_true, List.lookup_append]
    by_cases heq : name' = name
    · rw [if_pos heq, heq, hlookup, List.lookup_cons, beq_self_eq_true]
      rfl
    · rw [if_neg heq, List.lookup_cons, beq_false_of_ne heq]
      exact Option.or_none

theorem endCount_zeroed (o : ExcludeObject K) (name : String) :
    endCount { o with objectEndCount := o.objectEndCount.map fun c => (c.1, 0) } name = 0 := by
  unfold endCount
  rw [lookup_map_entry (fun _ _ => 0)]
  cases o.objectEndCount.lookup name <;> rfl

theorem endCount_countEnd [Field K] [LinearOrder K] (o : ExcludeObject K) (name name' : String)
    (actions : List (ExcludeAction K)) :
    endCount (o.countEnd name actions).state name' =
      endCount o name' + if name = name' then 1 else 0 := by
  unfold endCount countEnd
  dsimp only
  rw [lookup_setCount]
  by_cases heq : name' = name
  · subst heq
    rw [if_pos rfl, if_pos rfl]
    rfl
  · rw [if_neg heq, if_neg (Ne.symm heq)]
    rfl

/-! ## One event -/

/-- The objects, their counts and the transform are as they were. -/
structure SameLabels (o o' : ExcludeObject K) : Prop where
  current : o'.currentObject = o.currentObject
  objects : o'.objects = o.objects
  counts : o'.objectEndCount = o.objectEndCount
  nextTransform : o'.nextTransform = o.nextTransform
  transform : (∃ tr, o.transform = some tr) → ∃ tr, o'.transform = some tr

theorem SameLabels.refl (o : ExcludeObject K) : SameLabels o o := ⟨rfl, rfl, rfl, rfl, id⟩

theorem SegmentsCounted.same {o o' : ExcludeObject K} {ended : List EndedSegment}
    (hs : SegmentsCounted (o, ended)) (h : SameLabels o o') : SegmentsCounted (o', ended) where
  registered := h.nextTransform.trans hs.registered
  transform := h.transform hs.transform
  current name hname := h.objects ▸ hs.current name (h.current ▸ hname)
  known name hcount := by
    rw [h.objects]
    apply hs.known name
    rwa [endCount, h.counts] at hcount
  counted name := by
    rw [endCount, h.counts]
    exact hs.counted name

variable [Field K] [LinearOrder K]

theorem move_sameLabels (ctx : ExcludeContext K) (o : ExcludeObject K) (newpos : Position K)
    (speed : K) : SameLabels o (o.move ctx newpos speed).state := by
  rw [ExcludeObject.move]
  split
  · exact .refl o
  · exact .refl o
  · split <;> exact ⟨rfl, rfl, rfl, rfl, fun _ => ⟨_, rfl⟩⟩
  · split <;> exact ⟨rfl, rfl, rfl, rfl, fun _ => ⟨_, rfl⟩⟩

omit [LinearOrder K] in
theorem excludeObject_sameLabels (upper : String → String) (ctx : ExcludeContext K)
    {o : ExcludeObject K} (hregistered : o.nextTransform = true) (name : String) :
    SameLabels o (o.excludeObject upper ctx name).state := by
  have hreg : o.registerTransform ctx = o := if_pos hregistered
  rw [excludeObject, hreg]
  dsimp only
  split
  · exact .refl o
  · exact ⟨rfl, rfl, rfl, rfl, id⟩

omit [LinearOrder K] in
/-- Once the transform is registered, `EXCLUDE_OBJECT` changes only what is excluded. -/
theorem cmdExclude_sameLabels (upper : String → String) (ctx : ExcludeContext K)
    (gcmd : GCodeCommand) {o : ExcludeObject K} (hregistered : o.nextTransform = true) :
    SameLabels o (o.cmdExclude upper ctx gcmd).state := by
  rw [cmdExclude]
  split
  · rw [unexcludeObject]
    split
    · exact ⟨rfl, rfl, rfl, rfl, id⟩
    · exact .refl o
  · exact ⟨rfl, rfl, rfl, rfl, id⟩
  · split
    · exact .refl o
    · exact excludeObject_sameLabels upper ctx hregistered _
  · split
    · exact .refl o
    · exact excludeObject_sameLabels upper ctx hregistered _
  · exact .refl o

/-- A start keeps the counts: an object that was not known has none. -/
theorem SegmentsCounted.start {s : CountedObjects K} (hs : SegmentsCounted s) (gcmd : GCodeCommand) :
    SegmentsCounted (s.next upper (.start gcmd)) := by
  obtain ⟨o, ended⟩ := s
  cases hname : gcmd.param "NAME" with
  | none =>
    have hstate : (o.cmdStart upper gcmd).state = o := by
      rw [cmdStart, hname]
    change SegmentsCounted ((o.cmdStart upper gcmd).state, ended)
    rw [hstate]
    exact hs
  | some text =>
    change SegmentsCounted ((o.cmdStart upper gcmd).state, ended)
    rw [cmdStart_eq upper o hname]
    dsimp only
    split
    · rename_i hknown
      refine ⟨hs.registered, hs.transform, ?_, hs.known, hs.counted⟩
      rintro name ⟨⟩
      exact hknown
    · rename_i hunknown
      have hzero : endCount o (upper text) = 0 := by
        by_contra hcount
        exact hunknown (hs.known _ hcount)
      have hcounts : ∀ name, endCount (o.addObjectDefinition (upper text)) name =
          endCount o name := by
        intro name
        rw [endCount, addObjectDefinition, lookup_setCount]
        split
        · rename_i heq
          rw [heq, hzero]
          rfl
        · rfl
      refine ⟨hs.registered, hs.transform, ?_, fun name hcount => ?_, fun name => ?_⟩
      · rintro name ⟨⟩
        exact mem_sorted.mpr (List.mem_append_right _ List.mem_cons_self)
      · apply mem_sorted.mpr
        exact List.mem_append_left _ (hs.known name ((hcounts name) ▸ hcount))
      · exact (hcounts name).trans (hs.counted name)

omit [Field K] [LinearOrder K] in
theorem testForMove_eq {o : ExcludeObject K} (h : ∃ tr, o.transform = some tr) :
    o.testInExcludedRegionForMove =
      .ok (o.isExcludedObject && o.transform.any (·.initialExtrusionMoves = 0)) := by
  obtain ⟨tr, htr⟩ := h
  rw [testInExcludedRegionForMove, htr]
  cases o.isExcludedObject <;> rfl

omit [Field K] [LinearOrder K] in
theorem cmdEnd_printed (upper : String → String) {o : ExcludeObject K} {name : String}
    (gcmd : GCodeCommand)
    (hcurrent : o.currentObject = some name) (htr : ∃ tr, o.transform = some tr)
    (htest : (o.isExcludedObject && o.transform.any (·.initialExtrusionMoves = 0)) = false) :
    (o.cmdEnd upper gcmd).raised = none ∧ (o.cmdEnd upper gcmd).state =
      { o with
        currentObject := none
        objectEndCount := o.objectEndCount.map fun c => (c.1, 0) } := by
  have hmove := testForMove_eq (o := { o with currentObject := none }) htr
  rw [htest] at hmove
  rw [cmdEnd, if_neg fun hnone => by rw [hcurrent] at hnone; cases hnone.1]
  simp only [hmove]
  exact ⟨rfl, rfl⟩

omit [Field K] [LinearOrder K] in
theorem cmdEnd_excluded (upper : String → String) {o : ExcludeObject K} {name : String}
    (gcmd : GCodeCommand)
    (hcurrent : o.currentObject = some name) (htr : ∃ tr, o.transform = some tr)
    (htest : (o.isExcludedObject && o.transform.any (·.initialExtrusionMoves = 0)) = true) :
    ((gcmd.param "NAME").map upper = none ∧
      (o.cmdEnd upper gcmd).raised = some (.exception "name")) ∨
    ∃ name' actions, (gcmd.param "NAME").map upper = some name' ∧
      o.cmdEnd upper gcmd = { o with currentObject := none }.countEnd name' actions := by
  have hmove := testForMove_eq (o := { o with currentObject := none }) htr
  rw [htest] at hmove
  rw [cmdEnd, if_neg fun hnone => by rw [hcurrent] at hnone; cases hnone.1]
  cases hname : (gcmd.param "NAME").map upper with
  | none =>
    left
    simp only [hmove]
    exact ⟨trivial, trivial⟩
  | some name' =>
    right
    simp only [hmove]
    exact ⟨name', _, rfl, rfl⟩

omit [Field K] [LinearOrder K] in
theorem countEnd_raised (o : ExcludeObject K) (name : String)
    (actions : List (ExcludeAction K)) :
    (o.countEnd name actions).raised = none ∨
      (o.countEnd name actions).raised = some (.error "exclude_object over") := by
  unfold countEnd
  dsimp only
  split
  · exact Or.inr rfl
  · exact Or.inl rfl

/-- An end owes what it does if and only if it meets the condition. -/
theorem finish_iff {s : CountedObjects K} (hs : SegmentsCounted s) (gcmd : GCodeCommand) :
    CountsSegments upper s (.finish gcmd) (s.next upper (.finish gcmd)) ↔
      EndCondition upper s (.finish gcmd) := by
  obtain ⟨o, ended⟩ := s
  have hcurrentNone := (cmdEnd_state upper o gcmd).1
  cases hcurrent : o.currentObject with
  | none =>
    have hend : o.cmdEnd upper gcmd = done o
        [.respondInfo "EXCLUDE_OBJECT_END called, but no object is currently active"] :=
      if_pos ⟨hcurrent, hs.registered⟩
    have hnext : CountedObjects.next upper (o, ended) (.finish gcmd) = (o, ended) := by
      simp only [CountedObjects.next, ExcludeObject.handle, hend, done, recordSegment, hcurrent]
    rw [hnext]
    refine iff_of_true ⟨⟨Or.inl (by rw [hend]; rfl), hcurrentNone⟩, hs.counted⟩ ?_
    intro name hname
    cases hcurrent.symm.trans hname
  | some name =>
    have hnext : CountedObjects.next upper (o, ended) (.finish gcmd) =
        ((o.cmdEnd upper gcmd).state, (name, inExcludedSegment o) :: ended) := by
      simp only [CountedObjects.next, ExcludeObject.handle, recordSegment, hcurrent]
    have hcond : EndCondition upper (o, ended) (.finish gcmd) ↔
        (o.transform.any (·.initialExtrusionMoves = 0) = true →
          o.isExcludedObject = o.currentExcluded ∧
            (o.currentExcluded = true → (gcmd.param "NAME").map upper = some name)) := by
      constructor
      · exact fun h => h name hcurrent
      · intro h name' hname'
        cases hcurrent.symm.trans hname'
        exact h
    rw [hnext, hcond, CountsSegments, EndReturns, inExcludedSegment]
    cases htest : o.isExcludedObject && o.transform.any (·.initialExtrusionMoves = 0) with
    | false =>
      obtain ⟨hraised, hstate⟩ := cmdEnd_printed upper gcmd hcurrent hs.transform htest
      have hzero : ∀ name', endCount (o.cmdEnd upper gcmd).state name' = 0 := by
        intro name'
        rw [hstate]
        exact endCount_zeroed o name'
      simp only [hzero]
      cases hexcluded : o.currentExcluded && o.transform.any (·.initialExtrusionMoves = 0) with
      | false =>
        refine iff_of_true ⟨⟨Or.inl hraised, hcurrentNone⟩, fun name' => ?_⟩ fun hmoves => ?_
        · exact (endedSince_printed ended name name').symm
        · rw [hmoves, Bool.and_true] at htest hexcluded
          refine ⟨htest.trans hexcluded.symm, fun h => ?_⟩
          exact absurd (hexcluded.symm.trans h) Bool.false_ne_true
      | true =>
        obtain ⟨hexcluded, hmoves⟩ := Bool.and_eq_true_iff.mp hexcluded
        refine iff_of_false (fun h => ?_) fun h => ?_
        · have := h.2 name
          rw [endedSince_excluded, if_pos rfl] at this
          omega
        · rw [hmoves, Bool.and_true] at htest
          exact absurd (htest.symm.trans ((h hmoves).1.trans hexcluded)) Bool.false_ne_true
    | true =>
      obtain ⟨hflag, hmoves⟩ := Bool.and_eq_true_iff.mp htest
      rw [hmoves, hflag, Bool.and_true]
      obtain ⟨hname, hraised⟩ | ⟨name', actions, hname, hend⟩ :=
        cmdEnd_excluded upper gcmd hcurrent hs.transform htest
      · refine iff_of_false (fun h => ?_) fun h => ?_
        · rw [hraised] at h
          obtain hraised | hraised := h.1.1 <;> cases hraised
        · have hexcluded := (h rfl).1.symm
          rw [hname] at h
          cases (h rfl).2 hexcluded
      · have hcount : ∀ name'', endCount (o.cmdEnd upper gcmd).state name'' =
            endedSince ended name'' + if name' = name'' then 1 else 0 := by
          intro name''
          rw [hend, endCount_countEnd]
          exact congrArg (· + _) (hs.counted name'')
        rw [hname, Option.some_inj]
        cases hexcluded : o.currentExcluded with
        | false =>
          refine iff_of_false (fun h => ?_) fun h => absurd (h rfl).1.symm Bool.false_ne_true
          have := h.2 name'
          rw [hcount, endedSince_printed, if_pos rfl] at this
          omega
        | true =>
          constructor
          · refine fun h _ => ⟨rfl, fun _ => ?_⟩
            have := h.2 name'
            rw [hcount, endedSince_excluded, if_pos rfl] at this
            by_contra hne
            rw [if_neg (Ne.symm hne)] at this
            omega
          · intro h
            obtain rfl := (h rfl).2 rfl
            refine ⟨⟨?_, hcurrentNone⟩, fun name'' => ?_⟩
            · rw [hend]
              exact countEnd_raised _ _ _
            · rw [hcount, endedSince_excluded]

/-- The state of the module after an end that does what it owes. -/
theorem SegmentsCounted.finish {s : CountedObjects K} (hs : SegmentsCounted s) (gcmd : GCodeCommand)
    (h : CountsSegments upper s (.finish gcmd) (s.next upper (.finish gcmd))) :
    SegmentsCounted (s.next upper (.finish gcmd)) := by
  obtain ⟨o, ended⟩ := s
  obtain ⟨hnone, -, -, hnext, htransform⟩ := cmdEnd_state upper o gcmd
  refine ⟨hnext.trans hs.registered, ?_, fun name hname => ?_, fun name hcount => ?_, h.2⟩
  · obtain ⟨tr, htr⟩ := hs.transform
    exact ⟨tr, htransform.trans htr⟩
  · cases hnone.symm.trans hname
  · have hcond := (finish_iff hs gcmd).mp h
    change endCount (o.cmdEnd upper gcmd).state name ≠ 0 at hcount
    change name ∈ (o.cmdEnd upper gcmd).state.objects
    cases hcurrent : o.currentObject with
    | none =>
      rw [cmdEnd, if_pos ⟨hcurrent, hs.registered⟩] at hcount ⊢
      exact hs.known name hcount
    | some current =>
      cases htest : o.isExcludedObject && o.transform.any (·.initialExtrusionMoves = 0) with
      | false =>
        rw [(cmdEnd_printed upper gcmd hcurrent hs.transform htest).2] at hcount
        exact absurd (endCount_zeroed o name) hcount
      | true =>
        obtain ⟨hflag, hmoves⟩ := Bool.and_eq_true_iff.mp htest
        obtain ⟨hexcluded, hnamed⟩ := hcond current hcurrent hmoves
        obtain ⟨hname, -⟩ | ⟨name', actions, hname, hend⟩ :=
          cmdEnd_excluded upper gcmd hcurrent hs.transform htest
        · cases hname.symm.trans (hnamed (hexcluded.symm.trans hflag))
        · obtain rfl := Option.some.inj (hname.symm.trans (hnamed (hexcluded.symm.trans hflag)))
          rw [hend, endCount_countEnd] at hcount
          rw [hend]
          by_cases heq : name' = name
          · exact heq ▸ hs.current _ hcurrent
          · rw [if_neg heq] at hcount
            exact hs.known name hcount

/-- An event owes what it does if and only if it meets the condition, and keeps the counts where
it does. -/
theorem countsSegments_iff {s : CountedObjects K} (hs : SegmentsCounted s) {e : ExcludeEvent K}
    (he : Labels e) :
    CountsSegments upper s e (s.next upper e) ↔ EndCondition upper s e := by
  cases e with
  | start gcmd => exact iff_of_true ⟨trivial, (hs.start gcmd).counted⟩ trivial
  | finish gcmd => exact finish_iff hs gcmd
  | exclude gcmd ctx =>
    have hsame := cmdExclude_sameLabels upper ctx gcmd hs.registered
    exact iff_of_true ⟨trivial, (hs.same hsame).counted⟩ trivial
  | move newpos speed ctx =>
    refine iff_of_true ⟨trivial, ?_⟩ trivial
    rw [CountedObjects.next, ExcludeObject.handle, if_pos hs.registered]
    exact (hs.same (move_sameLabels ctx s.1 newpos speed)).counted
  | define | setEnable | resetFile => exact he.elim

theorem SegmentsCounted.next {s : CountedObjects K} (hs : SegmentsCounted s) {e : ExcludeEvent K}
    (he : Labels e) (h : CountsSegments upper s e (s.next upper e)) :
    SegmentsCounted (s.next upper e) := by
  cases e with
  | start gcmd => exact hs.start gcmd
  | finish gcmd => exact hs.finish gcmd h
  | exclude gcmd ctx => exact hs.same (cmdExclude_sameLabels upper ctx gcmd hs.registered)
  | move newpos speed ctx =>
    rw [CountedObjects.next, ExcludeObject.handle, if_pos hs.registered]
    exact hs.same (move_sameLabels ctx s.1 newpos speed)
  | define | setEnable | resetFile => exact he.elim

/-! ## Runs -/

/-- The transform is registered, and no segment has ended yet. -/
structure NothingEnded (o : ExcludeObject K) : Prop where
  registered : o.nextTransform = true
  transform : ∃ tr, o.transform = some tr
  current : o.currentObject = none
  counts : ∀ name, endCount o name = 0

omit [Field K] [LinearOrder K] in
theorem NothingEnded.segmentsCounted {o : ExcludeObject K} (h : NothingEnded o) :
    SegmentsCounted (o, []) where
  registered := h.registered
  transform := h.transform
  current name hname := by cases h.current.symm.trans hname
  known name hcount := absurd (h.counts name) hcount
  counted name := h.counts name

/-- From a registered transform on, every event counts the segments and every end returns if and
only if every end meets the condition. -/
theorem countsSegments_run_iff (upper : String → String) {o : ExcludeObject K}
    (h : NothingEnded o) (es : List (ExcludeEvent K)) (hes : ∀ e ∈ es, Labels e)
    (t : CountedObjects K) :
    Run (fun s e t => t = CountedObjects.next upper s e ∧ CountsSegments upper s e t) (o, []) es t ↔
      Run (fun s e t => t = CountedObjects.next upper s e ∧ EndCondition upper s e) (o, []) es t := by
  have hiff : Run (fun s e t => (t = CountedObjects.next upper s e ∧ Labels e) ∧
        CountsSegments upper s e t) (o, []) es t ↔
      Run (fun s e t => (t = CountedObjects.next upper s e ∧ Labels e) ∧ EndCondition upper s e)
        (o, []) es t := by
    apply Run.restrict_iff h.segmentsCounted
    · rintro s e t hs ⟨rfl, he⟩
      exact countsSegments_iff hs he
    · rintro s e t hs ⟨rfl, he⟩ hcounts
      exact hs.next he hcounts
  constructor
  · intro hrun
    have := hiff.mp ((hrun.and_events hes).mono fun s e t hs => ⟨⟨hs.1.1, hs.2⟩, hs.1.2⟩)
    exact this.mono fun s e t hs => ⟨hs.1.1, hs.2⟩
  · intro hrun
    have := hiff.mpr ((hrun.and_events hes).mono fun s e t hs => ⟨⟨hs.1.1, hs.2⟩, hs.1.2⟩)
    exact this.mono fun s e t hs => ⟨hs.1.1, hs.2⟩

/-- The module whose transform was registered at the origin. -/
def registeredAtOrigin : ExcludeObject ℚ := ExcludeObject.init.registerTransform originContext

theorem registeredAtOrigin_nothingEnded : NothingEnded registeredAtOrigin where
  registered := rfl
  transform := ⟨_, rfl⟩
  current := rfl
  counts _ := rfl

/-- Exclude `A`, extrude five times, and start it. -/
def excludedStart : List (ExcludeEvent ℚ) :=
  .exclude ⟨"EXCLUDE_OBJECT NAME=A", [("NAME", "A")]⟩ originContext ::
    [1, 2, 3, 4, 5].map (fun e => .move ![0, 0, 0, e] 100 originContext) ++
    [.start ⟨"EXCLUDE_OBJECT_START NAME=A", [("NAME", "A")]⟩]

def endWithoutName : GCodeCommand := ⟨"EXCLUDE_OBJECT_END", []⟩

/-- The same, and an end that does not name it. -/
def excludedEnd : List (ExcludeEvent ℚ) := excludedStart ++ [.finish endWithoutName]

theorem labels_excludedEnd : ∀ e ∈ excludedEnd, Labels e := by
  simp [excludedEnd, excludedStart, Labels]

theorem countsSegments_run_iff_origin :
    Run (fun s e t => t = CountedObjects.next id s e ∧ CountsSegments id s e t)
        (registeredAtOrigin, []) excludedEnd
        (excludedEnd.foldl (CountedObjects.next id) (registeredAtOrigin, [])) ↔
      Run (fun s e t => t = CountedObjects.next id s e ∧ EndCondition id s e)
        (registeredAtOrigin, []) excludedEnd
        (excludedEnd.foldl (CountedObjects.next id) (registeredAtOrigin, [])) :=
  countsSegments_run_iff id registeredAtOrigin_nothingEnded excludedEnd labels_excludedEnd _

/-- The end of an excluded segment without a name raises another error. -/
theorem endWithoutName_raises :
    NothingEnded registeredAtOrigin ∧ (∀ e ∈ excludedEnd, Labels e) ∧
      ∃ t, Run (fun s e t => t = CountedObjects.next id s e) (registeredAtOrigin, []) excludedStart t ∧
        t.1.currentObject = some "A" ∧
        (t.1.cmdEnd id endWithoutName).raised = some (.exception "name") := by
  refine ⟨registeredAtOrigin_nothingEnded, labels_excludedEnd, _, Run.iff_foldl.mpr rfl, ?_⟩
  decide +kernel

end FlsunT1.Klippy
