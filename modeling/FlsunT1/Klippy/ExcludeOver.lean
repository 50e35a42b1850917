/-
  Klippy/ExcludeOver.lean --- the end of a print whose other objects are done.

  `EXCLUDE_OBJECT_END` takes more than three ends of one excluded object, with none of a
  printed object between them, for the sign that the printed objects are done.  That is
  right for files whose objects take turns.
-/
import FlsunT1.Klippy.ExcludeMoves

set_option autoImplicit false

namespace FlsunT1.Klippy

open Library ExcludeObject

variable {K : Type} {upper : String → String}

/-! ## A print of labelled objects -/

/-- The objects of the segments that have ended, and of the one that is printed. -/
structure Segments where
  ended : List String
  current : Option String

/-- What a print does to the segments: a file starts and ends them in pairs. -/
def Segments.next (upper : String → String) (seg : Segments) : ExcludeEvent K → Option Segments
  | .start gcmd =>
      match gcmd.param "NAME", seg.current with
      | some text, none => some { seg with current := some (upper text) }
      | _, _ => none
  | .finish gcmd =>
      match gcmd.param "NAME" with
      | none => none
      | some text =>
        if seg.current = some (upper text) then some ⟨seg.ended ++ [upper text], none⟩ else none
  | .define gcmd _ => if given gcmd "RESET" = none then some seg else none
  | .resetFile _ => none
  | _ => some seg

theorem Segments.next_start {seg seg' : Segments} {gcmd : GCodeCommand}
    (h : seg.next upper (.start gcmd : ExcludeEvent K) = some seg') :
    ∃ text, gcmd.param "NAME" = some text ∧ seg' = { seg with current := some (upper text) } := by
  rw [Segments.next] at h
  split at h
  · rename_i text hname _
    exact ⟨text, hname, (Option.some.inj h).symm⟩
  · cases h

theorem Segments.next_finish {seg seg' : Segments} {gcmd : GCodeCommand}
    (h : seg.next upper (.finish gcmd : ExcludeEvent K) = some seg') :
    ∃ text, gcmd.param "NAME" = some text ∧ seg.current = some (upper text) ∧
      seg' = ⟨seg.ended ++ [upper text], none⟩ := by
  rw [Segments.next] at h
  split at h
  · cases h
  · rename_i text hname
    split at h
    · exact ⟨text, hname, ‹_›, (Option.some.inj h).symm⟩
    · cases h

theorem Segments.next_define {seg seg' : Segments} {gcmd : GCodeCommand} {ctx : ExcludeContext K}
    (h : seg.next upper (.define gcmd ctx) = some seg') :
    given gcmd "RESET" = none ∧ seg' = seg := by
  rw [Segments.next] at h
  split at h
  · exact ⟨‹_›, (Option.some.inj h).symm⟩
  · cases h

/-- The command takes no object back. -/
def TakesNoneBack {K : Type} : ExcludeEvent K → Prop
  | .exclude gcmd _ => given gcmd "RESET" = none
  | _ => True

instance (e : ExcludeEvent K) : Decidable (TakesNoneBack e) :=
  match e with
  | .exclude gcmd _ => inferInstanceAs (Decidable (given gcmd "RESET" = none))
  | .start _ | .finish _ | .define _ _ | .setEnable _ | .resetFile _ | .move _ _ _ =>
      isTrue trivial

/-- The end of the segment that is printed raises the error that ends the print. -/
def RaisesEnd (upper : String → String) (s : ExcludeObject K × Segments) (gcmd : GCodeCommand)
    (name : String) : Prop :=
  s.2.current = some name ∧ (gcmd.param "NAME").map upper = some name ∧
    (s.1.cmdEnd upper gcmd).raised = some (.error "exclude_object over")

/-- The objects of a file take turns: where one of them has more than three segments, each
object that comes later has had one too. -/
def TakesTurns (segments : List String) : Prop :=
  ∀ before among after name, segments = before ++ among ++ after →
    objectStartDiff < among.count name → ∀ m ∈ after, m ∈ among

/-! ## The counts -/

/-- The counts are of segments since some point of the print, all of which are of
excluded objects. -/
structure CountsEnds (s : ExcludeObject K × Segments) : Prop where
  counted : ∃ before among, s.2.ended = before ++ among ∧
    (∀ m ∈ among, m ∈ s.1.excludedObjects) ∧
    ∀ c ∈ s.1.objectEndCount, c.2 ≤ among.count c.1
  current : ∀ name, s.2.current = some name →
    s.1.currentObject = some name ∧
      (s.1.isExcludedObject = true → name ∈ s.1.excludedObjects)

theorem mem_setCount {counts : List (String × Nat)} {name : String} {n : Nat}
    {c : String × Nat} (h : c ∈ setCount counts name n) : c = (name, n) ∨ c ∈ counts := by
  rw [setCount] at h
  split at h
  · obtain ⟨d, hd, hc⟩ := List.mem_map.mp h
    split at hc
    · exact .inl hc.symm
    · exact .inr (hc ▸ hd)
  · obtain hc | hc := List.mem_append.mp h
    · exact .inr hc
    · exact .inl (List.mem_singleton.mp hc)

theorem count_le_of_mem_setCount {counts : List (String × Nat)} {among : List String}
    {name : String} (hcounts : ∀ c ∈ counts, c.2 ≤ among.count c.1) {c : String × Nat}
    (h : c ∈ setCount counts name ((counts.lookup name).getD 0 + 1)) :
    c.2 ≤ (among ++ [name]).count c.1 := by
  rw [List.count_append]
  obtain rfl | hc := mem_setCount h
  · rw [List.count_singleton_self]
    cases hlookup : counts.lookup name with
    | none => exact Nat.le_add_left _ _
    | some n =>
      have hmem : (name, n) ∈ counts := by
        obtain ⟨l₁, l₂, rfl, -⟩ := List.lookup_eq_some_iff.mp hlookup
        exact List.mem_append_right l₁ List.mem_cons_self
      exact Nat.add_le_add_right (hcounts _ hmem) 1
  · exact (hcounts c hc).trans (Nat.le_add_right _ _)

theorem CountsEnds.grow {o o' : ExcludeObject K} {seg : Segments} (hs : CountsEnds (o, seg))
    (hcounts : ∀ c ∈ o'.objectEndCount, c ∈ o.objectEndCount ∨ c.2 = 0)
    (hexcluded : o.excludedObjects ⊆ o'.excludedObjects)
    (hcurrent : o'.currentObject = o.currentObject)
    (hflag : o'.isExcludedObject = o.isExcludedObject) : CountsEnds (o', seg) := by
  obtain ⟨before, among, hended, hamong, hcounted⟩ := hs.counted
  refine ⟨⟨before, among, hended, fun m hm => hexcluded (hamong m hm), fun c hc => ?_⟩, ?_⟩
  · obtain hc | hzero := hcounts c hc
    · exact hcounted c hc
    · exact hzero ▸ Nat.zero_le _
  · intro name hname
    obtain ⟨hobject, hexcl⟩ := hs.current name hname
    exact ⟨hcurrent.trans hobject, fun h => hexcluded (hexcl (hflag ▸ h))⟩

theorem addObjectDefinition_counts {o : ExcludeObject K} {name : String} {c : String × Nat}
    (h : c ∈ (o.addObjectDefinition name).objectEndCount) : c ∈ o.objectEndCount ∨ c.2 = 0 := by
  obtain rfl | hc := mem_setCount h
  · exact .inr rfl
  · exact .inl hc

theorem start_countsEnds {o : ExcludeObject K} {seg : Segments} (hs : CountsEnds (o, seg))
    {gcmd : GCodeCommand} {text : String} (hname : gcmd.param "NAME" = some text) :
    CountsEnds ((o.cmdStart upper gcmd).state, { seg with current := some (upper text) }) := by
  obtain ⟨before, among, hended, hamong, hcounted⟩ := hs.counted
  obtain ⟨o', ho', hstate⟩ := cmdStart_state upper o hname
  have hexcluded : o'.excludedObjects = o.excludedObjects := by
    obtain rfl | rfl := ho' <;> rfl
  have hcounts : ∀ c ∈ o'.objectEndCount, c ∈ o.objectEndCount ∨ c.2 = 0 := by
    intro c hc
    obtain rfl | rfl := ho'
    · exact .inl hc
    · exact addObjectDefinition_counts hc
  rw [hstate]
  refine ⟨⟨before, among, hended, fun m hm => ?_, fun c hc => ?_⟩, ?_⟩
  · show m ∈ o'.excludedObjects
    rw [hexcluded]
    exact hamong m hm
  · obtain hc | hzero := hcounts c hc
    · exact hcounted c hc
    · exact hzero ▸ Nat.zero_le _
  · rintro name ⟨⟩
    exact ⟨rfl, fun h => of_decide_eq_true h⟩

/-- The test of a move looks at the count of moves of a flagged object only. -/
theorem testInExcludedRegionForMove_cases (o : ExcludeObject K) :
    o.testInExcludedRegionForMove = .ok false ∨
    (o.isExcludedObject = true ∧ o.testInExcludedRegionForMove = .ok true) ∨
    (o.isExcludedObject = true ∧
      o.testInExcludedRegionForMove = .error (.exception "initial_extrusion_moves")) := by
  rw [testInExcludedRegionForMove]
  cases o.isExcludedObject with
  | false => exact .inl rfl
  | true =>
    cases o.transform with
    | none => exact .inr (.inr ⟨rfl, rfl⟩)
    | some tr =>
      cases hzero : decide (tr.initialExtrusionMoves = 0) with
      | false =>
        left
        dsimp only
        rw [hzero]
        rfl
      | true =>
        refine .inr (.inl ⟨rfl, ?_⟩)
        dsimp only
        rw [hzero]
        rfl

/-- What the end of the current object does: the counts go to 0, or its object is flagged
and counted, or it is flagged and nothing is counted. -/
theorem cmdEnd_cases {o : ExcludeObject K} {gcmd : GCodeCommand} {text : String}
    (hname : gcmd.param "NAME" = some text) (hobject : o.currentObject = some (upper text)) :
    ((o.cmdEnd upper gcmd).state.objectEndCount = o.objectEndCount.map (fun c => (c.1, 0)) ∧
      (o.cmdEnd upper gcmd).raised = none) ∨
    (o.isExcludedObject = true ∧ (o.cmdEnd upper gcmd).state.objectEndCount =
        setCount o.objectEndCount (upper text)
          ((o.objectEndCount.lookup (upper text)).getD 0 + 1) ∧
      ((o.cmdEnd upper gcmd).raised = some (.error "exclude_object over") →
        ∃ c ∈ (o.cmdEnd upper gcmd).state.objectEndCount, objectStartDiff < c.2)) ∨
    (o.isExcludedObject = true ∧ (o.cmdEnd upper gcmd).state.objectEndCount = o.objectEndCount ∧
      (o.cmdEnd upper gcmd).raised = some (.exception "initial_extrusion_moves")) := by
  have hcurrent : ¬ (o.currentObject = none ∧ o.nextTransform = true) := by
    rw [hobject]
    exact fun h => nomatch h.1
  rw [cmdEnd, if_neg hcurrent, hname, Option.map_some]
  dsimp only
  obtain htest | ⟨hflag, htest⟩ | ⟨hflag, htest⟩ :=
    testInExcludedRegionForMove_cases { o with currentObject := none }
  · rw [htest]
    exact .inl ⟨rfl, rfl⟩
  · rw [htest]
    refine .inr (.inl ⟨hflag, rfl, fun hraised => ?_⟩)
    dsimp only [countEnd] at hraised ⊢
    split at hraised
    · rename_i hcount
      obtain ⟨c, hc, hlt⟩ := List.any_eq_true.mp hcount
      exact ⟨c, hc, of_decide_eq_true hlt⟩
    · cases hraised
  · rw [htest]
    exact .inr (.inr ⟨hflag, rfl, rfl⟩)

/-- The segment that ends is counted, or the count starts again. -/
theorem cmdEnd_counted {o : ExcludeObject K} {seg : Segments} (hs : CountsEnds (o, seg))
    {gcmd : GCodeCommand} {text : String} (hname : gcmd.param "NAME" = some text)
    (hcurrent : seg.current = some (upper text)) :
    ∃ before among, seg.ended ++ [upper text] = before ++ among ∧
      (∀ m ∈ among, m ∈ o.excludedObjects) ∧
      ∀ c ∈ (o.cmdEnd upper gcmd).state.objectEndCount, c.2 ≤ among.count c.1 := by
  obtain ⟨before, among, hended, hamong, hcounted⟩ := hs.counted
  dsimp only at hended hamong hcounted
  obtain ⟨hobject, hexcl⟩ := hs.current _ hcurrent
  have hone : seg.ended ++ [upper text] = before ++ (among ++ [upper text]) := by
    rw [hended, List.append_assoc]
  have hamong' (hflag : o.isExcludedObject = true) :
      ∀ m ∈ among ++ [upper text], m ∈ o.excludedObjects := by
    intro m hm
    obtain hm | hm := List.mem_append.mp hm
    · exact hamong m hm
    · exact List.mem_singleton.mp hm ▸ hexcl hflag
  obtain ⟨hzero, -⟩ | ⟨hflag, hcount, -⟩ | ⟨hflag, hsame, -⟩ := cmdEnd_cases hname hobject
  · refine ⟨seg.ended ++ [upper text], [], (List.append_nil _).symm, List.forall_mem_nil _, ?_⟩
    rw [hzero]
    intro c hc
    obtain ⟨d, -, rfl⟩ := List.mem_map.mp hc
    exact Nat.zero_le _
  · refine ⟨before, among ++ [upper text], hone, hamong' hflag, ?_⟩
    rw [hcount]
    exact fun c hc => count_le_of_mem_setCount hcounted hc
  · refine ⟨before, among ++ [upper text], hone, hamong' hflag, ?_⟩
    rw [hsame]
    intro c hc
    rw [List.count_append]
    exact (hcounted c hc).trans (Nat.le_add_right _ _)

theorem exists_count_of_raises {s : ExcludeObject K × Segments} (hs : CountsEnds s)
    {gcmd : GCodeCommand} {name : String} (h : RaisesEnd upper s gcmd name) :
    ∃ c ∈ (s.1.cmdEnd upper gcmd).state.objectEndCount, objectStartDiff < c.2 := by
  obtain ⟨o, seg⟩ := s
  obtain ⟨hcurrent, hparam, hraised⟩ := h
  obtain ⟨text, hname, rfl⟩ := Option.map_eq_some_iff.mp hparam
  obtain ⟨hobject, -⟩ := hs.current _ hcurrent
  dsimp only at hraised hobject ⊢
  obtain ⟨-, hnone⟩ | ⟨-, -, hcount⟩ | ⟨-, -, hother⟩ := cmdEnd_cases hname hobject
  · cases hraised.symm.trans hnone
  · exact hcount hraised
  · cases hraised.symm.trans hother

theorem define_countsEnds {o : ExcludeObject K} {seg : Segments} (hs : CountsEnds (o, seg))
    {gcmd : GCodeCommand} (hreset : given gcmd "RESET" = none) (ctx : ExcludeContext K) :
    CountsEnds ((o.cmdDefine upper ctx gcmd).state, seg) := by
  rw [cmdDefine, hreset]
  split
  · exact hs
  · cases (given gcmd "NAME").map upper with
    | none => exact hs
    | some name =>
      dsimp only
      split
      · exact hs.grow (fun c hc => .inl hc) (fun m hm => hm) rfl rfl
      · exact hs.grow (fun c hc => addObjectDefinition_counts hc) (fun m hm => hm) rfl rfl

variable [Field K]

theorem registerTransform_counts (o : ExcludeObject K) (ctx : ExcludeContext K) :
    (o.registerTransform ctx).objectEndCount = o.objectEndCount ∧
    (o.registerTransform ctx).isExcludedObject = o.isExcludedObject := by
  rw [registerTransform]
  split
  · exact ⟨rfl, rfl⟩
  · split <;> exact ⟨rfl, rfl⟩

theorem excludeObject_countsEnds {o : ExcludeObject K} {seg : Segments}
    (hs : CountsEnds (o, seg)) (ctx : ExcludeContext K) (name : String) :
    CountsEnds ((o.excludeObject upper ctx name).state, seg) := by
  obtain ⟨hcurrent, hexcluded⟩ := registerTransform_objects o ctx
  obtain ⟨hcounts, hflag⟩ := registerTransform_counts o ctx
  rw [excludeObject]
  dsimp only
  split
  · refine hs.grow (fun c hc => .inl (hcounts ▸ hc)) ?_ hcurrent hflag
    exact fun m hm => hexcluded.symm ▸ hm
  · refine hs.grow (fun c hc => .inl (hcounts ▸ hc)) ?_ hcurrent hflag
    intro m hm
    rw [hexcluded]
    exact mem_sorted.mpr (List.mem_append_left _ hm)

theorem exclude_countsEnds {o : ExcludeObject K} {seg : Segments} (hs : CountsEnds (o, seg))
    {gcmd : GCodeCommand} (hreset : given gcmd "RESET" = none) (ctx : ExcludeContext K) :
    CountsEnds ((o.cmdExclude upper ctx gcmd).state, seg) := by
  rw [cmdExclude, hreset]
  cases (given gcmd "NAME").map upper with
  | some name =>
    dsimp only
    split
    · exact hs
    · exact excludeObject_countsEnds hs ctx (upper name)
  | none =>
    cases given gcmd "CURRENT" with
    | none => exact hs
    | some current =>
      dsimp only
      split
      · exact hs
      · exact excludeObject_countsEnds hs ctx _

/-! ## One event -/

variable [LinearOrder K]

/-- One event of a print. -/
def PrintStep (upper : String → String) (s : ExcludeObject K × Segments) (e : ExcludeEvent K)
    (t : ExcludeObject K × Segments) : Prop :=
  t.1 = (s.1.handle upper e).state ∧ s.2.next upper e = some t.2

theorem move_counts (ctx : ExcludeContext K) (o : ExcludeObject K) (newpos : Position K)
    (speed : K) : (o.move ctx newpos speed).state.objectEndCount = o.objectEndCount := by
  rw [ExcludeObject.move]
  split
  · rfl
  · rfl
  · split <;> rfl
  · split <;> rfl

/-- Every event of a print that takes no object back keeps the invariant. -/
theorem printStep_countsEnds {s t : ExcludeObject K × Segments} {e : ExcludeEvent K}
    (hs : CountsEnds s) (h : PrintStep upper s e t) (hback : TakesNoneBack e) :
    CountsEnds t := by
  obtain ⟨o, seg⟩ := s
  obtain ⟨o', seg'⟩ := t
  obtain ⟨ho, hseg⟩ := h
  dsimp only at ho hseg
  cases e with
  | start gcmd =>
    obtain ⟨text, hname, rfl⟩ := Segments.next_start hseg
    exact ho ▸ start_countsEnds hs hname
  | finish gcmd =>
    obtain ⟨text, hname, hcurrent, rfl⟩ := Segments.next_finish hseg
    obtain ⟨-, hexcluded, -⟩ := cmdEnd_state upper o gcmd
    obtain ⟨before, among, hended, hamong, hcounted⟩ := cmdEnd_counted hs hname hcurrent
    rw [ho]
    refine ⟨⟨before, among, hended, fun m hm => ?_, hcounted⟩, fun name hname => nomatch hname⟩
    exact hexcluded.symm ▸ hamong m hm
  | exclude gcmd ctx =>
    cases hseg
    exact ho ▸ exclude_countsEnds hs hback ctx
  | define gcmd ctx =>
    obtain ⟨hreset, rfl⟩ := Segments.next_define hseg
    exact ho ▸ define_countsEnds hs hreset ctx
  | setEnable enable =>
    cases hseg
    rw [ho]
    exact hs.grow (fun c hc => .inl hc) (fun m hm => hm) rfl rfl
  | resetFile ctx => cases hseg
  | move newpos speed ctx =>
    cases hseg
    rw [ho, ExcludeObject.handle]
    split
    · have hsame := move_sameObjects ctx o newpos speed
      refine hs.grow (fun c hc => .inl ?_) ?_ hsame.current hsame.flag
      · exact move_counts ctx o newpos speed ▸ hc
      · exact fun m hm => hsame.excluded.symm ▸ hm
    · exact hs

/-! ## The end of the print -/

/-- In a print that starts with no ends counted and takes no object back, of a file whose
objects take turns, the error that ends the print is raised only when all objects that
come later in the file are excluded. -/
theorem raisesEnd_excluded (upper : String → String) {o : ExcludeObject K}
    (hstart : ∀ c ∈ o.objectEndCount, c.2 = 0) {es : List (ExcludeEvent K)}
    {t : ExcludeObject K × Segments}
    (hrun : Run (fun s e t => PrintStep upper s e t ∧ TakesNoneBack e) (o, ⟨[], none⟩) es t)
    {gcmd : GCodeCommand} {name : String} (hraises : RaisesEnd upper t gcmd name)
    {after : List String} (hturns : TakesTurns (t.2.ended ++ [name] ++ after)) :
    ∀ m ∈ after, m ∈ (t.1.cmdEnd upper gcmd).state.excludedObjects := by
  have hinit : CountsEnds (o, ⟨[], none⟩) := by
    refine ⟨⟨[], [], rfl, List.forall_mem_nil _, fun c hc => ?_⟩, fun name hname => nomatch hname⟩
    exact (hstart c hc).trans_le (Nat.zero_le _)
  have hs : CountsEnds t :=
    hrun.invariant hinit (fun _ _ _ hs h => printStep_countsEnds hs h.1 h.2)
  obtain ⟨c, hc, hlt⟩ := exists_count_of_raises hs hraises
  obtain ⟨hcurrent, hparam, -⟩ := hraises
  obtain ⟨text, hname, rfl⟩ := Option.map_eq_some_iff.mp hparam
  obtain ⟨before, among, hended, hamong, hcounted⟩ := cmdEnd_counted hs hname hcurrent
  obtain ⟨-, hexcluded, -⟩ := cmdEnd_state upper t.1 gcmd
  intro m hm
  rw [hexcluded]
  apply hamong
  exact hturns before among after c.1 (by rw [hended]) (hlt.trans_le (hcounted c hc)) m hm

/-- `PrintStep`, computed. -/
def printStep (upper : String → String) (s : ExcludeObject K × Segments) (e : ExcludeEvent K) :
    Option (ExcludeObject K × Segments) :=
  (s.2.next upper e).map fun seg => ((s.1.handle upper e).state, seg)

theorem printStep_eq_some {s t : ExcludeObject K × Segments} {e : ExcludeEvent K} :
    printStep upper s e = some t ↔ PrintStep upper s e t := by
  rw [printStep, Option.map_eq_some_iff]
  constructor
  · rintro ⟨seg, hseg, rfl⟩
    exact ⟨rfl, hseg⟩
  · rintro ⟨ho, hseg⟩
    exact ⟨t.2, hseg, Prod.ext ho.symm rfl⟩

def startA : GCodeCommand := ⟨"EXCLUDE_OBJECT_START NAME=A", [("NAME", "A")]⟩

def endA : GCodeCommand := ⟨"EXCLUDE_OBJECT_END NAME=A", [("NAME", "A")]⟩

/-- Exclude `A`, extrude five times, and print `A` up to the end of its fourth segment. -/
def fourSegments : List (ExcludeEvent ℚ) :=
  .exclude ⟨"EXCLUDE_OBJECT NAME=A", [("NAME", "A")]⟩ originContext ::
    [1, 2, 3, 4, 5].map (fun e => .move ![0, 0, 0, e] 100 originContext) ++
    [.start startA, .finish endA, .start startA, .finish endA, .start startA, .finish endA,
      .start startA]

theorem fourSegments_raises :
    ∃ t, Run (PrintStep id) ((.init, ⟨[], none⟩) : ExcludeObject ℚ × Segments) fourSegments t ∧
      RaisesEnd id t endA "A" ∧ t.2.ended = ["A", "A", "A"] ∧
      t.1.excludedObjects = ["A"] := by
  have hany : (fourSegments.foldlM (printStep id) (.init, ⟨[], none⟩)).any (fun t =>
      t.2.current = some "A" ∧
      (t.1.cmdEnd id endA).raised = some (.error "exclude_object over") ∧
      t.2.ended = ["A", "A", "A"] ∧ t.1.excludedObjects = ["A"]) = true := by
    decide +kernel
  obtain ⟨t, hrun, ht⟩ := Run.exists_of_any hany
  obtain ⟨hcurrent, hraised, hended, hexcluded⟩ := of_decide_eq_true ht
  exact ⟨t, hrun.mono (fun _ _ _ h => printStep_eq_some.mp h), ⟨hcurrent, rfl, hraised⟩, hended,
    hexcluded⟩

theorem takesTurns_replicate (n : Nat) (name : String) : TakesTurns (List.replicate n name) := by
  intro before among after name' hsplit hcount m hm
  have hall (m : String) (hm : m ∈ before ++ among ++ after) : m = name :=
    List.eq_of_mem_replicate (hsplit ▸ hm)
  have hmem : name' ∈ among := List.count_pos_iff.mp (Nat.zero_lt_of_lt hcount)
  have hname' : name' = name := hall name' (by simp [hmem])
  rw [hall m (by simp [hm]), ← hname']
  exact hmem

theorem raisesEnd_excluded_fourSegments :
    ∃ t : ExcludeObject ℚ × Segments, RaisesEnd id t endA "A" ∧
      ∀ m ∈ ["A"], m ∈ (t.1.cmdEnd id endA).state.excludedObjects := by
  obtain ⟨t, hrun, hraises, hended, -⟩ := fourSegments_raises
  have hback : ∀ e ∈ fourSegments, TakesNoneBack e := by decide +kernel
  refine ⟨t, hraises, raisesEnd_excluded id (List.forall_mem_nil _) (hrun.and_events hback)
    hraises ?_⟩
  rw [hended]
  exact takesTurns_replicate 5 "A"

/-- Of a file that prints one object after another, the objects after an excluded one are
left out. -/
theorem raisesEnd_object_left :
    ¬ ∀ (es : List (ExcludeEvent ℚ)) t gcmd name (after : List String),
      Run (PrintStep id) (.init, ⟨[], none⟩) es t → RaisesEnd id t gcmd name →
        ∀ m ∈ after, m ∈ (t.1.cmdEnd id gcmd).state.excludedObjects := by
  intro hall
  obtain ⟨t, hrun, hraises, -, hexcluded⟩ := fourSegments_raises
  have hB := hall _ t endA "A" ["B"] hrun hraises "B" List.mem_cons_self
  rw [(cmdEnd_state id t.1 endA).2.1, hexcluded] at hB
  exact absurd hB (by decide)

end FlsunT1.Klippy
