/-
  Klippy/ExcludePosition.lean --- where the move transform says the toolhead is.

  An account is kept beside the module: the last requested position, the E moved inside
  excluded regions and the retraction adjustments that were applied.  The transform's
  position is the requested one as long as no excluded region is entered while a shift
  of X, Y or Z is pending from the last one.
-/
import Mathlib.Data.Fintype.Pi
import Mathlib.Tactic.LinearCombination
import FlsunT1.Klippy.ExcludeMoves

set_option autoImplicit false

namespace FlsunT1.Klippy

open Library ExcludeObject

variable {K : Type} [Field K] [LinearOrder K] {upper : String → String} {extruder : String}

/-! ## The position of the transform -/

/-- `get_position`: the position, and the module that remembers it. -/
def ExcludeObject.getPosition (ctx : ExcludeContext K) (o : ExcludeObject K)
    (tr : ExcludeTransform K) : Position K × ExcludeObject K :=
  let pos : Position K := fun i => ctx.nextPosition i + extrusionOffset tr ctx.extruder i
  (pos, { o with transform := some { tr with lastPosition := pos } })

/-- A move is inside an excluded region. -/
def ExcludeObject.insideExcluded {K : Type} (o : ExcludeObject K) : Bool :=
  o.nextTransform && o.isExcludedObject && o.transform.any (·.initialExtrusionMoves = 0)

/-- The module in or out of an excluded region. -/
def ExcludeObject.withRegion {K : Type} (region : Bool) (o : ExcludeObject K) : ExcludeObject K :=
  { o with inExcludedRegion := region }

/-- The adjustment that is pending when a move is printed. -/
def ExcludeObject.pendingAdjustment {K : Type} [Field K] (o : ExcludeObject K)
    (tr : ExcludeTransform K) : K :=
  if o.inExcludedRegion then
    tr.maxPositionExcluded - o.lastPositionExcluded 3 -
      (tr.maxPositionExtruded - o.lastPositionExtruded 3)
  else tr.extruderAdj

/-- The adjustment that a printed move applies: the pending one, on the first move of E, or
of X and Y with a shift, away from the last excluded position. -/
def appliedAdjustment (offset : Position K) (adj : K) (newpos excluded : Position K) : K :=
  if ((offset 0 ≠ 0 ∨ offset 1 ≠ 0) ∧ (newpos 0 ≠ excluded 0 ∨ newpos 1 ≠ excluded 1)) ∨
      newpos 3 ≠ excluded 3 then adj
  else 0

omit [LinearOrder K] in
theorem clearZ_extruder (offset : Position K) (p : Prop) [Decidable p] :
    (if p then Function.update offset 2 0 else offset) 3 = offset 3 := by
  split
  · exact Function.update_of_ne (by decide : (3 : Fin 4) ≠ 2) 0 offset
  · rfl

/-- The corrections of a printed move change the offset of E by the adjustment it applies. -/
theorem correctOffset_extruder (offset : Position K) (adj : K) (newpos excluded : Position K) :
    (correctOffset offset adj newpos excluded).1 3 =
      offset 3 + appliedAdjustment offset adj newpos excluded := by
  unfold correctOffset appliedAdjustment
  by_cases hxy : (offset 0 ≠ 0 ∨ offset 1 ≠ 0) ∧ (newpos 0 ≠ excluded 0 ∨ newpos 1 ≠ excluded 1)
  · rw [if_pos hxy, if_pos (Or.inl hxy)]
    dsimp only
    rw [if_neg fun h : (0 : K) ≠ 0 ∧ newpos 3 ≠ excluded 3 => h.1 rfl]
    exact clearZ_extruder _ _
  · rw [if_neg hxy]
    dsimp only
    by_cases he : adj ≠ 0 ∧ newpos 3 ≠ excluded 3
    · rw [if_pos he, if_pos (Or.inr he.2)]
      dsimp only
      rw [Function.update_self, clearZ_extruder]
    · rw [if_neg he]
      dsimp only
      rw [clearZ_extruder]
      split
      · rename_i happlied
        have hadj : adj = 0 := by
          by_contra hne
          exact he ⟨hne, happlied.resolve_left hxy⟩
        rw [hadj, add_zero]
      · exact (add_zero _).symm

/-! ## Runs -/

/-- The module, the position of the transform under it, and the account of the moves. -/
structure ExcludeRun (K : Type) where
  exclude : ExcludeObject K
  toolhead : Position K
  requested : Position K
  excludedE : K
  adjustments : K

/-- What happens in a run: an event of the module, or a call of `get_position`. -/
inductive ExcludeCall (K : Type)
  | event (e : ExcludeEvent K)
  | getPosition

/-- Where the moves of a handler leave the toolhead. -/
def movedTo {K : Type} (pos : Position K) : List (ExcludeAction K) → Position K
  | [] => pos
  | .move newpos _ :: l => movedTo newpos l
  | _ :: l => movedTo pos l

namespace ExcludeRun

/-- Before the first object is excluded. -/
def init (pos : Position K) : ExcludeRun K := ⟨ExcludeObject.init, pos, pos, 0, 0⟩

/-- The offsets of the extruder, while the module is the move transform. -/
def offset (extruder : String) (w : ExcludeRun K) : Position K :=
  if w.exclude.nextTransform then
    (w.exclude.transform.map fun tr => extrusionOffset tr extruder).getD 0
  else 0

/-- The position that `get_position` of the move transform gives. -/
def position (extruder : String) (w : ExcludeRun K) : Position K :=
  fun i => w.toolhead i + w.offset extruder i

/-- The account of a requested move. -/
def request (extruder : String) (w : ExcludeRun K) (newpos : Position K) : ExcludeRun K :=
  if ¬ w.exclude.nextTransform then { w with requested := newpos }
  else if w.exclude.insideExcluded then
    { w with requested := newpos, excludedE := w.excludedE + (newpos 3 - w.requested 3) }
  else
    match w.exclude.transform with
    | none => { w with requested := newpos }
    | some tr =>
      { w with
        requested := newpos
        adjustments := w.adjustments + appliedAdjustment (extrusionOffset tr extruder)
          (w.exclude.pendingAdjustment tr) newpos w.exclude.lastPositionExcluded }

/-- The module and the toolhead after an event. -/
def settle (upper : String → String) (w : ExcludeRun K) (e : ExcludeEvent K) : ExcludeRun K :=
  { w with
    exclude := (w.exclude.handle upper e).state
    toolhead := movedTo w.toolhead (w.exclude.handle upper e).actions }

/-- One call. -/
def next (upper : String → String) (extruder : String) (w : ExcludeRun K) :
    ExcludeCall K → ExcludeRun K
  | .event (.move newpos speed ctx) =>
      let account := w.request extruder newpos
      { w.settle upper (.move newpos speed ctx) with
        requested := account.requested
        excludedE := account.excludedE
        adjustments := account.adjustments }
  | .event e => w.settle upper e
  | .getPosition =>
      match w.exclude.nextTransform, w.exclude.transform with
      | true, some tr =>
          { w with exclude := (w.exclude.getPosition ⟨false, extruder, w.toolhead⟩ tr).2 }
      | _, _ => w

/-- The calls of a run: they read the extruder and the toolhead of the run, and the file is
not reset, which ends it. -/
def Admissible (extruder : String) (w : ExcludeRun K) : ExcludeCall K → Prop
  | .event (.exclude _ ctx) | .event (.move _ _ ctx) =>
      ctx.extruder = extruder ∧ ctx.nextPosition = w.toolhead
  | .event (.define gcmd _) => ¬ (w.exclude.excludeEnabled = true ∧ (given gcmd "RESET").isSome)
  | .event (.resetFile _) => False
  | .event (.start _) | .event (.finish _) | .event (.setEnable _) | .getPosition => True

instance (extruder : String) (w : ExcludeRun K) (e : ExcludeCall K) :
    Decidable (w.Admissible extruder e) :=
  match e with
  | .event (.exclude _ ctx) | .event (.move _ _ ctx) =>
      inferInstanceAs (Decidable (ctx.extruder = extruder ∧ ctx.nextPosition = w.toolhead))
  | .event (.define gcmd _) =>
      inferInstanceAs (Decidable (¬ (w.exclude.excludeEnabled = true ∧
        (given gcmd "RESET").isSome)))
  | .event (.resetFile _) => .isFalse id
  | .event (.start _) | .event (.finish _) | .event (.setEnable _) | .getPosition =>
      .isTrue trivial

/-- A call is a move inside an excluded region. -/
def IsExcludedMove (w : ExcludeRun K) : ExcludeCall K → Prop
  | .event (.move _ _ _) => w.exclude.insideExcluded = true
  | _ => False

/-- What a call has to leave: the position of the transform is the requested one, a move in
an excluded region has not moved the toolhead, and the E of the toolhead is accounted for. -/
structure Consistent (extruder : String) (w : ExcludeRun K) (e : ExcludeCall K)
    (w' : ExcludeRun K) : Prop where
  position : w'.position extruder = w'.requested
  still : w.IsExcludedMove e → w'.toolhead = w.toolhead
  extruderE : w'.toolhead 3 = w'.requested 3 - w'.excludedE - w'.adjustments

/-- The condition on a call: a move that enters an excluded region finds no shift of X, Y or
Z pending. -/
def EntersAligned (extruder : String) (w : ExcludeRun K) : ExcludeCall K → Prop
  | .event (.move _ _ _) =>
      w.exclude.insideExcluded = true → w.exclude.inExcludedRegion = false →
        ∀ i, i ≠ 3 → w.offset extruder i = 0
  | _ => True

end ExcludeRun

/-! ## What the commands leave alone -/

/-- The fields that the moves use. -/
structure KeepsTransform (o o' : ExcludeObject K) : Prop where
  nextTransform : o'.nextTransform = o.nextTransform
  transform : o'.transform = o.transform
  extruded : o'.lastPositionExtruded = o.lastPositionExtruded
  region : o'.inExcludedRegion = o.inExcludedRegion

/-- A handler that keeps the transform and moves nothing. -/
structure LeavesMoves (o : ExcludeObject K) (r : ExcludeOutcome K) : Prop where
  keeps : KeepsTransform o r.state
  still : ∀ pos, movedTo pos r.actions = pos

section Commands

omit [Field K] [LinearOrder K]

variable {o : ExcludeObject K}

theorem KeepsTransform.written {o' : ExcludeObject K} (h : KeepsTransform o o')
    {current : Option String} {flag : Bool} :
    KeepsTransform o { o' with currentObject := current, isExcludedObject := flag } :=
  ⟨h.nextTransform, h.transform, h.extruded, h.region⟩

theorem cmdStart_leavesMoves (gcmd : GCodeCommand) : LeavesMoves o (o.cmdStart upper gcmd) := by
  unfold cmdStart
  split
  · exact ⟨⟨rfl, rfl, rfl, rfl⟩, fun _ => rfl⟩
  · rename_i text _
    dsimp only
    have hobject : KeepsTransform o
        (if upper text ∈ o.objects then o else o.addObjectDefinition (upper text)) := by
      split <;> exact ⟨rfl, rfl, rfl, rfl⟩
    generalize (if upper text ∈ o.objects then o else o.addObjectDefinition (upper text)) = o'
      at hobject
    rw [testInExcludedRegion]
    dsimp only
    split
    · rename_i htest
      obtain ⟨rfl, -⟩ := Prod.mk.inj htest
      exact ⟨hobject.written, fun _ => rfl⟩
    · rename_i excluded htest
      obtain ⟨rfl, -⟩ := Prod.mk.inj htest
      refine ⟨hobject.written, fun _ => ?_⟩
      cases excluded <;> rfl

theorem cmdEnd_leavesMoves (gcmd : GCodeCommand) : LeavesMoves o (o.cmdEnd upper gcmd) := by
  unfold cmdEnd
  split
  · exact ⟨⟨rfl, rfl, rfl, rfl⟩, fun _ => rfl⟩
  · dsimp only
    cases (gcmd.param "NAME").map upper with
    | none => split <;> exact ⟨⟨rfl, rfl, rfl, rfl⟩, fun _ => rfl⟩
    | some n =>
      by_cases hcurrent : o.currentObject = some n
      · simp only [if_pos hcurrent]
        split <;> exact ⟨⟨rfl, rfl, rfl, rfl⟩, fun _ => rfl⟩
      · simp only [if_neg hcurrent]
        split <;> exact ⟨⟨rfl, rfl, rfl, rfl⟩, fun _ => rfl⟩

theorem unexcludeObject_leavesMoves (name : String) :
    LeavesMoves o (o.unexcludeObject upper name) := by
  unfold unexcludeObject
  split <;> exact ⟨⟨rfl, rfl, rfl, rfl⟩, fun _ => rfl⟩

theorem setExcludeEnable_leavesMoves (enable : Int) :
    LeavesMoves o (o.setExcludeEnable enable) :=
  ⟨⟨rfl, rfl, rfl, rfl⟩, fun _ => rfl⟩

end Commands

section Register

variable {o : ExcludeObject K} {ctx : ExcludeContext K}

/-- A handler that first may load the transform. -/
def LeavesRegistered (ctx : ExcludeContext K) (o : ExcludeObject K) (r : ExcludeOutcome K) :
    Prop :=
  LeavesMoves o r ∨ LeavesMoves (o.registerTransform ctx) r

omit [LinearOrder K] in
theorem excludeObject_leavesMoves (name : String) :
    LeavesMoves (o.registerTransform ctx) (o.excludeObject upper ctx name) := by
  unfold excludeObject
  dsimp only
  split
  · exact ⟨⟨rfl, rfl, rfl, rfl⟩, fun _ => rfl⟩
  · exact ⟨⟨rfl, rfl, rfl, rfl⟩, fun _ => rfl⟩

omit [LinearOrder K] in
theorem cmdExclude_leavesMoves (gcmd : GCodeCommand) :
    LeavesRegistered ctx o (o.cmdExclude upper ctx gcmd) := by
  unfold cmdExclude
  split
  · exact .inl (unexcludeObject_leavesMoves _)
  · exact .inl ⟨⟨rfl, rfl, rfl, rfl⟩, fun _ => rfl⟩
  · split
    · exact .inl ⟨⟨rfl, rfl, rfl, rfl⟩, fun _ => rfl⟩
    · exact .inr (excludeObject_leavesMoves _)
  · split
    · exact .inl ⟨⟨rfl, rfl, rfl, rfl⟩, fun _ => rfl⟩
    · exact .inr (excludeObject_leavesMoves _)
  · exact .inl ⟨⟨rfl, rfl, rfl, rfl⟩, fun _ => rfl⟩

omit [Field K] [LinearOrder K] in
theorem cmdDefine_leavesMoves {gcmd : GCodeCommand}
    (h : ¬ (o.excludeEnabled = true ∧ (given gcmd "RESET").isSome)) :
    LeavesMoves o (o.cmdDefine upper ctx gcmd) := by
  unfold cmdDefine
  split
  · exact ⟨⟨rfl, rfl, rfl, rfl⟩, fun _ => rfl⟩
  · rename_i henabled
    split
    · rename_i hreset
      refine absurd ⟨not_not.mp henabled, ?_⟩ h
      rw [hreset]
      rfl
    · split <;> exact ⟨⟨rfl, rfl, rfl, rfl⟩, fun _ => rfl⟩
    · exact ⟨⟨rfl, rfl, rfl, rfl⟩, fun _ => rfl⟩

end Register

/-! ## What a move does -/

section Move

variable {o : ExcludeObject K} {tr : ExcludeTransform K} {ctx : ExcludeContext K}

omit [Field K] [LinearOrder K] in
theorem insideExcluded_eq (hnext : o.nextTransform = true) (htr : o.transform = some tr) :
    o.insideExcluded = (o.isExcludedObject && decide (tr.initialExtrusionMoves = 0)) := by
  rw [ExcludeObject.insideExcluded, hnext, htr, Bool.true_and]
  rfl

omit [Field K] [LinearOrder K] in
theorem test_eq_insideExcluded (hnext : o.nextTransform = true) (htr : o.transform = some tr) :
    o.testInExcludedRegionForMove = .ok o.insideExcluded := by
  rw [insideExcluded_eq hnext htr, testInExcludedRegionForMove, htr]
  cases o.isExcludedObject <;> rfl

omit [Field K] [LinearOrder K] in
theorem withRegion_of_eq {region : Bool} (h : o.inExcludedRegion = region) :
    o.withRegion region = o := by
  rw [ExcludeObject.withRegion, ← h]

theorem move_inside (hnext : o.nextTransform = true) (htr : o.transform = some tr)
    (hin : o.insideExcluded = true) (newpos : Position K) (speed : K) :
    o.move ctx newpos speed = ignoreMove ctx (o.withRegion true) tr newpos := by
  have htest := hin ▸ test_eq_insideExcluded hnext htr
  conv_lhs =>
    unfold ExcludeObject.move
    simp only [htr, htest]
  split
  · rename_i hregion
    rw [withRegion_of_eq hregion]
  · rfl

theorem move_outside (hnext : o.nextTransform = true) (htr : o.transform = some tr)
    (hout : o.insideExcluded = false) (newpos : Position K) (speed : K) :
    o.move ctx newpos speed =
      normalMove ctx (o.withRegion false)
        { tr with extruderAdj := o.pendingAdjustment tr } newpos speed := by
  have htest := hout ▸ test_eq_insideExcluded hnext htr
  conv_lhs =>
    unfold ExcludeObject.move
    simp only [htr, htest]
  unfold pendingAdjustment
  split
  · rfl
  · rename_i hregion
    rw [withRegion_of_eq (Bool.eq_false_of_not_eq_true hregion)]

omit [LinearOrder K] in
theorem extrusionOffset_setOffset (offset : Position K) :
    extrusionOffset (setOffset tr extruder offset) extruder = offset := by
  unfold extrusionOffset setOffset
  dsimp only
  rw [Function.update_self, Option.getD_some]

end Move

/-! ## The invariant -/

/-- What the calls keep: the transform's position is the requested one, and the toolhead
stands where the last printed move left it. -/
structure Tracking (extruder : String) (w : ExcludeRun K) : Prop where
  loaded : w.exclude.nextTransform = true → ∃ tr, w.exclude.transform = some tr
  outside : w.exclude.nextTransform = false → w.exclude.inExcludedRegion = false
  position : w.position extruder = w.requested
  last : w.exclude.nextTransform = true → ∀ tr, w.exclude.transform = some tr →
    tr.lastPosition 3 = w.requested 3
  held : w.exclude.nextTransform = true → ∀ i, i ≠ 3 →
    w.toolhead i = w.exclude.lastPositionExtruded i -
      if w.exclude.inExcludedRegion then 0 else w.offset extruder i
  extruderE : w.toolhead 3 = w.requested 3 - w.excludedE - w.adjustments

namespace ExcludeRun

variable {w : ExcludeRun K} {tr : ExcludeTransform K}

omit [LinearOrder K] in
theorem position_apply (i : Fin 4) :
    w.position extruder i = w.toolhead i + w.offset extruder i := rfl

omit [LinearOrder K] in
theorem offset_of_loaded (hnext : w.exclude.nextTransform = true)
    (htr : w.exclude.transform = some tr) : w.offset extruder = extrusionOffset tr extruder := by
  rw [offset, if_pos hnext, htr, Option.map_some, Option.getD_some]

omit [LinearOrder K] in
theorem offset_of_unloaded (hnext : w.exclude.nextTransform = false) :
    w.offset extruder = 0 :=
  if_neg (Bool.eq_false_iff.mp hnext)

omit [LinearOrder K] in
theorem init_tracking (pos : Position K) : Tracking extruder (init pos) where
  loaded h := absurd h Bool.false_ne_true
  outside _ := rfl
  position := funext fun i => add_zero (pos i)
  last h := absurd h Bool.false_ne_true
  held h := absurd h Bool.false_ne_true
  extruderE := by simp only [init, sub_zero]

end ExcludeRun

omit [LinearOrder K] in
theorem Tracking.of_leavesMoves {w : ExcludeRun K} (h : Tracking extruder w)
    {r : ExcludeOutcome K} (hr : LeavesMoves w.exclude r) :
    Tracking extruder
      { w with exclude := r.state, toolhead := movedTo w.toolhead r.actions } := by
  rw [hr.still]
  have hoffset : ({ w with exclude := r.state } : ExcludeRun K).offset extruder =
      w.offset extruder := by
    unfold ExcludeRun.offset
    rw [hr.keeps.nextTransform, hr.keeps.transform]
  refine ⟨?_, ?_, ?_, ?_, ?_, h.extruderE⟩
  · rw [hr.keeps.nextTransform, hr.keeps.transform]
    exact h.loaded
  · rw [hr.keeps.nextTransform, hr.keeps.region]
    exact h.outside
  · refine Eq.trans (funext fun i => ?_) h.position
    rw [ExcludeRun.position_apply, hoffset, ExcludeRun.position_apply]
  · rw [hr.keeps.nextTransform, hr.keeps.transform]
    exact h.last
  · rw [hoffset, hr.keeps.nextTransform, hr.keeps.extruded, hr.keeps.region]
    exact h.held

omit [LinearOrder K] in
theorem Tracking.requested_of_unloaded {w : ExcludeRun K} (h : Tracking extruder w)
    (hnext : w.exclude.nextTransform = false) : w.requested = w.toolhead := by
  rw [← h.position]
  funext i
  rw [ExcludeRun.position_apply, ExcludeRun.offset_of_unloaded hnext]
  exact add_zero _

omit [LinearOrder K] in
/-- Loading the transform keeps the invariant: it starts where the toolhead is. -/
theorem Tracking.registerTransform {w : ExcludeRun K} (h : Tracking extruder w)
    {ctx : ExcludeContext K} (hextruder : ctx.extruder = extruder)
    (hpos : ctx.nextPosition = w.toolhead) :
    Tracking extruder { w with exclude := w.exclude.registerTransform ctx } := by
  unfold ExcludeObject.registerTransform
  split
  · exact h
  · rename_i hnext
    split
    · exact h
    · have hunloaded := Bool.eq_false_of_not_eq_true hnext
      have hrequested := h.requested_of_unloaded hunloaded
      have hzero : ∀ tr : ExcludeTransform K,
          tr.extrusionOffsets = Function.update (fun _ => none) ctx.extruder (some 0) →
          extrusionOffset tr extruder = 0 := by
        intro tr htr
        rw [extrusionOffset, htr, hextruder, Function.update_self, Option.getD_some]
      refine ⟨fun _ => ⟨_, rfl⟩, fun hfalse => absurd hfalse (Ne.symm Bool.false_ne_true), ?_, ?_,
        ?_, h.extruderE⟩
      · funext i
        rw [ExcludeRun.position_apply, ExcludeRun.offset_of_loaded rfl rfl, hzero _ rfl]
        exact (add_zero _).trans (congrFun hrequested i).symm
      · intro _ tr htr
        rw [← Option.some_inj.mp htr]
        exact (congrFun hpos 3).trans (congrFun hrequested 3).symm
      · intro _ i _
        rw [ExcludeRun.offset_of_loaded rfl rfl, hzero _ rfl]
        dsimp only
        rw [h.outside hunloaded, if_neg Bool.false_ne_true, hpos]
        exact (sub_zero _).symm

/-! ## One call -/

section Step

variable {w : ExcludeRun K} {tr : ExcludeTransform K} {ctx : ExcludeContext K}

theorem next_unloaded (hnext : w.exclude.nextTransform = false) (newpos : Position K) (speed : K) :
    w.next upper extruder (.event (.move newpos speed ctx)) =
      { w with toolhead := newpos, requested := newpos } := by
  unfold ExcludeRun.next ExcludeRun.settle ExcludeRun.request ExcludeObject.handle
  simp only [hnext, Bool.false_eq_true, not_false_eq_true, if_true, if_false]
  rfl

theorem next_inside (hnext : w.exclude.nextTransform = true)
    (htr : w.exclude.transform = some tr) (hin : w.exclude.insideExcluded = true)
    (newpos : Position K) (speed : K) :
    w.next upper extruder (.event (.move newpos speed ctx)) =
      { w with
        exclude := (ignoreMove ctx (w.exclude.withRegion true) tr newpos).state
        requested := newpos
        excludedE := w.excludedE + (newpos 3 - w.requested 3) } := by
  unfold ExcludeRun.next ExcludeRun.settle ExcludeRun.request ExcludeObject.handle
  simp only [hnext, hin, not_true_eq_false, if_true, if_false, move_inside hnext htr hin]
  rfl

theorem next_outside (hnext : w.exclude.nextTransform = true)
    (htr : w.exclude.transform = some tr) (hout : w.exclude.insideExcluded = false)
    (newpos : Position K) (speed : K) :
    let offset := (correctOffset (extrusionOffset tr ctx.extruder)
      (w.exclude.pendingAdjustment tr) newpos w.exclude.lastPositionExcluded).1
    w.next upper extruder (.event (.move newpos speed ctx)) =
      { exclude := (normalMove ctx (w.exclude.withRegion false)
          { tr with extruderAdj := w.exclude.pendingAdjustment tr } newpos speed).state
        toolhead := fun i => newpos i - offset i
        requested := newpos
        excludedE := w.excludedE
        adjustments := w.adjustments + appliedAdjustment (extrusionOffset tr extruder)
          (w.exclude.pendingAdjustment tr) newpos w.exclude.lastPositionExcluded } := by
  unfold ExcludeRun.next ExcludeRun.settle ExcludeRun.request ExcludeObject.handle
  simp only [hnext, htr, hout, not_true_eq_false, if_true, if_false, Bool.false_eq_true,
    move_outside hnext htr hout]
  rfl

omit [LinearOrder K] in
theorem Tracking.offset_extruder (h : Tracking extruder w) :
    w.offset extruder 3 = w.excludedE + w.adjustments := by
  have hpos := congrFun h.position 3
  rw [ExcludeRun.position_apply] at hpos
  linear_combination hpos - h.extruderE

/-- The transform is loaded, with these offsets, last positions and region. -/
structure LoadedAt (extruder : String) (w : ExcludeRun K) (offset last extruded : Position K)
    (region : Bool) : Prop where
  nextTransform : w.exclude.nextTransform = true
  transform : ∃ tr, w.exclude.transform = some tr ∧ extrusionOffset tr extruder = offset ∧
    tr.lastPosition = last
  extruded : w.exclude.lastPositionExtruded = extruded
  region : w.exclude.inExcludedRegion = region

omit [LinearOrder K] in
theorem LoadedAt.offset {offset last extruded : Position K} {region : Bool}
    (h : LoadedAt extruder w offset last extruded region) : w.offset extruder = offset := by
  obtain ⟨tr, htr, hoffset, -⟩ := h.transform
  rw [ExcludeRun.offset_of_loaded h.nextTransform htr, hoffset]

omit [LinearOrder K] in
theorem LoadedAt.tracking {offset last extruded : Position K} {region : Bool}
    (h : LoadedAt extruder w offset last extruded region)
    (hposition : ∀ i, w.toolhead i + offset i = w.requested i) (hlast : last = w.requested)
    (hheld : ∀ i, i ≠ 3 → w.toolhead i = extruded i - if region then 0 else offset i)
    (he : w.toolhead 3 = w.requested 3 - w.excludedE - w.adjustments) :
    Tracking extruder w := by
  obtain ⟨tr, htr, -, hposlast⟩ := h.transform
  refine ⟨fun _ => ⟨tr, htr⟩, fun hfalse => ?_, funext fun i => ?_, fun _ tr' htr' => ?_,
    fun _ i hi => ?_, he⟩
  · exact absurd (h.nextTransform.symm.trans hfalse) (Ne.symm Bool.false_ne_true)
  · rw [ExcludeRun.position_apply, h.offset]
    exact hposition i
  · rw [← Option.some_inj.mp (htr.symm.trans htr'), hposlast, hlast]
  · rw [h.extruded, h.region, h.offset]
    exact hheld i hi

theorem Tracking.unloaded_move (h : Tracking extruder w) (hnext : w.exclude.nextTransform = false)
    (newpos : Position K) (speed : K) :
    Tracking extruder (w.next upper extruder (.event (.move newpos speed ctx))) := by
  have hzero : w.offset extruder = 0 := ExcludeRun.offset_of_unloaded hnext
  have hsum : w.excludedE + w.adjustments = 0 := by
    rw [← h.offset_extruder, hzero]
    rfl
  have hnot : ¬ w.exclude.nextTransform = true := Bool.eq_false_iff.mp hnext
  rw [next_unloaded hnext]
  refine ⟨h.loaded, h.outside, ?_, fun hloaded => absurd hloaded hnot,
    fun hloaded => absurd hloaded hnot, ?_⟩
  · refine funext fun i => (congrArg (newpos i + ·) (congrFun hzero i)).trans ?_
    exact add_zero _
  · dsimp only
    linear_combination hsum

theorem loadedAt_inside (hnext : w.exclude.nextTransform = true)
    (htr : w.exclude.transform = some tr) (hin : w.exclude.insideExcluded = true)
    (hextruder : ctx.extruder = extruder) (newpos : Position K) (speed : K) :
    LoadedAt extruder (w.next upper extruder (.event (.move newpos speed ctx)))
      (fun i => if i = 3 then w.offset extruder 3 + newpos 3 - tr.lastPosition 3
        else newpos i - w.exclude.lastPositionExtruded i)
      newpos w.exclude.lastPositionExtruded true := by
  rw [next_inside hnext htr hin, ExcludeRun.offset_of_loaded hnext htr, ← hextruder]
  exact ⟨hnext, ⟨_, rfl, extrusionOffset_setOffset _, rfl⟩, rfl, rfl⟩

theorem loadedAt_outside (hnext : w.exclude.nextTransform = true)
    (htr : w.exclude.transform = some tr) (hout : w.exclude.insideExcluded = false)
    (hextruder : ctx.extruder = extruder) (newpos : Position K) (speed : K) :
    LoadedAt extruder (w.next upper extruder (.event (.move newpos speed ctx)))
      (correctOffset (w.offset extruder) (w.exclude.pendingAdjustment tr) newpos
        w.exclude.lastPositionExcluded).1 newpos newpos false := by
  rw [next_outside hnext htr hout, ExcludeRun.offset_of_loaded hnext htr, ← hextruder]
  exact ⟨hnext, ⟨_, rfl, extrusionOffset_setOffset _, rfl⟩, rfl, rfl⟩

/-- Inside an excluded region the position goes along with the requests, if the toolhead
stands where the last printed move was to end. -/
theorem Tracking.inside_move (h : Tracking extruder w) (hnext : w.exclude.nextTransform = true)
    (htr : w.exclude.transform = some tr) (hin : w.exclude.insideExcluded = true)
    (hextruder : ctx.extruder = extruder) (newpos : Position K) (speed : K)
    (haligned : w.exclude.inExcludedRegion = false → ∀ i, i ≠ 3 → w.offset extruder i = 0) :
    Tracking extruder (w.next upper extruder (.event (.move newpos speed ctx))) := by
  have hheld : ∀ i, i ≠ 3 → w.toolhead i = w.exclude.lastPositionExtruded i := by
    intro i hi
    rw [h.held hnext i hi]
    split
    · exact sub_zero _
    · rename_i hregion
      rw [haligned (Bool.eq_false_of_not_eq_true hregion) i hi, sub_zero]
  have hlast := h.last hnext tr htr
  have hposition := congrFun h.position 3
  rw [ExcludeRun.position_apply] at hposition
  refine (loadedAt_inside hnext htr hin hextruder newpos speed).tracking ?_ ?_ ?_ ?_
  · intro i
    rw [next_inside hnext htr hin]
    dsimp only
    split
    · rename_i hi
      subst hi
      linear_combination hposition - hlast
    · rename_i hi
      linear_combination hheld i hi
  · rw [next_inside hnext htr hin]
  · intro i hi
    rw [next_inside hnext htr hin]
    exact (hheld i hi).trans (sub_zero _).symm
  · rw [next_inside hnext htr hin]
    have he := h.extruderE
    dsimp only
    linear_combination he

theorem Tracking.outside_move (h : Tracking extruder w) (hnext : w.exclude.nextTransform = true)
    (htr : w.exclude.transform = some tr) (hout : w.exclude.insideExcluded = false)
    (hextruder : ctx.extruder = extruder) (newpos : Position K) (speed : K) :
    Tracking extruder (w.next upper extruder (.event (.move newpos speed ctx))) := by
  have hoffset : extrusionOffset tr ctx.extruder = w.offset extruder := by
    rw [ExcludeRun.offset_of_loaded hnext htr, hextruder]
  refine (loadedAt_outside hnext htr hout hextruder newpos speed).tracking ?_ ?_ ?_ ?_
  · intro i
    rw [next_outside hnext htr hout, hoffset]
    exact sub_add_cancel _ _
  · rw [next_outside hnext htr hout]
  · intro i _
    rw [next_outside hnext htr hout, hoffset]
    rfl
  · rw [next_outside hnext htr hout, hoffset]
    have hsum := h.offset_extruder
    dsimp only
    rw [correctOffset_extruder, ← hoffset, hextruder]
    rw [← hoffset, hextruder] at hsum
    linear_combination -hsum

theorem Tracking.getPosition (h : Tracking extruder w) :
    Tracking extruder (w.next upper extruder .getPosition) ∧
      (w.next upper extruder .getPosition).position extruder = w.requested := by
  cases hnext : w.exclude.nextTransform with
  | false =>
    have hsame : w.next upper extruder .getPosition = w := by
      unfold ExcludeRun.next
      rw [hnext]
    rw [hsame]
    exact ⟨h, h.position⟩
  | true =>
    obtain ⟨tr, htr⟩ := h.loaded hnext
    have hcall : w.next upper extruder .getPosition =
        { w with exclude := (w.exclude.getPosition ⟨false, extruder, w.toolhead⟩ tr).2 } := by
      unfold ExcludeRun.next
      rw [hnext, htr]
    have hread : w.position extruder =
        fun i => w.toolhead i + extrusionOffset tr extruder i := by
      funext i
      rw [ExcludeRun.position_apply, ExcludeRun.offset_of_loaded hnext htr]
    have hloadedAt : LoadedAt extruder (w.next upper extruder .getPosition) (w.offset extruder)
        (w.position extruder) w.exclude.lastPositionExtruded w.exclude.inExcludedRegion := by
      rw [hcall, hread, ExcludeRun.offset_of_loaded hnext htr]
      exact ⟨hnext, ⟨_, rfl, rfl, rfl⟩, rfl, rfl⟩
    have htracking : Tracking extruder (w.next upper extruder .getPosition) := by
      refine hloadedAt.tracking ?_ ?_ ?_ ?_
      · rw [hcall]
        exact congrFun h.position
      · rw [hcall]
        exact h.position
      · rw [hcall]
        exact h.held hnext
      · rw [hcall]
        exact h.extruderE
    refine ⟨htracking, htracking.position.trans ?_⟩
    rw [hcall]

/-- A call that meets the condition keeps the invariant. -/
theorem Tracking.next (h : Tracking extruder w) {e : ExcludeCall K}
    (hadm : w.Admissible extruder e) (haligned : w.EntersAligned extruder e) :
    Tracking extruder (w.next upper extruder e) := by
  cases e with
  | getPosition => exact h.getPosition.1
  | event e =>
    cases e with
    | start gcmd => exact h.of_leavesMoves (cmdStart_leavesMoves gcmd)
    | finish gcmd => exact h.of_leavesMoves (cmdEnd_leavesMoves gcmd)
    | setEnable enable => exact h.of_leavesMoves (setExcludeEnable_leavesMoves enable)
    | define gcmd ctx => exact h.of_leavesMoves (cmdDefine_leavesMoves hadm)
    | resetFile ctx => exact hadm.elim
    | exclude gcmd ctx =>
      have hleavesRegistered : LeavesRegistered ctx w.exclude (w.exclude.cmdExclude upper ctx gcmd) :=
        cmdExclude_leavesMoves gcmd
      obtain hleaves | hleaves := hleavesRegistered
      · exact h.of_leavesMoves hleaves
      · exact (h.registerTransform hadm.1 hadm.2).of_leavesMoves hleaves
    | move newpos speed ctx =>
      cases hnext : w.exclude.nextTransform with
      | false => exact h.unloaded_move hnext newpos speed
      | true =>
        obtain ⟨tr, htr⟩ := h.loaded hnext
        cases hin : w.exclude.insideExcluded with
        | false => exact h.outside_move hnext htr hin hadm.1 newpos speed
        | true => exact h.inside_move hnext htr hin hadm.1 newpos speed (haligned hin)

omit [Field K] [LinearOrder K] in
theorem insideExcluded_loaded {o : ExcludeObject K} (h : o.insideExcluded = true) :
    o.nextTransform = true :=
  (Bool.and_eq_true_iff.mp (Bool.and_eq_true_iff.mp h).1).1

theorem Tracking.consistent (h : Tracking extruder w) {e : ExcludeCall K}
    (hadm : w.Admissible extruder e) (haligned : w.EntersAligned extruder e) :
    w.Consistent extruder e (w.next upper extruder e) := by
  have hnext : Tracking extruder (w.next upper extruder e) := h.next hadm haligned
  refine ⟨hnext.position, fun hexcluded => ?_, hnext.extruderE⟩
  cases e with
  | getPosition => exact hexcluded.elim
  | event e =>
    cases e with
    | move newpos speed ctx =>
      have hloaded := insideExcluded_loaded hexcluded
      obtain ⟨tr, htr⟩ := h.loaded hloaded
      rw [next_inside hloaded htr hexcluded]
    | start _ | finish _ | exclude _ _ | define _ _ | setEnable _ | resetFile _ =>
      exact hexcluded.elim

/-- A call leaves what it has to if and only if it meets the condition. -/
theorem Tracking.consistent_iff (h : Tracking extruder w) {e : ExcludeCall K}
    (hadm : w.Admissible extruder e) :
    w.Consistent extruder e (w.next upper extruder e) ↔ w.EntersAligned extruder e := by
  refine ⟨fun hconsistent => ?_, h.consistent hadm⟩
  cases e with
  | getPosition => trivial
  | event e =>
    cases e with
    | move newpos speed ctx =>
      intro hin hregion i hi
      have hloaded := insideExcluded_loaded hin
      obtain ⟨tr, htr⟩ := h.loaded hloaded
      have hloadedAt : LoadedAt extruder (w.next upper extruder (.event (.move newpos speed ctx)))
          (fun i => if i = 3 then w.offset extruder 3 + newpos 3 - tr.lastPosition 3
            else newpos i - w.exclude.lastPositionExtruded i)
          newpos w.exclude.lastPositionExtruded true :=
        loadedAt_inside hloaded htr hin hadm.1 newpos speed
      have hposition := congrFun hconsistent.position i
      rw [ExcludeRun.position_apply, hloadedAt.offset, next_inside hloaded htr hin] at hposition
      have hheld := h.held hloaded i hi
      rw [hregion, if_neg Bool.false_ne_true] at hheld
      dsimp only at hposition
      rw [if_neg hi] at hposition
      linear_combination hheld - hposition
    | start _ | finish _ | exclude _ _ | define _ _ | setEnable _ | resetFile _ => trivial

end Step

/-! ## Runs -/

/-- **Exactly when the transform is consistent.**  In every run of the module, each call
leaves the transform's position at the requested one, the toolhead where it was in excluded
regions and its E accounted for, if and only if no move enters an excluded region with a
shift of X, Y or Z pending. -/
theorem consistent_iff_entersAligned (upper : String → String) (extruder : String)
    (pos : Position K) (es : List (ExcludeCall K)) (w : ExcludeRun K) :
    Run (fun w e w' => (w.Admissible extruder e ∧ w' = w.next upper extruder e) ∧
        w.Consistent extruder e w') (ExcludeRun.init pos) es w ↔
      Run (fun w e w' => (w.Admissible extruder e ∧ w' = w.next upper extruder e) ∧
        w.EntersAligned extruder e) (ExcludeRun.init pos) es w := by
  apply Run.restrict_iff (P := Tracking extruder) (ExcludeRun.init_tracking pos)
  · rintro w e _ h ⟨hadm, rfl⟩
    exact h.consistent_iff hadm
  · rintro w e _ h ⟨hadm, rfl⟩ hconsistent
    exact h.next hadm ((h.consistent_iff hadm).mp hconsistent)

/-- Object `A` is excluded and comes twice, and between the two only E is moved: in the second
region the transform's position is 10 mm behind the requested one. -/
theorem entered_with_shift_pending :
    let named : String → GCodeCommand := fun name => ⟨"", [("NAME", name)]⟩
    let move : Position ℚ → Position ℚ → ExcludeCall ℚ := fun pos toolhead =>
      .event (.move pos 50 ⟨false, "extruder", toolhead⟩)
    ∃ w : ExcludeRun ℚ,
      Run (fun w e w' => w.Admissible "extruder" e ∧ w' = w.next id "extruder" e)
        (ExcludeRun.init 0)
        [.event (.exclude (named "A") ⟨false, "extruder", 0⟩),
          move ![0, 0, 0, 1] 0, move ![0, 0, 0, 2] ![0, 0, 0, 1], move ![0, 0, 0, 3] ![0, 0, 0, 2],
          move ![0, 0, 0, 4] ![0, 0, 0, 3], move ![0, 0, 0, 5] ![0, 0, 0, 4],
          .event (.start (named "A")), move ![10, 0, 0, 6] ![0, 0, 0, 5],
          .event (.start (named "B")), move ![10, 0, 0, 7] ![0, 0, 0, 5],
          .event (.start (named "A"))] w ∧
        (w.next id "extruder" (move ![20, 0, 0, 8] ![0, 0, 0, 6])).position "extruder" =
          ![10, 0, 0, 8] ∧
        ¬ w.Consistent "extruder" (move ![20, 0, 0, 8] ![0, 0, 0, 6])
          (w.next id "extruder" (move ![20, 0, 0, 8] ![0, 0, 0, 6])) := by
  intro named move
  have hrun := Run.of_checks (f := fun w e => (w : ExcludeRun ℚ).next id "extruder" e)
    (C := fun w e => w.Admissible "extruder" e) (s := ExcludeRun.init 0)
    (l := [.event (.exclude (named "A") ⟨false, "extruder", 0⟩),
      move ![0, 0, 0, 1] 0, move ![0, 0, 0, 2] ![0, 0, 0, 1], move ![0, 0, 0, 3] ![0, 0, 0, 2],
      move ![0, 0, 0, 4] ![0, 0, 0, 3], move ![0, 0, 0, 5] ![0, 0, 0, 4],
      .event (.start (named "A")), move ![10, 0, 0, 6] ![0, 0, 0, 5],
      .event (.start (named "B")), move ![10, 0, 0, 7] ![0, 0, 0, 5],
      .event (.start (named "A"))]) (by decide +kernel)
  refine ⟨_, hrun, by decide +kernel, ?_⟩
  rintro ⟨hposition, -, -⟩
  have hx := congrFun hposition 0
  exact absurd hx (by decide +kernel)

end FlsunT1.Klippy
