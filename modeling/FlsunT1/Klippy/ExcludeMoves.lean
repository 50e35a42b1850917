/-
  Klippy/ExcludeMoves.lean --- the test that drops a move.

  The move transform asks a flag that only `EXCLUDE_OBJECT_START` writes.  The flag is
  right as long as the commands since then have changed an even number of times whether
  the current object is excluded.
-/
import Mathlib.Algebra.Field.Rat
import Mathlib.Algebra.Order.Ring.Rat
import FlsunT1.Klippy.ExcludeObject
import FlsunT1.Library.Run

set_option autoImplicit false

namespace FlsunT1.Klippy

open Library ExcludeObject

variable {K : Type} [Field K] [LinearOrder K] {upper : String → String}

/-! ## What the commands change -/

/-- The event changes whether the current object is excluded, without writing the flag. -/
def togglesCurrent (upper : String → String) (o : ExcludeObject K) : ExcludeEvent K → Bool
  | .finish _ => o.currentExcluded
  | .exclude gcmd _ =>
      match given gcmd "RESET", (given gcmd "NAME").map upper, given gcmd "CURRENT" with
      | some _, some name, _ => o.currentExcluded && o.currentObject = some name
      | some _, none, _ => o.currentExcluded
      | none, some name, _ => !o.currentExcluded && o.currentObject = some (upper name)
      | none, none, some _ => !o.currentExcluded && o.currentObject.isSome
      | none, none, none => false
  | _ => false

/-- The event writes the flag. -/
def writesFlag (o : ExcludeObject K) : ExcludeEvent K → Bool
  | .start gcmd => gcmd.has "NAME"
  | .define gcmd _ => o.excludeEnabled && (given gcmd "RESET").isSome
  | .resetFile _ => true
  | _ => false

/-- The state of the module, and whether the flag has missed an odd number of changes. -/
abbrev Stale (K : Type) := ExcludeObject K × Bool

/-- One event. -/
def Stale.next (upper : String → String) (s : Stale K) (e : ExcludeEvent K) : Stale K :=
  ((s.1.handle upper e).state,
    !writesFlag s.1 e && (s.2 ^^ togglesCurrent upper s.1 e))

/-- The test that a move makes is whether the current object is excluded and the first
extrusions are over. -/
def MoveTest (s : Stale K) : ExcludeEvent K → Prop
  | .move _ _ _ => s.1.nextTransform = true → ∃ tr, s.1.transform = some tr ∧
      s.1.testInExcludedRegionForMove =
        .ok (s.1.currentExcluded && tr.initialExtrusionMoves = 0)
  | _ => True

/-- The condition on a move: since the flag was written, the current object was excluded
or not an even number of times, or the first extrusions are not over. -/
def MoveCondition (s : Stale K) : ExcludeEvent K → Prop
  | .move _ _ _ => s.1.nextTransform = true → ∀ tr, s.1.transform = some tr →
      s.2 = false ∨ tr.initialExtrusionMoves ≠ 0
  | _ => True

/-- The invariant: the flag misses the changes that were counted. -/
structure FlagCounted (s : Stale K) : Prop where
  flag : s.1.isExcludedObject = (s.1.currentExcluded ^^ s.2)
  nodup : s.1.excludedObjects.Nodup
  transform : s.1.nextTransform = true → ∃ tr, s.1.transform = some tr

/-! ## One event -/

/-- Nothing about the objects is changed, and the transform is kept. -/
structure SameObjects (o o' : ExcludeObject K) : Prop where
  current : o'.currentObject = o.currentObject
  excluded : o'.excludedObjects = o.excludedObjects
  flag : o'.isExcludedObject = o.isExcludedObject
  nextTransform : o'.nextTransform = o.nextTransform
  transform : (∃ tr, o.transform = some tr) → ∃ tr, o'.transform = some tr

omit [Field K] [LinearOrder K] in
theorem SameObjects.currentExcluded {o o' : ExcludeObject K} (h : SameObjects o o') :
    o'.currentExcluded = o.currentExcluded := by
  rw [ExcludeObject.currentExcluded, ExcludeObject.currentExcluded, h.current, h.excluded]

omit [Field K] [LinearOrder K] in
theorem FlagCounted.same {s : Stale K} {o : ExcludeObject K} (hs : FlagCounted s)
    (h : SameObjects s.1 o) : FlagCounted (o, s.2) := by
  refine ⟨?_, h.excluded ▸ hs.nodup, fun hnext => ?_⟩
  · rw [h.flag, h.currentExcluded]
    exact hs.flag
  · exact h.transform (hs.transform (h.nextTransform ▸ hnext))

theorem move_sameObjects (ctx : ExcludeContext K) (o : ExcludeObject K) (newpos : Position K)
    (speed : K) : SameObjects o (o.move ctx newpos speed).state := by
  rw [ExcludeObject.move]
  split
  · exact ⟨rfl, rfl, rfl, rfl, id⟩
  · exact ⟨rfl, rfl, rfl, rfl, id⟩
  · split
    · exact ⟨rfl, rfl, rfl, rfl, fun _ => ⟨_, rfl⟩⟩
    · exact ⟨rfl, rfl, rfl, rfl, fun _ => ⟨_, rfl⟩⟩
  · split
    · exact ⟨rfl, rfl, rfl, rfl, fun _ => ⟨_, rfl⟩⟩
    · exact ⟨rfl, rfl, rfl, rfl, fun _ => ⟨_, rfl⟩⟩

omit [Field K] [LinearOrder K] in
/-- A start makes its object the current one, which is defined if it was not, and writes the
flag. -/
theorem cmdStart_eq (upper : String → String) (o : ExcludeObject K) {gcmd : GCodeCommand}
    {text : String} (hname : gcmd.param "NAME" = some text) :
    (o.cmdStart upper gcmd).state =
      let o' := if upper text ∈ o.objects then o else o.addObjectDefinition (upper text)
      { o' with
        currentObject := some (upper text)
        isExcludedObject := decide (upper text ∈ o'.excludedObjects) } := by
  rw [cmdStart, hname]
  dsimp only
  generalize (if upper text ∈ o.objects then o else o.addObjectDefinition (upper text)) = o'
  rw [testInExcludedRegion]
  dsimp only
  split
  · rename_i htest
    rw [Prod.mk.injEq] at htest
    rw [← htest.1]
    rfl
  · rename_i htest
    rw [Prod.mk.injEq] at htest
    rw [← htest.1]
    rfl

omit [Field K] [LinearOrder K] in
theorem cmdStart_state (upper : String → String) (o : ExcludeObject K) {gcmd : GCodeCommand}
    {text : String} (hname : gcmd.param "NAME" = some text) :
    ∃ o', (o' = o ∨ o' = o.addObjectDefinition (upper text)) ∧
      (o.cmdStart upper gcmd).state =
        { o' with
          currentObject := some (upper text)
          isExcludedObject := decide (upper text ∈ o'.excludedObjects) } := by
  refine ⟨if upper text ∈ o.objects then o else o.addObjectDefinition (upper text), ?_, ?_⟩
  · split
    · exact .inl rfl
    · exact .inr rfl
  · exact cmdStart_eq upper o hname

theorem start_flagCounted {s : Stale K} (hs : FlagCounted s) (gcmd : GCodeCommand) :
    FlagCounted (s.next upper (.start gcmd)) := by
  obtain ⟨o, stale⟩ := s
  cases hname : gcmd.param "NAME" with
  | none =>
    have hnext : Stale.next upper (o, stale) (.start gcmd) = (o, stale) := by
      simp only [Stale.next, ExcludeObject.handle, cmdStart, writesFlag, togglesCurrent,
        GCodeCommand.has, hname, Option.isSome_none, Bool.not_false, Bool.true_and,
        Bool.xor_false]
    rw [hnext]
    exact hs
  | some text =>
    obtain ⟨o', ho', hstate⟩ := cmdStart_state upper o hname
    have hnext : Stale.next upper (o, stale) (.start gcmd) =
        ((o.cmdStart upper gcmd).state, false) := by
      simp only [Stale.next, ExcludeObject.handle, writesFlag, GCodeCommand.has, hname,
        Option.isSome_some, Bool.not_true, Bool.false_and]
    rw [hnext, hstate]
    obtain rfl | rfl := ho'
    · exact ⟨(Bool.xor_false _).symm, hs.nodup, hs.transform⟩
    · exact ⟨(Bool.xor_false _).symm, hs.nodup, hs.transform⟩

omit [Field K] [LinearOrder K] in
theorem cmdEnd_state (upper : String → String) (o : ExcludeObject K) (gcmd : GCodeCommand) :
    (o.cmdEnd upper gcmd).state.currentObject = none ∧
    (o.cmdEnd upper gcmd).state.excludedObjects = o.excludedObjects ∧
    (o.cmdEnd upper gcmd).state.isExcludedObject = o.isExcludedObject ∧
    (o.cmdEnd upper gcmd).state.nextTransform = o.nextTransform ∧
    (o.cmdEnd upper gcmd).state.transform = o.transform := by
  rw [cmdEnd]
  split
  · rename_i hnone
    exact ⟨hnone.1, rfl, rfl, rfl, rfl⟩
  · dsimp only
    split <;> exact ⟨rfl, rfl, rfl, rfl, rfl⟩

theorem finish_flagCounted {s : Stale K} (hs : FlagCounted s) (gcmd : GCodeCommand) :
    FlagCounted (s.next upper (.finish gcmd)) := by
  obtain ⟨o, stale⟩ := s
  obtain ⟨hcurrent, hexcluded, hflag, hnext, htransform⟩ := cmdEnd_state upper o gcmd
  refine ⟨?_, ?_, ?_⟩
  · show (o.cmdEnd upper gcmd).state.isExcludedObject =
      ((o.cmdEnd upper gcmd).state.currentExcluded ^^ (true && (stale ^^ o.currentExcluded)))
    have hnot : (o.cmdEnd upper gcmd).state.currentExcluded = false := by
      rw [ExcludeObject.currentExcluded, hcurrent]
      rfl
    rw [hflag, hs.flag, hnot, Bool.false_xor, Bool.true_and, Bool.xor_comm]
  · exact hexcluded ▸ hs.nodup
  · show (o.cmdEnd upper gcmd).state.nextTransform = true → _
    rw [hnext]
    intro h
    exact htransform.symm ▸ hs.transform h

theorem mem_sorted {names : List String} {name : String} :
    name ∈ sorted names ↔ name ∈ names := by
  exact List.mem_insertionSort _

theorem nodup_sorted {names : List String} (h : names.Nodup) : (sorted names).Nodup :=
  (List.perm_insertionSort _ names).nodup_iff.mpr h

section Excluded

omit [Field K] [LinearOrder K]

variable {o : ExcludeObject K} {stale : Bool}

/-- A new list of excluded objects counts as a change when it has the current object and
the old one has not, or the other way round. -/
theorem setExcluded_flagCounted (hs : FlagCounted (o, stale)) {excluded : List String}
    (hnodup : excluded.Nodup) :
    FlagCounted ({ o with excludedObjects := excluded },
      stale ^^ (o.currentExcluded ^^
        ({ o with excludedObjects := excluded } : ExcludeObject K).currentExcluded)) := by
  refine ⟨?_, hnodup, hs.transform⟩
  have hflag := hs.flag
  dsimp only at hflag ⊢
  generalize ({ o with excludedObjects := excluded } : ExcludeObject K).currentExcluded = after
  rw [hflag]
  cases o.currentExcluded <;> cases stale <;> cases after <;> rfl

theorem not_excluded_and_current {name : String} (hname : name ∈ o.excludedObjects) :
    (!o.currentExcluded && o.currentObject = some name) = false := by
  cases hobject : decide (o.currentObject = some name) with
  | false => exact Bool.and_false _
  | true =>
    rw [ExcludeObject.currentExcluded, of_decide_eq_true hobject, Option.any_some,
      decide_eq_true hname]
    rfl

theorem excluded_and_current {name : String} (hname : name ∉ o.excludedObjects) :
    (o.currentExcluded && o.currentObject = some name) = false := by
  cases hobject : decide (o.currentObject = some name) with
  | false => exact Bool.and_false _
  | true =>
    rw [ExcludeObject.currentExcluded, of_decide_eq_true hobject, Option.any_some,
      decide_eq_false hname]
    rfl

theorem add_flagCounted (hs : FlagCounted (o, stale)) {name : String}
    (hname : name ∉ o.excludedObjects) :
    FlagCounted ({ o with excludedObjects := sorted (o.excludedObjects ++ [name]) },
      stale ^^ (!o.currentExcluded && o.currentObject = some name)) := by
  have hnodup : (o.excludedObjects ++ [name]).Nodup :=
    hs.nodup.append (List.nodup_singleton name) (List.disjoint_singleton.mpr hname)
  convert setExcluded_flagCounted hs (nodup_sorted hnodup) using 2
  rw [ExcludeObject.currentExcluded, ExcludeObject.currentExcluded]
  cases o.currentObject with
  | none => rfl
  | some current =>
    simp only [Option.any_some, mem_sorted, List.mem_append, List.mem_singleton,
      Option.some_inj, Bool.decide_or]
    cases decide (current ∈ o.excludedObjects) <;> cases decide (current = name) <;> rfl

theorem remove_flagCounted (hs : FlagCounted (o, stale)) {name : String}
    (hname : name ∈ o.excludedObjects) :
    FlagCounted ({ o with excludedObjects := sorted (o.excludedObjects.erase name) },
      stale ^^ (o.currentExcluded && o.currentObject = some name)) := by
  convert setExcluded_flagCounted hs (nodup_sorted (hs.nodup.erase name)) using 2
  rw [ExcludeObject.currentExcluded, ExcludeObject.currentExcluded]
  cases o.currentObject with
  | none => rfl
  | some current =>
    simp only [Option.any_some, mem_sorted, hs.nodup.mem_erase_iff, Option.some_inj]
    cases hcurrent : decide (current = name) with
    | true => simp [of_decide_eq_true hcurrent, hname]
    | false => simp [of_decide_eq_false hcurrent]

end Excluded

omit [LinearOrder K] in
theorem registerTransform_flagCounted {o : ExcludeObject K} {stale : Bool}
    (hs : FlagCounted (o, stale)) (ctx : ExcludeContext K) :
    FlagCounted (o.registerTransform ctx, stale) := by
  rw [registerTransform]
  split
  · exact hs
  · split
    · exact hs
    · exact ⟨hs.flag, hs.nodup, fun _ => ⟨_, rfl⟩⟩

omit [LinearOrder K] in
theorem registerTransform_objects (o : ExcludeObject K) (ctx : ExcludeContext K) :
    (o.registerTransform ctx).currentObject = o.currentObject ∧
    (o.registerTransform ctx).excludedObjects = o.excludedObjects := by
  rw [registerTransform]
  split
  · exact ⟨rfl, rfl⟩
  · split <;> exact ⟨rfl, rfl⟩

omit [LinearOrder K] in
theorem excludeObject_flagCounted {o : ExcludeObject K} {stale : Bool}
    (hs : FlagCounted (o, stale)) (ctx : ExcludeContext K) (name : String) :
    FlagCounted ((o.excludeObject upper ctx name).state,
      stale ^^ (!o.currentExcluded && o.currentObject = some name)) := by
  have hreg := registerTransform_flagCounted hs ctx
  obtain ⟨hcurrent, hexcluded⟩ := registerTransform_objects o ctx
  have hce : (o.registerTransform ctx).currentExcluded = o.currentExcluded := by
    rw [ExcludeObject.currentExcluded, ExcludeObject.currentExcluded, hcurrent, hexcluded]
  rw [excludeObject, ← hce, ← hcurrent]
  generalize o.registerTransform ctx = o' at hreg
  dsimp only
  split
  · rename_i hmem
    rw [not_excluded_and_current hmem, Bool.xor_false]
    exact hreg
  · exact add_flagCounted hreg ‹_›

theorem exclude_flagCounted {s : Stale K} (hs : FlagCounted s) (gcmd : GCodeCommand)
    (ctx : ExcludeContext K) : FlagCounted (s.next upper (.exclude gcmd ctx)) := by
  obtain ⟨o, stale⟩ := s
  show FlagCounted ((o.cmdExclude upper ctx gcmd).state,
    true && (stale ^^ togglesCurrent upper o (.exclude gcmd ctx)))
  rw [Bool.true_and, cmdExclude, togglesCurrent]
  cases given gcmd "RESET" with
  | some reset =>
    cases (given gcmd "NAME").map upper with
    | some name =>
      dsimp only
      rw [unexcludeObject]
      split
      · exact remove_flagCounted hs ‹_›
      · rename_i hmem
        rw [excluded_and_current hmem, Bool.xor_false]
        exact hs
    | none =>
      have hnone : ({ o with excludedObjects := [] } : ExcludeObject K).currentExcluded = false := by
        rw [ExcludeObject.currentExcluded]
        cases o.currentObject <;> rfl
      have hclear := setExcluded_flagCounted hs List.nodup_nil
      rw [hnone, Bool.xor_false] at hclear
      exact hclear
  | none =>
    cases (given gcmd "NAME").map upper with
    | some name =>
      dsimp only
      split
      · rename_i hmem
        rw [not_excluded_and_current hmem, Bool.xor_false]
        exact hs
      · exact excludeObject_flagCounted hs ctx (upper name)
    | none =>
      cases given gcmd "CURRENT" with
      | none =>
        dsimp only
        rw [Bool.xor_false]
        exact hs
      | some current =>
        dsimp only
        split
        · rename_i hcurrent
          rw [hcurrent, Option.isSome_none, Bool.and_false, Bool.xor_false]
          exact hs
        · rename_i name hcurrent
          have hadd : FlagCounted ((o.excludeObject upper ctx name).state, _) :=
            excludeObject_flagCounted hs ctx name
          rw [hcurrent, decide_eq_true rfl] at hadd
          rw [hcurrent, Option.isSome_some]
          exact hadd

omit [Field K] [LinearOrder K] in
theorem resetFile_flagCounted {o : ExcludeObject K} {stale : Bool} (hs : FlagCounted (o, stale))
    (ctx : ExcludeContext K) : FlagCounted ((o.resetFile ctx).state, false) := by
  rw [ExcludeObject.resetFile, unregisterTransform]
  split
  · exact ⟨rfl, List.nodup_nil, fun hnext => nomatch hnext⟩
  · exact ⟨rfl, List.nodup_nil, hs.transform⟩

theorem define_flagCounted {s : Stale K} (hs : FlagCounted s) (gcmd : GCodeCommand)
    (ctx : ExcludeContext K) : FlagCounted (s.next upper (.define gcmd ctx)) := by
  obtain ⟨o, stale⟩ := s
  show FlagCounted ((o.cmdDefine upper ctx gcmd).state,
    !(o.excludeEnabled && (given gcmd "RESET").isSome) && (stale ^^ false))
  rw [Bool.xor_false, cmdDefine]
  cases o.excludeEnabled with
  | false => exact hs
  | true =>
    rw [if_neg (not_not.mpr rfl)]
    cases given gcmd "RESET" with
    | some reset => exact resetFile_flagCounted hs ctx
    | none =>
      cases (given gcmd "NAME").map upper with
      | none => exact hs
      | some name =>
        dsimp only
        split
        · exact ⟨hs.flag, hs.nodup, hs.transform⟩
        · exact ⟨hs.flag, hs.nodup, hs.transform⟩

theorem next_flagCounted {s : Stale K} (hs : FlagCounted s) (e : ExcludeEvent K) :
    FlagCounted (s.next upper e) := by
  cases e with
  | start gcmd => exact start_flagCounted hs gcmd
  | finish gcmd => exact finish_flagCounted hs gcmd
  | exclude gcmd ctx => exact exclude_flagCounted hs gcmd ctx
  | define gcmd ctx => exact define_flagCounted hs gcmd ctx
  | setEnable enable =>
    obtain ⟨o, stale⟩ := s
    show FlagCounted (_, true && (stale ^^ false))
    rw [Bool.true_and, Bool.xor_false]
    exact ⟨hs.flag, hs.nodup, hs.transform⟩
  | resetFile ctx => exact resetFile_flagCounted hs ctx
  | move newpos speed ctx =>
    obtain ⟨o, stale⟩ := s
    show FlagCounted ((o.handle upper (.move newpos speed ctx)).state, true && (stale ^^ false))
    rw [Bool.true_and, Bool.xor_false, ExcludeObject.handle]
    split
    · exact hs.same (move_sameObjects ctx o newpos speed)
    · exact hs

/-! ## Runs -/

omit [Field K] [LinearOrder K] in
/-- The test is right if and only if no odd number of changes was missed, or it is not
made yet. -/
theorem moveTest_iff {s : Stale K} (hs : FlagCounted s) (e : ExcludeEvent K) :
    MoveTest s e ↔ MoveCondition s e := by
  cases e with
  | move newpos speed ctx =>
    refine imp_congr_right fun hnext => ?_
    obtain ⟨tr, htr⟩ := hs.transform hnext
    have htest : s.1.testInExcludedRegionForMove =
        .ok (s.1.isExcludedObject && tr.initialExtrusionMoves = 0) := by
      rw [testInExcludedRegionForMove]
      cases s.1.isExcludedObject with
      | false => rfl
      | true => rw [htr]; rfl
    rw [htest, hs.flag]
    constructor
    · rintro ⟨tr', htr', hok⟩ tr'' htr''
      cases htr.symm.trans htr'
      cases htr.symm.trans htr''
      cases hzero : decide (tr.initialExtrusionMoves = 0) with
      | false => exact .inr (of_decide_eq_false hzero)
      | true =>
        rw [hzero, Bool.and_true, Bool.and_true, Except.ok.injEq] at hok
        left
        revert hok
        cases s.1.currentExcluded <;> cases s.2 <;> decide
    · intro hcond
      refine ⟨tr, htr, ?_⟩
      obtain hfresh | hmoves := hcond tr htr
      · rw [hfresh, Bool.xor_false]
      · rw [decide_eq_false hmoves, Bool.and_false, Bool.and_false]
  | _ => rfl

omit [LinearOrder K] in
theorem init_flagCounted : FlagCounted ((ExcludeObject.init, false) : Stale K) :=
  ⟨rfl, List.nodup_nil, fun hnext => nomatch hnext⟩

/-- In a run from the start every move is tested for the object it belongs to if and only
if every move meets the condition. -/
theorem moveTest_run_iff (upper : String → String) (es : List (ExcludeEvent K)) (t : Stale K) :
    Run (fun s e t => t = Stale.next upper s e ∧ MoveTest s e) (.init, false) es t ↔
      Run (fun s e t => t = Stale.next upper s e ∧ MoveCondition s e) (.init, false) es t := by
  apply Run.restrict_iff init_flagCounted
  · intro s e t hs _
    exact moveTest_iff hs e
  · rintro s e t hs rfl _
    exact next_flagCounted hs e

/-- A printer at the origin with one extruder. -/
def originContext : ExcludeContext ℚ := ⟨false, "extruder", 0⟩

/-- Exclude `A` and extrude five times; then `A` starts and ends. -/
def endAfterExclude : List (ExcludeEvent ℚ) :=
  .exclude ⟨"EXCLUDE_OBJECT NAME=A", [("NAME", "A")]⟩ originContext ::
    [1, 2, 3, 4, 5].map (fun e => .move ![0, 0, 0, e] 100 originContext) ++
    [.start ⟨"EXCLUDE_OBJECT_START NAME=A", [("NAME", "A")]⟩,
      .finish ⟨"EXCLUDE_OBJECT_END NAME=A", [("NAME", "A")]⟩]

/-- A move after the end of an excluded object is dropped. -/
theorem moveTest_end_lost :
    ¬ ∀ es t, Run (fun s e t => t = Stale.next id s e) ((.init, false) : Stale ℚ) es t →
      Run (fun s e t => t = Stale.next id s e ∧ MoveTest s e) (.init, false) es t := by
  intro hall
  have hrun := hall (endAfterExclude ++ [.move ![10, 0, 0, 5] 100 originContext]) _
    (Run.iff_foldl.mpr rfl)
  obtain ⟨u, hu, -, htest⟩ := hrun.exists_last endAfterExclude
  have hu' := Run.iff_foldl.mp (hu.mono fun _ _ _ h => h.1)
  have hnext : u.1.nextTransform = true ∧ u.1.currentExcluded = false ∧
      u.1.testInExcludedRegionForMove.toOption = some true := by
    rw [hu']
    decide +kernel
  obtain ⟨tr, -, hok⟩ := htest hnext.1
  rw [hnext.2.1, Bool.false_and] at hok
  have hdropped := hnext.2.2
  rw [hok] at hdropped
  cases hdropped

end FlsunT1.Klippy
