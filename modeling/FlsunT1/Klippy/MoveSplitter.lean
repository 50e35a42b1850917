/-
  Klippy/MoveSplitter.lean --- moves over a bed mesh are split (klippy/extras/bed_mesh.py).

  The mesh is the function that `calc_z` computes.  The square root is a parameter: what is proved
  here does not depend on it.
-/
import Mathlib.Algebra.Order.Archimedean.Basic
import Mathlib.Algebra.Order.Field.Basic
import Mathlib.Data.Fintype.Basic
import Mathlib.Tactic.Linarith
import FlsunT1.Klippy.GcodeMove
import FlsunT1.Library.Fuel
import FlsunT1.Library.Instances

set_option autoImplicit false

namespace FlsunT1.Klippy

open Library

variable {K : Type} [Field K] [LinearOrder K]

/-! ## Numbers -/

/-- `isclose` -/
def isclose (a b relTol absTol : K) : Bool :=
  decide (|a - b| ≤ max (relTol * max |a| |b|) absTol)

/-- `constrain` -/
def constrain {α : Type} [LinearOrder α] (val minVal maxVal : α) : α := min maxVal (max minVal val)

/-- `lerp` -/
def lerp (t v0 v1 : K) : K := (1 - t) * v0 + t * v1

/-! ## The splitter -/

/-- The options, with the bounds that are checked where they are read. -/
structure SplitterConfig (K : Type) [Field K] [LinearOrder K] where
  splitDeltaZ : K
  moveCheckDistance : K
  splitDeltaZ_min : 1 / 10 ^ 4 ≤ splitDeltaZ
  moveCheckDistance_min : 3 ≤ moveCheckDistance

/-- What changes of `MoveSplitter` as a move is split. -/
structure MoveSplitter (K : Type) where
  prevPos : Position K
  nextPos : Position K
  currentPos : Position K
  zFactor : K
  zOffset : K
  traverseComplete : Bool
  distanceChecked : K
  totalMoveLength : K
  axisMove : Fin 4 → Bool

/-- A position with an offset added to its height. -/
def Position.raise (p : Position K) (offset : K) : Position K :=
  Function.update p 2 (p 2 + offset)

omit [LinearOrder K] in
theorem Position.raise_raise (p : Position K) (a b : K) :
    (p.raise a).raise b = p.raise (a + b) := by
  unfold Position.raise
  rw [Function.update_self, Function.update_idem, add_assoc]

omit [LinearOrder K] in
theorem Position.raise_eq_self_iff {p : Position K} {a : K} : p.raise a = p ↔ a = 0 := by
  unfold Position.raise
  rw [Function.update_eq_self_iff, add_eq_left]

section Splitter

variable (cfg : SplitterConfig K) (calcZ : K → K → K) (fadeOffset : K) (sqrt : K → K)

/-- `_calc_z_offset` -/
def calcZOffset (zFactor : K) (pos : Position K) : K :=
  zFactor * (calcZ (pos 0) (pos 1) - fadeOffset) + fadeOffset

/-- The square of `total_move_length`. -/
def moveLengthSq (prevPos nextPos : Position K) : K :=
  (nextPos 0 - prevPos 0) ^ 2 + (nextPos 1 - prevPos 1) ^ 2 + (nextPos 2 - prevPos 2) ^ 2

namespace MoveSplitter

/-- `build_move` -/
def buildMove (prevPos nextPos : Position K) (factor : K) : MoveSplitter K where
  prevPos := prevPos
  nextPos := nextPos
  currentPos := prevPos
  zFactor := factor
  zOffset := calcZOffset calcZ fadeOffset factor prevPos
  traverseComplete := false
  distanceChecked := 0
  totalMoveLength := sqrt (moveLengthSq prevPos nextPos)
  axisMove := fun i => !isclose (nextPos i - prevPos i) 0 (1 / 10 ^ 9) (1 / 10 ^ 10)

/-- `_set_next_move`; `none` for the error. -/
def setNextMove (distanceFromPrev : K) (s : MoveSplitter K) : Option (MoveSplitter K) :=
  let t := distanceFromPrev / s.totalMoveLength
  if t > 1 ∨ t < 0 then none
  else
    some { s with
      currentPos := fun i =>
        if s.axisMove i then lerp t (s.prevPos i) (s.nextPos i) else s.currentPos i }

/-- The loop of `split`, and whether it has found a point. -/
def check : ℕ → MoveSplitter K → Option (MoveSplitter K × Bool)
  | 0, _ => none
  | fuel + 1, s =>
    if s.distanceChecked + cfg.moveCheckDistance < s.totalMoveLength then
      let distanceChecked := s.distanceChecked + cfg.moveCheckDistance
      match { s with distanceChecked := distanceChecked }.setNextMove distanceChecked with
      | none => none
      | some s =>
        let nextZ := calcZOffset calcZ fadeOffset s.zFactor s.currentPos
        if cfg.splitDeltaZ ≤ |nextZ - s.zOffset| then some ({ s with zOffset := nextZ }, true)
        else check fuel s
    else some (s, false)

/-- The end of the move. -/
def finish (s : MoveSplitter K) : MoveSplitter K :=
  let zOffset := calcZOffset calcZ fadeOffset s.zFactor s.nextPos
  { s with
    currentPos := s.nextPos.raise zOffset
    zOffset := zOffset
    traverseComplete := true }

/-- `split` -/
def split (fuel : ℕ) (s : MoveSplitter K) : Option (MoveSplitter K × Option (Position K)) :=
  if s.traverseComplete then some (s, none)
  else if s.axisMove 0 || s.axisMove 1 then
    match s.check cfg calcZ fadeOffset fuel with
    | none => none
    | some (s, true) => some (s, some (s.currentPos.raise s.zOffset))
    | some (s, false) =>
      let s := s.finish calcZ fadeOffset
      some (s, some s.currentPos)
  else
    let s := s.finish calcZ fadeOffset
    some (s, some s.currentPos)

/-- The calls of `split` until the move is traversed, and the points that they return. -/
def traverse : ℕ → MoveSplitter K → Option (List (Position K))
  | 0, _ => none
  | fuel + 1, s =>
    if s.traverseComplete then some []
    else
      match s.split cfg calcZ fadeOffset fuel with
      | none => none
      | some (_, none) => none
      | some (s, some point) => (s.traverse fuel).map (point :: ·)

end MoveSplitter

/-! ## What is to be emitted -/

variable (prevPos nextPos : Position K) (factor : K)

/-- The point of the move at the check with the given number, before its offset: the axes that move
are all at the same fraction of it. -/
def checkPoint (k : ℕ) : Position K := fun i =>
  if 1 / 10 ^ 10 < |nextPos i - prevPos i| then
    lerp (k * cfg.moveCheckDistance / sqrt (moveLengthSq prevPos nextPos)) (prevPos i) (nextPos i)
  else prevPos i

/-- The offset at a check. -/
def checkOffset (k : ℕ) : K :=
  calcZOffset calcZ fadeOffset factor (checkPoint cfg sqrt prevPos nextPos k)

/-- The check with the given number comes before the end of the move. -/
def Before (k : ℕ) : Prop := k * cfg.moveCheckDistance < sqrt (moveLengthSq prevPos nextPos)

/-- The offset at check `j` differs from that at check `k` by less than the threshold. -/
def Near (k j : ℕ) : Prop :=
  |checkOffset cfg calcZ fadeOffset sqrt prevPos nextPos factor j -
    checkOffset cfg calcZ fadeOffset sqrt prevPos nextPos factor k| < cfg.splitDeltaZ

instance (k : ℕ) : Decidable (Before cfg sqrt prevPos nextPos k) :=
  inferInstanceAs (Decidable (_ < _))

instance (k j : ℕ) : Decidable (Near cfg calcZ fadeOffset sqrt prevPos nextPos factor k j) :=
  inferInstanceAs (Decidable (_ < _))

/-- The numbers of the checks that are emitted after the one with number `k`: each is reached
before the end of the move, and those between two of them, and after the last, are near the one
before. -/
def Emits : ℕ → List ℕ → Prop
  | k, [] => ∀ j, k < j → Before cfg sqrt prevPos nextPos j →
      Near cfg calcZ fadeOffset sqrt prevPos nextPos factor k j
  | k, i :: ks => k < i ∧ Before cfg sqrt prevPos nextPos i ∧
      (∀ j, k < j → j < i → Near cfg calcZ fadeOffset sqrt prevPos nextPos factor k j) ∧
      Emits i ks

/-! ## A move is traversed -/

theorem checkPoint_zero : checkPoint cfg sqrt prevPos nextPos 0 = prevPos := by
  funext i
  unfold checkPoint
  split
  · rw [Nat.cast_zero, zero_mul, zero_div, lerp, sub_zero, one_mul, zero_mul, add_zero]
  · rfl

variable [IsStrictOrderedRing K]

theorem isclose_zero (d : K) :
    isclose d 0 (1 / 10 ^ 9) (1 / 10 ^ 10) = true ↔ ¬ 1 / 10 ^ 10 < |d| := by
  unfold isclose
  rw [sub_zero, abs_zero, max_eq_left (abs_nonneg d), decide_eq_true_eq, le_max_iff, not_lt,
    or_iff_right_iff_imp]
  intro h
  have hzero : |d| ≤ 0 := by
    have hd := abs_nonneg d
    norm_num at h
    linarith
  exact hzero.trans (by positivity)

namespace MoveSplitter

theorem axisMove_buildMove (i : Fin 4) :
    (buildMove calcZ fadeOffset sqrt prevPos nextPos factor).axisMove i = true ↔
      1 / 10 ^ 10 < |nextPos i - prevPos i| := by
  unfold buildMove
  dsimp only
  rw [Bool.not_eq_true', ← Bool.not_eq_true, isclose_zero, not_not]

/-- The state after check `k`, where the last point emitted is that of check `j`. -/
def after (j k : ℕ) : MoveSplitter K :=
  { buildMove calcZ fadeOffset sqrt prevPos nextPos factor with
    currentPos := checkPoint cfg sqrt prevPos nextPos k
    distanceChecked := k * cfg.moveCheckDistance
    zOffset := checkOffset cfg calcZ fadeOffset sqrt prevPos nextPos factor j }

omit [IsStrictOrderedRing K] in
theorem buildMove_eq : buildMove calcZ fadeOffset sqrt prevPos nextPos factor =
    after cfg calcZ fadeOffset sqrt prevPos nextPos factor 0 0 := by
  unfold after checkOffset
  rw [checkPoint_zero, Nat.cast_zero, zero_mul]
  rfl

theorem moveCheckDistance_pos : 0 < cfg.moveCheckDistance :=
  zero_lt_three.trans_le cfg.moveCheckDistance_min

theorem splitDeltaZ_pos : 0 < cfg.splitDeltaZ :=
  lt_of_lt_of_le (by positivity) cfg.splitDeltaZ_min

theorem setNextMove_after {j k : ℕ} (h : Before cfg sqrt prevPos nextPos (k + 1)) :
    ({ after cfg calcZ fadeOffset sqrt prevPos nextPos factor j k with
        distanceChecked := ((k + 1 : ℕ) : K) * cfg.moveCheckDistance } :
        MoveSplitter K).setNextMove (((k + 1 : ℕ) : K) * cfg.moveCheckDistance) =
      some (after cfg calcZ fadeOffset sqrt prevPos nextPos factor j (k + 1)) := by
  have hcheck : 0 ≤ ((k + 1 : ℕ) : K) * cfg.moveCheckDistance :=
    mul_nonneg (Nat.cast_nonneg _) (moveCheckDistance_pos cfg).le
  have hlength : 0 < sqrt (moveLengthSq prevPos nextPos) := hcheck.trans_lt h
  unfold setNextMove
  dsimp only
  rw [if_neg]
  · congr 1
    unfold after
    congr 1
    funext i
    simp only [axisMove_buildMove]
    unfold checkPoint
    split <;> rfl
  · rw [not_or, not_lt, not_lt]
    exact ⟨(div_le_one hlength).mpr h.le, div_nonneg hcheck hlength.le⟩

/-- A round of the loop. -/
theorem check_succ (fuel j k : ℕ) :
    check cfg calcZ fadeOffset (fuel + 1)
        (after cfg calcZ fadeOffset sqrt prevPos nextPos factor j k) =
      if Before cfg sqrt prevPos nextPos (k + 1) then
        if Near cfg calcZ fadeOffset sqrt prevPos nextPos factor j (k + 1) then
          check cfg calcZ fadeOffset fuel
            (after cfg calcZ fadeOffset sqrt prevPos nextPos factor j (k + 1))
        else some (after cfg calcZ fadeOffset sqrt prevPos nextPos factor (k + 1) (k + 1), true)
      else some (after cfg calcZ fadeOffset sqrt prevPos nextPos factor j k, false) := by
  have hnext : (after cfg calcZ fadeOffset sqrt prevPos nextPos factor j k).distanceChecked +
      cfg.moveCheckDistance = ((k + 1 : ℕ) : K) * cfg.moveCheckDistance := by
    unfold after
    rw [Nat.cast_succ, add_mul, one_mul]
  have hlength : (after cfg calcZ fadeOffset sqrt prevPos nextPos factor j k).totalMoveLength =
      sqrt (moveLengthSq prevPos nextPos) := rfl
  rw [check]
  dsimp only
  rw [hnext, hlength]
  by_cases hbefore : Before cfg sqrt prevPos nextPos (k + 1)
  · have hset := setNextMove_after cfg calcZ fadeOffset sqrt prevPos nextPos factor (j := j) hbefore
    dsimp only at hset
    rw [if_pos hbefore, if_pos (show _ < _ from hbefore), hlength.symm, hset]
    dsimp only
    by_cases hnear : Near cfg calcZ fadeOffset sqrt prevPos nextPos factor j (k + 1)
    · rw [if_pos hnear]
      exact if_neg (not_le.mpr hnear)
    · rw [if_neg hnear]
      exact if_pos (not_lt.mp hnear)
  · rw [if_neg hbefore, if_neg (show ¬ _ < _ from hbefore)]

/-- The loop goes on to the first check that is not near, or to the last. -/
theorem check_after (r : ℕ) : ∀ {j k : ℕ},
    (∀ m, j < m → m ≤ k → Near cfg calcZ fadeOffset sqrt prevPos nextPos factor j m) →
    sqrt (moveLengthSq prevPos nextPos) ≤ ((k + r : ℕ) : K) * cfg.moveCheckDistance →
    (∃ i, k < i ∧ Before cfg sqrt prevPos nextPos i ∧
      (∀ m, j < m → m < i → Near cfg calcZ fadeOffset sqrt prevPos nextPos factor j m) ∧
      Computes (fun fuel => check cfg calcZ fadeOffset fuel
          (after cfg calcZ fadeOffset sqrt prevPos nextPos factor j k))
        (after cfg calcZ fadeOffset sqrt prevPos nextPos factor i i, true)) ∨
    ∃ k', Emits cfg calcZ fadeOffset sqrt prevPos nextPos factor j [] ∧
      Computes (fun fuel => check cfg calcZ fadeOffset fuel
          (after cfg calcZ fadeOffset sqrt prevPos nextPos factor j k))
        (after cfg calcZ fadeOffset sqrt prevPos nextPos factor j k', false) := by
  have hpos := moveCheckDistance_pos cfg
  have hlast {j k : ℕ}
      (hnear : ∀ m, j < m → m ≤ k → Near cfg calcZ fadeOffset sqrt prevPos nextPos factor j m)
      (hbefore : ¬ Before cfg sqrt prevPos nextPos (k + 1)) :
      ∃ k', Emits cfg calcZ fadeOffset sqrt prevPos nextPos factor j [] ∧
        Computes (fun fuel => check cfg calcZ fadeOffset fuel
            (after cfg calcZ fadeOffset sqrt prevPos nextPos factor j k))
          (after cfg calcZ fadeOffset sqrt prevPos nextPos factor j k', false) := by
    refine ⟨k, fun m hm hm' => hnear m hm ?_, Computes.succ rfl (fun fuel => ?_) (.pure _)⟩
    · by_contra hk
      have hle : ((k + 1 : ℕ) : K) ≤ m := Nat.cast_le.mpr (by omega)
      exact hbefore ((mul_le_mul_of_nonneg_right hle hpos.le).trans_lt hm')
    · rw [check_succ, if_neg hbefore]
  induction r with
  | zero =>
    intro j k hnear hlength
    right
    refine hlast hnear ?_
    intro hbefore
    have hle : ((k + 0 : ℕ) : K) ≤ ((k + 1 : ℕ) : K) := Nat.cast_le.mpr (by omega)
    exact absurd (hlength.trans (mul_le_mul_of_nonneg_right hle hpos.le)) (not_le.mpr hbefore)
  | succ r ih =>
    intro j k hnear hlength
    by_cases hbefore : Before cfg sqrt prevPos nextPos (k + 1)
    · by_cases hnext : Near cfg calcZ fadeOffset sqrt prevPos nextPos factor j (k + 1)
      · have hnear' : ∀ m, j < m → m ≤ k + 1 →
            Near cfg calcZ fadeOffset sqrt prevPos nextPos factor j m := by
          intro m hm hm'
          rcases Nat.lt_or_ge k m with hlt | hle
          · obtain rfl : m = k + 1 := by omega
            exact hnext
          · exact hnear m hm hle
        rw [show k + (r + 1) = k + 1 + r by omega] at hlength
        have hround (fuel : ℕ) : check cfg calcZ fadeOffset (fuel + 1)
            (after cfg calcZ fadeOffset sqrt prevPos nextPos factor j k) =
              check cfg calcZ fadeOffset fuel
                (after cfg calcZ fadeOffset sqrt prevPos nextPos factor j (k + 1)) := by
          rw [check_succ, if_pos hbefore, if_pos hnext]
        rcases ih hnear' hlength with ⟨i, hi, hib, hskip, hcomp⟩ | ⟨k', hemits, hcomp⟩
        · exact Or.inl ⟨i, by omega, hib, hskip, Computes.succ rfl hround hcomp⟩
        · exact Or.inr ⟨k', hemits, Computes.succ rfl hround hcomp⟩
      · left
        refine ⟨k + 1, by omega, hbefore, fun m hm hm' => hnear m hm (by omega),
          Computes.succ rfl (fun fuel => ?_) (.pure _)⟩
        rw [check_succ, if_pos hbefore, if_neg hnext]
    · exact Or.inr (hlast hnear hbefore)

/-- The point that is emitted at a check. -/
def emitted (k : ℕ) : Position K :=
  (checkPoint cfg sqrt prevPos nextPos k).raise
    (checkOffset cfg calcZ fadeOffset sqrt prevPos nextPos factor k)

/-- The end of the move, with its offset. -/
def endPoint : Position K := nextPos.raise (calcZOffset calcZ fadeOffset factor nextPos)

omit [IsStrictOrderedRing K] in
theorem split_of_moves (fuel : ℕ) {s : MoveSplitter K} (h : s.traverseComplete = false)
    (hmoves : (s.axisMove 0 || s.axisMove 1) = true) :
    s.split cfg calcZ fadeOffset fuel = (s.check cfg calcZ fadeOffset fuel).map fun x =>
      if x.2 then (x.1, some (x.1.currentPos.raise x.1.zOffset))
      else (x.1.finish calcZ fadeOffset, some (x.1.finish calcZ fadeOffset).currentPos) := by
  rw [split, if_neg (by simp [h]), if_pos hmoves]
  cases s.check cfg calcZ fadeOffset fuel with
  | none => rfl
  | some x =>
    obtain ⟨t, found⟩ := x
    cases found <;> rfl

omit [IsStrictOrderedRing K] in
theorem split_of_still (fuel : ℕ) {s : MoveSplitter K} (h : s.traverseComplete = false)
    (hstill : (s.axisMove 0 || s.axisMove 1) = false) :
    s.split cfg calcZ fadeOffset fuel =
      some (s.finish calcZ fadeOffset, some (s.finish calcZ fadeOffset).currentPos) := by
  rw [split, if_neg (by simp [h]), if_neg (by simp [hstill])]

omit [IsStrictOrderedRing K] in
theorem traverse_succ (fuel : ℕ) {s : MoveSplitter K} (h : s.traverseComplete = false) :
    s.traverse cfg calcZ fadeOffset (fuel + 1) =
      (s.split cfg calcZ fadeOffset fuel).bind fun x =>
        x.2.bind fun point => (x.1.traverse cfg calcZ fadeOffset fuel).map (point :: ·) := by
  rw [traverse, if_neg (by simp [h])]
  cases s.split cfg calcZ fadeOffset fuel with
  | none => rfl
  | some x =>
    obtain ⟨t, point⟩ := x
    cases point <;> rfl

omit [IsStrictOrderedRing K] in
theorem traverse_cons {s t : MoveSplitter K} {point : Position K} {points : List (Position K)}
    (h : s.traverseComplete = false)
    (hsplit : Computes (fun fuel => s.split cfg calcZ fadeOffset fuel) (t, some point))
    (hrest : Computes (fun fuel => t.traverse cfg calcZ fadeOffset fuel) points) :
    Computes (fun fuel => s.traverse cfg calcZ fadeOffset fuel) (point :: points) :=
  Computes.succ rfl (fun fuel => traverse_succ cfg calcZ fadeOffset fuel h)
    (hsplit.bind (hrest.map (point :: ·)))

omit [IsStrictOrderedRing K] in
theorem traverse_finish (s : MoveSplitter K) :
    Computes (fun fuel => (s.finish calcZ fadeOffset).traverse cfg calcZ fadeOffset fuel) [] :=
  Computes.succ rfl (fun _ => if_pos rfl) (.pure [])

omit [IsStrictOrderedRing K] in
theorem traverse_last {s t : MoveSplitter K} (h : s.traverseComplete = false)
    (hnext : t.nextPos = nextPos ∧ t.zFactor = factor)
    (hsplit : Computes (fun fuel => s.split cfg calcZ fadeOffset fuel)
      (t.finish calcZ fadeOffset, some (t.finish calcZ fadeOffset).currentPos)) :
    Computes (fun fuel => s.traverse cfg calcZ fadeOffset fuel)
      [endPoint calcZ fadeOffset nextPos factor] := by
  obtain ⟨rfl, rfl⟩ := hnext
  exact traverse_cons cfg calcZ fadeOffset h hsplit (traverse_finish cfg calcZ fadeOffset t)

/-- A move in X or Y, from a point that was emitted. -/
theorem traverse_after
    (hmoves : ((buildMove calcZ fadeOffset sqrt prevPos nextPos factor).axisMove 0 ||
      (buildMove calcZ fadeOffset sqrt prevPos nextPos factor).axisMove 1) = true) (r : ℕ) :
    ∀ {j : ℕ}, sqrt (moveLengthSq prevPos nextPos) ≤ ((j + r : ℕ) : K) * cfg.moveCheckDistance →
      ∃ ks, Computes (fun fuel => traverse cfg calcZ fadeOffset fuel
          (after cfg calcZ fadeOffset sqrt prevPos nextPos factor j j))
        (ks.map (emitted cfg calcZ fadeOffset sqrt prevPos nextPos factor) ++
          [endPoint calcZ fadeOffset nextPos factor]) ∧
        Emits cfg calcZ fadeOffset sqrt prevPos nextPos factor j ks := by
  have hpos := moveCheckDistance_pos cfg
  have hsplit (j fuel : ℕ) := split_of_moves cfg calcZ fadeOffset fuel
    (s := after cfg calcZ fadeOffset sqrt prevPos nextPos factor j j) rfl hmoves
  induction r using Nat.strong_induction_on with
  | _ r ih =>
    intro j hlength
    have hnear : ∀ m, j < m → m ≤ j →
        Near cfg calcZ fadeOffset sqrt prevPos nextPos factor j m := by
      intro m hm hm'
      omega
    rcases check_after cfg calcZ fadeOffset sqrt prevPos nextPos factor r hnear hlength with
      ⟨i, hji, hbefore, hskip, hcheck⟩ | ⟨k, hemits, hcheck⟩
    · have hir : i < j + r := by
        by_contra hge
        have hle : ((j + r : ℕ) : K) ≤ i := Nat.cast_le.mpr (by omega)
        exact absurd (hlength.trans (mul_le_mul_of_nonneg_right hle hpos.le))
          (not_le.mpr hbefore)
      obtain ⟨ks, hrest, hemits⟩ := ih (j + r - i) (by omega) (j := i) (by
        rwa [show i + (j + r - i) = j + r by omega])
      refine ⟨i :: ks, ?_, hji, hbefore, hskip, hemits⟩
      refine traverse_cons cfg calcZ fadeOffset rfl ?_ hrest
      simp only [hsplit]
      exact hcheck.map _
    · refine ⟨[], traverse_last cfg calcZ fadeOffset nextPos factor rfl
        (t := after cfg calcZ fadeOffset sqrt prevPos nextPos factor j k) ⟨rfl, rfl⟩ ?_, hemits⟩
      simp only [hsplit]
      exact hcheck.map _

omit [IsStrictOrderedRing K] in
/-- The loop leaves the end of the move as it is. -/
theorem check_keeps {fuel : ℕ} {s t : MoveSplitter K} {found : Bool}
    (h : s.check cfg calcZ fadeOffset fuel = some (t, found)) :
    t.nextPos = s.nextPos ∧ t.zFactor = s.zFactor ∧ t.traverseComplete = s.traverseComplete := by
  induction fuel generalizing s with
  | zero => cases h
  | succ fuel ih =>
    rw [check] at h
    dsimp only at h
    split at h
    · split at h
      · cases h
      · rename_i u hset
        have hkeeps : u.nextPos = s.nextPos ∧ u.zFactor = s.zFactor ∧
            u.traverseComplete = s.traverseComplete := by
          unfold setNextMove at hset
          dsimp only at hset
          split at hset
          · cases hset
          · obtain rfl := Option.some.inj hset
            exact ⟨rfl, rfl, rfl⟩
        split at h
        · obtain ⟨rfl, -⟩ := Prod.mk.inj (Option.some.inj h)
          exact hkeeps
        · obtain ⟨hnext, hfactor, hcomplete⟩ := ih h
          exact ⟨hnext.trans hkeeps.1, hfactor.trans hkeeps.2.1, hcomplete.trans hkeeps.2.2⟩
    · obtain ⟨rfl, -⟩ := Prod.mk.inj (Option.some.inj h)
      exact ⟨rfl, rfl, rfl⟩

omit [IsStrictOrderedRing K] in
/-- The last point of a move that was traversed is its end. -/
theorem getLast?_traverse {fuel : ℕ} {s : MoveSplitter K} {points : List (Position K)}
    (hcomplete : s.traverseComplete = false)
    (h : s.traverse cfg calcZ fadeOffset fuel = some points) :
    points.getLast? = some (endPoint calcZ fadeOffset s.nextPos s.zFactor) := by
  have hfinished {fuel : ℕ} {s : MoveSplitter K} {points : List (Position K)}
      (h : (s.finish calcZ fadeOffset).traverse cfg calcZ fadeOffset fuel = some points) :
      points = [] := (traverse_finish cfg calcZ fadeOffset s).only fuel points h
  induction fuel generalizing s points with
  | zero => cases h
  | succ fuel ih =>
    rw [traverse_succ cfg calcZ fadeOffset fuel hcomplete] at h
    obtain ⟨⟨t, found⟩, hsplit, hfound⟩ := Option.bind_eq_some_iff.mp h
    obtain ⟨point, rfl, hmap⟩ := Option.bind_eq_some_iff.mp hfound
    obtain ⟨rest, hrest, rfl⟩ := Option.map_eq_some_iff.mp hmap
    cases hmoves : s.axisMove 0 || s.axisMove 1 with
    | true =>
      rw [split_of_moves cfg calcZ fadeOffset fuel hcomplete hmoves] at hsplit
      obtain ⟨⟨u, found⟩, hcheck, hx⟩ := Option.map_eq_some_iff.mp hsplit
      obtain ⟨hnext, hfactor, hsame⟩ := check_keeps cfg calcZ fadeOffset hcheck
      cases found with
      | true =>
        obtain ⟨rfl, -⟩ := Prod.mk.inj hx
        have hlast := ih (hsame.trans hcomplete) hrest
        rw [hnext, hfactor] at hlast
        rw [List.getLast?_cons, hlast]
        rfl
      | false =>
        obtain ⟨rfl, hpoint⟩ := Prod.mk.inj hx
        rw [hfinished hrest, ← hnext, ← hfactor, ← Option.some.inj hpoint]
        rfl
    | false =>
      rw [split_of_still cfg calcZ fadeOffset fuel hcomplete hmoves] at hsplit
      obtain ⟨rfl, hpoint⟩ := Prod.mk.inj (Option.some.inj hsplit)
      rw [hfinished hrest, ← Option.some.inj hpoint]
      rfl

/-- Each point that is emitted before the last lies at a multiple of the distance between checks,
the last is the end of the move, and at the checks between them the offset stays near. -/
theorem traverse_buildMove [Archimedean K] :
    ∃ ks, Computes (fun fuel => traverse cfg calcZ fadeOffset fuel
        (buildMove calcZ fadeOffset sqrt prevPos nextPos factor))
      (ks.map (emitted cfg calcZ fadeOffset sqrt prevPos nextPos factor) ++
        [endPoint calcZ fadeOffset nextPos factor]) ∧
      Emits cfg calcZ fadeOffset sqrt prevPos nextPos factor 0 ks := by
  cases hmoves : (buildMove calcZ fadeOffset sqrt prevPos nextPos factor).axisMove 0 ||
      (buildMove calcZ fadeOffset sqrt prevPos nextPos factor).axisMove 1 with
  | true =>
    obtain ⟨r, hr⟩ :=
      Archimedean.arch (sqrt (moveLengthSq prevPos nextPos)) (moveCheckDistance_pos cfg)
    rw [buildMove_eq cfg]
    apply traverse_after cfg calcZ fadeOffset sqrt prevPos nextPos factor hmoves r
    rwa [Nat.zero_add, ← nsmul_eq_mul]
  | false =>
    -- neither X nor Y moves, so that the offset stays what it was
    refine ⟨[], traverse_last cfg calcZ fadeOffset nextPos factor rfl
      (t := buildMove calcZ fadeOffset sqrt prevPos nextPos factor) ⟨rfl, rfl⟩ ?_, ?_⟩
    · simp only [split_of_still cfg calcZ fadeOffset _ rfl hmoves]
      exact .pure _
    · intro j _ _
      rw [Bool.or_eq_false_iff, ← Bool.not_eq_true, ← Bool.not_eq_true, axisMove_buildMove,
        axisMove_buildMove] at hmoves
      unfold Near checkOffset calcZOffset checkPoint
      rw [if_neg hmoves.1, if_neg hmoves.1, if_neg hmoves.2, if_neg hmoves.2, sub_self, abs_zero]
      exact splitDeltaZ_pos cfg

end MoveSplitter

end Splitter

/-! ## A move along a slope -/

namespace MoveSplitter

/-- Options that emit few points. -/
def slopeConfig : SplitterConfig ℚ where
  splitDeltaZ := 1 / 2
  moveCheckDistance := 5
  splitDeltaZ_min := by decide +kernel
  moveCheckDistance_min := by decide +kernel

/-- A mesh that rises by a hundredth. -/
def slope (x _ : ℚ) : ℚ := x / 100

/-- The square root, of squares. -/
def rootOfSquare (x : ℚ) : ℚ := Nat.sqrt x.num.toNat

theorem traverse_buildMove_slope :
    ∃ ks, Computes (fun fuel => traverse slopeConfig slope 0 fuel
        (buildMove slope 0 rootOfSquare ![0, 0, 1, 0] ![100, 0, 1, 4] 1))
      (ks.map (emitted slopeConfig slope 0 rootOfSquare ![0, 0, 1, 0] ![100, 0, 1, 4] 1) ++
        [endPoint slope 0 ![100, 0, 1, 4] 1]) ∧
      Emits slopeConfig slope 0 rootOfSquare ![0, 0, 1, 0] ![100, 0, 1, 4] 1 0 ks :=
  traverse_buildMove slopeConfig slope 0 rootOfSquare ![0, 0, 1, 0] ![100, 0, 1, 4] 1

/-- The claim that every axis is at the same fraction of the move is false: an axis that has no
more to go than the tolerance stays where it was until the end. -/
theorem not_same_fraction :
    ¬ ∃ ks : List ℕ, (∀ k ∈ ks, 0 < k) ∧
      Computes (fun fuel => traverse slopeConfig slope 0 fuel
          (buildMove slope 0 rootOfSquare 0 ![100, 0, 0, 1 / 10 ^ 10] 1))
        (ks.map (fun k =>
            let p : Position ℚ := fun i =>
              lerp (k * slopeConfig.moveCheckDistance / 100) 0
                ((![100, 0, 0, 1 / 10 ^ 10] : Position ℚ) i)
            p.raise (calcZOffset slope 0 1 p)) ++
          [endPoint slope 0 ![100, 0, 0, 1 / 10 ^ 10] 1]) := by
  rintro ⟨ks, hpos, hcomp⟩
  have hpoints : traverse slopeConfig slope 0 30
      (buildMove slope 0 rootOfSquare 0 ![100, 0, 0, 1 / 10 ^ 10] 1) =
        some [![50, 0, 1 / 2, 0], ![100, 0, 1, 1 / 10 ^ 10]] := by
    decide +kernel
  have heq := hcomp.only 30 _ hpoints
  cases ks with
  | nil => simp at heq
  | cons k ks =>
    have hfirst := congrFun (List.cons.inj heq).1 3
    have hk : (0 : ℚ) < k := Nat.cast_pos.mpr (hpos k List.mem_cons_self)
    have hvalue : (0 : ℚ) = k * slopeConfig.moveCheckDistance / 100 * (1 / 10 ^ 10) := by
      simpa [Position.raise, lerp] using hfirst
    have hdistance : (0 : ℚ) < slopeConfig.moveCheckDistance := by decide +kernel
    have hne : (0 : ℚ) < k * slopeConfig.moveCheckDistance / 100 * (1 / 10 ^ 10) := by positivity
    exact hne.ne hvalue

end MoveSplitter

end FlsunT1.Klippy
