/-
  Klippy/RollbackGravity.lean --- the rollback where no line lacks filament
  (klippy/extras/locate_printing_gcode.py).

  Filament runs out by its weight while the print is paused, and the loop rolls back as much
  as that.  A Z change stops it; the target stops it only at the first line that extrudes.
-/
import Mathlib.Algebra.BigOperators.Group.List.Basic
import FlsunT1.Klippy.Rollback

set_option autoImplicit false

namespace FlsunT1.Klippy

open Library

variable {K : Type} [Field K] [LinearOrder K]

/-! ## What is rolled back -/

/-- The filament of the newest lines. -/
def filament (queue : List (GcodeItem K)) (n : Nat) : K := ((queue.take n).map (·.deltaE)).sum

/-- The check of Z after the newest lines. -/
def checkZAfter (queue : List (GcodeItem K)) (n : Nat) : RollbackCheckZChange K :=
  (queue.take n).foldl (fun c item => (c.isBreak item).1) ⟨false, 0⟩

/-- The check of Z flags a line. -/
def Flagged (queue : List (GcodeItem K)) (n : Nat) : Prop :=
  ∃ item, queue[n]? = some item ∧ ((checkZAfter queue n).isBreak item).2 = true

/-- A line extrudes. -/
def Extruding (queue : List (GcodeItem K)) (n : Nat) : Prop :=
  ∃ item, queue[n]? = some item ∧ 0 < item.deltaE

/-- The loop over the newest lines, with whether it has ended. -/
def scanOf (cfg : LocateConfig K) (posE : K) (queue : List (GcodeItem K)) (n : Nat) :
    Scan K × Bool :=
  Scan.init.items cfg posE (queue.take n)

/-- What the rollback is to meet: it chooses a line if one before any flagged one extrudes; the
filament from the chosen line on is no more than the target, or it is the first line that
extrudes; the loop ends at the first line that reaches the target; and no line flagged by the
check of Z is the chosen one or after it. -/
structure RollsBack (cfg : LocateConfig K) (posE : K) (queue : List (GcodeItem K)) : Prop where
  chooses : ∀ n, Extruding queue n → (∀ m ≤ n, ¬ Flagged queue m) →
    ∃ k, Scan.init.place cfg posE queue = some k
  bounded : ∀ n, Scan.init.place cfg posE queue = some n →
    filament queue (n + 1) ≤ cfg.gravityTarget ∨ ∀ m < n, ¬ Extruding queue m
  stops : ∀ n < queue.length, cfg.gravityTarget ≤ filament queue (n + 1) →
    n + 1 = queue.length ∨ (scanOf cfg posE queue (n + 1)).2 = true
  clear : ∀ n, Scan.init.place cfg posE queue = some n → ∀ m ≤ n, ¬ Flagged queue m

/-- The condition: where a line before any flagged one is the first to reach the target, no
line after it extrudes, or it is the oldest one and reaches the target exactly. -/
def ReachesFirst (cfg : LocateConfig K) (queue : List (GcodeItem K)) : Prop :=
  ∀ n < queue.length, (∀ m ≤ n, ¬ Flagged queue m) →
    cfg.gravityTarget ≤ filament queue (n + 1) →
    (∀ m ≤ n, filament queue m < cfg.gravityTarget) →
    (∀ m < n, ¬ Extruding queue m) ∨
      (filament queue (n + 1) = cfg.gravityTarget ∧ n + 1 = queue.length)

/-! ## The loop, line by line -/

section Loop

variable {cfg : LocateConfig K} {posE : K} {s : Scan K} {item : GcodeItem K}

theorem items_cons (items : List (GcodeItem K)) :
    s.items cfg posE (item :: items) =
      if (s.item cfg posE item).2 then ((s.item cfg posE item).1, true)
      else (s.item cfg posE item).1.items cfg posE items := rfl

theorem items_append_singleton (items : List (GcodeItem K)) (item : GcodeItem K) :
    s.items cfg posE (items ++ [item]) =
      if (s.items cfg posE items).2 then s.items cfg posE items
      else (s.items cfg posE items).1.item cfg posE item := by
  induction items generalizing s with
  | nil =>
    show s.items cfg posE [item] = s.item cfg posE item
    rw [items_cons]
    split
    · rename_i hbreak
      exact Prod.ext rfl hbreak.symm
    · rename_i hgoes
      exact Prod.ext rfl (Bool.eq_false_of_not_eq_true hgoes).symm
  | cons first items ih =>
    rw [List.cons_append, items_cons, items_cons]
    split
    · rfl
    · exact ih

theorem place_append_singleton (items : List (GcodeItem K)) (item : GcodeItem K) :
    s.place cfg posE (items ++ [item]) =
      if (s.items cfg posE items).2 then s.place cfg posE items
      else if (s.items cfg posE items).1.picks cfg posE item then some items.length
      else s.place cfg posE items := by
  induction items generalizing s with
  | nil =>
    show s.place cfg posE [item] = if s.picks cfg posE item then some 0 else none
    rw [Scan.place]
    split <;> rfl
  | cons first items ih =>
    rw [List.cons_append, Scan.place, Scan.place, items_cons]
    split
    · rfl
    · rw [ih]
      split
      · rfl
      · split <;> rfl

omit [Field K] in
/-- `check_rollback` says 0 at the target and never -1, as the target is not below the
minimum. -/
theorem checkRollback_eq (hle : cfg.gravityMin ≤ cfg.gravityTarget) (eOffset : K) :
    checkRollback cfg eOffset = if cfg.gravityTarget ≤ eOffset then 0 else 1 := by
  unfold checkRollback
  by_cases htarget : cfg.gravityTarget ≤ eOffset
  · rw [if_pos htarget, if_neg (hle.trans htarget).not_gt, if_neg htarget.not_gt]
  · rw [if_neg htarget]
    have hlt := not_le.mp htarget
    simp only [hlt, if_true, ite_self]

variable [IsStrictOrderedRing K]

theorem item_of_flagged (hend : item.endE < posE + cfg.eOffset)
    (hflag : (s.checkZ.isBreak item).2 = true) :
    (s.item cfg posE item).2 = true ∧ s.picks cfg posE item = false := by
  have hremain : 0 < posE + cfg.eOffset - item.gcodeMoveAfter.position 3 := sub_pos.mpr hend
  unfold Scan.picks Scan.item
  simp only [if_pos hremain, hflag, Bool.not_true, Bool.and_false, if_true, Option.isSome_none,
    and_self]

theorem item_of_reached (hend : item.endE < posE + cfg.eOffset) (hmin : 0 < cfg.gravityMin)
    (hle : cfg.gravityMin ≤ cfg.gravityTarget) (hflag : (s.checkZ.isBreak item).2 = false)
    (hcontinue : s.loopContinue = true) (hrolled : s.isRollback = false)
    (hreached : cfg.gravityTarget ≤ s.compensateGravityValue + item.deltaE) :
    (s.item cfg posE item).2 = true ∧ s.picks cfg posE item = true := by
  have hremain : 0 < posE + cfg.eOffset - item.gcodeMoveAfter.position 3 := sub_pos.mpr hend
  have hcheck : checkRollback cfg (s.compensateGravityValue +
      (item.gcodeMoveAfter.position 3 - item.gcodeMoveBefore.position 3)) = 0 := by
    rw [checkRollback_eq hle]
    exact if_pos hreached
  unfold Scan.picks Scan.item
  simp [hremain, hflag, hcontinue, hmin, hcheck, hrolled]

/-- Any other line is rolled back over, and chosen if it extrudes. -/
theorem item_of_rolled (hend : item.endE < posE + cfg.eOffset) (hmin : 0 < cfg.gravityMin)
    (hle : cfg.gravityMin ≤ cfg.gravityTarget) (hflag : (s.checkZ.isBreak item).2 = false)
    (hcontinue : s.loopContinue = true)
    (hgoes : cfg.gravityTarget ≤ s.compensateGravityValue + item.deltaE → s.isRollback = true) :
    (s.item cfg posE item).2 = false ∧ s.picks cfg posE item = decide (0 < item.deltaE) ∧
      (s.item cfg posE item).1.checkZ = (s.checkZ.isBreak item).1 ∧
      (s.item cfg posE item).1.compensateGravityValue =
        s.compensateGravityValue + item.deltaE ∧
      (s.item cfg posE item).1.isRollback = (s.isRollback || decide (0 < item.deltaE)) ∧
      (s.item cfg posE item).1.loopContinue = true := by
  have hremain : 0 < posE + cfg.eOffset - item.gcodeMoveAfter.position 3 := sub_pos.mpr hend
  have hdelta : item.gcodeMoveAfter.position 3 - item.gcodeMoveBefore.position 3 = item.deltaE :=
    rfl
  have hcheck := checkRollback_eq hle (s.compensateGravityValue + item.deltaE)
  have hnonneg : ¬ checkRollback cfg (s.compensateGravityValue + item.deltaE) < 0 := by
    rw [hcheck]
    split <;> decide
  have hnot : ¬ (checkRollback cfg (s.compensateGravityValue + item.deltaE) = 0 ∧
      s.isRollback = false) := by
    rintro ⟨hzero, hrolled⟩
    rw [hcheck] at hzero
    split at hzero
    · rename_i hreached
      exact absurd ((hgoes hreached).symm.trans hrolled) (Ne.symm Bool.false_ne_true)
    · cases hzero
  unfold Scan.picks Scan.item Scan.goOn
  simp only [if_pos hremain, hflag, hcontinue, hdelta, if_pos hmin, if_neg hnonneg, if_neg hnot,
    Bool.not_false, Bool.and_self, Bool.true_eq_false, if_false]
  by_cases hextrudes : 0 < item.deltaE
  · simp [hextrudes]
  · simp [hextrudes]

end Loop

/-! ## The loop over the newest lines -/

section Queue

variable {cfg : LocateConfig K} {posE : K} {queue : List (GcodeItem K)} {n : Nat}

omit [LinearOrder K] in
theorem filament_zero : filament queue 0 = 0 := List.sum_nil

omit [LinearOrder K] in
theorem filament_succ {item : GcodeItem K} (hitem : queue[n]? = some item) :
    filament queue (n + 1) = filament queue n + item.deltaE := by
  rw [filament, filament, List.take_add_one, hitem, Option.toList_some, List.map_append,
    List.sum_append, List.map_singleton, List.sum_singleton]

theorem checkZAfter_succ {item : GcodeItem K} (hitem : queue[n]? = some item) :
    checkZAfter queue (n + 1) = ((checkZAfter queue n).isBreak item).1 := by
  rw [checkZAfter, checkZAfter, List.take_add_one, hitem, Option.toList_some, List.foldl_append]
  rfl

theorem scanOf_succ {item : GcodeItem K} (hitem : queue[n]? = some item) :
    scanOf cfg posE queue (n + 1) =
      if (scanOf cfg posE queue n).2 then scanOf cfg posE queue n
      else (scanOf cfg posE queue n).1.item cfg posE item := by
  rw [scanOf, List.take_add_one, hitem, Option.toList_some, items_append_singleton]
  rfl

/-- The place that the loop chooses of the newest lines. -/
def placeOf (cfg : LocateConfig K) (posE : K) (queue : List (GcodeItem K)) (n : Nat) :
    Option Nat :=
  Scan.init.place cfg posE (queue.take n)

theorem placeOf_succ {item : GcodeItem K} (hitem : queue[n]? = some item) :
    placeOf cfg posE queue (n + 1) =
      if (scanOf cfg posE queue n).2 then placeOf cfg posE queue n
      else if (scanOf cfg posE queue n).1.picks cfg posE item then some n
      else placeOf cfg posE queue n := by
  have hlength : (queue.take n).length = n :=
    List.length_take_of_le (List.getElem?_eq_some_iff.mp hitem).1.le
  rw [placeOf, List.take_add_one, hitem, Option.toList_some, place_append_singleton, hlength]
  rfl

/-- The loop has not ended: it has rolled back over all the newest lines. -/
structure Rolled (cfg : LocateConfig K) (posE : K) (queue : List (GcodeItem K)) (n : Nat) :
    Prop where
  checkZ : (scanOf cfg posE queue n).1.checkZ = checkZAfter queue n
  compensated : (scanOf cfg posE queue n).1.compensateGravityValue = filament queue n
  isRollback : (scanOf cfg posE queue n).1.isRollback = true ↔ ∃ m < n, Extruding queue m
  loopContinue : (scanOf cfg posE queue n).1.loopContinue = true
  clear : ∀ m < n, ¬ Flagged queue m
  unreached : ∀ m < n, cfg.gravityTarget ≤ filament queue (m + 1) → ∃ i < m, Extruding queue i
  chosen : ∀ m, placeOf cfg posE queue n = some m → m < n
  newest : ∀ m < n, Extruding queue m → ∃ k, m ≤ k ∧ placeOf cfg posE queue n = some k

/-- The loop has ended at a line: it is flagged and the choice is as before, or it is the
first one that extrudes, reaches the target and is chosen. -/
inductive EndsAt (cfg : LocateConfig K) (posE : K) (queue : List (GcodeItem K)) (n : Nat) : Prop
  | flagged (hflag : Flagged queue n)
      (hplace : placeOf cfg posE queue (n + 1) = placeOf cfg posE queue n)
  | reached (hclear : ¬ Flagged queue n) (hfirst : ∀ m < n, ¬ Extruding queue m)
      (htarget : cfg.gravityTarget ≤ filament queue (n + 1))
      (hplace : placeOf cfg posE queue (n + 1) = some n)

theorem rolled_zero : Rolled cfg posE queue 0 where
  checkZ := rfl
  compensated := rfl
  isRollback := ⟨fun h => absurd h Bool.false_ne_true, fun ⟨_, hm, _⟩ => absurd hm (Nat.not_lt_zero _)⟩
  loopContinue := rfl
  clear _ hm := absurd hm (Nat.not_lt_zero _)
  unreached _ hm := absurd hm (Nat.not_lt_zero _)
  chosen _ h := absurd h (Option.some_ne_none _).symm
  newest _ hm := absurd hm (Nat.not_lt_zero _)

theorem flagged_iff {item : GcodeItem K} (hitem : queue[n]? = some item) :
    Flagged queue n ↔ ((checkZAfter queue n).isBreak item).2 = true := by
  constructor
  · rintro ⟨item', hitem', hflag⟩
    obtain rfl := Option.some.inj (hitem.symm.trans hitem')
    exact hflag
  · exact fun hflag => ⟨item, hitem, hflag⟩

theorem extruding_iff {item : GcodeItem K} (hitem : queue[n]? = some item) :
    Extruding queue n ↔ 0 < item.deltaE := by
  constructor
  · rintro ⟨item', hitem', hextrudes⟩
    obtain rfl := Option.some.inj (hitem.symm.trans hitem')
    exact hextrudes
  · exact fun hextrudes => ⟨item, hitem, hextrudes⟩

theorem Extruding.lt_length (h : Extruding queue n) : n < queue.length := by
  obtain ⟨item, hitem, -⟩ := h
  exact (List.getElem?_eq_some_iff.mp hitem).1

variable [IsStrictOrderedRing K]

/-- A line is rolled back over, or the loop ends at it. -/
theorem Rolled.step (h : Rolled cfg posE queue n) (hgoes : (scanOf cfg posE queue n).2 = false)
    {item : GcodeItem K} (hitem : queue[n]? = some item)
    (hend : item.endE < posE + cfg.eOffset) (hmin : 0 < cfg.gravityMin)
    (hle : cfg.gravityMin ≤ cfg.gravityTarget) :
    ((scanOf cfg posE queue (n + 1)).2 = false ∧ Rolled cfg posE queue (n + 1)) ∨
      ((scanOf cfg posE queue (n + 1)).2 = true ∧ EndsAt cfg posE queue n) := by
  have hscan : scanOf cfg posE queue (n + 1) =
      if (scanOf cfg posE queue n).2 then scanOf cfg posE queue n
      else (scanOf cfg posE queue n).1.item cfg posE item := scanOf_succ hitem
  have hplace : placeOf cfg posE queue (n + 1) =
      if (scanOf cfg posE queue n).2 then placeOf cfg posE queue n
      else if (scanOf cfg posE queue n).1.picks cfg posE item then some n
      else placeOf cfg posE queue n := placeOf_succ hitem
  rw [hgoes, if_neg Bool.false_ne_true] at hscan hplace
  have hflag := flagged_iff hitem
  rw [← h.checkZ] at hflag
  cases hbreak : ((scanOf cfg posE queue n).1.checkZ.isBreak item).2 with
  | true =>
    obtain ⟨hends, hpick⟩ := item_of_flagged hend hbreak
    rw [hpick, if_neg Bool.false_ne_true] at hplace
    exact .inr ⟨hscan ▸ hends, .flagged (hflag.mpr hbreak) hplace⟩
  | false =>
    have hclear : ¬ Flagged queue n := fun hf => absurd (hbreak.symm.trans (hflag.mp hf))
      Bool.false_ne_true
    by_cases hreached : cfg.gravityTarget ≤ filament queue (n + 1) ∧ ¬ ∃ m < n, Extruding queue m
    · have hrolled := Bool.eq_false_of_not_eq_true (hreached.2 ∘ h.isRollback.mp)
      have htarget := hreached.1
      rw [filament_succ hitem, ← h.compensated] at htarget
      obtain ⟨hends, hpick⟩ := item_of_reached hend hmin hle hbreak h.loopContinue hrolled htarget
      rw [hpick, if_pos rfl] at hplace
      exact .inr ⟨hscan ▸ hends, .reached hclear
        (fun m hm hextrudes => hreached.2 ⟨m, hm, hextrudes⟩) hreached.1 hplace⟩
    · have hgo : cfg.gravityTarget ≤
          (scanOf cfg posE queue n).1.compensateGravityValue + item.deltaE →
          (scanOf cfg posE queue n).1.isRollback = true := by
        rw [h.compensated, ← filament_succ hitem, h.isRollback]
        exact fun htarget => not_not.mp fun hnone => hreached ⟨htarget, hnone⟩
      obtain ⟨hgoes', hpick, hcheckZ, hcompensated, hrollback, hcontinue⟩ :=
        item_of_rolled hend hmin hle hbreak h.loopContinue hgo
      rw [← hscan] at hgoes' hcheckZ hcompensated hrollback hcontinue
      refine .inl ⟨hgoes', ?_, ?_, ?_, hcontinue, ?_, ?_, ?_, ?_⟩
      · rw [hcheckZ, h.checkZ, checkZAfter_succ hitem]
      · rw [hcompensated, h.compensated, filament_succ hitem]
      · rw [hrollback, Bool.or_eq_true, decide_eq_true_iff, h.isRollback, Nat.exists_lt_succ_right,
          extruding_iff hitem]
      · intro m hm
        obtain hlt | rfl := Nat.lt_succ_iff_lt_or_eq.mp hm
        · exact h.clear m hlt
        · exact hclear
      · intro m hm htarget
        obtain hlt | rfl := Nat.lt_succ_iff_lt_or_eq.mp hm
        · exact h.unreached m hlt htarget
        · exact not_not.mp fun hnone => hreached ⟨htarget, hnone⟩
      · intro m hm
        rw [hplace] at hm
        split at hm
        · exact (Option.some.inj hm) ▸ Nat.lt_succ_self _
        · exact Nat.lt_succ_of_lt (h.chosen m hm)
      · intro m hm hextruding
        rw [hplace, hpick]
        obtain hlt | rfl := Nat.lt_succ_iff_lt_or_eq.mp hm
        · obtain ⟨k, hmk, hk⟩ := h.newest m hlt hextruding
          split
          · exact ⟨n, hlt.le, rfl⟩
          · exact ⟨k, hmk, hk⟩
        · rw [decide_eq_true ((extruding_iff hitem).mp hextruding)]
          exact ⟨m, le_rfl, rfl⟩

theorem rolled_or_ends (hlack : ∀ item ∈ queue, item.endE < posE + cfg.eOffset)
    (hmin : 0 < cfg.gravityMin) (hle : cfg.gravityMin ≤ cfg.gravityTarget)
    (hn : n ≤ queue.length) :
    ((scanOf cfg posE queue n).2 = false ∧ Rolled cfg posE queue n) ∨
      ((scanOf cfg posE queue n).2 = true ∧ ∃ m < n, Rolled cfg posE queue m ∧
        EndsAt cfg posE queue m ∧ placeOf cfg posE queue n = placeOf cfg posE queue (m + 1)) := by
  induction n with
  | zero => exact .inl ⟨rfl, rolled_zero⟩
  | succ n ih =>
    have hitem : queue[n]? = some queue[n] := List.getElem?_eq_getElem hn
    obtain ⟨hgoes, hrolled⟩ | ⟨hends, m, hm, hrolled, hendsAt, hplace⟩ := ih (Nat.le_of_succ_le hn)
    · have hend := hlack _ (List.mem_of_getElem? hitem)
      obtain hstep | ⟨hends, hendsAt⟩ := hrolled.step hgoes hitem hend hmin hle
      · exact .inl hstep
      · exact .inr ⟨hends, n, Nat.lt_succ_self n, hrolled, hendsAt, rfl⟩
    · refine .inr ⟨?_, m, Nat.lt_succ_of_lt hm, hrolled, hendsAt, ?_⟩
      · rw [scanOf_succ hitem, hends]
        exact hends
      · rw [placeOf_succ hitem, hends]
        exact hplace

omit [IsStrictOrderedRing K] in
theorem exists_first (htarget : 0 < cfg.gravityTarget)
    (hn : cfg.gravityTarget ≤ filament queue (n + 1)) :
    ∃ k ≤ n, cfg.gravityTarget ≤ filament queue (k + 1) ∧
      ∀ m ≤ k, filament queue m < cfg.gravityTarget := by
  classical
  have hexists : ∃ j, cfg.gravityTarget ≤ filament queue j := ⟨n + 1, hn⟩
  have hspec := Nat.find_spec hexists
  have hmin := fun m => Nat.find_min (m := m) hexists
  have hbound := Nat.find_min' hexists hn
  generalize Nat.find hexists = j at hspec hmin hbound
  cases j with
  | zero =>
    rw [filament_zero] at hspec
    exact absurd htarget hspec.not_gt
  | succ k =>
    refine ⟨k, Nat.le_of_succ_le_succ hbound, hspec, fun m hm => ?_⟩
    exact not_le.mp (hmin m (Nat.lt_succ_of_le hm))

omit [IsStrictOrderedRing K] in
/-- Where the loop rolled back over a line at which the target is reached, the line is the
oldest and reaches the target exactly. -/
theorem Rolled.reached_last {k : Nat} (hrolled : Rolled cfg posE queue k)
    (h : ReachesFirst cfg queue) (htarget : 0 < cfg.gravityTarget) (hnk : n < k)
    (hk : k ≤ queue.length) (hn : cfg.gravityTarget ≤ filament queue (n + 1)) :
    n + 1 = queue.length ∧ filament queue (n + 1) = cfg.gravityTarget := by
  obtain ⟨first, hfirst, hreached, hbelow⟩ := exists_first htarget hn
  have hclear : ∀ m ≤ first, ¬ Flagged queue m := fun m hm => hrolled.clear m (by omega)
  obtain hnone | ⟨heq, hlast⟩ := h first (by omega) hclear hreached hbelow
  · obtain ⟨i, hi, hextruding⟩ := hrolled.unreached first (by omega) hreached
    exact absurd hextruding (hnone i hi)
  · obtain rfl : first = n := by omega
    exact ⟨hlast, heq⟩

/-- **Exactly when the rollback is bounded.**  Where no line lacks filament, and the target is
not below a positive minimum, the loop rolls back as it is to if and only if the first line to
reach the target has no line after it that extrudes, or is the oldest and reaches it exactly. -/
theorem rollsBack_iff (hlack : ∀ item ∈ queue, item.endE < posE + cfg.eOffset)
    (hmin : 0 < cfg.gravityMin) (hle : cfg.gravityMin ≤ cfg.gravityTarget) :
    RollsBack cfg posE queue ↔ ReachesFirst cfg queue := by
  have htarget : 0 < cfg.gravityTarget := hmin.trans_le hle
  have hwhole : Scan.init.place cfg posE queue = placeOf cfg posE queue queue.length := by
    rw [placeOf, List.take_length]
  constructor
  · intro h n hn hclear hreached hbelow
    obtain ⟨hgoes, hrolled⟩ | ⟨-, m, hm, -, hends, -⟩ := rolled_or_ends hlack hmin hle hn
    · have hlast := (h.stops n hn hreached).resolve_right
        fun hends => absurd (hgoes.symm.trans hends) Bool.false_ne_true
      have hitem : queue[n]? = some queue[n] := List.getElem?_eq_getElem hn
      have hextruding : Extruding queue n := by
        rw [extruding_iff hitem]
        rw [filament_succ hitem] at hreached
        linarith [hbelow n le_rfl]
      obtain ⟨k, hnk, hk⟩ := hrolled.newest n (Nat.lt_succ_self n) hextruding
      obtain rfl : k = n := le_antisymm (Nat.le_of_lt_succ (hrolled.chosen k hk)) hnk
      rw [Nat.succ_eq_add_one, hlast, ← hwhole] at hk
      refine (h.bounded k hk).symm.imp_right fun hbounded => ⟨?_, hlast⟩
      exact le_antisymm hbounded hreached
    · cases hends with
      | flagged hflag _ => exact absurd hflag (hclear m (Nat.le_of_lt_succ hm))
      | reached _ hfirst hmtarget _ =>
        obtain rfl : m = n := by
          by_contra hne
          exact absurd hmtarget (hbelow (m + 1) (by omega)).not_ge
        exact .inl hfirst
  · intro h
    refine ⟨fun n hextruding hclear => ?_, fun n hplace => ?_, fun n hn hreached => ?_,
      fun n hplace => ?_⟩
    · rw [hwhole]
      obtain ⟨-, hrolled⟩ | ⟨-, m, hm, hrolled, hends, hsame⟩ := rolled_or_ends hlack hmin hle le_rfl
      · obtain ⟨k, -, hk⟩ := hrolled.newest n hextruding.lt_length hextruding
        exact ⟨k, hk⟩
      · rw [hsame]
        cases hends with
        | flagged hflag hbefore =>
          have hnm : n < m := by
            by_contra hle
            exact hclear m (not_lt.mp hle) hflag
          obtain ⟨k, -, hk⟩ := hrolled.newest n hnm hextruding
          exact ⟨k, hbefore.trans hk⟩
        | reached _ _ _ hchosen => exact ⟨m, hchosen⟩
    · rw [← not_lt]
      by_contra hnot
      obtain ⟨hnot, hextruding⟩ := not_or.mp hnot
      have hbeyond := not_not.mp hnot
      have hreached := hbeyond.le
      have hn := place_lt hplace
      rw [hwhole] at hplace
      obtain ⟨-, hrolled⟩ | ⟨-, m, hm, hrolled, hends, hsame⟩ := rolled_or_ends hlack hmin hle le_rfl
      · have heq := (hrolled.reached_last h htarget hn le_rfl hreached).2
        exact absurd heq.le hbeyond.not_ge
      · rw [hsame] at hplace
        cases hends with
        | flagged _ hbefore =>
          have hnm := hrolled.chosen n (hbefore.symm.trans hplace)
          have hlast := (hrolled.reached_last h htarget hnm hm.le hreached).1
          omega
        | reached _ hfirst _ hchosen =>
          obtain rfl := Option.some.inj (hchosen.symm.trans hplace)
          exact hextruding hfirst
    · obtain ⟨-, hrolled⟩ | ⟨hends, -⟩ := rolled_or_ends hlack hmin hle hn
      · exact .inl (hrolled.reached_last h htarget (Nat.lt_succ_self n) hn hreached).1
      · exact .inr hends
    · have hn := place_lt hplace
      rw [hwhole] at hplace
      obtain ⟨-, hrolled⟩ | ⟨-, m, hm, hrolled, hends, hsame⟩ := rolled_or_ends hlack hmin hle le_rfl
      · exact fun i hi => hrolled.clear i (hi.trans_lt hn)
      · rw [hsame] at hplace
        cases hends with
        | flagged _ hbefore =>
          have hnm := hrolled.chosen n (hbefore.symm.trans hplace)
          exact fun i hi => hrolled.clear i (hi.trans_lt hnm)
        | reached hclear _ _ hchosen =>
          obtain rfl := Option.some.inj (hchosen.symm.trans hplace)
          intro i hi
          obtain hlt | rfl := hi.lt_or_eq
          · exact hrolled.clear i hlt
          · exact hclear

end Queue

/-- The newest line reaches the target of 3 mm. -/
theorem rollsBack_iff_newest :
    RollsBack (⟨5, 1, 3⟩ : LocateConfig ℚ) 5 [extrudedLine 200 1 5, extrudedLine 100 0 1] := by
  apply (rollsBack_iff (by decide +kernel) (by decide +kernel) (by decide +kernel)).mpr
  intro n hn _ _ hbelow
  cases n with
  | zero => exact .inl fun m hm => absurd hm (Nat.not_lt_zero m)
  | succ n =>
    have hfirst := hbelow 1 (Nat.succ_le_succ (Nat.zero_le n))
    exact absurd hfirst (by decide +kernel)

/-- Three lines of 1 mm each, with a target of 2 mm: all 3 mm are rolled back. -/
theorem rolled_back_past_target :
    let cfg : LocateConfig ℚ := ⟨27 / 2, 1, 2⟩
    let queue := [extrudedLine 300 2 3, extrudedLine 200 1 2, extrudedLine 100 0 1]
    (∀ item ∈ queue, item.endE < 3 + cfg.eOffset) ∧ 0 < cfg.gravityMin ∧
      cfg.gravityMin ≤ cfg.gravityTarget ∧ Scan.init.place cfg 3 queue = some 2 ∧
      filament queue 3 = 3 ∧ ¬ RollsBack cfg 3 queue := by
  intro cfg queue
  have hplace : Scan.init.place cfg 3 queue = some 2 := by decide +kernel
  refine ⟨by decide +kernel, by decide +kernel, by decide +kernel, hplace, by decide +kernel,
    fun h => ?_⟩
  obtain hbounded | hfirst := h.bounded 2 hplace
  · exact absurd hbounded (by decide +kernel)
  · exact hfirst 0 (by decide) ⟨_, rfl, by decide +kernel⟩

end FlsunT1.Klippy
