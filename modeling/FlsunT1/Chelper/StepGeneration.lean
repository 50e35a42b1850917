/-
  Chelper/StepGeneration.lean --- for which times steps are generated.

  Source: klipper/klippy/chelper/itersolve.c (check_active, itersolve_generate_steps, and the
  limits of itersolve_gen_steps_range).  What is kept of a call of itersolve_gen_steps_range is
  its move and its two times; the solver behind it is left out, and so are calls that fail.
  The solver does nothing for a range that ends before it starts.
-/
import FlsunT1.Chelper.TrapQ
import FlsunT1.Library.Run
import Mathlib.Data.List.TakeWhile
import Mathlib.Algebra.Order.Field.Rat

set_option autoImplicit false

namespace FlsunT1.Chelper

open FlsunT1.Library

/-! ## The generator -/

/-- The fields of `struct stepper_kinematics` that decide on the times; the three flags are those
of `active_flags`. -/
structure StepperKinematics (K : Type) where
  lastFlushTime : K
  lastMoveTime : K
  genStepsPreActive : K
  genStepsPostActive : K
  afX : Bool
  afY : Bool
  afZ : Bool

/-- A call of `itersolve_gen_steps_range`. -/
structure StepRange (K : Type) where
  move : Move K
  absStart : K
  absEnd : K

section Generate

variable {K : Type} [Field K] [LinearOrder K]

/-- The times that `itersolve_gen_steps_range` goes through. -/
def StepRange.span (r : StepRange K) : Span K :=
  let start := r.absStart - r.move.printTime
  let stop := r.absEnd - r.move.printTime
  let start := if start < 0 then 0 else start
  let stop := if stop > r.move.moveT then r.move.moveT else stop
  { start := r.move.printTime + start, stop := r.move.printTime + stop }

/-- `check_active`: check if a move is likely to cause movement on a stepper. -/
def checkActive (sk : StepperKinematics K) (m : Move K) : Bool :=
  (sk.afX && decide (m.axesR.x ≠ 0)) || (sk.afY && decide (m.axesR.y ≠ 0)) ||
    (sk.afZ && decide (m.axesR.z ≠ 0))

/-- `while (--skip_count && pm->print_time > abs_start)`: the moves from `pm` up to the current
one.  The first list holds the moves before the current one, the latest first. -/
def walkBack (absStart : K) : Nat → List (Move K) → List (Move K) → Option (List (Move K))
  | _, [], _ => none
  | skipCount, pm :: older, found =>
      if skipCount - 1 ≠ 0 ∧ pm.printTime > absStart then
        walkBack absStart (skipCount - 1) older (pm :: found)
      else some (pm :: found)

/-- The variables of the loop of `itersolve_generate_steps`, and its calls. -/
structure Walk (K : Type) where
  lastMoveTime : K
  forceStepsTime : K
  skipCount : Nat
  calls : List (StepRange K)

/-- Where the steps leading up to stepper activity start. -/
def preActiveStart (sk : StepperKinematics K) (lastFlushTime : K) (m : Move K) (w : Walk K) : K :=
  let absStart := m.printTime - sk.genStepsPreActive
  let absStart := if absStart < lastFlushTime then lastFlushTime else absStart
  if absStart < w.forceStepsTime then w.forceStepsTime else absStart

/-- The calls for the steps leading up to stepper activity. -/
def preActiveCalls (sk : StepperKinematics K) (lastFlushTime flushTime : K)
    (passed : List (Move K)) (m : Move K) (w : Walk K) : Option (List (StepRange K)) :=
  if w.skipCount ≠ 0 ∧ sk.genStepsPreActive ≠ 0 then
    let absStart := preActiveStart sk lastFlushTime m w
    (walkBack absStart w.skipCount passed []).map fun found =>
      found.map fun pm => { move := pm, absStart := absStart, absEnd := flushTime }
  else some []

/-- The loop of `itersolve_generate_steps`.  The lists hold the moves that have been passed, the
latest first, and those that follow. -/
def generateLoop (sk : StepperKinematics K) (lastFlushTime flushTime : K) :
    List (Move K) → List (Move K) → Walk K → Option (Walk K)
  | _, [], _ => none
  | passed, m :: rest, w =>
      if checkActive sk m then
        match preActiveCalls sk lastFlushTime flushTime passed m w with
        | none => none
        | some calls =>
            -- generate steps for this move
            let calls := w.calls ++
              (calls ++ [{ move := m, absStart := lastFlushTime, absEnd := flushTime }])
            if m.moveEnd ≥ flushTime then
              some { w with lastMoveTime := flushTime, calls := calls }
            else
              generateLoop sk lastFlushTime flushTime (m :: passed) rest
                { lastMoveTime := m.moveEnd
                  forceStepsTime := m.moveEnd + sk.genStepsPostActive
                  skipCount := 0
                  calls := calls }
      else
        let w :=
          if m.printTime < w.forceStepsTime then
            -- must generate steps just past stepper activity
            let absEnd := if w.forceStepsTime > flushTime then flushTime else w.forceStepsTime
            { w with
              calls := w.calls ++ [{ move := m, absStart := lastFlushTime, absEnd := absEnd }]
              skipCount := 1 }
          else { w with skipCount := w.skipCount + 1 }
        if flushTime + sk.genStepsPreActive ≤ m.moveEnd then some w
        else generateLoop sk lastFlushTime flushTime (m :: passed) rest w

/-- `itersolve_generate_steps`: generate step times for a range of moves on the trapq. -/
def itersolveGenerateSteps (never flushTime : K) (sk : StepperKinematics K) (tq : TrapQ K) :
    Option (StepperKinematics K × TrapQ K × List (StepRange K)) :=
  let lastFlushTime := sk.lastFlushTime
  let tq := trapqCheckSentinels never tq
  let past := tq.entries.takeWhile fun m => decide (lastFlushTime ≥ m.moveEnd)
  let rest := tq.entries.dropWhile fun m => decide (lastFlushTime ≥ m.moveEnd)
  (generateLoop sk lastFlushTime flushTime past.reverse rest
    { lastMoveTime := sk.lastMoveTime
      forceStepsTime := sk.lastMoveTime + sk.genStepsPostActive
      skipCount := 0
      calls := [] }).map fun w =>
    ({ sk with lastFlushTime := flushTime, lastMoveTime := w.lastMoveTime }, tq, w.calls)

end Generate

section Times

variable {K : Type} [Field K] [LinearOrder K] [IsStrictOrderedRing K]

/-! ## Times of a call -/

theorem StepRange.span_start (r : StepRange K) : r.span.start = max r.absStart r.move.printTime := by
  unfold StepRange.span
  dsimp only
  split
  · rename_i hlt
    rw [add_zero, max_eq_right (by linarith)]
  · rename_i hge
    rw [add_sub_cancel, max_eq_left (by linarith)]

theorem StepRange.span_stop (r : StepRange K) : r.span.stop = min r.absEnd r.move.moveEnd := by
  unfold StepRange.span Move.moveEnd
  dsimp only
  split
  · rename_i hgt
    rw [min_eq_right (by linarith)]
  · rename_i hle
    rw [add_sub_cancel, min_eq_left (by linarith)]

theorem StepRange.contains {r : StepRange K} {t : K} (hstart : r.absStart ≤ t)
    (hmove : r.move.printTime ≤ t) (hend : t < r.absEnd) (hmoveEnd : t < r.move.moveEnd) :
    r.span.Contains t := by
  unfold Span.Contains
  rw [r.span_start, r.span_stop]
  exact ⟨max_le hstart hmove, lt_min hend hmoveEnd⟩

theorem StepRange.before_of_calls {r r' : StepRange K} (h : r.absEnd ≤ r'.absStart) :
    r.span.Before r'.span := by
  intro _ _
  rw [r.span_stop, r'.span_start]
  exact (min_le_left _ _).trans (h.trans (le_max_left _ _))

theorem StepRange.before_of_moves {r r' : StepRange K} (h : r.move.moveEnd ≤ r'.move.printTime) :
    r.span.Before r'.span := by
  intro _ _
  rw [r.span_stop, r'.span_start]
  exact (min_le_right _ _).trans (h.trans (le_max_right _ _))

/-- The times of calls. -/
abbrev spans (calls : List (StepRange K)) : List (Span K) := calls.map StepRange.span

omit [IsStrictOrderedRing K] in
theorem ordered_append {calls calls' : List (StepRange K)} (h : Span.Ordered (spans calls))
    (h' : Span.Ordered (spans calls'))
    (hbefore : ∀ r ∈ calls, ∀ r' ∈ calls', r.span.Before r'.span) :
    Span.Ordered (spans (calls ++ calls')) := by
  unfold spans
  rw [List.map_append]
  refine h.append h' ?_
  intro a ha b hb
  obtain ⟨r, hr, rfl⟩ := List.mem_map.mp ha
  obtain ⟨r', hr', rfl⟩ := List.mem_map.mp hb
  exact hbefore r hr r' hr'

omit [IsStrictOrderedRing K] in
theorem covers_append {calls : List (StepRange K)} (calls' : List (StepRange K)) {t : K}
    (h : Span.Covers (spans calls) t) : Span.Covers (spans (calls ++ calls')) t := by
  unfold spans
  rw [List.map_append]
  exact h.left

omit [IsStrictOrderedRing K] in
theorem covers_of_mem {calls : List (StepRange K)} {r : StepRange K} {t : K} (hr : r ∈ calls)
    (h : r.span.Contains t) : Span.Covers (spans calls) t :=
  ⟨r.span, List.mem_map_of_mem hr, h⟩

/-! ## Required times -/

/-- A time in a move that is active, or in the window before or after one. -/
def Required (sk : StepperKinematics K) (moves : List (Move K)) (t : K) : Prop :=
  ∃ a ∈ moves, checkActive sk a = true ∧ a.printTime - sk.genStepsPreActive ≤ t ∧
    t < a.moveEnd + sk.genStepsPostActive

/-- Every move is before `m`, or it is `m`, or it is after it. -/
def Placed (moves : List (Move K)) (m : Move K) : Prop :=
  ∀ a ∈ moves, 0 < a.moveT ∧
    (a.moveEnd ≤ m.printTime ∨ a = m ∨ m.moveEnd ≤ a.printTime)

/-- What is known in the loop when all moves up to the time `p` have been passed.  `back` are those
that were skipped last, the latest first. -/
structure Walking (sk : StepperKinematics K) (lastFlushTime flushTime : K) (moves : List (Move K))
    (back : List (Move K)) (p : K) (w : Walk K) : Prop where
  length : back.length = w.skipCount
  chain : back.reverse.IsChain fun a b => a.moveEnd = b.printTime
  meets : ∀ x ∈ back.head?, x.moveEnd = p
  times : ∀ x ∈ back, 0 < x.moveT
  ordered : Span.Ordered (spans w.calls)
  within : ∀ r ∈ w.calls, lastFlushTime ≤ r.absStart ∧ r.absEnd ≤ flushTime
  passed : ∀ r ∈ w.calls, r.move.moveEnd ≤ p
  forced : ∀ r ∈ w.calls, r.absEnd ≤ w.forceStepsTime ∨ ∀ x ∈ back, r.move.moveEnd ≤ x.printTime
  covers : ∀ t, lastFlushTime ≤ t → t < flushTime → (∃ e ∈ moves, e.printTime ≤ t) → t < p →
    Required sk moves t →
      Span.Covers (spans w.calls) t ∨ (w.forceStepsTime ≤ t ∧ ∃ x ∈ back, x.printTime ≤ t)
  last : ∀ a ∈ moves, checkActive sk a = true → a.moveEnd ≤ p → a.moveEnd ≤ w.lastMoveTime
  force : w.forceStepsTime = w.lastMoveTime + sk.genStepsPostActive

/-- What a whole flush has done. -/
structure Generated (sk : StepperKinematics K) (lastFlushTime flushTime : K)
    (moves : List (Move K)) (w : Walk K) : Prop where
  ordered : Span.Ordered (spans w.calls)
  within : ∀ r ∈ w.calls, lastFlushTime ≤ r.absStart ∧ r.absEnd ≤ flushTime
  covers : ∀ t, lastFlushTime ≤ t → t < flushTime → (∃ e ∈ moves, e.printTime ≤ t) →
    Required sk moves t → Span.Covers (spans w.calls) t
  last : ∀ a ∈ moves, checkActive sk a = true → a.moveEnd ≤ flushTime →
    a.moveEnd ≤ w.lastMoveTime

/-! ## Before an active move -/

omit [Field K] [IsStrictOrderedRing K] in
/-- The walk goes back to the move that contains the start, or over all skipped ones. -/
theorem walkBack_spec (absStart : K) (older : List (Move K)) :
    ∀ (back found : List (Move K)), back ≠ [] →
      ∃ skipped bs, back.reverse = skipped ++ bs ∧
        walkBack absStart back.length (back ++ older) found = some (bs ++ found) ∧
        ∀ t, absStart ≤ t → (∃ x ∈ back, x.printTime ≤ t) → ∃ y ∈ bs, y.printTime ≤ t := by
  intro back
  induction back with
  | nil =>
    intro found hne
    exact absurd rfl hne
  | cons pm back ih =>
    intro found _
    rw [List.cons_append, List.reverse_cons, List.length_cons]
    unfold walkBack
    rw [Nat.add_sub_cancel]
    split
    · rename_i hback
      have hne : back ≠ [] := fun hnil => hback.1 (hnil ▸ rfl)
      obtain ⟨skipped, bs, hrev, hwalk, hreach⟩ := ih (pm :: found) hne
      refine ⟨skipped, bs ++ [pm], ?_, ?_, ?_⟩
      · rw [hrev, List.append_assoc]
      · rw [hwalk, List.append_assoc]
        rfl
      · rintro t ht ⟨x, hx, hle⟩
        rcases List.mem_cons.mp hx with rfl | hx
        · exact ⟨x, List.mem_append_right _ (List.mem_singleton.mpr rfl), hle⟩
        · obtain ⟨y, hy, hle'⟩ := hreach t ht ⟨x, hx, hle⟩
          exact ⟨y, List.mem_append_left _ hy, hle'⟩
    · rename_i hstop
      refine ⟨back.reverse, [pm], rfl, rfl, ?_⟩
      rintro t ht ⟨x, hx, hle⟩
      refine ⟨pm, List.mem_singleton.mpr rfl, ?_⟩
      rcases List.mem_cons.mp hx with rfl | hx
      · exact hle
      · have hnear : pm.printTime ≤ absStart := by
          by_contra hfar
          refine hstop ⟨?_, not_le.mp hfar⟩
          intro hzero
          rw [List.length_eq_zero_iff.mp hzero] at hx
          cases hx
        exact hnear.trans ht

section Loop

variable {sk : StepperKinematics K} {lastFlushTime flushTime p : K} {moves back : List (Move K)}
  {m : Move K} {w : Walk K}

omit [IsStrictOrderedRing K] in
theorem preActiveStart_eq : preActiveStart sk lastFlushTime m w =
    max (max (m.printTime - sk.genStepsPreActive) lastFlushTime) w.forceStepsTime := by
  unfold preActiveStart
  dsimp only
  rw [max_def_lt, max_def_lt]

/-- A time that is required, but after the window of everything that has ended, is in the window
before a move to come. -/
theorem Walking.window (h : Walking sk lastFlushTime flushTime moves back p w) {t : K}
    (hforce : w.forceStepsTime ≤ t) (hreq : Required sk moves t) :
    ∃ a ∈ moves, checkActive sk a = true ∧ p < a.moveEnd ∧
      a.printTime - sk.genStepsPreActive ≤ t := by
  obtain ⟨a, ha, hactive, hpre, hpost⟩ := hreq
  refine ⟨a, ha, hactive, ?_, hpre⟩
  by_contra hle
  have hend := h.last a ha hactive (not_lt.mp hle)
  rw [h.force] at hforce
  linarith

/-- The steps leading up to an active move that starts at `p`. -/
theorem Walking.preActive (h : Walking sk lastFlushTime flushTime moves back p w)
    (older : List (Move K)) (hplaced : Placed moves m) (hpos : 0 < m.moveT)
    (hm : m.printTime = p) :
    ∃ calls, preActiveCalls sk lastFlushTime flushTime (back ++ older) m w = some calls ∧
      Span.Ordered (spans (w.calls ++ calls)) ∧
      (∀ r ∈ calls, lastFlushTime ≤ r.absStart ∧ r.absEnd = flushTime ∧ r.move.moveEnd ≤ p) ∧
      ∀ t, lastFlushTime ≤ t → t < flushTime → (∃ e ∈ moves, e.printTime ≤ t) → t < p →
        Required sk moves t → Span.Covers (spans (w.calls ++ calls)) t := by
  -- where the window of `m` has not begun no window of a later move has
  have hbefore : ∀ t, w.forceStepsTime ≤ t → Required sk moves t →
      m.printTime - sk.genStepsPreActive ≤ t := by
    intro t hforce hreq
    obtain ⟨a, ha, -, hend, hpre⟩ := h.window hforce hreq
    obtain ⟨-, hle | rfl | hge⟩ := hplaced a ha
    · exact absurd hend (not_lt.mpr (hm ▸ hle))
    · exact hpre
    · have hm0 := hpos.le
      unfold Move.moveEnd at hge
      linarith
  unfold preActiveCalls
  split
  · rename_i hskip
    have hne : back ≠ [] := by
      rintro rfl
      exact hskip.1 h.length.symm
    obtain ⟨skipped, bs, hrev, hwalk, hreach⟩ :=
      walkBack_spec (preActiveStart sk lastFlushTime m w) older back [] hne
    have hmem : ∀ y ∈ bs, y ∈ back := fun y hy =>
      List.mem_reverse.mp (hrev ▸ List.mem_append_right _ hy)
    have hchain : bs.IsChain fun a b => a.moveEnd = b.printTime := by
      have hchain := h.chain
      rw [hrev] at hchain
      exact hchain.right_of_append
    have hend : ∀ x ∈ bs.getLast?, x.moveEnd = p := by
      intro x hx
      refine h.meets x ?_
      rw [← List.getLast?_reverse, hrev, List.getLast?_append, Option.mem_def.mp hx]
      rfl
    have hle : ∀ y ∈ bs, y.printTime ≤ y.moveEnd := by
      intro y hy
      have htime := h.times y (hmem y hy)
      unfold Move.moveEnd
      linarith
    have hpairs := stop_le_start_of_chain hchain hle
    dsimp only
    rw [← h.length, hwalk, List.append_nil]
    refine ⟨_, rfl, ?_, ?_, ?_⟩
    · refine ordered_append h.ordered ?_ ?_
      · unfold spans Span.Ordered
        rw [List.map_map, List.pairwise_map]
        exact hpairs.imp fun hab => StepRange.before_of_moves hab
      · intro r hr r' hr'
        obtain ⟨y, hy, rfl⟩ := List.mem_map.mp hr'
        rcases h.forced r hr with hforce | hearlier
        · refine StepRange.before_of_calls (hforce.trans ?_)
          dsimp only
          rw [preActiveStart_eq]
          exact le_max_right _ _
        · exact StepRange.before_of_moves (hearlier y (hmem y hy))
    · intro r hr
      obtain ⟨y, hy, rfl⟩ := List.mem_map.mp hr
      refine ⟨?_, rfl, ?_⟩
      · dsimp only
        rw [preActiveStart_eq]
        exact (le_max_right _ _).trans (le_max_left _ _)
      · exact stop_le_of_chain hchain hle hend hy
    · intro t hlow hhigh he htp hreq
      rcases h.covers t hlow hhigh he htp hreq with hcov | ⟨hforce, x, hx, hxt⟩
      · exact covers_append _ hcov
      · have hstart : preActiveStart sk lastFlushTime m w ≤ t := by
          rw [preActiveStart_eq]
          exact max_le (max_le (hbefore t hforce hreq) hlow) hforce
        obtain ⟨y, hy, hyt, hty⟩ := exists_contains_of_chain hchain hend
          (hreach t hstart ⟨x, hx, hxt⟩) htp
        refine covers_of_mem (List.mem_append_right _ (List.mem_map_of_mem hy)) ?_
        exact StepRange.contains hstart hyt hhigh hty
  · rename_i hskip
    refine ⟨[], rfl, ?_, fun r hr => absurd hr List.not_mem_nil, ?_⟩
    · rw [List.append_nil]
      exact h.ordered
    · intro t hlow hhigh he htp hreq
      rw [List.append_nil]
      rcases h.covers t hlow hhigh he htp hreq with hcov | ⟨hforce, x, hx, hxt⟩
      · exact hcov
      · have hcount : w.skipCount ≠ 0 := by
          rw [← h.length]
          intro hzero
          rw [List.length_eq_zero_iff.mp hzero] at hx
          cases hx
        have hpre : sk.genStepsPreActive = 0 := by
          by_contra hpre
          exact hskip ⟨hcount, hpre⟩
        have hwindow := hbefore t hforce hreq
        rw [hpre, sub_zero, hm] at hwindow
        exact absurd htp (not_lt.mpr hwindow)

/-- An active move, with the steps that lead up to it. -/
theorem Walking.active (h : Walking sk lastFlushTime flushTime moves back p w)
    {calls : List (StepRange K)} (hpos : 0 < m.moveT) (hm : m.printTime = p)
    (hordered : Span.Ordered (spans (w.calls ++ calls)))
    (hcalls : ∀ r ∈ calls, lastFlushTime ≤ r.absStart ∧ r.absEnd = flushTime ∧
      r.move.moveEnd ≤ p)
    (hcovers : ∀ t, lastFlushTime ≤ t → t < flushTime → (∃ e ∈ moves, e.printTime ≤ t) → t < p →
      Required sk moves t → Span.Covers (spans (w.calls ++ calls)) t) :
    let all := w.calls ++
      (calls ++ [{ move := m, absStart := lastFlushTime, absEnd := flushTime }])
    Span.Ordered (spans all) ∧
      (∀ r ∈ all, (lastFlushTime ≤ r.absStart ∧ r.absEnd ≤ flushTime) ∧
        r.move.moveEnd ≤ m.moveEnd) ∧
      ∀ t, lastFlushTime ≤ t → t < flushTime → (∃ e ∈ moves, e.printTime ≤ t) → t < m.moveEnd →
        Required sk moves t → Span.Covers (spans all) t := by
  have hpm : p ≤ m.moveEnd := by
    unfold Move.moveEnd
    linarith
  have hearlier : ∀ r ∈ w.calls ++ calls, (lastFlushTime ≤ r.absStart ∧ r.absEnd ≤ flushTime) ∧
      r.move.moveEnd ≤ p := by
    intro r hr
    rcases List.mem_append.mp hr with hr | hr
    · exact ⟨h.within r hr, h.passed r hr⟩
    · obtain ⟨h1, h2, h3⟩ := hcalls r hr
      exact ⟨⟨h1, h2.le⟩, h3⟩
  dsimp only
  rw [← List.append_assoc]
  refine ⟨?_, ?_, ?_⟩
  · refine ordered_append hordered (List.pairwise_singleton _ _) ?_
    intro r hr r' hr'
    rw [List.mem_singleton.mp hr']
    exact StepRange.before_of_moves ((hearlier r hr).2.trans hm.ge)
  · intro r hr
    rcases List.mem_append.mp hr with hr | hr
    · exact ⟨(hearlier r hr).1, (hearlier r hr).2.trans hpm⟩
    · rw [List.mem_singleton.mp hr]
      exact ⟨⟨le_refl _, le_refl _⟩, le_refl _⟩
  · intro t hlow hhigh he htm hreq
    rcases lt_or_ge t p with hlt | hge
    · exact covers_append _ (hcovers t hlow hhigh he hlt hreq)
    · refine covers_of_mem (List.mem_append_right _ (List.mem_singleton.mpr rfl)) ?_
      exact StepRange.contains hlow (hm ▸ hge) hhigh htm

/-- A move that is not active: the steps just past the activity before it, or none. -/
theorem Walking.inactive (h : Walking sk lastFlushTime flushTime moves back p w)
    (hplaced : Placed moves m) (hpos : 0 < m.moveT) (hm : m.printTime = p)
    (hactive : checkActive sk m = false) :
    ∃ back', Walking sk lastFlushTime flushTime moves back' m.moveEnd
      (if m.printTime < w.forceStepsTime then
        { w with
          calls := w.calls ++ [{ move := m, absStart := lastFlushTime, absEnd :=
            if w.forceStepsTime > flushTime then flushTime else w.forceStepsTime }]
          skipCount := 1 }
      else { w with skipCount := w.skipCount + 1 }) ∧
      (∃ dropped, m :: back = back' ++ dropped) := by
  have hpm : p < m.moveEnd := by
    unfold Move.moveEnd
    linarith
  have hlast : ∀ a ∈ moves, checkActive sk a = true → a.moveEnd ≤ m.moveEnd →
      a.moveEnd ≤ w.lastMoveTime := by
    intro a ha hact hle
    obtain ⟨hapos, hbefore | rfl | hafter⟩ := hplaced a ha
    · exact h.last a ha hact (hm ▸ hbefore)
    · rw [hactive] at hact
      cases hact
    · unfold Move.moveEnd at hle hafter
      linarith
  split
  · rename_i hforced
    refine ⟨[m], ⟨rfl, List.isChain_singleton _, ?_, ?_, ?_, ?_, ?_, ?_, ?_, hlast, h.force⟩,
      back, rfl⟩
    · intro x hx
      rw [← Option.some.inj (Option.mem_def.mp hx)]
    · intro x hx
      rw [List.mem_singleton.mp hx]
      exact hpos
    · refine ordered_append h.ordered (List.pairwise_singleton _ _) ?_
      intro r hr r' hr'
      rw [List.mem_singleton.mp hr']
      exact StepRange.before_of_moves ((h.passed r hr).trans hm.ge)
    · intro r hr
      rcases List.mem_append.mp hr with hr | hr
      · exact h.within r hr
      · rw [List.mem_singleton.mp hr]
        refine ⟨le_refl _, ?_⟩
        dsimp only
        split
        · exact le_refl _
        · rename_i hle
          exact not_lt.mp hle
    · intro r hr
      rcases List.mem_append.mp hr with hr | hr
      · exact (h.passed r hr).trans hpm.le
      · rw [List.mem_singleton.mp hr]
    · intro r hr
      rcases List.mem_append.mp hr with hr | hr
      · right
        intro x hx
        rw [List.mem_singleton.mp hx, hm]
        exact h.passed r hr
      · left
        rw [List.mem_singleton.mp hr]
        dsimp only
        split
        · rename_i hgt
          exact hgt.le
        · exact le_refl _
    · intro t hlow hhigh he htm hreq
      dsimp only
      rcases lt_or_ge t p with hlt | hge
      · left
        rcases h.covers t hlow hhigh he hlt hreq with hcov | ⟨hforce, -⟩
        · exact covers_append _ hcov
        · rw [hm] at hforced
          exact absurd (hforce.trans_lt hlt) (not_lt.mpr hforced.le)
      · rcases lt_or_ge t w.forceStepsTime with hin | hout
        · left
          refine covers_of_mem (List.mem_append_right _ (List.mem_singleton.mpr rfl)) ?_
          refine StepRange.contains hlow (hm ▸ hge) ?_ htm
          dsimp only
          split
          · exact hhigh
          · exact hin
        · exact Or.inr ⟨hout, m, List.mem_singleton.mpr rfl, hm ▸ hge⟩
  · rename_i hskipped
    rw [not_lt] at hskipped
    refine ⟨m :: back, ⟨?_, ?_, ?_, ?_, h.ordered, h.within, ?_, ?_, ?_, hlast, h.force⟩, [],
      (List.append_nil _).symm⟩
    · rw [List.length_cons, h.length]
    · rw [List.reverse_cons]
      refine List.isChain_append.mpr ⟨h.chain, List.isChain_singleton _, ?_⟩
      intro x hx y hy
      rw [List.getLast?_reverse] at hx
      rw [← Option.some.inj (Option.mem_def.mp hy), hm]
      exact h.meets x hx
    · intro x hx
      rw [← Option.some.inj (Option.mem_def.mp hx)]
    · intro x hx
      rcases List.mem_cons.mp hx with rfl | hx
      · exact hpos
      · exact h.times x hx
    · intro r hr
      exact (h.passed r hr).trans hpm.le
    · intro r hr
      rcases h.forced r hr with hforce | hearlier
      · exact Or.inl hforce
      · right
        intro x hx
        rcases List.mem_cons.mp hx with rfl | hx
        · exact (h.passed r hr).trans hm.ge
        · exact hearlier x hx
    · intro t hlow hhigh he htm hreq
      rcases lt_or_ge t p with hlt | hge
      · rcases h.covers t hlow hhigh he hlt hreq with hcov | ⟨hforce, x, hx, hxt⟩
        · exact Or.inl hcov
        · exact Or.inr ⟨hforce, x, List.mem_cons_of_mem _ hx, hxt⟩
      · rw [← hm] at hge
        exact Or.inr ⟨hskipped.trans hge, m, List.mem_cons_self, hge⟩

omit [IsStrictOrderedRing K] in
theorem Walking.restart {calls : List (StepRange K)} (hordered : Span.Ordered (spans calls))
    (hcalls : ∀ r ∈ calls, (lastFlushTime ≤ r.absStart ∧ r.absEnd ≤ flushTime) ∧
      r.move.moveEnd ≤ m.moveEnd)
    (hcovers : ∀ t, lastFlushTime ≤ t → t < flushTime → (∃ e ∈ moves, e.printTime ≤ t) →
      t < m.moveEnd → Required sk moves t → Span.Covers (spans calls) t) :
    Walking sk lastFlushTime flushTime moves [] m.moveEnd
      { lastMoveTime := m.moveEnd
        forceStepsTime := m.moveEnd + sk.genStepsPostActive
        skipCount := 0
        calls := calls } where
  length := rfl
  chain := List.isChain_nil
  meets := fun _ hx => by cases hx
  times := fun _ hx => absurd hx List.not_mem_nil
  ordered := hordered
  within := fun r hr => (hcalls r hr).1
  passed := fun r hr => (hcalls r hr).2
  forced := fun _ _ => Or.inr fun _ hx => absurd hx List.not_mem_nil
  covers := fun t hlow hhigh he htm hreq => Or.inl (hcovers t hlow hhigh he htm hreq)
  last := fun _ _ _ hle => hle
  force := rfl

theorem Walking.done (h : Walking sk lastFlushTime flushTime moves back m.moveEnd w)
    (hplaced : Placed moves m) (hpos : 0 < m.moveT) (hpre : 0 ≤ sk.genStepsPreActive)
    (hactive : checkActive sk m = false)
    (hfar : flushTime + sk.genStepsPreActive ≤ m.moveEnd) :
    Generated sk lastFlushTime flushTime moves w where
  ordered := h.ordered
  within := h.within
  covers := by
    intro t hlow hhigh he hreq
    have htm : t < m.moveEnd := by linarith
    rcases h.covers t hlow hhigh he htm hreq with hcov | ⟨hforce, -⟩
    · exact hcov
    · obtain ⟨a, ha, hact, hend, hwindow⟩ := h.window hforce hreq
      obtain ⟨hapos, hbefore | rfl | hafter⟩ := hplaced a ha
      · unfold Move.moveEnd at hend hbefore
        linarith
      · rw [hactive] at hact
        cases hact
      · linarith
  last := fun a ha hact hle => h.last a ha hact (by linarith)

/-- The loop of `itersolve_generate_steps` comes to an end, at the tail sentinel at the latest. -/
theorem generateLoop_spec (hpre : 0 ≤ sk.genStepsPreActive) :
    ∀ (rest back older : List (Move K)) (p : K) (w : Walk K), rest ≠ [] →
      (rest.IsChain fun a b => a.moveEnd = b.printTime) →
      (∀ m ∈ rest.head?, m.printTime = p) →
      (∀ m ∈ rest, Placed moves m ∧ 0 < m.moveT) →
      (∀ m ∈ rest.getLast?, checkActive sk m = false ∧
        flushTime + sk.genStepsPreActive ≤ m.moveEnd) →
      Walking sk lastFlushTime flushTime moves back p w →
      ∃ w', generateLoop sk lastFlushTime flushTime (back ++ older) rest w = some w' ∧
        Generated sk lastFlushTime flushTime moves w' := by
  intro rest
  induction rest with
  | nil =>
    intro _ _ _ _ hne
    exact absurd rfl hne
  | cons m rest ih =>
    intro back older p w _ hchain hhead hmoves htail h
    have hm := hhead m rfl
    obtain ⟨hplaced, hpos⟩ := hmoves m List.mem_cons_self
    have hrestHead : ∀ x ∈ rest.head?, x.printTime = m.moveEnd := by
      intro x hx
      cases rest with
      | nil => cases hx
      | cons y rest =>
        rw [← Option.some.inj (Option.mem_def.mp hx)]
        exact (List.isChain_cons_cons.mp hchain).1.symm
    have hrestMoves : ∀ x ∈ rest, Placed moves x ∧ 0 < x.moveT := fun x hx =>
      hmoves x (List.mem_cons_of_mem _ hx)
    have hrestTail : ∀ x ∈ rest.getLast?, checkActive sk x = false ∧
        flushTime + sk.genStepsPreActive ≤ x.moveEnd := by
      intro x hx
      refine htail x ?_
      rw [List.getLast?_cons, Option.mem_def.mp hx]
      rfl
    have hmore : ¬(checkActive sk m = false ∧ flushTime + sk.genStepsPreActive ≤ m.moveEnd) →
        rest ≠ [] := by
      rintro hnot rfl
      exact hnot (htail m rfl)
    unfold generateLoop
    split
    · rename_i hactive
      obtain ⟨calls, heq, hordered, hcalls, hcovers⟩ :=
        h.preActive older hplaced hpos hm
      obtain ⟨hall, hwithin, hcov⟩ := h.active hpos hm hordered hcalls hcovers
      rw [heq]
      dsimp only
      split
      · rename_i hend
        refine ⟨_, rfl, hall, fun r hr => (hwithin r hr).1, ?_, fun a _ _ hle => hle⟩
        intro t hlow hhigh he hreq
        exact hcov t hlow hhigh he (hhigh.trans_le hend) hreq
      · have hne : rest ≠ [] := hmore fun hnot => by
          rw [hactive] at hnot
          cases hnot.1
        exact ih [] (m :: (back ++ older)) m.moveEnd _ hne hchain.tail hrestHead hrestMoves
          hrestTail (Walking.restart hall hwithin hcov)
    · rename_i hactive
      rw [Bool.not_eq_true] at hactive
      obtain ⟨back', hwalking, dropped, hback⟩ := h.inactive hplaced hpos hm hactive
      dsimp only
      split
      · rename_i hfar
        exact ⟨_, rfl, hwalking.done hplaced hpos hpre hactive hfar⟩
      · rename_i hnear
        have hpassed : m :: (back ++ older) = back' ++ (dropped ++ older) := by
          rw [← List.cons_append, hback, List.append_assoc]
        rw [hpassed]
        exact ih back' (dropped ++ older) m.moveEnd _ (hmore fun hnot => hnear hnot.2)
          hchain.tail hrestHead hrestMoves hrestTail hwalking

end Loop

/-! ## Flushes -/

/-- What one flush leaves for the next one: every active move that has ended is known. -/
def Noted (sk : StepperKinematics K) (moves : List (Move K)) : Prop :=
  ∀ a ∈ moves, checkActive sk a = true → a.moveEnd ≤ sk.lastFlushTime →
    a.moveEnd ≤ sk.lastMoveTime

theorem placed_of_chain {moves entries : List (Move K)} {m : Move K}
    (hchain : entries.IsChain fun a b => a.moveEnd = b.printTime)
    (htimes : ∀ x ∈ entries, 0 < x.moveT) (hsub : ∀ a ∈ moves, a ∈ entries) (hm : m ∈ entries) :
    Placed moves m := by
  have hle : ∀ x ∈ entries, x.printTime ≤ x.moveEnd := by
    intro x hx
    have htime := htimes x hx
    unfold Move.moveEnd
    linarith
  have hpairs := stop_le_start_of_chain hchain hle
  have hall := List.Pairwise.forall_of_forall_of_flip
    (R := fun a b : Move K => a.moveEnd ≤ b.printTime ∨ a = b ∨ b.moveEnd ≤ a.printTime)
    (fun a _ => Or.inr (Or.inl rfl)) (hpairs.imp Or.inl)
    (hpairs.imp fun hab => Or.inr (Or.inr hab))
  exact fun a ha => ⟨htimes a (hsub a ha), hall (hsub a ha) hm⟩

/-- Where the loop starts: all moves before have ended at the last flush. -/
theorem Walking.start {sk : StepperKinematics K} (flushTime : K) {moves past rest : List (Move K)}
    {m : Move K}
    (hchain : (past ++ m :: rest).IsChain fun a b => a.moveEnd = b.printTime)
    (htimes : ∀ x ∈ past ++ m :: rest, 0 < x.moveT) (hsub : ∀ a ∈ moves, a ∈ past ++ m :: rest)
    (hpast : ∀ x ∈ past, x.moveEnd ≤ sk.lastFlushTime) (hnoted : Noted sk moves) :
    Walking sk sk.lastFlushTime flushTime moves [] m.printTime
      { lastMoveTime := sk.lastMoveTime
        forceStepsTime := sk.lastMoveTime + sk.genStepsPostActive
        skipCount := 0
        calls := [] } := by
  have hle : ∀ x ∈ past ++ m :: rest, x.printTime < x.moveEnd := by
    intro x hx
    have htime := htimes x hx
    unfold Move.moveEnd
    linarith
  obtain ⟨hchainPast, -, hmeet⟩ := List.isChain_append.mp hchain
  obtain ⟨-, hpairs, hcross⟩ := List.pairwise_append.mp
    (stop_le_start_of_chain hchain fun x hx => (hle x hx).le)
  refine ⟨rfl, List.isChain_nil, ?_, ?_, List.Pairwise.nil, ?_, ?_, ?_, ?_, ?_, rfl⟩
  · exact fun _ hx => by cases hx
  · exact fun _ hx => absurd hx List.not_mem_nil
  · exact fun _ hr => absurd hr List.not_mem_nil
  · exact fun _ hr => absurd hr List.not_mem_nil
  · exact fun _ hr => absurd hr List.not_mem_nil
  · -- between two moves there is no time left over
    rintro t hlow - ⟨e, he, het⟩ htm -
    exfalso
    rcases List.mem_append.mp (hsub e he) with hmem | hmem
    · obtain ⟨y, hy, -, hty⟩ := exists_contains_of_chain hchainPast
        (fun x hx => hmeet x hx m rfl) ⟨e, hmem, het⟩ htm
      exact absurd (hlow.trans_lt hty) (not_lt.mpr (hpast y hy))
    · rcases List.mem_cons.mp hmem with rfl | hmem
      · exact absurd het (not_le.mpr htm)
      · have hafter := (List.pairwise_cons.mp hpairs).1 e hmem
        have hm := hle m (List.mem_append_right past List.mem_cons_self)
        exact absurd (hm.trans_le (hafter.trans het)) (not_lt.mpr htm.le)
  · intro a ha hact hend
    refine hnoted a ha hact ?_
    rcases List.mem_append.mp (hsub a ha) with hmem | hmem
    · exact hpast a hmem
    · have hstart := hle a (hsub a ha)
      rcases List.mem_cons.mp hmem with rfl | hmem
      · exact absurd hstart (not_lt.mpr hend)
      · have hafter := (List.pairwise_cons.mp hpairs).1 a hmem
        have hm := hle m (List.mem_append_right past List.mem_cons_self)
        exact absurd (hm.trans_le (hafter.trans hstart.le)) (not_lt.mpr hend)

omit [IsStrictOrderedRing K] in
theorem checkActive_still (sk : StepperKinematics K) {m : Move K} (h : m.axesR = ⟨0, 0, 0⟩) :
    checkActive sk m = false := by
  unfold checkActive
  rw [h]
  simp

/-- A flush with its moves known: it comes to an end, and its calls are as they should be. -/
theorem itersolveGenerateSteps_spec {never flushTime : K} {sk : StepperKinematics K} {tq : TrapQ K}
    (htq : tq.Contiguous never) (hstart : 0 ≤ sk.lastFlushTime) (hpre : 0 ≤ sk.genStepsPreActive)
    (hlater : sk.lastFlushTime ≤ flushTime) (hnever : flushTime + sk.genStepsPreActive < never)
    (hnoted : Noted sk tq.moves) :
    ∃ w, itersolveGenerateSteps never flushTime sk tq =
        some ({ sk with lastFlushTime := flushTime, lastMoveTime := w.lastMoveTime },
          trapqCheckSentinels never tq, w.calls) ∧
      Generated sk sk.lastFlushTime flushTime tq.moves w := by
  obtain ⟨htq', hmoves, htail⟩ := htq.check
  rw [← hmoves] at hnoted ⊢
  unfold itersolveGenerateSteps
  dsimp only
  generalize trapqCheckSentinels never tq = tq' at *
  have hpos : 0 < never := by linarith
  have hchain := htq'.chain_tail htail
  have htimes := htq'.times_tail hpos htail
  have hfar : flushTime + sk.genStepsPreActive < tq'.tailSentinel.moveEnd := by
    have htime := (htimes tq'.tailSentinel (by simp)).1
    unfold Move.moveEnd
    rw [htq'.tail.2]
    linarith
  -- the head sentinel and the moves that have ended are passed
  set ended : Move K → Bool := fun m => decide (sk.lastFlushTime ≥ m.moveEnd) with hended
  have hhead : ended moveAlloc = true := by
    refine decide_eq_true ?_
    unfold Move.moveEnd moveAlloc
    rw [add_zero]
    exact hstart
  unfold TrapQ.entries
  rw [List.cons_append, List.takeWhile_cons_of_pos hhead, List.dropWhile_cons_of_pos hhead]
  set l := tq'.moves ++ [tq'.tailSentinel] with hl
  have hsplit := List.takeWhile_append_dropWhile (p := ended) (l := l)
  have hpast : ∀ x ∈ l.takeWhile ended, x.moveEnd ≤ sk.lastFlushTime := by
    intro x hx
    have hx := List.mem_takeWhile_imp hx
    exact of_decide_eq_true hx
  have hlastMem : tq'.tailSentinel ∈ l := by simp [hl]
  have hdrop : l.dropWhile ended ≠ [] := by
    intro hnil
    rw [hnil, List.append_nil] at hsplit
    have hend := hpast tq'.tailSentinel (hsplit.symm ▸ hlastMem)
    linarith
  obtain ⟨m, rest, hrest⟩ := List.exists_cons_of_ne_nil hdrop
  rw [hrest] at hsplit ⊢
  generalize l.takeWhile ended = past at *
  rw [← hsplit] at hchain htimes hlastMem
  have hsub : ∀ a ∈ tq'.moves, a ∈ past ++ m :: rest := by
    intro a ha
    rw [hsplit]
    exact List.mem_append_left _ ha
  have hwalking := Walking.start flushTime hchain (fun x hx => (htimes x hx).2)
    hsub hpast hnoted
  have htailLast : ∀ x ∈ (m :: rest).getLast?, checkActive sk x = false ∧
      flushTime + sk.genStepsPreActive ≤ x.moveEnd := by
    intro x hx
    have hlast : (past ++ m :: rest).getLast? = some x := by
      rw [List.getLast?_append, Option.mem_def.mp hx]
      rfl
    rw [hsplit, hl, List.getLast?_concat, Option.some.injEq] at hlast
    rw [← hlast]
    exact ⟨checkActive_still sk htq'.tail.1, hfar.le⟩
  obtain ⟨w, hw, hgen⟩ := generateLoop_spec hpre (m :: rest) [] (moveAlloc :: past).reverse
    m.printTime _ (List.cons_ne_nil m rest) (List.isChain_append.mp hchain).2.1
    (fun x hx => by rw [← Option.some.inj (Option.mem_def.mp hx)])
    (fun x hx => ⟨placed_of_chain hchain (fun y hy => (htimes y hy).2) hsub
      (List.mem_append_right past hx), (htimes x (List.mem_append_right past hx)).2⟩) htailLast hwalking
  rw [List.nil_append] at hw
  refine ⟨w, ?_, hgen⟩
  rw [hw]
  rfl

/-! ## Runs -/

/-- A stepper, its queue of moves, and the calls made for it so far. -/
structure Generation (K : Type) where
  sk : StepperKinematics K
  tq : TrapQ K
  calls : List (StepRange K)

/-- What happens to a stepper and its queue. -/
inductive GenerationCall (K : Type)
  | trapqAddMove (m : Move K)
  | itersolveGenerateSteps (flushTime : K)

/-- A stepper that has not moved yet, with a new queue. -/
def Generation.start (never : K) (sk : StepperKinematics K) : Generation K where
  sk := { sk with lastFlushTime := 0, lastMoveTime := 0 }
  tq := trapqAlloc never
  calls := []

def Generation.next (never : K) (g : Generation K) : GenerationCall K → Option (Generation K)
  | .trapqAddMove m => some { g with tq := trapqAddMove m g.tq }
  | .itersolveGenerateSteps flushTime =>
      (itersolveGenerateSteps never flushTime g.sk g.tq).map fun (sk, tq, calls) =>
        { sk := sk, tq := tq, calls := g.calls ++ calls }

/-- Moves are added one after the other, and for times that no flush has asked for: all moves are
known up to `flushTime + genStepsPreActive`.  Flush times increase. -/
def Generation.Allows (never : K) (g : Generation K) : GenerationCall K → Prop
  | .trapqAddMove m =>
      (g.tq.moves.getLast?.getD moveAlloc).moveEnd ≤ m.printTime ∧ 0 < m.printTime ∧
        0 < m.moveT ∧ g.sk.lastFlushTime + g.sk.genStepsPreActive ≤ m.printTime
  | .itersolveGenerateSteps flushTime =>
      g.sk.lastFlushTime ≤ flushTime ∧ flushTime + g.sk.genStepsPreActive < never

instance (never : K) (g : Generation K) : (e : GenerationCall K) → Decidable (g.Allows never e)
  | .trapqAddMove _ => inferInstanceAs (Decidable (_ ∧ _ ∧ _ ∧ _))
  | .itersolveGenerateSteps _ => inferInstanceAs (Decidable (_ ∧ _))

/-- What is known after any number of flushes. -/
structure Generation.Kept (never : K) (g : Generation K) : Prop where
  contiguous : g.tq.Contiguous never
  led : g.tq.Led
  pre : 0 ≤ g.sk.genStepsPreActive
  time : 0 ≤ g.sk.lastFlushTime
  ordered : Span.Ordered (spans g.calls)
  within : ∀ r ∈ g.calls, r.absEnd ≤ g.sk.lastFlushTime
  covers : ∀ t, t < g.sk.lastFlushTime → (∃ e ∈ g.tq.moves, e.printTime ≤ t) →
    Required g.sk g.tq.moves t → Span.Covers (spans g.calls) t
  noted : Noted g.sk g.tq.moves

omit [IsStrictOrderedRing K] in
theorem Generation.kept_start (never : K) {sk : StepperKinematics K}
    (hpre : 0 ≤ sk.genStepsPreActive) : (Generation.start never sk).Kept never where
  contiguous := TrapQ.contiguous_alloc never
  led := TrapQ.led_alloc never
  pre := hpre
  time := le_refl 0
  ordered := List.Pairwise.nil
  within := fun _ hr => absurd hr List.not_mem_nil
  covers := by
    rintro t - ⟨e, he, -⟩
    exact absurd he List.not_mem_nil
  noted := fun _ ha => absurd ha List.not_mem_nil

/-- A move that is added starts too late to be required already. -/
theorem Generation.Kept.addMove {never : K} {g : Generation K} {m : Move K} (h : g.Kept never)
    (hm : g.Allows never (.trapqAddMove m)) :
    Generation.Kept never { g with tq := trapqAddMove m g.tq } := by
  obtain ⟨hafter, hpos, hmove, hlate⟩ := hm
  have hpre := h.pre
  have hnew : ∀ a ∈ (trapqAddMove m g.tq).moves, checkActive g.sk a = true →
      a ∈ g.tq.moves ∨ a = m := by
    rw [trapqAddMove_moves]
    intro a ha hact
    rcases List.mem_append.mp ha with ha | ha
    · exact Or.inl ha
    · rcases List.mem_append.mp ha with ha | ha
      · obtain ⟨-, rfl⟩ := mem_filler ha
        rw [checkActive_still g.sk rfl] at hact
        cases hact
      · exact Or.inr (List.mem_singleton.mp ha)
  refine ⟨h.contiguous.add hafter hpos hmove, h.led.add h.contiguous hafter hpos, hpre, h.time,
    h.ordered, h.within, ?_, ?_⟩
  · rintro t ht ⟨e, he, het⟩ ⟨a, ha, hact, hwindow⟩
    have haOld : a ∈ g.tq.moves := by
      rcases hnew a ha hact with hold | rfl
      · exact hold
      · dsimp only at ht
        linarith [hwindow.1]
    refine h.covers t ht ?_ ⟨a, haOld, hact, hwindow⟩
    rw [trapqAddMove_moves] at he
    rcases List.mem_append.mp he with he | he
    · exact ⟨e, he, het⟩
    · rcases List.mem_append.mp he with he | he
      · -- the null move starts where the last move ends
        have hlast := List.getLast?_eq_some_getLast (List.ne_nil_of_mem haOld)
        generalize g.tq.moves.getLast (List.ne_nil_of_mem haOld) = prev at hlast
        have hprev := List.mem_of_getLast? hlast
        obtain ⟨-, rfl⟩ := mem_filler he
        rw [hlast, Option.getD_some,
          printTime_nullMove m (h.contiguous.last prev hlast).ne'] at het
        refine ⟨prev, hprev, ?_⟩
        have htime := (h.contiguous.times prev hprev).2
        unfold Move.moveEnd at het
        linarith
      · rw [List.mem_singleton.mp he] at het
        dsimp only at ht
        linarith
  · intro a ha hact hend
    rcases hnew a ha hact with hold | rfl
    · exact h.noted a hold hact hend
    · dsimp only at hend
      unfold Move.moveEnd at hend
      linarith

theorem Generation.Kept.generateSteps {never : K} {g : Generation K} {flushTime : K}
    (h : g.Kept never) (hflush : g.Allows never (.itersolveGenerateSteps flushTime)) :
    ∃ g', g.next never (.itersolveGenerateSteps flushTime) = some g' ∧ g'.Kept never := by
  obtain ⟨hlater, hnever⟩ := hflush
  obtain ⟨w, heq, hgen⟩ := itersolveGenerateSteps_spec h.contiguous h.time h.pre hlater hnever
    h.noted
  obtain ⟨hcontiguous, hmoves, -⟩ := h.contiguous.check
  unfold Generation.next
  dsimp only
  rw [heq]
  refine ⟨_, rfl, ?_⟩
  refine ⟨hcontiguous, ?_, h.pre, h.time.trans hlater, ?_, ?_, ?_, ?_⟩
  · have hled := h.led
    unfold TrapQ.Led at hled ⊢
    rwa [hmoves]
  · refine ordered_append h.ordered hgen.ordered ?_
    intro r hr r' hr'
    exact StepRange.before_of_calls ((h.within r hr).trans (hgen.within r' hr').1)
  · intro r hr
    rcases List.mem_append.mp hr with hr | hr
    · exact (h.within r hr).trans hlater
    · exact (hgen.within r hr).2
  · dsimp only
    rw [hmoves]
    intro t ht he hreq
    rcases lt_or_ge t g.sk.lastFlushTime with hbefore | hfrom
    · exact covers_append _ (h.covers t hbefore he hreq)
    · unfold spans
      rw [List.map_append]
      exact (hgen.covers t hfrom ht he hreq).right
  · dsimp only
    rw [hmoves]
    exact hgen.last

/-- Steps are generated once for each time: in every run the times of all calls follow each other,
no time is in two of them, and up to the last flush they cover every active move with the windows
before and after it.  No call that is allowed fails. -/
theorem itersolveGenerateSteps_once {never : K} {sk : StepperKinematics K}
    {es : List (GenerationCall K)} {g : Generation K} (hpre : 0 ≤ sk.genStepsPreActive)
    (h : Run (fun g e g' => g.Allows never e ∧ g.next never e = some g')
      (Generation.start never sk) es g) :
    Span.Ordered (spans g.calls) ∧
      ((spans g.calls).Pairwise fun a b => ∀ t, ¬(a.Contains t ∧ b.Contains t)) ∧
      (∀ t, t < g.sk.lastFlushTime → (∃ e ∈ g.tq.moves, e.printTime ≤ t) →
        Required g.sk g.tq.moves t → Span.Covers (spans g.calls) t) ∧
      (g.sk.genStepsPreActive ≤ maxNullMove → ∀ t, 0 ≤ t → t < g.sk.lastFlushTime →
        Required g.sk g.tq.moves t → Span.Covers (spans g.calls) t) ∧
      ∀ e, g.Allows never e → ∃ g', g.next never e = some g' := by
  have hkept : g.Kept never := by
    refine h.invariant (Generation.kept_start never hpre) ?_
    rintro g e g' hg ⟨hallowed, hnext⟩
    cases e with
    | trapqAddMove m =>
      obtain rfl := Option.some.inj hnext
      exact hg.addMove hallowed
    | itersolveGenerateSteps flushTime =>
      obtain ⟨g'', heq, hkept⟩ := hg.generateSteps hallowed
      rw [heq, Option.some.injEq] at hnext
      exact hnext ▸ hkept
  refine ⟨hkept.ordered, hkept.ordered.disjoint, hkept.covers, ?_, ?_⟩
  · intro hshort t hzero ht hreq
    refine hkept.covers t ht ?_ hreq
    obtain ⟨a, ha, hact, hwindow, -⟩ := hreq
    rcases hkept.led with hnil | ⟨lead, rest, hmoves, -, hstill, hlead⟩
    · rw [hnil] at ha
      cases ha
    · rw [hmoves] at ha ⊢
      refine ⟨lead, List.mem_cons_self, ?_⟩
      rcases List.mem_cons.mp ha with rfl | ha
      · rw [checkActive_still g.sk hstill] at hact
        cases hact
      · exact (hlead a ha).trans (max_le hzero (by linarith))
  · intro e hallowed
    cases e with
    | trapqAddMove m => exact ⟨_, rfl⟩
    | itersolveGenerateSteps flushTime =>
      obtain ⟨g', heq, -⟩ := hkept.generateSteps hallowed
      exact ⟨g', heq⟩

end Times

/-- A carriage along X, with a move along Y between its two moves: a flush falls into the time after
the first one, which is over at the next flush, and steps lead up to the second one. -/
theorem itersolveGenerateSteps_once_corner :
    ∃ g : Generation ℚ, g.sk.lastFlushTime = 6 ∧ spans g.calls =
        [⟨19 / 10, 2⟩, ⟨2, 3⟩, ⟨3, 31 / 10⟩, ⟨31 / 10, 16 / 5⟩, ⟨19 / 5, 16 / 5⟩,
          ⟨79 / 20, 4⟩, ⟨4, 81 / 20⟩, ⟨81 / 20, 101 / 20⟩, ⟨101 / 20, 21 / 4⟩] ∧
      Span.Ordered (spans g.calls) ∧
      ∀ t, 0 ≤ t → t < 6 → Required g.sk g.tq.moves t → Span.Covers (spans g.calls) t := by
  obtain ⟨g, hrun, hg⟩ := Run.exists_of_allowed (f := Generation.next 9999999999999999)
    (C := Generation.Allows 9999999999999999)
    (P := fun g => decide (g.sk.lastFlushTime = 6 ∧ g.sk.genStepsPreActive = 1 / 10 ∧
      spans g.calls =
        [⟨19 / 10, 2⟩, ⟨2, 3⟩, ⟨3, 31 / 10⟩, ⟨31 / 10, 16 / 5⟩, ⟨19 / 5, 16 / 5⟩,
          ⟨79 / 20, 4⟩, ⟨4, 81 / 20⟩, ⟨81 / 20, 101 / 20⟩, ⟨101 / 20, 21 / 4⟩]))
    (s := Generation.start 9999999999999999 (⟨0, 0, 1 / 10, 1 / 5, true, false, false⟩ :
      StepperKinematics ℚ))
    (l := [.trapqAddMove ⟨2, 1, 10, 0, ⟨0, 0, 0⟩, ⟨1, 0, 0⟩⟩,
      .trapqAddMove ⟨3, 1, 10, 0, ⟨10, 0, 0⟩, ⟨0, 1, 0⟩⟩,
      .itersolveGenerateSteps (31 / 10), .itersolveGenerateSteps (19 / 5),
      .trapqAddMove ⟨81 / 20, 1, 10, 0, ⟨10, 10, 0⟩, ⟨1, 0, 0⟩⟩,
      .itersolveGenerateSteps 6]) (by decide +kernel)
  obtain ⟨hflush, hpre, hspans⟩ := of_decide_eq_true hg
  obtain ⟨hordered, -, -, hcovers, -⟩ := itersolveGenerateSteps_once (by decide +kernel) hrun
  refine ⟨g, hflush, hspans, hordered, ?_⟩
  rw [← hflush]
  exact hcovers (by rw [hpre]; decide +kernel)

end FlsunT1.Chelper
