/-
  Klippy/LookAheadRuns.lean --- runs of the look-ahead queue.

  The queue is compared with a plain one, which is only flushed where the toolhead asks for
  it.  What a lazy flush hands over has the junctions that it would have with all the moves
  that come later, so the moves of both queues are driven alike.
-/
import Mathlib.Analysis.Real.Sqrt
import Mathlib.Tactic.LinearCombination
import FlsunT1.Klippy.LookAheadSound

set_option autoImplicit false

namespace FlsunT1.Klippy

open Library

variable {K : Type} [Field K] [LinearOrder K]

/-! ## Runs -/

/-- The limits of the toolhead that moves are built with. -/
structure PlannerReady (t : ToolheadLimits K) : Prop where
  maxVelocity : 0 < t.maxVelocity
  maxAccel : 0 < t.maxAccel
  maxAccelToDecel : 0 < t.maxAccelToDecel ∧ t.maxAccelToDecel ≤ t.maxAccel
  extrudeOnly : t.maxAccelToDecel ≤ 99999999 + 9 / 10
  junctionDeviation : 0 ≤ t.junctionDeviation

/-- What the toolhead asks of its queue. -/
inductive PlanEvent (K : Type)
  | move (limits : ToolheadLimits K) (instantCornerV : Option K) (newpos : Position K) (speed : K)
      (limitings : List (K × K))
  | flush
  | setFlushTime (t : K)
  /-- `set_position`, once the queue is flushed, and `set_extruder` -/
  | setCommandedPos (newpos : Position K)

/-- Speeds and accelerations are positive. -/
def PlanEvent.Allowed : PlanEvent K → Prop
  | .move limits _ _ speed limitings =>
      PlannerReady limits ∧ 0 < speed ∧ ∀ l ∈ limitings, 0 < l.1 ∧ 0 < l.2
  | .flush => True
  | .setFlushTime _ => True
  | .setCommandedPos _ => True

/-- One event. -/
def MoveQueue.step (root : SquareRoot K) (s : MoveQueue K) : PlanEvent K → MoveQueue K
  | .move limits instantCornerV newpos speed limitings =>
      s.move root limits instantCornerV newpos speed limitings
  | .flush => s.flush false
  | .setFlushTime t => { s with junctionFlush := t }
  | .setCommandedPos newpos => { s with commandedPos := newpos }

/-- Runs of the queue. -/
def PlanRun (root : SquareRoot K) : MoveQueue K → List (PlanEvent K) → MoveQueue K → Prop :=
  Run fun s e t => e.Allowed ∧ t = s.step root e

/-! ## Moves as they are built -/

/-- A move that the toolhead submits. -/
structure Drivable (m : Move K) : Prop where
  accel_pos : 0 < m.accel
  moveD_pos : 0 < m.moveD
  deltaV2_eq : m.deltaV2 = 2 * m.moveD * m.accel
  smooth_pos : 0 < m.smoothDeltaV2
  smooth_le : m.smoothDeltaV2 ≤ m.deltaV2
  cruise_pos : 0 < m.maxCruiseV2

theorem Drivable.planned {m : Move K} (h : Drivable m) : Planned m.queued :=
  ⟨h.accel_pos, h.moveD_pos, h.deltaV2_eq, h.smooth_pos, h.smooth_le, h.cruise_pos, le_refl _,
    le_refl _, le_of_lt h.cruise_pos⟩

/-! ## The plain queue -/

/-- A move is put at the end of the queue. -/
def MoveQueue.join (root : SquareRoot K) (junctionDeviation : K) (instantCornerV : Option K)
    (m : Move K) (s : MoveQueue K) : MoveQueue K :=
  { s with
    submitted := s.submitted ++ [m]
    queue := s.queue ++ [match s.queue.getLast? with
      | none => m.queued
      | some prevMove => m.queued.calcJunction root junctionDeviation instantCornerV prevMove] }

theorem addMove_cases (root : SquareRoot K) (junctionDeviation : K) (instantCornerV : Option K)
    (m : Move K) (s : MoveQueue K) : ∃ t,
      s.addMove root junctionDeviation instantCornerV m =
          { s.join root junctionDeviation instantCornerV m with junctionFlush := t } ∨
        s.addMove root junctionDeviation instantCornerV m =
          MoveQueue.flush true
            { s.join root junctionDeviation instantCornerV m with junctionFlush := t } := by
  unfold MoveQueue.addMove MoveQueue.join
  cases hlast : s.queue.getLast? with
  | none =>
    have hnil : s.queue = [] := List.getLast?_eq_none_iff.mp hlast
    refine ⟨s.junctionFlush, .inl ?_⟩
    simp only [hnil, List.nil_append, List.getLast?_nil]
  | some prev =>
    simp only [hlast]
    split
    · exact ⟨_, .inr rfl⟩
    · exact ⟨_, .inl rfl⟩

/-- `ToolHead.move` with a queue that is not flushed. -/
def MoveQueue.moveOnly (root : SquareRoot K) (limits : ToolheadLimits K)
    (instantCornerV : Option K) (newpos : Position K) (speed : K) (limitings : List (K × K))
    (s : MoveQueue K) : MoveQueue K :=
  let m := Move.init root.sqrt limits s.commandedPos newpos speed
  if m.moveD = 0 then s
  else
    let m := limitings.foldl (fun m l => m.limitSpeed l.1 l.2) m
    { s with commandedPos := m.endPos }.join root limits.junctionDeviation instantCornerV m

/-- One event of a queue without lazy flushes. -/
def MoveQueue.plainStep (root : SquareRoot K) (s : MoveQueue K) : PlanEvent K → MoveQueue K
  | .move limits instantCornerV newpos speed limitings =>
      s.moveOnly root limits instantCornerV newpos speed limitings
  | .flush => s.flush false
  | .setFlushTime _ => s
  | .setCommandedPos newpos => { s with commandedPos := newpos }

/-! ## Flushes -/

/-- What a flush does: nothing, or the first moves are handed over with their junctions. -/
theorem flush_cases (isLazy : Bool) {s : MoveQueue K} (hfront : ¬ Delays s.queue) :
    (isLazy = true ∨ s.queue = []) ∧
        s.flush isLazy = { s with junctionFlush := MoveQueue.lookaheadFlushTime } ∨
      ∃ n, (isLazy = true → StopsAt (s.queue.drop n)) ∧
        (isLazy = false → s.queue.drop n = []) ∧
        s.flush isLazy = { s with
          junctionFlush := MoveQueue.lookaheadFlushTime
          queue := s.queue.drop n
          processed := s.processed ++ List.zipWith QueuedMove.setJunction (s.queue.take n)
            ((junctionsFrom 0 s.queue).take n) } := by
  have h := visited_loop isLazy s.queue.length s.queue 0 (Nat.zero_add _)
  generalize hloop : FlushLoop.loop (.init isLazy s.queue.length) 0 s.queue = l at h
  have hnone : l.delayed = [] := by
    by_contra hne
    exact hfront (h.delayed.mp hne)
  have hcalls : l.updateFlushCount = false → ∀ j,
      callsOf j l.calls = (callAt 0 l.flushCount j (junctionsFrom 0 s.queue)).toList := by
    intro hset j
    have hj := h.calls hset 0 j
    rw [hnone] at hj
    exact hj
  have hsame : (∀ j, callsOf j l.calls = []) → s.queue.mapIdx (fun i m =>
      ({ m with junctions := m.junctions ++ callsOf i l.calls } : QueuedMove K)) = s.queue := by
    intro hnil
    refine List.ext_getElem (List.length_mapIdx) fun i hi hi' => ?_
    simp only [List.getElem_mapIdx, hnil, List.append_nil]
  unfold MoveQueue.flush
  simp only [hloop]
  cases hset : l.updateFlushCount with
  | true =>
    obtain ⟨hlazy, hempty⟩ := h.none_set hset
    left
    refine ⟨.inl hlazy, ?_⟩
    simp only [true_or, if_true]
    rw [hsame fun j => by rw [hempty]; rfl]
  | false =>
    have hj := hcalls hset
    by_cases hzero : l.flushCount = 0
    · left
      refine ⟨?_, ?_⟩
      · cases hall : isLazy with
        | true => exact .inl rfl
        | false =>
          have hfull := h.full hall
          rw [hzero, Nat.zero_add] at hfull
          exact .inr (List.length_eq_zero_iff.mp hfull)
      · simp only [hzero, or_true, if_true]
        rw [hsame fun j => by rw [hj, callAt, hzero, if_neg (by omega)]; rfl]
    · right
      refine ⟨l.flushCount, fun hlazy => ?_, fun hall => ?_, ?_⟩
      · obtain ⟨pre, post, hsplit, hlength, hstop⟩ := h.stops hlazy hset
        rw [hsplit, ← hlength, Nat.zero_add, List.drop_left]
        exact hstop
      · rw [← h.full hall, Nat.zero_add, List.drop_length]
      · simp only [hzero, reduceCtorEq, or_self, if_false]
        congr 1
        · refine List.ext_getElem ?_ fun i hi hi' => ?_
          · simp only [List.length_drop, List.length_mapIdx]
          · rw [List.getElem_drop, List.getElem_drop, List.getElem_mapIdx, hj, callAt,
              if_neg (by omega)]
            simp only [Option.toList_none, List.append_nil]
        · congr 1
          refine List.ext_getElem ?_ fun i hi hi' => ?_
          · simp only [List.length_take, List.length_mapIdx, List.length_zipWith,
              length_junctionsFrom, min_self]
          · have hlt : i < l.flushCount := by
              rw [List.length_take] at hi
              omega
            have hlen : i < (junctionsFrom 0 s.queue).length := by
              rw [List.length_take, List.length_mapIdx] at hi
              rw [length_junctionsFrom]
              omega
            rw [List.getElem_take, List.getElem_mapIdx, hj, callAt, if_pos ⟨Nat.zero_le _, hlt⟩,
              List.getElem_zipWith, List.getElem_take, List.getElem_take, Nat.sub_zero,
              List.getElem?_eq_getElem hlen]
            rfl

theorem flush_full {s : MoveQueue K} (hfront : ¬ Delays s.queue) : s.flush false = { s with
    junctionFlush := MoveQueue.lookaheadFlushTime
    queue := []
    processed := s.processed ++
      List.zipWith QueuedMove.setJunction s.queue (junctionsFrom 0 s.queue) } := by
  obtain ⟨hall, heq⟩ | ⟨n, -, hfull, heq⟩ := flush_cases false hfront
  · rcases hall with hlazy | hnil
    · cases hlazy
    · rw [heq, hnil, junctionsFrom, List.zipWith_nil_left, List.append_nil]
  · have hdrop := hfull rfl
    have hle : s.queue.length ≤ n := List.drop_eq_nil_iff.mp hdrop
    rw [heq, hdrop, List.take_of_length_le hle, List.take_of_length_le
      (by rw [length_junctionsFrom]; exact hle)]

omit [Field K] [LinearOrder K] in
theorem map_toMove_zipWith : ∀ {ms : List (QueuedMove K)} {js : List (Junction K)},
    ms.length ≤ js.length → (List.zipWith QueuedMove.setJunction ms js).map QueuedMove.toMove =
      ms.map QueuedMove.toMove := by
  intro ms
  induction ms with
  | nil => intro js _; rfl
  | cons m ms ih =>
    intro js h
    cases js with
    | nil => simp at h
    | cons j js =>
      simp only [List.zipWith_cons_cons, List.map_cons]
      rw [ih (by simpa using h)]
      rfl

/-! ## The same junctions -/

variable {a b : List (QueuedMove K)}

theorem SameFront.cons (h : SameFront a b) (m : QueuedMove K) : SameFront (m :: a) (m :: b) := by
  obtain ⟨hstart, hsmoothed, hdelays, hpeak⟩ := h
  have hsmoothed' : smoothedV2 (m :: a) = smoothedV2 (m :: b) := by
    rw [smoothedV2_cons, smoothedV2_cons, hsmoothed]
  have hdelays' : Delays (m :: a) ↔ Delays (m :: b) := by
    rw [delays_cons, delays_cons, hsmoothed]
  have hpeaks : Peaks m a ↔ Peaks m b := by
    unfold Peaks
    rw [hsmoothed, hsmoothed', hdelays]
  refine ⟨by rw [startV2_cons, startV2_cons, hstart], hsmoothed', hdelays', ?_⟩
  by_cases hnew : ¬ Delays (m :: b) ∧ Peaks m b
  · have hnew' : ¬ Delays (m :: a) ∧ Peaks m a := ⟨hdelays'.not.mpr hnew.1, hpeaks.mpr hnew.2⟩
    rw [peakV2, peakV2, if_pos hnew, if_pos hnew', hsmoothed, hsmoothed']
  · have hnew' : ¬ (¬ Delays (m :: a) ∧ Peaks m a) := fun h =>
      hnew ⟨hdelays'.not.mp h.1, hpeaks.mp h.2⟩
    rw [peakV2, peakV2, if_neg hnew, if_neg hnew', hpeak]

theorem SameFront.append (h : SameFront a b) (pre : List (QueuedMove K)) :
    SameFront (pre ++ a) (pre ++ b) := by
  induction pre with
  | nil => exact h
  | cons m pre ih => exact ih.cons m

theorem SameFront.junctions (h : SameFront a b) (pre : List (QueuedMove K)) : ∀ p : K,
    (junctionsFrom p (pre ++ a)).take pre.length =
      (junctionsFrom p (pre ++ b)).take pre.length := by
  induction pre with
  | nil =>
    intro p
    rw [List.length_nil, List.take_zero, List.take_zero]
  | cons m pre ih =>
    intro p
    have hrest := h.append pre
    have hsame := hrest.cons m
    rw [List.cons_append, List.cons_append]
    by_cases hdelays : Delays (m :: (pre ++ a))
    · rw [junctionsFrom_of_delays hdelays, junctionsFrom_of_delays (hsame.delays.mp hdelays),
        List.length_cons, List.take_succ_cons, List.take_succ_cons, ih, hsame.start, hrest.start]
    · rw [junctionsFrom_of_not_delays hdelays,
        junctionsFrom_of_not_delays (fun hd => hdelays (hsame.delays.mpr hd)),
        List.length_cons, List.take_succ_cons, List.take_succ_cons, ih, cruiseOf, cruiseOf,
        hsame.start, hrest.start, hsame.peak]

theorem junctionsFrom_eq_zero (h : ¬ Delays a) (p : K) : junctionsFrom p a = junctionsFrom 0 a := by
  cases a with
  | nil => rfl
  | cons m rest => rw [junctionsFrom_of_not_delays h, junctionsFrom_of_not_delays h]

theorem zipWith_take {α β γ : Type} (f : α → β → γ) (xs : List α) : ∀ ys : List β,
    List.zipWith f xs (ys.take xs.length) = List.zipWith f xs ys := by
  induction xs with
  | nil => intro ys; rfl
  | cons x xs ih =>
    intro ys
    cases ys with
    | nil => rfl
    | cons y ys =>
      rw [List.length_cons, List.take_succ_cons, List.zipWith_cons_cons, List.zipWith_cons_cons,
        ih]

theorem zipWith_append_left {α β γ : Type} (f : α → β → γ) : ∀ {xs xs' : List α} {ys : List β},
    List.zipWith f (xs ++ xs') ys =
      List.zipWith f xs ys ++ List.zipWith f xs' (ys.drop xs.length) := by
  intro xs
  induction xs with
  | nil => intro xs' ys; rfl
  | cons x xs ih =>
    intro xs' ys
    cases ys with
    | nil => simp
    | cons y ys =>
      rw [List.cons_append, List.zipWith_cons_cons, List.zipWith_cons_cons, ih, List.length_cons,
        List.drop_succ_cons, List.cons_append]

/-! ## Refinement -/

/-- The plain queue: what it has handed over is driven from rest to rest. -/
structure PlainQueue (s : MoveQueue K) : Prop where
  resting : Resting s.queue
  fresh : ∀ m ∈ s.queue, m.junctions = []
  ridden : Ridden 0 s.processed 0
  submitted : s.submitted = (s.processed ++ s.queue).map QueuedMove.toMove

theorem PlainQueue.init (commandedPos : Position K) : PlainQueue (MoveQueue.init commandedPos) where
  resting := ⟨⟨fun m hm => (by cases hm), List.isChain_nil⟩, fun m hm => by cases hm⟩
  fresh := fun m hm => by cases hm
  ridden := rfl
  submitted := rfl

theorem PlainQueue.congr {s t : MoveQueue K} (h : PlainQueue s) (hqueue : t.queue = s.queue)
    (hprocessed : t.processed = s.processed) (hsubmitted : t.submitted = s.submitted) : PlainQueue t :=
  ⟨hqueue ▸ h.resting, hqueue ▸ h.fresh, hprocessed ▸ h.ridden,
    by rw [hqueue, hprocessed, hsubmitted]; exact h.submitted⟩

/-- The queue has handed over moves that the plain one has not, with the junctions that they
will have there, whatever is added. -/
structure Ahead (s plain : MoveQueue K) : Prop where
  commandedPos : s.commandedPos = plain.commandedPos
  submitted : s.submitted = plain.submitted
  empty : s.queue = [] → plain.queue = []
  ahead : ∃ front, plain.queue = front ++ s.queue ∧ ∀ more, Resting (plain.queue ++ more) →
    ¬ Delays (s.queue ++ more) ∧ s.processed = plain.processed ++
      List.zipWith QueuedMove.setJunction front (junctionsFrom 0 (plain.queue ++ more))

namespace Ahead

variable {s plain : MoveQueue K}

theorem congr {t : MoveQueue K} (h : Ahead s plain) (hqueue : t.queue = s.queue)
    (hprocessed : t.processed = s.processed) (hpos : t.commandedPos = s.commandedPos)
    (hsubmitted : t.submitted = s.submitted) : Ahead t plain :=
  ⟨hpos.trans h.commandedPos, hsubmitted.trans h.submitted, hqueue ▸ h.empty,
    by rw [hqueue, hprocessed]; exact h.ahead⟩

theorem join (h : Ahead s plain) (root : SquareRoot K) (junctionDeviation : K)
    (instantCornerV : Option K) (m : Move K) :
    Ahead (s.join root junctionDeviation instantCornerV m)
      (plain.join root junctionDeviation instantCornerV m) := by
  obtain ⟨front, hplain, hahead⟩ := h.ahead
  have hlast : plain.queue.getLast? = s.queue.getLast? := by
    by_cases hnil : s.queue = []
    · rw [hnil, h.empty hnil]
    · rw [hplain, List.getLast?_append_of_ne_nil _ hnil]
  unfold MoveQueue.join
  rw [hlast]
  refine ⟨h.commandedPos, by rw [h.submitted], fun hnil => absurd hnil (by simp), front, ?_,
    fun more hmore => ?_⟩
  · simp only [hplain, List.append_assoc]
  · simp only [List.append_assoc] at hmore ⊢
    exact hahead _ hmore

theorem front (h : Ahead s plain) (hplain : PlainQueue plain) : ¬ Delays s.queue ∧
    ∃ front, plain.queue = front ++ s.queue ∧ s.processed = plain.processed ++
      List.zipWith QueuedMove.setJunction front (junctionsFrom 0 plain.queue) := by
  obtain ⟨front, hfront, hahead⟩ := h.ahead
  have hboth := hahead [] (by rw [List.append_nil]; exact hplain.resting)
  simp only [List.append_nil] at hboth
  exact ⟨hboth.1, front, hfront, hboth.2⟩

theorem flushFull [IsStrictOrderedRing K] (h : Ahead s plain) (hplain : PlainQueue plain) :
    (s.flush false).processed = (plain.flush false).processed := by
  obtain ⟨hdelays, front, hfront, hsame⟩ := h.front hplain
  obtain ⟨p, hp⟩ := junctionsFrom_append front s.queue 0
  rw [← hfront, junctionsFrom_eq_zero hdelays] at hp
  rw [flush_full hdelays, flush_full hplain.resting.not_delays]
  simp only
  rw [hsame, List.append_assoc, ← hp]
  congr 1
  conv_rhs => rw [hfront]
  rw [zipWith_append_left, ← hfront]

end Ahead

/-! ## Moves keep the limits -/

variable [IsStrictOrderedRing K]

theorem drivable_init {root : SquareRoot K} {limits : ToolheadLimits K}
    {startPos endPos : Position K} {speed : K} (h : PlannerReady limits) (hspeed : 0 < speed)
    (hmove : (Move.init root.sqrt limits startPos endPos speed).moveD ≠ 0) :
    Drivable (Move.init root.sqrt limits startPos endPos speed) := by
  obtain ⟨hvelocity, haccel, ⟨hdecel, hdecelle⟩, hextrude, -⟩ := h
  revert hmove
  unfold Move.init
  simp only
  split
  · intro hmove
    have hpos : 0 < |endPos 3 - startPos 3| := lt_of_le_of_ne (abs_nonneg _) (Ne.symm hmove)
    exact
      { accel_pos := by simp only; positivity
        moveD_pos := hpos
        deltaV2_eq := rfl
        smooth_pos := by simp only; positivity
        smooth_le := by
          simp only
          exact mul_le_mul_of_nonneg_left hextrude (by positivity)
        cruise_pos := by simp only; positivity }
  · intro hmove
    rename_i hfar
    have hpos : 0 < root.sqrt (moveDSq startPos endPos) :=
      lt_of_lt_of_le (by positivity) (not_lt.mp hfar)
    have hmin : 0 < min speed limits.maxVelocity := lt_min hspeed hvelocity
    exact
      { accel_pos := haccel
        moveD_pos := hpos
        deltaV2_eq := rfl
        smooth_pos := by simp only; positivity
        smooth_le := by
          simp only
          exact mul_le_mul_of_nonneg_left hdecelle (by positivity)
        cruise_pos := by simp only; positivity }

theorem Drivable.limitSpeed {m : Move K} (h : Drivable m) {speed accel : K} (hspeed : 0 < speed)
    (haccel : 0 < accel) : Drivable (m.limitSpeed speed accel) := by
  obtain ⟨haccel', hmove, hdelta, hsmooth, hle, hcruise⟩ := h
  have hmin : 0 < min m.accel accel := lt_min haccel' haccel
  exact
    { accel_pos := hmin
      moveD_pos := hmove
      deltaV2_eq := rfl
      smooth_pos := by
        simp only [Move.limitSpeed]
        exact lt_min hsmooth (by positivity)
      smooth_le := by
        simp only [Move.limitSpeed]
        exact min_le_right _ _
      cruise_pos := by
        simp only [Move.limitSpeed]
        split
        · positivity
        · exact hcruise }

theorem Drivable.foldl {limitings : List (K × K)} : ∀ {m : Move K}, Drivable m →
    (∀ l ∈ limitings, 0 < l.1 ∧ 0 < l.2) →
      Drivable (limitings.foldl (fun m l => m.limitSpeed l.1 l.2) m) := by
  induction limitings with
  | nil => intro m h _; exact h
  | cons l limitings ih =>
    intro m h hall
    obtain ⟨hspeed, haccel⟩ := hall l List.mem_cons_self
    exact ih (h.limitSpeed hspeed haccel) fun l' hl' => hall l' (List.mem_cons_of_mem _ hl')

/-- The limits that `calc_junction` gives to a move. -/
structure Calculated (prev : QueuedMove K) (m : Move K) (m' : QueuedMove K) : Prop where
  toMove : m'.toMove = m
  junctions : m'.junctions = []
  start_nonneg : 0 ≤ m'.maxStartV2
  start_le : m'.maxStartV2 ≤ m.maxCruiseV2
  joined : JoinedTo prev m'

theorem sqrt_lt_one (root : SquareRoot K) {x : K} (h : 0 ≤ x) (hx : x < 1) : root.sqrt x < 1 := by
  by_contra hge
  have hle : 1 ≤ root.sqrt x := not_lt.mp hge
  have hsq := root.mul_self x h
  nlinarith

theorem extruderCalcJunction_nonneg (instantCornerV : Option K) (prev m : Move K)
    (h : 0 ≤ m.maxCruiseV2) : 0 ≤ extruderCalcJunction instantCornerV prev m := by
  unfold extruderCalcJunction
  cases instantCornerV with
  | none => exact h
  | some v =>
    simp only
    split
    · exact sq_nonneg _
    · exact h

theorem calculated_calcJunction (root : SquareRoot K) {junctionDeviation : K}
    (hdeviation : 0 ≤ junctionDeviation) (instantCornerV : Option K) {prev : QueuedMove K}
    (hprev : Planned prev) {m : Move K} (h : Drivable m) :
    Calculated prev m (m.queued.calcJunction root junctionDeviation instantCornerV prev) := by
  have hreach : 0 ≤ prev.maxStartV2 + prev.deltaV2 := by
    have h1 := hprev.smoothed_nonneg
    have h2 := hprev.smoothed_le
    have h3 := hprev.smooth_pos
    have h4 := hprev.smooth_le
    linarith
  have hsmooth : 0 ≤ prev.maxSmoothedV2 + prev.smoothDeltaV2 := by
    have h1 := hprev.smoothed_nonneg
    have h2 := hprev.smooth_pos
    linarith
  have hstop : Calculated prev m m.queued :=
    ⟨rfl, rfl, le_refl _, le_of_lt h.cruise_pos, hreach, le_of_lt hprev.cruise_pos,
      (min_eq_left hsmooth).symm⟩
  unfold QueuedMove.calcJunction
  simp only
  split
  · exact hstop
  · split
    · exact hstop
    · rename_i hcos
      -- the angle is away from 0 and from 180 degrees
      generalize -(m.queued.axesR 0 * prev.axesR 0 + m.queued.axesR 1 * prev.axesR 1 +
        m.queued.axesR 2 * prev.axesR 2) = cosTheta at hcos
      have hhigh : max cosTheta (-(1 - 1 / 10 ^ 6)) < 1 := by
        refine max_lt (lt_of_le_of_lt (not_lt.mp hcos) ?_) ?_
        · exact sub_lt_self _ (by positivity)
        · have hmillion : (1 : K) / 10 ^ 6 ≤ 1 := by
            rw [div_le_one (by positivity)]
            exact one_le_pow₀ (by norm_num)
          linarith
      have hlow : -1 < max cosTheta (-(1 - 1 / 10 ^ 6)) := by
        refine lt_max_of_lt_right ?_
        have hmillion : (0 : K) < 1 / 10 ^ 6 := by positivity
        linarith
      generalize max cosTheta (-(1 - 1 / 10 ^ 6)) = c at hhigh hlow
      have hsin : root.sqrt (1 / 2 * (1 - c)) < 1 := by
        refine sqrt_lt_one root ?_ ?_ <;> linarith
      have hsin' := root.nonneg (1 / 2 * (1 - c))
      have hcos' := root.nonneg (1 / 2 * (1 + c))
      generalize root.sqrt (1 / 2 * (1 - c)) = sinThetaD2 at hsin hsin'
      generalize root.sqrt (1 / 2 * (1 + c)) = cosThetaD2 at hcos'
      have hr : 0 ≤ junctionDeviation * sinThetaD2 / (1 - sinThetaD2) :=
        div_nonneg (mul_nonneg hdeviation hsin') (by linarith)
      have htan : 0 ≤ sinThetaD2 / cosThetaD2 := div_nonneg hsin' hcos'
      have haccel := le_of_lt h.accel_pos
      have haccel' := le_of_lt hprev.accel_pos
      have hmove := le_of_lt h.moveD_pos
      have hmove' := le_of_lt hprev.moveD_pos
      have hcruise := le_of_lt h.cruise_pos
      refine ⟨rfl, rfl, ?_, ?_, ?_, ?_, rfl⟩
      · refine le_min (mul_nonneg hr haccel) (le_min (mul_nonneg hr haccel') (le_min ?_ (le_min ?_
          (le_min (extruderCalcJunction_nonneg _ _ _ hcruise)
            (le_min hcruise (le_min (le_of_lt hprev.cruise_pos) hreach))))))
        · have hm : 0 ≤ m.queued.moveD := hmove
          have ha : 0 ≤ m.queued.accel := haccel
          positivity
        · positivity
      · exact (min_le_right _ _).trans ((min_le_right _ _).trans ((min_le_right _ _).trans
          ((min_le_right _ _).trans ((min_le_right _ _).trans (min_le_left _ _)))))
      · exact (min_le_right _ _).trans ((min_le_right _ _).trans ((min_le_right _ _).trans
          ((min_le_right _ _).trans ((min_le_right _ _).trans ((min_le_right _ _).trans
            (min_le_right _ _))))))
      · exact (min_le_right _ _).trans ((min_le_right _ _).trans ((min_le_right _ _).trans
          ((min_le_right _ _).trans ((min_le_right _ _).trans ((min_le_right _ _).trans
            (min_le_left _ _))))))

theorem Calculated.planned {prev m' : QueuedMove K} {m : Move K} (h : Calculated prev m m')
    (hm : Drivable m) (hprev : Planned prev) : Planned m' := by
  obtain ⟨rfl, -, hnonneg, hle, hjoined⟩ := h
  have hsmooth : 0 ≤ prev.maxSmoothedV2 + prev.smoothDeltaV2 := by
    have h1 := hprev.smoothed_nonneg
    have h2 := hprev.smooth_pos
    linarith
  refine ⟨hm.accel_pos, hm.moveD_pos, hm.deltaV2_eq, hm.smooth_pos, hm.smooth_le, hm.cruise_pos,
    ?_, ?_, hle⟩
  · rw [hjoined.smoothed]
    exact le_min hnonneg hsmooth
  · rw [hjoined.smoothed]
    exact min_le_left _ _

/-! ## What a step keeps -/

namespace PlainQueue

variable {s : MoveQueue K}

theorem flush (h : PlainQueue s) : PlainQueue (s.flush false) := by
  rw [flush_full h.resting.not_delays]
  refine ⟨(PlainQueue.init s.commandedPos).resting, fun m hm => (by cases hm),
    h.ridden.append (h.resting.ridden h.fresh), ?_⟩
  simp only [List.append_nil, List.map_append, h.submitted]
  rw [map_toMove_zipWith (by rw [length_junctionsFrom])]

/-- A move joins the queue behind the last one, or starts a queue at rest. -/
theorem join (h : PlainQueue s) (root : SquareRoot K) {junctionDeviation : K}
    (hdeviation : 0 ≤ junctionDeviation) (instantCornerV : Option K) {m : Move K}
    (hm : Drivable m) : PlainQueue (s.join root junctionDeviation instantCornerV m) := by
  unfold MoveQueue.join
  cases hlast : s.queue.getLast? with
  | none =>
    have hnil : s.queue = [] := List.getLast?_eq_none_iff.mp hlast
    have hrow : Row [m.queued] :=
      ⟨fun m' hm' => by rw [List.mem_singleton.mp hm']; exact hm.planned, List.isChain_singleton _⟩
    simp only [hnil, List.nil_append]
    refine ⟨⟨hrow, fun m' hm' => ?_⟩, fun m' hm' => ?_, h.ridden, ?_⟩
    · obtain rfl : m.queued = m' := Option.some.inj hm'
      rfl
    · rw [List.mem_singleton.mp hm']
      rfl
    · simp only [h.submitted, hnil, List.append_nil, List.map_append]
      rfl
  | some prev =>
    have hmem : prev ∈ s.queue := List.mem_of_getLast? hlast
    have hprev := h.resting.row.planned prev hmem
    have hcalc := calculated_calcJunction root hdeviation instantCornerV hprev hm
    have hplanned := hcalc.planned hm hprev
    simp only
    generalize m.queued.calcJunction root junctionDeviation instantCornerV prev = m' at *
    refine ⟨⟨⟨fun q hq => ?_, ?_⟩, fun q hq => ?_⟩, fun q hq => ?_, h.ridden, ?_⟩
    · rcases List.mem_append.mp hq with hq | hq
      · exact h.resting.row.planned q hq
      · rw [List.mem_singleton.mp hq]
        exact hplanned
    · refine List.IsChain.append h.resting.row.joined (List.isChain_singleton _) ?_
      intro a ha b hb
      obtain rfl : prev = a := Option.some.inj (hlast.symm.trans ha)
      obtain rfl : m' = b := Option.some.inj hb
      exact hcalc.joined
    · rw [List.head?_append_of_ne_nil _ (List.ne_nil_of_mem hmem)] at hq
      exact h.resting.rest q hq
    · rcases List.mem_append.mp hq with hq | hq
      · exact h.fresh q hq
      · rw [List.mem_singleton.mp hq]
        exact hcalc.junctions
    · simp only [h.submitted, List.map_append, List.append_assoc, List.map_cons, List.map_nil,
        hcalc.toMove]

end PlainQueue

/-- A lazy flush hands over what the plain queue keeps. -/
theorem Ahead.flushLazy {s plain : MoveQueue K} (h : Ahead s plain) (hplain : PlainQueue plain) :
    Ahead (s.flush true) plain := by
  obtain ⟨hfront, -⟩ := h.front hplain
  obtain ⟨-, heq⟩ | ⟨n, hlazy, -, heq⟩ := flush_cases true hfront
  · rw [heq]
    exact h.congr rfl rfl rfl rfl
  · obtain ⟨front, hqueue, hahead⟩ := h.ahead
    have hstop := hlazy rfl
    have hsplit := List.take_append_drop n s.queue
    have hne : s.queue.drop n ≠ [] := fun hnil => by
      rw [hnil] at hstop
      exact hstop.elim
    have hlength : (s.queue.take n).length = n := by
      rw [List.length_take]
      by_contra hmin
      exact hne (List.drop_eq_nil_of_le (by omega))
    rw [heq]
    refine ⟨h.commandedPos, h.submitted, fun hnil => absurd hnil hne, front ++ s.queue.take n, ?_,
      fun more hmore => ?_⟩
    · rw [List.append_assoc, hsplit]
      exact hqueue
    · obtain ⟨hdelays, hprocessed⟩ := hahead more hmore
      have hrow := hmore.row
      rw [hqueue, ← hsplit, List.append_assoc, List.append_assoc] at hrow
      have hsame := hrow.right.right.sameFront_of_stops hstop
      have hstops : ¬ Delays (s.queue.drop n) := by
        cases hdrop : s.queue.drop n with
        | nil => exact absurd hdrop hne
        | cons m rest =>
          rw [hdrop] at hstop
          exact hstop.1
      refine ⟨fun hd => hstops (hsame.delays.mp hd), ?_⟩
      -- the junctions in front of the stop are those with more moves
      have hjunctions : (junctionsFrom 0 s.queue).take n =
          (junctionsFrom 0 (s.queue ++ more)).take n := by
        have hall := hsame.junctions (s.queue.take n) 0
        rw [← List.append_assoc, hsplit, hlength] at hall
        exact hall.symm
      obtain ⟨p, hp⟩ := junctionsFrom_append front (s.queue ++ more) 0
      rw [← List.append_assoc, ← hqueue, junctionsFrom_eq_zero hdelays] at hp
      have htake := zipWith_take QueuedMove.setJunction (s.queue.take n)
        (junctionsFrom 0 (s.queue ++ more))
      rw [hlength] at htake
      rw [zipWith_append_left, hp, ← List.append_assoc, ← hprocessed, hjunctions, htake]

/-- A step of both queues. -/
theorem Ahead.step {s plain : MoveQueue K} (h : Ahead s plain) (hplain : PlainQueue plain)
    (root : SquareRoot K) {e : PlanEvent K} (hallowed : e.Allowed) :
    PlainQueue (plain.plainStep root e) ∧ Ahead (s.step root e) (plain.plainStep root e) := by
  cases e with
  | move limits instantCornerV newpos speed limitings =>
    obtain ⟨hready, hspeed, hlimitings⟩ := hallowed
    unfold MoveQueue.step MoveQueue.plainStep
    simp only
    unfold MoveQueue.move MoveQueue.moveOnly
    simp only
    rw [← h.commandedPos]
    split
    · exact ⟨hplain, h⟩
    · rename_i hmove
      have hm := (drivable_init hready hspeed hmove).foldl hlimitings
      generalize limitings.foldl (fun m l => m.limitSpeed l.1 l.2)
        (Move.init root.sqrt limits s.commandedPos newpos speed) = m at hm
      have hmoved : PlainQueue { plain with commandedPos := m.endPos } := hplain.congr rfl rfl rfl
      have hahead : Ahead { s with commandedPos := m.endPos }
          { plain with commandedPos := m.endPos } := ⟨rfl, h.submitted, h.empty, h.ahead⟩
      have hjoin := hahead.join root limits.junctionDeviation instantCornerV m
      have hplain' := hmoved.join root hready.junctionDeviation instantCornerV hm
      refine ⟨hplain', ?_⟩
      obtain ⟨t, ht | ht⟩ := addMove_cases root limits.junctionDeviation instantCornerV m
        { s with commandedPos := m.endPos }
      · rw [ht]
        exact hjoin.congr rfl rfl rfl rfl
      · rw [ht]
        exact (hjoin.congr rfl rfl rfl rfl).flushLazy hplain'
  | flush =>
    refine ⟨hplain.flush, ?_⟩
    have hprocessed := h.flushFull hplain
    obtain ⟨hdelays, -⟩ := h.front hplain
    unfold MoveQueue.step MoveQueue.plainStep
    simp only
    rw [flush_full hdelays, flush_full hplain.resting.not_delays] at hprocessed ⊢
    refine ⟨h.commandedPos, h.submitted, fun _ => rfl, [], rfl, fun more hmore => ?_⟩
    refine ⟨hmore.not_delays, ?_⟩
    rw [List.zipWith_nil_left, List.append_nil]
    exact hprocessed
  | setFlushTime t => exact ⟨hplain, h.congr rfl rfl rfl rfl⟩
  | setCommandedPos newpos =>
    exact ⟨hplain.congr rfl rfl rfl, rfl, h.submitted, h.empty, h.ahead⟩

theorem PlanRun.ahead {root : SquareRoot K} {pos : Position K} {events : List (PlanEvent K)}
    {s : MoveQueue K} (hrun : PlanRun root (MoveQueue.init pos) events s) :
    PlainQueue (events.foldl (MoveQueue.plainStep root) (MoveQueue.init pos)) ∧
      Ahead s (events.foldl (MoveQueue.plainStep root) (MoveQueue.init pos)) := by
  have hinit : Ahead (MoveQueue.init pos) (MoveQueue.init pos) :=
    ⟨rfl, rfl, id, [], rfl, fun more hmore =>
      ⟨hmore.not_delays, by rw [List.zipWith_nil_left, List.append_nil]⟩⟩
  have hsim : ∃ plain, Run (fun s e t => t = s.plainStep root e) (MoveQueue.init pos) events plain ∧
      PlainQueue plain ∧ Ahead s plain := by
    refine Run.simulation (R := fun s plain => PlainQueue plain ∧ Ahead s plain) hrun
      ⟨.init pos, hinit⟩ ?_
    rintro s e t plain ⟨hplain, hahead⟩ ⟨hallowed, rfl⟩
    exact ⟨_, rfl, hahead.step hplain root hallowed⟩
  obtain ⟨plain, hplain, hboth⟩ := hsim
  rw [← Run.iff_foldl.mp hplain]
  exact hboth

/-! ## What a junction does -/

/-- A move is driven: it speeds up from one speed to its cruise speed and slows down to
another speed, all with its acceleration, over its distance. -/
structure Driven (root : SquareRoot K) (m : Move K) (j : Junction K) : Prop where
  accelT : 0 ≤ j.accelT root m
  cruiseT : 0 ≤ j.cruiseT root m
  decelT : 0 ≤ j.decelT root m
  speeds_up : root.sqrt j.startV2 + m.accel * j.accelT root m = root.sqrt j.cruiseV2
  slows_down : root.sqrt j.cruiseV2 - m.accel * j.decelT root m = root.sqrt j.endV2
  distance : (root.sqrt j.startV2 + root.sqrt j.cruiseV2) / 2 * j.accelT root m +
    root.sqrt j.cruiseV2 * j.cruiseT root m +
    (root.sqrt j.cruiseV2 + root.sqrt j.endV2) / 2 * j.decelT root m = m.moveD

omit [IsStrictOrderedRing K] in
theorem SquareRoot.sqrt_pos (root : SquareRoot K) {x : K} (h : 0 < x) : 0 < root.sqrt x := by
  refine lt_of_le_of_ne (root.nonneg x) fun hzero => ?_
  have hsq := root.mul_self x (le_of_lt h)
  rw [← hzero, mul_zero] at hsq
  exact ne_of_lt h hsq

/-- The time to get from one speed to another one is the difference divided by the
acceleration. -/
theorem rampT_eq (root : SquareRoot K) {a lowV2 highV2 : K} (ha : 0 < a) (hlow : 0 ≤ lowV2)
    (hhigh : 0 < highV2) :
    (highV2 - lowV2) * (1 / 2 / a) / ((root.sqrt lowV2 + root.sqrt highV2) * (1 / 2)) =
      (root.sqrt highV2 - root.sqrt lowV2) / a := by
  have hpos := root.sqrt_pos hhigh
  have hnonneg := root.nonneg lowV2
  have hsum : root.sqrt lowV2 + root.sqrt highV2 ≠ 0 := by positivity
  have hne : a ≠ 0 := ne_of_gt ha
  have hsq := root.mul_self lowV2 hlow
  have hsq' := root.mul_self highV2 (le_of_lt hhigh)
  have hfactor : highV2 - lowV2 = (root.sqrt highV2 - root.sqrt lowV2) *
      (root.sqrt lowV2 + root.sqrt highV2) := by
    linear_combination hsq - hsq'
  rw [hfactor, div_eq_div_iff (by positivity) hne]
  field_simp

theorem SquareRoot.sqrt_le (root : SquareRoot K) {x y : K} (hx : 0 ≤ x) (h : x ≤ y) :
    root.sqrt x ≤ root.sqrt y := by
  have hsq := root.mul_self x hx
  have hsq' := root.mul_self y (hx.trans h)
  refine le_of_not_gt fun hlt => ?_
  have hnonneg := root.nonneg y
  nlinarith

theorem Fits.driven {m : QueuedMove K} {j : Junction K} (h : Fits m j) (hm : Planned m)
    (root : SquareRoot K) : Driven root m.toMove j := by
  have haccel : 0 < m.toMove.accel := hm.accel_pos
  have hcruise := root.sqrt_pos h.cruise_pos
  have hup := root.sqrt_le h.start_nonneg h.start_le_cruise
  have hdown := root.sqrt_le h.end_nonneg h.end_le_cruise
  have hT : j.accelT root m.toMove = (root.sqrt j.cruiseV2 - root.sqrt j.startV2) / m.accel :=
    rampT_eq root haccel h.start_nonneg h.cruise_pos
  have hT' : j.decelT root m.toMove = (root.sqrt j.cruiseV2 - root.sqrt j.endV2) / m.accel :=
    rampT_eq root haccel h.end_nonneg h.cruise_pos
  have hway : root.sqrt j.cruiseV2 * j.cruiseT root m.toMove = j.cruiseD m.toMove :=
    mul_div_cancel₀ _ (ne_of_gt hcruise)
  have hsq := root.mul_self _ h.start_nonneg
  have hsq' := root.mul_self _ (le_of_lt h.cruise_pos)
  have hsq'' := root.mul_self _ h.end_nonneg
  have hne : m.accel ≠ 0 := ne_of_gt haccel
  refine ⟨?_, ?_, ?_, ?_, ?_, ?_⟩
  · rw [hT]
    exact div_nonneg (sub_nonneg.mpr hup) (le_of_lt haccel)
  · -- the distances to speed up and to slow down fit in the move
    refine div_nonneg ?_ (le_of_lt hcruise)
    have hdistance := h.distance
    rw [hm.deltaV2_eq] at hdistance
    have hsum : j.accelD m.toMove + j.decelD m.toMove ≤ m.moveD := by
      have heq : j.accelD m.toMove + j.decelD m.toMove =
          (j.cruiseV2 - j.startV2 + (j.cruiseV2 - j.endV2)) / (2 * m.accel) := by
        unfold Junction.accelD Junction.decelD
        field_simp
      rw [heq, div_le_iff₀ (by positivity)]
      linarith
    unfold Junction.cruiseD
    linarith
  · rw [hT']
    exact div_nonneg (sub_nonneg.mpr hdown) (le_of_lt haccel)
  · rw [hT, mul_div_cancel₀ _ hne]
    exact add_sub_cancel _ _
  · rw [hT', mul_div_cancel₀ _ hne]
    exact sub_sub_cancel _ _
  · rw [hway, hT, hT']
    unfold Junction.cruiseD Junction.accelD Junction.decelD
    field_simp
    linear_combination 2 * hsq' - hsq - hsq''

theorem Ridden.forall_driven (root : SquareRoot K) : ∀ {ms : List (QueuedMove K)} {v u : K},
    Ridden v ms u → ∀ m ∈ ms, ∃ j, m.junctions = [j] ∧ Driven root m.toMove j := by
  intro ms
  induction ms with
  | nil => intro v u _ m hm; cases hm
  | cons m ms ih =>
    intro v u h m' hm'
    obtain ⟨hplanned, j, hj, -, hfits, hrest⟩ := h
    rcases List.mem_cons.mp hm' with rfl | hm'
    · exact ⟨j, hj, hfits.driven hplanned root⟩
    · exact ih hrest m' hm'

/-! ## Results -/

/-- However often the queue was flushed lazily, the moves that it has handed over after a full
flush, and their junctions, are those of a queue that is never flushed lazily. -/
theorem lookAhead_eq_plain (root : SquareRoot K) {pos : Position K} {events : List (PlanEvent K)}
    {s : MoveQueue K} (hrun : PlanRun root (MoveQueue.init pos) events s) :
    (s.flush false).processed =
      ((events.foldl (MoveQueue.plainStep root) (MoveQueue.init pos)).flush false).processed := by
  obtain ⟨hplain, hahead⟩ := hrun.ahead
  exact hahead.flushFull hplain

/-- However the moves were flushed, they are handed over in order, with one junction each.
Their speeds join, from rest on, and a full flush ends at rest. -/
theorem lookAhead_sound (root : SquareRoot K) {pos : Position K} {events : List (PlanEvent K)}
    {s : MoveQueue K} (hrun : PlanRun root (MoveQueue.init pos) events s) :
    (∃ v, Ridden 0 s.processed v) ∧
      s.submitted = (s.processed ++ s.queue).map QueuedMove.toMove ∧
      (∀ m ∈ s.processed, ∃ j, m.junctions = [j] ∧ Driven root m.toMove j) ∧
      (s.flush false).queue = [] ∧ Ridden 0 (s.flush false).processed 0 := by
  obtain ⟨hplain, hahead⟩ := hrun.ahead
  obtain ⟨hdelays, front, hfront, hprocessed⟩ := hahead.front hplain
  have hdone := hplain.flush.ridden
  rw [← hahead.flushFull hplain] at hdone
  have hflush := flush_full hdelays
  obtain ⟨v, hv⟩ : ∃ v, Ridden 0 s.processed v := by
    rw [hflush] at hdone
    exact hdone.front
  refine ⟨⟨v, hv⟩, ?_, hv.forall_driven root, by rw [hflush], hdone⟩
  have hlength : front.length ≤ (junctionsFrom 0 (front ++ s.queue)).length := by
    rw [length_junctionsFrom, List.length_append]
    exact Nat.le_add_right _ _
  rw [hahead.submitted, hplain.submitted, hprocessed, hfront]
  simp only [List.map_append, map_toMove_zipWith hlength, List.append_assoc]

/-! ## Around a corner -/

/-- The square root of the real numbers. -/
noncomputable def realRoot : SquareRoot ℝ :=
  ⟨Real.sqrt, Real.sqrt_nonneg, fun _ hx => Real.mul_self_sqrt hx⟩

/-- Limits of a toolhead, all of them 1. -/
noncomputable def unitLimits : ToolheadLimits ℝ where
  maxVelocity := 1
  maxAccel := 1
  maxAccelToDecel := 1
  requestedAccelToDecel := 1
  squareCornerVelocity := none
  junctionDeviation := 1
  normal := ⟨1, 1, 1, 1⟩
  limit := ⟨1, 1, 1, 1⟩
  raised := false

theorem plannerReady_unitLimits : PlannerReady unitLimits := by
  refine ⟨zero_lt_one, zero_lt_one, ⟨zero_lt_one, le_refl _⟩, ?_, zero_le_one⟩
  simp only [unitLimits]
  norm_num

/-- Two moves, around a corner, with no time until the next lazy flush. -/
noncomputable def cornerMoves : List (PlanEvent ℝ) :=
  [.setFlushTime 0, .move unitLimits none (fun i => if i = 0 then 1 else 0) 1 [],
    .move unitLimits none (fun i => if i = 3 then 0 else 1) 1 [(1, 1)]]

theorem planRun_cornerMoves : PlanRun realRoot (MoveQueue.init fun _ => 0) cornerMoves
    (cornerMoves.foldl (MoveQueue.step realRoot) (MoveQueue.init fun _ => 0)) := by
  refine Run.cons ⟨trivial, rfl⟩ (Run.cons
    ⟨⟨plannerReady_unitLimits, zero_lt_one, fun l hl => by cases hl⟩, rfl⟩
    (Run.single ⟨⟨plannerReady_unitLimits, zero_lt_one, fun l hl => ?_⟩, rfl⟩))
  rw [List.mem_singleton.mp hl]
  exact ⟨zero_lt_one, zero_lt_one⟩

theorem lookAhead_sound_corner :
    Ridden 0 ((cornerMoves.foldl (MoveQueue.step realRoot) (MoveQueue.init fun _ => 0)).flush
      false).processed 0 :=
  (lookAhead_sound realRoot planRun_cornerMoves).2.2.2.2

theorem lookAhead_eq_plain_corner :
    ((cornerMoves.foldl (MoveQueue.step realRoot) (MoveQueue.init fun _ => 0)).flush
        false).processed =
      ((cornerMoves.foldl (MoveQueue.plainStep realRoot) (MoveQueue.init fun _ => 0)).flush
        false).processed :=
  lookAhead_eq_plain realRoot planRun_cornerMoves

end FlsunT1.Klippy
