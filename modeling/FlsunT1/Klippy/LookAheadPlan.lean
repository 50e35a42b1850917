/-
  Klippy/LookAheadPlan.lean --- what the loop of `MoveQueue.flush` computes.

  For the moves of the queue from some place on, the two profiles and the peak depend on
  these moves alone.  The junctions are a list in the order of the moves; it is known as
  soon as the peak that comes from in front of them is.
-/
import FlsunT1.Klippy.LookAhead

set_option autoImplicit false

namespace FlsunT1.Klippy

variable {K : Type} [Field K] [LinearOrder K]

/-! ## The profiles -/

/-- The speed at the start of some moves that end at rest. -/
def startV2 : List (QueuedMove K) → K
  | [] => 0
  | m :: rest => min m.maxStartV2 (startV2 rest + m.deltaV2)

/-- The same of the smoothed profile. -/
def smoothedV2 : List (QueuedMove K) → K
  | [] => 0
  | m :: rest => min m.maxSmoothedV2 (smoothedV2 rest + m.smoothDeltaV2)

/-- The first of some moves decelerates all the way. -/
def Delays : List (QueuedMove K) → Prop
  | [] => False
  | m :: rest => smoothedV2 rest + m.smoothDeltaV2 ≤ m.maxSmoothedV2

instance : (l : List (QueuedMove K)) → Decidable (Delays l)
  | [] => inferInstanceAs (Decidable False)
  | _ :: _ => inferInstanceAs (Decidable (_ ≤ _))

/-- The first of some moves, which does not delay, gives a new peak. -/
def Peaks (m : QueuedMove K) (rest : List (QueuedMove K)) : Prop :=
  smoothedV2 rest < smoothedV2 (m :: rest) + m.smoothDeltaV2 ∨ Delays rest

instance (m : QueuedMove K) (rest : List (QueuedMove K)) : Decidable (Peaks m rest) :=
  inferInstanceAs (Decidable (_ ∨ _))

/-- `peak_cruise_v2` -/
def peakV2 : List (QueuedMove K) → K
  | [] => 0
  | m :: rest =>
    if ¬ Delays (m :: rest) ∧ Peaks m rest then
      min m.maxCruiseV2
        ((smoothedV2 (m :: rest) + (smoothedV2 rest + m.smoothDeltaV2)) * (1 / 2))
    else peakV2 rest

/-- The junctions of some moves, with the peak that moves in front of them give to those that
delay. -/
def junctionsFrom : K → List (QueuedMove K) → List (Junction K)
  | _, [] => []
  | p, m :: rest =>
    let s := startV2 (m :: rest)
    if Delays (m :: rest) then
      ⟨min s (min p s), min p s, min (startV2 rest) (min p s)⟩ :: junctionsFrom (min p s) rest
    else
      let cruise := min ((s + (startV2 rest + m.deltaV2)) * (1 / 2))
        (min m.maxCruiseV2 (peakV2 (m :: rest)))
      ⟨min s cruise, cruise, min (startV2 rest) cruise⟩ ::
        junctionsFrom (peakV2 (m :: rest)) rest

/-- A lazy flush may stop in front of some moves. -/
def StopsAt : List (QueuedMove K) → Prop
  | [] => False
  | m :: rest => ¬ Delays (m :: rest) ∧ Peaks m rest ∧ peakV2 rest ≠ 0

theorem startV2_cons (m : QueuedMove K) (rest : List (QueuedMove K)) :
    startV2 (m :: rest) = min m.maxStartV2 (startV2 rest + m.deltaV2) := rfl

theorem smoothedV2_cons (m : QueuedMove K) (rest : List (QueuedMove K)) :
    smoothedV2 (m :: rest) = min m.maxSmoothedV2 (smoothedV2 rest + m.smoothDeltaV2) := rfl

theorem not_delays_iff {m : QueuedMove K} {rest : List (QueuedMove K)} :
    smoothedV2 (m :: rest) < smoothedV2 rest + m.smoothDeltaV2 ↔ ¬ Delays (m :: rest) := by
  rw [smoothedV2_cons, min_lt_iff, Delays, not_le]
  exact or_iff_left (lt_irrefl _)

theorem junctionsFrom_of_delays {p : K} {m : QueuedMove K} {rest : List (QueuedMove K)}
    (h : Delays (m :: rest)) : junctionsFrom p (m :: rest) =
      ⟨min (startV2 (m :: rest)) (min p (startV2 (m :: rest))), min p (startV2 (m :: rest)),
        min (startV2 rest) (min p (startV2 (m :: rest)))⟩ ::
        junctionsFrom (min p (startV2 (m :: rest))) rest := by
  simp only [junctionsFrom, h, if_true]

/-- The cruise speed of a move that does not delay. -/
def cruiseOf (m : QueuedMove K) (rest : List (QueuedMove K)) : K :=
  min ((startV2 (m :: rest) + (startV2 rest + m.deltaV2)) * (1 / 2))
    (min m.maxCruiseV2 (peakV2 (m :: rest)))

theorem junctionsFrom_of_not_delays {m : QueuedMove K} {rest : List (QueuedMove K)}
    (h : ¬ Delays (m :: rest)) (p : K) : junctionsFrom p (m :: rest) =
      ⟨min (startV2 (m :: rest)) (cruiseOf m rest), cruiseOf m rest,
        min (startV2 rest) (cruiseOf m rest)⟩ ::
        junctionsFrom (peakV2 (m :: rest)) rest := by
  simp only [junctionsFrom, h, if_false, cruiseOf]

theorem length_junctionsFrom (l : List (QueuedMove K)) : ∀ p : K,
    (junctionsFrom p l).length = l.length := by
  induction l with
  | nil => intro p; rfl
  | cons m rest ih =>
    intro p
    by_cases h : Delays (m :: rest)
    · rw [junctionsFrom_of_delays h, List.length_cons, ih, List.length_cons]
    · rw [junctionsFrom_of_not_delays h, List.length_cons, ih, List.length_cons]

/-! ## Calls -/

section Calls

omit [Field K] [LinearOrder K]

theorem callsOf_append (j : ℕ) (a b : List (ℕ × Junction K)) :
    callsOf j (a ++ b) = callsOf j a ++ callsOf j b := by
  unfold callsOf
  rw [List.filter_append, List.map_append]

theorem callsOf_singleton (j i : ℕ) (x : Junction K) :
    callsOf j [(i, x)] = if i = j then [x] else [] := by
  unfold callsOf
  by_cases h : i = j
  · simp [h]
  · simp [h]

theorem append_comm_of_option {α : Type} {a b : List α} {x : Option α} (h : a ++ b = x.toList) :
    b ++ a = x.toList := by
  cases x with
  | none =>
    obtain ⟨rfl, rfl⟩ := List.append_eq_nil_iff.mp h
    rfl
  | some x =>
    rcases List.append_eq_singleton_iff.mp h with ⟨rfl, rfl⟩ | ⟨rfl, rfl⟩
    · rfl
    · rfl

/-- The call for the move at place `j` among those from place `i` on. -/
def callAt (i count j : ℕ) (js : List (Junction K)) : Option (Junction K) :=
  if i ≤ j ∧ j < count then js[j - i]? else none

theorem callAt_cons {i count j : ℕ} (x : Junction K) (js : List (Junction K)) (h : i < count) :
    callAt i count j (x :: js) = if i = j then some x else callAt (i + 1) count j js := by
  unfold callAt
  by_cases hij : i = j
  · subst hij
    rw [if_pos ⟨le_refl _, h⟩, if_pos rfl, Nat.sub_self, List.getElem?_cons_zero]
  · rw [if_neg hij]
    by_cases hj : i ≤ j ∧ j < count
    · have hlt : i + 1 ≤ j := by omega
      obtain ⟨k, hk⟩ : ∃ k, j - i = k + 1 := ⟨j - i - 1, by omega⟩
      rw [if_pos hj, if_pos ⟨hlt, hj.2⟩, hk, List.getElem?_cons_succ]
      congr 1
      omega
    · rw [if_neg hj, if_neg (by omega)]

end Calls

/-! ## The loop -/

/-- The state of the loop after the moves from place `i` on. -/
structure Visited (isLazy : Bool) (i : ℕ) (moves : List (QueuedMove K)) (l : FlushLoop K) :
    Prop where
  nextEndV2 : l.nextEndV2 = startV2 moves
  nextSmoothedV2 : l.nextSmoothedV2 = smoothedV2 moves
  peakCruiseV2 : l.peakCruiseV2 = peakV2 moves
  delayed : l.delayed ≠ [] ↔ Delays moves
  flushCount : l.updateFlushCount = false → i ≤ l.flushCount
  full : isLazy = false → i + moves.length = l.flushCount
  /-- Until it is known where a lazy flush stops, no junction is set. -/
  none_set : l.updateFlushCount = true → isLazy = true ∧ l.calls = []
  stops : isLazy = true → l.updateFlushCount = false → ∃ pre post, moves = pre ++ post ∧
    i + pre.length = l.flushCount ∧ StopsAt post
  /-- Each move before the place of the stop has its junction, or will have it with the
  next peak. -/
  calls : l.updateFlushCount = false → ∀ p j,
    callsOf j (propagate p l.delayed.reverse ++ l.calls) =
      (callAt i l.flushCount j (junctionsFrom p moves)).toList

namespace Visited

variable {isLazy : Bool} {i : ℕ} {move : QueuedMove K} {moves : List (QueuedMove K)}
  {l : FlushLoop K}

theorem init (isLazy : Bool) (count : ℕ) : Visited isLazy count [] (FlushLoop.init (K := K) isLazy
    count) where
  nextEndV2 := rfl
  nextSmoothedV2 := rfl
  peakCruiseV2 := rfl
  delayed := by simp [FlushLoop.init, Delays]
  flushCount := fun _ => le_refl _
  full := fun _ => rfl
  none_set := fun h => ⟨h, rfl⟩
  stops := fun h h' => absurd (h.symm.trans h') (by simp)
  calls := by
    intro _ p j
    simp only [callAt, junctionsFrom, List.getElem?_nil, ite_self]
    rfl

theorem full_cons (h : Visited isLazy (i + 1) moves l) (hall : isLazy = false) :
    i + (move :: moves).length = l.flushCount := by
  rw [← h.full hall, List.length_cons]
  omega

/-- A move that delays is kept for the next peak. -/
theorem delay (h : Visited isLazy (i + 1) moves l) (hdelays : Delays (move :: moves)) :
    Visited isLazy i (move :: moves)
      { l with
        nextEndV2 := startV2 (move :: moves)
        nextSmoothedV2 := smoothedV2 (move :: moves)
        delayed := l.delayed ++ [⟨i, startV2 (move :: moves), l.nextEndV2⟩] } where
  nextEndV2 := rfl
  nextSmoothedV2 := rfl
  peakCruiseV2 := by
    rw [peakV2, if_neg (fun hpeak => hpeak.1 hdelays)]
    exact h.peakCruiseV2
  delayed := by simp [hdelays]
  flushCount := fun hset => le_trans (Nat.le_succ i) (h.flushCount hset)
  full := h.full_cons
  none_set := h.none_set
  stops := by
    intro hlazy hset
    obtain ⟨pre, post, rfl, hlength, hstop⟩ := h.stops hlazy hset
    exact ⟨move :: pre, post, rfl, by rw [List.length_cons, ← hlength]; omega, hstop⟩
  calls := by
    intro hset p j
    have hcalls := h.calls hset (min p (startV2 (move :: moves))) j
    rw [List.reverse_append, List.reverse_singleton, List.singleton_append, propagate,
      List.cons_append, ← List.singleton_append, callsOf_append, callsOf_singleton, hcalls,
      junctionsFrom_of_delays hdelays, callAt_cons _ _ (h.flushCount hset), h.nextEndV2]
    by_cases hij : i = j
    · subst hij
      simp only [if_true, callAt]
      rw [if_neg (by omega)]
      rfl
    · rw [if_neg hij, if_neg hij, List.nil_append]

end Visited

/-- The state of the loop at a move that does not delay, before its own junction is set. -/
structure AtPeak (isLazy : Bool) (i : ℕ) (move : QueuedMove K) (moves : List (QueuedMove K))
    (l : FlushLoop K) : Prop where
  peakCruiseV2 : l.peakCruiseV2 = peakV2 (move :: moves)
  delayed : l.delayed = []
  flushCount : l.updateFlushCount = false → i ≤ l.flushCount
  full : isLazy = false → i + (move :: moves).length = l.flushCount
  none_set : l.updateFlushCount = true → isLazy = true ∧ l.calls = []
  stops : isLazy = true → l.updateFlushCount = false → ∃ pre post, move :: moves = pre ++ post ∧
    i + pre.length = l.flushCount ∧ StopsAt post
  calls : l.updateFlushCount = false → ∀ j, callsOf j l.calls =
    (callAt (i + 1) l.flushCount j (junctionsFrom (peakV2 (move :: moves)) moves)).toList

namespace Visited

variable {isLazy : Bool} {i : ℕ} {move : QueuedMove K} {moves : List (QueuedMove K)}
  {l : FlushLoop K}

theorem stops_cons (h : Visited isLazy (i + 1) moves l) (hlazy : isLazy = true)
    (hset : l.updateFlushCount = false) : ∃ pre post, move :: moves = pre ++ post ∧
      i + pre.length = l.flushCount ∧ StopsAt post := by
  obtain ⟨pre, post, rfl, hlength, hstop⟩ := h.stops hlazy hset
  exact ⟨move :: pre, post, rfl, by rw [List.length_cons, ← hlength]; omega, hstop⟩

theorem keep (h : Visited isLazy (i + 1) moves l) (hpeaks : ¬ Peaks move moves) :
    AtPeak isLazy i move moves l := by
  have hpeak : peakV2 (move :: moves) = peakV2 moves := by
    rw [peakV2, if_neg fun hboth => hpeaks hboth.2]
  have hnone : l.delayed = [] := by
    by_contra hne
    exact hpeaks (.inr (h.delayed.mp hne))
  refine ⟨by rw [hpeak]; exact h.peakCruiseV2, hnone, fun hset => ?_, h.full_cons, h.none_set,
    h.stops_cons, fun hset j => ?_⟩
  · exact le_trans (Nat.le_succ i) (h.flushCount hset)
  · have hcalls := h.calls hset (peakV2 (move :: moves)) j
    rw [hnone] at hcalls
    exact hcalls

/-- A new peak is given to the moves that delay, or a lazy flush stops here. -/
theorem note (h : Visited isLazy (i + 1) moves l) (hdelays : ¬ Delays (move :: moves))
    (hpeaks : Peaks move moves) :
    AtPeak isLazy i move moves (l.notePeak i (min move.maxCruiseV2
      ((smoothedV2 (move :: moves) + (smoothedV2 moves + move.smoothDeltaV2)) * (1 / 2)))) := by
  have hpeak : min move.maxCruiseV2 ((smoothedV2 (move :: moves) +
      (smoothedV2 moves + move.smoothDeltaV2)) * (1 / 2)) = peakV2 (move :: moves) := by
    rw [peakV2, if_pos ⟨hdelays, hpeaks⟩]
  rw [hpeak]
  by_cases hstop : l.updateFlushCount = true ∧ l.peakCruiseV2 ≠ 0
  · obtain ⟨hlazy, hcalls⟩ := h.none_set hstop.1
    have hcommits : ¬ FlushLoop.commits { l with
        flushCount := i, updateFlushCount := false, peakCruiseV2 := peakV2 (move :: moves) } i :=
      fun hc => lt_irrefl _ hc.2
    have hnoted : l.notePeak i (peakV2 (move :: moves)) = { l with
        flushCount := i, updateFlushCount := false, peakCruiseV2 := peakV2 (move :: moves)
        delayed := [] } := by
      simp only [FlushLoop.notePeak, hstop, if_true, hcommits, if_false, ne_eq, not_false_eq_true,
        and_self]
    rw [hnoted]
    have hmoves : StopsAt (move :: moves) :=
      ⟨hdelays, hpeaks, by rw [← h.peakCruiseV2]; exact hstop.2⟩
    refine ⟨rfl, rfl, fun _ => le_refl _, fun hall => ?_, fun hset => absurd hset (by simp),
      fun _ _ => ⟨[], move :: moves, rfl, rfl, hmoves⟩, fun _ j => ?_⟩
    · rw [hall] at hlazy
      cases hlazy
    · simp only [hcalls, callAt]
      rw [if_neg (by omega)]
      rfl
  · have hnoted : l.notePeak i (peakV2 (move :: moves)) = { l with
        peakCruiseV2 := peakV2 (move :: moves)
        calls :=
          if l.commits i then l.calls ++ propagate (peakV2 (move :: moves)) l.delayed.reverse
          else l.calls
        delayed := [] } := by
      simp only [FlushLoop.notePeak, hstop, if_false]
      rfl
    rw [hnoted]
    refine ⟨rfl, rfl, fun hset => le_trans (Nat.le_succ i) (h.flushCount hset), h.full_cons,
      fun hset => ?_, h.stops_cons, fun hset j => ?_⟩
    · obtain ⟨hlazy, hcalls⟩ := h.none_set hset
      have hcommits : ¬ l.commits i := fun hc => by
        rw [hc.1] at hset
        cases hset
      exact ⟨hlazy, by simp only [hcommits, if_false, hcalls]⟩
    · have hcommits : l.commits i := ⟨hset, h.flushCount hset⟩
      have hcalls := h.calls hset (peakV2 (move :: moves)) j
      rw [callsOf_append] at hcalls
      simp only [hcommits, if_true, callsOf_append]
      exact append_comm_of_option hcalls

end Visited

/-- The move sets its own junction. -/
theorem AtPeak.finish {isLazy : Bool} {i : ℕ} {move : QueuedMove K} {moves : List (QueuedMove K)}
    {l : FlushLoop K} (h : AtPeak isLazy i move moves l) (hdelays : ¬ Delays (move :: moves)) :
    Visited isLazy i (move :: moves)
      { l with
        nextEndV2 := startV2 (move :: moves)
        nextSmoothedV2 := smoothedV2 (move :: moves)
        peakCruiseV2 := peakV2 (move :: moves)
        calls :=
          if l.commits i then
            l.calls ++ [(i, ⟨min (startV2 (move :: moves)) (cruiseOf move moves),
              cruiseOf move moves, min (startV2 moves) (cruiseOf move moves)⟩)]
          else l.calls } where
  nextEndV2 := rfl
  nextSmoothedV2 := rfl
  peakCruiseV2 := rfl
  delayed := by simp [h.delayed, hdelays]
  flushCount := h.flushCount
  full := h.full
  none_set := by
    intro hset
    have hcommits : ¬ l.commits i := fun hc => by
      have hfalse := hc.1
      rw [hset] at hfalse
      cases hfalse
    simp only [hcommits, if_false]
    exact h.none_set hset
  stops := h.stops
  calls := by
    intro hset p j
    have hcalls := h.calls hset j
    rw [junctionsFrom_of_not_delays hdelays]
    simp only [h.delayed, List.reverse_nil, propagate, List.nil_append]
    by_cases hcommits : l.commits i
    · rw [if_pos hcommits, callsOf_append, callsOf_singleton, hcalls, callAt_cons _ _ hcommits.2]
      by_cases hij : i = j
      · subst hij
        rw [if_pos rfl, if_pos rfl, callAt, if_neg (by omega)]
        rfl
      · rw [if_neg hij, if_neg hij, List.append_nil]
    · have hend : l.flushCount ≤ i := not_lt.mp fun hlt => hcommits ⟨hset, hlt⟩
      rw [if_neg hcommits, hcalls, callAt, callAt, if_neg (by omega), if_neg (by omega)]

/-- One round of the loop. -/
theorem Visited.visit {isLazy : Bool} {i : ℕ} {move : QueuedMove K} {moves : List (QueuedMove K)}
    {l : FlushLoop K} (h : Visited isLazy (i + 1) moves l) :
    Visited isLazy i (move :: moves) (l.visit i move) := by
  have hnext := h.nextEndV2
  have hsmoothed := h.nextSmoothedV2
  have hdelayed := h.delayed
  unfold FlushLoop.visit
  simp only [hnext, hsmoothed, ← startV2_cons, ← smoothedV2_cons]
  by_cases hdelays : Delays (move :: moves)
  · have hlt : ¬ smoothedV2 (move :: moves) < smoothedV2 moves + move.smoothDeltaV2 :=
      fun hlt => not_delays_iff.mp hlt hdelays
    have hdelay := h.delay hdelays
    rw [hnext] at hdelay
    simp only [hlt, if_false]
    exact hdelay
  · have hlt := not_delays_iff.mpr hdelays
    simp only [hlt, if_true]
    by_cases hpeaks : Peaks move moves
    · have hready := h.note hdelays hpeaks
      have hnew := hpeaks.imp id hdelayed.mpr
      simp only [hnew, if_true, hready.peakCruiseV2]
      exact hready.finish hdelays
    · have hready := h.keep hpeaks
      have hold : ¬ (smoothedV2 moves < smoothedV2 (move :: moves) + move.smoothDeltaV2 ∨
          l.delayed ≠ []) := fun hor => hpeaks (hor.imp id hdelayed.mp)
      simp only [hold, if_false, hready.peakCruiseV2]
      exact hready.finish hdelays

theorem visited_loop (isLazy : Bool) (count : ℕ) (moves : List (QueuedMove K)) : ∀ i : ℕ,
    i + moves.length = count →
      Visited isLazy i moves (FlushLoop.loop (.init isLazy count) i moves) := by
  induction moves with
  | nil =>
    rintro i rfl
    exact .init isLazy _
  | cons move rest ih =>
    intro i hlength
    rw [List.length_cons] at hlength
    exact (ih (i + 1) (by omega)).visit

end FlsunT1.Klippy
