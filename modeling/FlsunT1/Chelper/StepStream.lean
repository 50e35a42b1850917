/-
  Chelper/StepStream.lean --- the steps a stepcompress object hands to the mcu.

  The messages are replayed by the rule of the firmware, which adds the interval
  to the waketime and the add to the interval at every step.  What is replayed is
  compared with the steps that were appended: the same number, in the same order
  and directions, and each in the window that `minmax_point` allows.
-/
import FlsunT1.Chelper.StepSearch
import FlsunT1.Library.Run

set_option autoImplicit false

namespace FlsunT1.Chelper

open FlsunT1.Library

/-! ## Replaying messages -/

/-- A step of the mcu: its 32 bit clock, the direction last set, and whether it is
the first step of its queue_step command. -/
structure McuStep where
  clock : Int
  dir : Bool
  first : Bool
  deriving DecidableEq, Repr

/-- The steps of a queue_step command: `wake += interval; interval += add`. -/
def replayMove (add : Int) (dir : Bool) : Nat → Int → Int → Bool → List McuStep
  | 0, _, _, _ => []
  | count + 1, wake, interval, first =>
      { clock := u32 (wake + interval), dir := dir, first := first } ::
        replayMove add dir count (u32 (wake + interval)) (u32 (interval + add)) false

/-- The waketime of the mcu after the steps. -/
def lastWake (wake : Int) (steps : List McuStep) : Int :=
  match steps.getLast? with
  | none => wake
  | some step => step.clock

/-- The mcu while it replays messages. -/
structure Replay where
  wake : Int
  dir : Bool
  steps : List McuStep
  deriving DecidableEq, Repr

/-- One command, with its arguments as the mcu stores them. -/
def Replay.next (r : Replay) : StepCommand → Replay
  | .queueStep interval count add =>
      let steps := replayMove (i16 add) r.dir (u16 count).toNat r.wake (u32 interval) true
      { r with wake := lastWake r.wake steps, steps := r.steps ++ steps }
  | .setNextStepDir dir => { r with dir := dir }
  | .other _ => r

/-- All messages, for a stepper that starts at the clock `start`. -/
def replay (start : Int) (messages : List StepMessage) : Replay :=
  (messages.map StepMessage.command).foldl Replay.next
    { wake := u32 start, dir := false, steps := [] }

theorem replay_snoc (start : Int) (ms : List StepMessage) (m : StepMessage) :
    replay start (ms ++ [m]) = (replay start ms).next m.command := by
  simp [replay]

/-! ## Requested and replayed steps -/

/-- A step that was asked for: its clock and its direction. -/
structure Request where
  clock : Int
  dir : Bool
  deriving DecidableEq, Repr

/-- `Faithful maxError t p rs ss t' p'`: the steps `ss` are the requests `rs`, one
for one.  A step may be early by the largest error and by half the gap to the
request before it, or, for the first step of a command, by half the gap to the
step before it.  The clocks `t` and `p` are those of the request and of the step
before the first, `t'` and `p'` those of the last ones. -/
inductive Faithful (maxError : Int) :
    Int → Int → List Request → List McuStep → Int → Int → Prop
  | nil {t p : Int} : Faithful maxError t p [] [] t p
  | cons {t p t' p' : Int} {r : Request} {rs : List Request} {ss : List McuStep} {q : Int}
      {first : Bool} (hearly : q ≤ r.clock)
      (hlate : r.clock - min maxError ((r.clock - if first then p else t) / 2) ≤ q)
      (hrest : Faithful maxError r.clock q rs ss t' p') :
      Faithful maxError t p (r :: rs) ({ clock := u32 q, dir := r.dir, first := first } :: ss) t' p'

theorem Faithful.append {maxError t p t' p' t'' p'' : Int} {rs rs' : List Request}
    {ss ss' : List McuStep} (h : Faithful maxError t p rs ss t' p')
    (h' : Faithful maxError t' p' rs' ss' t'' p'') :
    Faithful maxError t p (rs ++ rs') (ss ++ ss') t'' p'' := by
  induction h with
  | nil => exact h'
  | cons hearly hlate _ ih => exact .cons hearly hlate (ih h')

theorem Faithful.length_eq {maxError t p t' p' : Int} {rs : List Request} {ss : List McuStep}
    (h : Faithful maxError t p rs ss t' p') : ss.length = rs.length := by
  induction h with
  | nil => rfl
  | cons _ _ _ ih => simp [ih]

/-! ## The queue -/

/-- The queue holds the clocks `ts`: in order, after the last step, and within the
largest clock difference of it. -/
structure Queued (sc : StepCompress) (ts : List Int) : Prop where
  queue : sc.queue = ts.map u32
  sorted : (sc.lastStepClock :: ts).IsChain (· < ·)
  near : ∀ t ∈ ts, t < sc.lastStepClock + clockDiffMax
  maxError : 0 ≤ sc.maxError ∧ sc.maxError < 65536

/-- The clock before the one at `i`. -/
def clockBefore (lsc : Int) (ts : List Int) (i : Nat) : Int := (lsc :: ts).getD i 0

namespace Queued

variable {sc : StepCompress} {ts : List Int} {i : Nat} {t : Int}

theorem pairwise (h : Queued sc ts) : (sc.lastStepClock :: ts).Pairwise (· < ·) :=
  List.isChain_iff_pairwise.mp h.sorted

theorem after (h : Queued sc ts) (ht : t ∈ ts) : sc.lastStepClock < t :=
  (List.pairwise_cons.mp h.pairwise).1 t ht

theorem before (h : Queued sc ts) (ht : ts[i]? = some t) :
    sc.lastStepClock ≤ clockBefore sc.lastStepClock ts i ∧
      clockBefore sc.lastStepClock ts i < t := by
  obtain ⟨hi, rfl⟩ := List.getElem?_eq_some_iff.mp ht
  have hchain := List.isChain_iff_getElem.mp h.sorted i (by simp; omega)
  have hlen : i < (sc.lastStepClock :: ts).length := by
    rw [List.length_cons]
    omega
  have heq : clockBefore sc.lastStepClock ts i = (sc.lastStepClock :: ts)[i] := by
    simp [clockBefore, List.getD_eq_getElem?_getD, List.getElem?_eq_getElem hlen]
  rw [heq]
  refine ⟨?_, by simpa using hchain⟩
  cases i with
  | zero => simp
  | succ j => exact le_of_lt (h.after (by simp))

/-- `minmax_point` on exact clocks. -/
theorem minmaxPoint_eq (h : Queued sc ts) (ht : ts[i]? = some t) :
    minmaxPoint sc i =
      { minp := t - sc.lastStepClock -
          min sc.maxError ((t - clockBefore sc.lastStepClock ts i) / 2)
        maxp := t - sc.lastStepClock } := by
  have hafter := h.after (List.mem_of_getElem? ht)
  have hnear := h.near t (List.mem_of_getElem? ht)
  obtain ⟨hb0, hb1⟩ := h.before ht
  have herr := h.maxError
  have hget : sc.queue.getD i 0 = u32 t := by
    rw [h.queue, List.getD_eq_getElem?_getD, List.getElem?_map, ht]
    rfl
  have hprev : (if 0 < i then u32 (sc.queue.getD (i - 1) 0 - u32 sc.lastStepClock) else 0) =
      clockBefore sc.lastStepClock ts i - sc.lastStepClock := by
    cases i with
    | zero => simp [clockBefore]
    | succ j =>
      obtain ⟨hj, -⟩ := List.getElem?_eq_some_iff.mp ht
      have hj' : ts[j]? = some ts[j] := List.getElem?_eq_getElem (by omega)
      have hpoint : clockBefore sc.lastStepClock ts (j + 1) = ts[j] := by
        simp [clockBefore, List.getD_eq_getElem?_getD, hj']
      have hnear' := h.near ts[j] (List.getElem_mem _)
      have hafter' := h.after (List.getElem_mem (show j < ts.length by omega))
      have hqueue : sc.queue.getD j 0 = u32 ts[j] := by
        rw [h.queue, List.getD_eq_getElem?_getD, List.getElem?_map, hj']
        rfl
      rw [if_pos (by omega), Nat.add_sub_cancel, hqueue, hpoint]
      unfold clockDiffMax at hnear'
      unfold u32
      omega
  unfold clockDiffMax at hnear
  unfold minmaxPoint
  simp only [hget, hprev]
  have hpoint : u32 (u32 t - u32 sc.lastStepClock) = t - sc.lastStepClock := by
    unfold u32; omega
  rw [hpoint, u32_of_range (x := t - sc.lastStepClock - _) (by omega) (by omega)]
  have hgap : t - sc.lastStepClock - (clockBefore sc.lastStepClock ts i - sc.lastStepClock) =
      t - clockBefore sc.lastStepClock ts i := by omega
  rw [hgap]
  have hmin : (if (t - clockBefore sc.lastStepClock ts i) / 2 > sc.maxError then sc.maxError
      else (t - clockBefore sc.lastStepClock ts i) / 2) =
      min sc.maxError ((t - clockBefore sc.lastStepClock ts i) / 2) := by
    split <;> omega
  rw [hmin, i32_of_range (by omega) (by omega), i32_of_range (by omega) (by omega)]

theorem getElem?_points (h : Queued sc ts) {p : Points}
    (hp : ((List.range (min sc.queue.length 65535)).map (minmaxPoint sc))[i]? = some p) :
    ∃ t, ts[i]? = some t ∧ p = minmaxPoint sc i := by
  rw [List.getElem?_map, Option.map_eq_some_iff] at hp
  obtain ⟨j, hj, rfl⟩ := hp
  obtain ⟨hlt, rfl⟩ := List.getElem?_eq_some_iff.mp hj
  simp only [List.getElem_range]
  have hlen : sc.queue.length = ts.length := by rw [h.queue, List.length_map]
  rw [List.length_range] at hlt
  have hi : i < ts.length := by omega
  exact ⟨ts[i], List.getElem?_eq_getElem hi, trivial⟩

/-- The points of a queue are spaced. -/
theorem spaced (h : Queued sc ts) :
    Spaced ((List.range (min sc.queue.length 65535)).map (minmaxPoint sc)) where
  window := by
    intro p hp
    obtain ⟨i, hi⟩ := List.getElem?_of_mem hp
    obtain ⟨t, ht, rfl⟩ := h.getElem?_points hi
    have hnear := h.near t (List.mem_of_getElem? ht)
    have hbefore := h.before ht
    have herr := h.maxError
    rw [h.minmaxPoint_eq ht]
    simp only
    omega
  apart := by
    refine List.isChain_iff_getElem.mpr fun i hi => ?_
    obtain ⟨t, ht, hp⟩ := h.getElem?_points (List.getElem?_eq_getElem (Nat.lt_of_succ_lt hi))
    obtain ⟨t', ht', hp'⟩ := h.getElem?_points (List.getElem?_eq_getElem hi)
    have hbefore := h.before ht'
    have hprev : clockBefore sc.lastStepClock ts (i + 1) = t := by
      simp [clockBefore, List.getD_eq_getElem?_getD, ht]
    rw [hp, hp', h.minmaxPoint_eq ht, h.minmaxPoint_eq ht', hprev]
    simp only
    omega
  length := by
    rw [List.length_map, List.length_range]
    omega

end Queued

/-! ## A move that fits -/

section Move

variable {sc : StepCompress} {ts : List Int} {v a : Int} {n : Nat}

theorem Queued.fits_clock (h : Queued sc ts)
    (hfits : Fits ((List.range (min sc.queue.length 65535)).map (minmaxPoint sc)) v a n)
    (hn : n ≤ min sc.queue.length 65535) {i : Nat} {t : Int} (hi : i < n) (ht : ts[i]? = some t) :
    sc.lastStepClock + quad v a (i + 1) ≤ t ∧
      t - min sc.maxError ((t - clockBefore sc.lastStepClock ts i) / 2) ≤
        sc.lastStepClock + quad v a (i + 1) := by
  have hpoint : ((List.range (min sc.queue.length 65535)).map (minmaxPoint sc))[i]? =
      some (minmaxPoint sc i) := by
    rw [List.getElem?_map, List.getElem?_range (show i < min sc.queue.length 65535 by omega)]
    rfl
  have hf := hfits i _ hi hpoint
  rw [h.minmaxPoint_eq ht] at hf
  simp only at hf
  omega

/-- The times of a move are replayed as they were computed. -/
theorem replayMove_faithful {maxError : Int} {lsc : Int} (dir : Bool)
    (hfits : ∀ i t, i < n → ts[i]? = some t → lsc + quad v a (i + 1) ≤ t ∧
      t - min maxError ((t - clockBefore lsc ts i) / 2) ≤ lsc + quad v a (i + 1))
    (hlen : n ≤ ts.length) :
    ∀ (m i : Nat) (wake interval pt pp : Int), i + m = n →
      wake = u32 (lsc + quad v a i) → interval = u32 (v + a * i) →
      (if i = 0 then pp else pt) = clockBefore lsc ts i → pp = lsc + quad v a i →
      ∃ t', Faithful maxError pt pp (((ts.drop i).take m).map fun t => { clock := t, dir := dir })
          (replayMove a dir m wake interval (decide (i = 0))) t' (lsc + quad v a n) ∧
        lastWake wake (replayMove a dir m wake interval (decide (i = 0))) =
          u32 (lsc + quad v a n) := by
  intro m
  induction m with
  | zero =>
    intro i wake interval pt pp hin hwake _ _ hpp
    have : i = n := by omega
    subst this
    rw [← hpp]
    exact ⟨pt, .nil, by rw [hpp]; exact hwake⟩
  | succ m ih =>
    intro i wake interval pt pp hin hwake hinterval hprev hpp
    have hi : i < ts.length := by omega
    have ht : ts[i]? = some ts[i] := List.getElem?_eq_getElem hi
    obtain ⟨h1, h2⟩ := hfits i ts[i] (by omega) ht
    have hstep := quad_succ v a i
    have hcast : ((i + 1 : Nat) : Int) = (i : Int) + 1 := by omega
    have hclock : u32 (wake + interval) = u32 (lsc + quad v a (i + 1)) := by
      rw [hwake, hinterval, hstep]
      unfold u32
      omega
    have hnext : u32 (interval + a) = u32 (v + a * ((i + 1 : Nat) : Int)) := by
      have : a * ((i + 1 : Nat) : Int) = a * i + a := by rw [hcast]; ring
      rw [hinterval, this]
      unfold u32
      omega
    obtain ⟨t', hfaithful, hlast⟩ := ih (i + 1) (u32 (wake + interval)) (u32 (interval + a))
      ts[i] (lsc + quad v a (i + 1)) (by omega) (by rw [hclock, hcast]) hnext
      (by simp [clockBefore, List.getD_eq_getElem?_getD, ht]) (by rw [hcast])
    rw [List.drop_eq_getElem_cons hi, List.take_succ_cons, List.map_cons]
    simp only [replayMove]
    have hnotfirst : decide (i + 1 = 0) = false := by simp
    rw [hnotfirst] at hfaithful hlast
    refine ⟨t', ?_, ?_⟩
    · rw [hclock] at hfaithful ⊢
      refine .cons h1 ?_ hfaithful
      by_cases hz : i = 0
      · simp only [hz, if_true, decide_true] at hprev h2 ⊢
        rw [hprev]
        exact h2
      · simp only [hz, if_false, decide_false] at hprev ⊢
        rw [hprev]
        simpa using h2
    · rw [← hlast]
      unfold lastWake
      rw [List.getLast?_cons]
      cases (replayMove a dir m (u32 (wake + interval)) (u32 (interval + a)) false).getLast? with
      | none => rfl
      | some step => rfl

/-- `check_line` accepts a move that fits. -/
theorem checkSteps_of_fits (h : Queued sc ts) (hlen : n ≤ ts.length)
    (hfits : ∀ i t, i < n → ts[i]? = some t →
      sc.lastStepClock + quad v a (i + 1) ≤ t ∧
      t - min sc.maxError ((t - clockBefore sc.lastStepClock ts i) / 2) ≤
        sc.lastStepClock + quad v a (i + 1))
    (hpos : ∀ i : Nat, i < n → 0 < v + a * i ∧ v + a * i < clockDiffMax) :
    ∀ (m i : Nat) (interval : Int), i + m = n → (0 < m → interval = v + a * i) →
      checkSteps sc a m i interval (quad v a i) = true := by
  intro m
  induction m with
  | zero => intros; rfl
  | succ m ih =>
    intro i interval hin hinterval
    have hi : i < ts.length := by omega
    have ht : ts[i]? = some ts[i] := List.getElem?_eq_getElem hi
    obtain ⟨h1, h2⟩ := hfits i ts[i] (by omega) ht
    have hbefore := h.before ht
    have hnear := h.near _ (List.mem_of_getElem? ht)
    have herr := h.maxError
    have hint := hinterval (by omega)
    have hposi := hpos i (by omega)
    have hstep := quad_succ v a i
    have hcast : ((i + 1 : Nat) : Int) = (i : Int) + 1 := by omega
    unfold clockDiffMax at hnear hposi
    have hp : u32 (quad v a i + interval) = quad v a (i + 1) := by
      rw [hint, ← hstep]
      exact u32_of_range (by omega) (by omega)
    simp only [checkSteps, h.minmaxPoint_eq ht, hp]
    rw [u32_of_range (x := ts[i] - sc.lastStepClock - _) (by omega) (by omega),
      u32_of_range (x := ts[i] - sc.lastStepClock) (by omega) (by omega),
      if_neg (by omega), if_neg (by omega)]
    have hrec := ih (i + 1) (u32 (interval + a)) (by omega) fun hm => by
      have hposn := hpos (i + 1) (by omega)
      unfold clockDiffMax at hposn
      have hmul : a * ((i + 1 : Nat) : Int) = a * i + a := by rw [hcast]; ring
      rw [hmul] at hposn ⊢
      rw [hint, u32_of_range (by omega) (by omega)]
      omega
    rw [hcast] at hrec
    exact hrec

end Move

/-- A move that fits the first `n` clocks of the queue. -/
structure Fitting (sc : StepCompress) (ts : List Int) (move : StepMove) (n : Nat) : Prop where
  queued : Queued sc ts
  count : move.count = n
  range : 1 ≤ n ∧ n ≤ ts.length
  clock : ∀ i t, i < n → ts[i]? = some t →
    sc.lastStepClock + quad move.interval move.add (i + 1) ≤ t ∧
      t - min sc.maxError ((t - clockBefore sc.lastStepClock ts i) / 2) ≤
        sc.lastStepClock + quad move.interval move.add (i + 1)
  interval : ∀ i : Nat, i < n →
    0 < move.interval + move.add * i ∧ move.interval + move.add * i < clockDiffMax
  add : -32768 ≤ move.add ∧ move.add ≤ 32767
  small : n ≤ 65535
  total : move.interval ≤ quad move.interval move.add n ∧
    quad move.interval move.add n < clockDiffMax

/-- The search finds a fitting move. -/
theorem Queued.search {sc : StepCompress} {ts : List Int} (h : Queued sc ts) (hne : ts ≠ []) :
    ∃ move n, compressBisectAdd sc = some move ∧ Fitting sc ts move n := by
  have hqlen : sc.queue.length = ts.length := by rw [h.queue, List.length_map]
  have hspaced := h.spaced
  have hpne : (List.range (min sc.queue.length 65535)).map (minmaxPoint sc) ≠ [] := by
    intro hnil
    have hlen := congrArg List.length hnil
    have htlen : ts.length ≠ 0 := fun h0 => hne (List.length_eq_zero_iff.mp h0)
    rw [List.length_map, List.length_range, hqlen, List.length_nil] at hlen
    omega
  obtain ⟨move, hmove, hfit⟩ := compressBisectAdd_spec rfl hspaced hpne h.maxError
  obtain ⟨n, hcount, hn1, hn2, hfits⟩ := hfit.count
  have hn2' : n ≤ min sc.queue.length 65535 := by
    rw [List.length_map, List.length_range] at hn2
    exact hn2
  have hpos : ∀ i : Nat, i < n → 0 < move.interval + move.add * i ∧
      move.interval + move.add * i < clockDiffMax := by
    intro i hi
    have hr := (hfits.mono (show i + 1 ≤ n by omega)).reach hspaced (by omega) (by omega)
    have hcast : ((i + 1 : Nat) : Int) - 1 = (i : Int) := by omega
    rw [← hcast]
    exact hr.last
  have htotal := (hfits.reach hspaced hn1 hn2).total
  refine ⟨move, n, hmove,
    { queued := h
      count := hcount
      range := ⟨hn1, by omega⟩
      clock := fun i t hi ht => h.fits_clock hfits hn2' hi ht
      interval := hpos
      add := hfit.add
      small := by omega
      total := ⟨?_, htotal.2⟩ }⟩
  · have hlast := quad_mono (fun k hk => (hpos k hk).1.le) hn1 le_rfl
    rw [Nat.cast_one, quad_one] at hlast
    exact hlast

namespace Fitting

variable {sc : StepCompress} {ts : List Int} {move : StepMove} {n : Nat}

theorem quad_zero : quad move.interval move.add ((0 : Nat) : Int) = 0 := by simp [quad, triangle]

theorem interval_range (h : Fitting sc ts move n) :
    0 < move.interval ∧ move.interval < clockDiffMax := by
  simpa using h.interval 0 h.range.1

theorem checkLine (h : Fitting sc ts move n) : checkLine sc move = true := by
  have hint := h.interval_range
  have hn := h.range
  have hcount := h.count
  unfold clockDiffMax at hint
  unfold Chelper.checkLine
  rw [if_neg (by omega), hcount, Int.toNat_natCast]
  have := checkSteps_of_fits h.queued hn.2 h.clock h.interval n 0 move.interval (by omega)
    fun _ => by simp
  rw [quad_zero] at this
  exact this

theorem addMove_lastStepClock (h : Fitting sc ts move n) :
    (addMove (sc.lastStepClock + move.interval) move sc).lastStepClock =
      sc.lastStepClock + quad move.interval move.add n := by
  have hn : (1 : Int) ≤ n := by have := h.range; omega
  have hlast := h.interval (n - 1) (by omega)
  have hcast : ((n - 1 : Nat) : Int) = (n : Int) - 1 := by omega
  rw [hcast] at hlast
  obtain ⟨htri, -⟩ := quad_parts hn h.interval_range.1.le hlast.1.le h.total.2
  have hexact := addfactor_exact (a := move.add) (n := (n : Int)) hn
    (by unfold quadMax; unfold clockDiffMax at htri; omega)
  have hquad : move.add * triangle n + move.interval * ((n : Int) - 1) =
      quad move.interval move.add n - move.interval := by unfold quad; ring
  have htotal := h.total
  have hint := h.interval_range
  unfold clockDiffMax at htotal
  simp only [addMove, h.count, hexact, hquad]
  rw [u32_of_range (by omega) (by omega)]
  omega

/-- The rest of the queue, after the message is queued. -/
theorem drop (h : Fitting sc ts move n) :
    Queued
      { addMove (sc.lastStepClock + move.interval) move sc with queue := sc.queue.drop n }
      (ts.drop n) := by
  have hint := h.interval_range
  have htotal := h.total
  have hlt : ∀ t ∈ ts.drop n, sc.lastStepClock + quad move.interval move.add n < t := by
    intro t ht
    obtain ⟨j, hj⟩ := List.getElem?_of_mem ht
    rw [List.getElem?_drop] at hj
    obtain ⟨m, rfl⟩ : ∃ m, n = m + 1 := ⟨n - 1, by have := h.range; omega⟩
    obtain ⟨hj', rfl⟩ := List.getElem?_eq_some_iff.mp hj
    have hm : ts[m]? = some ts[m] := List.getElem?_eq_getElem (by omega)
    have hc := (h.clock m ts[m] (by omega) hm).1
    have hpair := (List.pairwise_cons.mp h.queued.pairwise).2
    have := List.pairwise_iff_getElem.mp hpair m (m + 1 + j) (by omega) hj' (by omega)
    have hcast : ((m + 1 : Nat) : Int) = (m : Int) + 1 := by omega
    rw [hcast]
    omega
  refine ⟨?_, ?_, ?_, h.queued.maxError⟩
  · simp only [h.queued.queue, List.map_drop]
  · simp only [h.addMove_lastStepClock]
    refine List.isChain_cons.mpr ⟨fun t ht => hlt t (List.mem_of_mem_head? ht), ?_⟩
    exact h.queued.sorted.tail.drop n
  · intro t ht
    have hnear := h.queued.near t (List.mem_of_mem_drop ht)
    simp only [h.addMove_lastStepClock]
    omega

/-- The message replays the steps that leave the queue. -/
theorem replay (h : Fitting sc ts move n) (r : Replay) (pt : Int)
    (hwake : r.wake = u32 sc.lastStepClock) :
    ∃ t' steps,
      r.next (.queueStep move.interval move.count move.add) =
        { wake := u32 (sc.lastStepClock + quad move.interval move.add n)
          dir := r.dir
          steps := r.steps ++ steps } ∧
      Faithful sc.maxError pt sc.lastStepClock
        ((ts.take n).map fun t => { clock := t, dir := r.dir }) steps t'
        (sc.lastStepClock + quad move.interval move.add n) := by
  have hint := h.interval_range
  unfold clockDiffMax at hint
  obtain ⟨t', hfaithful, hlast⟩ := replayMove_faithful r.dir h.clock h.range.2 n 0
    (u32 sc.lastStepClock) move.interval pt sc.lastStepClock (by omega)
    (by rw [quad_zero, add_zero]) (by
      simp only [Nat.cast_zero, mul_zero, add_zero]
      rw [u32_of_range (by omega) (by omega)]) (by simp [clockBefore]) (by rw [quad_zero, add_zero])
  rw [List.drop_zero] at hfaithful
  refine ⟨t', replayMove move.add r.dir n (u32 sc.lastStepClock) move.interval true, ?_,
    hfaithful⟩
  have hadd : i16 move.add = move.add := i16_of_range h.add.1 (by have := h.add; omega)
  have hcount : u16 move.count = n := by
    have := h.small
    rw [h.count, u16]
    omega
  have hinterval : u32 move.interval = move.interval := u32_of_range (by omega) (by omega)
  simp only [Replay.next, hadd, hcount, hinterval, Int.toNat_natCast, hwake]
  rw [← hlast]
  rfl

end Fitting

/-! ## The stream -/

/-- The clocks on the queue as requests; all have the direction last set. -/
def queuedRequests (sc : StepCompress) (ts : List Int) : List Request :=
  ts.map fun t => { clock := t, dir := sc.sdir.getD false != sc.invertSdir }

/-- The object has emitted the requests `rs` and still holds the clocks `ts`. -/
structure Streamed (start : Int) (sc : StepCompress) (rs : List Request) (ts : List Int) :
    Prop where
  queued : Queued sc ts
  bounded : ∀ t ∈ ts, t + clockDiffMax ≤ uint64Max
  room : sc.pos + sc.queue.length ≤ sc.cap
  wake : (replay start sc.msgQueue).wake = u32 sc.lastStepClock
  dir : ∀ d, sc.sdir = some d → (replay start sc.msgQueue).dir = (d != sc.invertSdir)
  known : ts ≠ [] → ∃ d, sc.sdir = some d
  faithful : ∃ t', Faithful sc.maxError start start rs (replay start sc.msgQueue).steps t'
    sc.lastStepClock

/-- The object `sc` has emitted more and become `sc'`; nothing was asked for. -/
structure Flushed (start : Int) (sc : StepCompress) (rs : List Request) (ts : List Int)
    (sc' : StepCompress) (rs' : List Request) (ts' : List Int) : Prop where
  streamed : Streamed start sc' rs' ts'
  requests : rs' ++ queuedRequests sc' ts' = rs ++ queuedRequests sc ts
  suffix : ts' <:+ ts
  later : sc.lastStepClock ≤ sc'.lastStepClock
  bound : sc'.lastStepClock ≤ sc.lastStepClock ∨ ∃ t ∈ ts, sc'.lastStepClock ≤ t
  maxError : sc'.maxError = sc.maxError
  invertSdir : sc'.invertSdir = sc.invertSdir
  nextStepClock : sc'.nextStepClock = sc.nextStepClock
  nextStepDir : sc'.nextStepDir = sc.nextStepDir

theorem Flushed.refl {start : Int} {sc : StepCompress} {rs : List Request} {ts : List Int}
    (h : Streamed start sc rs ts) : Flushed start sc rs ts sc rs ts :=
  ⟨h, rfl, List.suffix_rfl, le_refl _, .inl (le_refl _), rfl, rfl, rfl, rfl⟩

theorem Flushed.trans {start : Int} {sc sc' sc'' : StepCompress} {rs rs' rs'' : List Request}
    {ts ts' ts'' : List Int} (h : Flushed start sc rs ts sc' rs' ts')
    (h' : Flushed start sc' rs' ts' sc'' rs'' ts'') :
    Flushed start sc rs ts sc'' rs'' ts'' where
  streamed := h'.streamed
  requests := h'.requests.trans h.requests
  suffix := h'.suffix.trans h.suffix
  later := le_trans h.later h'.later
  bound := by
    rcases h'.bound with hle | ⟨t, ht, hle⟩
    · rcases h.bound with hle' | ⟨t, ht, hle'⟩
      · exact .inl (le_trans hle hle')
      · exact .inr ⟨t, ht, le_trans hle hle'⟩
    · exact .inr ⟨t, h.suffix.subset ht, hle⟩
  maxError := h'.maxError.trans h.maxError
  invertSdir := h'.invertSdir.trans h.invertSdir
  nextStepClock := h'.nextStepClock.trans h.nextStepClock
  nextStepDir := h'.nextStepDir.trans h.nextStepDir

theorem Flushed.lt {start b : Int} {sc sc' : StepCompress} {rs rs' : List Request}
    {ts ts' : List Int} (h : Flushed start sc rs ts sc' rs' ts')
    (hb : ∀ x ∈ sc.lastStepClock :: ts, x < b) : ∀ x ∈ sc'.lastStepClock :: ts', x < b := by
  intro x hx
  rcases List.mem_cons.mp hx with rfl | hx
  · rcases h.bound with hle | ⟨t, ht, hle⟩
    · exact lt_of_le_of_lt hle (hb _ (by simp))
    · exact lt_of_le_of_lt hle (hb t (by simp [ht]))
  · exact hb x (by simp [h.suffix.subset hx])

theorem calcLastStepPrintTime_eq (sc : StepCompress) :
    ∃ history, calcLastStepPrintTime sc = { sc with historyList := history } := by
  unfold calcLastStepPrintTime
  split
  · exact ⟨_, rfl⟩
  · exact ⟨sc.historyList, rfl⟩

section Stream

variable {start : Int} {sc : StepCompress} {rs : List Request} {ts : List Int}

theorem Streamed.history (h : Streamed start sc rs ts) (history : List HistorySteps) :
    Streamed start { sc with historyList := history } rs ts :=
  ⟨⟨h.queued.queue, h.queued.sorted, h.queued.near, h.queued.maxError⟩, h.bounded, h.room, h.wake,
    h.dir, h.known, h.faithful⟩

/-- A fitting move goes from the queue to the messages. -/
theorem Streamed.move {move : StepMove} {n : Nat} (h : Streamed start sc rs ts)
    (hfit : Fitting sc ts move n) (pos : Nat) (hpos : pos ≤ sc.pos + n) :
    Streamed start
      { addMove (sc.lastStepClock + move.interval) move sc with
        queue := sc.queue.drop n, pos := pos }
      (rs ++ queuedRequests sc (ts.take n)) (ts.drop n) := by
  have hdrop := hfit.drop
  have hlsc := hfit.addMove_lastStepClock
  have hqlen : sc.queue.length = ts.length := by rw [h.queued.queue, List.length_map]
  obtain ⟨d, hd⟩ := h.known fun hnil => by
    have := hfit.range
    rw [hnil] at this
    simp only [List.length_nil] at this
    omega
  obtain ⟨t', hfaithful⟩ := h.faithful
  obtain ⟨t'', steps, hnext, hsteps⟩ := hfit.replay (replay start sc.msgQueue) t' h.wake
  have hreplay : replay start (addMove (sc.lastStepClock + move.interval) move sc).msgQueue =
      { wake := u32 (sc.lastStepClock + quad move.interval move.add n)
        dir := (replay start sc.msgQueue).dir
        steps := (replay start sc.msgQueue).steps ++ steps } := by
    rw [← hnext]
    exact replay_snoc start sc.msgQueue _
  refine ⟨⟨hdrop.queue, hdrop.sorted, hdrop.near, hdrop.maxError⟩,
    fun t ht => h.bounded t (List.mem_of_mem_drop ht), ?_, ?_, ?_, fun _ => ⟨d, hd⟩, t'', ?_⟩
  · have hroom := h.room
    have hrange := hfit.range
    simp only [addMove, List.length_drop]
    omega
  · simp only [hreplay, hlsc]
  · intro d' hd'
    simp only [hreplay]
    exact h.dir d' hd'
  · simp only [hreplay, hlsc]
    have hdir : (replay start sc.msgQueue).dir = (sc.sdir.getD false != sc.invertSdir) := by
      rw [h.dir d hd, hd]
      rfl
    refine hfaithful.append ?_
    unfold queuedRequests
    rw [← hdir]
    exact hsteps

/-- The loop of `queue_flush` returns, and the steps that leave the queue are the
steps of its messages. -/
theorem queueFlushLoop_spec (moveClock : Int) :
    ∀ (rounds : Nat) {sc : StepCompress} {rs : List Request} {ts : List Int},
      Streamed start sc rs ts → ts ≠ [] → ts.length < rounds →
      ∃ sc' rs' ts', queueFlushLoop moveClock rounds sc = .ok sc' ∧
        Flushed start sc rs ts sc' rs' ts' ∧ sc'.sdir = sc.sdir ∧
        (ts' = [] ∨ moveClock ≤ sc'.lastStepClock) := by
  intro rounds
  induction rounds with
  | zero => intro sc rs ts _ _ hlen; omega
  | succ rounds ih =>
    intro sc rs ts h hne hlen
    simp only [queueFlushLoop]
    split
    case isFalse hdone => exact ⟨sc, rs, ts, rfl, .refl h, rfl, .inr (by omega)⟩
    obtain ⟨move, n, hmove, hfit⟩ := h.queued.search hne
    have hqlen : (addMove (sc.lastStepClock + move.interval) move sc).queue.length = ts.length := by
      simp only [addMove, h.queued.queue, List.length_map]
    have hcount := hfit.count
    have hrange := hfit.range
    have hflushed : ∀ pos, pos ≤ sc.pos + n → Flushed start sc rs ts
        { addMove (sc.lastStepClock + move.interval) move sc with
          queue := sc.queue.drop n, pos := pos }
        (rs ++ queuedRequests sc (ts.take n)) (ts.drop n) := by
      intro pos hpos
      have hlsc := hfit.addMove_lastStepClock
      have hint := hfit.interval_range
      have htotal := hfit.total
      obtain ⟨m, rfl⟩ : ∃ m, n = m + 1 := ⟨n - 1, by omega⟩
      have hm : ts[m]? = some ts[m] := List.getElem?_eq_getElem (by omega)
      have hlast := (hfit.clock m ts[m] (by omega) hm).1
      have hcast : ((m + 1 : Nat) : Int) = (m : Int) + 1 := by omega
      refine ⟨h.move hfit pos hpos, ?_, List.drop_suffix _ _, ?_, .inr ⟨ts[m], List.getElem_mem _, ?_⟩,
        rfl, rfl, rfl, rfl⟩
      · rw [List.append_assoc]
        congr 1
        unfold queuedRequests
        simp only [addMove]
        rw [← List.map_append, List.take_append_drop]
      · simp only [hlsc]
        omega
      · simp only [hlsc, hcast]
        exact hlast
    simp only [hmove, hfit.checkLine, if_true, hqlen, hcount, Int.toNat_natCast]
    split
    · have hn : n = ts.length := by omega
      have hnil : ts.drop n = [] := by rw [hn, List.drop_length]
      have hqnil : sc.queue.drop n = [] := by rw [h.queued.queue, ← List.map_drop, hnil]; rfl
      have hall := hflushed 0 (by omega)
      rw [hnil, hqnil] at hall
      exact ⟨_, _, [], rfl, hall, rfl, .inl rfl⟩
    · have hall := hflushed (sc.pos + n) (by omega)
      obtain ⟨sc', rs', ts', hloop, hrest, hsdir, hend⟩ := ih hall.streamed
        (fun hnil => by
          have := congrArg List.length hnil
          simp only [List.length_drop, List.length_nil] at this
          omega)
        (by rw [List.length_drop]; omega)
      exact ⟨sc', rs', ts', hloop, hall.trans hrest, hsdir, hend⟩

/-- `queue_flush` returns, with everything before the given clock emitted. -/
theorem queueFlush_spec (moveClock : Int) (h : Streamed start sc rs ts) :
    ∃ sc' rs' ts', queueFlush moveClock sc = .ok sc' ∧ Flushed start sc rs ts sc' rs' ts' ∧
      sc'.sdir = sc.sdir ∧ (ts' = [] ∨ moveClock ≤ sc'.lastStepClock) := by
  have hqlen : sc.queue.length = ts.length := by rw [h.queued.queue, List.length_map]
  unfold queueFlush
  split
  · rename_i hnil
    have hts : ts = [] := by
      rw [hnil, List.length_nil] at hqlen
      exact List.length_eq_zero_iff.mp hqlen.symm
    exact ⟨sc, rs, ts, rfl, .refl h, rfl, .inl hts⟩
  · rename_i hne
    have hts : ts ≠ [] := fun hnil => hne (by rw [h.queued.queue, hnil]; rfl)
    obtain ⟨sc', rs', ts', hloop, hf, hsdir, hend⟩ :=
      queueFlushLoop_spec moveClock (sc.queue.length + 1) h hts (by omega)
    obtain ⟨history, hcalc⟩ := calcLastStepPrintTime_eq sc'
    refine ⟨{ sc' with historyList := history }, rs', ts', ?_, ⟨hf.streamed.history history,
      hf.requests, hf.suffix, hf.later, hf.bound, hf.maxError, hf.invertSdir, hf.nextStepClock,
      hf.nextStepDir⟩, hsdir, hend⟩
    rw [hloop, ← hcalc]
    rfl

theorem Streamed.eq_nil (h : Streamed start sc rs ts)
    (hend : ts = [] ∨ uint64Max ≤ sc.lastStepClock) : ts = [] := by
  rcases hend with hnil | hfar
  · exact hnil
  · by_contra hne
    obtain ⟨t, ht⟩ := List.exists_mem_of_ne_nil ts hne
    have hafter := h.queued.after ht
    have hbound := h.bounded t ht
    unfold clockDiffMax at hbound
    omega

theorem queueFlush_all (h : Streamed start sc rs ts) :
    ∃ sc' rs', queueFlush uint64Max sc = .ok sc' ∧ Flushed start sc rs ts sc' rs' [] ∧
      sc'.sdir = sc.sdir := by
  obtain ⟨sc', rs', ts', heq, hf, hsdir, hend⟩ := queueFlush_spec uint64Max h
  have hnil : ts' = [] := hf.streamed.eq_nil hend
  subst hnil
  exact ⟨sc', rs', heq, hf, hsdir⟩

/-- `set_next_step_dir` sets the direction of the steps that follow. -/
theorem setNextStepDir_spec (d : Bool) (h : Streamed start sc rs ts) :
    ∃ sc' rs' ts', setNextStepDir d sc = .ok sc' ∧ Flushed start sc rs ts sc' rs' ts' ∧
      sc'.sdir = some d := by
  unfold setNextStepDir
  split
  · rename_i hsame
    exact ⟨sc, rs, ts, rfl, .refl h, hsame⟩
  · obtain ⟨sc1, rs', heq, hf, -⟩ := queueFlush_all h
    have hs := hf.streamed
    rw [heq]
    refine ⟨_, rs', [], rfl, ⟨⟨⟨hs.queued.queue, hs.queued.sorted, hs.queued.near,
      hs.queued.maxError⟩, by simp, hs.room, ?_, ?_, by simp, ?_⟩, hf.requests, hf.suffix, hf.later,
      hf.bound, hf.maxError, hf.invertSdir, hf.nextStepClock, hf.nextStepDir⟩, rfl⟩
    · simp only [replay_snoc]
      exact hs.wake
    · intro d' hd'
      simp only [Option.some.injEq] at hd'
      simp only [replay_snoc, Replay.next, hd']
    · simp only [replay_snoc]
      exact hs.faithful

/-! ## Appending -/

/-- What an append of the pending step `t` does: it is on the queue or emitted. -/
structure Appended (start : Int) (sc : StepCompress) (rs : List Request) (ts : List Int) (t : Int)
    (sc' : StepCompress) (rs' : List Request) (ts' : List Int) : Prop where
  streamed : Streamed start sc' rs' ts'
  requests : rs' ++ queuedRequests sc' ts' = rs ++ queuedRequests sc ts ++
    [{ clock := t, dir := sc.nextStepDir != sc.invertSdir }]
  maxError : sc'.maxError = sc.maxError
  invertSdir : sc'.invertSdir = sc.invertSdir
  nextStepClock : sc'.nextStepClock = 0
  nextStepDir : sc'.nextStepDir = sc.nextStepDir
  le : ∀ x ∈ sc'.lastStepClock :: ts', x ≤ t

theorem growAlloc_gt (inUse : Nat) : ∀ (rounds alloc : Nat), inUse < alloc * 2 ^ rounds →
    inUse < growAlloc inUse rounds alloc := by
  intro rounds
  induction rounds with
  | zero => intro alloc h; simpa [growAlloc] using h
  | succ rounds ih =>
    intro alloc h
    simp only [growAlloc]
    split
    · refine ih _ ?_
      rw [pow_succ] at h
      calc inUse < alloc * (2 ^ rounds * 2) := h
        _ = alloc * 2 * 2 ^ rounds := by ring
    · omega

theorem queueMakeRoom_spec (hroom : sc.pos + sc.queue.length ≤ sc.cap) :
    ∃ pos cap, queueMakeRoom sc = { sc with pos := pos, cap := cap } ∧
      pos + sc.queue.length < cap := by
  unfold queueMakeRoom
  split
  · split
    · exact ⟨0, sc.cap, rfl, by omega⟩
    · refine ⟨0, _, rfl, ?_⟩
      rw [zero_add]
      refine growAlloc_gt _ _ _ ?_
      have hpow : sc.queue.length < 2 ^ (sc.queue.length + 1) :=
        lt_trans (Nat.lt_succ_self _) Nat.lt_two_pow_self
      have halloc : 1 ≤ if sc.cap = 0 then queueStartSize else sc.cap := by
        unfold queueStartSize
        split <;> omega
      exact lt_of_lt_of_le hpow (Nat.le_mul_of_pos_left _ halloc)
  · exact ⟨sc.pos, sc.cap, rfl, by omega⟩

/-- Putting the pending step on a queue that has room for it. -/
theorem Streamed.put {t : Int} {pos cap : Nat} (h : Streamed start sc rs ts)
    (hroom : pos + sc.queue.length < cap) (hd : sc.sdir = some sc.nextStepDir)
    (hafter : ∀ x ∈ sc.lastStepClock :: ts, x < t) (hnear : t < sc.lastStepClock + clockDiffMax)
    (hbound : t + clockDiffMax ≤ uint64Max) :
    Appended start sc rs ts t
      { sc with queue := sc.queue ++ [u32 t], pos := pos, cap := cap, nextStepClock := 0 }
      rs (ts ++ [t]) where
  streamed :=
    { queued :=
        { queue := by simp [h.queued.queue]
          sorted := by
            rw [← List.cons_append]
            refine List.isChain_append.mpr ⟨h.queued.sorted, List.isChain_singleton _, ?_⟩
            intro x hx y hy
            simp only [List.head?_cons, Option.mem_def, Option.some.injEq] at hy
            subst hy
            exact hafter x (List.mem_of_getLast? hx)
          near := by
            intro x hx
            rcases List.mem_append.mp hx with hx | hx
            · exact h.queued.near x hx
            · simp only [List.mem_singleton] at hx
              exact hx ▸ hnear
          maxError := h.queued.maxError }
      bounded := by
        intro x hx
        rcases List.mem_append.mp hx with hx | hx
        · exact h.bounded x hx
        · simp only [List.mem_singleton] at hx
          exact hx ▸ hbound
      room := by simp; omega
      wake := h.wake
      dir := h.dir
      known := fun _ => ⟨_, hd⟩
      faithful := h.faithful }
  requests := by simp [queuedRequests, hd]
  maxError := rfl
  invertSdir := rfl
  nextStepClock := rfl
  nextStepDir := rfl
  le := by
    intro x hx
    rcases List.mem_cons.mp hx with rfl | hx
    · exact le_of_lt (hafter _ (by simp))
    · rcases List.mem_append.mp hx with hx | hx
      · exact le_of_lt (hafter x (by simp [hx]))
      · simp only [List.mem_singleton] at hx
        exact le_of_eq hx

/-- A step far after the last one is emitted at once, when the queue is empty. -/
theorem Streamed.far {t : Int} (h : Streamed start sc rs []) (hd : sc.sdir = some sc.nextStepDir)
    (hafter : sc.lastStepClock < t) (hnext : sc.nextStepClock = 0) :
    ∃ rs', Appended start sc rs [] t (stepcompressFlushFar t sc) rs' [] := by
  obtain ⟨history, hcalc⟩ := calcLastStepPrintTime_eq
    (addMove t { interval := u32 (t - sc.lastStepClock), count := 1, add := 0 } sc)
  have hlsc : (addMove t { interval := u32 (t - sc.lastStepClock), count := 1, add := 0 }
      sc).lastStepClock = t := by
    simp [addMove, i32, u32]
  obtain ⟨t', hfaithful⟩ := h.faithful
  have hdir := h.dir _ hd
  have hstep : u32 (u32 sc.lastStepClock + u32 (u32 (t - sc.lastStepClock))) = u32 t := by
    unfold u32; omega
  have hone : (u16 1).toNat = 1 := rfl
  have hreplay : replay start (addMove t
      { interval := u32 (t - sc.lastStepClock), count := 1, add := 0 } sc).msgQueue =
      { wake := u32 t
        dir := sc.nextStepDir != sc.invertSdir
        steps := (replay start sc.msgQueue).steps ++
          [{ clock := u32 t, dir := sc.nextStepDir != sc.invertSdir, first := true }] } := by
    simp only [addMove, replay_snoc, Replay.next, replayMove, lastWake, hone, h.wake, hdir, hstep,
      List.getLast?_singleton]
  refine ⟨rs ++ [{ clock := t, dir := sc.nextStepDir != sc.invertSdir }], ?_⟩
  unfold stepcompressFlushFar
  rw [hcalc]
  have herr := h.queued.maxError
  refine
    { streamed :=
        { queued :=
            { queue := h.queued.queue
              sorted := List.isChain_singleton _
              near := by simp
              maxError := h.queued.maxError }
          bounded := by simp
          room := h.room
          wake := by simp only [hreplay, hlsc]
          dir := by
            intro d hd'
            simp only [hreplay]
            rw [show sc.sdir = some d from hd', Option.some.injEq] at hd
            rw [hd]
            rfl
          known := by simp
          faithful := ⟨t, ?_⟩ }
      requests := by simp [queuedRequests]
      maxError := rfl
      invertSdir := rfl
      nextStepClock := hnext
      nextStepDir := rfl
      le := by simp only [List.mem_singleton, forall_eq, hlsc]; exact le_refl _ }
  simp only [hreplay, hlsc]
  refine hfaithful.append (.cons (le_refl _) ?_ .nil)
  simp only [if_true]
  have hgap : 0 ≤ (t - sc.lastStepClock) / 2 := Int.ediv_nonneg (by omega) (by omega)
  have hmin : 0 ≤ min sc.maxError ((t - sc.lastStepClock) / 2) := le_min herr.1 hgap
  omega

theorem Appended.of_flushed {sc1 sc2 : StepCompress} {rs1 rs2 : List Request} {ts1 ts2 : List Int}
    {t : Int} (hf : Flushed start sc rs ts sc1 rs1 ts1)
    (ha : Appended start sc1 rs1 ts1 t sc2 rs2 ts2) : Appended start sc rs ts t sc2 rs2 ts2 where
  streamed := ha.streamed
  requests := by rw [ha.requests, hf.requests, hf.nextStepDir, hf.invertSdir]
  maxError := ha.maxError.trans hf.maxError
  invertSdir := ha.invertSdir.trans hf.invertSdir
  nextStepClock := ha.nextStepClock
  nextStepDir := ha.nextStepDir.trans hf.nextStepDir
  le := ha.le

theorem Streamed.pending (h : Streamed start sc rs ts) (clock : Int) (dir : Bool) :
    Streamed start { sc with nextStepClock := clock, nextStepDir := dir } rs ts :=
  ⟨⟨h.queued.queue, h.queued.sorted, h.queued.near, h.queued.maxError⟩, h.bounded, h.room, h.wake,
    h.dir, h.known, h.faithful⟩

/-- The pending step is put where there is room, or does not fit behind a queue
that was only flushed in part. -/
theorem queueAppendFar_spec {t : Int} (h : Streamed start sc rs ts) (ht : sc.nextStepClock = t)
    (hd : sc.sdir = some sc.nextStepDir) (hafter : ∀ x ∈ sc.lastStepClock :: ts, x < t)
    (hbound : t + clockDiffMax ≤ uint64Max) :
    (∃ sc' rs' ts', queueAppendFar sc = .ok sc' ∧ Appended start sc rs ts t sc' rs' ts') ∨
      queueAppendFar sc = .error .overrun := by
  obtain ⟨sc1, rs1, ts1, heq, hf, hsdir, hend⟩ :=
    queueFlush_spec (t - clockDiffMax + 1) (h.pending 0 sc.nextStepDir)
  have hs := hf.streamed
  have hafter1 := hf.lt hafter
  have hd1 : sc1.sdir = some sc1.nextStepDir := by rw [hsdir, hf.nextStepDir]; exact hd
  have hclear : ∀ {sc' rs' ts'}, Appended start sc1 rs1 ts1 t sc' rs' ts' →
      Appended start sc rs ts t sc' rs' ts' := fun ha =>
    let ha' := ha.of_flushed hf
    ⟨ha'.streamed, ha'.requests, ha'.maxError, ha'.invertSdir, ha'.nextStepClock, ha'.nextStepDir,
      ha'.le⟩
  unfold queueAppendFar
  simp only [ht, heq, Except.bind]
  split
  · rename_i hfar
    left
    have hnil : ts1 = [] := by
      rcases hend with hnil | hle
      · exact hnil
      · omega
    subst hnil
    obtain ⟨rs', ha⟩ := hs.far hd1 (hafter1 _ (by simp)) hf.nextStepClock
    exact ⟨_, rs', [], rfl, hclear ha⟩
  · rename_i hnear
    unfold queuePut
    split
    · rename_i hroom
      left
      have ha := hs.put hroom hd1 hafter1 (by omega) hbound
      have hzero : sc1.nextStepClock = 0 := hf.nextStepClock
      rw [← hzero] at ha
      exact ⟨_, rs1, _, rfl, hclear ha⟩
    · exact .inr rfl

theorem queueAppendExtend_spec {t : Int} (h : Streamed start sc rs ts) (ht : sc.nextStepClock = t)
    (hd : sc.sdir = some sc.nextStepDir) (hafter : ∀ x ∈ sc.lastStepClock :: ts, x < t)
    (hnear : t < sc.lastStepClock + clockDiffMax) (hbound : t + clockDiffMax ≤ uint64Max) :
    ∃ sc' rs' ts', queueAppendExtend sc = .ok sc' ∧ Appended start sc rs ts t sc' rs' ts' := by
  unfold queueAppendExtend
  generalize hflush : (if sc.queue.length > 65535 + 2000 then
      queueFlush (sc.lastStepClock + u32 (sc.queue.getD (sc.queue.length - 65535) 0 -
        u32 sc.lastStepClock)) sc
    else .ok sc) = flushed
  obtain ⟨sc1, rs1, ts1, heq, hf, hsdir⟩ : ∃ sc1 rs1 ts1, flushed = .ok sc1 ∧
      Flushed start sc rs ts sc1 rs1 ts1 ∧ sc1.sdir = sc.sdir := by
    rw [← hflush]
    split
    · obtain ⟨sc1, rs1, ts1, heq, hf, hsdir, -⟩ := queueFlush_spec _ h
      exact ⟨sc1, rs1, ts1, heq, hf, hsdir⟩
    · exact ⟨sc, rs, ts, rfl, .refl h, rfl⟩
  have hs := hf.streamed
  obtain ⟨pos, cap, hmake, hroom⟩ := queueMakeRoom_spec hs.room
  have hlater := hf.later
  have hd1 : sc1.sdir = some sc1.nextStepDir := by rw [hsdir, hf.nextStepDir]; exact hd
  have ha := hs.put hroom hd1 (hf.lt hafter) (by omega) hbound
  refine ⟨_, rs1, _, ?_, ha.of_flushed hf⟩
  have ht1 : sc1.nextStepClock = t := hf.nextStepClock.trans ht
  simp only [heq, Except.bind, hmake, queuePut, hroom, if_true, Except.map, ht1]

/-- `queue_append` adds the pending step to the stream, except when
`queue_append_far` writes behind the end of the queue. -/
theorem queueAppend_spec {t : Int} (h : Streamed start sc rs ts) (ht : sc.nextStepClock = t)
    (hafter : ∀ x ∈ sc.lastStepClock :: ts, x < t) (hbound : t + clockDiffMax ≤ uint64Max) :
    (∃ sc' rs' ts', queueAppend sc = .ok sc' ∧ Appended start sc rs ts t sc' rs' ts') ∨
      (queueAppend sc = .error .overrun ∧ sc.lastStepClock + clockDiffMax ≤ t) := by
  obtain ⟨sc1, rs1, ts1, heq, hf, hsdir⟩ := setNextStepDir_spec sc.nextStepDir h
  have hs := hf.streamed
  have ht1 : sc1.nextStepClock = t := hf.nextStepClock.trans ht
  have hd1 : sc1.sdir = some sc1.nextStepDir := by rw [hsdir, hf.nextStepDir]
  have hafter1 := hf.lt hafter
  have hlater := hf.later
  unfold queueAppend
  rw [heq]
  simp only [Except.bind]
  split
  · rename_i hfar
    rcases queueAppendFar_spec hs ht1 hd1 hafter1 hbound with ⟨sc', rs', ts', hok, ha⟩ | herr
    · exact .inl ⟨sc', rs', ts', hok, ha.of_flushed hf⟩
    · exact .inr ⟨herr, by omega⟩
  · rename_i hnear
    left
    split
    · obtain ⟨sc', rs', ts', hok, ha⟩ :=
        queueAppendExtend_spec hs ht1 hd1 hafter1 (by omega) hbound
      exact ⟨sc', rs', ts', hok, ha.of_flushed hf⟩
    · rename_i hroom
      have ha := hs.put (show sc1.pos + sc1.queue.length < sc1.cap by omega) hd1 hafter1 (by omega) hbound
      refine ⟨_, rs1, _, ?_, ha.of_flushed hf⟩
      rw [ht1, queuePut, if_pos (by omega)]
      rfl

end Stream

/-! ## Runs -/

/-- The calls that make the stream. -/
inductive StepOp
  | append (sdir : Bool) (stepClock : Int)
  | commit
  | flush (moveClock : Int)
  deriving DecidableEq, Repr

/-- An object with the steps appended to it, and the clock of the last of them. -/
structure StepWorld where
  sc : StepCompress
  requested : List Request
  lastClock : Int
  deriving DecidableEq, Repr

namespace StepWorld

/-- A new object whose stepper made its last step at the clock `start`. -/
def init (sc : StepCompress) (start : Int) : StepWorld where
  sc := { sc with
    queue := [], pos := 0, lastStepClock := start, msgQueue := [], sdir := none, nextStepClock := 0 }
  requested := []
  lastClock := start

/-- One call. -/
def next (w : StepWorld) : StepOp → Except StepFault StepWorld
  | .append sdir stepClock =>
      (stepcompressAppend sdir stepClock w.sc).map fun sc =>
        { sc := sc
          requested := w.requested ++ [{ clock := stepClock, dir := sdir != w.sc.invertSdir }]
          lastClock := stepClock }
  | .commit => (stepcompressCommit w.sc).map fun sc => { w with sc := sc }
  | .flush moveClock => (stepcompressFlush moveClock w.sc).map fun sc => { w with sc := sc }

/-- Steps are appended in order, at clocks of 64 bits, and none is rolled back. -/
def allowed (w : StepWorld) : StepOp → Prop
  | .append sdir stepClock =>
      w.lastClock < stepClock ∧ stepClock + clockDiffMax ≤ uint64Max ∧
        rollsBack sdir stepClock w.sc = false
  | _ => True

instance (w : StepWorld) : (op : StepOp) → Decidable (w.allowed op)
  | .append _ _ => inferInstanceAs (Decidable (_ ∧ _))
  | .commit | .flush _ => inferInstanceAs (Decidable True)

/-- The requests that are not emitted yet. -/
def pendingRequests (sc : StepCompress) : List Request :=
  if sc.nextStepClock = 0 then []
  else [{ clock := sc.nextStepClock, dir := sc.nextStepDir != sc.invertSdir }]

end StepWorld

/-- Runs of the calls. -/
def StepRun : StepWorld → List StepOp → StepWorld → Prop :=
  Run fun w op w' => w.allowed op ∧ w.next op = .ok w'

/-- A call that is allowed and returns. -/
def StepWorld.next? (w : StepWorld) (op : StepOp) : Option StepWorld :=
  if w.allowed op then (w.next op).toOption else none

theorem StepWorld.next?_eq_some {w w' : StepWorld} {op : StepOp} :
    w.next? op = some w' ↔ w.allowed op ∧ w.next op = .ok w' := by
  unfold StepWorld.next?
  split
  · rename_i hallowed
    rw [toOption_eq_some]
    exact ⟨fun h => ⟨hallowed, h⟩, And.right⟩
  · rename_i hnot
    simp [hnot]

theorem StepRun.of_any (w : StepWorld) (ops : List StepOp) (P : StepWorld → Bool)
    (h : (ops.foldlM StepWorld.next? w).any P = true) : ∃ w', StepRun w ops w' ∧ P w' = true := by
  obtain ⟨w', hrun, hP⟩ := Run.exists_of_any h
  simp only [StepWorld.next?_eq_some] at hrun
  exact ⟨w', hrun, hP⟩

/-- The invariant of runs: what was requested is emitted, queued or pending, in
this order, and the clocks increase. -/
structure Streaming (start maxError : Int) (w : StepWorld) (rs : List Request) (ts : List Int) :
    Prop where
  streamed : Streamed start w.sc rs ts
  maxError : w.sc.maxError = maxError
  requested : w.requested = rs ++ queuedRequests w.sc ts ++ StepWorld.pendingRequests w.sc
  start : 0 ≤ start ∧ start ≤ w.lastClock
  last : ∀ x ∈ w.sc.lastStepClock :: ts, x ≤ w.lastClock
  pending : w.sc.nextStepClock ≠ 0 → w.sc.nextStepClock = w.lastClock ∧
    w.lastClock + clockDiffMax ≤ uint64Max ∧ ∀ x ∈ w.sc.lastStepClock :: ts, x < w.lastClock

namespace Streaming

variable {start maxError : Int} {w : StepWorld} {rs : List Request} {ts : List Int}

theorem init {sc : StepCompress} (hstart : 0 ≤ start)
    (herr : 0 ≤ sc.maxError ∧ sc.maxError < 65536) :
    Streaming start sc.maxError (.init sc start) [] [] where
  streamed :=
    { queued := ⟨rfl, List.isChain_singleton _, by simp, herr⟩
      bounded := by simp
      room := Nat.zero_le _
      wake := rfl
      dir := by intro d hd; cases hd
      known := by simp
      faithful := ⟨start, .nil⟩ }
  maxError := rfl
  requested := rfl
  start := ⟨hstart, le_refl _⟩
  last := by simp [StepWorld.init]
  pending := by simp [StepWorld.init]

theorem append (h : Streaming start maxError w rs ts) (hpend : w.sc.nextStepClock ≠ 0) :
    (∃ sc' rs' ts', queueAppend w.sc = .ok sc' ∧
        Streaming start maxError { w with sc := sc' } rs' ts' ∧
        sc'.nextStepClock = 0 ∧ sc'.invertSdir = w.sc.invertSdir) ∨
      (queueAppend w.sc = .error .overrun ∧
        w.sc.lastStepClock + clockDiffMax ≤ w.sc.nextStepClock) := by
  obtain ⟨hclock, hbound, hafter⟩ := h.pending hpend
  rcases queueAppend_spec h.streamed hclock hafter hbound with ⟨sc', rs', ts', hok, ha⟩ | herr
  · refine .inl ⟨sc', rs', ts', hok, ⟨ha.streamed, ha.maxError.trans h.maxError, ?_, h.start, ha.le,
      ?_⟩, ha.nextStepClock, ha.invertSdir⟩
    · rw [h.requested, ha.requests, StepWorld.pendingRequests, if_neg hpend,
        StepWorld.pendingRequests, if_pos ha.nextStepClock, List.append_nil, hclock]
    · intro hne
      exact absurd ha.nextStepClock hne
  · rw [hclock]
    exact .inr herr

theorem queueFlush (moveClock : Int) (h : Streaming start maxError w rs ts) :
    ∃ sc' rs' ts', queueFlush moveClock w.sc = .ok sc' ∧
      Streaming start maxError { w with sc := sc' } rs' ts' ∧
      sc'.nextStepClock = w.sc.nextStepClock ∧
      (ts' = [] ∨ moveClock ≤ sc'.lastStepClock) := by
  obtain ⟨sc', rs', ts', hok, hf, -, hend⟩ := queueFlush_spec moveClock h.streamed
  refine ⟨sc', rs', ts', hok, ⟨hf.streamed, hf.maxError.trans h.maxError, ?_, h.start, ?_, ?_⟩,
    hf.nextStepClock, hend⟩
  · rw [h.requested, hf.requests, StepWorld.pendingRequests, StepWorld.pendingRequests,
      hf.nextStepClock, hf.nextStepDir, hf.invertSdir]
  · intro x hx
    have hlt := hf.lt (b := w.lastClock + 1) (fun y hy => by have := h.last y hy; omega) x hx
    simp only
    omega
  · intro hne
    rw [hf.nextStepClock] at hne ⊢
    obtain ⟨hclock, hbound, hafter⟩ := h.pending hne
    exact ⟨hclock, hbound, hf.lt hafter⟩

theorem pend {clock : Int} (dir : Bool) (h : Streaming start maxError w rs ts)
    (hnone : w.sc.nextStepClock = 0) (hafter : w.lastClock < clock)
    (hbound : clock + clockDiffMax ≤ uint64Max) :
    Streaming start maxError
      { sc := { w.sc with nextStepClock := clock, nextStepDir := dir }
        requested := w.requested ++ [{ clock := clock, dir := dir != w.sc.invertSdir }]
        lastClock := clock } rs ts where
  streamed := h.streamed.pending clock dir
  maxError := h.maxError
  requested := by
    have hstart := h.start
    rw [h.requested, StepWorld.pendingRequests, if_pos hnone, StepWorld.pendingRequests,
      if_neg (show clock ≠ 0 by omega), List.append_nil]
    rfl
  start := by
    have hstart := h.start
    exact ⟨hstart.1, by simp only; omega⟩
  last := fun x hx => le_of_lt (lt_of_le_of_lt (h.last x hx) hafter)
  pending := fun _ => ⟨rfl, hbound, fun x hx => lt_of_le_of_lt (h.last x hx) hafter⟩

theorem settle (h : Streaming start maxError w rs ts) :
    (∃ sc' rs' ts', (if w.sc.nextStepClock ≠ 0 then queueAppend w.sc else .ok w.sc) = .ok sc' ∧
        Streaming start maxError { w with sc := sc' } rs' ts' ∧
        sc'.nextStepClock = 0 ∧ sc'.invertSdir = w.sc.invertSdir) ∨
      ((if w.sc.nextStepClock ≠ 0 then queueAppend w.sc else .ok w.sc) = .error .overrun ∧
        w.sc.lastStepClock + clockDiffMax ≤ w.sc.nextStepClock) := by
  by_cases hpend : w.sc.nextStepClock ≠ 0
  · rw [if_pos hpend]
    exact h.append hpend
  · rw [if_neg hpend]
    exact .inl ⟨w.sc, rs, ts, rfl, h, not_not.mp hpend, rfl⟩

/-- A call keeps the invariant, except when the pending step is far and is written
behind the end of the queue. -/
theorem next {op : StepOp} (h : Streaming start maxError w rs ts) (hallowed : w.allowed op) :
    (∃ w' rs' ts', w.next op = .ok w' ∧ Streaming start maxError w' rs' ts') ∨
      (w.next op = .error .overrun ∧ w.sc.lastStepClock + clockDiffMax ≤ w.sc.nextStepClock) := by
  cases op with
  | append sdir stepClock =>
    obtain ⟨hafter, hbound, hkept⟩ := hallowed
    simp only [StepWorld.next, stepcompressAppend, hkept, Bool.false_eq_true, if_false]
    rcases h.settle with ⟨sc', rs', ts', heq, hs, hnone, hinvert⟩ | ⟨heq, hfar⟩
    · rw [heq, ← hinvert]
      exact .inl ⟨_, rs', ts', rfl, hs.pend sdir hnone hafter hbound⟩
    · rw [heq]
      exact .inr ⟨rfl, hfar⟩
  | commit =>
    simp only [StepWorld.next, stepcompressCommit]
    rcases h.settle with ⟨sc', rs', ts', heq, hs, -⟩ | ⟨heq, hfar⟩
    · rw [heq]
      exact .inl ⟨_, rs', ts', rfl, hs⟩
    · rw [heq]
      exact .inr ⟨rfl, hfar⟩
  | flush moveClock =>
    simp only [StepWorld.next, stepcompressFlush]
    by_cases hdue : w.sc.nextStepClock ≠ 0 ∧ moveClock ≥ w.sc.nextStepClock
    · rw [if_pos hdue]
      rcases h.append hdue.1 with ⟨sc1, rs1, ts1, heq, hs, -⟩ | ⟨heq, hfar⟩
      · obtain ⟨sc', rs', ts', hok, hs', -⟩ := hs.queueFlush moveClock
        simp only [heq, Except.bind, hok, Except.map]
        exact .inl ⟨_, rs', ts', rfl, hs'⟩
      · rw [heq]
        exact .inr ⟨rfl, hfar⟩
    · rw [if_neg hdue]
      obtain ⟨sc', rs', ts', hok, hs', -⟩ := h.queueFlush moveClock
      simp only [Except.bind, hok, Except.map]
      exact .inl ⟨_, rs', ts', rfl, hs'⟩

theorem of_run {sc : StepCompress} {ops : List StepOp} (hstart : 0 ≤ start)
    (herr : 0 ≤ sc.maxError ∧ sc.maxError < 65536) (hrun : StepRun (.init sc start) ops w) :
    ∃ rs ts, Streaming start sc.maxError w rs ts := by
  refine hrun.invariant (P := fun w => ∃ rs ts, Streaming start sc.maxError w rs ts)
    ⟨[], [], init hstart herr⟩ ?_
  rintro w op w' ⟨rs, ts, h⟩ ⟨hallowed, hnext⟩
  rcases h.next hallowed with ⟨w'', rs', ts', hok, h'⟩ | ⟨hover, -⟩
  · rw [hok, Except.ok.injEq] at hnext
    exact ⟨rs', ts', hnext ▸ h'⟩
  · rw [hover] at hnext
    cases hnext

/-- A flush up to `UINT64_MAX` leaves nothing behind. -/
theorem flush_all {w' : StepWorld} (h : Streaming start maxError w rs ts)
    (hok : w.next (.flush uint64Max) = .ok w') :
    ∃ t' p', Faithful maxError start start w'.requested (replay start w'.sc.msgQueue).steps t' p' ∧
      w'.requested = w.requested := by
  simp only [StepWorld.next, stepcompressFlush] at hok
  have hdue : (w.sc.nextStepClock ≠ 0 ∧ uint64Max ≥ w.sc.nextStepClock) ↔
      w.sc.nextStepClock ≠ 0 := by
    refine ⟨And.left, fun hne => ⟨hne, ?_⟩⟩
    obtain ⟨hclock, hbound, -⟩ := h.pending hne
    unfold clockDiffMax at hbound
    omega
  simp only [hdue] at hok
  rcases h.settle with ⟨sc1, rs1, ts1, heq, hs, hnone, -⟩ | ⟨heq, -⟩
  · obtain ⟨sc', rs', ts', hflush, hs', hnone', hend⟩ := hs.queueFlush uint64Max
    simp only [heq, Except.bind, hflush, Except.map, Except.ok.injEq] at hok
    subst hok
    have hnil : ts' = [] := hs'.streamed.eq_nil hend
    subst hnil
    have hreq := hs'.requested
    obtain ⟨t', hfaithful⟩ := hs'.streamed.faithful
    rw [StepWorld.pendingRequests, if_pos (hnone'.trans hnone), List.append_nil] at hreq
    simp only [queuedRequests, List.map_nil, List.append_nil] at hreq
    rw [hs'.maxError] at hfaithful
    refine ⟨t', sc'.lastStepClock, ?_, rfl⟩
    rw [hreq]
    exact hfaithful
  · rw [heq] at hok
    cases hok

end Streaming

/-- The step stream is preserved.  In every run no call fails, except that a pending
step far behind the last one may be written behind the end of the queue; the
steps of the messages are the steps appended, from the first one on; and a flush
of everything leaves no step out. -/
theorem stepStream_faithful {sc : StepCompress} {start : Int} {ops : List StepOp} {w : StepWorld}
    (hstart : 0 ≤ start) (herr : 0 ≤ sc.maxError ∧ sc.maxError < 65536)
    (hrun : StepRun (.init sc start) ops w) :
    (∀ op, w.allowed op → (∃ w', w.next op = .ok w') ∨
      (w.next op = .error .overrun ∧ w.sc.lastStepClock + clockDiffMax ≤ w.sc.nextStepClock)) ∧
    (∃ emitted waiting t p, w.requested = emitted ++ waiting ∧
      Faithful sc.maxError start start emitted (replay start w.sc.msgQueue).steps t p) ∧
    (∀ w', w.next (.flush uint64Max) = .ok w' → w'.requested = w.requested ∧
      ∃ t p, Faithful sc.maxError start start w.requested
        (replay start w'.sc.msgQueue).steps t p) := by
  obtain ⟨rs, ts, h⟩ := Streaming.of_run hstart herr hrun
  refine ⟨fun op hallowed => ?_, ?_, fun w' hok => ?_⟩
  · rcases h.next hallowed with ⟨w', -, -, hok, -⟩ | hover
    · exact .inl ⟨w', hok⟩
    · exact .inr hover
  · obtain ⟨t', hfaithful⟩ := h.streamed.faithful
    rw [h.maxError] at hfaithful
    exact ⟨rs, _, t', _, by rw [h.requested, List.append_assoc], hfaithful⟩
  · obtain ⟨t', p', hfaithful, hreq⟩ := h.flush_all hok
    rw [hreq] at hfaithful
    exact ⟨hreq, t', p', hfaithful⟩

/-- A run with a turn, a flush in the middle and a step that is still pending. -/
theorem stepStream_faithful_turning :
    ∃ w w', StepRun (.init (.alloc 25 240 0) 1000) [.append true 1500, .append true 1900,
        .append true 2250, .flush 2000, .append false 2600, .append false 3100] w ∧
      w.next (.flush uint64Max) = .ok w' ∧ w.requested.length = 5 ∧
      ∃ t p, Faithful 25 1000 1000 w.requested (replay 1000 w'.sc.msgQueue).steps t p := by
  obtain ⟨w, hrun, hw⟩ := StepRun.of_any (.init (.alloc 25 240 0) 1000)
    [.append true 1500, .append true 1900, .append true 2250, .flush 2000, .append false 2600,
      .append false 3100]
    (fun w => decide (w.requested.length = 5) && (w.next (.flush uint64Max)).isOk)
    (by decide +kernel)
  simp only [Bool.and_eq_true, decide_eq_true_eq] at hw
  obtain ⟨-, -, hall⟩ := stepStream_faithful (by decide) (by decide) hrun
  cases hflush : w.next (.flush uint64Max) with
  | error fault => simp [hflush, Except.isOk, Except.toBool] at hw
  | ok w' => exact ⟨w, w', hrun, hflush, hw.1, (hall w' hflush).2⟩

/-- The first step of a command may be earlier than half the gap to the request
before it: here 47 for 49, after a request for 46. -/
theorem stepStream_early :
    ∃ w, StepRun (.init (.alloc 2 0 0) 0) [.append true 37, .append true 46, .append true 49,
        .append true 62, .flush uint64Max] w ∧
      w.requested.map Request.clock = [37, 46, 49, 62] ∧
      (replay 0 w.sc.msgQueue).steps.map McuStep.clock = [35, 45, 47, 61] ∧
      (47 : Int) < 49 - min w.sc.maxError ((49 - 46) / 2) := by
  obtain ⟨w, hrun, hw⟩ := StepRun.of_any (.init (.alloc 2 0 0) 0)
    [.append true 37, .append true 46, .append true 49, .append true 62, .flush uint64Max]
    (fun w => decide (w.requested.map Request.clock = [37, 46, 49, 62] ∧
      (replay 0 w.sc.msgQueue).steps.map McuStep.clock = [35, 45, 47, 61] ∧
      (47 : Int) < 49 - min w.sc.maxError ((49 - 46) / 2)))
    (by decide +kernel)
  exact ⟨w, hrun, of_decide_eq_true hw⟩

end FlsunT1.Chelper
