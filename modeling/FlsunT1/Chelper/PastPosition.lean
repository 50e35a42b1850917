/-
  Chelper/PastPosition.lean --- the position of a stepper at a past clock.

  Source: klipper/klippy/chelper/stepcompress.c (stepcompress_set_last_position,
  stepcompress_find_past_position).  Doubles are real numbers; a conversion to an
  `int32_t` rounds towards 0.
-/
import FlsunT1.Chelper.StepPosition
import FlsunT1.Library.QuadraticRoot

set_option autoImplicit false

namespace FlsunT1.Chelper

open FlsunT1.Library

/-! ## The search -/

/-- The conversion of a double to an integer. -/
noncomputable def truncate (x : ℝ) : Int := if 0 ≤ x then ⌊x⌋ else ⌈x⌉

/-- How many steps of a move were made at a clock between its first and its last step. -/
noncomputable def pastOffset (clock : Int) (hs : HistorySteps) : Int :=
  let interval := i32 hs.interval
  let add := hs.add
  let ticks := i32 (i32 (clock - hs.firstClock) + interval)
  if add = 0 then ticks.tdiv interval
  else
    -- solve for "count" using the quadratic formula
    let a : ℝ := add / 2
    let b : ℝ := interval - add / 2
    let c : ℝ := -ticks
    truncate (quadraticRoot a b c)

/-- The loop of `stepcompress_find_past_position`. -/
noncomputable def findPastLoop (clock : Int) : Int → List HistorySteps → Int
  | lastPosition, [] => lastPosition
  | _, hs :: older =>
      if clock < hs.firstClock then findPastLoop clock hs.startPosition older
      else if clock ≥ hs.lastClock then hs.startPosition + hs.stepCount
      else if hs.stepCount < 0 then hs.startPosition - pastOffset clock hs
      else hs.startPosition + pastOffset clock hs

/-- `stepcompress_find_past_position` -/
noncomputable def stepcompressFindPastPosition (clock : Int) (sc : StepCompress) : Int :=
  findPastLoop clock sc.lastPosition sc.historyList

/-! ## The position by the steps -/

/-- The clock of the step number `k` of a move; the first step is number 1. -/
def HistorySteps.stepClock (hs : HistorySteps) (k : Nat) : Int :=
  hs.firstClock + (quad hs.interval hs.add k - hs.interval)

/-- How many steps of a move have a clock that is not after the given one. -/
def HistorySteps.taken (clock : Int) (hs : HistorySteps) : Nat :=
  (List.range hs.stepCount.natAbs).countP fun k => decide (hs.stepClock (k + 1) ≤ clock)

/-- How far these steps go. -/
def HistorySteps.moved (clock : Int) (hs : HistorySteps) : Int :=
  if hs.stepCount < 0 then -hs.taken clock else hs.taken clock

/-- The position at the clock after everything that was recorded, the latest entry first, on an
object that was at `base`: the steps up to the clock, counted from the latest marker that has been
reached.  A marker is reached at its clock, and with a step that was queued after it. -/
def positionAt (clock base : Int) : Bool → Int → List HistorySteps → Int
  | _, steps, [] => base + steps
  | begun, steps, hs :: older =>
      if hs.stepCount = 0 then
        if hs.firstClock ≤ clock ∨ begun = true then hs.startPosition + steps
        else positionAt clock base begun steps older
      else
        positionAt clock base (begun || decide (hs.taken clock ≠ 0)) (steps + hs.moved clock) older

/-! ## One move -/

namespace MoveEntry

variable {lsc clock : Int} {hs : HistorySteps}

theorem stepClock_one (hs : HistorySteps) : hs.stepClock 1 = hs.firstClock := by
  unfold HistorySteps.stepClock
  rw [Nat.cast_one, quad_one, sub_self, add_zero]

theorem stepClock_last (h : MoveEntry lsc hs) :
    hs.stepClock hs.stepCount.natAbs = hs.lastClock := by
  unfold HistorySteps.stepClock
  exact h.lastClock.symm

theorem stepClock_mono (h : MoveEntry lsc hs) {i j : Nat} (hij : i ≤ j)
    (hj : j ≤ hs.stepCount.natAbs) : hs.stepClock i ≤ hs.stepClock j := by
  have hmono := quad_mono h.interval hij hj
  unfold HistorySteps.stepClock
  omega

/-- The steps that are taken are the first ones. -/
theorem taken_eq (h : MoveEntry lsc hs) {m : Nat} (hm : m ≤ hs.stepCount.natAbs)
    (hlow : 1 ≤ m → hs.stepClock m ≤ clock)
    (hhigh : m < hs.stepCount.natAbs → clock < hs.stepClock (m + 1)) : hs.taken clock = m := by
  obtain ⟨n, hn⟩ : ∃ n, hs.stepCount.natAbs = m + n := ⟨_, (Nat.add_sub_cancel' hm).symm⟩
  unfold HistorySteps.taken
  rw [hn, List.range_add, List.countP_append]
  have hfirst : (List.range m).countP (fun k => decide (hs.stepClock (k + 1) ≤ clock)) = m := by
    conv_rhs => rw [← List.length_range (n := m)]
    rw [List.countP_eq_length]
    intro k hk
    rw [List.mem_range] at hk
    rw [decide_eq_true_eq]
    exact (h.stepClock_mono (show k + 1 ≤ m by omega) hm).trans (hlow (by omega))
  have hrest : ((List.range n).map (m + ·)).countP
      (fun k => decide (hs.stepClock (k + 1) ≤ clock)) = 0 := by
    rw [List.countP_eq_zero]
    intro k hk
    obtain ⟨j, hj, rfl⟩ := List.mem_map.mp hk
    rw [List.mem_range] at hj
    rw [decide_eq_true_eq, not_le]
    exact (hhigh (by omega)).trans_le (h.stepClock_mono (by omega) (by omega))
  rw [hfirst, hrest, add_zero]

theorem taken_all (h : MoveEntry lsc hs) (hclock : hs.lastClock ≤ clock) :
    hs.taken clock = hs.stepCount.natAbs := by
  refine h.taken_eq le_rfl (fun _ => ?_) fun hlt => absurd hlt (lt_irrefl _)
  rw [h.stepClock_last]
  exact hclock

theorem taken_none (h : MoveEntry lsc hs) (hclock : clock < hs.firstClock) :
    hs.taken clock = 0 := by
  refine h.taken_eq (Nat.zero_le _) (fun hle => absurd hle (by omega)) fun _ => ?_
  rw [zero_add, stepClock_one]
  exact hclock

/-- Between the first and the last step there is a last step that is taken. -/
theorem exists_last (h : MoveEntry lsc hs) (hfirst : hs.firstClock ≤ clock)
    (hlast : clock < hs.lastClock) :
    ∃ m, 1 ≤ m ∧ m < hs.stepCount.natAbs ∧ hs.stepClock m ≤ clock ∧
      clock < hs.stepClock (m + 1) := by
  have hfind : ∀ n, 1 ≤ n → clock < hs.stepClock n →
      ∃ m, 1 ≤ m ∧ m < n ∧ hs.stepClock m ≤ clock ∧ clock < hs.stepClock (m + 1) := by
    intro n
    induction n with
    | zero => intro hn _; omega
    | succ n ih =>
      intro _ hn
      rcases Nat.eq_zero_or_pos n with rfl | hpos
      · rw [zero_add, stepClock_one] at hn
        omega
      rcases lt_or_ge clock (hs.stepClock n) with hlt | hge
      · obtain ⟨m, h1, h2, h3, h4⟩ := ih hpos hlt
        exact ⟨m, h1, by omega, h3, h4⟩
      · exact ⟨n, hpos, by omega, hge, hn⟩
  refine hfind _ h.count ?_
  rw [h.stepClock_last]
  exact hlast

theorem taken_pos (h : MoveEntry lsc hs) (hfirst : hs.firstClock ≤ clock) :
    hs.taken clock ≠ 0 := by
  rcases le_or_gt hs.lastClock clock with hlast | hlast
  · rw [h.taken_all hlast]
    have hcount := h.count
    omega
  · obtain ⟨m, hm1, hmn, hlow, hhigh⟩ := h.exists_last hfirst hlast
    rw [h.taken_eq hmn.le (fun _ => hlow) fun _ => hhigh]
    omega

/-- The offset in a move is exact, whichever way it accelerates. -/
theorem pastOffset_eq (h : MoveEntry lsc hs) (hfirst : hs.firstClock ≤ clock)
    (hlast : clock < hs.lastClock) : pastOffset clock hs = hs.taken clock := by
  obtain ⟨m, hm1, hmn, hlow, hhigh⟩ := h.exists_last hfirst hlast
  rw [h.taken_eq hmn.le (fun _ => hlow) fun _ => hhigh]
  have htotal : quad hs.interval hs.add hs.stepCount.natAbs < clockDiffMax := by
    rcases h.small with hone | hsmall
    · omega
    · exact hsmall
  have hclock := h.lastClock
  have hinterval := h.interval 0 (by omega)
  rw [Nat.cast_zero, mul_zero, add_zero] at hinterval
  have hgrow := quad_mono h.interval h.count le_rfl
  rw [Nat.cast_one, quad_one] at hgrow
  unfold clockDiffMax at htotal
  have hint : i32 hs.interval = hs.interval := i32_of_range (by omega) (by omega)
  have hticks : i32 (i32 (clock - hs.firstClock) + hs.interval) =
      clock - hs.firstClock + hs.interval := by
    rw [i32_of_range (x := clock - hs.firstClock) (by omega) (by omega)]
    exact i32_of_range (by omega) (by omega)
  unfold HistorySteps.stepClock at hlow hhigh
  rw [Nat.cast_succ] at hhigh
  have hlow' : quad hs.interval hs.add m ≤ clock - hs.firstClock + hs.interval := by omega
  have hhigh' : clock - hs.firstClock + hs.interval < quad hs.interval hs.add (m + 1) := by omega
  have hticks0 : 0 ≤ clock - hs.firstClock + hs.interval := by omega
  unfold pastOffset
  dsimp only
  rw [hint, hticks]
  generalize clock - hs.firstClock + hs.interval = ticks at *
  split
  · rename_i hadd
    have hlinear : ∀ k : Int, quad hs.interval hs.add k = hs.interval * k := by
      intro k
      unfold quad
      rw [hadd, zero_mul, zero_add]
    rw [hlinear] at hlow' hhigh'
    have hpos : 0 < hs.interval := by
      rcases hinterval.eq_or_lt with hzero | hpos
      · rw [← hzero, zero_mul] at hhigh'
        omega
      · exact hpos
    rw [Int.tdiv_eq_ediv_of_nonneg hticks0]
    apply le_antisymm
    · apply Int.le_of_lt_add_one
      rw [Int.ediv_lt_iff_lt_mul hpos, mul_comm]
      exact hhigh'
    · rw [Int.le_ediv_iff_mul_le hpos, mul_comm]
      exact hlow'
  · rename_i hadd
    obtain ⟨hge, hlt⟩ := quadraticRoot_bounds hadd (h.interval m hmn) hlow' hhigh'
    have hroot : (0 : ℝ) ≤ quadraticRoot (hs.add / 2) (hs.interval - hs.add / 2) (-ticks) :=
      le_trans (Nat.cast_nonneg m) hge
    unfold truncate
    rw [if_pos hroot, Int.floor_eq_iff]
    exact ⟨hge, hlt⟩

end MoveEntry

/-! ## The whole history -/

/-- A history that nothing was freed from, of an object that was at `base`: moves follow each other
in place and time, and a marker starts from a new position. -/
inductive Traced (base : Int) : Int → Int → List HistorySteps → Prop
  | start {lsc : Int} : Traced base base lsc []
  | move {position lsc : Int} {hs : HistorySteps} {older : List HistorySteps}
      (hmove : MoveEntry lsc hs) (hstart : hs.startPosition = position)
      (holder : Traced base position lsc older) :
      Traced base (position + hs.stepCount) hs.lastClock (hs :: older)
  | marker {position lsc : Int} {older : List HistorySteps} (clock start : Int)
      (holder : Traced base position lsc older) :
      Traced base start lsc (markerEntry clock start :: older)

theorem HistorySteps.moved_all {lsc clock : Int} {hs : HistorySteps} (h : MoveEntry lsc hs)
    (hclock : hs.lastClock ≤ clock) : hs.moved clock = hs.stepCount := by
  unfold HistorySteps.moved
  rw [h.taken_all hclock]
  split <;> omega

namespace Traced

variable {base position lsc clock : Int} {entries : List HistorySteps}

theorem of_steps {h h' : StepHistory} {added : List HistorySteps} (hsteps : h.Steps h' added) :
    Traced h.lastPosition h'.lastPosition h'.lastStepClock added := by
  induction hsteps with
  | refl => exact .start
  | move _ hmove hstart ih => exact .move hmove hstart ih
  | expire _ _ ih => exact ih
  | marker clock position _ ih => exact .marker clock position ih

/-- What is older than a step that has been made lies in the past as a whole. -/
theorem positionAt_begun (h : Traced base position lsc entries) (hclock : lsc ≤ clock) :
    ∀ steps, positionAt clock base true steps entries = position + steps := by
  induction h with
  | start =>
    intro steps
    rfl
  | @move position lsc hs older hmove hstart holder ih =>
    intro steps
    have hne : hs.stepCount ≠ 0 := by
      have hcount := hmove.count
      omega
    have hlast : hs.firstClock ≤ hs.lastClock := by
      rw [← hmove.stepClock_last, ← MoveEntry.stepClock_one hs]
      exact hmove.stepClock_mono hmove.count le_rfl
    unfold positionAt
    rw [if_neg hne, Bool.true_or, ih (hmove.after.trans (hlast.trans hclock)),
      HistorySteps.moved_all hmove hclock]
    ring
  | @marker position lsc older time start holder ih =>
    intro steps
    unfold positionAt
    rw [if_pos (show (markerEntry time start).stepCount = 0 from rfl), if_pos (Or.inr rfl)]
    rfl

/-- The search finds the position, when the clock is not before everything recorded. -/
theorem findPastLoop_eq (h : Traced base position lsc entries)
    (hreached : ∃ hs ∈ entries, hs.firstClock ≤ clock) :
    ∀ last, findPastLoop clock last entries = positionAt clock base false 0 entries := by
  induction h with
  | start =>
    obtain ⟨hs, hmem, -⟩ := hreached
    cases hmem
  | @move position lsc hs older hmove hstart holder ih =>
    intro last
    have hne : hs.stepCount ≠ 0 := by
      have hcount := hmove.count
      omega
    unfold findPastLoop positionAt
    rw [if_neg hne, zero_add, Bool.false_or]
    split
    · rename_i hbefore
      have hnone := hmove.taken_none hbefore
      have hstill : hs.moved clock = 0 := by
        unfold HistorySteps.moved
        rw [hnone]
        split <;> rfl
      have holder' : ∃ hs ∈ older, hs.firstClock ≤ clock := by
        obtain ⟨x, hmem, hx⟩ := hreached
        rcases List.mem_cons.mp hmem with rfl | hmem
        · omega
        · exact ⟨x, hmem, hx⟩
      rw [ih holder', hnone, hstill]
      rfl
    · rename_i hfirst
      rw [not_lt] at hfirst
      rw [decide_eq_true (hmove.taken_pos hfirst),
        holder.positionAt_begun (hmove.after.trans hfirst), hstart]
      unfold HistorySteps.moved
      split
      · rename_i hlast
        rw [hmove.taken_all hlast]
        split <;> omega
      · rename_i hlast
        rw [hmove.pastOffset_eq hfirst (not_le.mp hlast)]
        split
        · ring
        · rfl
  | @marker position lsc older time start holder ih =>
    intro last
    unfold findPastLoop positionAt
    rw [if_pos (show (markerEntry time start).stepCount = 0 from rfl)]
    show (if clock < time then _ else if clock ≥ time then start + 0 else _) =
      if time ≤ clock ∨ false = true then start + 0 else _
    split
    · rename_i hbefore
      have holder' : ∃ hs ∈ older, hs.firstClock ≤ clock := by
        obtain ⟨x, hmem, hx⟩ := hreached
        rcases List.mem_cons.mp hmem with rfl | hmem
        · exact absurd (show time ≤ clock from hx) (not_le.mpr hbefore)
        · exact ⟨x, hmem, hx⟩
      have hnot : ¬(time ≤ clock ∨ false = true) := by
        rintro (htime | hfalse)
        · exact not_le.mpr hbefore htime
        · exact Bool.false_ne_true hfalse
      rw [if_neg hnot, ih holder']
    · rename_i hafter
      rw [not_lt] at hafter
      rw [if_pos hafter, if_pos (Or.inl hafter)]

end Traced

/-! ## What is freed -/

theorem freeHistory_latest (endClock : Int) (entries : List HistorySteps) :
    freeHistory endClock entries <+: entries := by
  have hsuffix := List.dropWhile_suffix (l := entries.reverse)
    fun hs => decide (hs.lastClock ≤ endClock)
  rw [← List.reverse_prefix, List.reverse_reverse] at hsuffix
  exact hsuffix

theorem StepHistory.Steps.latest {h h' : StepHistory} {added : List HistorySteps}
    (hsteps : h.Steps h' added) : h'.entries <+: added ++ h.entries := by
  induction hsteps with
  | refl => exact List.prefix_rfl
  | move _ _ _ ih => exact List.cons_prefix_cons.mpr ⟨rfl, ih⟩
  | expire endClock _ ih => exact (freeHistory_latest endClock _).trans ih
  | marker _ _ _ ih => exact List.cons_prefix_cons.mpr ⟨rfl, ih⟩

theorem findPastLoop_append {clock : Int} (older : List HistorySteps) :
    ∀ {entries : List HistorySteps} {last : Int}, (∃ hs ∈ entries, hs.firstClock ≤ clock) →
      findPastLoop clock last (entries ++ older) = findPastLoop clock last entries := by
  intro entries
  induction entries with
  | nil =>
    rintro last ⟨hs, hmem, -⟩
    cases hmem
  | cons hs entries ih =>
    intro last hreached
    rw [List.cons_append]
    unfold findPastLoop
    split
    · rename_i hbefore
      refine ih ?_
      obtain ⟨x, hmem, hx⟩ := hreached
      rcases List.mem_cons.mp hmem with rfl | hmem
      · omega
      · exact ⟨x, hmem, hx⟩
    · rfl

/-! ## Runs -/

/-- The calls that make a history. -/
inductive PastOp
  | call (op : StepOp)
  | setLastPosition (clock lastPosition : Int)
  deriving DecidableEq, Repr

/-- An object and the clock of the last append. -/
structure PastWorld where
  sc : StepCompress
  lastClock : Int
  deriving DecidableEq, Repr

namespace PastWorld

def init (sc : StepCompress) : PastWorld where
  sc := sc
  lastClock := sc.lastStepClock

/-- One call. -/
def next (w : PastWorld) : PastOp → Except StepFault PastWorld
  | .call (.append sdir stepClock) =>
      (stepcompressAppend sdir stepClock w.sc).map fun sc => { sc := sc, lastClock := stepClock }
  | .call .commit => (stepcompressCommit w.sc).map fun sc => { w with sc := sc }
  | .call (.flush moveClock) =>
      (stepcompressFlush moveClock w.sc).map fun sc => { w with sc := sc }
  | .setLastPosition clock lastPosition =>
      (stepcompressSetLastPosition clock lastPosition w.sc).map fun sc => { w with sc := sc }

/-- The clocks of steps do not decrease, are not 0 and have 64 bits. -/
def allowed (w : PastWorld) : PastOp → Prop
  | .call (.append _ stepClock) =>
      w.lastClock ≤ stepClock ∧ stepClock ≠ 0 ∧ stepClock + clockDiffMax ≤ uint64Max
  | _ => True

instance (w : PastWorld) : (op : PastOp) → Decidable (w.allowed op)
  | .call (.append _ _) => inferInstanceAs (Decidable (_ ∧ _))
  | .call .commit | .call (.flush _) | .setLastPosition _ _ => inferInstanceAs (Decidable True)

end PastWorld

/-- Runs of calls that return 0. -/
def PastRun : PastWorld → List PastOp → PastWorld → Prop :=
  Run fun w op w' => w.allowed op ∧ w.next op = .ok w'

/-- What a call sets, by its clock and its position. -/
def PastOp.marker? : PastOp → Option (Int × Int)
  | .setLastPosition clock lastPosition => some (clock, lastPosition)
  | .call _ => none

/-- The moves of a log, in order. -/
def logMoves (log : List HistorySteps) : List StepMove :=
  (log.reverse.filter fun hs => hs.stepCount != 0).map HistorySteps.toMove

/-- The markers of a log, in order. -/
def logMarkers (log : List HistorySteps) : List (Int × Int) :=
  (log.reverse.filter fun hs => hs.stepCount == 0).map fun hs => (hs.firstClock, hs.startPosition)

/-- The log is what the object has recorded since `start`: the moves of its messages, and what
`set_last_position` has set. -/
structure Logged (start sc : StepCompress) (markers : List (Int × Int)) (log : List HistorySteps) :
    Prop where
  steps : start.history.Steps sc.history log
  moves : ∃ messages, sc.msgQueue = start.msgQueue ++ messages ∧
    messageMoves messages = logMoves log
  markers : logMarkers log = markers

theorem Logged.emits {start sc sc' : StepCompress} {markers : List (Int × Int)}
    {log : List HistorySteps} {dirs : List Bool} (h : Logged start sc markers log)
    (hemits : Emits sc sc' dirs) : ∃ log', Logged start sc' markers log' := by
  obtain ⟨messages, hq, hmoves⟩ := h.moves
  obtain ⟨messages', hq', -, -, added, hsteps, hcount, hadded⟩ := hemits.messages
  refine ⟨added ++ log, h.steps.trans hsteps, ⟨messages ++ messages', ?_, ?_⟩, ?_⟩
  · rw [hq', hq, List.append_assoc]
  · have hall : added.reverse.filter (fun hs => hs.stepCount != 0) = added.reverse := by
      rw [List.filter_eq_self]
      intro hs hmem
      rw [bne_iff_ne]
      exact hcount hs (List.mem_reverse.mp hmem)
    unfold logMoves
    rw [List.reverse_append, List.filter_append, hall, List.map_append, ← hadded]
    show messageMoves (messages ++ messages') = logMoves log ++ _
    rw [← hmoves]
    exact List.filterMap_append
  · have hnone : added.reverse.filter (fun hs => hs.stepCount == 0) = [] := by
      rw [List.filter_eq_nil_iff]
      intro hs hmem
      rw [beq_iff_eq]
      exact hcount hs (List.mem_reverse.mp hmem)
    unfold logMarkers
    rw [List.reverse_append, List.filter_append, hnone, List.append_nil]
    exact h.markers

theorem Logged.marker {start sc : StepCompress} {markers : List (Int × Int)}
    {log : List HistorySteps} (h : Logged start sc markers log) (clock position : Int) :
    Logged start
      { sc with
        lastPosition := position
        historyList := markerEntry clock position :: sc.historyList }
      (markers ++ [(clock, position)]) (markerEntry clock position :: log) := by
  obtain ⟨messages, hq, hmoves⟩ := h.moves
  refine ⟨.marker clock position h.steps, ⟨messages, hq, ?_⟩, ?_⟩
  · rw [hmoves]
    unfold logMoves
    rw [List.reverse_cons, List.filter_append]
    exact congrArg _ (List.append_nil _).symm
  · rw [← h.markers]
    unfold logMarkers
    rw [List.reverse_cons, List.filter_append, List.map_append]
    rfl

/-- The invariant of runs. -/
structure Recorded (start : StepCompress) (w : PastWorld) (markers : List (Int × Int)) : Prop where
  paced : Paced w.lastClock w.sc
  logged : ∃ log, Logged start w.sc markers log

namespace Recorded

variable {start : StepCompress} {w w' : PastWorld} {markers : List (Int × Int)}

theorem settles {sc' : StepCompress} (h : Recorded start w markers)
    (hsettles : Settles w.lastClock w.sc sc') :
    Recorded start { w with sc := sc' } markers := by
  obtain ⟨log, hlog⟩ := h.logged
  obtain ⟨dirs, hemits, -⟩ := hsettles.emits
  exact ⟨hsettles.paced, hlog.emits hemits⟩

/-- One call. -/
theorem next {op : PastOp} (h : Recorded start w markers) (hallowed : w.allowed op)
    (hok : w.next op = .ok w') : Recorded start w' (markers ++ op.marker?.toList) := by
  rcases op with ((⟨sdir, stepClock⟩ | _ | moveClock) | ⟨clock, lastPosition⟩)
  · obtain ⟨hlater, -, hclock⟩ := hallowed
    change (stepcompressAppend sdir stepClock w.sc).map _ = _ at hok
    cases hcall : stepcompressAppend sdir stepClock w.sc with
    | error fault =>
      rw [hcall] at hok
      cases hok
    | ok sc' =>
      rw [hcall] at hok
      cases hok
      show Recorded start _ (markers ++ [])
      rw [List.append_nil]
      obtain ⟨hpaced, ⟨-, rfl⟩ | ⟨-, sc1, hsettles, -, rfl⟩⟩ := h.paced.append hlater hclock hcall
      · obtain ⟨log, hlog⟩ := h.logged
        exact ⟨hpaced, log, hlog.steps, hlog.moves, hlog.markers⟩
      · obtain ⟨log, hlog⟩ := (h.settles hsettles).logged
        exact ⟨hpaced, log, hlog.steps, hlog.moves, hlog.markers⟩
  · change (stepcompressCommit w.sc).map _ = _ at hok
    cases hcall : stepcompressCommit w.sc with
    | error fault =>
      rw [hcall] at hok
      cases hok
    | ok sc' =>
      rw [hcall] at hok
      cases hok
      show Recorded start _ (markers ++ [])
      rw [List.append_nil]
      exact h.settles (h.paced.commit hcall).1
  · change (stepcompressFlush moveClock w.sc).map _ = _ at hok
    cases hcall : stepcompressFlush moveClock w.sc with
    | error fault =>
      rw [hcall] at hok
      cases hok
    | ok sc' =>
      rw [hcall] at hok
      cases hok
      show Recorded start _ (markers ++ [])
      rw [List.append_nil]
      exact h.settles (h.paced.flush hcall)
  · change (stepcompressSetLastPosition clock lastPosition w.sc).map _ = _ at hok
    unfold stepcompressSetLastPosition at hok
    cases hcall : stepcompressFlush uint64Max w.sc with
    | error fault =>
      rw [hcall] at hok
      cases hok
    | ok sc' =>
      rw [hcall] at hok
      cases hok
      have hflushed := h.settles (h.paced.flush hcall)
      obtain ⟨log, hlog⟩ := hflushed.logged
      obtain ⟨⟨ts, hnear⟩, hclock, hpending⟩ := hflushed.paced
      exact ⟨⟨⟨ts, hnear.queue, hnear.sorted, hnear.near, hnear.bounded, hnear.known⟩, hclock,
        hpending⟩, _, hlog.marker clock lastPosition⟩

theorem of_run {ops : List PastOp} (h : Recorded start w markers) (hrun : PastRun w ops w') :
    Recorded start w' (markers ++ ops.filterMap PastOp.marker?) := by
  induction hrun with
  | nil =>
    rw [List.filterMap_nil, List.append_nil]
    exact h
  | @snoc t u es op _ hstep ih =>
    have hone : [op].filterMap PastOp.marker? = op.marker?.toList := by
      cases op <;> rfl
    rw [List.filterMap_append, hone, ← List.append_assoc]
    exact ih.next hstep.1 hstep.2

end Recorded

/-- A past position is the one after exactly the steps up to the clock.  After every run there is a
log of all moves in the messages and of all positions that were set, and for every clock that is
not before the entries which are retained the search returns the position by the steps of the whole
log. -/
theorem findPastPosition_eq {sc : StepCompress} {ops : List PastOp} {w : PastWorld}
    (hqueue : sc.queue = []) (hnone : sc.nextStepClock = 0)
    (hclock : sc.lastStepClock + clockDiffMax ≤ uint64Max) (hhistory : sc.historyList = [])
    (hrun : PastRun (.init sc) ops w) :
    ∃ log messages, w.sc.msgQueue = sc.msgQueue ++ messages ∧
      messageMoves messages = logMoves log ∧
      logMarkers log = ops.filterMap PastOp.marker? ∧
      w.sc.historyList <+: log ∧
      ∀ clock, (∃ hs ∈ w.sc.historyList, hs.firstClock ≤ clock) →
        stepcompressFindPastPosition clock w.sc = positionAt clock sc.lastPosition false 0 log := by
  have hstart : Recorded sc (.init sc) [] :=
    ⟨(Paced.start hqueue hnone hclock).1, [], .refl, ⟨[], (List.append_nil _).symm, rfl⟩, rfl⟩
  obtain ⟨log, hsteps, ⟨messages, hq, hmoves⟩, hmarkers⟩ := (hstart.of_run hrun).logged
  have hlatest : w.sc.historyList <+: log ++ sc.historyList := hsteps.latest
  rw [hhistory, List.append_nil] at hlatest
  refine ⟨log, messages, hq, hmoves, hmarkers, hlatest, ?_⟩
  rintro clock ⟨hs, hmem, hreached⟩
  obtain ⟨older, hlog⟩ := hlatest
  have htraced : Traced sc.lastPosition w.sc.lastPosition w.sc.lastStepClock log :=
    .of_steps hsteps
  have hmem' : hs ∈ log := by
    rw [← hlog]
    exact List.mem_append_left _ hmem
  rw [← htraced.findPastLoop_eq ⟨hs, hmem', hreached⟩ w.sc.lastPosition, ← hlog,
    findPastLoop_append older ⟨hs, hmem, hreached⟩]
  rfl

/-- The position at the clock 3000, between the steps of a move, after the position has been set at
a later clock and the stepper has moved on. -/
theorem findPastPosition_eq_between :
    ∃ w log, PastRun (.init (.alloc 25 240 100000))
        [.call (.append true 1500), .call (.append true 2900), .call (.append true 4200),
          .setLastPosition 5000 10, .call (.append false 6000), .call .commit,
          .call (.flush 7000)] w ∧
      w.sc.historyList.map HistorySteps.stepCount = [-1, 0, 3] ∧
      logMarkers log = [(5000, 10)] ∧
      stepcompressFindPastPosition 3000 w.sc = positionAt 3000 0 false 0 log := by
  obtain ⟨w, hrun, hw⟩ := Run.exists_of_calls (f := PastWorld.next) (C := PastWorld.allowed)
    (P := fun w => decide (w.sc.historyList.map HistorySteps.stepCount = [-1, 0, 3] ∧
      ∃ hs ∈ w.sc.historyList, hs.firstClock ≤ 3000))
    (s := .init (.alloc 25 240 100000))
    (l := [.call (.append true 1500), .call (.append true 2900), .call (.append true 4200),
      .setLastPosition 5000 10, .call (.append false 6000), .call .commit, .call (.flush 7000)])
    (by decide +kernel)
  obtain ⟨hcounts, hreached⟩ := of_decide_eq_true hw
  obtain ⟨log, -, -, -, hmarkers, -, hfind⟩ := findPastPosition_eq rfl rfl (by decide) rfl hrun
  exact ⟨w, log, hrun, hcounts, hmarkers, hfind 3000 hreached⟩

end FlsunT1.Chelper
