/-
  Chelper/StepPosition.lean --- the position that a stepcompress object keeps.

  Steps may be appended at equal clocks here, so nothing is known of the moves that the search
  finds but what `check_line` has tested: they take as many steps off the queue as they have,
  and end at a clock that is not behind the last of these.
-/
import FlsunT1.Chelper.StepStream

set_option autoImplicit false

namespace FlsunT1.Chelper

open FlsunT1.Library

/-! ## What the search returns -/

theorem idivDown_ge {n d : Int} (hd : 0 < d) (hn : -0x80000000 ≤ n) :
    -0x80000000 ≤ idivDown n d := by
  have htdiv : ∀ m : Int, -0x80000000 ≤ m → -0x80000000 ≤ m.tdiv d := by
    intro m hm
    rcases le_or_gt 0 m with h0 | h0
    · have := Int.tdiv_nonneg h0 hd.le
      omega
    · have hneg : m.tdiv d = -((-m).tdiv d) := by rw [Int.neg_tdiv, neg_neg]
      have hle := Int.tdiv_le_self d (show 0 ≤ -m by omega)
      omega
  unfold idivDown
  split
  · exact htdiv n hn
  · refine htdiv _ ?_
    unfold i32
    omega

/-- The fields of a move as `struct step_move` has them: not more steps than `n`, and an interval
and an add of 32 bits. -/
structure MoveRange (n : Nat) (move : StepMove) : Prop where
  count : 0 ≤ move.count ∧ move.count ≤ n
  interval : -0x80000000 ≤ move.interval
  add : -0x80000000 ≤ move.add ∧ move.add ≤ 0x7fffffff

/-- Where the inner loop stops. -/
def SequenceRange (n : Nat) (add : Int) : StepMove ⊕ Sequence → Prop
  | .inl move => move.count = n ∧ -0x80000000 ≤ move.interval ∧ move.add = add
  | .inr q => 1 < q.nextcount ∧ q.nextcount ≤ n ∧ -0x80000000 ≤ q.interval ∧
      -0x80000000 ≤ q.nextmaxinterval

theorem findSequence_cons {add count mininterval maxinterval interval : Int} {point : Points}
    {rest : List Points} (hcount : 1 ≤ count) (hmax : -0x80000000 ≤ maxinterval) :
    ∃ nextmin nextmax, -0x80000000 ≤ nextmax ∧
      findSequence add (point :: rest) count mininterval maxinterval interval =
        if nextmin > nextmax then .inr ⟨count + 1, nextmin, nextmax, interval, point⟩
        else findSequence add rest (count + 1) nextmin nextmax nextmax := by
  refine ⟨_, _, ?_, rfl⟩
  split
  · refine idivDown_ge (by omega) ?_
    unfold i32
    omega
  · exact hmax

theorem findSequence_range {add : Int} {n : Nat} :
    ∀ {rest : List Points} {count mininterval maxinterval interval : Int}, 1 ≤ count →
      count + rest.length = n → -0x80000000 ≤ maxinterval → -0x80000000 ≤ interval →
      SequenceRange n add (findSequence add rest count mininterval maxinterval interval) := by
  intro rest
  induction rest with
  | nil =>
    intro count mininterval maxinterval interval hcount hn hmax hint
    rw [List.length_nil] at hn
    exact ⟨by simpa using hn, hint, rfl⟩
  | cons point rest ih =>
    intro count mininterval maxinterval interval hcount hn hmax hint
    rw [List.length_cons] at hn
    push_cast at hn
    obtain ⟨nextmin, nextmax, hnext, heq⟩ :=
      @findSequence_cons add count mininterval maxinterval interval point rest hcount hmax
    rw [heq]
    split
    · exact ⟨by dsimp only; omega, by dsimp only; omega, hint, hnext⟩
    · exact ih (by omega) (by omega) hnext hnext

/-- The variables of the outer loop. -/
structure BisectRange (n : Nat) (b : Bisect) : Prop where
  outer : -0x80000000 ≤ b.outerMaxinterval
  add : -0x80000000 ≤ b.add ∧ b.add ≤ 0x7fffffff
  best : -0x80000000 ≤ b.bestinterval ∧ (0 ≤ b.bestcount ∧ b.bestcount ≤ n) ∧
    -0x80000000 ≤ b.bestadd ∧ b.bestadd ≤ 0x7fffffff
  zero : -0x80000000 ≤ b.zerointerval ∧ 0 ≤ b.zerocount ∧ b.zerocount ≤ n

theorem BisectRange.choose {n : Nat} {b : Bisect} (h : BisectRange n b) : MoveRange n b.choose := by
  unfold Bisect.choose
  split
  · exact ⟨h.zero.2, h.zero.1, by dsimp only; omega⟩
  · exact ⟨h.best.2.1, h.best.1, h.best.2.2⟩

theorem BisectRange.keepBest {n : Nat} {b : Bisect} {q : Sequence} (h : BisectRange n b)
    (hq : SequenceRange n b.add (.inr q)) : BisectRange n (b.keepBest q) := by
  obtain ⟨hlow, hhigh, hint, -⟩ := hq
  refine ⟨h.outer, h.add, ⟨hint, ⟨?_, ?_⟩, h.add⟩, ?_, ?_, ?_⟩
  · dsimp only [Bisect.keepBest]
    omega
  · dsimp only [Bisect.keepBest]
    omega
  · dsimp only [Bisect.keepBest]
    split
    · exact hint
    · exact h.zero.1
  · dsimp only [Bisect.keepBest]
    split
    · omega
    · exact h.zero.2.1
  · dsimp only [Bisect.keepBest]
    split
    · omega
    · exact h.zero.2.2

theorem narrow_outer (maxError : Int) (b : Bisect) (q : Sequence) :
    (b.narrow maxError q).outerMaxinterval = b.outerMaxinterval ∨
      (b.narrow maxError q).outerMaxinterval = q.nextmaxinterval := by
  unfold Bisect.narrow Bisect.narrowPoint Bisect.narrowDeviation Bisect.narrowSide
  dsimp only
  split
  · split
    · exact Or.inr rfl
    · exact Or.inl rfl
  · split
    · exact Or.inr rfl
    · exact Or.inl rfl

theorem BisectRange.narrow {n : Nat} {b : Bisect} {q : Sequence} {add : Int} (maxError : Int)
    (h : BisectRange n b) (hq : SequenceRange n add (.inr q)) :
    BisectRange n (b.narrow maxError q).bisectAdd ∧
      (b.narrow maxError q).choose = b.choose := by
  obtain ⟨h1, h2, h3, -, h5, h6⟩ := Bisect.narrow_best maxError b q
  refine ⟨⟨?_, ?_, ?_, ?_⟩, ?_⟩
  · rcases narrow_outer maxError b q with heq | heq
    · exact heq ▸ h.outer
    · exact heq ▸ hq.2.2.2
  · dsimp only [Bisect.bisectAdd]
    unfold i32
    omega
  · dsimp only [Bisect.bisectAdd]
    rw [h1, h2, h3]
    exact h.best
  · dsimp only [Bisect.bisectAdd]
    rw [h5, h6]
    exact h.zero
  · unfold Bisect.choose
    rw [h1, h2, h3, h5, h6]

theorem bisectLoop_range {maxError : Int} {rest : List Points} {n : Nat}
    (hn : (1 : Int) + rest.length = n) :
    ∀ (rounds : Nat) {b : Bisect} {move : StepMove}, BisectRange n b →
      bisectLoop maxError rest rounds b = some move → MoveRange n move := by
  intro rounds
  induction rounds with
  | zero =>
    intro b move _ heq
    cases heq
  | succ rounds ih =>
    intro b move h heq
    have hrange : SequenceRange n b.add
        (findSequence b.add rest 1 b.outerMininterval b.outerMaxinterval b.outerMaxinterval) :=
      findSequence_range (le_refl 1) hn h.outer h.outer
    unfold bisectLoop at heq
    split at heq
    · rename_i found hfound
      rw [hfound] at hrange
      cases heq
      exact ⟨by rw [hrange.1]; omega, hrange.2.1, by rw [hrange.2.2]; exact h.add⟩
    · rename_i q hfound
      rw [hfound] at hrange
      have hkept : BisectRange n (if b.isBest q then b.keepBest q else b) := by
        split
        · exact h.keepBest hrange
        · exact h
      dsimp only at heq
      generalize (if b.isBest q = true then b.keepBest q else b) = kept at heq hkept
      split at heq
      · cases heq
        exact hkept.choose
      · split at heq
        · cases heq
          rw [(hkept.narrow maxError hrange).2]
          exact hkept.choose
        · exact ih (hkept.narrow maxError hrange).1 heq

/-- The search takes no more steps than there are on the queue. -/
theorem compressBisectAdd_range {sc : StepCompress} {move : StepMove}
    (hmove : compressBisectAdd sc = some move) :
    MoveRange (min sc.queue.length 65535) move := by
  unfold compressBisectAdd at hmove
  split at hmove
  · cases hmove
  · rename_i point rest hpoints
    have hlen := congrArg List.length hpoints
    rw [List.length_map, List.length_range, List.length_cons] at hlen
    obtain ⟨q, hq⟩ : ∃ q, point = minmaxPoint sc q := by
      have hmem : point ∈ (List.range (min sc.queue.length 65535)).map (minmaxPoint sc) := by
        rw [hpoints]
        exact List.mem_cons_self
      obtain ⟨q, -, hq⟩ := List.mem_map.mp hmem
      exact ⟨q, hq.symm⟩
    refine bisectLoop_range (by omega) _ ⟨?_, ?_, ?_, ?_⟩ hmove
    · rw [hq]
      unfold Bisect.init minmaxPoint i32
      dsimp only
      omega
    · dsimp only [Bisect.init]
      omega
    · dsimp only [Bisect.init]
      omega
    · dsimp only [Bisect.init]
      omega

/-! ## The queue -/

/-- The queue holds the clocks `ts`: in order, not before the last step, within the largest clock
difference of it, and not after the clock `b`.  Their direction is known. -/
structure Near (b : Int) (sc : StepCompress) (ts : List Int) : Prop where
  queue : sc.queue = ts.map u32
  sorted : (sc.lastStepClock :: ts).Pairwise (· ≤ ·)
  near : ∀ t ∈ ts, t < sc.lastStepClock + clockDiffMax
  bounded : ∀ t ∈ sc.lastStepClock :: ts, t ≤ b
  known : ts ≠ [] → ∃ d, sc.sdir = some d

namespace Near

variable {b : Int} {sc : StepCompress} {ts : List Int} {i : Nat} {t : Int}

theorem length_eq (h : Near b sc ts) : sc.queue.length = ts.length := by
  rw [h.queue, List.length_map]

theorem after (h : Near b sc ts) (ht : t ∈ ts) : sc.lastStepClock ≤ t :=
  (List.pairwise_cons.mp h.sorted).1 t ht

theorem maxp_eq (h : Near b sc ts) (ht : ts[i]? = some t) :
    (minmaxPoint sc i).maxp = t - sc.lastStepClock := by
  have hafter := h.after (List.mem_of_getElem? ht)
  have hnear := h.near t (List.mem_of_getElem? ht)
  have hget : sc.queue.getD i 0 = u32 t := by
    rw [h.queue, List.getD_eq_getElem?_getD, List.getElem?_map, ht]
    rfl
  unfold minmaxPoint
  dsimp only
  rw [hget]
  unfold clockDiffMax at hnear
  unfold u32 i32
  omega

/-- What `check_line` has tested: no interval is negative, and no step is late. -/
theorem checkSteps_sound {a : Int} (h : Near b sc ts)
    (ha : -0x80000000 ≤ a ∧ a ≤ 0x7fffffff) :
    ∀ (m i : Nat) (v p : Int), -0x80000000 ≤ v ∧ v < 0x100000000 →
      0 ≤ p ∧ p < clockDiffMax → i + m ≤ ts.length →
      checkSteps sc a m i (u32 v) p = true →
      ∀ k t, k < m → ts[i + k]? = some t →
        0 ≤ v + a * (k : Nat) ∧ p + quad v a (k + 1) ≤ t - sc.lastStepClock := by
  intro m
  induction m with
  | zero => intros; omega
  | succ m ih =>
    intro i v p hv hp hlen hcheck k t hk ht
    obtain ⟨x, hx⟩ : ∃ x, ts[i]? = some x := ⟨_, List.getElem?_eq_getElem (by omega)⟩
    have hafter := h.after (List.mem_of_getElem? hx)
    have hnear := h.near x (List.mem_of_getElem? hx)
    unfold checkSteps at hcheck
    dsimp only at hcheck
    rw [h.maxp_eq hx] at hcheck
    split at hcheck
    · cases hcheck
    · rename_i htime
      split at hcheck
      · cases hcheck
      · rename_i hsign
        -- an interval below 0 would be one of 2^31 or more
        have hv0 : 0 ≤ v ∧ u32 v = v ∧ v < 0x80000000 := by
          unfold u32 at hsign ⊢
          omega
        rw [hv0.2.1] at hcheck htime
        unfold clockDiffMax at hnear hp
        have hsum : u32 (p + v) = p + v := u32_of_range (by omega) (by omega)
        rw [hsum] at hcheck htime
        rw [u32_of_range (x := x - sc.lastStepClock) (by omega) (by omega)] at htime
        cases k with
        | zero =>
          rw [Nat.add_zero, hx, Option.some.injEq] at ht
          subst ht
          rw [Nat.cast_zero, zero_add, quad_one, mul_zero]
          omega
        | succ k =>
          obtain ⟨h1, h2⟩ := ih (i + 1) (v + a) (p + v) (by omega)
            (by unfold clockDiffMax; omega) (by omega) hcheck k t (by omega)
            (by rw [← ht]; congr 1; omega)
          have hquad : quad v a ((k + 1 : Nat) + 1) = v + quad (v + a) a (k + 1) := by
            have htri := triangle_succ ((k : Int) + 1)
            unfold quad
            rw [Nat.cast_succ, htri]
            ring
          have hmul : a * ((k + 1 : Nat) : Int) = a + a * k := by
            rw [Nat.cast_succ]
            ring
          rw [hquad, hmul]
          omega

end Near

/-- A move for the first `n` clocks of the queue that `check_line` accepts. -/
structure Checked (sc : StepCompress) (ts : List Int) (move : StepMove) (n : Nat) : Prop where
  count : move.count = n
  range : 1 ≤ n ∧ n ≤ ts.length
  interval : ∀ k : Nat, k < n → 0 ≤ move.interval + move.add * k
  reach : ∀ t, ts[n - 1]? = some t →
    sc.lastStepClock + quad move.interval move.add n ≤ t

theorem Near.checked {b : Int} {sc : StepCompress} {ts : List Int} {move : StepMove}
    (h : Near b sc ts) (hmove : compressBisectAdd sc = some move)
    (hcheck : checkLine sc move = true) :
    ∃ n, Checked sc ts move n := by
  have hrange := compressBisectAdd_range hmove
  have hlen := h.length_eq
  obtain ⟨n, hn⟩ : ∃ n : Nat, move.count = n := ⟨_, (Int.toNat_of_nonneg hrange.count.1).symm⟩
  have hle := hrange.count.2
  rw [hn] at hle
  unfold checkLine at hcheck
  rw [hn, Int.toNat_natCast] at hcheck
  split at hcheck
  · cases hcheck
  rename_i hsome
  have hpos : 1 ≤ n := by omega
  have hnts : n ≤ ts.length := by omega
  have hlow := hrange.interval
  have hinterval : 0 ≤ move.interval := by
    obtain ⟨m, rfl⟩ : ∃ m, n = m + 1 := ⟨n - 1, by omega⟩
    obtain ⟨x, hx⟩ : ∃ x, ts[0]? = some x := ⟨_, List.getElem?_eq_getElem (by omega)⟩
    have hafter := h.after (List.mem_of_getElem? hx)
    have hnear := h.near x (List.mem_of_getElem? hx)
    unfold clockDiffMax at hnear
    unfold checkSteps at hcheck
    dsimp only at hcheck
    rw [h.maxp_eq hx] at hcheck
    split at hcheck
    · cases hcheck
    · rename_i htime
      rw [u32_of_range (x := x - sc.lastStepClock) (by omega) (by omega)] at htime
      unfold u32 at htime
      omega
  have hword : u32 move.interval = move.interval := u32_of_range hinterval (by omega)
  rw [← hword] at hcheck
  have hsound := h.checkSteps_sound hrange.add n 0 move.interval 0 (by omega)
    (by unfold clockDiffMax; omega) (by omega) hcheck
  refine ⟨n, hn, ⟨hpos, hnts⟩, ?_, ?_⟩
  · intro k hk
    obtain ⟨t, ht⟩ : ∃ t, ts[0 + k]? = some t := ⟨_, List.getElem?_eq_getElem (by omega)⟩
    exact (hsound k t hk ht).1
  · intro t ht
    have hlast := (hsound (n - 1) t (by omega) (by rw [Nat.zero_add]; exact ht)).2
    have hcast : ((n - 1 : Nat) : Int) + 1 = n := by omega
    rw [hcast] at hlast
    omega

namespace Checked

variable {b : Int} {sc : StepCompress} {ts : List Int} {move : StepMove} {n : Nat}

theorem total_lt (h : Checked sc ts move n) (hnear : Near b sc ts) :
    quad move.interval move.add n < clockDiffMax := by
  have hrange := h.range
  obtain ⟨t, ht⟩ : ∃ t, ts[n - 1]? = some t := ⟨_, List.getElem?_eq_getElem (by omega)⟩
  have hreach := h.reach t ht
  have htnear := hnear.near t (List.mem_of_getElem? ht)
  omega

/-- The clock of the last step of the move. -/
theorem addMove_lastStepClock (h : Checked sc ts move n) (hnear : Near b sc ts) :
    (addMove (sc.lastStepClock + move.interval) move sc).lastStepClock =
      sc.lastStepClock + quad move.interval move.add n := by
  have hrange := h.range
  have hfirst := h.interval 0 (by omega)
  rw [Nat.cast_zero, mul_zero, add_zero] at hfirst
  have hlast := h.interval (n - 1) (by omega)
  have hcast : ((n - 1 : Nat) : Int) = (n : Int) - 1 := by omega
  rw [hcast] at hlast
  have hone := quad_mono h.interval hrange.1 le_rfl
  rw [Nat.cast_one, quad_one] at hone
  have htotal := h.total_lt hnear
  obtain ⟨htri, -⟩ := quad_parts (show (1 : Int) ≤ n by omega) hfirst hlast htotal
  have hexact := addfactor_exact (a := move.add) (n := (n : Int)) (by omega)
    (by unfold quadMax; unfold clockDiffMax at htri; omega)
  have hquad : move.add * triangle n + move.interval * ((n : Int) - 1) =
      quad move.interval move.add n - move.interval := by
    unfold quad
    ring
  unfold clockDiffMax at htotal
  unfold addMove
  dsimp only
  rw [h.count, hexact, hquad, u32_of_range (by omega) (by omega)]
  omega

theorem total_nonneg (h : Checked sc ts move n) : 0 ≤ quad move.interval move.add n := by
  have hgrow := quad_mono h.interval (Nat.zero_le n) le_rfl
  have hzero : quad move.interval move.add ((0 : Nat) : Int) = 0 := by
    unfold quad triangle
    simp
  rw [hzero] at hgrow
  exact hgrow

theorem later (h : Checked sc ts move n) (hnear : Near b sc ts) :
    sc.lastStepClock ≤ (addMove (sc.lastStepClock + move.interval) move sc).lastStepClock := by
  have htotal := h.total_nonneg
  rw [h.addMove_lastStepClock hnear]
  omega

/-- The rest of the queue. -/
theorem drop (h : Checked sc ts move n) (hnear : Near b sc ts) (pos : Nat) :
    Near b
      { addMove (sc.lastStepClock + move.interval) move sc with
        queue := sc.queue.drop n, pos := pos } (ts.drop n) := by
  have hrange := h.range
  have hlsc := h.addMove_lastStepClock hnear
  obtain ⟨x, hx⟩ : ∃ x, ts[n - 1]? = some x := ⟨_, List.getElem?_eq_getElem (by omega)⟩
  have hreach := h.reach x hx
  have htotal := h.total_nonneg
  have htail := (List.pairwise_cons.mp hnear.sorted).2
  refine ⟨?_, ?_, ?_, ?_, ?_⟩
  · show sc.queue.drop n = _
    rw [hnear.queue, List.map_drop]
  · show (_ :: ts.drop n).Pairwise _
    refine List.pairwise_cons.mpr ⟨?_, htail.drop⟩
    intro t ht
    show (addMove _ move sc).lastStepClock ≤ t
    rw [hlsc]
    obtain ⟨j, hj⟩ := List.getElem?_of_mem ht
    rw [List.getElem?_drop] at hj
    obtain ⟨hj', rfl⟩ := List.getElem?_eq_some_iff.mp hj
    obtain ⟨hx', rfl⟩ := List.getElem?_eq_some_iff.mp hx
    have := List.pairwise_iff_getElem.mp htail (n - 1) (n + j) hx' hj' (by omega)
    omega
  · intro t ht
    have htnear := hnear.near t (List.mem_of_mem_drop ht)
    show t < (addMove _ move sc).lastStepClock + clockDiffMax
    rw [hlsc]
    omega
  · intro t ht
    rcases List.mem_cons.mp ht with rfl | ht
    · have hb := hnear.bounded x (List.mem_cons_of_mem _ (List.mem_of_getElem? hx))
      show (addMove _ move sc).lastStepClock ≤ b
      rw [hlsc]
      omega
    · exact hnear.bounded t (List.mem_cons_of_mem _ (List.mem_of_mem_drop ht))
  · intro hne
    refine hnear.known fun hnil => hne ?_
    rw [hnil, List.drop_nil]

end Checked

/-! ## The history -/

/-- The history of an object, with the clock and the position it ends at. -/
structure StepHistory where
  entries : List HistorySteps
  lastStepClock : Int
  lastPosition : Int

def StepCompress.history (sc : StepCompress) : StepHistory where
  entries := sc.historyList
  lastStepClock := sc.lastStepClock
  lastPosition := sc.lastPosition

/-- The entry of a move that `check_line` has accepted, or of one step far in the future, after the
clock `lsc`. -/
structure MoveEntry (lsc : Int) (hs : HistorySteps) : Prop where
  count : 1 ≤ hs.stepCount.natAbs
  after : lsc ≤ hs.firstClock
  interval : ∀ k : Nat, k < hs.stepCount.natAbs → 0 ≤ hs.interval + hs.add * k
  lastClock : hs.lastClock =
    hs.firstClock + (quad hs.interval hs.add hs.stepCount.natAbs - hs.interval)
  small : hs.stepCount.natAbs = 1 ∨ quad hs.interval hs.add hs.stepCount.natAbs < clockDiffMax

/-- What `stepcompress_set_last_position` adds. -/
def markerEntry (clock position : Int) : HistorySteps where
  firstClock := clock
  lastClock := clock
  startPosition := position
  stepCount := 0
  interval := 0
  add := 0

/-- `h.Steps h' added`: from `h` to `h'` the entries `added` have been recorded, the latest one
first, and old ones may have been freed. -/
inductive StepHistory.Steps (h : StepHistory) : StepHistory → List HistorySteps → Prop
  | refl : Steps h h []
  | move {h' : StepHistory} {added : List HistorySteps} {hs : HistorySteps}
      (hsteps : Steps h h' added) (hmove : MoveEntry h'.lastStepClock hs)
      (hstart : hs.startPosition = h'.lastPosition) :
      Steps h ⟨hs :: h'.entries, hs.lastClock, h'.lastPosition + hs.stepCount⟩ (hs :: added)
  | expire {h' : StepHistory} {added : List HistorySteps} (endClock : Int)
      (hsteps : Steps h h' added) :
      Steps h ⟨freeHistory endClock h'.entries, h'.lastStepClock, h'.lastPosition⟩ added
  | marker {h' : StepHistory} {added : List HistorySteps} (clock position : Int)
      (hsteps : Steps h h' added) :
      Steps h ⟨markerEntry clock position :: h'.entries, h'.lastStepClock, position⟩
        (markerEntry clock position :: added)

theorem StepHistory.Steps.trans {h h' h'' : StepHistory} {added added' : List HistorySteps}
    (hsteps : h.Steps h' added) (hsteps' : h'.Steps h'' added') :
    h.Steps h'' (added' ++ added) := by
  induction hsteps' with
  | refl => exact hsteps
  | move _ hmove hstart ih => exact .move ih hmove hstart
  | expire endClock _ ih => exact .expire endClock ih
  | marker clock position _ ih => exact .marker clock position ih

/-- The move that an entry is of. -/
def HistorySteps.toMove (hs : HistorySteps) : StepMove where
  interval := hs.interval
  count := hs.stepCount.natAbs
  add := hs.add

/-- The entry that `add_move` makes. -/
def addEntry (firstClock : Int) (move : StepMove) (sc : StepCompress) : HistorySteps where
  firstClock := firstClock
  lastClock := (addMove firstClock move sc).lastStepClock
  startPosition := sc.lastPosition
  stepCount := if sc.sdir = some false then -move.count else move.count
  interval := move.interval
  add := move.add

theorem addEntry_toMove {clock : Int} {move : StepMove} {sc : StepCompress}
    (hcount : 0 ≤ move.count) : (addEntry clock move sc).toMove = move := by
  obtain ⟨interval, count, add⟩ := move
  unfold addEntry HistorySteps.toMove
  dsimp only at hcount ⊢
  congr 1
  split <;> omega

theorem Checked.entry {b : Int} {sc : StepCompress} {ts : List Int} {move : StepMove} {n : Nat}
    (h : Checked sc ts move n) (hnear : Near b sc ts) :
    MoveEntry sc.lastStepClock (addEntry (sc.lastStepClock + move.interval) move sc) := by
  have hrange := h.range
  have hlsc := h.addMove_lastStepClock hnear
  have htotal := h.total_lt hnear
  have hfirst := h.interval 0 (by omega)
  rw [Nat.cast_zero, mul_zero, add_zero] at hfirst
  have habs : (if sc.sdir = some false then -move.count else move.count).natAbs = n := by
    rw [h.count]
    split <;> omega
  unfold addEntry
  refine ⟨?_, ?_, ?_, ?_, ?_⟩
  · dsimp only
    rw [habs]
    exact hrange.1
  · dsimp only
    omega
  · dsimp only
    rw [habs]
    exact h.interval
  · dsimp only
    rw [habs, hlsc]
    ring
  · dsimp only
    rw [habs]
    exact Or.inr htotal

theorem MoveEntry.far {sc : StepCompress} {clock : Int} (hafter : sc.lastStepClock ≤ clock) :
    MoveEntry sc.lastStepClock
      (addEntry clock { interval := u32 (clock - sc.lastStepClock), count := 1, add := 0 } sc) := by
  have habs : (if sc.sdir = some false then (-1 : Int) else 1).natAbs = 1 := by
    split <;> rfl
  unfold addEntry
  refine ⟨habs.ge, hafter, ?_, ?_, Or.inl habs⟩
  · intro k _
    have hnonneg := u32_nonneg (clock - sc.lastStepClock)
    dsimp only
    omega
  · dsimp only
    rw [habs, Nat.cast_one, quad_one, sub_self, add_zero]
    unfold addMove
    dsimp only
    unfold i32 u32
    omega

/-! ## Messages and positions -/

/-- How far steps in the given directions go. -/
def netSteps (dirs : List Bool) : Int := dirs.count true - dirs.count false

@[simp] theorem netSteps_append (dirs dirs' : List Bool) :
    netSteps (dirs ++ dirs') = netSteps dirs + netSteps dirs' := by
  unfold netSteps
  rw [List.count_append, List.count_append]
  push_cast
  ring

theorem netSteps_replicate (n : Nat) (dir : Bool) :
    netSteps (List.replicate n dir) = if dir = false then -(n : Int) else n := by
  unfold netSteps
  cases dir <;> simp [List.count_replicate]

/-- The level of the direction pin after messages, when it was `dir` before them. -/
def lastDir (dir : Option Bool) : List StepMessage → Option Bool
  | [] => dir
  | message :: messages =>
      match message.command with
      | .setNextStepDir next => lastDir (some next) messages
      | .queueStep _ _ _ | .other _ => lastDir dir messages

/-- The level of the direction pin at each step of the messages, when it was `dir` before them;
`none` for a step before any `set_next_step_dir`. -/
def stepDirs (dir : Option Bool) : List StepMessage → List (Option Bool)
  | [] => []
  | message :: messages =>
      match message.command with
      | .setNextStepDir next => stepDirs (some next) messages
      | .queueStep _ count _ => List.replicate count.toNat dir ++ stepDirs dir messages
      | .other _ => stepDirs dir messages

theorem lastDir_append (dir : Option Bool) (messages messages' : List StepMessage) :
    lastDir dir (messages ++ messages') = lastDir (lastDir dir messages) messages' := by
  induction messages generalizing dir with
  | nil => rfl
  | cons message messages ih =>
    obtain ⟨command, minClock, reqClock⟩ := message
    cases command with
    | setNextStepDir next => exact ih (some next)
    | queueStep _ _ _ => exact ih dir
    | other _ => exact ih dir

theorem stepDirs_append (dir : Option Bool) (messages messages' : List StepMessage) :
    stepDirs dir (messages ++ messages') =
      stepDirs dir messages ++ stepDirs (lastDir dir messages) messages' := by
  induction messages generalizing dir with
  | nil => rfl
  | cons message messages ih =>
    obtain ⟨command, minClock, reqClock⟩ := message
    cases command with
    | setNextStepDir next => exact ih (some next)
    | queueStep _ count _ =>
      show List.replicate count.toNat dir ++ stepDirs dir (messages ++ messages') =
        List.replicate count.toNat dir ++ stepDirs dir messages ++
          stepDirs (lastDir dir messages) messages'
      rw [ih, List.append_assoc]
    | other _ => exact ih dir

/-- The moves of messages. -/
def messageMoves (messages : List StepMessage) : List StepMove :=
  messages.filterMap fun message =>
    match message.command with
    | .queueStep interval count add => some { interval := interval, count := count, add := add }
    | .setNextStepDir _ | .other _ => none

/-- The level of the direction pin that the object has asked for. -/
def pinDir (sc : StepCompress) : Option Bool := sc.sdir.map (· != sc.invertSdir)

/-- The directions of the steps on the queue. -/
def queuedDirs (sc : StepCompress) : List Bool :=
  List.replicate sc.queue.length (sc.sdir.getD true)

/-- From `sc` to `sc'` the object has emitted steps in the directions `dirs`: its position has
moved by them, every one of them is made with the direction pin at its level, and the moves of the
messages are those that have been recorded. -/
structure Emits (sc sc' : StepCompress) (dirs : List Bool) : Prop where
  position : sc'.lastPosition = sc.lastPosition + netSteps dirs
  invertSdir : sc'.invertSdir = sc.invertSdir
  messages : ∃ messages, sc'.msgQueue = sc.msgQueue ++ messages ∧
    stepDirs (pinDir sc) messages = dirs.map (fun dir => some (dir != sc.invertSdir)) ∧
    lastDir (pinDir sc) messages = pinDir sc' ∧
    ∃ added, sc.history.Steps sc'.history added ∧ (∀ hs ∈ added, hs.stepCount ≠ 0) ∧
      messageMoves messages = added.reverse.map HistorySteps.toMove

theorem Emits.trans {sc sc' sc'' : StepCompress} {dirs dirs' : List Bool} (h : Emits sc sc' dirs)
    (h' : Emits sc' sc'' dirs') : Emits sc sc'' (dirs ++ dirs') where
  position := by
    rw [h'.position, h.position, netSteps_append]
    ring
  invertSdir := h'.invertSdir.trans h.invertSdir
  messages := by
    obtain ⟨messages, hq, hd, hl, added, hsteps, hcount, hmoves⟩ := h.messages
    obtain ⟨messages', hq', hd', hl', added', hsteps', hcount', hmoves'⟩ := h'.messages
    refine ⟨messages ++ messages', ?_, ?_, ?_, added' ++ added, hsteps.trans hsteps', ?_, ?_⟩
    · rw [hq', hq, List.append_assoc]
    · rw [stepDirs_append, hl, hd, hd', h.invertSdir, List.map_append]
    · rw [lastDir_append, hl, hl']
    · intro hs hmem
      exact (List.mem_append.mp hmem).elim (hcount' hs) (hcount hs)
    · rw [List.reverse_append, List.map_append, ← hmoves, ← hmoves']
      exact List.filterMap_append

theorem Emits.still {sc sc' : StepCompress} (hhistory : sc.history.Steps sc'.history [])
    (hposition : sc'.lastPosition = sc.lastPosition) (hinvert : sc'.invertSdir = sc.invertSdir)
    (hmessages : sc'.msgQueue = sc.msgQueue) (hsdir : sc'.sdir = sc.sdir) :
    Emits sc sc' [] where
  position := by
    rw [hposition]
    unfold netSteps
    simp
  invertSdir := hinvert
  messages := by
    refine ⟨[], ?_, rfl, ?_, [], hhistory, fun _ hmem => absurd hmem List.not_mem_nil, rfl⟩
    · rw [hmessages, List.append_nil]
    · unfold pinDir
      rw [hsdir, hinvert]
      rfl

/-- A queue_step command. -/
theorem Emits.addMove {sc : StepCompress} {d : Bool} {move : StepMove} {n : Nat} {clock : Int}
    (hd : sc.sdir = some d) (hcount : move.count = n)
    (hentry : MoveEntry sc.lastStepClock (addEntry clock move sc)) :
    Emits sc (addMove clock move sc) (List.replicate n d) where
  position := by
    rw [netSteps_replicate]
    unfold Chelper.addMove
    dsimp only
    rw [hd, hcount]
    cases d with
    | false => rfl
    | true => rfl
  invertSdir := rfl
  messages := by
    refine ⟨_, rfl, ?_, rfl, [addEntry clock move sc], .move .refl hentry rfl, ?_, ?_⟩
    · show List.replicate move.count.toNat (pinDir sc) ++ [] = _
      unfold pinDir
      rw [hd, hcount, List.map_replicate, Int.toNat_natCast, List.append_nil]
      rfl
    · intro hs hmem
      have hcount := hentry.count
      rw [List.mem_singleton.mp hmem]
      omega
    · rw [List.reverse_singleton, List.map_singleton, addEntry_toMove (by omega)]
      rfl

theorem Emits.setNextStepDir (sc : StepCompress) (dir : Bool) :
    Emits sc
      { sc with
        sdir := some dir
        msgQueue := sc.msgQueue ++
          [{ command := .setNextStepDir (dir != sc.invertSdir)
             minClock := 0
             reqClock := sc.lastStepClock }] } [] where
  position := (Int.add_zero sc.lastPosition).symm
  invertSdir := rfl
  messages := ⟨_, rfl, rfl, rfl, [], .refl, fun _ hmem => absurd hmem List.not_mem_nil, rfl⟩

/-! ## Flushing -/

/-- What a call does that is given the steps `added`: some steps leave the object, in order, and
the others are on its queue. -/
structure Advances (b : Int) (sc : StepCompress) (added : List Bool) (sc' : StepCompress)
    (ts' : List Int) : Prop where
  near : Near b sc' ts'
  later : sc.lastStepClock ≤ sc'.lastStepClock
  nextStepDir : sc'.nextStepDir = sc.nextStepDir
  emits : ∃ dirs, Emits sc sc' dirs ∧ dirs ++ queuedDirs sc' = queuedDirs sc ++ added

theorem Advances.refl {b : Int} {sc : StepCompress} {ts : List Int} (h : Near b sc ts) :
    Advances b sc [] sc ts :=
  ⟨h, le_refl _, rfl, [], .still .refl rfl rfl rfl rfl, by rw [List.append_nil, List.nil_append]⟩

theorem Advances.trans {b : Int} {sc sc' sc'' : StepCompress} {added added' : List Bool}
    {ts' ts'' : List Int} (h : Advances b sc added sc' ts')
    (h' : Advances b sc' added' sc'' ts'') : Advances b sc (added ++ added') sc'' ts'' := by
  obtain ⟨dirs, hemits, heq⟩ := h.emits
  obtain ⟨dirs', hemits', heq'⟩ := h'.emits
  refine ⟨h'.near, h.later.trans h'.later, h'.nextStepDir.trans h.nextStepDir, dirs ++ dirs',
    hemits.trans hemits', ?_⟩
  rw [List.append_assoc, heq', ← List.append_assoc, heq, List.append_assoc]

section Flush

variable {b : Int} {sc : StepCompress} {ts : List Int}

theorem Near.move {move : StepMove} {n : Nat} (h : Near b sc ts) (hmove : Checked sc ts move n)
    (pos : Nat) :
    Advances b sc []
      { addMove (sc.lastStepClock + move.interval) move sc with
        queue := sc.queue.drop n, pos := pos } (ts.drop n) := by
  have hlen := h.length_eq
  have hrange := hmove.range
  obtain ⟨d, hd⟩ := h.known fun hnil => by
    rw [hnil, List.length_nil] at hrange
    omega
  have hemits := Emits.addMove hd hmove.count (hmove.entry h)
  refine ⟨hmove.drop h pos, hmove.later h, rfl, List.replicate n d,
    ⟨hemits.position, hemits.invertSdir, hemits.messages⟩, ?_⟩
  unfold queuedDirs
  show List.replicate n d ++ List.replicate (sc.queue.drop n).length (sc.sdir.getD true) = _
  rw [hd, List.length_drop, List.append_nil, Option.getD_some, List.replicate_append_replicate]
  congr 1
  omega

/-- The loop of `queue_flush`. -/
theorem queueFlushLoop_advances (moveClock : Int) :
    ∀ (rounds : Nat) {sc sc' : StepCompress} {ts : List Int}, Near b sc ts →
      queueFlushLoop moveClock rounds sc = .ok sc' →
      ∃ ts', Advances b sc [] sc' ts' ∧ sc'.sdir = sc.sdir ∧
        sc'.nextStepClock = sc.nextStepClock ∧ (ts' = [] ∨ moveClock ≤ sc'.lastStepClock) := by
  intro rounds
  induction rounds with
  | zero =>
    intro sc sc' ts _ hok
    cases hok
  | succ rounds ih =>
    intro sc sc' ts h hok
    unfold queueFlushLoop at hok
    split at hok
    · split at hok
      · cases hok
      · rename_i move hmove
        split at hok
        · rename_i hcheck
          obtain ⟨n, hn⟩ := h.checked hmove hcheck
          have hlen := h.length_eq
          have hcount := hn.count
          dsimp only at hok
          split at hok
          · rename_i hall
            change move.count ≥ sc.queue.length at hall
            have hnil : ts.drop n = [] := List.drop_eq_nil_of_le (by omega)
            have hqnil : sc.queue.drop n = [] := List.drop_eq_nil_of_le (by omega)
            have hadv := h.move hn 0
            rw [hnil, hqnil] at hadv
            cases hok
            exact ⟨[], hadv, rfl, rfl, Or.inl rfl⟩
          · have hadv := h.move hn (sc.pos + n)
            rw [hcount, Int.toNat_natCast] at hok
            obtain ⟨ts', hrest, hsdir, hnext, hend⟩ := ih hadv.near hok
            exact ⟨ts', hadv.trans hrest, hsdir, hnext, hend⟩
        · cases hok
    · cases hok
      exact ⟨ts, .refl h, rfl, rfl, Or.inr (by omega)⟩

theorem Emits.history {sc : StepCompress} :
    Emits sc (calcLastStepPrintTime sc) [] := by
  unfold calcLastStepPrintTime
  split
  · exact .still (.expire _ .refl) rfl rfl rfl rfl
  · exact .still .refl rfl rfl rfl rfl

theorem Advances.history {added : List Bool} {sc' : StepCompress} (h : Advances b sc added sc' ts) :
    Advances b sc added (calcLastStepPrintTime sc') ts := by
  obtain ⟨history, hcalc⟩ := calcLastStepPrintTime_eq sc'
  obtain ⟨dirs, hemits, heq⟩ := h.emits
  have hall := hemits.trans Emits.history
  rw [List.append_nil, hcalc] at hall
  rw [hcalc]
  exact ⟨⟨h.near.queue, h.near.sorted, h.near.near, h.near.bounded, h.near.known⟩, h.later,
    h.nextStepDir, dirs, hall, heq⟩

/-- `queue_flush`, when it returns. -/
theorem queueFlush_advances {moveClock : Int} {sc' : StepCompress} (h : Near b sc ts)
    (hok : queueFlush moveClock sc = .ok sc') :
    ∃ ts', Advances b sc [] sc' ts' ∧ sc'.sdir = sc.sdir ∧
      sc'.nextStepClock = sc.nextStepClock ∧ (ts' = [] ∨ moveClock ≤ sc'.lastStepClock) := by
  unfold queueFlush at hok
  split at hok
  · rename_i hnil
    cases hok
    have hts : ts = [] := by
      rw [← List.length_eq_zero_iff, ← h.length_eq, hnil, List.length_nil]
    exact ⟨ts, .refl h, rfl, rfl, Or.inl hts⟩
  · cases hloop : queueFlushLoop moveClock (sc.queue.length + 1) sc with
    | error fault =>
      rw [hloop] at hok
      cases hok
    | ok sc1 =>
      rw [hloop] at hok
      cases hok
      obtain ⟨ts', hadv, hsdir, hnext, hend⟩ := queueFlushLoop_advances moveClock _ h hloop
      obtain ⟨history, hcalc⟩ := calcLastStepPrintTime_eq sc1
      refine ⟨ts', hadv.history, ?_, ?_, ?_⟩
      · rw [hcalc]
        exact hsdir
      · rw [hcalc]
        exact hnext
      · rw [hcalc]
        exact hend

theorem queueFlush_all_advances {sc' : StepCompress} (h : Near b sc ts) (hb : b < uint64Max)
    (hok : queueFlush uint64Max sc = .ok sc') :
    Advances b sc [] sc' [] ∧ sc'.sdir = sc.sdir ∧ sc'.nextStepClock = sc.nextStepClock := by
  obtain ⟨ts', hadv, hsdir, hnext, hend⟩ := queueFlush_advances h hok
  have hlast := hadv.near.bounded _ List.mem_cons_self
  rcases hend with rfl | hend
  · exact ⟨hadv, hsdir, hnext⟩
  · omega

/-! ## Appending -/

/-- `set_next_step_dir`, when it returns. -/
theorem setNextStepDir_advances {dir : Bool} {sc' : StepCompress} (h : Near b sc ts)
    (hb : b < uint64Max) (hok : setNextStepDir dir sc = .ok sc') :
    ∃ ts', Advances b sc [] sc' ts' ∧ sc'.sdir = some dir ∧
      sc'.nextStepClock = sc.nextStepClock := by
  unfold setNextStepDir at hok
  split at hok
  · rename_i hsame
    cases hok
    exact ⟨ts, .refl h, hsame, rfl⟩
  · cases hflush : queueFlush uint64Max sc with
    | error fault =>
      rw [hflush] at hok
      cases hok
    | ok sc1 =>
      rw [hflush] at hok
      cases hok
      obtain ⟨hadv, hsdir, hnext⟩ := queueFlush_all_advances h hb hflush
      obtain ⟨dirs, hemits, heq⟩ := hadv.emits
      have hlen := hadv.near.length_eq
      rw [List.length_nil] at hlen
      have hset := hemits.trans (Emits.setNextStepDir sc1 dir)
      rw [List.append_nil] at hset
      refine ⟨[], ⟨⟨hadv.near.queue, hadv.near.sorted, hadv.near.near, hadv.near.bounded,
        fun _ => ⟨dir, rfl⟩⟩, hadv.later, hadv.nextStepDir, dirs, hset, ?_⟩, rfl, hnext⟩
      rw [← heq]
      unfold queuedDirs
      show dirs ++ List.replicate sc1.queue.length _ = _
      rw [hlen]
      rfl

/-- The pending step is put on the queue. -/
theorem Near.put (h : Near b sc ts) (hd : sc.sdir = some sc.nextStepDir)
    (hnear : b < sc.lastStepClock + clockDiffMax) (pos cap : Nat) :
    Advances b sc [sc.nextStepDir]
      { sc with queue := sc.queue ++ [u32 b], pos := pos, cap := cap, nextStepClock := 0 }
      (ts ++ [b]) where
  near := by
    refine ⟨?_, ?_, ?_, ?_, fun _ => ⟨_, hd⟩⟩
    · rw [List.map_append, ← h.queue]
      rfl
    · show ((sc.lastStepClock :: ts) ++ [b]).Pairwise _
      refine List.pairwise_append.mpr ⟨h.sorted, List.pairwise_singleton _ _, ?_⟩
      intro x hx y hy
      rw [List.mem_singleton.mp hy]
      exact h.bounded x hx
    · intro t ht
      rcases List.mem_append.mp ht with ht | ht
      · exact h.near t ht
      · rw [List.mem_singleton.mp ht]
        exact hnear
    · intro t ht
      rcases List.mem_append.mp (show t ∈ (sc.lastStepClock :: ts) ++ [b] from ht) with ht | ht
      · exact h.bounded t ht
      · rw [List.mem_singleton.mp ht]
  later := le_refl _
  nextStepDir := rfl
  emits := by
    refine ⟨[], .still .refl rfl rfl rfl rfl, ?_⟩
    unfold queuedDirs
    dsimp only
    rw [hd, List.length_append, List.length_singleton, List.replicate_succ', Option.getD_some,
      List.nil_append]

/-- With nothing on the queue a step far after the last one is emitted at once. -/
theorem Near.far (h : Near b sc []) (hd : sc.sdir = some sc.nextStepDir) :
    Advances b sc [sc.nextStepDir] (stepcompressFlushFar b sc) [] := by
  unfold stepcompressFlushFar
  have hlsc : (addMove b { interval := u32 (b - sc.lastStepClock), count := 1, add := 0 }
      sc).lastStepClock = b := by
    unfold addMove
    dsimp only
    unfold i32 u32
    omega
  refine Advances.history
    ⟨⟨h.queue, ?_, ?_, ?_, ?_⟩, ?_, rfl, _,
      Emits.addMove (n := 1) hd rfl (.far (h.bounded _ List.mem_cons_self)), ?_⟩
  · exact List.pairwise_singleton _ _
  · intro t ht
    cases ht
  · intro t ht
    rw [List.mem_singleton.mp ht, hlsc]
  · intro hne
    exact absurd rfl hne
  · rw [hlsc]
    exact h.bounded _ List.mem_cons_self
  · have hnil : queuedDirs sc = [] := by
      unfold queuedDirs
      rw [h.length_eq]
      rfl
    show List.replicate 1 sc.nextStepDir ++ queuedDirs sc = _
    rw [hnil]
    rfl

theorem queuePut_ok {clock : Int} {sc' : StepCompress} (hok : queuePut clock sc = .ok sc') :
    sc' = { sc with queue := sc.queue ++ [u32 clock] } := by
  unfold queuePut at hok
  split at hok
  · cases hok
    rfl
  · cases hok

theorem queueMakeRoom_frame (sc : StepCompress) :
    ∃ pos cap, queueMakeRoom sc = { sc with pos := pos, cap := cap } := by
  unfold queueMakeRoom
  split
  · split
    · exact ⟨0, sc.cap, rfl⟩
    · exact ⟨0, _, rfl⟩
  · exact ⟨sc.pos, sc.cap, rfl⟩

/-- What `queue_append` does in each of its paths: the pending step is on the queue or emitted. -/
def Takes (b : Int) (sc sc' : StepCompress) : Prop :=
  ∃ ts', Advances b sc [sc.nextStepDir] sc' ts' ∧ sc'.nextStepClock = 0

theorem Takes.of_advances {sc1 sc2 : StepCompress} {ts1 : List Int}
    (h : Advances b sc [] sc1 ts1) (h' : Takes b sc1 sc2) : Takes b sc sc2 := by
  obtain ⟨ts', hadv, hnext⟩ := h'
  rw [h.nextStepDir] at hadv
  exact ⟨ts', h.trans hadv, hnext⟩

theorem queueAppendFar_takes {sc' : StepCompress} (h : Near b sc ts) (hclock : sc.nextStepClock = b)
    (hd : sc.sdir = some sc.nextStepDir) (hok : queueAppendFar sc = .ok sc') :
    Takes b sc sc' := by
  unfold queueAppendFar at hok
  dsimp only at hok
  rw [hclock] at hok
  have h0 : Near b { sc with nextStepClock := 0 } ts :=
    ⟨h.queue, h.sorted, h.near, h.bounded, h.known⟩
  cases hflush : queueFlush (b - clockDiffMax + 1) { sc with nextStepClock := 0 } with
  | error fault =>
    rw [hflush] at hok
    cases hok
  | ok sc1 =>
    rw [hflush] at hok
    change (if b ≥ sc1.lastStepClock + clockDiffMax then _ else _) = Except.ok sc' at hok
    obtain ⟨ts1, hadv, hsdir, hnext, hend⟩ := queueFlush_advances h0 hflush
    obtain ⟨dirs, hemits, heq⟩ := hadv.emits
    have hfirst : Advances b sc [] sc1 ts1 :=
      ⟨hadv.near, hadv.later, hadv.nextStepDir, dirs,
        ⟨hemits.position, hemits.invertSdir, hemits.messages⟩, heq⟩
    have hd1 : sc1.sdir = some sc1.nextStepDir := by
      rw [hsdir, hadv.nextStepDir]
      exact hd
    refine Takes.of_advances hfirst ?_
    split at hok
    · rename_i hfar
      have hnil : ts1 = [] := by
        rcases hend with hnil | hend
        · exact hnil
        · omega
      rw [hnil] at hadv
      cases hok
      refine ⟨[], hadv.near.far hd1, ?_⟩
      obtain ⟨history, hcalc⟩ := calcLastStepPrintTime_eq (addMove b
        { interval := u32 (b - sc1.lastStepClock), count := 1, add := 0 } sc1)
      unfold stepcompressFlushFar
      rw [hcalc]
      exact hnext
    · rename_i hclose
      have hput := hadv.near.put hd1 (by omega) sc1.pos sc1.cap
      have hnext' : sc1.nextStepClock = 0 := hnext
      rw [queuePut_ok hok]
      rw [← hnext'] at hput
      exact ⟨_, hput, hnext⟩

theorem queueAppendExtend_takes {sc' : StepCompress} (h : Near b sc ts)
    (hclock : sc.nextStepClock = b) (hd : sc.sdir = some sc.nextStepDir)
    (hnear : b < sc.lastStepClock + clockDiffMax) (hok : queueAppendExtend sc = .ok sc') :
    Takes b sc sc' := by
  unfold queueAppendExtend at hok
  dsimp only at hok
  generalize hflush : (if sc.queue.length > 65535 + 2000 then
      queueFlush (sc.lastStepClock + u32 (sc.queue.getD (sc.queue.length - 65535) 0 -
        u32 sc.lastStepClock)) sc
    else .ok sc) = flushed at hok
  cases flushed with
  | error fault => cases hok
  | ok sc1 =>
    obtain ⟨ts1, hadv, hsdir, hnext⟩ : ∃ ts1, Advances b sc [] sc1 ts1 ∧ sc1.sdir = sc.sdir ∧
        sc1.nextStepClock = sc.nextStepClock := by
      split at hflush
      · obtain ⟨ts1, hadv, hsdir, hnext, -⟩ := queueFlush_advances h hflush
        exact ⟨ts1, hadv, hsdir, hnext⟩
      · cases hflush
        exact ⟨ts, .refl h, rfl, rfl⟩
    have hlater := hadv.later
    refine Takes.of_advances hadv ?_
    obtain ⟨pos, cap, hmake⟩ := queueMakeRoom_frame sc1
    change (queuePut sc1.nextStepClock (queueMakeRoom sc1)).map _ = Except.ok sc' at hok
    rw [hmake] at hok
    cases hput : queuePut sc1.nextStepClock { sc1 with pos := pos, cap := cap } with
    | error fault =>
      rw [hput] at hok
      cases hok
    | ok sc2 =>
      rw [hput, queuePut_ok hput, hnext, hclock] at hok
      cases hok
      have hd1 : sc1.sdir = some sc1.nextStepDir := by
        rw [hsdir, hadv.nextStepDir]
        exact hd
      exact ⟨_, hadv.near.put hd1 (by omega) pos cap, rfl⟩

/-- `queue_append`, when it returns. -/
theorem queueAppend_takes {sc' : StepCompress} (h : Near b sc ts) (hclock : sc.nextStepClock = b)
    (hb : b < uint64Max) (hok : queueAppend sc = .ok sc') : Takes b sc sc' := by
  unfold queueAppend at hok
  cases hset : setNextStepDir sc.nextStepDir sc with
  | error fault =>
    rw [hset] at hok
    cases hok
  | ok sc1 =>
    rw [hset] at hok
    obtain ⟨ts1, hadv, hsdir, hnext⟩ := setNextStepDir_advances h hb hset
    rw [← hadv.nextStepDir] at hsdir
    rw [hclock] at hnext
    change (if sc1.nextStepClock ≥ sc1.lastStepClock + clockDiffMax then _ else _) =
      Except.ok sc' at hok
    refine Takes.of_advances hadv ?_
    split at hok
    · exact queueAppendFar_takes hadv.near hnext hsdir hok
    · split at hok
      · exact queueAppendExtend_takes hadv.near hnext hsdir (by omega) hok
      · cases hput : queuePut sc1.nextStepClock sc1 with
        | error fault =>
          rw [hput] at hok
          cases hok
        | ok sc2 =>
          rw [hput, queuePut_ok hput, hnext] at hok
          cases hok
          exact ⟨_, hadv.near.put hsdir (by omega) sc1.pos sc1.cap, rfl⟩

end Flush

/-! ## Calls -/

/-- The direction of the step that is pending. -/
def pendingDirs (sc : StepCompress) : List Bool :=
  if sc.nextStepClock = 0 then [] else [sc.nextStepDir]

/-- An object whose last append was at the clock `b`. -/
structure Paced (b : Int) (sc : StepCompress) : Prop where
  near : ∃ ts, Near b sc ts
  clock : b + clockDiffMax ≤ uint64Max
  pending : sc.nextStepClock ≠ 0 → sc.nextStepClock = b

/-- What a call does that is given no step: some of the steps that the object holds are emitted. -/
structure Settles (b : Int) (sc sc' : StepCompress) : Prop where
  paced : Paced b sc'
  emits : ∃ dirs, Emits sc sc' dirs ∧
    dirs ++ (queuedDirs sc' ++ pendingDirs sc') = queuedDirs sc ++ pendingDirs sc

theorem Settles.refl {b : Int} {sc : StepCompress} (h : Paced b sc) : Settles b sc sc :=
  ⟨h, [], .still .refl rfl rfl rfl rfl, rfl⟩

theorem Settles.trans {b : Int} {sc sc' sc'' : StepCompress} (h : Settles b sc sc')
    (h' : Settles b sc' sc'') : Settles b sc sc'' := by
  obtain ⟨dirs, hemits, heq⟩ := h.emits
  obtain ⟨dirs', hemits', heq'⟩ := h'.emits
  refine ⟨h'.paced, dirs ++ dirs', hemits.trans hemits', ?_⟩
  rw [List.append_assoc, heq', heq]

namespace Paced

variable {b : Int} {sc sc' : StepCompress}

theorem bound (h : Paced b sc) : b < uint64Max := by
  have hclock := h.clock
  unfold clockDiffMax at hclock
  omega

theorem takes (h : Paced b sc) (hpend : sc.nextStepClock ≠ 0) (hok : queueAppend sc = .ok sc') :
    Settles b sc sc' ∧ sc'.nextStepClock = 0 := by
  obtain ⟨ts, hnear⟩ := h.near
  obtain ⟨ts', hadv, hnone⟩ := queueAppend_takes hnear (h.pending hpend) h.bound hok
  obtain ⟨dirs, hemits, hq⟩ := hadv.emits
  refine ⟨⟨⟨⟨ts', hadv.near⟩, h.clock, fun hne => absurd hnone hne⟩, dirs, hemits, ?_⟩, hnone⟩
  unfold pendingDirs
  rw [if_neg hpend, if_pos hnone, List.append_nil, hq]

theorem flushes {moveClock : Int} (h : Paced b sc) (hok : queueFlush moveClock sc = .ok sc') :
    Settles b sc sc' := by
  obtain ⟨ts, hnear⟩ := h.near
  obtain ⟨ts', hadv, -, hnext, -⟩ := queueFlush_advances hnear hok
  obtain ⟨dirs, hemits, hq⟩ := hadv.emits
  refine ⟨⟨⟨ts', hadv.near⟩, h.clock, ?_⟩, dirs, hemits, ?_⟩
  · rw [hnext]
    exact h.pending
  · rw [List.append_nil] at hq
    unfold pendingDirs
    rw [hnext, hadv.nextStepDir, ← List.append_assoc, hq]

theorem commit (h : Paced b sc) (hok : stepcompressCommit sc = .ok sc') :
    Settles b sc sc' ∧ sc'.nextStepClock = 0 := by
  unfold stepcompressCommit at hok
  split at hok
  · rename_i hpend
    exact h.takes hpend hok
  · rename_i hnone
    cases hok
    exact ⟨.refl h, not_not.mp hnone⟩

theorem flush {moveClock : Int} (h : Paced b sc) (hok : stepcompressFlush moveClock sc = .ok sc') :
    Settles b sc sc' := by
  unfold stepcompressFlush at hok
  dsimp only at hok
  split at hok
  · rename_i hdue
    cases htake : queueAppend sc with
    | error fault =>
      rw [htake] at hok
      cases hok
    | ok sc1 =>
      rw [htake] at hok
      obtain ⟨hsettles, -⟩ := h.takes hdue.1 htake
      exact hsettles.trans (hsettles.paced.flushes hok)
  · exact h.flushes hok

theorem later {clock : Int} (h : Paced b sc) (hlater : b ≤ clock)
    (hclock : clock + clockDiffMax ≤ uint64Max) (next : Int) (dir : Bool)
    (hnext : next ≠ 0 → next = clock) :
    Paced clock { sc with nextStepClock := next, nextStepDir := dir } := by
  obtain ⟨ts, hnear⟩ := h.near
  exact ⟨⟨ts, hnear.queue, hnear.sorted, hnear.near,
    fun t ht => (hnear.bounded t ht).trans hlater, hnear.known⟩, hclock, hnext⟩

/-- An append either takes the pending step back, or settles it and leaves the new one pending. -/
theorem append {sdir : Bool} {clock : Int} (h : Paced b sc) (hlater : b ≤ clock)
    (hclock : clock + clockDiffMax ≤ uint64Max)
    (hok : stepcompressAppend sdir clock sc = .ok sc') :
    Paced clock sc' ∧
      ((rollsBack sdir clock sc = true ∧
          sc' = { sc with nextStepClock := 0, nextStepDir := sdir }) ∨
        (rollsBack sdir clock sc = false ∧ ∃ sc1, Settles b sc sc1 ∧ sc1.nextStepClock = 0 ∧
          sc' = { sc1 with nextStepClock := clock, nextStepDir := sdir })) := by
  unfold stepcompressAppend at hok
  split at hok
  · rename_i hback
    cases hok
    exact ⟨h.later hlater hclock 0 sdir fun hne => absurd rfl hne, Or.inl ⟨hback, rfl⟩⟩
  · rename_i hkeep
    change (stepcompressCommit sc).map _ = _ at hok
    cases hcommit : stepcompressCommit sc with
    | error fault =>
      rw [hcommit] at hok
      cases hok
    | ok sc1 =>
      rw [hcommit] at hok
      cases hok
      obtain ⟨hsettles, hnone⟩ := h.commit hcommit
      exact ⟨hsettles.paced.later hlater hclock clock sdir fun _ => rfl,
        Or.inr ⟨Bool.not_eq_true _ ▸ hkeep, sc1, hsettles, hnone, rfl⟩⟩

end Paced

theorem Paced.start {sc : StepCompress} (hqueue : sc.queue = []) (hnone : sc.nextStepClock = 0)
    (hclock : sc.lastStepClock + clockDiffMax ≤ uint64Max) :
    Paced sc.lastStepClock sc ∧ queuedDirs sc ++ pendingDirs sc = [] := by
  refine ⟨⟨⟨[], hqueue, List.pairwise_singleton _ _, ?_, ?_, fun hne => absurd rfl hne⟩, hclock,
    fun hne => absurd hnone hne⟩, ?_⟩
  · intro t ht
    cases ht
  · intro t ht
    rw [List.mem_singleton.mp ht]
  · unfold queuedDirs pendingDirs
    rw [hqueue, if_pos hnone]
    rfl

/-! ## Runs -/

/-- An object, the directions of all steps appended to it, those of the steps that the filter has
not taken back, and the clock of the last append. -/
structure PositionWorld where
  sc : StepCompress
  appended : List Bool
  kept : List Bool
  lastClock : Int
  deriving DecidableEq, Repr

namespace PositionWorld

def init (sc : StepCompress) : PositionWorld where
  sc := sc
  appended := []
  kept := []
  lastClock := sc.lastStepClock

/-- One call. -/
def next (w : PositionWorld) : StepOp → Except StepFault PositionWorld
  | .append sdir stepClock =>
      (stepcompressAppend sdir stepClock w.sc).map fun sc =>
        { sc := sc
          appended := w.appended ++ [sdir]
          kept := if rollsBack sdir stepClock w.sc then w.kept.dropLast else w.kept ++ [sdir]
          lastClock := stepClock }
  | .commit => (stepcompressCommit w.sc).map fun sc => { w with sc := sc }
  | .flush moveClock => (stepcompressFlush moveClock w.sc).map fun sc => { w with sc := sc }

/-- Clocks do not decrease, are not 0 and have 64 bits. -/
def allowed (w : PositionWorld) : StepOp → Prop
  | .append _ stepClock =>
      w.lastClock ≤ stepClock ∧ stepClock ≠ 0 ∧ stepClock + clockDiffMax ≤ uint64Max
  | _ => True

instance (w : PositionWorld) : (op : StepOp) → Decidable (w.allowed op)
  | .append _ _ => inferInstanceAs (Decidable (_ ∧ _))
  | .commit | .flush _ => inferInstanceAs (Decidable True)

end PositionWorld

/-- Runs of calls that return 0. -/
def PositionRun : PositionWorld → List StepOp → PositionWorld → Prop :=
  Run fun w op w' => w.allowed op ∧ w.next op = .ok w'

/-- The invariant of runs. -/
structure Positioned (start : StepCompress) (w : PositionWorld) : Prop where
  paced : Paced w.lastClock w.sc
  emits : ∃ dirs, Emits start w.sc dirs ∧ w.kept = dirs ++ (queuedDirs w.sc ++ pendingDirs w.sc)
  net : netSteps w.kept = netSteps w.appended

namespace Positioned

variable {start : StepCompress} {w : PositionWorld}

theorem init (hqueue : start.queue = []) (hnone : start.nextStepClock = 0)
    (hclock : start.lastStepClock + clockDiffMax ≤ uint64Max) :
    Positioned start (.init start) := by
  obtain ⟨hpaced, hheld⟩ := Paced.start hqueue hnone hclock
  refine ⟨hpaced, ⟨[], .still .refl rfl rfl rfl rfl, ?_⟩, rfl⟩
  exact (List.nil_append _ ▸ hheld).symm

theorem settles {sc' : StepCompress} (h : Positioned start w)
    (hsettles : Settles w.lastClock w.sc sc') : Positioned start { w with sc := sc' } := by
  obtain ⟨dirs, hemits, hkept⟩ := h.emits
  obtain ⟨dirs', hemits', hheld⟩ := hsettles.emits
  refine ⟨hsettles.paced, ⟨dirs ++ dirs', hemits.trans hemits', ?_⟩, h.net⟩
  rw [List.append_assoc, hheld]
  exact hkept

theorem pend {clock : Int} {sdir : Bool} (h : Positioned start w)
    (hpaced : Paced clock { w.sc with nextStepClock := clock, nextStepDir := sdir })
    (hnone : w.sc.nextStepClock = 0) (hsome : clock ≠ 0) :
    Positioned start
      { sc := { w.sc with nextStepClock := clock, nextStepDir := sdir }
        appended := w.appended ++ [sdir]
        kept := w.kept ++ [sdir]
        lastClock := clock } where
  paced := hpaced
  emits := by
    obtain ⟨dirs, hemits, hkept⟩ := h.emits
    refine ⟨dirs, ⟨hemits.position, hemits.invertSdir, hemits.messages⟩, ?_⟩
    unfold pendingDirs at hkept ⊢
    rw [if_pos hnone, List.append_nil] at hkept
    dsimp only
    rw [if_neg hsome, hkept, List.append_assoc]
    rfl
  net := by
    show netSteps (w.kept ++ [sdir]) = netSteps (w.appended ++ [sdir])
    rw [netSteps_append, netSteps_append, h.net]

/-- The filter takes the pending step back, and the new step with it. -/
theorem rollback {sdir : Bool} {clock : Int} (h : Positioned start w)
    (hpaced : Paced clock { w.sc with nextStepClock := 0, nextStepDir := sdir })
    (hback : rollsBack sdir clock w.sc = true) :
    Positioned start
      { sc := { w.sc with nextStepClock := 0, nextStepDir := sdir }
        appended := w.appended ++ [sdir]
        kept := w.kept.dropLast
        lastClock := clock } := by
  unfold rollsBack at hback
  rw [Bool.and_eq_true, Bool.and_eq_true, bne_iff_ne, bne_iff_ne] at hback
  obtain ⟨⟨hpend, hturn⟩, -⟩ := hback
  obtain ⟨dirs, hemits, hkept⟩ := h.emits
  have hnet := h.net
  unfold pendingDirs at hkept
  rw [if_neg hpend, ← List.append_assoc] at hkept
  have hdrop : w.kept.dropLast = dirs ++ queuedDirs w.sc := by
    rw [hkept, List.dropLast_concat]
  have hpair : netSteps [sdir] + netSteps [w.sc.nextStepDir] = 0 := by
    cases sdir <;> cases hdir : w.sc.nextStepDir <;> simp_all [netSteps]
  refine ⟨hpaced, ⟨dirs, ⟨hemits.position, hemits.invertSdir, hemits.messages⟩, ?_⟩, ?_⟩
  · show w.kept.dropLast = dirs ++ (queuedDirs w.sc ++ [])
    rw [hdrop, List.append_nil]
  · show netSteps w.kept.dropLast = netSteps (w.appended ++ [sdir])
    rw [hkept, netSteps_append] at hnet
    rw [hdrop, netSteps_append w.appended, ← hnet]
    omega

/-- One call. -/
theorem next {op : StepOp} {w' : PositionWorld} (h : Positioned start w)
    (hallowed : w.allowed op) (hok : w.next op = .ok w') : Positioned start w' := by
  cases op with
  | append sdir stepClock =>
    obtain ⟨hlater, hsome, hclock⟩ := hallowed
    change (stepcompressAppend sdir stepClock w.sc).map _ = _ at hok
    cases hcall : stepcompressAppend sdir stepClock w.sc with
    | error fault =>
      rw [hcall] at hok
      cases hok
    | ok sc' =>
      rw [hcall] at hok
      cases hok
      obtain ⟨hpaced, ⟨hback, rfl⟩ | ⟨hkeep, sc1, hsettles, hnone, rfl⟩⟩ :=
        h.paced.append hlater hclock hcall
      · dsimp only
        rw [hback, if_pos rfl]
        exact h.rollback hpaced hback
      · dsimp only
        rw [hkeep, if_neg Bool.false_ne_true]
        exact (h.settles hsettles).pend hpaced hnone hsome
  | commit =>
    change (stepcompressCommit w.sc).map _ = _ at hok
    cases hcall : stepcompressCommit w.sc with
    | error fault =>
      rw [hcall] at hok
      cases hok
    | ok sc' =>
      rw [hcall] at hok
      cases hok
      exact h.settles (h.paced.commit hcall).1
  | flush moveClock =>
    change (stepcompressFlush moveClock w.sc).map _ = _ at hok
    cases hcall : stepcompressFlush moveClock w.sc with
    | error fault =>
      rw [hcall] at hok
      cases hok
    | ok sc' =>
      rw [hcall] at hok
      cases hok
      exact h.settles (h.paced.flush hcall)

end Positioned

/-- The direction of an append. -/
def StepOp.sdir? : StepOp → Option Bool
  | .append sdir _ => some sdir
  | .commit | .flush _ => none

theorem PositionWorld.next_appended {w w' : PositionWorld} {op : StepOp}
    (hok : w.next op = .ok w') : w'.appended = w.appended ++ op.sdir?.toList := by
  have hmap : ∀ {r : Except StepFault StepCompress} {f : StepCompress → PositionWorld},
      r.map f = .ok w' → ∃ sc, f sc = w' := by
    intro r f hr
    cases r with
    | error fault => cases hr
    | ok sc => exact ⟨sc, Except.ok.inj hr⟩
  cases op with
  | append sdir stepClock =>
    obtain ⟨sc, rfl⟩ := hmap hok
    rfl
  | commit =>
    obtain ⟨sc, rfl⟩ := hmap hok
    exact (List.append_nil _).symm
  | flush moveClock =>
    obtain ⟨sc, rfl⟩ := hmap hok
    exact (List.append_nil _).symm

theorem PositionRun.appended_eq {w w' : PositionWorld} {ops : List StepOp}
    (h : PositionRun w ops w') : w'.appended = w.appended ++ ops.filterMap StepOp.sdir? := by
  induction h with
  | nil => exact (List.append_nil _).symm
  | @snoc t u es op _ hstep ih =>
    have hone : [op].filterMap StepOp.sdir? = op.sdir?.toList := by
      cases op <;> rfl
    rw [PositionWorld.next_appended hstep.2, ih, List.filterMap_append, hone, List.append_assoc]

/-- The step+dir+step filter keeps the position.  After every run the last position, the steps on
the queue and the pending step make up the position at the start and all the appends; and the
messages of the run make exactly the steps that were kept and are not queued or pending any more,
in their order, each after the `set_next_step_dir` of its direction. -/
theorem stepPosition_kept {sc : StepCompress} {ops : List StepOp} {w : PositionWorld}
    (hqueue : sc.queue = []) (hnone : sc.nextStepClock = 0)
    (hclock : sc.lastStepClock + clockDiffMax ≤ uint64Max)
    (hrun : PositionRun (.init sc) ops w) :
    w.sc.lastPosition + netSteps (queuedDirs w.sc) + netSteps (pendingDirs w.sc) =
        sc.lastPosition + netSteps (ops.filterMap StepOp.sdir?) ∧
      ∃ dirs messages, w.kept = dirs ++ queuedDirs w.sc ++ pendingDirs w.sc ∧
        w.sc.msgQueue = sc.msgQueue ++ messages ∧
        stepDirs (pinDir sc) messages = dirs.map fun dir => some (dir != sc.invertSdir) := by
  have h : Positioned sc w := by
    refine hrun.invariant (P := Positioned sc) (.init hqueue hnone hclock) ?_
    intro w op w' h hstep
    exact h.next hstep.1 hstep.2
  obtain ⟨dirs, hemits, hkept⟩ := h.emits
  obtain ⟨messages, hq, hdirs, -⟩ := hemits.messages
  have happended := hrun.appended_eq
  have hnet := h.net
  rw [← List.append_assoc] at hkept
  refine ⟨?_, dirs, messages, hkept, hq, hdirs⟩
  rw [happended, hkept, netSteps_append, netSteps_append] at hnet
  change _ = netSteps (ops.filterMap StepOp.sdir?) at hnet
  rw [hemits.position, ← hnet]
  ring

/-- A run in which the filter takes a step back, a step is emitted and another one is pending. -/
theorem stepPosition_kept_turning :
    ∃ w dirs messages,
      PositionRun (.init (.alloc 25 240 0)) [.append true 1500, .append true 1900,
        .append false 2000, .commit, .append false 2600, .flush 2300] w ∧
      w.sc.lastPosition + netSteps (queuedDirs w.sc) + netSteps (pendingDirs w.sc) =
        0 + netSteps [true, true, false, false] ∧
      w.kept = [true, false] ∧ w.sc.lastPosition = 1 ∧
      w.kept = dirs ++ queuedDirs w.sc ++ pendingDirs w.sc ∧
      w.sc.msgQueue = [] ++ messages ∧
      stepDirs none messages = dirs.map fun dir => some (dir != false) := by
  obtain ⟨w, hrun, hw⟩ := Run.exists_of_calls (f := PositionWorld.next)
    (C := PositionWorld.allowed)
    (P := fun w => decide (w.kept = [true, false] ∧ w.sc.lastPosition = 1))
    (s := .init (.alloc 25 240 0))
    (l := [.append true 1500, .append true 1900, .append false 2000, .commit, .append false 2600,
      .flush 2300]) (by decide +kernel)
  obtain ⟨hposition, dirs, messages, hkept⟩ :=
    stepPosition_kept rfl rfl (by decide) hrun
  obtain ⟨hk, hl⟩ := of_decide_eq_true hw
  exact ⟨w, dirs, messages, hrun, hposition, hk, hl, hkept⟩

end FlsunT1.Chelper
