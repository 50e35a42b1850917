/-
  Chelper/TrapQ.lean --- the trapezoid velocity movement queue.

  Source: klipper/klippy/chelper/trapq.c (trapq_alloc, trapq_check_sentinels, trapq_add_move).
  Times are numbers of an ordered field.  The head sentinel is a move of zeros that nothing
  changes; the queue is the list of the moves between the sentinels and the tail sentinel.
-/
import FlsunT1.Library.Space
import FlsunT1.Library.Spans

set_option autoImplicit false

namespace FlsunT1.Chelper

open FlsunT1.Library

/-! ## Data -/

/-- `struct move` -/
structure Move (K : Type) where
  printTime : K
  moveT : K
  startV : K
  halfAccel : K
  startPos : Vec3 K
  axesR : Vec3 K

/-- `struct trapq` without its history. -/
structure TrapQ (K : Type) where
  moves : List (Move K)
  tailSentinel : Move K

section TrapQ

variable {K : Type} [Field K] [LinearOrder K]

/-- `m->print_time + m->move_t` -/
def Move.moveEnd (m : Move K) : K := m.printTime + m.moveT

/-- `move_alloc` -/
def moveAlloc : Move K where
  printTime := 0
  moveT := 0
  startV := 0
  halfAccel := 0
  startPos := ⟨0, 0, 0⟩
  axesR := ⟨0, 0, 0⟩

/-- `move_get_distance` -/
def moveGetDistance (m : Move K) (moveTime : K) : K :=
  (m.startV + m.halfAccel * moveTime) * moveTime

/-- `move_get_coord` -/
def moveGetCoord (m : Move K) (moveTime : K) : Vec3 K :=
  m.startPos.add (m.axesR.mul (moveGetDistance m moveTime))

/-- `trapq_alloc`, where `never` is `NEVER_TIME`. -/
def trapqAlloc (never : K) : TrapQ K where
  moves := []
  tailSentinel := { moveAlloc with printTime := never, moveT := never }

/-- The list with its sentinels. -/
def TrapQ.entries (tq : TrapQ K) : List (Move K) := moveAlloc :: tq.moves ++ [tq.tailSentinel]

/-- `trapq_check_sentinels`: update the list sentinels. -/
def trapqCheckSentinels (never : K) (tq : TrapQ K) : TrapQ K :=
  if tq.tailSentinel.printTime ≠ 0 then tq
  else
    match tq.moves.getLast? with
    | none => { tq with tailSentinel := { tq.tailSentinel with printTime := never } }
    | some m =>
        { tq with
          tailSentinel := { tq.tailSentinel with
            printTime := m.moveEnd
            startPos := moveGetCoord m m.moveT } }

/-- `MAX_NULL_MOVE` -/
def maxNullMove : K := 1

/-- The null move that fills a gap of time before `m`. -/
def nullMove (prev m : Move K) : Move K :=
  let printTime :=
    -- limit the first null move to improve numerical stability
    if prev.printTime = 0 ∧ m.printTime > maxNullMove then m.printTime - maxNullMove
    else prev.moveEnd
  { moveAlloc with
    startPos := m.startPos
    printTime := printTime
    moveT := m.printTime - printTime }

/-- `trapq_add_move` -/
def trapqAddMove (m : Move K) (tq : TrapQ K) : TrapQ K :=
  let prev := tq.moves.getLast?.getD moveAlloc
  let filled := if prev.moveEnd < m.printTime then tq.moves ++ [nullMove prev m] else tq.moves
  { moves := filled ++ [m], tailSentinel := { tq.tailSentinel with printTime := 0 } }

/-! ## Contiguous queues -/

/-- The end of the last move; without moves the tail sentinel never starts. -/
def TrapQ.lastEnd (never : K) (tq : TrapQ K) : K :=
  (tq.moves.getLast?.map Move.moveEnd).getD never

/-- A queue as `trapq_add_move` fills it: each move starts where the one before it ends, and the tail
sentinel starts at the end of the last one, unless it is not up to date. -/
structure TrapQ.Contiguous (never : K) (tq : TrapQ K) : Prop where
  chain : tq.moves.IsChain fun a b => a.moveEnd = b.printTime
  times : ∀ m ∈ tq.moves, 0 ≤ m.printTime ∧ 0 < m.moveT
  last : ∀ m, tq.moves.getLast? = some m → 0 < m.printTime
  tail : tq.tailSentinel.axesR = ⟨0, 0, 0⟩ ∧ tq.tailSentinel.moveT = never
  updated : tq.tailSentinel.printTime = 0 ∨ tq.tailSentinel.printTime = tq.lastEnd never

theorem TrapQ.contiguous_alloc (never : K) : (trapqAlloc never).Contiguous never where
  chain := List.isChain_nil
  times := fun _ hm => absurd hm List.not_mem_nil
  last := fun _ hm => by cases hm
  tail := ⟨rfl, rfl⟩
  updated := Or.inr rfl

/-- After `trapq_check_sentinels` the tail sentinel is in its place. -/
theorem TrapQ.Contiguous.check {never : K} {tq : TrapQ K} (h : tq.Contiguous never) :
    (trapqCheckSentinels never tq).Contiguous never ∧
      (trapqCheckSentinels never tq).moves = tq.moves ∧
      (trapqCheckSentinels never tq).tailSentinel.printTime =
        (trapqCheckSentinels never tq).lastEnd never := by
  unfold trapqCheckSentinels
  split
  · rename_i hset
    exact ⟨h, rfl, h.updated.resolve_left hset⟩
  · split
    · rename_i hnone
      have hend : tq.lastEnd never = never := by
        unfold TrapQ.lastEnd
        rw [hnone]
        rfl
      exact ⟨⟨h.chain, h.times, h.last, h.tail, Or.inr hend.symm⟩, rfl, hend.symm⟩
    · rename_i m hm
      have hend : tq.lastEnd never = m.moveEnd := by
        unfold TrapQ.lastEnd
        rw [hm]
        rfl
      exact ⟨⟨h.chain, h.times, h.last, h.tail, Or.inr hend.symm⟩, rfl, hend.symm⟩

theorem TrapQ.Contiguous.chain_tail {never : K} {tq : TrapQ K} (h : tq.Contiguous never)
    (htail : tq.tailSentinel.printTime = tq.lastEnd never) :
    (tq.moves ++ [tq.tailSentinel]).IsChain fun a b => a.moveEnd = b.printTime := by
  refine List.isChain_append.mpr ⟨h.chain, List.isChain_singleton _, ?_⟩
  intro x hx y hy
  rw [List.head?_cons, Option.mem_some_iff] at hy
  rw [← hy, htail]
  unfold TrapQ.lastEnd
  rw [Option.mem_def] at hx
  rw [hx]
  rfl

theorem moveEnd_nullMove (prev m : Move K) : (nullMove prev m).moveEnd = m.printTime := by
  unfold nullMove Move.moveEnd
  dsimp only
  ring

theorem printTime_nullMove {prev : Move K} (m : Move K) (hprev : prev.printTime ≠ 0) :
    (nullMove prev m).printTime = prev.moveEnd := by
  unfold nullMove
  dsimp only
  rw [if_neg fun h => hprev h.1]

/-- What `trapq_add_move` puts before `m`. -/
def filler (m : Move K) (tq : TrapQ K) : List (Move K) :=
  let prev := tq.moves.getLast?.getD moveAlloc
  if prev.moveEnd < m.printTime then [nullMove prev m] else []

theorem trapqAddMove_moves (m : Move K) (tq : TrapQ K) :
    (trapqAddMove m tq).moves = tq.moves ++ (filler m tq ++ [m]) := by
  unfold trapqAddMove filler
  dsimp only
  split
  · rw [List.append_assoc]
  · rfl

theorem TrapQ.Contiguous.times_tail {never : K} {tq : TrapQ K} [IsStrictOrderedRing K]
    (h : tq.Contiguous never) (hnever : 0 < never)
    (htail : tq.tailSentinel.printTime = tq.lastEnd never) :
    ∀ m ∈ tq.moves ++ [tq.tailSentinel], 0 ≤ m.printTime ∧ 0 < m.moveT := by
  intro m hm
  rcases List.mem_append.mp hm with hm | hm
  · exact h.times m hm
  · rw [List.mem_singleton.mp hm, htail, h.tail.2]
    refine ⟨?_, hnever⟩
    unfold TrapQ.lastEnd
    cases hlast : tq.moves.getLast? with
    | none => exact hnever.le
    | some prev =>
      obtain ⟨h1, h2⟩ := h.times prev (List.mem_of_getLast? hlast)
      exact add_nonneg h1 h2.le

theorem mem_filler {m x : Move K} {tq : TrapQ K} (hx : x ∈ filler m tq) :
    (tq.moves.getLast?.getD moveAlloc).moveEnd < m.printTime ∧
      x = nullMove (tq.moves.getLast?.getD moveAlloc) m := by
  unfold filler at hx
  dsimp only at hx
  split at hx
  · rename_i hgap
    exact ⟨hgap, List.mem_singleton.mp hx⟩
  · cases hx

theorem chain_filler (m : Move K) (tq : TrapQ K) :
    (filler m tq ++ [m]).IsChain fun a b => a.moveEnd = b.printTime := by
  unfold filler
  dsimp only
  split
  · refine List.isChain_cons_cons.mpr ⟨moveEnd_nullMove _ m, List.isChain_singleton _⟩
  · exact List.isChain_singleton _

theorem head?_filler {m x prev : Move K} {tq : TrapQ K} (hlast : tq.moves.getLast? = some prev)
    (hprev : prev.printTime ≠ 0) (hafter : prev.moveEnd ≤ m.printTime)
    (hx : (filler m tq ++ [m]).head? = some x) : prev.moveEnd = x.printTime := by
  unfold filler at hx
  rw [hlast] at hx
  dsimp only [Option.getD_some] at hx
  split at hx
  · cases hx
    exact (printTime_nullMove m hprev).symm
  · rename_i hgap
    cases hx
    exact le_antisymm hafter (not_lt.mp hgap)

theorem times_nullMove [IsStrictOrderedRing K] {prev m : Move K} (hprev : 0 ≤ prev.moveEnd)
    (hgap : prev.moveEnd < m.printTime) :
    0 ≤ (nullMove prev m).printTime ∧ 0 < (nullMove prev m).moveT := by
  have hmax : (0 : K) < maxNullMove := zero_lt_one
  unfold nullMove
  dsimp only
  split
  · rename_i hfar
    constructor
    · linarith [hfar.2]
    · linarith
  · constructor
    · exact hprev
    · linarith

/-- A move that starts after the queue keeps it contiguous. -/
theorem TrapQ.Contiguous.add [IsStrictOrderedRing K] {never : K} {tq : TrapQ K} {m : Move K}
    (h : tq.Contiguous never)
    (hafter : (tq.moves.getLast?.getD moveAlloc).moveEnd ≤ m.printTime) (hpos : 0 < m.printTime)
    (hmove : 0 < m.moveT) : (trapqAddMove m tq).Contiguous never where
  chain := by
    rw [trapqAddMove_moves]
    refine List.isChain_append.mpr ⟨h.chain, chain_filler m tq, ?_⟩
    intro prev hprev x hx
    rw [Option.mem_def] at hprev hx
    rw [hprev, Option.getD_some] at hafter
    exact head?_filler hprev (h.last prev hprev).ne' hafter hx
  times := by
    rw [trapqAddMove_moves]
    intro x hx
    have hprev : 0 ≤ (tq.moves.getLast?.getD moveAlloc).moveEnd := by
      cases hlast : tq.moves.getLast? with
      | none => exact (add_zero (0 : K)).ge
      | some prev =>
        obtain ⟨h1, h2⟩ := h.times prev (List.mem_of_getLast? hlast)
        exact add_nonneg h1 h2.le
    rcases List.mem_append.mp hx with hx | hx
    · exact h.times x hx
    · rcases List.mem_append.mp hx with hx | hx
      · obtain ⟨hgap, rfl⟩ := mem_filler hx
        exact times_nullMove hprev hgap
      · rw [List.mem_singleton.mp hx]
        exact ⟨hpos.le, hmove⟩
  last := by
    rw [trapqAddMove_moves]
    intro x hx
    rw [← List.append_assoc, List.getLast?_concat, Option.some.injEq] at hx
    rw [← hx]
    exact hpos
  tail := h.tail
  updated := Or.inl rfl

/-! ## The null move before the first move -/

/-- The queue starts with a null move, from time zero or from `MAX_NULL_MOVE` before the first move
at the latest. -/
def TrapQ.Led (tq : TrapQ K) : Prop :=
  tq.moves = [] ∨ ∃ lead rest, tq.moves = lead :: rest ∧ rest ≠ [] ∧ lead.axesR = ⟨0, 0, 0⟩ ∧
    ∀ m ∈ rest, lead.printTime ≤ max 0 (m.printTime - maxNullMove)

theorem TrapQ.led_alloc (never : K) : (trapqAlloc never).Led := Or.inl rfl

theorem filler_of_nil {m : Move K} {tq : TrapQ K} (hnil : tq.moves = []) (hpos : 0 < m.printTime) :
    filler m tq = [nullMove moveAlloc m] := by
  unfold filler
  rw [hnil]
  dsimp only [List.getLast?_nil, Option.getD_none]
  refine if_pos ?_
  unfold Move.moveEnd moveAlloc
  rwa [add_zero]

theorem printTime_leadMove [IsStrictOrderedRing K] (m : Move K) :
    (nullMove moveAlloc m).printTime = max 0 (m.printTime - maxNullMove) := by
  unfold nullMove Move.moveEnd moveAlloc
  dsimp only
  split
  · rename_i hfar
    rw [max_eq_right (by linarith [hfar.2])]
  · rename_i hnear
    have hle : m.printTime ≤ maxNullMove := by
      by_contra hgt
      exact hnear ⟨rfl, not_le.mp hgt⟩
    rw [max_eq_left (by linarith), add_zero]

theorem TrapQ.Led.add [IsStrictOrderedRing K] {never : K} {tq : TrapQ K} {m : Move K}
    (h : tq.Led) (htq : tq.Contiguous never)
    (hafter : (tq.moves.getLast?.getD moveAlloc).moveEnd ≤ m.printTime) (hpos : 0 < m.printTime) :
    (trapqAddMove m tq).Led := by
  unfold TrapQ.Led
  rw [trapqAddMove_moves]
  right
  rcases h with hnil | ⟨lead, rest, hmoves, hne, hstill, hlead⟩
  · rw [hnil, filler_of_nil hnil hpos]
    refine ⟨nullMove moveAlloc m, [m], rfl, List.cons_ne_nil m [], rfl, ?_⟩
    intro x hx
    rw [List.mem_singleton.mp hx, printTime_leadMove]
  · refine ⟨lead, rest ++ (filler m tq ++ [m]), by rw [hmoves, List.cons_append],
      List.append_ne_nil_of_left_ne_nil hne _, hstill, ?_⟩
    obtain ⟨first, prev, rfl⟩ := (List.eq_nil_or_concat' rest).resolve_left hne
    have hlast : tq.moves.getLast? = some prev := by
      rw [hmoves, ← List.cons_append, List.getLast?_concat]
    have hprev := hlead prev (List.mem_append_right _ (List.mem_singleton.mpr rfl))
    have htime : prev.printTime ≤ prev.moveEnd := by
      have htime := (htq.times prev (List.mem_of_getLast? hlast)).2
      unfold Move.moveEnd
      linarith
    rw [hlast, Option.getD_some] at hafter
    -- whatever is added starts after the last move
    have hlater : ∀ x : Move K, prev.moveEnd ≤ x.printTime →
        lead.printTime ≤ max 0 (x.printTime - maxNullMove) := by
      intro x hx
      exact hprev.trans (max_le_max (le_refl 0) (by linarith))
    intro x hx
    rcases List.mem_append.mp hx with hx | hx
    · exact hlead x hx
    · refine hlater x ?_
      rcases List.mem_append.mp hx with hx | hx
      · obtain ⟨-, rfl⟩ := mem_filler hx
        rw [hlast, Option.getD_some]
        exact (printTime_nullMove m (htq.last prev hlast).ne').ge
      · rw [List.mem_singleton.mp hx]
        exact hafter

end TrapQ

end FlsunT1.Chelper
