/-
  Klippy/ToolHeadTimes.lean --- moves are not scheduled into generated time.

  The steps are generated up to the last flush time, or up to `kin_flush_delay` before
  `print_time`; a move that is not finalized ends after the last flush time.
-/
import Mathlib.Data.List.TakeWhile
import Mathlib.Data.Rat.Floor
import Mathlib.Tactic.Linarith
import FlsunT1.Klippy.ToolHead

set_option autoImplicit false

namespace FlsunT1.Klippy

open Library

variable {K : Type} [Field K] [LinearOrder K]

namespace ToolHead

/-! ## Actions -/

/-- What is known of the actions so far. -/
def known (s : ToolHead K) : HeadTrace K := headMonitor.after initTrace s.trace

/-- Each action so far keeps to what it is to keep to. -/
def Sound (s : ToolHead K) : Prop := headMonitor.Accepts initTrace s.trace

theorem known_act (a : HeadAction K) (s : ToolHead K) : (act a s).known = s.known.next a :=
  Monitor.after_append

theorem sound_act {a : HeadAction K} {s : ToolHead K} :
    (act a s).Sound ↔ s.Sound ∧ s.known.Ok a := by
  refine Monitor.accepts_append.trans (and_congr_right fun _ => ?_)
  exact and_iff_left trivial

/-- What holds of a toolhead between its actions: what was assigned is known, and steps are
generated up to the last flush time or up to the delay before the print time. -/
structure Base (s : ToolHead K) : Prop where
  sound : s.Sound
  printTime : s.known.printTime = s.printTime
  kinFlushDelay : s.known.kinFlushDelay = s.kinFlushDelay
  kinFlushDelay_pos : 0 < s.kinFlushDelay
  flushTime : ∀ u, s.known.flushTime = some u →
    u ≤ max s.lastKinFlushTime (s.printTime - s.kinFlushDelay)

/-- A move ends after the last flush time, or its steps are generated at that time. -/
def Apart (s : ToolHead K) (m : Trapezoid K) : Prop :=
  s.lastKinFlushTime < m.endTime ∨ m.endTime + s.kinFlushDelay ≤ s.lastKinFlushTime

/-- What is left alone when time is updated. -/
structure Same (s s' : ToolHead K) : Prop where
  lastKinFlushTime : s'.lastKinFlushTime = s.lastKinFlushTime
  lastKinMoveTime : s'.lastKinMoveTime = s.lastKinMoveTime
  kinFlushDelay : s'.kinFlushDelay = s.kinFlushDelay
  kinFlushTimes : s'.kinFlushTimes = s.kinFlushTimes
  specialQueuingState : s'.specialQueuingState = s.specialQueuingState

theorem Same.refl (s : ToolHead K) : Same s s := ⟨rfl, rfl, rfl, rfl, rfl⟩

theorem Same.trans {s s' s'' : ToolHead K} (h : Same s s') (h' : Same s' s'') : Same s s'' :=
  ⟨h'.1.trans h.1, h'.2.trans h.2, h'.3.trans h.3, h'.4.trans h.4, h'.5.trans h.5⟩

/-- Time goes on: the print time does not decrease, and moves are finalized in their order. -/
structure Advances (s s' : ToolHead K) : Prop where
  base : s'.Base
  same : Same s s'
  printTime : s.printTime ≤ s'.printTime
  moves : s'.known.moves <:+ s.known.moves

/-- The flush times follow the print time. -/
structure Updates (s s' : ToolHead K) : Prop extends Advances s s' where
  flushTime : s'.known.flushTime = some (max s.lastKinFlushTime (s'.printTime - s.kinFlushDelay))
  finalized : (∀ m ∈ s.known.moves, m.endTime ≤ s.lastKinFlushTime) → s'.known.moves = []

theorem Advances.refl {s : ToolHead K} (h : s.Base) : Advances s s :=
  ⟨h, .refl s, le_rfl, List.suffix_rfl⟩

theorem Advances.trans {s s' s'' : ToolHead K} (h : Advances s s') (h' : Advances s' s'') :
    Advances s s'' :=
  ⟨h'.base, h.same.trans h'.same, h.printTime.trans h'.printTime, h'.moves.trans h.moves⟩

theorem Updates.trans {s s' s'' : ToolHead K} (h : Updates s s') (h' : Updates s' s'') :
    Updates s s'' where
  toAdvances := h.toAdvances.trans h'.toAdvances
  flushTime := by rw [h'.flushTime, h.same.lastKinFlushTime, h.same.kinFlushDelay]
  finalized := fun hends => List.suffix_nil.mp (h.finalized hends ▸ h'.moves)

theorem Advances.apart {s s' : ToolHead K} (h : Advances s s')
    (hs : ∀ m ∈ s.known.moves, s.Apart m) : ∀ m ∈ s'.known.moves, s'.Apart m := by
  intro m hm
  rw [Apart, h.same.lastKinFlushTime, h.same.kinFlushDelay]
  exact hs m (h.moves.subset hm)

/-! ## Updating the move time -/

section Update

variable {c : BufferTimes K} {next t : K} {s : ToolHead K}

theorem same_act (a : HeadAction K) (s : ToolHead K) : Same s (act a s) := ⟨rfl, rfl, rfl, rfl, rfl⟩

theorem base_act {a : HeadAction K} (h : s.Base) (hok : s.known.Ok a)
    (hprint : (s.known.next a).printTime = s.known.printTime)
    (hdelay : (s.known.next a).kinFlushDelay = s.known.kinFlushDelay)
    (hflush : ∀ u, (s.known.next a).flushTime = some u →
      u ≤ max s.lastKinFlushTime (s.printTime - s.kinFlushDelay)) : (act a s).Base where
  sound := sound_act.mpr ⟨h.sound, hok⟩
  printTime := by rw [known_act, hprint]; exact h.printTime
  kinFlushDelay := by rw [known_act, hdelay]; exact h.kinFlushDelay
  kinFlushDelay_pos := h.kinFlushDelay_pos
  flushTime := by rw [known_act]; exact hflush

theorem known_setPrintTime :
    (s.setPrintTime t).known =
      ⟨t, s.known.kinFlushDelay, s.known.flushTime, s.known.moves⟩ := known_act _ _

theorem advances_generateSteps (h : s.Base)
    (ht : t = max s.lastKinFlushTime (s.printTime - s.kinFlushDelay)) :
    Advances s (act (.generateSteps t) s) ∧
      (act (.generateSteps t) s).known =
        ⟨s.known.printTime, s.known.kinFlushDelay, some t, s.known.moves⟩ := by
  have hlargest : s.known.flushTime.elim t (max t) = t := by
    cases hu : s.known.flushTime with
    | none => rfl
    | some u => exact max_eq_left (ht ▸ h.flushTime u hu)
  have hknown : s.known.next (.generateSteps t) =
      ⟨s.known.printTime, s.known.kinFlushDelay, some t, s.known.moves⟩ := by
    rw [HeadTrace.next, hlargest]
  refine ⟨⟨base_act h ?_ rfl rfl fun u hu => ?_, same_act _ _, le_rfl, ?_⟩, ?_⟩
  · exact fun u hu => ht ▸ h.flushTime u hu
  · rw [hknown] at hu
    exact (Option.some.inj hu).symm.trans_le ht.le
  · simp only [known_act, hknown, List.suffix_refl]
  · rw [known_act, hknown]

theorem advances_flushMoves (h : s.Base) (ht : s.known.Reaches t) :
    Advances s (act (.flushMoves t) s) ∧ (act (.flushMoves t) s).known = s.known := by
  have hknown : (act (.flushMoves t) s).known = s.known := known_act _ _
  refine ⟨⟨base_act h ht rfl rfl h.flushTime, same_act _ _, le_rfl, ?_⟩, hknown⟩
  simp only [hknown, List.suffix_refl]

variable [IsStrictOrderedRing K]

theorem advances_setPrintTime (h : s.Base) (ht : s.printTime ≤ t) :
    Advances s (s.setPrintTime t) where
  base :=
    { sound := sound_act.mpr ⟨h.sound, h.printTime.trans_le ht⟩
      printTime := congrArg HeadTrace.printTime known_setPrintTime
      kinFlushDelay := (congrArg HeadTrace.kinFlushDelay known_setPrintTime).trans h.kinFlushDelay
      kinFlushDelay_pos := h.kinFlushDelay_pos
      flushTime := fun u hu => by
        rw [known_setPrintTime] at hu
        exact (h.flushTime u hu).trans (max_le_max le_rfl (sub_le_sub_right ht _)) }
  same := ⟨rfl, rfl, rfl, rfl, rfl⟩
  printTime := ht
  moves := by simp only [known_setPrintTime, List.suffix_refl]

theorem advances_finalizeMoves (h : s.Base) (hapart : ∀ m ∈ s.known.moves, s.Apart m) {u : K}
    (hu : s.known.flushTime = some u) (hlkft : s.lastKinFlushTime ≤ u)
    (ht : t = max s.lastKinFlushTime (u - s.kinFlushDelay)) :
    Advances s (act (.trapqFinalizeMoves t) s) ∧
      (act (.trapqFinalizeMoves t) s).known =
        ⟨s.known.printTime, s.known.kinFlushDelay, s.known.flushTime,
          s.known.moves.dropWhile fun m => decide (m.endTime ≤ t)⟩ := by
  refine ⟨⟨base_act h ?_ rfl rfl h.flushTime, same_act _ _, le_rfl, ?_⟩, known_act _ _⟩
  · intro m hm
    have hend : m.endTime ≤ t := by simpa using List.mem_takeWhile_imp hm
    refine ⟨u, hu, ?_⟩
    rw [h.kinFlushDelay]
    rw [ht, le_max_iff] at hend
    rcases hend with hend | hend
    · rcases hapart m (List.takeWhile_subset _ hm) with hlt | hle
      · exact absurd hend (not_le.mpr hlt)
      · exact hle.trans hlkft
    · linarith
  · rw [known_act]
    exact List.dropWhile_suffix _

theorem moveBatchTime_pos : (0 : K) < moveBatchTime := by
  unfold moveBatchTime
  linarith

/-- One pass of the loop gives flush times that follow the print time. -/
theorem updates_updateBatch (h : s.Base) (hapart : ∀ m ∈ s.known.moves, s.Apart m)
    (hnext : s.printTime ≤ next) :
    Updates s (updateBatch c next s) ∧
      (updateBatch c next s).printTime = min (s.printTime + moveBatchTime) next := by
  -- the four actions of the pass, with their times
  obtain ⟨printTime, hprint⟩ : ∃ t, t = min (s.printTime + moveBatchTime) next := ⟨_, rfl⟩
  obtain ⟨sgFlushTime, hsg⟩ : ∃ t, t = max s.lastKinFlushTime (printTime - s.kinFlushDelay) :=
    ⟨_, rfl⟩
  obtain ⟨freeTime, hfree⟩ : ∃ t, t = max s.lastKinFlushTime (sgFlushTime - s.kinFlushDelay) :=
    ⟨_, rfl⟩
  obtain ⟨mcuFlushTime, hmcu⟩ : ∃ t, t = max s.lastKinFlushTime (sgFlushTime - c.moveFlushTime) :=
    ⟨_, rfl⟩
  have hs' : updateBatch c next s = act (.flushMoves mcuFlushTime)
      (act (.trapqFinalizeMoves freeTime) (act (.generateSteps sgFlushTime)
        (s.setPrintTime printTime))) := by
    subst hprint hsg hfree hmcu
    rfl
  have hle : s.printTime ≤ printTime := by
    rw [hprint]
    exact le_min (by linarith [moveBatchTime_pos (K := K)]) hnext
  have hlkft : s.lastKinFlushTime ≤ sgFlushTime := hsg ▸ le_max_left _ _
  have hmcu_le : mcuFlushTime ≤ sgFlushTime :=
    hmcu ▸ max_le hlkft (by linarith [c.moveFlushTime_pos])
  have h₁ := advances_setPrintTime h hle
  obtain ⟨h₂, hknown₂⟩ := advances_generateSteps h₁.base hsg
  rw [known_setPrintTime] at hknown₂
  obtain ⟨h₃, hknown₃⟩ := advances_finalizeMoves h₂.base ((h₁.trans h₂).apart hapart)
    (congrArg HeadTrace.flushTime hknown₂) hlkft hfree
  rw [hknown₂] at hknown₃
  obtain ⟨h₄, hknown₄⟩ := advances_flushMoves h₃.base
    ⟨sgFlushTime, congrArg HeadTrace.flushTime hknown₃, hmcu_le⟩
  rw [hknown₃] at hknown₄
  rw [hs']
  refine ⟨⟨((h₁.trans h₂).trans h₃).trans h₄, ?_, fun hends => ?_⟩, hprint⟩
  · rw [hknown₄, hsg]
    rfl
  · rw [hknown₄]
    refine List.dropWhile_eq_nil_iff.mpr fun m hm => decide_eq_true ?_
    exact (hends m hm).trans (hfree ▸ le_max_left _ _)

/-- The loop ends at the print time that is asked for. -/
theorem updates_updateLoop (n : ℕ) (h : s.Base) (hapart : ∀ m ∈ s.known.moves, s.Apart m)
    (hnext : s.printTime ≤ next) (hn : next - s.printTime ≤ n * moveBatchTime) :
    Updates s (updateLoop c next (n + 1) s) ∧
      (updateLoop c next (n + 1) s).printTime = next := by
  have hbatch := moveBatchTime_pos (K := K)
  induction n generalizing s with
  | zero =>
    obtain ⟨hupdates, hprint⟩ := updates_updateBatch (c := c) h hapart hnext
    rw [Nat.cast_zero, zero_mul] at hn
    rw [min_eq_right (by linarith)] at hprint
    rw [updateLoop, if_pos hprint.ge]
    exact ⟨hupdates, hprint⟩
  | succ n ih =>
    obtain ⟨hupdates, hprint⟩ := updates_updateBatch (c := c) h hapart hnext
    rw [updateLoop]
    by_cases hdone : next ≤ (updateBatch c next s).printTime
    · rw [if_pos hdone]
      exact ⟨hupdates, le_antisymm (hprint.trans_le (min_le_right _ _)) hdone⟩
    · rw [if_neg hdone]
      have hlt := not_le.mp hdone
      have hpass : (updateBatch c next s).printTime = s.printTime + moveBatchTime := by
        rw [hprint] at hlt ⊢
        exact min_eq_left (min_lt_iff.mp hlt |>.resolve_right (lt_irrefl _)).le
      rw [Nat.cast_succ, add_mul, one_mul] at hn
      obtain ⟨hrest, hend⟩ := ih hupdates.base (hupdates.apart hapart) hlt.le (by linarith)
      exact ⟨hupdates.trans hrest, hend⟩

theorem advances_calcPrintTime (est : K) (h : s.Base) :
    Advances s (calcPrintTime c est s) ∧
      (calcPrintTime c est s).known.moves = s.known.moves ∧
      s.lastKinFlushTime + s.kinFlushDelay ≤ (calcPrintTime c est s).printTime := by
  have hkin : s.lastKinFlushTime + s.kinFlushDelay ≤
      max (est + c.bufferTimeStart)
        (max (est + minKinTime) s.lastKinFlushTime + s.kinFlushDelay) :=
    le_max_of_le_right (add_le_add (le_max_right _ _) le_rfl)
  simp only [calcPrintTime]
  split
  · rename_i hlt
    exact ⟨advances_setPrintTime h hlt.le, by rw [known_setPrintTime], hkin⟩
  · rename_i hle
    exact ⟨.refl h, rfl, hkin.trans (not_lt.mp hle)⟩

variable [FloorSemiring K]

theorem updates_updateMoveTime (h : s.Base) (hapart : ∀ m ∈ s.known.moves, s.Apart m)
    (hnext : s.printTime ≤ next) :
    Updates s (updateMoveTime c next s) ∧ (updateMoveTime c next s).printTime = next := by
  refine updates_updateLoop _ h hapart hnext ?_
  rw [← div_le_iff₀ moveBatchTime_pos]
  exact Nat.le_ceil _

end Update

/-! ## Appending moves -/

section Moves

variable [IsStrictOrderedRing K] {s : ToolHead K} {t : K}

theorem endTime_of_mem_part {startTime d : K} {m : Trapezoid K} (hd : 0 ≤ d)
    (hm : m ∈ part startTime d) : startTime < m.endTime ∧ m.endTime = startTime + d := by
  rw [part] at hm
  split at hm
  · exact absurd hm List.not_mem_nil
  · rename_i hne
    obtain rfl := List.mem_singleton.mp hm
    exact ⟨lt_add_of_pos_right _ (lt_of_le_of_ne hd (Ne.symm hne)), rfl⟩

theorem endTime_of_mem_trapqAppend {mv : MoveTimes K} {m : Trapezoid K}
    (hm : m ∈ Klippy.trapqAppend t mv) :
    t < m.endTime ∧ m.endTime ≤ t + mv.accelT + mv.cruiseT + mv.decelT := by
  have ha := mv.accelT_nonneg
  have hc := mv.cruiseT_nonneg
  have hd := mv.decelT_nonneg
  rw [Klippy.trapqAppend, List.mem_append, List.mem_append] at hm
  rcases hm with (hm | hm) | hm
  · obtain ⟨hlt, heq⟩ := endTime_of_mem_part ha hm
    constructor <;> linarith
  · obtain ⟨hlt, heq⟩ := endTime_of_mem_part hc hm
    constructor <;> linarith
  · obtain ⟨hlt, heq⟩ := endTime_of_mem_part hd hm
    constructor <;> linarith

/-- Moves are appended behind what was generated. -/
structure Appends (s s' : ToolHead K) (t t' : K) : Prop where
  base : s'.Base
  same : Same s s'
  printTime : s'.printTime = s.printTime
  le : t ≤ t'
  moves : ∀ m ∈ s'.known.moves, m ∈ s.known.moves ∨ t < m.endTime ∧ m.endTime ≤ t'

theorem appends_appendMoves (moves : List (MoveTimes K)) (h : s.Base)
    (ht : max s.lastKinFlushTime (s.printTime - s.kinFlushDelay) + s.kinFlushDelay ≤ t) :
    Appends s (appendMoves moves t s).1 t (appendMoves moves t s).2 := by
  induction moves generalizing s t with
  | nil => exact ⟨h, .refl s, rfl, le_rfl, fun m hm => .inl hm⟩
  | cons mv moves ih =>
    have hle : t ≤ t + mv.accelT + mv.cruiseT + mv.decelT := by
      linarith [mv.accelT_nonneg, mv.cruiseT_nonneg, mv.decelT_nonneg]
    rw [appendMoves]
    split
    · have hok : s.known.Ok (.trapqAppend t mv) := fun u hu => by
        rw [h.kinFlushDelay]
        exact (add_le_add (h.flushTime u hu) le_rfl).trans ht
      have hbase : (act (.trapqAppend t mv) s).Base := base_act h hok rfl rfl h.flushTime
      obtain ⟨hbase', hsame, hprint, hle', hmoves⟩ := ih hbase (ht.trans hle)
      refine ⟨hbase', (same_act _ s).trans hsame, hprint, hle.trans hle', fun m hm => ?_⟩
      rcases hmoves m hm with hm | ⟨hlt, hend⟩
      · rw [known_act, HeadTrace.next, List.mem_append] at hm
        refine hm.imp_right fun hm => ?_
        obtain ⟨hlt, hend⟩ := endTime_of_mem_trapqAppend hm
        exact ⟨hlt, hend.trans hle'⟩
      · exact .inr ⟨hle.trans_lt hlt, hend⟩
    · obtain ⟨hbase', hsame, hprint, hle', hmoves⟩ := ih h (ht.trans hle)
      refine ⟨hbase', hsame, hprint, hle.trans hle', fun m hm => (hmoves m hm).imp_right ?_⟩
      rintro ⟨hlt, hend⟩
      exact ⟨hle.trans_lt hlt, hend⟩

end Moves

/-! ## Calls -/

section Calls

variable {c : BufferTimes K} {s : ToolHead K}

/-- What holds of the moves, too: those that are not finalized end after the last flush time, before
the last kinematic move time and the print time. -/
structure Core (s : ToolHead K) : Prop extends s.Base where
  moves : ∀ m ∈ s.known.moves,
    s.lastKinFlushTime < m.endTime ∧ m.endTime ≤ s.lastKinMoveTime ∧ m.endTime ≤ s.printTime
  main : s.specialQueuingState = .main → s.lastKinFlushTime + s.kinFlushDelay ≤ s.printTime

/-- What holds between calls. -/
structure Inv (s : ToolHead K) : Prop extends s.Core where
  not_drip : s.specialQueuingState ≠ .drip

theorem Core.apart (h : s.Core) : ∀ m ∈ s.known.moves, s.Apart m := fun m hm =>
  .inl (h.moves m hm).1

theorem Advances.inv {s' : ToolHead K} (hadv : Advances s s') (h : s.Inv) : s'.Inv := by
  refine ⟨⟨hadv.base, fun m hm => ?_, fun hmain => ?_⟩, ?_⟩
  · obtain ⟨hlt, hmove, hprint⟩ := h.moves m (hadv.moves.subset hm)
    rw [hadv.same.lastKinFlushTime, hadv.same.lastKinMoveTime]
    exact ⟨hlt, hmove, hprint.trans hadv.printTime⟩
  · rw [hadv.same.specialQueuingState] at hmain
    rw [hadv.same.lastKinFlushTime, hadv.same.kinFlushDelay]
    exact (h.main hmain).trans hadv.printTime
  · rw [hadv.same.specialQueuingState]
    exact h.not_drip

theorem inv_checkStall (h : s.Inv) : (checkStall s).Inv := by
  rw [checkStall]
  split
  · exact h
  · exact ⟨⟨⟨h.sound, h.printTime, h.kinFlushDelay, h.kinFlushDelay_pos, h.flushTime⟩, h.moves,
      (fun hmain => by cases hmain)⟩, fun hdrip => by cases hdrip⟩

theorem sdsCheckTime_le_foldr_max (times : List K) :
    sdsCheckTime ≤ times.foldr max sdsCheckTime := by
  induction times with
  | nil => exact le_rfl
  | cons t times ih => exact ih.trans (le_max_right _ _)

variable [IsStrictOrderedRing K]

/-- `print_time` is resynced to where moves can be appended. -/
theorem core_resync (est : K) (h : s.Core) :
    (resync c est s).Base ∧ (resync c est s).known.moves = s.known.moves ∧
      (resync c est s).lastKinFlushTime = s.lastKinFlushTime ∧
      s.printTime ≤ (resync c est s).printTime ∧
      (resync c est s).lastKinFlushTime + (resync c est s).kinFlushDelay ≤
        (resync c est s).printTime ∧
      (resync c est s).specialQueuingState =
        if s.specialQueuingState = .drip then .drip else .main := by
  have hcalc : ∀ s : ToolHead K, s.Base →
      (calcPrintTime c est s).Base ∧ (calcPrintTime c est s).known.moves = s.known.moves ∧
        (calcPrintTime c est s).lastKinFlushTime = s.lastKinFlushTime ∧
        s.printTime ≤ (calcPrintTime c est s).printTime ∧
        (calcPrintTime c est s).lastKinFlushTime + (calcPrintTime c est s).kinFlushDelay ≤
          (calcPrintTime c est s).printTime ∧
        (calcPrintTime c est s).specialQueuingState = s.specialQueuingState := by
    intro s hs
    obtain ⟨hadv, hmoves, hle⟩ := advances_calcPrintTime (c := c) est hs
    rw [← hadv.same.lastKinFlushTime, ← hadv.same.kinFlushDelay] at hle
    exact ⟨hadv.base, hmoves, hadv.same.lastKinFlushTime, hadv.printTime, hle,
      hadv.same.specialQueuingState⟩
  rw [resync]
  split
  · rename_i hmain
    refine ⟨h.toBase, rfl, rfl, le_rfl, h.main hmain, ?_⟩
    rw [hmain]
    rfl
  · split
    · rename_i hdrip
      have hs := hcalc s h.toBase
      rw [hdrip] at hs
      exact hs
    · have hmain : ({ s with specialQueuingState := .main } : ToolHead K).Base :=
        ⟨h.sound, h.toBase.printTime, h.toBase.kinFlushDelay, h.kinFlushDelay_pos, h.flushTime⟩
      exact hcalc _ hmain

variable [FloorSemiring K]

theorem advances_updateDripMoveTime {next : K} (n : ℕ) (cut : Option ℕ) (h : s.Base)
    (hapart : ∀ m ∈ s.known.moves, s.Apart m) (hnext : s.printTime ≤ next) :
    Advances s (updateDripMoveTime c next n cut s).1 ∧
      (updateDripMoveTime c next n cut s).1.printTime ≤ next := by
  induction n generalizing s cut with
  | zero => exact ⟨.refl h, hnext⟩
  | succ n ih =>
    rw [updateDripMoveTime]
    split
    · split
      · exact ⟨.refl h, hnext⟩
      · have hsegment : s.printTime ≤ min (s.printTime + dripSegmentTime) next := by
          refine le_min ?_ hnext
          unfold dripSegmentTime
          linarith
        obtain ⟨hupdates, hprint⟩ := updates_updateMoveTime (c := c) h hapart hsegment
        obtain ⟨hrest, hend⟩ := ih (cut.map Nat.pred) hupdates.base (hupdates.apart hapart)
          (hprint.trans_le (min_le_right _ _))
        exact ⟨hupdates.toAdvances.trans hrest, hend⟩
    · exact ⟨.refl h, hnext⟩

/-- The steps of appended moves are generated, unless a drip move ends early. -/
theorem core_generateMoves {next : K} (cut : Option ℕ) (h : s.Base)
    (hends : ∀ m ∈ s.known.moves, s.lastKinFlushTime < m.endTime ∧ m.endTime ≤ next)
    (hdelay : s.lastKinFlushTime + s.kinFlushDelay ≤ s.printTime) (hnext : s.printTime ≤ next) :
    ((generateMoves c next cut s).2 = false → (generateMoves c next cut s).1.Core) ∧
      ((generateMoves c next cut s).2 = true →
        (generateMoves c next cut s).1.Base ∧ s.specialQueuingState ≠ .main) ∧
      (generateMoves c next cut s).1.specialQueuingState = s.specialQueuingState := by
  have hapart : ∀ m ∈ s.known.moves, s.Apart m := fun m hm => .inl (hends m hm).1
  have hfinish : ∀ s' : ToolHead K, Advances s s' → s'.printTime ≤ next →
      ({ updateMoveTime c next s' with lastKinMoveTime := next } : ToolHead K).Core ∧
        (updateMoveTime c next s').specialQueuingState = s.specialQueuingState := by
    intro s' hadv hle
    obtain ⟨hupdates, hprint⟩ :=
      updates_updateMoveTime (c := c) hadv.base (hadv.apart hapart) hle
    have hall := hadv.trans hupdates.toAdvances
    refine ⟨⟨⟨hall.base.sound, hall.base.printTime, hall.base.kinFlushDelay,
      hall.base.kinFlushDelay_pos, hall.base.flushTime⟩, fun m hm => ?_, fun _ => ?_⟩,
      hall.same.specialQueuingState⟩
    · obtain ⟨hlt, hend⟩ := hends m (hall.moves.subset hm)
      exact ⟨hall.same.lastKinFlushTime.trans_lt hlt, hend, hend.trans hprint.ge⟩
    · change (updateMoveTime c next s').lastKinFlushTime +
        (updateMoveTime c next s').kinFlushDelay ≤ (updateMoveTime c next s').printTime
      rw [hall.same.lastKinFlushTime, hall.same.kinFlushDelay, hprint]
      exact hdelay.trans hnext
  rw [generateMoves]
  by_cases hmain : s.specialQueuingState = .main
  · simp only [hmain, if_true, Bool.false_eq_true, if_false]
    obtain ⟨hcore, hstate⟩ := hfinish s (.refl h) hnext
    exact ⟨fun _ => hcore, (fun hended => by cases hended), hstate.trans hmain⟩
  · simp only [hmain, if_false]
    obtain ⟨hadv, hle⟩ := advances_updateDripMoveTime (c := c)
      (⌈(next - s.printTime) / dripSegmentTime⌉₊ + 1) cut h hapart hnext
    generalize updateDripMoveTime c next
      (⌈(next - s.printTime) / dripSegmentTime⌉₊ + 1) cut s = r at hadv hle
    obtain ⟨s', ended⟩ := r
    cases ended with
    | true =>
      exact ⟨(fun hdone => by cases hdone), fun _ => ⟨hadv.base, hmain⟩,
        hadv.same.specialQueuingState⟩
    | false =>
      obtain ⟨hcore, hstate⟩ := hfinish s' hadv hle
      exact ⟨fun _ => hcore, (fun hended => by cases hended), hstate⟩

/-- What becomes of the moves that were handed over: their steps are generated, or a drip move
ended early. -/
structure Processed (s : ToolHead K) (r : ToolHead K × Bool) : Prop where
  done : r.2 = false → r.1.Core ∧
    r.1.specialQueuingState = if s.specialQueuingState = .drip then .drip else .main
  ended : r.2 = true → r.1.Base ∧ s.specialQueuingState = .drip ∧
    r.1.specialQueuingState = .drip

theorem processed_processMoves (est : K) (cut : Option ℕ) (moves : List (MoveTimes K))
    (h : s.Core) : Processed s (processMoves c est cut moves s) := by
  obtain ⟨hbase, hpending, hlkft, hle, hdelay, hstate⟩ := core_resync (c := c) est h
  rw [processMoves]
  generalize resync c est s = s₁ at hbase hpending hlkft hle hdelay hstate
  have hstart : max s₁.lastKinFlushTime (s₁.printTime - s₁.kinFlushDelay) + s₁.kinFlushDelay ≤
      s₁.printTime := by
    rw [max_eq_right (by linarith)]
    linarith
  have happends := appends_appendMoves moves hbase hstart
  generalize appendMoves moves s₁.printTime s₁ = appended at happends
  obtain ⟨s₂, next⟩ := appended
  -- each move that is not finalized ends behind the last flush time, and not behind the last move
  have hends : ∀ m ∈ s₂.known.moves, s₂.lastKinFlushTime < m.endTime ∧ m.endTime ≤ next := by
    intro m hm
    rw [happends.same.lastKinFlushTime]
    rcases happends.moves m hm with hm | ⟨hlt, hend⟩
    · rw [hpending] at hm
      obtain ⟨hlt, -, hend⟩ := h.moves m hm
      exact ⟨hlkft ▸ hlt, (hend.trans hle).trans happends.le⟩
    · exact ⟨lt_of_le_of_lt (by linarith [hbase.kinFlushDelay_pos]) hlt, hend⟩
  have hstate₂ : s₂.specialQueuingState =
      if s.specialQueuingState = .drip then .drip else .main :=
    happends.same.specialQueuingState.trans hstate
  have hdelay₂ : s₂.lastKinFlushTime + s₂.kinFlushDelay ≤ s₂.printTime := by
    rw [happends.same.lastKinFlushTime, happends.same.kinFlushDelay, happends.printTime]
    exact hdelay
  obtain ⟨hdone, hended, hstate'⟩ := core_generateMoves (c := c) cut happends.base hends hdelay₂
    (happends.printTime.trans_le happends.le)
  refine ⟨fun hr => ⟨hdone hr, hstate'.trans hstate₂⟩, fun hr => ?_⟩
  obtain ⟨hbase', hnot⟩ := hended hr
  by_cases hdrip : s.specialQueuingState = .drip
  · rw [if_pos hdrip] at hstate₂
    exact ⟨hbase', hdrip, hstate'.trans hstate₂⟩
  · rw [if_neg hdrip] at hstate₂
    exact absurd hstate₂ hnot

theorem core_flushQueue (est : K) (cut : Option ℕ) (moves : List (MoveTimes K)) (h : s.Core) :
    ((flushQueue c est cut moves s).2 = false → (flushQueue c est cut moves s).1.Core) ∧
      ((flushQueue c est cut moves s).2 = true →
        (flushQueue c est cut moves s).1.Base ∧ s.specialQueuingState = .drip ∧
          (flushQueue c est cut moves s).1.specialQueuingState = .drip) ∧
      (s.specialQueuingState ≠ .drip →
        (flushQueue c est cut moves s).1.specialQueuingState ≠ .drip) := by
  rw [flushQueue]
  split
  · exact ⟨fun _ => h, (fun hended => by cases hended), id⟩
  · obtain ⟨hdone, hended⟩ := processed_processMoves (c := c) est cut moves h
    refine ⟨fun hr => (hdone hr).1, hended, fun hnot => ?_⟩
    cases hr : (processMoves c est cut moves s).2 with
    | true => exact absurd (hended hr).2.1 hnot
    | false =>
      rw [(hdone hr).2, if_neg hnot]
      exact fun hdrip => by cases hdrip

theorem inv_flushQueue (est : K) (cut : Option ℕ) (moves : List (MoveTimes K)) (h : s.Inv) :
    (flushQueue c est cut moves s).1.Inv := by
  obtain ⟨hdone, hended, hstate⟩ := core_flushQueue (c := c) est cut moves h.toCore
  refine ⟨hdone (Bool.eq_false_iff.mpr fun hr => ?_), hstate h.not_drip⟩
  exact h.not_drip (hended hr).2.1

/-- Behind the last flush, all is generated and finalized. -/
structure Flushed (s : ToolHead K) : Prop extends s.Inv where
  flushed : s.specialQueuingState = .flushed
  finalized : s.known.moves = []
  printTime_le : s.printTime - s.kinFlushDelay ≤ s.lastKinFlushTime

theorem flushed_finishGeneration (h : s.Core) : (finishGeneration c s).Flushed := by
  obtain ⟨lkft, hlkft⟩ : ∃ t, t = max s.lastKinFlushTime
      (max (s.lastKinMoveTime + s.kinFlushDelay) (s.printTime - s.kinFlushDelay)) := ⟨_, rfl⟩
  have hmove : s.lastKinMoveTime + s.kinFlushDelay ≤ lkft :=
    hlkft ▸ (le_max_left _ _).trans (le_max_right _ _)
  have hprint : s.printTime - s.kinFlushDelay ≤ lkft :=
    hlkft ▸ (le_max_right _ _).trans (le_max_right _ _)
  have hlast : s.lastKinFlushTime ≤ lkft := hlkft ▸ le_max_left _ _
  have hpos := h.kinFlushDelay_pos
  let s₁ : ToolHead K := { s with specialQueuingState := .flushed, lastKinFlushTime := lkft }
  have hs' : finishGeneration c s = updateMoveTime c (max s.printTime lkft) s₁ := by
    subst hlkft
    rfl
  have hbase : s₁.Base :=
    ⟨h.sound, h.toBase.printTime, h.toBase.kinFlushDelay, hpos, fun u hu =>
      (h.flushTime u hu).trans (max_le_max hlast le_rfl)⟩
  have hends : ∀ m ∈ s₁.known.moves, m.endTime + s.kinFlushDelay ≤ lkft := by
    intro m hm
    obtain ⟨-, hend, -⟩ := h.moves m hm
    exact (add_le_add hend le_rfl).trans hmove
  obtain ⟨hupdates, hend⟩ := updates_updateMoveTime (c := c) hbase
    (fun m hm => .inr (hends m hm)) (le_max_left s.printTime lkft)
  have hnone : (finishGeneration c s).known.moves = [] := by
    rw [hs']
    exact hupdates.finalized fun m hm => by linarith [hends m hm]
  have hstate : (finishGeneration c s).specialQueuingState = .flushed := by
    rw [hs', hupdates.same.specialQueuingState]
  refine ⟨⟨⟨hs' ▸ hupdates.base, fun m hm => ?_, fun hmain => ?_⟩, ?_⟩, hstate, hnone, ?_⟩
  · rw [hnone] at hm
    exact absurd hm List.not_mem_nil
  · rw [hstate] at hmain
    cases hmain
  · rw [hstate]
    exact fun hdrip => by cases hdrip
  · rw [hs', hend, hupdates.same.kinFlushDelay, hupdates.same.lastKinFlushTime]
    rcases max_choice s.printTime lkft with hmax | hmax
    · rw [hmax]
      exact hprint
    · rw [hmax]
      exact (sub_lt_self lkft hpos).le

theorem flushed_flushStepGeneration (est : K) (moves : List (MoveTimes K)) (h : s.Inv) :
    (flushStepGeneration c est moves s).Flushed :=
  flushed_finishGeneration (inv_flushQueue est none moves h).toCore

/-! ## Runs -/

theorem inv_flushLookahead (est : K) (moves : List (MoveTimes K)) (h : s.Inv) :
    (flushLookahead c est moves s).Inv := by
  rw [flushLookahead]
  split
  · exact inv_flushQueue est none moves h
  · exact (flushed_flushStepGeneration est moves h).toInv

theorem inv_getLastMoveTime (est est' : K) (moves : List (MoveTimes K)) (h : s.Inv) :
    (getLastMoveTime c est est' moves s).Inv := by
  have hflush := inv_flushLookahead (c := c) est moves h
  rw [getLastMoveTime]
  split
  · exact hflush
  · exact (advances_calcPrintTime est' hflush.toBase).1.inv hflush

theorem inv_dwell (est est' : K) (moves : List (MoveTimes K)) (delay : K) (h : s.Inv) :
    (dwell c est est' moves delay s).Inv := by
  have hlast := inv_getLastMoveTime (c := c) est est' moves h
  obtain ⟨hupdates, -⟩ := updates_updateMoveTime (c := c) hlast.toBase hlast.apart
    (le_add_of_nonneg_right (le_max_left 0 delay))
  exact inv_checkStall (hupdates.toAdvances.inv hlast)

theorem inv_dripMove (est est' est'' : K) (moves : List (MoveTimes K)) (rejected : Bool)
    (drip : List (MoveTimes K)) (cut : Option ℕ) (h : s.Inv) :
    (dripMove c est est' est'' moves rejected drip cut s).Inv := by
  have hdwell := inv_dwell (c := c) est est' moves s.kinFlushDelay h
  have hflush : ∀ s' : ToolHead K, s'.Core → (flushStepGeneration c est'' [] s').Inv :=
    fun s' hs' => (flushed_finishGeneration hs').toInv
  rw [dripMove]
  generalize dwell c est est' moves s.kinFlushDelay s = s₁ at hdwell
  have hdrip : ({ s₁ with specialQueuingState := .drip } : ToolHead K).Core :=
    ⟨⟨hdwell.sound, hdwell.printTime, hdwell.kinFlushDelay, hdwell.kinFlushDelay_pos,
      hdwell.flushTime⟩, hdwell.moves, fun hmain => by cases hmain⟩
  cases rejected with
  | true => exact hflush _ hdrip
  | false =>
    obtain ⟨hdone, hended, -⟩ := core_flushQueue (c := c) est'' cut drip hdrip
    simp only [Bool.false_eq_true, if_false]
    generalize flushQueue c est'' cut drip { s₁ with specialQueuingState := .drip } = r
      at hdone hended
    obtain ⟨s₂, ended⟩ := r
    cases ended with
    | false => exact hflush s₂ (hdone rfl)
    | true =>
      obtain ⟨hbase, -, hstate⟩ := hended rfl
      have hend : (act .dripEnd s₂).Core := by
        refine ⟨base_act hbase trivial rfl rfl hbase.flushTime, fun m hm => ?_, fun hmain => ?_⟩
        · rw [known_act] at hm
          exact absurd hm List.not_mem_nil
        · rw [show (act .dripEnd s₂).specialQueuingState = .drip from hstate] at hmain
          cases hmain
      exact hflush _ hend

theorem inv_noteStepGenerationScanTime (est : K) (moves : List (MoveTimes K)) (delay oldDelay : K)
    (h : s.Inv) : (noteStepGenerationScanTime c est moves delay oldDelay s).Inv := by
  have hflushed := flushed_flushStepGeneration (c := c) est moves h
  rw [noteStepGenerationScanTime]
  generalize flushStepGeneration c est moves s = s₁ at hflushed
  dsimp only
  split
  · exact hflushed.toInv
  · obtain ⟨old, hold⟩ : ∃ l, l =
        if oldDelay = 0 then s₁.kinFlushTimes else s₁.kinFlushTimes.erase oldDelay := ⟨_, rfl⟩
    obtain ⟨times, htimes⟩ : ∃ l, l = if delay = 0 then old else old ++ [delay] := ⟨_, rfl⟩
    rw [← hold]
    rw [← htimes]
    have hpos : (0 : K) < (times ++ [sdsCheckTime]).foldr max sdsCheckTime := by
      refine lt_of_lt_of_le ?_ (sdsCheckTime_le_foldr_max _)
      unfold sdsCheckTime
      linarith
    generalize (times ++ [sdsCheckTime]).foldr max sdsCheckTime = newDelay at hpos
    have hknown : (act (.kinFlushDelay newDelay)
        { s₁ with kinFlushTimes := times, kinFlushDelay := newDelay }).known =
        ⟨s₁.known.printTime, newDelay, s₁.known.flushTime, s₁.known.moves⟩ := known_act _ _
    refine ⟨⟨⟨sound_act.mpr ⟨hflushed.sound, trivial⟩, ?_, ?_, hpos, fun u hu => ?_⟩,
      fun m hm => ?_, fun hmain => ?_⟩, hflushed.not_drip⟩
    · exact (congrArg HeadTrace.printTime hknown).trans hflushed.printTime
    · exact congrArg HeadTrace.kinFlushDelay hknown
    · rw [hknown] at hu
      refine (hflushed.flushTime u hu).trans ?_
      rw [max_eq_left hflushed.printTime_le]
      exact le_max_left _ _
    · rw [hknown, hflushed.finalized] at hm
      exact absurd hm List.not_mem_nil
    · rw [show (act (.kinFlushDelay newDelay)
        { s₁ with kinFlushTimes := times, kinFlushDelay := newDelay }).specialQueuingState =
          .flushed from hflushed.flushed] at hmain
      cases hmain

theorem inv_step (h : s.Inv) (e : HeadEvent K) : (step c s e).Inv := by
  cases e with
  | move est moves stall =>
    have hflush := inv_flushQueue (c := c) est none moves h
    rw [step]
    split
    · exact inv_checkStall hflush
    · exact hflush
  | dwell est est' moves delay => exact inv_dwell est est' moves delay h
  | getLastMoveTime est est' moves => exact inv_getLastMoveTime est est' moves h
  | flushStepGeneration est moves => exact (flushed_flushStepGeneration est moves h).toInv
  | waitMoves est moves => exact inv_flushLookahead est moves h
  | setPosition est moves =>
    have hflushed := flushed_flushStepGeneration (c := c) est moves h
    have hok : (flushStepGeneration c est moves s).known.Ok .trapqSetPosition := by
      intro m hm
      rw [hflushed.finalized] at hm
      exact absurd hm List.not_mem_nil
    refine ⟨⟨base_act hflushed.toBase hok rfl rfl hflushed.flushTime, fun m hm => ?_,
      hflushed.main⟩, hflushed.not_drip⟩
    rw [step, known_act] at hm
    exact absurd hm List.not_mem_nil
  | dripMove est est' est'' moves rejected drip cut =>
    exact inv_dripMove est est' est'' moves rejected drip cut h
  | noteStepGenerationScanTime est moves delay oldDelay =>
    exact inv_noteStepGenerationScanTime est moves delay oldDelay h
  | noteKinematicActivity kinTime =>
    refine ⟨⟨⟨h.sound, h.printTime, h.kinFlushDelay, h.kinFlushDelay_pos, h.flushTime⟩,
      fun m hm => ?_, h.main⟩, h.not_drip⟩
    obtain ⟨hlt, hmove, hprint⟩ := h.moves m hm
    exact ⟨hlt, hmove.trans (le_max_left _ _), hprint⟩
  | flushHandler est est' moves =>
    rw [step, flushHandler]
    split
    · exact h
    · exact (flushed_flushStepGeneration est' moves h).toInv

theorem inv_init : (init : ToolHead K).Inv where
  sound := trivial
  printTime := rfl
  kinFlushDelay := rfl
  kinFlushDelay_pos := by
    change (0 : K) < sdsCheckTime
    unfold sdsCheckTime
    linarith
  flushTime := fun u hu => by cases hu
  moves := fun m hm => absurd hm List.not_mem_nil
  main := fun hmain => by cases hmain
  not_drip := fun hdrip => by cases hdrip

/-- **Moves are not scheduled into generated time.**  In every run of the toolhead, whatever
estimated print times are read and moves handed over, each action keeps to what it is to keep to
after those before it. -/
theorem ok_of_run {es : List (HeadEvent K)} {t : ToolHead K}
    (h : Run (fun s e t => t = step c s e) init es t) {before behind : List (HeadAction K)}
    {a : HeadAction K} (ha : t.trace = before ++ a :: behind) :
    (headMonitor.after initTrace before).Ok a := by
  have hinv : t.Inv := h.invariant inv_init fun s e t hs ht => ht ▸ inv_step hs e
  exact Monitor.accepts_iff.mp hinv.sound before a behind ha

end Calls

/-- Two seconds of buffer, of which half are kept. -/
def usualTimes : BufferTimes ℚ where
  bufferTimeLow := 1
  bufferTimeStart := 1 / 4
  moveFlushTime := 1 / 20
  moveFlushTime_pos := by norm_num

/-- A move of one second. -/
def oneSecond : MoveTimes ℚ where
  accelT := 1 / 4
  cruiseT := 1 / 2
  decelT := 1 / 4
  isKinematicMove := true
  accelT_nonneg := by norm_num
  cruiseT_nonneg := by norm_num
  decelT_nonneg := by norm_num

/-- A move, and a drip move that is cut short after its first segment. -/
def moveAndDrip : List (HeadEvent ℚ) :=
  [.move 0 [oneSecond] false, .flushStepGeneration 0 [],
    .dripMove 2 2 2 [] false [oneSecond] (some 1)]

/-- In this run, the drip move is appended behind the steps of the first move. -/
theorem ok_of_run_moveAndDrip :
    let actions := (moveAndDrip.foldl (step usualTimes) init).trace
    (headMonitor.after initTrace (actions.take 23)).Ok (.trapqAppend (2251 / 1000) oneSecond) := by
  intro actions
  have happend : actions[23]? = some (.trapqAppend (2251 / 1000) oneSecond) := by decide +kernel
  have hdrop : actions.drop 23 = .trapqAppend (2251 / 1000) oneSecond :: actions.drop 24 := by
    obtain ⟨hlt, hget⟩ := List.getElem?_eq_some_iff.mp happend
    rw [List.drop_eq_getElem_cons hlt, hget]
  have hsplit : actions = actions.take 23 ++ .trapqAppend (2251 / 1000) oneSecond ::
      actions.drop 24 := by
    rw [← hdrop, List.take_append_drop]
  exact ok_of_run (c := usualTimes) (Run.iff_foldl.mpr rfl) hsplit

end ToolHead

end FlsunT1.Klippy
