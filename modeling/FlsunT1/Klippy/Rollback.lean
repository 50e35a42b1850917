/-
  Klippy/Rollback.lean --- which line the rollback chooses
  (klippy/extras/locate_printing_gcode.py).

  The loop of `set_resume_pos` looks at the recorded lines from the newest back.  Where the
  filament ended inside a recorded line, it finds that line unless a line after it ends before
  the live position.
-/
import Mathlib.Algebra.Order.Ring.Defs
import Mathlib.Tactic.Linarith
import FlsunT1.Klippy.ResumePoint

set_option autoImplicit false

namespace FlsunT1.Klippy

open Library

variable {K : Type} [Field K] [LinearOrder K]

/-! ## The place of the line -/

/-- The extruder before and after a line, and what it has extruded. -/
def GcodeItem.startE {K : Type} (item : GcodeItem K) : K := item.gcodeMoveBefore.position 3

def GcodeItem.endE {K : Type} (item : GcodeItem K) : K := item.gcodeMoveAfter.position 3

def GcodeItem.deltaE (item : GcodeItem K) : K := item.endE - item.startE

/-- A pass chooses its own item. -/
def Scan.picks (cfg : LocateConfig K) (posE : K) (s : Scan K) (item : GcodeItem K) : Bool :=
  ({ s with extrudeLocate := none }.item cfg posE item).1.extrudeLocate.isSome

/-- The place of the item that the loop chooses, counted from the newest. -/
def Scan.place (cfg : LocateConfig K) (posE : K) (s : Scan K) : List (GcodeItem K) → Option Nat
  | [] => none
  | item :: items =>
    let here := if s.picks cfg posE item then some 0 else none
    if (s.item cfg posE item).2 then here
    else (((s.item cfg posE item).1.place cfg posE items).map (· + 1)).or here

section Scan

variable {cfg : LocateConfig K} {posE : K} {s : Scan K}

theorem item_extrudeLocate_eq (item : GcodeItem K) :
    (s.item cfg posE item).1.extrudeLocate =
      if s.picks cfg posE item then some item else s.extrudeLocate := by
  simp only [Scan.picks, Scan.item, Scan.goOn]
  split_ifs <;> simp_all

theorem place_lt {queue : List (GcodeItem K)} {n : Nat} (h : s.place cfg posE queue = some n) :
    n < queue.length := by
  induction queue generalizing s n with
  | nil => cases h
  | cons item queue ih =>
    have hhere : (if s.picks cfg posE item then some 0 else none) = some n → n = 0 := by
      split
      · exact fun heq => (Option.some.inj heq).symm
      · exact fun heq => absurd heq (Option.some_ne_none n).symm
    unfold Scan.place at h
    dsimp only at h
    rw [List.length_cons]
    split at h
    · rw [hhere h]
      exact Nat.succ_pos _
    · cases hrest : (s.item cfg posE item).1.place cfg posE queue with
      | none =>
        rw [hrest] at h
        rw [hhere h]
        exact Nat.succ_pos _
      | some m =>
        rw [hrest] at h
        rw [← Option.some.inj h]
        exact Nat.succ_lt_succ (ih hrest)

theorem items_extrudeLocate_eq (queue : List (GcodeItem K)) :
    (s.items cfg posE queue).1.extrudeLocate =
      ((s.place cfg posE queue).bind (queue[·]?)).or s.extrudeLocate := by
  induction queue generalizing s with
  | nil => rfl
  | cons item queue ih =>
    have hhere : (((if s.picks cfg posE item then some 0 else none : Option Nat).bind
        ((item :: queue)[·]?)).or s.extrudeLocate) =
        (s.item cfg posE item).1.extrudeLocate := by
      rw [item_extrudeLocate_eq]
      cases s.picks cfg posE item <;> rfl
    unfold Scan.items Scan.place
    dsimp only
    split
    · exact hhere.symm
    · rw [ih]
      cases hrest : (s.item cfg posE item).1.place cfg posE queue with
      | none => exact hhere.symm
      | some n =>
        have hn := place_lt hrest
        simp [List.getElem?_eq_getElem hn]

theorem locate_eq_place (queue : List (GcodeItem K)) :
    locate cfg posE queue = (Scan.init.place cfg posE queue).bind (queue[·]?) := by
  rw [locate, items_extrudeLocate_eq]
  exact Option.or_none

end Scan

/-! ## Where the filament ended inside a line -/

section Starved

variable [IsStrictOrderedRing K] {cfg : LocateConfig K} {posE : K} {s : Scan K}
  {item : GcodeItem K}

/-- A line that starts without filament is left behind, with the loop if it ends before the
live position. -/
theorem item_of_starts_starved (hend : ¬ item.endE < posE + cfg.eOffset)
    (hstart : posE + cfg.eOffset < item.startE) :
    (s.item cfg posE item).2 = decide (item.endE < posE) ∧
      (item.endE < posE → s.picks cfg posE item = false) := by
  have hremain : ¬ 0 < posE + cfg.eOffset - item.gcodeMoveAfter.position 3 := hend ∘ sub_pos.mp
  have hbegin : posE + cfg.eOffset < item.gcodeMoveBefore.position 3 := hstart
  unfold Scan.picks Scan.item
  simp only [if_neg hremain, if_pos hbegin]
  constructor
  · split
    · rename_i hbefore
      exact (decide_eq_true hbefore).symm
    · rename_i hbefore
      exact (decide_eq_false hbefore).symm
  · intro hbefore
    have hends : item.gcodeMoveAfter.position 3 < posE := hbefore
    rw [if_pos hends]
    rfl

theorem item_of_starved (hend : ¬ item.endE < posE + cfg.eOffset)
    (hstart : ¬ posE + cfg.eOffset < item.startE) :
    (s.item cfg posE item).2 = true ∧ s.picks cfg posE item = true := by
  have hremain : ¬ 0 < posE + cfg.eOffset - item.gcodeMoveAfter.position 3 := hend ∘ sub_pos.mp
  have hbegin : ¬ posE + cfg.eOffset < item.gcodeMoveBefore.position 3 := hstart
  unfold Scan.picks Scan.item
  simp only [if_neg hremain, if_neg hbegin, Option.isSome_some, and_self]

/-- Behind lines that start without filament, the line in which it ended is chosen, unless one
of them ends before the live position. -/
theorem place_starved {newer : List (GcodeItem K)}
    (hnewer : ∀ y ∈ newer, posE + cfg.eOffset < y.startE ∧ ¬ y.endE < posE + cfg.eOffset)
    (hend : ¬ item.endE < posE + cfg.eOffset) (hstart : ¬ posE + cfg.eOffset < item.startE)
    (older : List (GcodeItem K)) :
    s.place cfg posE (newer ++ item :: older) = some newer.length ↔
      ∀ y ∈ newer, posE ≤ y.endE := by
  induction newer generalizing s with
  | nil =>
    obtain ⟨hbreak, hpick⟩ := item_of_starved (s := s) hend hstart
    rw [List.nil_append, Scan.place, if_pos hbreak, hpick]
    exact iff_of_true rfl fun _ hy => absurd hy List.not_mem_nil
  | cons y newer ih =>
    obtain ⟨hstarts, hends⟩ := hnewer y List.mem_cons_self
    obtain ⟨hbreak, hleft⟩ := item_of_starts_starved (s := s) hends hstarts
    rw [List.cons_append, Scan.place, hbreak, List.forall_mem_cons]
    split
    · rename_i hbefore
      have hlt := of_decide_eq_true hbefore
      rw [hleft hlt]
      exact iff_of_false (fun heq => absurd heq (Option.some_ne_none _).symm)
        fun hle => absurd hlt hle.1.not_gt
    · rename_i hbefore
      have hle : posE ≤ y.endE := not_lt.mp (hbefore ∘ decide_eq_true)
      rw [← ih (s := (s.item cfg posE y).1) fun z hz => hnewer z (List.mem_cons_of_mem _ hz)]
      cases (s.item cfg posE y).1.place cfg posE (newer ++ item :: older) with
      | none =>
        split <;> simp
      | some n => simp [hle]

end Starved

/-- The queue of a print, the newest line first: a line begins where the one before it ended,
and the extruder does not go back. -/
structure Recorded (queue : List (GcodeItem K)) : Prop where
  joined : queue.IsChain fun newer older => older.endE = newer.startE
  forward : ∀ item ∈ queue, item.startE ≤ item.endE

/-- A position of the extruder is between the start of the oldest line and the end of the
newest. -/
def InRange (lack : K) (queue : List (GcodeItem K)) : Prop :=
  (∃ newest, queue.head? = some newest ∧ lack ≤ newest.endE) ∧
    ∃ oldest, queue.getLast? = some oldest ∧ oldest.startE ≤ lack

/-- The last line that the extruder was in at a position, and its place. -/
structure StarvedAt (lack : K) (queue : List (GcodeItem K)) (n : Nat) (item : GcodeItem K) :
    Prop where
  place : queue[n]? = some item
  starts : item.startE ≤ lack
  ends : lack ≤ item.endE
  last : ∀ m < n, ∀ y, queue[m]? = some y → ¬ (y.startE ≤ lack ∧ lack ≤ y.endE)

/-- `set_resume_pos` goes on at the line in which the filament ended. -/
def LocatePrintingGcode.ResumesAtStarved (s : LocatePrintingGcode K) (info : RuningInfo K) : Prop :=
  ∃ n item, StarvedAt (info.livePosition 3 + s.config.eOffset) s.queue n item ∧
    Scan.init.place s.config (info.livePosition 3) s.queue = some n ∧
    s.setResumePos info =
      { s with filePosition := item.offset, pauseState := some item.gcodeState }

section Recorded

variable {queue newer older : List (GcodeItem K)} {item : GcodeItem K} {lack : K}

omit [Field K] in
theorem Recorded.tail (h : Recorded (item :: queue)) : Recorded queue :=
  ⟨List.isChain_of_isChain_cons h.joined, fun y hy => h.forward y (List.mem_cons_of_mem _ hy)⟩

omit [Field K] in
theorem Recorded.endE_le (h : Recorded (item :: older)) : ∀ y ∈ older, y.endE ≤ item.startE := by
  induction older generalizing item with
  | nil => exact fun _ hy => absurd hy List.not_mem_nil
  | cons next older ih =>
    have hnext : next.endE = item.startE := (List.isChain_cons_cons.mp h.joined).1
    intro y hy
    obtain rfl | hy := List.mem_cons.mp hy
    · exact hnext.le
    · have hle := ih h.tail y hy
      have hforward := h.tail.forward next List.mem_cons_self
      exact hle.trans (hforward.trans hnext.le)

omit [Field K] in
/-- A position in the range is in a line, the lines after it begin behind the position, and
those before it do not. -/
theorem Recorded.exists_starved (h : Recorded queue) (hrange : InRange lack queue) :
    ∃ newer item older, queue = newer ++ item :: older ∧
      (∀ y ∈ newer, lack < y.startE ∧ ¬ y.endE < lack) ∧ item.startE ≤ lack ∧
      lack ≤ item.endE ∧ ∀ y ∈ older, y.startE ≤ lack := by
  induction queue with
  | nil =>
    obtain ⟨⟨_, hhead, -⟩, -⟩ := hrange
    cases hhead
  | cons first queue ih =>
    obtain ⟨⟨newest, hhead, hend⟩, oldest, hlast, hstart⟩ := hrange
    obtain rfl := Option.some.inj hhead
    by_cases hfirst : first.startE ≤ lack
    · refine ⟨[], first, queue, rfl, fun _ hy => absurd hy List.not_mem_nil, hfirst, hend, ?_⟩
      intro y hy
      have hforward := h.tail.forward y hy
      exact hforward.trans ((h.endE_le y hy).trans hfirst)
    · cases queue with
      | nil =>
        obtain rfl := Option.some.inj hlast
        exact absurd hstart hfirst
      | cons next queue =>
        have hnext : next.endE = first.startE := (List.isChain_cons_cons.mp h.joined).1
        have hbehind : lack ≤ next.endE := hnext ▸ (not_le.mp hfirst).le
        rw [List.getLast?_cons_cons] at hlast
        obtain ⟨newer, item, older, hqueue, hnewer, hrest⟩ :=
          ih h.tail ⟨⟨next, rfl, hbehind⟩, oldest, hlast, hstart⟩
        refine ⟨first :: newer, item, older, by rw [hqueue, List.cons_append], ?_, hrest⟩
        intro y hy
        obtain rfl | hy := List.mem_cons.mp hy
        · exact ⟨not_le.mp hfirst, hend.not_gt⟩
        · exact hnewer y hy

omit [Field K] in
theorem StarvedAt.place_eq {n : Nat} {starved : GcodeItem K}
    (h : StarvedAt lack (newer ++ item :: older) n starved)
    (hnewer : ∀ y ∈ newer, lack < y.startE ∧ ¬ y.endE < lack) (hstart : item.startE ≤ lack)
    (hend : lack ≤ item.endE) : n = newer.length ∧ starved = item := by
  have hitem : (newer ++ item :: older)[newer.length]? = some item := by
    rw [List.getElem?_append_right le_rfl, Nat.sub_self]
    rfl
  have hle : n ≤ newer.length := by
    by_contra hlt
    exact h.last newer.length (not_le.mp hlt) item hitem ⟨hstart, hend⟩
  obtain hlt | rfl := hle.lt_or_eq
  · have hplace := h.place
    rw [List.getElem?_append_left hlt] at hplace
    exact absurd h.starts (hnewer starved (List.mem_of_getElem? hplace)).1.not_ge
  · exact ⟨rfl, Option.some.inj (h.place.symm.trans hitem)⟩

end Recorded

/-- **Exactly when the line in which the filament ended is found.**  For every queue of a print
and every lack point in its range, `set_resume_pos` goes on at the last line that the lack point
is in if and only if no line that begins behind the lack point ends before the live position. -/
theorem resumesAtStarved_iff [IsStrictOrderedRing K] (s : LocatePrintingGcode K)
    (info : RuningInfo K) (hrecorded : Recorded s.queue)
    (hrange : InRange (info.livePosition 3 + s.config.eOffset) s.queue) :
    s.ResumesAtStarved info ↔ ∀ item ∈ s.queue,
      info.livePosition 3 + s.config.eOffset < item.startE → info.livePosition 3 ≤ item.endE := by
  obtain ⟨newer, item, older, hqueue, hnewer, hstart, hend, holder⟩ :=
    hrecorded.exists_starved hrange
  have hplace := place_starved (s := Scan.init) hnewer hend.not_gt hstart.not_gt older
  have hbehind : (∀ y ∈ newer, info.livePosition 3 ≤ y.endE) ↔ ∀ y ∈ s.queue,
      info.livePosition 3 + s.config.eOffset < y.startE → info.livePosition 3 ≤ y.endE := by
    rw [hqueue]
    constructor
    · intro h y hy hlt
      obtain hy | hy := List.mem_append.mp hy
      · exact h y hy
      · obtain rfl | hy := List.mem_cons.mp hy
        · exact absurd hstart hlt.not_ge
        · exact absurd (holder y hy) hlt.not_ge
    · exact fun h y hy => h y (List.mem_append_left _ hy) (hnewer y hy).1
  rw [← hbehind, ← hplace, ← hqueue]
  constructor
  · rintro ⟨n, starved, hstarved, hn, -⟩
    rw [hqueue] at hstarved
    rw [hn, (hstarved.place_eq hnewer hstart hend).1]
  · intro hn
    have hitem : s.queue[newer.length]? = some item := by
      rw [hqueue, List.getElem?_append_right le_rfl, Nat.sub_self]
      rfl
    refine ⟨newer.length, item, ⟨hitem, hstart, hend, fun m hm y hy hin => ?_⟩, hn, ?_⟩
    · rw [hqueue, List.getElem?_append_left hm] at hy
      exact absurd hin.1 (hnewer y (List.mem_of_getElem? hy)).1.not_ge
    · rw [LocatePrintingGcode.setResumePos, locate_eq_place, hn, Option.bind_some, hitem]

/-- A line from one position of the extruder to another. -/
def extrudedLine (offset : Nat) (start stop : ℚ) : GcodeItem ℚ :=
  ⟨⟨offset, extrudedTo start, (GCodeMove.init 0).toGcodeState, none⟩, extrudedTo stop⟩

/-- Three lines, the filament ends 5 mm behind the live position. -/
theorem resumesAtStarved_iff_three :
    let queue := [extrudedLine 300 8 10, extrudedLine 200 5 8, extrudedLine 100 0 5]
    let s := { LocatePrintingGcode.init ⟨5, 0, 0⟩ 500 with queue := queue }
    s.ResumesAtStarved ⟨![0, 0, 0, 2], none⟩ := by
  intro queue s
  apply (resumesAtStarved_iff s _ ⟨?_, ?_⟩ ⟨?_, ?_⟩).mpr
  · decide +kernel
  · decide +kernel
  · decide +kernel
  · exact ⟨_, rfl, by decide +kernel⟩
  · exact ⟨_, rfl, by decide +kernel⟩

/-- `F109 E=-5` sets a negative offset: the newest line ends before the live position, the
loop ends there, and no line is found. -/
theorem starved_not_found_behind_live :
    let queue := [extrudedLine 300 8 10, extrudedLine 200 5 8, extrudedLine 100 0 5]
    let s := ({ LocatePrintingGcode.init ⟨27 / 2, 0, 0⟩ 500 with queue := queue }).cmdF109
      none (some (-5)) none none
    let info : RuningInfo ℚ := ⟨![0, 0, 0, 12], none⟩
    Recorded s.queue ∧ InRange (info.livePosition 3 + s.config.eOffset) s.queue ∧
      s.setResumePos info = s ∧ ¬ s.ResumesAtStarved info := by
  intro queue s info
  have hnone : Scan.init.place s.config (info.livePosition 3) s.queue = none := by
    decide +kernel
  refine ⟨⟨by decide +kernel, by decide +kernel⟩,
    ⟨⟨_, rfl, by decide +kernel⟩, _, rfl, by decide +kernel⟩, ?_, ?_⟩
  · rw [LocatePrintingGcode.setResumePos, locate_eq_place, hnone, Option.bind_none]
  · rintro ⟨n, item, -, hplace, -⟩
    exact absurd (hnone.symm.trans hplace) (Option.some_ne_none n).symm

end FlsunT1.Klippy
