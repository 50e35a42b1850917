/-
  Library/LineStarts.lean --- lines by the positions they start at.

  The pieces of a text stand where the text starts or behind a separator.  A window of the text
  has the lines that start within it, cut where the window ends; only its first piece may be the
  rest of a line that starts before.
-/
import Mathlib.Data.List.Basic
import Mathlib.Data.List.TakeWhile
import FlsunT1.Library.Lines

set_option autoImplicit false

namespace FlsunT1.Library

variable {α : Type*}

/-- Pieces with the positions they start at, when a separator stands between two of them. -/
def offsets : ℕ → List (List α) → List (ℕ × List α)
  | _, [] => []
  | p, l :: ls => (p, l) :: offsets (p + l.length + 1) ls

theorem le_of_mem_offsets {p : ℕ} {ls : List (List α)} {x : ℕ × List α} (h : x ∈ offsets p ls) :
    p ≤ x.1 := by
  induction ls generalizing p with
  | nil => exact absurd h List.not_mem_nil
  | cons l ls ih =>
    obtain rfl | h := List.mem_cons.mp h
    · exact le_rfl
    · exact (Nat.le_add_right _ _).trans ((Nat.le_add_right _ _).trans (ih h))

/-- The pieces after the first one are those at another position. -/
theorem mem_offsets_tail {p k : ℕ} {first l : List α} {rest : List (List α)} :
    (p + k, l) ∈ offsets (p + first.length + 1) rest ↔
      k ≠ 0 ∧ (p + k, l) ∈ offsets p (first :: rest) := by
  constructor
  · intro h
    have hle : p + first.length + 1 ≤ p + k := le_of_mem_offsets h
    exact ⟨by omega, List.mem_cons_of_mem _ h⟩
  · rintro ⟨hk, h⟩
    obtain h | h := List.mem_cons.mp h
    · exact absurd (Nat.add_eq_left.mp (Prod.mk.inj h).1) hk
    · exact h

/-- The first piece is the only one at its position. -/
theorem mem_offsets_zero {p : ℕ} {first l : List α} {rest : List (List α)} :
    (p + 0, l) ∈ offsets p (first :: rest) ↔ l = first := by
  rw [offsets, List.mem_cons, mem_offsets_tail]
  simp

/-- A line of the text starts at a position. -/
def StartsLine (sep : α) (t : List α) (q : ℕ) : Prop := q = 0 ∨ t[q - 1]? = some sep

theorem startsLine_cons_succ {sep : α} (a : α) (t : List α) (k : ℕ) :
    StartsLine sep (a :: t) (k + 1) ↔ (k = 0 ∧ a = sep) ∨ (k ≠ 0 ∧ StartsLine sep t k) := by
  cases k with
  | zero => simp [StartsLine]
  | succ k => simp [StartsLine]

/-- A line starts in a window, behind its first piece, where one starts in the text. -/
theorem startsLine_window {sep : α} {t : List α} {p n k : ℕ} (hk : k ≠ 0) (hn : k ≤ n) :
    StartsLine sep ((t.drop p).take n) k ↔ StartsLine sep t (p + k) := by
  unfold StartsLine
  rw [List.getElem?_take_of_lt (by omega), List.getElem?_drop, show p + k - 1 = p + (k - 1) by omega]
  simp only [hk, false_or, Nat.add_eq_zero_iff, and_false]

section Lines

variable [DecidableEq α] {sep : α}

instance (t : List α) (q : ℕ) : Decidable (StartsLine sep t q) :=
  inferInstanceAs (Decidable (_ ∨ _))

/-- The text from a position up to the next separator. -/
def lineAt (sep : α) (t : List α) (q : ℕ) : List α := (t.drop q).takeWhile (decide <| · ≠ sep)

theorem lineAt_cons_succ (a : α) (t : List α) (k : ℕ) :
    lineAt sep (a :: t) (k + 1) = lineAt sep t k := rfl

/-- A line of a window is the line of the text, cut where the window ends. -/
theorem lineAt_window (t : List α) (p n k : ℕ) :
    lineAt sep ((t.drop p).take n) k = (lineAt sep t (p + k)).take (n - k) := by
  unfold lineAt
  rw [List.drop_take, List.drop_drop, List.take_takeWhile]

/-- The pieces of a text are the lines that start in it. -/
theorem mem_offsets_splitOn {t l : List α} {p k : ℕ} :
    (p + k, l) ∈ offsets p (t.splitOn sep) ↔ StartsLine sep t k ∧ l = lineAt sep t k := by
  induction t generalizing p k l with
  | nil =>
    rw [List.splitOn_nil, offsets, offsets, List.mem_singleton, Prod.mk.injEq]
    simp [StartsLine, lineAt]
  | cons a t ih =>
    obtain ⟨first, rest, hpieces⟩ := List.exists_cons_of_ne_nil (List.splitOn_ne_nil sep t)
    have hfirst : first = lineAt sep t 0 := by
      refine ((ih (p := p) (k := 0)).mp ?_).2
      rw [hpieces]
      exact List.mem_cons_self
    have htail : ∀ k, (p + (k + 1), l) ∈ offsets (p + 1 + first.length + 1) rest ↔
        k ≠ 0 ∧ StartsLine sep t k ∧ l = lineAt sep t k := by
      intro k
      rw [← ih, hpieces, ← mem_offsets_tail, show p + (k + 1) = p + 1 + k by omega]
    rw [splitOn_cons]
    split
    · rename_i ha
      cases k with
      | zero =>
        rw [mem_offsets_zero]
        simp [StartsLine, lineAt, ha]
      | succ k =>
        have hmem : (p + (k + 1), l) ∈ offsets p ([] :: t.splitOn sep) ↔
            (p + 1 + k, l) ∈ offsets (p + 1) (t.splitOn sep) := by
          rw [show p + 1 + k = p + (k + 1) by omega]
          exact (mem_offsets_tail.trans (and_iff_right k.succ_ne_zero)).symm
        have hstart : k = 0 ∧ a = sep ∨ k ≠ 0 ∧ StartsLine sep t k ↔ StartsLine sep t k := by
          unfold StartsLine
          tauto
        rw [hmem, ih, startsLine_cons_succ, lineAt_cons_succ, hstart]
    · rename_i ha
      rw [hpieces, List.modifyHead_cons]
      cases k with
      | zero =>
        rw [mem_offsets_zero, hfirst]
        simp [StartsLine, lineAt, ha]
      | succ k =>
        have hmem : (p + (k + 1), l) ∈ offsets p ((a :: first) :: rest) ↔
            (p + (k + 1), l) ∈ offsets (p + 1 + first.length + 1) rest := by
          rw [show p + 1 + first.length + 1 = p + (a :: first).length + 1 by
            rw [List.length_cons]; omega]
          exact (mem_offsets_tail.trans (and_iff_right k.succ_ne_zero)).symm
        rw [hmem, htail, startsLine_cons_succ, lineAt_cons_succ]
        simp only [ha, and_false, false_or, and_assoc]

end Lines

end FlsunT1.Library
