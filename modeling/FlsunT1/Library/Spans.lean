/-
  Library/Spans.lean --- half-open spans of a linear order, and things laid end to end.

  A list of spans is in order when every one ends before the next one starts, where empty
  spans do not count; then no point is in two of them.  A chain of things whose ends meet
  leaves no point out between its first start and its last end.
-/
import Mathlib.Order.Defs.LinearOrder
import Mathlib.Order.Basic
import Mathlib.Order.Lattice
import Mathlib.Data.List.Chain

set_option autoImplicit false

namespace FlsunT1.Library

/-! ## Spans -/

structure Span (K : Type*) where
  start : K
  stop : K
  deriving DecidableEq, Repr

namespace Span

variable {K : Type*} [LinearOrder K] {l l' : List (Span K)}

def Contains (s : Span K) (t : K) : Prop := s.start ≤ t ∧ t < s.stop

/-- `a` ends before `b` starts, unless one of them is empty. -/
def Before (a b : Span K) : Prop := a.start < a.stop → b.start < b.stop → a.stop ≤ b.start

/-- Every span is before those that follow it. -/
def Ordered (l : List (Span K)) : Prop := l.Pairwise Before

/-- Some span of the list contains the point. -/
def Covers (l : List (Span K)) (t : K) : Prop := ∃ s ∈ l, s.Contains t

theorem Ordered.append (h : Ordered l) (h' : Ordered l')
    (hbefore : ∀ a ∈ l, ∀ b ∈ l', a.Before b) : Ordered (l ++ l') :=
  List.pairwise_append.mpr ⟨h, h', hbefore⟩

/-- No point is in two spans. -/
theorem Ordered.disjoint (h : Ordered l) :
    l.Pairwise fun a b => ∀ t, ¬(a.Contains t ∧ b.Contains t) := by
  refine h.imp ?_
  rintro a b hbefore t ⟨ha, hb⟩
  have hle := hbefore (ha.1.trans_lt ha.2) (hb.1.trans_lt hb.2)
  exact absurd (hb.1.trans_lt ha.2) (not_lt.mpr hle)

theorem Covers.left {t : K} (h : Covers l t) : Covers (l ++ l') t := by
  obtain ⟨s, hmem, hs⟩ := h
  exact ⟨s, List.mem_append_left _ hmem, hs⟩

theorem Covers.right {t : K} (h : Covers l' t) : Covers (l ++ l') t := by
  obtain ⟨s, hmem, hs⟩ := h
  exact ⟨s, List.mem_append_right _ hmem, hs⟩

end Span

/-! ## Chains -/

section Chain

variable {α K : Type*} [LinearOrder K] {start stop : α → K} {l : List α}

/-- Everything in a chain ends before what comes later starts. -/
theorem stop_le_start_of_chain (h : l.IsChain fun a b => stop a = start b)
    (hle : ∀ a ∈ l, start a ≤ stop a) : l.Pairwise fun a b => stop a ≤ start b := by
  induction l with
  | nil => exact List.Pairwise.nil
  | cons a l ih =>
    have htail := ih h.tail fun b hb => hle b (List.mem_cons_of_mem _ hb)
    refine List.pairwise_cons.mpr ⟨?_, htail⟩
    cases l with
    | nil =>
      intro b hb
      cases hb
    | cons c l =>
      have hc := (List.isChain_cons_cons.mp h).1
      intro b hb
      rcases List.mem_cons.mp hb with rfl | hb
      · exact hc.le
      · have hcb := (List.pairwise_cons.mp htail).1 b hb
        exact hc.le.trans ((hle c (by simp)).trans hcb)

/-- Nothing in a chain ends after its last end. -/
theorem stop_le_of_chain (h : l.IsChain fun a b => stop a = start b)
    (hle : ∀ a ∈ l, start a ≤ stop a) {p : K} (hlast : ∀ x ∈ l.getLast?, stop x = p) {y : α}
    (hy : y ∈ l) : stop y ≤ p := by
  obtain ⟨first, x, rfl⟩ : ∃ first x, l = first ++ [x] :=
    List.eq_nil_or_concat' l |>.resolve_left (List.ne_nil_of_mem hy)
  have hx := hlast x (by rw [List.getLast?_concat]; rfl)
  rcases List.mem_append.mp hy with hy | hy
  · have hpairs := stop_le_start_of_chain h hle
    have hyx := (List.pairwise_append.mp hpairs).2.2 y hy x (List.mem_singleton.mpr rfl)
    exact hyx.trans ((hle x (List.mem_append_right _ (List.mem_singleton.mpr rfl))).trans hx.le)
  · rw [List.mem_singleton.mp hy]
    exact hx.le

/-- A point after some start and before the last end lies within the chain. -/
theorem exists_contains_of_chain (h : l.IsChain fun a b => stop a = start b) {p t : K}
    (hlast : ∀ x ∈ l.getLast?, stop x = p) (hstart : ∃ x ∈ l, start x ≤ t) (ht : t < p) :
    ∃ y ∈ l, start y ≤ t ∧ t < stop y := by
  induction l with
  | nil =>
    obtain ⟨x, hx, -⟩ := hstart
    cases hx
  | cons a l ih =>
    rcases lt_or_ge t (stop a) with hlt | hge
    · rcases le_or_gt (start a) t with ha | ha
      · exact ⟨a, List.mem_cons_self, ha, hlt⟩
      · obtain ⟨x, hx, hle⟩ := hstart
        rcases List.mem_cons.mp hx with rfl | hx
        · exact absurd hle (not_le.mpr ha)
        · cases l with
          | nil => cases hx
          | cons c l =>
            obtain ⟨y, hy, hin⟩ := ih h.tail
              (fun y hy => hlast y (by rwa [List.getLast?_cons_cons])) ⟨x, hx, hle⟩
            exact ⟨y, List.mem_cons_of_mem _ hy, hin⟩
    · cases l with
      | nil =>
        have hp := hlast a rfl
        exact absurd ht (not_lt.mpr (hp ▸ hge))
      | cons c l =>
        have hc := (List.isChain_cons_cons.mp h).1
        obtain ⟨y, hy, hin⟩ := ih h.tail
          (fun y hy => hlast y (by rwa [List.getLast?_cons_cons]))
          ⟨c, List.mem_cons_self, hc ▸ hge⟩
        exact ⟨y, List.mem_cons_of_mem _ hy, hin⟩

end Chain

end FlsunT1.Library
