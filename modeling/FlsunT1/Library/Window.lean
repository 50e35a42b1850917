/-
  Library/Window.lean --- the part of a list between two boundaries.

  A condition that holds from some place on, and one that holds up to some place, select a
  window of the list.
-/
import Mathlib.Data.List.Basic

set_option autoImplicit false

namespace FlsunT1.Library

variable {α : Type*}

/-- Whatever follows an element with the property has it. -/
def FromOn (p : α → Bool) (l : List α) : Prop := l.Pairwise fun a b => p a = true → p b = true

/-- Whatever comes before an element with the property has it. -/
def UpTo (p : α → Bool) (l : List α) : Prop := l.Pairwise fun a b => p b = true → p a = true

theorem filter_eq_dropWhile {p : α → Bool} {l : List α} (h : FromOn p l) :
    l.filter p = l.dropWhile fun a => !p a := by
  induction l with
  | nil => rfl
  | cons a l ih =>
    obtain ⟨ha, hl⟩ := List.pairwise_cons.mp h
    cases hp : p a with
    | false =>
      rw [List.filter_cons_of_neg (by rw [hp]; exact Bool.false_ne_true),
        List.dropWhile_cons_of_pos (by rw [hp]; rfl), ih hl]
    | true =>
      rw [List.filter_cons_of_pos hp,
        List.dropWhile_cons_of_neg (by rw [hp]; exact Bool.false_ne_true),
        List.filter_eq_self.mpr fun b hb => ha b hb hp]

theorem filter_eq_takeWhile {p : α → Bool} {l : List α} (h : UpTo p l) :
    l.filter p = l.takeWhile p := by
  induction l with
  | nil => rfl
  | cons a l ih =>
    obtain ⟨ha, hl⟩ := List.pairwise_cons.mp h
    cases hp : p a with
    | false =>
      rw [List.filter_cons_of_neg (by rw [hp]; exact Bool.false_ne_true),
        List.takeWhile_cons_of_neg (by rw [hp]; exact Bool.false_ne_true)]
      refine List.filter_eq_nil_iff.mpr fun b hb hpb => ?_
      rw [ha b hb hpb] at hp
      cases hp
    | true => rw [List.filter_cons_of_pos hp, List.takeWhile_cons_of_pos hp, ih hl]

/-- The number of elements before the first with the property. -/
def startOf (p : α → Bool) (l : List α) : ℕ := (l.takeWhile fun a => !p a).length

/-- The number of elements before the first without the property. -/
def stopOf (p : α → Bool) (l : List α) : ℕ := (l.takeWhile p).length

theorem startOf_of_pos {p : α → Bool} {a : α} (h : p a = true) (l : List α) :
    startOf p (a :: l) = 0 := by
  unfold startOf
  rw [List.takeWhile_cons_of_neg (by rw [h]; exact Bool.false_ne_true), List.length_nil]

theorem startOf_of_neg {p : α → Bool} {a : α} (h : p a = false) (l : List α) :
    startOf p (a :: l) = startOf p l + 1 := by
  unfold startOf
  rw [List.takeWhile_cons_of_pos (by rw [h]; rfl), List.length_cons]

theorem stopOf_le (p : α → Bool) (l : List α) : stopOf p l ≤ l.length :=
  (List.takeWhile_prefix p).length_le

theorem stopOf_of_forall {p : α → Bool} {l : List α} (h : ∀ a ∈ l, p a = true) :
    stopOf p l = l.length := by
  unfold stopOf
  induction l with
  | nil => rfl
  | cons a l ih =>
    obtain ⟨ha, hl⟩ := List.forall_mem_cons.mp h
    rw [List.takeWhile_cons_of_pos ha, List.length_cons, List.length_cons, ih hl]

theorem take_stopOf (p : α → Bool) (l : List α) : l.take (stopOf p l) = l.takeWhile p :=
  (List.prefix_iff_eq_take.mp (List.takeWhile_prefix p)).symm

theorem dropWhile_take (p : α → Bool) (l : List α) (n : ℕ) :
    ((l.take n).dropWhile fun a => !p a) = (l.take n).drop (startOf p l) := by
  induction l generalizing n with
  | nil => rw [List.take_nil, List.dropWhile_nil, List.drop_nil]
  | cons a l ih =>
    cases n with
    | zero => rw [List.take_zero, List.dropWhile_nil, List.drop_nil]
    | succ n =>
      rw [List.take_succ_cons]
      cases hp : p a with
      | false =>
        rw [List.dropWhile_cons_of_pos (by rw [hp]; rfl), startOf_of_neg hp, ih,
          List.drop_succ_cons]
      | true =>
        rw [List.dropWhile_cons_of_neg (by rw [hp]; exact Bool.false_ne_true), startOf_of_pos hp,
          List.drop_zero]

/-- What has both properties is what lies between the two boundaries. -/
theorem filter_and_eq_window {p q : α → Bool} {l : List α} (hp : FromOn p l) (hq : UpTo q l) :
    l.filter (fun a => p a && q a) = (l.take (stopOf q l)).drop (startOf p l) := by
  rw [← List.filter_filter, filter_eq_takeWhile hq, ← take_stopOf,
    filter_eq_dropWhile (hp.sublist (List.take_sublist _ _)), dropWhile_take]

end FlsunT1.Library
