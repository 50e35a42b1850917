/-
  Library/Tally.lean --- sums over the keys of a table.

  A program that keeps a counter next to a table of lists relies on a few laws:
  what the sum becomes when one entry of the table is replaced, when a key is
  dropped or added, and that a sum that is not zero has an entry that is not.
-/
import Mathlib.Algebra.BigOperators.Group.List.Basic
import Mathlib.Data.List.Nodup
import Mathlib.Logic.Function.Basic
import Mathlib.Tactic.Abel

set_option autoImplicit false

namespace FlsunT1.Library

variable {ι β M : Type*} [DecidableEq ι] [AddCommMonoid M]

/-- The sum of `g` over the entries of the keys `l`. -/
def tally (l : List ι) (f : ι → β) (g : β → M) : M := (l.map fun i => g (f i)).sum

variable {l : List ι} {f : ι → β} {g : β → M} {i : ι} {b : β}

/-- The entry of a key outside the list does not count. -/
theorem tally_update_of_not_mem (h : i ∉ l) :
    tally l (Function.update f i b) g = tally l f g := by
  unfold tally
  congr 1
  refine List.map_congr_left fun j hj => ?_
  have hne : j ≠ i := fun heq => h (heq ▸ hj)
  rw [Function.update_of_ne hne]

/-- Replacing the entry of a key. -/
theorem tally_update (hnodup : l.Nodup) (h : i ∈ l) :
    tally l (Function.update f i b) g + g (f i) = tally l f g + g b := by
  induction l with
  | nil => cases h
  | cons j l ih =>
    obtain ⟨hj, hl⟩ := List.nodup_cons.mp hnodup
    by_cases hij : j = i
    · subst hij
      have hrest := tally_update_of_not_mem (f := f) (g := g) (b := b) hj
      unfold tally at hrest ⊢
      rw [List.map_cons, List.map_cons, List.sum_cons, List.sum_cons, hrest, Function.update_self]
      abel
    · have hmem : i ∈ l := by
        rcases List.mem_cons.mp h with heq | hmem
        · exact absurd heq.symm hij
        · exact hmem
      have hrest := ih hl hmem
      unfold tally at hrest ⊢
      rw [List.map_cons, List.map_cons, List.sum_cons, List.sum_cons, Function.update_of_ne hij,
        add_assoc, hrest, add_assoc]

/-- Dropping a key. -/
theorem tally_erase (h : i ∈ l) : g (f i) + tally (l.erase i) f g = tally l f g :=
  List.sum_map_erase (fun i => g (f i)) h

omit [DecidableEq ι] in
/-- Adding a key. -/
theorem tally_snoc : tally (l ++ [i]) f g = tally l f g + g (f i) := by
  simp [tally]

omit [DecidableEq ι] in
/-- A sum that is not zero has an entry that is not. -/
theorem exists_of_tally_ne_zero (h : tally l f g ≠ 0) : ∃ i ∈ l, g (f i) ≠ 0 := by
  by_contra hall
  push Not at hall
  refine h (List.sum_eq_zero fun x hx => ?_)
  obtain ⟨i, hi, rfl⟩ := List.mem_map.mp hx
  exact hall i hi

end FlsunT1.Library
