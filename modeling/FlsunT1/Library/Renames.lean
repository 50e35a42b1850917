/-
  Library/Renames.lean --- entries of a map that move from name to name, one after another.
-/
import Mathlib.Data.List.Nodup
import Mathlib.Logic.Function.Basic

set_option autoImplicit false

namespace FlsunT1.Library

variable {α β γ : Type*} [DecidableEq α]

/-- What is under the first name moves to the second, over what was there. -/
def moveEntry (f : α → Option β) (names : α × α) (k : α) : Option β :=
  match f names.1 with
  | none => f k
  | some v => if k = names.2 then some v else if k = names.1 then none else f k

/-- Moves in their order. -/
def moveEntries (f : α → Option β) (pairs : List (α × α)) : α → Option β :=
  pairs.foldl moveEntry f

/-- The first move does not go to where the second one comes from or goes to. -/
def Separate (p q : α × α) : Prop := p.2 ≠ q.1 ∧ p.2 ≠ q.2

theorem moveEntry_self {f : α → Option β} {names : α × α} {v : β} (h : f names.1 = some v) :
    moveEntry f names names.2 = some v := by
  simp only [moveEntry, h, if_pos]

theorem moveEntry_of_ne {f : α → Option β} {names : α × α} {k : α} (hfst : k ≠ names.1)
    (hsnd : k ≠ names.2) : moveEntry f names k = f k := by
  rw [moveEntry]
  split
  · rfl
  · rw [if_neg hsnd, if_neg hfst]

theorem moveEntries_of_ne {f : α → Option β} {pairs : List (α × α)} {k : α}
    (h : ∀ p ∈ pairs, k ≠ p.1 ∧ k ≠ p.2) : moveEntries f pairs k = f k := by
  induction pairs generalizing f with
  | nil => rfl
  | cons p pairs ih =>
    obtain ⟨hp, hpairs⟩ := List.forall_mem_cons.mp h
    rw [moveEntries, List.foldl_cons, ← moveEntries, ih hpairs, moveEntry_of_ne hp.1 hp.2]

/-- Moves that are separate carry each entry to its new name. -/
theorem moveEntries_of_separate {f : α → Option β} {pairs : List (α × α)}
    (hnodup : (pairs.map Prod.fst).Nodup) (hseparate : pairs.Pairwise Separate) {p : α × α}
    (hp : p ∈ pairs) {v : β} (hv : f p.1 = some v) : moveEntries f pairs p.2 = some v := by
  induction pairs generalizing f with
  | nil => cases hp
  | cons q pairs ih =>
    obtain ⟨hq, hnodup⟩ := List.nodup_cons.mp hnodup
    obtain ⟨hfirst, hseparate⟩ := List.pairwise_cons.mp hseparate
    rw [moveEntries, List.foldl_cons, ← moveEntries]
    rcases List.mem_cons.mp hp with rfl | hp
    · rw [moveEntries_of_ne hfirst, moveEntry_self hv]
    · refine ih hnodup hseparate hp ?_
      have hne : p.1 ≠ q.1 := fun heq => hq (heq ▸ List.mem_map_of_mem hp)
      rw [moveEntry_of_ne hne (hfirst p hp).1.symm, hv]

/-- After moves there is an entry only where there was one or where one was moved to. -/
theorem moveEntries_ne_none {f : α → Option β} {pairs : List (α × α)} {k : α}
    (h : moveEntries f pairs k ≠ none) : f k ≠ none ∨ ∃ p ∈ pairs, k = p.2 := by
  by_contra hno
  obtain ⟨hk, hpairs⟩ := not_or.mp hno
  refine h ?_
  clear h hno
  induction pairs generalizing f with
  | nil => exact not_not.mp hk
  | cons p pairs ih =>
    refine ih (f := moveEntry f p) ?_ fun ⟨q, hq, heq⟩ =>
      hpairs ⟨q, List.mem_cons_of_mem _ hq, heq⟩
    rw [not_not, moveEntry]
    split
    · exact not_not.mp hk
    · rw [if_neg fun heq => hpairs ⟨p, List.mem_cons_self, heq⟩, not_not.mp hk, ite_self]

/-- Maps that agree on some names still do after moves between these. -/
theorem moveEntries_congr {f g : α → Option β} {S : α → Prop} {pairs : List (α × α)}
    (h : ∀ k, S k → f k = g k) (hpairs : ∀ p ∈ pairs, S p.1 ∧ S p.2) :
    ∀ k, S k → moveEntries f pairs k = moveEntries g pairs k := by
  induction pairs generalizing f g with
  | nil => exact h
  | cons p pairs ih =>
    obtain ⟨hp, hpairs⟩ := List.forall_mem_cons.mp hpairs
    refine ih (fun k hk => ?_) hpairs
    rw [moveEntry, moveEntry, h p.1 hp.1]
    split
    · exact h k hk
    · rw [h k hk]

/-- Moving goes along with a change of all the values. -/
theorem moveEntries_map (φ : β → γ) (f : α → Option β) (pairs : List (α × α)) :
    moveEntries (fun k => (f k).map φ) pairs = fun k => (moveEntries f pairs k).map φ := by
  induction pairs generalizing f with
  | nil => rfl
  | cons p pairs ih =>
    have hone : moveEntry (fun k => (f k).map φ) p = fun k => (moveEntry f p k).map φ := by
      funext k
      rw [moveEntry, moveEntry]
      cases f p.1 with
      | none => rfl
      | some v =>
        show (if k = p.2 then some (φ v) else if k = p.1 then none else (f k).map φ) =
          (if k = p.2 then some v else if k = p.1 then none else f k).map φ
        split
        · rfl
        · split <;> rfl
    rw [moveEntries, List.foldl_cons, hone]
    exact ih _

end FlsunT1.Library
